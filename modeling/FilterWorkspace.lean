import FilterWorkspace.Expression.Form
import FilterWorkspace.Filter.Form
import FilterWorkspace.Json.Printer
import FilterWorkspace.Settings.Form
import FilterWorkspace.Reading.OfToml
import FilterWorkspace.Outcome
import FilterWorkspace.Workbench
import FilterWorkspace.Proofs.Graph.Reach
import FilterWorkspace.Proofs.Graph.Report
import FilterWorkspace.Proofs.Graph.Search
import FilterWorkspace.Proofs.Workspace.Step
import FilterWorkspace.Proofs.Workspace.Coherent
import FilterWorkspace.Proofs.Workspace.Ledger
import FilterWorkspace.Proofs.EntryId.First
import FilterWorkspace.Proofs.Workspace.Registration
import FilterWorkspace.Proofs.Workspace.Unfolding
import FilterWorkspace.Proofs.Workspace.Walk
import FilterWorkspace.Proofs.Workspace.Persistence
import FilterWorkspace.Proofs.Workspace.Substitution
import FilterWorkspace.Proofs.Workspace.Prediction
import FilterWorkspace.Proofs.Workspace.Separation
import FilterWorkspace.Proofs.Workspace.Postponement
import FilterWorkspace.Proofs.Workspace.Replay
import FilterWorkspace.Proofs.Workspace.Multiplicity
import FilterWorkspace.Workbench.Visit
import FilterWorkspace.Proofs.Workspace.Sharing
import FilterWorkspace.Proofs.Workbench.Independence
import FilterWorkspace.Json.Normal
import FilterWorkspace.Proofs.InOrder
import FilterWorkspace.Proofs.Workspace.Repetition
import FilterWorkspace.Proofs.Json.Normal
import FilterWorkspace.Proofs.Reading.Restoration
import FilterWorkspace.Proofs.Expression.Unambiguity
import FilterWorkspace.Workspace.Renaming
import FilterWorkspace.Proofs.EntryId.Renaming
import FilterWorkspace.Proofs.Workspace.Image
import FilterWorkspace.Proofs.Workspace.Renaming
import FilterWorkspace.Proofs.EntryId.Parts
import FilterWorkspace.Proofs.Workspace.Apartness
import FilterWorkspace.Proofs.Graph.Exhaustion
import FilterWorkspace.Proofs.Workspace.Leaves
import FilterWorkspace.Proofs.Graph.Route
import FilterWorkspace.Proofs.Graph.Overlay
import FilterWorkspace.Proofs.Workspace.Shrinking
import FilterWorkspace.Workspace.Resolving
import FilterWorkspace.Proofs.Workspace.Nesting
import FilterWorkspace.Proofs.Workspace.Exchange
import FilterWorkspace.Proofs.Filter.Print
import FilterWorkspace.Proofs.Filter.Build
import FilterWorkspace.Graph.Course
import FilterWorkspace.Proofs.Graph.Course
import FilterWorkspace.Proofs.Double.Nearest
import FilterWorkspace.Proofs.Json.Numeral
import FilterWorkspace.Proofs.Json.Number
import FilterWorkspace.Proofs.Json.Lexeme
import FilterWorkspace.Json.Contents
import FilterWorkspace.Proofs.Json.Print
import FilterWorkspace.Equality
import FilterWorkspace.Proofs.Equality
