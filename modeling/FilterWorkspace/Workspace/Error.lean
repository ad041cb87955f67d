import FilterWorkspace.EntryId.Basic

/-! Why a call on a workspace fails. -/

namespace FilterWorkspace.Workspace

inductive Error where
  /-- The identifier names no entry that the workspace holds. -/
  | unknownReference (id : EntryId)
  /-- The references would close the cycle `ids`, or, where sharing is refused, the first of two
  `ids` leads to the second. -/
  | cycle (ids : List EntryId)
  /-- A caller was interrupted in the middle of a change of a shared workspace. -/
  | poisoned
deriving DecidableEq, Repr

def Error.message : Error → String
  | unknownReference id => "unknown reference: " ++ id.text ++ " is not an entry in this mixer"
  | cycle ids => "cycle detected among references: " ++ " -> ".intercalate (ids.map EntryId.text)
  | poisoned => "shared mixer lock poisoned"

end FilterWorkspace.Workspace
