import FilterWorkspace.Workspace.Call

/-! Other identifiers and other leaves in the place of those that stand in what a workspace is given and
gives back. -/

namespace FilterWorkspace

variable {L M : Type}

def EntryId.under (space : String) (id : EntryId) : EntryId := ⟨space ++ id.text⟩

def EntryId.moved (old new : String) (id : EntryId) : EntryId :=
  ⟨new ++ String.ofList (id.text.toList.drop old.length)⟩

def IdSet.map (f : EntryId → EntryId) (ids : IdSet) : IdSet := .ofList (ids.toList.map f)

variable (f : EntryId → EntryId) (φ : L → M)

def Child.map : Child L → Child M
  | leaf value => leaf (φ value)
  | reference id => reference (f id)

def Compound.map (c : Compound L) : Compound M := ⟨c.op, c.content.map (Child.map f φ)⟩

def Payload.map : Payload L → Payload M
  | leaf value => leaf (φ value)
  | compound c => compound (c.map f φ)

def Entry.map (e : Entry L) : Entry M := ⟨f e.id, e.payload.map f φ, IdSet.map f e.references⟩

namespace Tree

mutual

def map (φ : L → M) : Tree L → Tree M
  | leaf value => leaf (φ value)
  | compound op content => compound op (mapAll φ content)

def mapAll (φ : L → M) : List (Tree L) → List (Tree M)
  | [] => []
  | t :: ts => t.map φ :: mapAll φ ts

end

end Tree

namespace Workspace

def Error.map : Error → Error
  | unknownReference id => unknownReference (f id)
  | cycle ids => cycle (ids.map f)
  | poisoned => poisoned

def mapResult {α β : Type} (g : α → β) : Except Error α → Except Error β
  | .ok a => .ok (g a)
  | .error e => .error (e.map f)

end Workspace

namespace Call

def map : Call L → Call M
  | put value => put (φ value)
  | remove id => remove (f id)
  | combine op operands => combine op (operands.map (Child.map f φ))
  | register c => register (c.map f φ)
  | join op operands => join op (operands.map (Child.map f φ))
  | get id => get (f id)
  | has id => has (f id)
  | size => size
  | isEmpty => isEmpty
  | entries => entries
  | nextId => nextId
  | resolve id => resolve (f id)
  | allReferences id => allReferences (f id)
  | hasLoop ids => hasLoop (ids.map f)

def ids : Call L → List EntryId
  | remove id | get id | has id | resolve id | allReferences id => [id]
  | combine _ operands | join _ operands => operands.filterMap Child.reference?
  | register c => c.references
  | hasLoop ids => ids
  | put _ | size | isEmpty | entries | nextId => []

end Call

def Reply.map : Reply L → Reply M
  | entry e => entry (e.map f φ)
  | found e => found (e.map (Entry.map f φ))
  | entries es => entries (es.map (Entry.map f φ))
  | compound c => compound (c.map f φ)
  | tree t => tree (t.map φ)
  | id a => id (f a)
  | ids below => ids (IdSet.map f below)
  | flag b => flag b
  | count n => count n
  | failure e => failure (e.map f)

end FilterWorkspace
