import FilterWorkspace.Workspace.Combination
import FilterWorkspace.Workspace.Resolution

/-! The calls on a workspace as data, so that what holds after any series of calls can be said of
lists of them. -/

namespace FilterWorkspace

variable {L : Type}

inductive Call (L : Type) where
  | put (value : L)
  | remove (id : EntryId)
  | combine (op : Combinator) (operands : List (Child L))
  | register (c : Compound L)
  | join (op : Combinator) (operands : List (Child L))
  | get (id : EntryId)
  | has (id : EntryId)
  | size
  | isEmpty
  | entries
  | nextId
  | resolve (id : EntryId)
  | allReferences (id : EntryId)
  | hasLoop (ids : List EntryId)
deriving DecidableEq, Repr

inductive Reply (L : Type) where
  | entry (e : Entry L)
  | found (e : Option (Entry L))
  | entries (es : List (Entry L))
  | compound (c : Compound L)
  | tree (t : Tree L)
  | id (id : EntryId)
  | ids (ids : IdSet)
  | flag (b : Bool)
  | count (n : Nat)
  | failure (e : Workspace.Error)
deriving DecidableEq

namespace Reply

def ofExcept {α : Type} (reply : α → Reply L) : Except Workspace.Error α → Reply L
  | .ok a => reply a
  | .error e => failure e

end Reply

namespace Workspace

def perform (w : Workspace L) : Call L → Reply L × Workspace L
  | .put value =>
    let (e, w) := w.put value
    (.entry e, w)
  | .remove id =>
    let (e, w) := w.remove id
    (.found e, w)
  | .combine op operands => (.ofExcept .compound (w.combine op operands), w)
  | .register c =>
    let (result, w) := w.register c
    (.ofExcept .entry result, w)
  | .join op operands =>
    let (result, w) := w.join op operands
    (.ofExcept .entry result, w)
  | .get id => (.found (w.get? id), w)
  | .has id => (.flag (id ∈ w), w)
  | .size => (.count w.size, w)
  | .isEmpty => (.flag w.isEmpty, w)
  | .entries => (.entries w.toList, w)
  | .nextId => (.id w.nextId, w)
  | .resolve id => (.ofExcept .tree (w.resolve id), w)
  | .allReferences id => (.ofExcept .ids (w.allReferences id), w)
  | .hasLoop ids => (.ofExcept .flag (w.hasLoop ids), w)

def run (w : Workspace L) : List (Call L) → List (Reply L) × Workspace L
  | [] => ([], w)
  | call :: calls =>
    let (reply, w) := w.perform call
    let (replies, w) := run w calls
    (reply :: replies, w)

def after (w : Workspace L) (calls : List (Call L)) : Workspace L := (w.run calls).2

def Reachable (w : Workspace L) : Prop :=
  ∃ settings createdAt calls, w = (create settings createdAt).after calls

end Workspace

namespace Entry

/-! The calls that an entry makes in its own name, as their subject or as their first operand. -/

def joinCall (e : Entry L) (op : Combinator) (others : List (Child L)) : Call L :=
  .join op (e.operand :: others)

def hasLoopCall (e : Entry L) (others : List EntryId) : Call L := .hasLoop (e.id :: others)

def resolveCall (e : Entry L) : Call L := .resolve e.id

def allReferencesCall (e : Entry L) : Call L := .allReferences e.id

end Entry
end FilterWorkspace
