import FilterWorkspace.Workspace.Resolution

/-! Resolving as it goes on. A call for an identifier looks up the entry and goes through its children from
left to right; for a reference it makes a further call and waits until that returns. An error goes back
through all the calls that wait. -/

namespace FilterWorkspace

variable {L : Type}

structure PendingCall (L : Type) where
  id : EntryId
  op : Combinator
  done : List (Tree L)
  rest : List (Child L)

/-- Where resolving has come to. The calls that wait for another one stand in `waiting`, the latest first. -/
inductive Resolving (L : Type) where
  | called (id : EntryId) (waiting : List (PendingCall L))
  | within (call : PendingCall L) (waiting : List (PendingCall L))
  | returned (result : Except Workspace.Error (Tree L)) (waiting : List (PendingCall L))

namespace Resolving

def active : Resolving L → List EntryId
  | called id waiting => id :: waiting.map PendingCall.id
  | within call waiting => call.id :: waiting.map PendingCall.id
  | returned _ waiting => waiting.map PendingCall.id

def pending : Resolving L → List (PendingCall L)
  | called _ waiting => waiting
  | within call waiting => call :: waiting
  | returned _ waiting => waiting

def next? (w : Workspace L) : Resolving L → Option (Resolving L)
  | called id waiting =>
    match w.get? id with
    | none => some (returned (.error (.unknownReference id)) waiting)
    | some e =>
      match e.payload with
      | .leaf value => some (returned (.ok (.leaf value)) waiting)
      | .compound c => some (within ⟨id, c.op, [], c.content⟩ waiting)
  | within ⟨_, op, done, []⟩ waiting => some (returned (.ok (.compound op done)) waiting)
  | within ⟨id, op, done, .leaf value :: rest⟩ waiting =>
    some (within ⟨id, op, done ++ [.leaf value], rest⟩ waiting)
  | within ⟨id, op, done, .reference a :: rest⟩ waiting => some (called a (⟨id, op, done, rest⟩ :: waiting))
  | returned (.ok t) (⟨id, op, done, rest⟩ :: waiting) => some (within ⟨id, op, done ++ [t], rest⟩ waiting)
  | returned (.error e) (_ :: waiting) => some (returned (.error e) waiting)
  | returned _ [] => none

theorem next?_returned (w : Workspace L) (result : Except Workspace.Error (Tree L)) :
    (returned result []).next? w = none := by
  cases result <;> rfl

end Resolving
end FilterWorkspace
