import FilterWorkspace.Outcome
import FilterWorkspace.Workspace.Shared

/-! A bench of named workspaces. A name stands for a workspace of its own, or for a shared one that
other names may stand for too. -/

namespace FilterWorkspace

variable {L : Type}

namespace Workbench

inductive Slot (L : Type) where
  | own (workspace : Workspace L)
  | shared (cell : Nat)

inductive Error where
  /-- Nothing has this name. -/
  | vacant (name : String)
  /-- What has this name does not offer the call. -/
  | unsupported (name : String)
deriving DecidableEq, Repr

end Workbench

structure Workbench (L : Type) where
  slots : Std.ExtTreeMap String (Workbench.Slot L) Text.byteOrder
  cells : List (SharedWorkspace L)

namespace Workbench

def empty : Workbench L := ⟨∅, []⟩

def place (b : Workbench L) (name : String) (slot : Slot L) : Workbench L :=
  { b with slots := b.slots.insert name slot }

@[simp] theorem slots_place (b : Workbench L) (name other : String) (slot : Slot L) :
    (b.place name slot).slots[other]? = if name = other then some slot else b.slots[other]? := by
  simp [place, Std.ExtTreeMap.getElem?_insert]

def placeOwn (b : Workbench L) (name : String) (w : Workspace L) : Workbench L :=
  b.place name (.own w)

def placeShared (b : Workbench L) (name : String) (w : Workspace L) : Workbench L :=
  ⟨b.slots.insert name (.shared b.cells.length), b.cells ++ [.ofWorkspace w]⟩

def slot (b : Workbench L) (name : String) : Except Error (Slot L) :=
  match b.slots[name]? with
  | none => .error (.vacant name)
  | some s => .ok s

theorem slot_eq_ok_iff {b : Workbench L} {name : String} {s : Slot L} :
    b.slot name = .ok s ↔ b.slots[name]? = some s := by
  unfold slot
  cases b.slots[name]? <;> simp

def own (b : Workbench L) (name : String) : Except Error (Workspace L) := do
  match ← b.slot name with
  | .own w => .ok w
  | .shared _ => .error (.unsupported name)

theorem own_eq_ok_iff {b : Workbench L} {name : String} {w : Workspace L} :
    b.own name = .ok w ↔ b.slots[name]? = some (.own w) := by
  rw [← slot_eq_ok_iff]
  unfold own
  cases b.slot name with
  | error e => simp
  | ok s => cases s <;> simp

/-- Gives `other` to a copy of the workspace of `name`, or to the same one if it is shared. -/
def copy (b : Workbench L) (name other : String) : Except Error (Workbench L) := do
  return b.place other (← b.slot name)

theorem copy_eq_ok_iff {b b' : Workbench L} {name other : String} :
    b.copy name other = .ok b' ↔ ∃ s, b.slots[name]? = some s ∧ b.place other s = b' := by
  simp only [← slot_eq_ok_iff, copy]
  cases b.slot name <;> simp

def share (b : Workbench L) (name other : String) : Except Error (Workbench L) := do
  return b.placeShared other (← b.own name)

theorem share_eq_ok_iff {b b' : Workbench L} {name other : String} :
    b.share name other = .ok b' ↔ ∃ w, b.slots[name]? = some (.own w) ∧ b.placeShared other w = b' := by
  simp only [← own_eq_ok_iff, share]
  cases b.own name <;> simp

def performOwn (b : Workbench L) (name : String) (call : Call L) :
    Except Error (Reply L × Workbench L) := do
  let (reply, w) := (← b.own name).perform call
  return (reply, b.placeOwn name w)

def performShared (b : Workbench L) (name : String) (cell : Nat) (call : Call L) :
    Except Error (Reply L × Workbench L) :=
  match call.isShareable, b.cells[cell]? with
  | true, some s =>
    let (reply, s) := s.perform call
    .ok (reply, { b with cells := b.cells.set cell s })
  | _, _ => .error (.unsupported name)

def perform (b : Workbench L) (name : String) (call : Call L) :
    Except Error (Reply L × Workbench L) := do
  match ← b.slot name with
  | .own _ => b.performOwn name call
  | .shared cell => b.performShared name cell call

def interrupt (b : Workbench L) (name : String) :
    Except Error (Except Workspace.Error (Workbench L)) := do
  match ← b.slot name with
  | .own _ => .error (.unsupported name)
  | .shared cell =>
    match b.cells[cell]? with
    | none => .error (.unsupported name)
    | some s => .ok (s.interrupt.map fun s => { b with cells := b.cells.set cell s })

end Workbench
end FilterWorkspace
