import FilterWorkspace.EntryId.Minter
import FilterWorkspace.Entry
import FilterWorkspace.Graph.Basic
import FilterWorkspace.Settings

/-! Workspaces hold entries under identifiers of their own minting, and beside them the graph of
their references. Entries never change, and an identifier is not given to another entry after a
removal. -/

namespace FilterWorkspace

variable {L : Type}

structure Workspace (L : Type) where
  settings : Settings
  ids : Minter
  entries : IdMap (Entry L)
  graph : ReferenceGraph

namespace Workspace

def create (settings : Settings) (createdAt : Int) : Workspace L :=
  ⟨settings, .fresh (settings.space createdAt), ∅, .empty⟩

def nextId (w : Workspace L) : EntryId := w.ids.peek

instance : Membership EntryId (Workspace L) := ⟨fun w id => id ∈ w.entries⟩

theorem mem_def {w : Workspace L} {id : EntryId} : id ∈ w ↔ id ∈ w.entries := Iff.rfl

instance (w : Workspace L) (id : EntryId) : Decidable (id ∈ w) :=
  inferInstanceAs (Decidable (id ∈ w.entries))

def get? (w : Workspace L) (id : EntryId) : Option (Entry L) := w.entries[id]?

theorem mem_iff_get? {w : Workspace L} {id : EntryId} : id ∈ w ↔ ∃ e, w.get? id = some e := by
  rw [mem_def, get?, Std.ExtTreeMap.mem_iff_isSome_getElem?, Option.isSome_iff_exists]

theorem notMem_iff_get? {w : Workspace L} {id : EntryId} : id ∉ w ↔ w.get? id = none := by
  rw [mem_iff_get?, ← Option.isSome_iff_exists, Option.not_isSome_iff_eq_none]

def size (w : Workspace L) : Nat := w.entries.size

def isEmpty (w : Workspace L) : Bool := w.entries.isEmpty

def toList (w : Workspace L) : List (Entry L) := w.entries.toList.map Prod.snd

def insert (w : Workspace L) (payload : Payload L) : Entry L × Workspace L :=
  let (id, ids) := w.ids.mint
  let e := Entry.ofPayload id payload
  (e, { w with ids, entries := w.entries.insert id e, graph := w.graph.insert id e.references })

@[simp] theorem insert_fst (w : Workspace L) (payload : Payload L) :
    (w.insert payload).1 = .ofPayload w.nextId payload := rfl

@[simp] theorem get?_insert (w : Workspace L) (payload : Payload L) (id : EntryId) :
    (w.insert payload).2.get? id = if w.nextId = id then some (.ofPayload id payload) else w.get? id := by
  unfold get?
  rw [show (w.insert payload).2.entries = w.entries.insert w.nextId (.ofPayload w.nextId payload) from rfl,
    Std.ExtTreeMap.getElem?_insert]
  simp only [Std.LawfulEqCmp.compare_eq_iff_eq]
  split
  · rw [‹w.nextId = id›]
  · rfl

@[simp] theorem mem_insert {w : Workspace L} {payload : Payload L} {id : EntryId} :
    id ∈ (w.insert payload).2 ↔ w.nextId = id ∨ id ∈ w := by
  rw [mem_iff_get?, mem_iff_get?, get?_insert]
  split <;> simp [*]

theorem size_insert {w : Workspace L} (h : w.nextId ∉ w) (payload : Payload L) :
    (w.insert payload).2.size = w.size + 1 :=
  Std.ExtTreeMap.size_insert.trans (if_neg h)

@[simp] theorem graph_insert (w : Workspace L) (payload : Payload L) :
    (w.insert payload).2.graph = w.graph.insert w.nextId payload.references := rfl

def put (w : Workspace L) (value : L) : Entry L × Workspace L := w.insert (.leaf value)

/-- The workspace without the entry of `id` and its node. Entries that refer to it stay as they are. -/
def drop (w : Workspace L) (id : EntryId) : Workspace L :=
  { w with entries := w.entries.erase id, graph := w.graph.erase id }

@[simp] theorem get?_drop (w : Workspace L) (id other : EntryId) :
    (w.drop id).get? other = if id = other then none else w.get? other := by
  simp [drop, get?, Std.ExtTreeMap.getElem?_erase]

@[simp] theorem mem_drop {w : Workspace L} {id other : EntryId} :
    other ∈ w.drop id ↔ id ≠ other ∧ other ∈ w := by
  rw [mem_iff_get?, mem_iff_get?, get?_drop]
  split <;> simp [*]

theorem size_drop {w : Workspace L} {id : EntryId} (h : id ∈ w) : (w.drop id).size + 1 = w.size := by
  have hsize : (w.drop id).size = w.size - 1 := Std.ExtTreeMap.size_erase.trans (if_pos h)
  have hpos : w.size ≠ 0 := fun hzero => by
    rw [mem_def, Std.ExtTreeMap.eq_empty_iff_size_eq_zero.2 hzero] at h
    simp at h
  omega

def remove (w : Workspace L) (id : EntryId) : Option (Entry L) × Workspace L :=
  match w.get? id with
  | none => (none, w)
  | some e => (some e, w.drop id)

end Workspace
end FilterWorkspace
