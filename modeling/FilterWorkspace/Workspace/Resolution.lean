import FilterWorkspace.Expression.Tree
import FilterWorkspace.Graph.Closure
import FilterWorkspace.Workspace.Basic
import FilterWorkspace.Workspace.Error

/-! Expanding an entry into the tree it stands for. Each reference is expanded where it stands, so
what is referred to twice appears twice. -/

namespace FilterWorkspace

variable {L : Type}

def Child.expand {ε : Type} (tree : EntryId → Except ε (Tree L)) : Child L → Except ε (Tree L)
  | leaf value => .ok (.leaf value)
  | reference id => tree id

def Payload.expand {ε : Type} (tree : EntryId → Except ε (Tree L)) : Payload L → Except ε (Tree L)
  | leaf value => .ok (.leaf value)
  | compound c => (c.content.mapM (Child.expand tree)).map (.compound c.op)

namespace Workspace

/-- The tree of `id`, following chains of at most `depth` entries. A chain of more entries than the
workspace holds would repeat one. -/
def resolveWithin (w : Workspace L) : Nat → EntryId → Except Error (Tree L)
  | 0, id => .error (.cycle [id])
  | depth + 1, id =>
    match w.entries[id]? with
    | none => .error (.unknownReference id)
    | some e => e.payload.expand (resolveWithin w depth)

/-- The tree of `id`; the first reference, from left to right, that is not held is an error. -/
def resolve (w : Workspace L) (id : EntryId) : Except Error (Tree L) :=
  w.resolveWithin (w.size + 1) id

theorem resolve_of_notMem {w : Workspace L} {id : EntryId} (h : id ∉ w) :
    w.resolve id = .error (.unknownReference id) := by
  have hnone : w.entries[id]? = none := notMem_iff_get?.1 h
  rw [resolve, resolveWithin, hnone]

theorem mem_of_resolve_eq_ok {w : Workspace L} {id : EntryId} {t : Tree L} (h : w.resolve id = .ok t) :
    id ∈ w := by
  refine Decidable.byContradiction fun hid => ?_
  rw [resolve_of_notMem hid] at h
  cases h

/-- All that `id` leads to. Removed entries are named, and lead no further. -/
def allReferences (w : Workspace L) (id : EntryId) : Except Error IdSet :=
  if id ∈ w then .ok (w.graph.closure id) else .error (.unknownReference id)

theorem allReferences_of_mem {w : Workspace L} {id : EntryId} (h : id ∈ w) :
    w.allReferences id = .ok (w.graph.closure id) := if_pos h

end Workspace
end FilterWorkspace
