import FilterWorkspace.EntryId.Basic

/-! Directed graphs of references. A node has a recorded set of targets; an identifier that stands
only as a target is no node and leads nowhere. -/

namespace FilterWorkspace

structure ReferenceGraph where
  edges : IdMap IdSet

namespace ReferenceGraph

def empty : ReferenceGraph := ⟨∅⟩

def references? (g : ReferenceGraph) (id : EntryId) : Option IdSet := g.edges[id]?

theorem ext_references? {g g' : ReferenceGraph} (h : ∀ id, g.references? id = g'.references? id) : g = g' :=
  congrArg mk (Std.ExtTreeMap.ext_getElem? fun {id} => h id)

def successors (g : ReferenceGraph) (id : EntryId) : List EntryId :=
  match g.references? id with
  | none => []
  | some targets => targets.toList

def Edge (g : ReferenceGraph) (a b : EntryId) : Prop := ∃ targets, g.references? a = some targets ∧ b ∈ targets

theorem successors_eq_nil (g : ReferenceGraph) {id : EntryId} (h : id ∉ g.edges.keys) :
    g.successors id = [] := by
  have hid : id ∉ g.edges := mt Std.ExtTreeMap.mem_keys.2 h
  simp [successors, references?, Std.ExtTreeMap.getElem?_eq_none hid]

@[simp] theorem mem_successors {g : ReferenceGraph} {a b : EntryId} : b ∈ g.successors a ↔ g.Edge a b := by
  unfold successors Edge
  cases g.references? a <;> simp

instance (g : ReferenceGraph) (a b : EntryId) : Decidable (g.Edge a b) :=
  decidable_of_iff _ mem_successors

def insert (g : ReferenceGraph) (id : EntryId) (targets : IdSet) : ReferenceGraph :=
  ⟨g.edges.insert id targets⟩

def addEdge (g : ReferenceGraph) (source target : EntryId) : ReferenceGraph :=
  g.insert source (((g.references? source).getD ∅).insert target)

/-- Forgets the node and its targets. Edges that lead to it stay. -/
def erase (g : ReferenceGraph) (id : EntryId) : ReferenceGraph := ⟨g.edges.erase id⟩

@[simp] theorem references?_insert (g : ReferenceGraph) (id other : EntryId) (targets : IdSet) :
    (g.insert id targets).references? other = if id = other then some targets else g.references? other := by
  simp [references?, insert, Std.ExtTreeMap.getElem?_insert]

@[simp] theorem references?_erase (g : ReferenceGraph) (id other : EntryId) :
    (g.erase id).references? other = if id = other then none else g.references? other := by
  simp [references?, erase, Std.ExtTreeMap.getElem?_erase]

@[simp] theorem edge_insert {g : ReferenceGraph} {id a b : EntryId} {targets : IdSet} :
    (g.insert id targets).Edge a b ↔ if id = a then b ∈ targets else g.Edge a b := by
  unfold Edge
  rw [references?_insert]
  split <;> simp

@[simp] theorem edge_erase {g : ReferenceGraph} {id a b : EntryId} :
    (g.erase id).Edge a b ↔ id ≠ a ∧ g.Edge a b := by
  unfold Edge
  rw [references?_erase]
  split <;> simp [*]

end ReferenceGraph
end FilterWorkspace
