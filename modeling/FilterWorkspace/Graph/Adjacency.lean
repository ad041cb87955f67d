import FilterWorkspace.Graph.Basic

/-! Finite directed graphs, given by what each identifier leads to. A search through one comes to an
end because the edges that leave nodes not yet seen become fewer. -/

namespace FilterWorkspace

structure Adjacency where
  next : EntryId → List EntryId
  nodes : List EntryId
  next_eq_nil : ∀ {id}, id ∉ nodes → next id = []

namespace Adjacency

def edgesOutside (g : Adjacency) (seen : IdSet) : List EntryId → Nat
  | [] => 0
  | id :: ids => (if id ∈ seen then 0 else (g.next id).length) + edgesOutside g seen ids

theorem edgesOutside_le (g : Adjacency) {seen more : IdSet} (h : ∀ {id}, id ∈ seen → id ∈ more)
    (ids : List EntryId) : g.edgesOutside more ids ≤ g.edgesOutside seen ids := by
  induction ids with
  | nil => exact Nat.le_refl 0
  | cons id ids ih =>
    simp only [edgesOutside]
    split
    · omega
    · rw [if_neg (mt h ‹_›)]
      omega

theorem edgesOutside_insert_add_le (g : Adjacency) {seen : IdSet} {id : EntryId} {ids : List EntryId}
    (hid : id ∉ seen) (h : id ∈ ids) :
    g.edgesOutside (seen.insert id) ids + (g.next id).length ≤ g.edgesOutside seen ids := by
  have hgrows {other : EntryId} : other ∈ seen → other ∈ seen.insert id := by simp +contextual
  induction ids with
  | nil => simp at h
  | cons other ids ih =>
    rcases List.mem_cons.1 h with rfl | h
    · have hrest := g.edgesOutside_le hgrows ids
      rw [edgesOutside, edgesOutside, if_pos (by simp), if_neg hid]
      omega
    · have hrest := ih h
      simp only [edgesOutside]
      split
      · omega
      · rw [if_neg (mt hgrows ‹_›)]
        omega

def pending (g : Adjacency) (seen : IdSet) : Nat := g.edgesOutside seen g.nodes

theorem pending_le (g : Adjacency) {seen more : IdSet} (h : ∀ {id}, id ∈ seen → id ∈ more) :
    g.pending more ≤ g.pending seen :=
  g.edgesOutside_le h g.nodes

theorem pending_insert_add_le (g : Adjacency) {seen : IdSet} {id : EntryId} (h : id ∉ seen) :
    g.pending (seen.insert id) + (g.next id).length ≤ g.pending seen := by
  by_cases hid : id ∈ g.nodes
  · exact g.edgesOutside_insert_add_le h hid
  · rw [g.next_eq_nil hid]
    exact g.pending_le (by simp +contextual)

end Adjacency

namespace ReferenceGraph

def adjacency (g : ReferenceGraph) : Adjacency where
  next := g.successors
  nodes := g.edges.keys
  next_eq_nil h := g.successors_eq_nil h

def overlaid (g : ReferenceGraph) (id : EntryId) (targets : IdSet) : Adjacency where
  next a := if a = id then targets.toList else g.successors a
  nodes := id :: g.edges.keys
  next_eq_nil h := by
    rw [List.mem_cons, not_or] at h
    rw [if_neg h.1, g.successors_eq_nil h.2]

end ReferenceGraph
end FilterWorkspace
