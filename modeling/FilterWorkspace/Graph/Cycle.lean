import FilterWorkspace.Graph.Adjacency

/-! Depth-first search for a cycle. One search is shared by all its starting points: what an
earlier one has finished without finding a cycle is not entered again. -/

namespace FilterWorkspace

structure Search where
  visited : IdSet
  onPath : IdSet
  /-- The path from the starting point, its last identifier first. -/
  path : List EntryId

namespace Search

def start : Search := ⟨∅, ∅, []⟩

def enter (s : Search) (id : EntryId) : Search :=
  ⟨s.visited.insert id, s.onPath.insert id, id :: s.path⟩

def leave (s : Search) (id : EntryId) : Search :=
  { s with onPath := s.onPath.erase id, path := s.path.tail }

def cycleAt (s : Search) (id : EntryId) : Option (List EntryId) :=
  (s.path.idxOf? id).map fun i => (id :: s.path.take (i + 1)).reverse

structure Outcome (s : Search) where
  cycle : Option (List EntryId)
  search : Search
  visited_grows : ∀ {id}, id ∈ s.visited → id ∈ search.visited

end Search

namespace Adjacency

mutual

def visit (g : Adjacency) (id : EntryId) (s : Search) : s.Outcome :=
  if id ∈ s.onPath then ⟨s.cycleAt id, s, fun h => h⟩
  else if _ : id ∈ s.visited then ⟨none, s, fun h => h⟩
  else
    match g.visitAll (g.next id) (s.enter id) with
    | ⟨some cycle, t, h⟩ => ⟨some cycle, t, fun hs => h (by simp [Search.enter, hs])⟩
    | ⟨none, t, h⟩ => ⟨none, t.leave id, fun hs => h (by simp [Search.enter, hs])⟩
termination_by 2 * g.pending s.visited + 1
decreasing_by
  have := g.pending_insert_add_le ‹id ∉ s.visited›
  simp only [Search.enter]
  omega

def visitAll (g : Adjacency) (ids : List EntryId) (s : Search) : s.Outcome :=
  match ids with
  | [] => ⟨none, s, fun h => h⟩
  | id :: ids =>
    match g.visit id s with
    | ⟨some cycle, t, h⟩ => ⟨some cycle, t, h⟩
    | ⟨none, t, h⟩ =>
      let rest := g.visitAll ids t
      ⟨rest.cycle, rest.search, fun hs => rest.visited_grows (h hs)⟩
termination_by 2 * g.pending s.visited + 2 * ids.length
decreasing_by
  · simp only [List.length_cons]
    omega
  · have := g.pending_le h
    simp only [List.length_cons]
    omega

end

end Adjacency

namespace ReferenceGraph

def findCycle (g : ReferenceGraph) : Option (List EntryId) :=
  (g.adjacency.visitAll g.edges.keys .start).cycle

def findCycleWith (g : ReferenceGraph) (id : EntryId) (targets : IdSet) : Option (List EntryId) :=
  ((g.overlaid id targets).visit id .start).cycle

end ReferenceGraph
end FilterWorkspace
