import FilterWorkspace.Graph.Cycle

/-! The course of a search: what it comes to visit one after the other, and how far it has come each time. -/

namespace FilterWorkspace

namespace Adjacency

/-- In a search of `g` that visits `roots` in turn, there is a moment at which `ids` are to be visited in turn,
the search having come as far as `s`. -/
inductive Due (g : Adjacency) (roots : List EntryId) : List EntryId → Search → Prop
  | start : Due g roots roots .start
  /-- The first of them has been visited, and no cycle was found. -/
  | next {id : EntryId} {ids : List EntryId} {s : Search} (h : Due g roots (id :: ids) s)
      (hnone : (g.visit id s).cycle = none) : Due g roots ids (g.visit id s).search
  /-- The first of them is visited, which is to visit what it leads to. -/
  | enter {id : EntryId} {ids : List EntryId} {s : Search} (h : Due g roots (id :: ids) s)
      (honPath : id ∉ s.onPath) (hvisited : id ∉ s.visited) : Due g roots (g.next id) (s.enter id)

/-- The search comes to visit `id`, from a root or from what it is in the course of visiting, and has then come
as far as `s`. -/
def Visits (g : Adjacency) (roots : List EntryId) (id : EntryId) (s : Search) : Prop :=
  ∃ ids, g.Due roots (id :: ids) s

end Adjacency

namespace ReferenceGraph

def view (g : ReferenceGraph) : Option (EntryId × IdSet) → Adjacency
  | none => g.adjacency
  | some (id, targets) => g.overlaid id targets

def recorded (g : ReferenceGraph) : Option (EntryId × IdSet) → ReferenceGraph
  | none => g
  | some (id, targets) => g.insert id targets

end ReferenceGraph
end FilterWorkspace
