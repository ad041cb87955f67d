import FilterWorkspace.Graph.Adjacency

/-! What can be reached from an identifier by one edge or more. The identifiers to look at wait in
a queue; one that was seen before is passed over. -/

namespace FilterWorkspace.ReferenceGraph

def collect (g : ReferenceGraph) (queue : List EntryId) (seen : IdSet) : IdSet :=
  match queue with
  | [] => seen
  | id :: rest =>
    if _ : id ∈ seen then collect g rest seen
    else collect g (rest ++ g.successors id) (seen.insert id)
termination_by g.adjacency.pending seen + queue.length
decreasing_by
  · simp
  · have : g.adjacency.pending (seen.insert id) + (g.successors id).length ≤ g.adjacency.pending seen :=
      g.adjacency.pending_insert_add_le ‹id ∉ seen›
    simp
    omega

def closure (g : ReferenceGraph) (root : EntryId) : IdSet := g.collect (g.successors root) ∅

end FilterWorkspace.ReferenceGraph
