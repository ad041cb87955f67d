import FilterWorkspace.Graph.Course
import FilterWorkspace.Proofs.Graph.Overlay

/-! What is true of a search whenever it comes to visit an identifier, however it came there: its path is a path
without repetitions, and what it has left is closed under edges and leads to nothing on the path. So a visit
to what is on the path always finds a place there, and such a visit is the only way to report a cycle. -/

namespace FilterWorkspace

namespace Adjacency

variable {g : Adjacency} {roots ids : List EntryId} {id : EntryId} {s : Search}

theorem Due.enter_eq {targets : List EntryId} (h : g.Due roots (id :: ids) s) (hnext : g.next id = targets)
    (honPath : id ∉ s.onPath) (hvisited : id ∉ s.visited) : g.Due roots targets (s.enter id) :=
  hnext ▸ h.enter honPath hvisited

theorem Due.settled (h : g.Due roots ids s) : s.Settled g := by
  induction h with
  | start => exact (Search.ready_start g roots).settled
  | next h hnone ih =>
    have hready : Search.Ready _ g _ := ⟨h.traces, ih, h.leads⟩
    exact (g.visit_settles_aux.1 _ _ hready.head hnone).1
  | enter _ _ hvisited ih => exact ih.congr (Search.left_enter hvisited)

theorem Due.ready (h : g.Due roots ids s) : s.Ready g ids := ⟨h.traces, h.settled, h.leads⟩

end Adjacency

namespace Search

variable {s : Search} {id : EntryId}

structure Faithful (s : Search) (edge : EntryId → EntryId → Prop) : Prop where
  nodup : s.path.Nodup
  mem_onPath : ∀ a, a ∈ s.onPath ↔ a ∈ s.path
  visited : ∀ a ∈ s.onPath, a ∈ s.visited
  chain : s.path.reverse.IsChain edge
  left : ∀ a ∈ s.visited, a ∉ s.path → ∀ b, edge a b →
    b ∈ s.visited ∧ ∀ x ∈ s.path, ¬ Relation.ReflTransGen edge b x

theorem Ready.faithful {g : Adjacency} {ids : List EntryId} (h : s.Ready g ids) : s.Faithful g.Edge where
  nodup := h.traces.nodup
  mem_onPath a := h.traces.mem_onPath
  visited a ha := h.traces.visited (h.traces.mem_onPath.1 ha)
  chain := List.isChain_reverse.2 h.traces.chain
  left := by
    intro a hvisited hpath b hab
    have hb : s.Left b := h.settled.closed ⟨hvisited, hpath⟩ hab
    refine ⟨hb.1, fun x hx hreach => ?_⟩
    exact (h.settled.left_of_reaches hb hreach).2 hx

theorem exists_place {g : Adjacency} (hs : s.Traces g) (hid : id ∈ s.path) :
    ∃ place, s.path.reverse.idxOf? id = some place ∧
      s.cycleAt id = some (s.path.reverse.drop place ++ [id]) := by
  obtain ⟨before, after, hpath, hcycle⟩ := exists_cycleAt_eq hs hid
  have hreverse : s.path.reverse = after.reverse ++ id :: before.reverse := by
    rw [hpath]
    simp
  have hnodup : (after.reverse ++ id :: before.reverse).Nodup := hreverse ▸ List.nodup_reverse.2 hs.nodup
  have hafter : id ∉ after.reverse := fun hmem =>
    (List.nodup_append.1 hnodup).2.2 id hmem id List.mem_cons_self rfl
  refine ⟨after.reverse.length, ?_, ?_⟩
  · rw [hreverse]
    exact idxOf?_path hafter
  · rw [hcycle, hreverse, List.drop_left]

end Search

namespace ReferenceGraph

variable {g : ReferenceGraph}

theorem edge_view (laid : Option (EntryId × IdSet)) : (g.view laid).Edge = (g.recorded laid).Edge := by
  cases laid with
  | none => exact g.edge_adjacency
  | some node => exact edge_overlaid_eq.trans (g.insert node.1 node.2).edge_adjacency

/-- Whenever a search comes to visit an identifier, from a root or in the course of another visit, with targets
laid over a node or without, what it has taken down is true: its path has no repetitions and follows edges, and
what it has visited and left leads only to what it has visited, and never to the path. A visit that finds
nothing leaves the path as it was and forgets nothing it has visited, and one to what is on the path finds its
place there. So the search reports a cycle just in case some visit comes back to the path. -/
theorem visits_faithful (g : ReferenceGraph) (laid : Option (EntryId × IdSet)) (roots : List EntryId) :
    (∀ id s, (g.view laid).Visits roots id s →
      s.Faithful (g.recorded laid).Edge ∧
        (((g.view laid).visit id s).cycle = none →
          ((g.view laid).visit id s).search.path = s.path ∧
            ((g.view laid).visit id s).search.onPath = s.onPath ∧
            ∀ a ∈ s.visited, a ∈ ((g.view laid).visit id s).search.visited) ∧
        (id ∈ s.onPath → ∃ place, s.path.reverse.idxOf? id = some place ∧
          ((g.view laid).visit id s).cycle = some (s.path.reverse.drop place ++ [id]))) ∧
      (∀ path, ((g.view laid).visitAll roots .start).cycle = some path ↔
        ∃ id s, (g.view laid).Visits roots id s ∧ id ∈ s.onPath ∧
          ((g.view laid).visit id s).cycle = some path) ∧
      g.findCycle = ((g.view none).visitAll g.edges.keys .start).cycle ∧
      ∀ id targets, g.findCycleWith id targets =
        ((g.view (some (id, targets))).visitAll [id] .start).cycle := by
  refine ⟨fun id s ⟨ids, hdue⟩ => ⟨?_, fun hnone => ?_, fun hid => ?_⟩, fun path => Adjacency.comesBack_iff, rfl,
    findCycleWith_eq_visitAll g⟩
  · rw [← edge_view]
    exact hdue.ready.faithful
  · have hreturns := Adjacency.visit_returns hnone
    exact ⟨hreturns.path, hreturns.onPath, fun a ha => Search.Outcome.visited_grows _ ha⟩
  · have htraces := hdue.ready.traces
    rw [Adjacency.cycle_visit_of_mem_onPath hid]
    exact Search.exists_place htraces (htraces.mem_onPath.1 hid)

theorem visits_faithful_overlaid :
    let g : ReferenceGraph := ((((empty.addEdge ⟨"e"⟩ ⟨"gone"⟩).addEdge ⟨"x"⟩ ⟨"a"⟩).addEdge ⟨"a"⟩ ⟨"b"⟩).addEdge
      ⟨"b"⟩ ⟨"c"⟩).addEdge ⟨"c"⟩ ⟨"e"⟩
    let laid : Option (EntryId × IdSet) := some (⟨"c"⟩, .ofList [(⟨"a"⟩ : EntryId)])
    let roots : List EntryId := [⟨"e"⟩, ⟨"x"⟩]
    ∃ s, (g.view laid).Visits roots ⟨"a"⟩ s ∧ s.path.reverse = [⟨"x"⟩, ⟨"a"⟩, ⟨"b"⟩, ⟨"c"⟩] ∧
      ⟨"e"⟩ ∈ s.visited ∧ (∀ b, (g.recorded laid).Edge ⟨"e"⟩ b → b ∈ s.visited ∧ b ∉ s.path) ∧
      (∃ place, s.path.reverse.idxOf? ⟨"a"⟩ = some place) ∧
      ((g.view laid).visitAll roots .start).cycle = some [⟨"a"⟩, ⟨"b"⟩, ⟨"c"⟩, ⟨"a"⟩] := by
  intro g laid roots
  have hroots : (g.view laid).Due roots [⟨"x"⟩] _ := .next .start (by decide +kernel)
  have hx : (g.view laid).Due roots [⟨"a"⟩] _ :=
    hroots.enter_eq (by decide +kernel) (by decide +kernel) (by decide +kernel)
  have ha : (g.view laid).Due roots [⟨"b"⟩] _ :=
    hx.enter_eq (by decide +kernel) (by decide +kernel) (by decide +kernel)
  have hb : (g.view laid).Due roots [⟨"c"⟩] _ :=
    ha.enter_eq (by decide +kernel) (by decide +kernel) (by decide +kernel)
  have hc : (g.view laid).Due roots [⟨"a"⟩] _ :=
    hb.enter_eq (by decide +kernel) (by decide +kernel) (by decide +kernel)
  obtain ⟨hvisits, hcycle, -⟩ := g.visits_faithful laid roots
  obtain ⟨hfaithful, -, hplace⟩ := hvisits ⟨"a"⟩ _ ⟨[], hc⟩
  obtain ⟨place, hplace, -⟩ := hplace (by decide +kernel)
  refine ⟨_, ⟨[], hc⟩, by decide +kernel, by decide +kernel, fun b hb => ?_, ⟨place, hplace⟩, ?_⟩
  · obtain ⟨hvisited, hpath⟩ := hfaithful.left ⟨"e"⟩ (by decide +kernel) (by decide +kernel) b hb
    exact ⟨hvisited, fun hmem => hpath b hmem .refl⟩
  · exact (hcycle _).2 ⟨⟨"a"⟩, _, ⟨[], hc⟩, by decide +kernel, by decide +kernel⟩

end ReferenceGraph
end FilterWorkspace
