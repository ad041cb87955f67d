import FilterWorkspace.Proofs.Graph.Search

/-! A search that reports nothing has missed nothing. What a search has visited and left again leads only to
what it has left as well, so nothing on the path can be reached from it, and passing it over is no loss. -/

namespace FilterWorkspace

namespace Search

variable {s t : Search} {g : Adjacency} {id : EntryId}

def Left (s : Search) (id : EntryId) : Prop := id ∈ s.visited ∧ id ∉ s.path

/-- What the search `s` has left leads only to what it has left, and never back to itself. -/
structure Settled (s : Search) (g : Adjacency) : Prop where
  closed : ∀ {a b}, s.Left a → g.Edge a b → s.Left b
  acyclic : ∀ {a}, s.Left a → ¬ Relation.TransGen g.Edge a a

theorem Settled.congr (h : s.Settled g) (hleft : ∀ a, t.Left a ↔ s.Left a) : t.Settled g where
  closed ha hab := (hleft _).2 (h.closed ((hleft _).1 ha) hab)
  acyclic ha := h.acyclic ((hleft _).1 ha)

theorem Settled.left_of_reaches (h : s.Settled g) {a b : EntryId} (ha : s.Left a)
    (hab : Relation.ReflTransGen g.Edge a b) : s.Left b := by
  induction hab with
  | refl => exact ha
  | tail _ hedge ih => exact h.closed ih hedge

theorem left_enter (hid : id ∉ s.visited) (a : EntryId) : (s.enter id).Left a ↔ s.Left a := by
  have hne : a ∈ s.visited → a ≠ id := fun ha heq => hid (heq ▸ ha)
  have hvisited : a ∈ (s.enter id).visited ↔ a = id ∨ a ∈ s.visited := by
    simp [enter, eq_comm (a := a)]
  have hpath : a ∈ (s.enter id).path ↔ a = id ∨ a ∈ s.path := List.mem_cons
  rw [Left, Left, hvisited, hpath, not_or]
  constructor
  · rintro ⟨heq | ha, hnot, hpath⟩
    · exact absurd heq hnot
    · exact ⟨ha, hpath⟩
  · rintro ⟨ha, hpath⟩
    exact ⟨.inr ha, hne ha, hpath⟩

theorem left_leave (ht : t.Traces g) {path : List EntryId} (hpath : t.path = id :: path) (a : EntryId) :
    (t.leave id).Left a ↔ a = id ∨ t.Left a := by
  have hid : id ∈ t.visited := ht.visited (hpath ▸ List.mem_cons_self)
  have hnodup : id ∉ path := (List.nodup_cons.1 (hpath ▸ ht.nodup)).1
  have hleave : (t.leave id).path = path := by rw [leave, hpath, List.tail_cons]
  rw [Left, Left, hleave, hpath, List.mem_cons, not_or]
  constructor
  · rintro ⟨ha, hnot⟩
    by_cases heq : a = id
    · exact .inl heq
    · exact .inr ⟨ha, heq, hnot⟩
  · rintro (rfl | ⟨ha, -, hnot⟩)
    · exact ⟨hid, hnodup⟩
    · exact ⟨ha, hnot⟩

theorem Settled.leave (h : t.Settled g) (ht : t.Traces g) {path : List EntryId} (hpath : t.path = id :: path)
    (hnext : ∀ b ∈ g.next id, t.Left b) : (t.leave id).Settled g where
  closed := by
    intro a b ha hab
    rcases (left_leave ht hpath a).1 ha with rfl | ha
    · exact (left_leave ht hpath b).2 (.inr (hnext b hab))
    · exact (left_leave ht hpath b).2 (.inr (h.closed ha hab))
  acyclic := by
    intro a ha hcycle
    rcases (left_leave ht hpath a).1 ha with rfl | ha
    · -- A way back to `a` would start in what has been left and end on the path.
      obtain ⟨b, hb, hback⟩ := Relation.TransGen.head'_iff.1 hcycle
      exact (h.left_of_reaches (hnext b hb) hback).2 (hpath ▸ List.mem_cons_self)
    · exact h.acyclic ha hcycle

/-- The search `s` has come to where it may visit each of `ids`, and has missed nothing so far. -/
structure Ready (s : Search) (g : Adjacency) (ids : List EntryId) : Prop where
  traces : s.Traces g
  settled : s.Settled g
  leads : ∀ id ∈ ids, (id :: s.path).IsChain fun b a => g.Edge a b

theorem ready_start (g : Adjacency) (ids : List EntryId) : start.Ready g ids where
  traces := traces_start g
  settled := by
    have hleft (a : EntryId) : ¬ start.Left a := fun h => by simpa [start] using h.1
    exact ⟨fun ha => absurd ha (hleft _), fun ha => absurd ha (hleft _)⟩
  leads _ _ := List.isChain_singleton _

namespace Ready

theorem head {ids : List EntryId} (h : s.Ready g (id :: ids)) : s.Ready g [id] where
  traces := h.traces
  settled := h.settled
  leads a ha := h.leads a (List.mem_singleton.1 ha ▸ List.mem_cons_self)

theorem enter (h : s.Ready g [id]) (honPath : id ∉ s.onPath) (hvisited : id ∉ s.visited) :
    (s.enter id).Ready g (g.next id) where
  traces := h.traces.enter honPath (h.leads id (List.mem_singleton_self id))
  settled := h.settled.congr (left_enter hvisited)
  leads _ ha := List.isChain_cons_cons.2 ⟨ha, h.leads id (List.mem_singleton_self id)⟩

theorem tail {ids : List EntryId} (h : s.Ready g (id :: ids)) {o : s.Outcome} (hreturns : o.Returns)
    (hsettled : o.search.Settled g) : o.search.Ready g ids where
  traces := hreturns.traces h.traces
  settled := hsettled
  leads a ha := by
    rw [hreturns.path]
    exact h.leads a (List.mem_cons_of_mem _ ha)

end Ready

theorem Outcome.Returns.left {o : s.Outcome} (h : o.Returns) {a : EntryId} (ha : s.Left a) : o.search.Left a :=
  ⟨o.visited_grows ha.1, h.path ▸ ha.2⟩

end Search

namespace Adjacency

theorem visit_settles_aux (g : Adjacency) :
    (∀ id s, s.Ready g [id] → (g.visit id s).cycle = none →
      (g.visit id s).search.Settled g ∧ (g.visit id s).search.Left id) ∧
    ∀ ids s, s.Ready g ids → (g.visitAll ids s).cycle = none →
      (g.visitAll ids s).search.Settled g ∧ ∀ id ∈ ids, (g.visitAll ids s).search.Left id := by
  apply visit.mutual_induct g
  · intro id s hid hready hnone
    have hfound := Search.isSome_cycleAt hready.traces hid
    rw [visit, if_pos hid] at hnone
    have hnone : s.cycleAt id = none := hnone
    rw [hnone] at hfound
    cases hfound
  · intro id s hid hvisited hready _
    rw [visit, if_neg hid, dif_pos hvisited]
    exact ⟨hready.settled, hvisited, mt hready.traces.mem_onPath.2 hid⟩
  · intro id s hid hvisited cycle t h hall ih _ hnone
    rw [visit, if_neg hid, dif_neg hvisited, hall] at hnone
    cases hnone
  · intro id s hid hvisited t h hall ih hready _
    have hentered := hready.enter hid hvisited
    rw [visit, if_neg hid, dif_neg hvisited, hall]
    rw [hall] at ih
    obtain ⟨hsettled, hleft⟩ := ih hentered rfl
    have hreturns := returns_of_visitAll_eq hall rfl
    have htraces : t.Traces g := hreturns.traces hentered.traces
    have hpath : t.path = id :: s.path := hreturns.path
    exact ⟨hsettled.leave htraces hpath hleft, (Search.left_leave htraces hpath id).2 (.inl rfl)⟩
  · intro s hready _
    rw [visitAll]
    exact ⟨hready.settled, by simp⟩
  · intro s id ids cycle t h hvisit ih _ hnone
    rw [visitAll, hvisit] at hnone
    cases hnone
  · intro s id ids t h hvisit ihvisit ihall hready hnone
    rw [visitAll, hvisit] at hnone ⊢
    rw [hvisit] at ihvisit
    have hreturns := returns_of_visit_eq hvisit rfl
    obtain ⟨hsettled, hfirst⟩ := ihvisit hready.head rfl
    obtain ⟨hsettled, hrest⟩ := ihall (hready.tail hreturns hsettled) hnone
    have hreturns := g.visit_returns_aux.2 ids t hnone
    refine ⟨hsettled, fun a ha => ?_⟩
    rcases List.mem_cons.1 ha with rfl | ha
    · exact hreturns.left hfirst
    · exact hrest a ha

end Adjacency

namespace ReferenceGraph

theorem isSome_references?_of_reaches {g : ReferenceGraph} {a b : EntryId} (h : g.Reaches a b) :
    (g.references? a).isSome := by
  obtain ⟨c, ⟨targets, htargets, -⟩, -⟩ := Relation.TransGen.head'_iff.1 h
  rw [htargets]
  rfl

theorem not_reaches_of_findCycle {g : ReferenceGraph} (h : g.findCycle = none) (a : EntryId) :
    ¬ g.Reaches a a := by
  intro hcycle
  have hkey : a ∈ g.edges.keys := by
    have hrecorded := isSome_references?_of_reaches hcycle
    exact Std.ExtTreeMap.mem_keys.2 (Std.ExtTreeMap.mem_iff_isSome_getElem?.2 hrecorded)
  obtain ⟨hsettled, hleft⟩ := g.adjacency.visit_settles_aux.2 _ _ (Search.ready_start _ _) h
  have hacyclic := hsettled.acyclic (hleft a hkey)
  rw [edge_adjacency] at hacyclic
  exact hacyclic hcycle

/-- The search for a cycle comes up with nothing just in case no closure has its own root in it, which could
only be the root of recorded references. Otherwise it comes up with a path along recorded references that
ends where it starts and meets nothing else twice. -/
theorem findCycle_decides (g : ReferenceGraph) :
    (g.findCycle = none ↔ ∀ a, a ∉ g.closure a) ∧
      (∀ a, a ∈ g.closure a → (g.references? a).isSome) ∧
      ∀ path, g.findCycle = some path →
        2 ≤ path.length ∧ path.head? = path.getLast? ∧ path.dropLast.Nodup ∧ path.IsChain g.Edge := by
  refine ⟨⟨fun h a ha => ?_, fun h => ?_⟩, fun a ha => ?_, fun path h => ?_⟩
  · exact not_reaches_of_findCycle h a (mem_closure_iff.1 ha)
  · exact findCycle_eq_none fun a ha => h a (mem_closure_iff.2 ha)
  · exact isSome_references?_of_reaches (mem_closure_iff.1 ha)
  · obtain ⟨base, rest, rfl, hnodup, hchain⟩ := isCycleAt_of_findCycle h
    rw [edge_adjacency] at hchain
    have hdrop : (base :: rest ++ [base]).dropLast = base :: rest := List.dropLast_concat
    have hlast : (base :: rest ++ [base]).getLast? = some base := List.getLast?_concat
    refine ⟨by simp, ?_, ?_, hchain⟩
    · rw [hlast]
      rfl
    · rw [hdrop]
      exact hnodup

theorem findCycle_decides_lookback :
    let g : ReferenceGraph := ((((empty.addEdge ⟨"x"⟩ ⟨"a"⟩).addEdge ⟨"a"⟩ ⟨"b"⟩).addEdge ⟨"b"⟩ ⟨"gone"⟩).addEdge
      ⟨"b"⟩ ⟨"c"⟩).addEdge ⟨"c"⟩ ⟨"a"⟩
    let path : List EntryId := [⟨"a"⟩, ⟨"b"⟩, ⟨"c"⟩, ⟨"a"⟩]
    g.findCycle = some path ∧ path.dropLast.Nodup ∧ path.IsChain g.Edge ∧
      (g.erase ⟨"b"⟩).findCycle = none ∧ ∀ a, a ∉ (g.erase ⟨"b"⟩).closure a := by
  intro g path
  have hfound : g.findCycle = some path := by decide +kernel
  have hnone : (g.erase ⟨"b"⟩).findCycle = none := by decide +kernel
  obtain ⟨-, -, hnodup, hchain⟩ := g.findCycle_decides.2.2 path hfound
  exact ⟨hfound, hnodup, hchain, hnone, (g.erase ⟨"b"⟩).findCycle_decides.1.1 hnone⟩

end ReferenceGraph

end FilterWorkspace
