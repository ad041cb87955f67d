import FilterWorkspace.Proofs.Graph.Reach
import FilterWorkspace.Proofs.Graph.Report
import Mathlib.Data.List.Chain
import Mathlib.Data.List.Nodup
import Mathlib.Logic.Relation

/-! What a depth-first search reports is a cycle of the graph that it searches, and one that its
starting point leads to. A visit that reports nothing leaves the path as it found it. -/

namespace FilterWorkspace

namespace Adjacency

def Edge (g : Adjacency) (a b : EntryId) : Prop := b ∈ g.next a

/-- A path from `base` back to `base` that meets no identifier twice on the way. -/
def IsCycleAt (g : Adjacency) (base : EntryId) (cycle : List EntryId) : Prop :=
  ∃ rest, cycle = base :: rest ++ [base] ∧ (base :: rest).Nodup ∧ cycle.IsChain g.Edge

theorem IsCycleAt.transGen {g : Adjacency} {base : EntryId} {cycle : List EntryId}
    (h : g.IsCycleAt base cycle) : Relation.TransGen g.Edge base base := by
  obtain ⟨rest, rfl, -, hchain⟩ := h
  obtain ⟨next, tail, htail⟩ := List.exists_cons_of_ne_nil (List.append_ne_nil_of_right_ne_nil rest
    (List.cons_ne_nil base []))
  rw [List.cons_append, htail, List.isChain_cons_cons] at hchain
  refine .head' hchain.1 (List.relationReflTransGen_of_exists_isChain_cons tail hchain.2 ?_)
  simp only [← htail, List.getLast_append_singleton]

theorem IsCycleAt.spec {g : Adjacency} {base : EntryId} {cycle : List EntryId} (h : g.IsCycleAt base cycle) :
    2 ≤ cycle.length ∧ cycle.head? = some base ∧ cycle.getLast? = some base ∧ cycle.dropLast.Nodup ∧
      cycle.IsChain g.Edge := by
  obtain ⟨rest, rfl, hnodup, hchain⟩ := h
  have hlast : (base :: rest ++ [base]).getLast? = some base := List.getLast?_concat
  have hdrop : (base :: rest ++ [base]).dropLast = base :: rest := List.dropLast_concat
  refine ⟨by simp, rfl, hlast, ?_, hchain⟩
  rw [hdrop]
  exact hnodup

theorem IsCycleAt.reaches {g : Adjacency} {base x : EntryId} {cycle : List EntryId}
    (h : g.IsCycleAt base cycle) (hx : x ∈ cycle) : Relation.ReflTransGen g.Edge base x := by
  obtain ⟨rest, rfl, -, hchain⟩ := h
  exact hchain.induction (Relation.ReflTransGen g.Edge base ·) _ (fun _ _ hedge h => h.tail hedge)
    (fun _ => .refl) x hx

end Adjacency

namespace Search

/-- The path of the search `s` is a path of `g`, and `onPath` and `visited` agree with it. -/
structure Traces (s : Search) (g : Adjacency) : Prop where
  nodup : s.path.Nodup
  mem_onPath : ∀ {id}, id ∈ s.onPath ↔ id ∈ s.path
  visited : ∀ {id}, id ∈ s.path → id ∈ s.visited
  chain : s.path.IsChain fun b a => g.Edge a b

theorem traces_start (g : Adjacency) : start.Traces g := by
  constructor <;> simp [start]

theorem Traces.enter {s : Search} {g : Adjacency} {id : EntryId} (h : s.Traces g)
    (hid : id ∉ s.onPath) (hchain : (id :: s.path).IsChain fun b a => g.Edge a b) :
    (s.enter id).Traces g where
  nodup := List.nodup_cons.2 ⟨mt h.mem_onPath.2 hid, h.nodup⟩
  mem_onPath := by
    intro a
    simp [Search.enter, h.mem_onPath, eq_comm (a := a)]
  visited := by
    intro a ha
    rcases List.mem_cons.1 ha with rfl | ha
    · simp [Search.enter]
    · simp [Search.enter, h.visited ha]
  chain := hchain

theorem erase_insert {ids : IdSet} {id : EntryId} (h : id ∉ ids) : (ids.insert id).erase id = ids := by
  apply Std.ExtTreeSet.ext_mem
  intro a
  simp only [Std.ExtTreeSet.mem_erase, Std.ExtTreeSet.mem_insert, ne_eq,
    Std.LawfulEqCmp.compare_eq_iff_eq]
  constructor
  · rintro ⟨hne, heq | ha⟩
    · exact absurd heq hne
    · exact ha
  · exact fun ha => ⟨fun heq => h (heq ▸ ha), .inr ha⟩

structure Outcome.Returns {s : Search} (o : s.Outcome) : Prop where
  path : o.search.path = s.path
  onPath : o.search.onPath = s.onPath

theorem Outcome.Returns.traces {s : Search} {o : s.Outcome} {g : Adjacency} (h : o.Returns)
    (hs : s.Traces g) : o.search.Traces g where
  nodup := h.path ▸ hs.nodup
  mem_onPath := by rw [h.path, h.onPath]; exact hs.mem_onPath
  visited := by rw [h.path]; exact fun ha => o.visited_grows (hs.visited ha)
  chain := h.path ▸ hs.chain

theorem idxOf?_path {before after : List EntryId} {id : EntryId} (h : id ∉ before) :
    (before ++ id :: after).idxOf? id = some before.length := by
  induction before with
  | nil => simp [List.idxOf?_cons]
  | cons a before ih =>
    rw [List.mem_cons, not_or] at h
    simp [List.idxOf?_cons, ih h.2, Ne.symm h.1]

theorem cycleAt_eq {s : Search} {before after : List EntryId} {id : EntryId}
    (hpath : s.path = before ++ id :: after) (h : id ∉ before) :
    s.cycleAt id = some (id :: before.reverse ++ [id]) := by
  rw [cycleAt, hpath, idxOf?_path h, Option.map_some, List.take_append, List.take_of_length_le (by simp)]
  simp

theorem exists_cycleAt_eq {s : Search} {g : Adjacency} {id : EntryId} (hs : s.Traces g) (hid : id ∈ s.path) :
    ∃ before after, s.path = before ++ id :: after ∧ s.cycleAt id = some (id :: before.reverse ++ [id]) := by
  obtain ⟨before, after, hpath⟩ := List.append_of_mem hid
  have hnodup := hs.nodup
  rw [hpath] at hnodup
  have hbefore : id ∉ before := fun hmem => (List.nodup_append.1 hnodup).2.2 id hmem id List.mem_cons_self rfl
  exact ⟨before, after, hpath, cycleAt_eq hpath hbefore⟩

theorem isCycleAt_of_cycleAt {s : Search} {g : Adjacency} {id : EntryId} {cycle : List EntryId}
    (hs : s.Traces g) (hchain : (id :: s.path).IsChain fun b a => g.Edge a b)
    (hid : id ∈ s.path) (h : s.cycleAt id = some cycle) : g.IsCycleAt id cycle := by
  obtain ⟨before, after, hpath, hcycle⟩ := exists_cycleAt_eq hs hid
  rw [hcycle] at h
  obtain rfl := Option.some.inj h
  have hnodup := hs.nodup
  rw [hpath, List.nodup_append_comm, List.cons_append, List.nodup_cons] at hnodup
  refine ⟨before.reverse, rfl, ?_, ?_⟩
  · rw [List.nodup_cons, List.mem_reverse, List.nodup_reverse]
    exact ⟨fun hmem => hnodup.1 (List.mem_append_right _ hmem), hnodup.2.of_append_right⟩
  · rw [← List.isChain_reverse]
    have hcycle : (id :: before.reverse ++ [id]).reverse = id :: (before ++ [id]) := by simp
    rw [hcycle]
    refine hchain.prefix ⟨after, ?_⟩
    rw [hpath]
    simp

theorem isSome_cycleAt {s : Search} {g : Adjacency} {id : EntryId} (hs : s.Traces g)
    (h : id ∈ s.onPath) : (s.cycleAt id).isSome := by
  simp [cycleAt, hs.mem_onPath.1 h]

end Search

namespace Adjacency

theorem visit_returns_aux (g : Adjacency) :
    (∀ id s, (g.visit id s).cycle = none → (g.visit id s).Returns) ∧
      ∀ ids s, (g.visitAll ids s).cycle = none → (g.visitAll ids s).Returns := by
  apply visit.mutual_induct g
  -- The first four cases are those of `visit`, the other three those of `visitAll`.
  · intro id s hid _
    rw [visit, if_pos hid]
    exact ⟨rfl, rfl⟩
  · intro id s hid hvisited _
    rw [visit, if_neg hid, dif_pos hvisited]
    exact ⟨rfl, rfl⟩
  · intro id s hid hvisited cycle t h hall ih hnone
    rw [visit, if_neg hid, dif_neg hvisited, hall] at hnone
    simp at hnone
  · intro id s hid hvisited t h hall ih _
    rw [visit, if_neg hid, dif_neg hvisited, hall]
    rw [hall] at ih
    obtain ⟨hpath, honPath⟩ := ih rfl
    simp only at hpath honPath
    refine ⟨?_, ?_⟩
    · simp only [Search.leave, hpath, Search.enter, List.tail_cons]
    · simp only [Search.leave, honPath, Search.enter, Search.erase_insert hid]
  · intro s _
    rw [visitAll]
    exact ⟨rfl, rfl⟩
  · intro s id ids cycle t h hvisit ih hnone
    rw [visitAll, hvisit] at hnone
    simp at hnone
  · intro s id ids t h hvisit ihvisit ihall hnone
    rw [visitAll, hvisit] at hnone ⊢
    rw [hvisit] at ihvisit
    have hfirst := ihvisit rfl
    have hrest := ihall hnone
    exact ⟨hrest.path.trans hfirst.path, hrest.onPath.trans hfirst.onPath⟩

theorem visit_returns {g : Adjacency} {id : EntryId} {s : Search}
    (h : (g.visit id s).cycle = none) : (g.visit id s).Returns :=
  g.visit_returns_aux.1 id s h

theorem returns_of_visit_eq {g : Adjacency} {id : EntryId} {s : Search} {o : s.Outcome}
    (h : g.visit id s = o) (hnone : o.cycle = none) : o.Returns :=
  h ▸ visit_returns (h ▸ hnone)

theorem returns_of_visitAll_eq {g : Adjacency} {ids : List EntryId} {s : Search} {o : s.Outcome}
    (h : g.visitAll ids s = o) (hnone : o.cycle = none) : o.Returns :=
  h ▸ g.visit_returns_aux.2 ids s (h ▸ hnone)

section Moments

-- What is true at every moment of a search: the inductions are on how the moment comes about.
variable {roots ids : List EntryId} {g : Adjacency} {s : Search}

theorem Due.leads (h : g.Due roots ids s) :
    ∀ id ∈ ids, (id :: s.path).IsChain fun b a => g.Edge a b := by
  induction h with
  | start => exact fun _ _ => List.isChain_singleton _
  | next _ hnone ih =>
    rw [(visit_returns hnone).path]
    exact fun a ha => ih a (List.mem_cons_of_mem _ ha)
  | enter _ _ _ ih => exact fun a ha => List.isChain_cons_cons.2 ⟨ha, ih _ List.mem_cons_self⟩

theorem Due.traces (h : g.Due roots ids s) : s.Traces g := by
  induction h with
  | start => exact Search.traces_start g
  | next _ hnone ih => exact (visit_returns hnone).traces ih
  | enter h honPath _ ih => exact ih.enter honPath (h.leads _ List.mem_cons_self)

theorem Due.reached (h : g.Due roots ids s) :
    ∀ id ∈ ids, ∃ root ∈ roots, Relation.ReflTransGen g.Edge root id := by
  induction h with
  | start => exact fun root hroot => ⟨root, hroot, .refl⟩
  | next _ _ ih => exact fun a ha => ih a (List.mem_cons_of_mem _ ha)
  | enter _ _ _ ih =>
    intro a ha
    obtain ⟨root, hroot, hreach⟩ := ih _ List.mem_cons_self
    exact ⟨root, hroot, hreach.tail ha⟩

end Moments

def Finds (g : Adjacency) {s : Search} (o : s.Outcome) (ids : List EntryId) : Prop :=
  ∀ cycle, o.cycle = some cycle →
    ∃ base, g.IsCycleAt base cycle ∧ ∃ id ∈ ids, Relation.ReflTransGen g.Edge id base

theorem finds_visitAll (g : Adjacency) (roots : List EntryId) : g.Finds (g.visitAll roots .start) roots := by
  intro cycle hcycle
  obtain ⟨id, s, ⟨ids, hdue⟩, hid, hcycle⟩ := comesBack_iff.1 hcycle
  rw [cycle_visit_of_mem_onPath hid] at hcycle
  have hmem : id ∈ s.path := hdue.traces.mem_onPath.1 hid
  have hbase : g.IsCycleAt id cycle :=
    Search.isCycleAt_of_cycleAt hdue.traces (hdue.leads id List.mem_cons_self) hmem hcycle
  exact ⟨id, hbase, hdue.reached id List.mem_cons_self⟩

theorem notMem_path_of_visitAll {g : Adjacency} {ids : List EntryId} {s : Search} (hs : s.Traces g)
    (h : (g.visitAll ids s).cycle = none) {id : EntryId} (hid : id ∈ ids) : id ∉ s.path := by
  induction ids generalizing s with
  | nil => cases hid
  | cons a ids ih =>
    rw [cycle_visitAll_cons, Option.or_eq_none_iff] at h
    obtain ⟨hfirst, hrest⟩ := h
    rcases List.mem_cons.1 hid with rfl | hid
    · intro hmem
      have honPath := hs.mem_onPath.2 hmem
      have hfound := Search.isSome_cycleAt hs honPath
      rw [← cycle_visit_of_mem_onPath (g := g) honPath, hfirst] at hfound
      cases hfound
    · have hreturns := visit_returns hfirst
      rw [← hreturns.path]
      exact ih (hreturns.traces hs) hrest hid

end Adjacency

namespace ReferenceGraph

theorem edge_adjacency (g : ReferenceGraph) : g.adjacency.Edge = g.Edge := by
  funext a b
  exact propext mem_successors

theorem edge_overlaid {g : ReferenceGraph} {id a b : EntryId} {targets : IdSet} :
    (g.overlaid id targets).Edge a b ↔ if a = id then b ∈ targets else g.Edge a b := by
  unfold Adjacency.Edge overlaid
  dsimp only
  split
  · exact Std.ExtTreeSet.mem_toList
  · exact mem_successors

theorem isCycleAt_of_findCycle {g : ReferenceGraph} {cycle : List EntryId} (h : g.findCycle = some cycle) :
    ∃ base, g.adjacency.IsCycleAt base cycle := by
  obtain ⟨base, hbase, -⟩ := g.adjacency.finds_visitAll g.edges.keys cycle h
  exact ⟨base, hbase⟩

theorem findCycle_eq_none {g : ReferenceGraph} (h : ∀ a, ¬ g.Reaches a a) : g.findCycle = none := by
  rw [Option.eq_none_iff_forall_ne_some]
  intro cycle hcycle
  obtain ⟨base, hbase⟩ := isCycleAt_of_findCycle hcycle
  have hreach := hbase.transGen
  rw [edge_adjacency] at hreach
  exact h base hreach

theorem findCycleWith_eq_visitAll (g : ReferenceGraph) (id : EntryId) (targets : IdSet) :
    g.findCycleWith id targets = ((g.overlaid id targets).visitAll [id] .start).cycle := by
  rw [Adjacency.cycle_visitAll_cons, Adjacency.visitAll, Option.or_none]
  rfl

theorem isCycleAt_of_findCycleWith {g : ReferenceGraph} {id : EntryId} {targets : IdSet}
    {cycle : List EntryId} (h : g.findCycleWith id targets = some cycle) :
    ∃ base, (g.overlaid id targets).IsCycleAt base cycle ∧
      Relation.ReflTransGen (g.overlaid id targets).Edge id base := by
  rw [findCycleWith_eq_visitAll] at h
  obtain ⟨base, hbase, a, ha, hreach⟩ := (g.overlaid id targets).finds_visitAll [id] cycle h
  obtain rfl := List.mem_singleton.1 ha
  exact ⟨base, hbase, hreach⟩

/-- A node among its own targets is found on a cycle, whatever the graph records. -/
theorem notMem_of_findCycleWith {g : ReferenceGraph} {id : EntryId} {targets : IdSet}
    (h : g.findCycleWith id targets = none) : id ∉ targets := by
  intro hid
  have honPath : id ∉ Search.start.onPath := by simp [Search.start]
  have hvisited : id ∉ Search.start.visited := by simp [Search.start]
  have hdue : (g.overlaid id targets).Due [id] ((g.overlaid id targets).next id) (Search.start.enter id) :=
    Adjacency.Due.start.enter honPath hvisited
  have hnext : id ∈ (g.overlaid id targets).next id := edge_overlaid.2 (by simpa using hid)
  rw [findCycleWith, Adjacency.cycle_visit_of_notMem honPath hvisited] at h
  exact Adjacency.notMem_path_of_visitAll hdue.traces h hnext List.mem_cons_self

theorem findCycleWith_empty (g : ReferenceGraph) (id : EntryId) : g.findCycleWith id ∅ = none := by
  have hnext : ∀ a, ¬ (g.overlaid id ∅).Edge id a := fun a h => by simpa using edge_overlaid.1 h
  rw [Option.eq_none_iff_forall_ne_some]
  intro cycle hcycle
  obtain ⟨base, hbase, hreach⟩ := isCycleAt_of_findCycleWith hcycle
  rcases Relation.ReflTransGen.cases_head hreach with rfl | ⟨a, ha, -⟩
  · obtain ⟨a, ha, -⟩ := Relation.TransGen.head'_iff.1 hbase.transGen
    exact hnext a ha
  · exact hnext a ha

section Fresh

variable {g : ReferenceGraph} {id : EntryId} (hfresh : ∀ a, ¬ g.Edge a id)
include hfresh

theorem reaches_of_overlaid {targets : IdSet} {a b : EntryId} (ha : a ≠ id)
    (h : Relation.TransGen (g.overlaid id targets).Edge a b) : b ≠ id ∧ g.Reaches a b := by
  induction h with
  | single hab =>
    have hedge := edge_overlaid.1 hab
    rw [if_neg ha] at hedge
    exact ⟨fun heq => hfresh a (heq ▸ hedge), .single hedge⟩
  | tail _ hbc ih =>
    have hedge := edge_overlaid.1 hbc
    rw [if_neg ih.1] at hedge
    exact ⟨fun heq => hfresh _ (heq ▸ hedge), ih.2.tail hedge⟩

theorem findCycleWith_fresh (hacyclic : ∀ a, ¬ g.Reaches a a) (targets : IdSet) :
    g.findCycleWith id targets = if id ∈ targets then some [id, id] else none := by
  cases h : g.findCycleWith id targets with
  | none => rw [if_neg (notMem_of_findCycleWith h)]
  | some cycle =>
    obtain ⟨base, hbase, -⟩ := isCycleAt_of_findCycleWith h
    obtain rfl : base = id := by
      by_contra hne
      exact hacyclic base (reaches_of_overlaid hfresh hne hbase.transGen).2
    obtain ⟨rest, rfl, hnodup, hchain⟩ := hbase
    cases rest with
    | nil =>
      have hself := edge_overlaid.1 (List.isChain_cons_cons.1 hchain).1
      rw [if_pos rfl] at hself
      rw [if_pos hself]
      rfl
    | cons a rest =>
      have hne : a ≠ base := fun heq => (List.nodup_cons.1 hnodup).1 (heq ▸ List.mem_cons_self)
      have hback := List.relationReflTransGen_of_exists_isChain_cons (b := base) (rest ++ [base])
        (List.isChain_cons_cons.1 hchain).2 (by simp)
      rcases Relation.reflTransGen_iff_eq_or_transGen.1 hback with heq | hback
      · exact absurd heq.symm hne
      · exact absurd rfl (reaches_of_overlaid hfresh hne hback).1

end Fresh

end ReferenceGraph
end FilterWorkspace
