import FilterWorkspace.Proofs.Graph.Exhaustion

/-! A search with targets laid over a node is a search of the graph in which they are recorded, begun at that
node. It sees no more than what the node leads to, and a cycle that goes through the node is reported
from the node on, because the node stands first on every path of the search. -/

namespace FilterWorkspace

namespace Adjacency

/-- A cycle that `o` reports meets nothing of an older part of `path` unless it starts there. The path has
its last identifier first. -/
def Spares {s : Search} (o : s.Outcome) (path : List EntryId) : Prop :=
  ∀ older base rest, older <:+ path → o.cycle = some (base :: rest) → base ∉ older → ∀ a ∈ rest, a ∉ older

theorem spares_visit {g : Adjacency} {id : EntryId} {s : Search} (hs : s.Traces g) (hid : id ∈ s.onPath) :
    Spares (g.visit id s) s.path := by
  intro older base rest holder hcycle hbase a ha hold
  obtain ⟨before, after, hpath, hcycleAt⟩ := Search.exists_cycleAt_eq hs (hs.mem_onPath.1 hid)
  rw [cycle_visit_of_mem_onPath hid, hcycleAt] at hcycle
  obtain ⟨rfl, rfl⟩ := List.cons.inj (Option.some.inj hcycle)
  -- The older part ends before the place where the cycle starts, or it would have that place in it.
  have hsuffix : id :: after <:+ s.path := hpath ▸ List.suffix_append before (id :: after)
  rcases List.suffix_or_suffix_of_suffix holder hsuffix with holder | holder
  · have hnodup := hs.nodup
    rw [hpath] at hnodup
    rcases List.mem_append.1 ha with ha | ha
    · exact (List.nodup_append.1 hnodup).2.2 a (List.mem_reverse.1 ha) a (holder.mem hold) rfl
    · exact hbase (List.mem_singleton.1 ha ▸ hold)
  · exact hbase (holder.mem List.mem_cons_self)

theorem Due.suffix_path {g : Adjacency} {root : EntryId} {ids : List EntryId} {s : Search}
    (h : g.Due [root] ids s) : [root] <:+ s.path ∨ s.path = [] ∧ ∀ id ∈ ids, id = root := by
  induction h with
  | start => exact .inr ⟨rfl, fun _ => List.mem_singleton.1⟩
  | next _ hnone ih =>
    rw [(visit_returns hnone).path]
    exact ih.imp_right fun ⟨hpath, hids⟩ => ⟨hpath, fun a ha => hids a (List.mem_cons_of_mem _ ha)⟩
  | @enter id _ s _ _ _ ih =>
    rcases ih with hsuffix | ⟨hpath, hids⟩
    · exact .inl (hsuffix.trans (List.suffix_cons _ _))
    · have hentered : id :: s.path = [root] := by rw [hpath, hids id List.mem_cons_self]
      exact .inl ⟨[], hentered.symm⟩

end Adjacency

namespace ReferenceGraph

variable {g : ReferenceGraph} {id base : EntryId} {targets : IdSet} {path : List EntryId}

theorem edge_overlaid_eq : (g.overlaid id targets).Edge = (g.insert id targets).adjacency.Edge := by
  rw [edge_adjacency]
  funext a b
  refine propext (edge_overlaid.trans (Iff.trans ?_ edge_insert.symm))
  simp only [eq_comm]

theorem exists_base_of_findCycleWith (h : g.findCycleWith id targets = some path) :
    ∃ base, (g.insert id targets).adjacency.IsCycleAt base path ∧
      Relation.ReflTransGen (g.insert id targets).Edge id base := by
  obtain ⟨base, ⟨rest, hpath, hnodup, hchain⟩, hreach⟩ := isCycleAt_of_findCycleWith h
  rw [edge_overlaid_eq] at hchain hreach
  rw [edge_adjacency] at hreach
  exact ⟨base, ⟨rest, hpath, hnodup, hchain⟩, hreach⟩

theorem reaches_of_isCycleAt (h : g.adjacency.IsCycleAt base path) : g.Reaches base base := by
  have hback := h.transGen
  rw [edge_adjacency] at hback
  exact hback

theorem isSome_findCycleWith_iff : (g.findCycleWith id targets).isSome ↔
    ∃ a, Relation.ReflTransGen (g.insert id targets).Edge id a ∧ (g.insert id targets).Reaches a a := by
  constructor
  · intro h
    obtain ⟨path, hpath⟩ := Option.isSome_iff_exists.1 h
    obtain ⟨base, hbase, hreach⟩ := exists_base_of_findCycleWith hpath
    exact ⟨base, hreach, reaches_of_isCycleAt hbase⟩
  · rintro ⟨a, ha, hback⟩
    rw [Option.isSome_iff_ne_none]
    intro hnone
    obtain ⟨hsettled, hleft⟩ := (g.overlaid id targets).visit_settles_aux.1 _ _ (Search.ready_start _ _) hnone
    have hacyclic {a : EntryId} (ha : Relation.ReflTransGen (g.overlaid id targets).Edge id a) :=
      hsettled.acyclic (hsettled.left_of_reaches hleft ha)
    rw [edge_overlaid_eq, edge_adjacency] at hacyclic
    exact hacyclic ha hback

theorem notMem_of_base_ne {rest : List EntryId} (h : g.findCycleWith id targets = some (base :: rest))
    (hbase : base ≠ id) : id ∉ rest := by
  rw [findCycleWith_eq_visitAll] at h
  obtain ⟨a, s, ⟨ids, hdue⟩, ha, hcycle⟩ := Adjacency.comesBack_iff.1 h
  have hspares := Adjacency.spares_visit hdue.traces ha
  rcases hdue.suffix_path with hsuffix | ⟨hpath, -⟩
  · intro hid
    have hbase : base ∉ [id] := mt List.mem_singleton.1 hbase
    exact hspares [id] base rest hsuffix hcycle hbase id hid List.mem_cons_self
  · -- On an empty path there is nothing to come back to.
    have hmem := hdue.traces.mem_onPath.1 ha
    rw [hpath] at hmem
    cases hmem

theorem base_eq_of_acyclic_erase (hacyclic : ∀ a, ¬ (g.erase id).Reaches a a)
    (h : g.findCycleWith id targets = some path) (hcycle : (g.insert id targets).adjacency.IsCycleAt base path) :
    base = id := by
  by_contra hbase
  obtain ⟨rest, rfl, hnodup, hchain⟩ := hcycle
  have hrest : id ∉ rest ++ [base] := notMem_of_base_ne h hbase
  have herased : (base :: rest ++ [base]).IsChain (g.erase id).adjacency.Edge := by
    refine hchain.imp_of_mem_imp fun a b ha _ hab => ?_
    have hne : id ≠ a := by
      rcases List.mem_cons.1 ha with rfl | ha
      · exact Ne.symm hbase
      · exact fun heq => hrest (heq ▸ ha)
    rw [edge_adjacency, edge_insert, if_neg hne] at hab
    rw [edge_adjacency]
    exact edge_erase.2 ⟨hne, hab⟩
  exact hacyclic base (reaches_of_isCycleAt ⟨rest, rfl, hnodup, herased⟩)

/-- A search for a cycle with `targets` laid over `id` comes up with one just in case there is one among `id`
and what it leads to once `targets` are recorded for it. What it comes up with is such a cycle, and lies
there. Where there is none without the edges that leave `id`, it is one from `id` back to `id`. -/
theorem findCycleWith_decides (g : ReferenceGraph) (id : EntryId) (targets : IdSet) :
    let inserted := g.insert id targets
    ((g.findCycleWith id targets).isSome ↔
        ∃ x, (x = id ∨ x ∈ inserted.closure id) ∧ x ∈ inserted.closure x) ∧
      (∀ path, g.findCycleWith id targets = some path →
        2 ≤ path.length ∧ path.head? = path.getLast? ∧ path.dropLast.Nodup ∧ path.IsChain inserted.Edge ∧
          ∀ x ∈ path, x = id ∨ x ∈ inserted.closure id) ∧
      ((∀ a, a ∉ (g.erase id).closure a) →
        ((g.findCycleWith id targets).isSome ↔ id ∈ inserted.closure id) ∧
          ∀ path, g.findCycleWith id targets = some path →
            path.head? = some id ∧ path.getLast? = some id) := by
  intro inserted
  refine ⟨?_, fun path h => ?_, fun hacyclic => ?_⟩
  · simp only [isSome_findCycleWith_iff, reflTransGen_iff, mem_closure_iff, inserted]
  · obtain ⟨base, hbase, hreach⟩ := exists_base_of_findCycleWith h
    obtain ⟨hlength, hhead, hlast, hnodup, hchain⟩ := hbase.spec
    have hmem (x : EntryId) (hx : x ∈ path) := hbase.reaches hx
    rw [edge_adjacency] at hchain hmem
    exact ⟨hlength, hhead.trans hlast.symm, hnodup, hchain,
      fun x hx => reflTransGen_iff.1 (hreach.trans (hmem x hx))⟩
  · have hfrom {path : List EntryId} (h : g.findCycleWith id targets = some path) :
        inserted.adjacency.IsCycleAt id path := by
      obtain ⟨base, hbase, -⟩ := exists_base_of_findCycleWith h
      obtain rfl := base_eq_of_acyclic_erase (fun a ha => hacyclic a (mem_closure_iff.2 ha)) h hbase
      exact hbase
    refine ⟨⟨fun h => ?_, fun hcycle => ?_⟩, fun path h => ?_⟩
    · obtain ⟨path, hpath⟩ := Option.isSome_iff_exists.1 h
      exact mem_closure_iff.2 (reaches_of_isCycleAt (hfrom hpath))
    · exact isSome_findCycleWith_iff.2 ⟨id, .refl, mem_closure_iff.1 hcycle⟩
    · obtain ⟨-, hhead, hlast, -⟩ := (hfrom h).spec
      exact ⟨hhead, hlast⟩

theorem findCycleWith_decides_recorded :
    let g : ReferenceGraph :=
      ((empty.addEdge ⟨"a"⟩ ⟨"gone"⟩).addEdge ⟨"b"⟩ ⟨"a"⟩).addEdge ⟨"c"⟩ ⟨"b"⟩
    let targets : IdSet := .ofList [(⟨"c"⟩ : EntryId), ⟨"d"⟩]
    let path : List EntryId := [⟨"a"⟩, ⟨"c"⟩, ⟨"b"⟩, ⟨"a"⟩]
    g.findCycleWith ⟨"a"⟩ targets = some path ∧ path.IsChain (g.insert ⟨"a"⟩ targets).Edge ∧
      (∀ a, a ∉ (g.erase ⟨"a"⟩).closure a) ∧ ⟨"a"⟩ ∈ (g.insert ⟨"a"⟩ targets).closure ⟨"a"⟩ ∧
      path.head? = some ⟨"a"⟩ := by
  intro g targets path
  have hfound : g.findCycleWith ⟨"a"⟩ targets = some path := by decide +kernel
  have hnone : (g.erase ⟨"a"⟩).findCycle = none := by decide +kernel
  have hacyclic (a : EntryId) : a ∉ (g.erase ⟨"a"⟩).closure a :=
    fun ha => not_reaches_of_findCycle hnone a (mem_closure_iff.1 ha)
  obtain ⟨-, hpath, hback⟩ := g.findCycleWith_decides ⟨"a"⟩ targets
  obtain ⟨-, -, -, hchain, -⟩ := hpath path hfound
  obtain ⟨hsome, hends⟩ := hback hacyclic
  exact ⟨hfound, hchain, hacyclic, hsome.1 (by rw [hfound]; rfl), (hends path hfound).1⟩

end ReferenceGraph
end FilterWorkspace
