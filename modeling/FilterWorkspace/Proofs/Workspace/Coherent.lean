import FilterWorkspace.Proofs.Workspace.Step

/-! The three parts of a workspace stay in step through every series of calls: the graph has the
nodes and edges that the held entries call for, and the counter is ahead of every identifier that
either of them knows. References go from later numbers to earlier ones, so that they close no
cycle, whatever has been removed. -/

namespace FilterWorkspace.Workspace

variable {L : Type}

structure Coherent (w : Workspace L) : Prop where
  entry : ∀ {id e}, w.get? id = some e → e = .ofPayload id e.payload
  graph : ∀ id, w.graph.references? id = (w.get? id).map Entry.references
  issued : ∀ {id}, id ∈ w → ∃ i < w.ids.issued, id = .numbered w.ids.space i
  descends : ∀ {a b}, w.graph.Edge a b →
    ∃ i j, a = .numbered w.ids.space i ∧ b = .numbered w.ids.space j ∧ j < i ∧ i < w.ids.issued

theorem coherent_create (settings : Settings) (createdAt : Int) :
    (create settings createdAt : Workspace L).Coherent where
  entry := by simp [create, get?]
  graph := by simp [create, get?, ReferenceGraph.references?, ReferenceGraph.empty]
  issued := by simp [create, mem_def]
  descends := by
    rintro a b ⟨targets, h, -⟩
    simp [create, ReferenceGraph.references?, ReferenceGraph.empty] at h

namespace Coherent

variable {w : Workspace L}

theorem nextId_notMem (h : w.Coherent) : w.nextId ∉ w := by
  intro hmem
  obtain ⟨i, hi, heq⟩ := h.issued hmem
  have := EntryId.numbered_inj.1 heq
  omega

theorem insert (h : w.Coherent) {payload : Payload L} (hheld : ∀ {id}, id ∈ payload.references → id ∈ w) :
    (w.insert payload).2.Coherent where
  entry := by
    intro id e he
    rw [get?_insert] at he
    split at he
    · obtain rfl := Option.some.inj he
      rfl
    · exact h.entry he
  graph := by
    intro id
    rw [graph_insert, ReferenceGraph.references?_insert, get?_insert, h.graph]
    split <;> rfl
  issued := by
    intro id hid
    rcases mem_insert.1 hid with rfl | hid
    · exact ⟨w.ids.issued, Nat.lt_succ_self _, rfl⟩
    · obtain ⟨i, hi, rfl⟩ := h.issued hid
      exact ⟨i, Nat.lt_succ_of_lt hi, rfl⟩
  descends := by
    intro a b hab
    rw [graph_insert, ReferenceGraph.edge_insert] at hab
    split at hab
    next ha =>
      obtain ⟨j, hj, rfl⟩ := h.issued (hheld hab)
      exact ⟨w.ids.issued, j, ha.symm, rfl, hj, Nat.lt_succ_self _⟩
    next =>
      obtain ⟨i, j, ha, hb, hji, hi⟩ := h.descends hab
      exact ⟨i, j, ha, hb, hji, Nat.lt_succ_of_lt hi⟩

theorem drop (h : w.Coherent) (id : EntryId) : (w.drop id).Coherent where
  entry := by
    intro other e he
    rw [get?_drop] at he
    split at he
    · cases he
    · exact h.entry he
  graph := by
    intro other
    rw [get?_drop, show (w.drop id).graph = w.graph.erase id from rfl,
      ReferenceGraph.references?_erase, h.graph]
    split <;> rfl
  issued hmem := h.issued (mem_drop.1 hmem).2
  descends hab := h.descends (ReferenceGraph.edge_erase.1 hab).2

theorem step (h : w.Coherent) {event : Event L} {v : Workspace L} (hstep : w.Step event v) :
    v.Coherent := by
  cases hstep with
  | keep => exact h
  | add hadmits => exact h.insert hadmits.held
  | drop => exact h.drop _

theorem id_eq (h : w.Coherent) {id : EntryId} {e : Entry L} (he : w.get? id = some e) : e.id = id := by
  rw [h.entry he]
  rfl

theorem references_eq (h : w.Coherent) {id : EntryId} {e : Entry L} (he : w.get? id = some e) :
    e.references = e.payload.references := by
  rw [h.entry he]
  rfl

theorem mem_toList (h : w.Coherent) {e : Entry L} : e ∈ w.toList ↔ w.get? e.id = some e := by
  unfold toList
  rw [List.mem_map]
  constructor
  · rintro ⟨⟨id, e⟩, hmem, rfl⟩
    have he : w.get? id = some e := Std.ExtTreeMap.mem_toList_iff_getElem?_eq_some.1 hmem
    exact h.id_eq he ▸ he
  · exact fun he => ⟨(e.id, e), Std.ExtTreeMap.mem_toList_iff_getElem?_eq_some.2 he, rfl⟩

theorem sorted_toList (h : w.Coherent) :
    (w.toList.map Entry.id).Pairwise fun a b => compare a b = .lt := by
  have hkeys : w.toList.map Entry.id = w.entries.toList.map Prod.fst := by
    rw [toList, List.map_map]
    refine List.map_congr_left fun ⟨id, e⟩ hmem => ?_
    exact h.id_eq (Std.ExtTreeMap.mem_toList_iff_getElem?_eq_some.1 hmem)
  rw [hkeys, List.pairwise_map]
  exact Std.ExtTreeMap.ordered_keys_toList

theorem reaches_descends (h : w.Coherent) {a b : EntryId} (hab : w.graph.Reaches a b) :
    ∃ i j, a = .numbered w.ids.space i ∧ b = .numbered w.ids.space j ∧ j < i ∧ i < w.ids.issued := by
  induction hab with
  | single hab => exact h.descends hab
  | tail _ hbc ih =>
    obtain ⟨i, j, ha, hb, hji, hi⟩ := ih
    obtain ⟨j', k, hb', hc, hkj, -⟩ := h.descends hbc
    obtain rfl := EntryId.numbered_inj.1 (hb.symm.trans hb')
    exact ⟨i, k, ha, hc, hkj.trans hji, hi⟩

theorem acyclic (h : w.Coherent) (a : EntryId) : ¬ w.graph.Reaches a a := by
  intro haa
  obtain ⟨i, j, hi, hj, hlt, -⟩ := h.reaches_descends haa
  have := EntryId.numbered_inj.1 (hi.symm.trans hj)
  omega

/-- No entry, held or dropped, leads to the identifier that is to come next. -/
theorem not_reaches_nextId (h : w.Coherent) (a : EntryId) : ¬ w.graph.Reaches a w.nextId := by
  intro hreach
  obtain ⟨i, j, -, hj, hlt, hi⟩ := h.reaches_descends hreach
  have := EntryId.numbered_inj.1 hj
  omega

theorem not_edge_nextId (h : w.Coherent) (a : EntryId) : ¬ w.graph.Edge a w.nextId :=
  fun hedge => h.not_reaches_nextId a (.single hedge)

end Coherent

theorem Coherent.run_induction {motive : List (Event L) → Workspace L → Prop} {w : Workspace L}
    (h : w.Coherent) (start : motive [] w)
    (step : ∀ events v event v', v.Coherent → motive events v → v.Step event v' →
      motive (events ++ [event]) v')
    (calls : List (Call L)) : (w.after calls).Coherent ∧ motive (w.history calls) (w.after calls) :=
  Workspace.run_induction (motive := fun events v => v.Coherent ∧ motive events v) ⟨h, start⟩
    (fun events v event v' ⟨hv, hmotive⟩ hstep =>
      ⟨hv.step hstep, step events v event v' hv hmotive hstep⟩) calls

theorem Coherent.after {w : Workspace L} (h : w.Coherent) (calls : List (Call L)) :
    (w.after calls).Coherent :=
  (h.run_induction (motive := fun _ _ => True) trivial (fun _ _ _ _ _ _ _ => trivial) calls).1

theorem coherent_after (settings : Settings) (createdAt : Int) (calls : List (Call L)) :
    ((create settings createdAt : Workspace L).after calls).Coherent :=
  (coherent_create settings createdAt).after calls

theorem Reachable.coherent {w : Workspace L} (h : w.Reachable) : w.Coherent := by
  obtain ⟨settings, createdAt, calls, rfl⟩ := h
  exact coherent_after settings createdAt calls

theorem space_after (w : Workspace L) (calls : List (Call L)) :
    (w.after calls).ids.space = w.ids.space := by
  refine run_induction (motive := fun _ v => v.ids.space = w.ids.space) rfl ?_ calls
  intro events v event v' h hstep
  cases hstep <;> exact h

/-- The graph after any calls has no cycle, neither one to be found nor one to be walked, since each
reference recorded in it leads from a number to a smaller one. -/
theorem graph_acyclic_after (settings : Settings) (createdAt : Int) (calls : List (Call L)) :
    let w : Workspace L := (create settings createdAt).after calls
    w.graph.findCycle = none ∧ (∀ id, id ∉ w.graph.closure id) ∧
      ∀ a b, w.graph.Edge a b → ∃ i j, a = .numbered (settings.space createdAt) i ∧
        b = .numbered (settings.space createdAt) j ∧ j < i ∧ i < w.ids.issued := by
  intro w
  have hw : w.Coherent := coherent_after settings createdAt calls
  have hspace : w.ids.space = settings.space createdAt := space_after (create settings createdAt) calls
  refine ⟨ReferenceGraph.findCycle_eq_none hw.acyclic, fun id hid => ?_, fun a b hab => ?_⟩
  · exact hw.acyclic id (ReferenceGraph.mem_closure_iff.1 hid)
  · rw [← hspace]
    exact hw.descends hab

end FilterWorkspace.Workspace
