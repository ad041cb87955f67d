import FilterWorkspace.Proofs.Workspace.Unfolding

/-! An identifier has a tree when it is held and all that it leads to is held. Otherwise the error
names the first identifier not held that a walk down the references comes to: depth first, from
left to right, each identifier before what its entry refers to. -/

namespace FilterWorkspace.Workspace

variable {L : Type}

/-- The walk from `ids` comes to the identifiers `visited`, in this order. An identifier that is not
held leads no further. -/
inductive Walk (w : Workspace L) : List EntryId → List EntryId → Prop
  | done : Walk w [] []
  | absent {id : EntryId} {ids visited : List EntryId} (hid : id ∉ w) (rest : Walk w ids visited) :
      Walk w (id :: ids) (id :: visited)
  | held {id : EntryId} {ids visited : List EntryId} {e : Entry L} (he : w.get? id = some e)
      (rest : Walk w (e.payload.sites ++ ids) visited) : Walk w (id :: ids) (id :: visited)

theorem Walk.unique {w : Workspace L} {ids visited other : List EntryId} (h : w.Walk ids visited)
    (hother : w.Walk ids other) : other = visited := by
  induction h generalizing other with
  | done =>
    cases hother
    rfl
  | absent hid rest ih =>
    cases hother with
    | absent _ rest' => rw [ih rest']
    | held he rest' => exact absurd (mem_iff_get?.2 ⟨_, he⟩) hid
  | held he rest ih =>
    cases hother with
    | absent hid rest' => exact absurd (mem_iff_get?.2 ⟨_, he⟩) hid
    | held he' rest' =>
      obtain rfl := Option.some.inj (he.symm.trans he')
      rw [ih rest']

theorem Walk.append {w : Workspace L} {ids visited ids' visited' : List EntryId}
    (h : w.Walk ids visited) (h' : w.Walk ids' visited') : w.Walk (ids ++ ids') (visited ++ visited') := by
  induction h with
  | done => exact h'
  | absent hid rest ih => exact .absent hid ih
  | held he rest ih =>
    rw [List.append_assoc] at ih
    exact .held he ih

theorem exists_walk_of_forall {w : Workspace L} {ids : List EntryId}
    (h : ∀ id ∈ ids, ∃ visited, w.Walk [id] visited) : ∃ visited, w.Walk ids visited := by
  induction ids with
  | nil => exact ⟨[], .done⟩
  | cons id ids ih =>
    obtain ⟨first, hfirst⟩ := h id List.mem_cons_self
    obtain ⟨rest, hrest⟩ := ih fun a ha => h a (List.mem_cons_of_mem _ ha)
    exact ⟨first ++ rest, hfirst.append hrest⟩

namespace Coherent

variable {w : Workspace L} (hw : w.Coherent)
include hw

theorem exists_walk (id : EntryId) : ∃ visited, w.Walk [id] visited := by
  induction id using hw.reference_induction with
  | step id ih =>
    cases he : w.get? id with
    | none => exact ⟨_, .absent (notMem_iff_get?.2 he) .done⟩
    | some e =>
      have hsites : ∀ b ∈ e.payload.sites, ∃ visited, w.Walk [b] visited :=
        fun b hb => ih b (hw.edge_iff.2 ⟨e, he, hb⟩)
      obtain ⟨visited, hwalk⟩ := exists_walk_of_forall hsites
      rw [← List.append_nil e.payload.sites] at hwalk
      exact ⟨id :: visited, .held he hwalk⟩

theorem reflTransGen_of_notMem {id x : EntryId} (hid : id ∉ w) :
    Relation.ReflTransGen w.graph.Edge id x ↔ x = id := by
  rw [Relation.ReflTransGen.cases_head_iff]
  constructor
  · rintro (rfl | ⟨b, hedge, -⟩)
    · rfl
    · exact absurd (hw.mem_of_reaches (.single hedge)) hid
  · rintro rfl
    exact .inl rfl

theorem reflTransGen_of_get? {id x : EntryId} {e : Entry L} (he : w.get? id = some e) :
    Relation.ReflTransGen w.graph.Edge id x ↔
      x = id ∨ ∃ b ∈ e.payload.sites, Relation.ReflTransGen w.graph.Edge b x := by
  rw [Relation.ReflTransGen.cases_head_iff, eq_comm]
  refine or_congr_right (exists_congr fun b => and_congr_left fun _ => ?_)
  rw [hw.edge_iff]
  constructor
  · rintro ⟨e', he', hb⟩
    obtain rfl := Option.some.inj (he.symm.trans he')
    exact hb
  · exact fun hb => ⟨e, he, hb⟩

theorem mem_walk {ids visited : List EntryId} (h : w.Walk ids visited) {x : EntryId} :
    x ∈ visited ↔ ∃ id ∈ ids, Relation.ReflTransGen w.graph.Edge id x := by
  induction h with
  | done => simp
  | absent hid rest ih =>
    rw [List.mem_cons, ih, List.exists_mem_cons_iff, hw.reflTransGen_of_notMem hid]
  | held he rest ih =>
    rw [List.mem_cons, ih, List.exists_mem_cons_iff, hw.reflTransGen_of_get? he]
    simp only [List.mem_append, or_and_right, exists_or, or_assoc]

theorem mem_walk_singleton {id x : EntryId} {visited : List EntryId} (h : w.Walk [id] visited) :
    x ∈ visited ↔ x = id ∨ x ∈ w.graph.closure id := by
  rw [hw.mem_walk h]
  simp only [List.mem_singleton, exists_eq_left, ReferenceGraph.reflTransGen_iff]

/-- Among `ids`, the first error is the first identifier not held that the walk from them comes to.
The walk may be one through another workspace `v`, when what `w` holds of it stands as it does there. -/
theorem findSome?_resolve {v : Workspace L} {ids visited : List EntryId} (h : v.Walk ids visited)
    (hkept : ∀ x ∈ visited, x ∈ w → w.get? x = v.get? x) :
    ids.findSome? (fun id => failure? (w.resolve id)) =
      (visited.find? (· ∉ w)).map .unknownReference := by
  induction h with
  | done => rfl
  | @absent id ids visited hid rest ih =>
    have hgone : id ∉ w := fun hmem => by
      have heq := hkept id List.mem_cons_self hmem
      rw [notMem_iff_get?.1 hid] at heq
      exact notMem_iff_get?.2 heq hmem
    rw [List.findSome?_cons, resolve_of_notMem hgone, List.find?_cons_of_pos (by simpa using hgone)]
    rfl
  | @held id ids visited e he rest ih =>
    by_cases hid : id ∈ w
    · have hentry : w.get? id = some e := (hkept id List.mem_cons_self hid).trans he
      have hsites : failure? (w.resolve id) =
          e.payload.sites.findSome? fun b => failure? (w.resolve b) := by
        rw [hw.resolve_of_get? hentry, Payload.failure?_expand]
      rw [List.find?_cons_of_neg (by simpa using hid),
        ← ih fun x hx => hkept x (List.mem_cons_of_mem _ hx), List.findSome?_append, ← hsites,
        List.findSome?_cons]
      cases failure? (w.resolve id) <;> rfl
    · rw [List.findSome?_cons, resolve_of_notMem hid, List.find?_cons_of_pos (by simpa using hid)]
      rfl

theorem failure?_resolve {v : Workspace L} {id : EntryId} {visited : List EntryId}
    (h : v.Walk [id] visited) (hkept : ∀ x ∈ visited, x ∈ w → w.get? x = v.get? x) :
    failure? (w.resolve id) = (visited.find? (· ∉ w)).map .unknownReference := by
  rw [← hw.findSome?_resolve h hkept, List.findSome?_singleton]

theorem resolve_of_find?_eq_none {id : EntryId} {visited : List EntryId} (h : w.Walk [id] visited)
    (hfind : visited.find? (· ∉ w) = none) : ∃ t, w.resolve id = .ok t := by
  apply exists_ok_of_failure?
  rw [hw.failure?_resolve h fun _ _ _ => rfl, hfind, Option.map_none]

theorem resolve_of_find?_eq_some {id x : EntryId} {visited : List EntryId} (h : w.Walk [id] visited)
    (hfind : visited.find? (· ∉ w) = some x) : w.resolve id = .error (.unknownReference x) := by
  apply eq_error_of_failure?
  rw [hw.failure?_resolve h fun _ _ _ => rfl, hfind, Option.map_some]

theorem mem_of_resolve {id x : EntryId} {t : Tree L} {visited : List EntryId} (h : w.Walk [id] visited)
    (ht : w.resolve id = .ok t) (hx : x ∈ visited) : x ∈ w := by
  have hfailure := hw.failure?_resolve h fun _ _ _ => rfl
  rw [ht, failure?, eq_comm, Option.map_eq_none_iff, List.find?_eq_none] at hfailure
  simpa using hfailure x hx

end Coherent

/-- An identifier resolves when it is held with all that it leads to, and otherwise fails for the
first identifier on the walk from it that is not held. -/
theorem resolve_of_reachable {w : Workspace L} (hw : w.Reachable) (id : EntryId) :
    ∃ visited, w.Walk [id] visited ∧ (∀ other, w.Walk [id] other → other = visited) ∧
      ((∃ t, w.resolve id = .ok t) ↔
        id ∈ w ∧ ∃ below, w.allReferences id = .ok below ∧ ∀ x ∈ below, x ∈ w) ∧
      ((∀ t, w.resolve id ≠ .ok t) → ∃ x, visited.find? (· ∉ w) = some x ∧
        w.resolve id = .error (.unknownReference x) ∧
        (id ∈ w → ∃ below, w.allReferences id = .ok below ∧ x ∈ below)) := by
  have hcoherent := hw.coherent
  obtain ⟨visited, hwalk⟩ := hcoherent.exists_walk id
  have hmem (x : EntryId) : x ∈ visited ↔ x = id ∨ x ∈ w.graph.closure id :=
    hcoherent.mem_walk_singleton hwalk
  refine ⟨visited, hwalk, fun other hother => hwalk.unique hother, ?_⟩
  cases hfind : visited.find? (· ∉ w) with
  | none =>
    obtain ⟨t, ht⟩ := hcoherent.resolve_of_find?_eq_none hwalk hfind
    have hall (x : EntryId) (hx : x ∈ visited) : x ∈ w := by
      simpa using List.find?_eq_none.1 hfind x hx
    have hid : id ∈ w := hall id ((hmem id).2 (.inl rfl))
    have hbelow (x : EntryId) (hx : x ∈ w.graph.closure id) : x ∈ w := hall x ((hmem x).2 (.inr hx))
    exact ⟨iff_of_true ⟨t, ht⟩ ⟨hid, _, allReferences_of_mem hid, hbelow⟩,
      fun hfails => absurd ht (hfails t)⟩
  | some x =>
    have herror := hcoherent.resolve_of_find?_eq_some hwalk hfind
    have hx : x ∉ w := by simpa using List.find?_some hfind
    have hbelow (hid : id ∈ w) : x ∈ w.graph.closure id := by
      rcases (hmem x).1 (List.mem_of_find?_eq_some hfind) with rfl | hbelow
      · exact absurd hid hx
      · exact hbelow
    refine ⟨iff_of_false (by simp [herror]) ?_, fun _ => ⟨x, rfl, herror, fun hid => ?_⟩⟩
    · rintro ⟨hid, below, heq, hall⟩
      rw [allReferences_of_mem hid] at heq
      obtain rfl := Except.ok.inj heq
      exact hx (hall x (hbelow hid))
    · exact ⟨_, allReferences_of_mem hid, hbelow hid⟩

theorem resolve_of_reachable_removed :
    let w : Workspace Nat := (create {} 0).after [.put 7, .join .not [.reference ⟨"_0"⟩], .remove ⟨"_0"⟩]
    w.Reachable ∧ w.resolve ⟨"_1"⟩ = .error (.unknownReference ⟨"_0"⟩) ∧
      ∃ visited, w.Walk [⟨"_1"⟩] visited ∧ visited.find? (· ∉ w) = some ⟨"_0"⟩ := by
  intro w
  have hw : w.Reachable := ⟨_, _, _, rfl⟩
  have herror : w.resolve ⟨"_1"⟩ = .error (.unknownReference ⟨"_0"⟩) := by decide +kernel
  obtain ⟨visited, hwalk, -, -, hfails⟩ := resolve_of_reachable hw ⟨"_1"⟩
  obtain ⟨x, hfind, hresolve, -⟩ := hfails (by simp [herror])
  obtain rfl : ⟨"_0"⟩ = x := Error.unknownReference.inj (Except.error.inj (herror.symm.trans hresolve))
  exact ⟨hw, herror, visited, hwalk, hfind⟩

end FilterWorkspace.Workspace
