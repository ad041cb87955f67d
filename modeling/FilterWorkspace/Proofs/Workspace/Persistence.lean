import FilterWorkspace.Proofs.Workspace.Walk

/-! What an identifier stands for does not change. An identifier that has been issued names the same
entry until a call removes it, and nothing afterwards, and no call adds to what it leads to. So a
tree once found is found again as long as nothing it is made of has been removed, and from then on
never again. -/

namespace FilterWorkspace.Workspace

variable {L : Type}

def Upcoming (w : Workspace L) (id : EntryId) : Prop :=
  ∃ n, w.ids.issued ≤ n ∧ id = .numbered w.ids.space n

theorem upcoming_nextId (w : Workspace L) : w.Upcoming w.nextId := ⟨_, le_rfl, rfl⟩

theorem not_upcoming_numbered {w : Workspace L} {n : Nat} (h : n < w.ids.issued) :
    ¬ w.Upcoming (.numbered w.ids.space n) := by
  rintro ⟨m, hm, heq⟩
  have := EntryId.numbered_inj.1 heq
  omega

theorem Step.upcoming {w v : Workspace L} {event : Event L} (hstep : w.Step event v) {id : EntryId}
    (h : v.Upcoming id) : w.Upcoming id := by
  obtain ⟨n, hn, rfl⟩ := h
  cases hstep with
  | keep => exact ⟨n, hn, rfl⟩
  | add => exact ⟨n, (Nat.le_succ _).trans hn, rfl⟩
  | drop => exact ⟨n, hn, rfl⟩

theorem removedIds_append (events later : List (Event L)) :
    removedIds (events ++ later) = removedIds events ++ removedIds later := by
  simp only [removedIds, removals, List.filterMap_append, List.map_append]

theorem removedIds_singleton (event : Event L) :
    removedIds [event] = (event.removed?.map Entry.id).toList := by
  rw [removedIds, removals, List.filterMap_cons]
  cases event.removed? <;> rfl

namespace Coherent

variable {w : Workspace L} (h : w.Coherent)
include h

theorem not_upcoming_of_mem {id : EntryId} (hid : id ∈ w) : ¬ w.Upcoming id := by
  obtain ⟨i, hi, rfl⟩ := h.issued hid
  exact not_upcoming_numbered hi

theorem get?_step {event : Event L} {v : Workspace L} (hstep : w.Step event v) {id : EntryId}
    (hid : id ≠ w.nextId) :
    v.get? id = if event.removed?.map Entry.id = some id then none else w.get? id := by
  cases hstep with
  | keep _ hremoved => simp [hremoved]
  | add _ hregistered =>
    rw [get?_insert, if_neg hid.symm]
    rcases Event.exists_of_registered? hregistered with ⟨_, rfl⟩ | ⟨_, rfl⟩ | ⟨_, _, rfl⟩ <;> rfl
  | drop he => simp [Event.removed?, h.id_eq he]

theorem edge_of_step {event : Event L} {v : Workspace L} (hstep : w.Step event v) {a b : EntryId}
    (ha : a ≠ w.nextId) (hab : v.graph.Edge a b) : w.graph.Edge a b := by
  obtain ⟨e, he, hb⟩ := (h.step hstep).edge_iff.1 hab
  rw [h.get?_step hstep ha] at he
  split at he
  · cases he
  · exact h.edge_iff.2 ⟨e, he, hb⟩

theorem reaches_of_step {event : Event L} {v : Workspace L} (hstep : w.Step event v) {a b : EntryId}
    (ha : a ≠ w.nextId) (hab : v.graph.Reaches a b) : w.graph.Reaches a b := by
  induction hab with
  | single hab => exact .single (h.edge_of_step hstep ha hab)
  | tail _ hbc ih =>
    exact ih.tail (h.edge_of_step hstep (fun heq => h.not_reaches_nextId a (heq ▸ ih)) hbc)

/-- An identifier issued before the calls names what it named then, until it is removed. -/
theorem get?_after {id : EntryId} (hid : ¬ w.Upcoming id) (calls : List (Call L)) :
    (w.after calls).get? id = if id ∈ removedIds (w.history calls) then none else w.get? id := by
  refine (h.run_induction (motive := fun events v => ¬ v.Upcoming id ∧
    v.get? id = if id ∈ removedIds events then none else w.get? id) ⟨hid, by simp [removedIds, removals]⟩
    ?_ calls).2.2
  intro events v event v' hv ⟨hid, heq⟩ hstep
  refine ⟨mt hstep.upcoming hid, ?_⟩
  have hnext : id ≠ v.nextId := fun heq => hid (heq ▸ v.upcoming_nextId)
  rw [hv.get?_step hstep hnext, heq, removedIds_append, removedIds_singleton]
  by_cases hremoved : event.removed?.map Entry.id = some id
  · simp [hremoved]
  · rw [if_neg hremoved]
    simp only [List.mem_append, Option.mem_toList, hremoved, or_false]

theorem mem_after {id : EntryId} (hid : id ∈ w) (calls : List (Call L)) :
    id ∈ w.after calls ↔ id ∉ removedIds (w.history calls) := by
  rw [mem_iff_get?] at hid ⊢
  rw [h.get?_after (h.not_upcoming_of_mem (mem_iff_get?.2 hid))]
  split <;> simp [*]

theorem get?_after_of_mem {id : EntryId} (hid : id ∈ w) {calls : List (Call L)}
    (hafter : id ∈ w.after calls) : (w.after calls).get? id = w.get? id := by
  rw [h.get?_after (h.not_upcoming_of_mem hid), if_neg ((h.mem_after hid calls).1 hafter)]

/-- What becomes of a tree: it is the same as before, or something that it is made of is gone. -/
theorem resolve_after_cases {id : EntryId} {t : Tree L} (ht : w.resolve id = .ok t)
    (calls : List (Call L)) :
    (∀ x, x = id ∨ x ∈ w.graph.closure id → x ∉ removedIds (w.history calls)) ∧
        (w.after calls).resolve id = .ok t ∨
      ∃ x, (x = id ∨ x ∈ w.graph.closure id) ∧ x ∈ removedIds (w.history calls) ∧
        (w.after calls).resolve id = .error (.unknownReference x) := by
  obtain ⟨visited, hwalk⟩ := h.exists_walk id
  have hmem (x : EntryId) : x ∈ visited ↔ x = id ∨ x ∈ w.graph.closure id := h.mem_walk_singleton hwalk
  have hheld (x : EntryId) (hx : x ∈ visited) : x ∈ w := h.mem_of_resolve hwalk ht hx
  have hfailure := (h.after calls).failure?_resolve hwalk
    fun x hx hafter => h.get?_after_of_mem (hheld x hx) hafter
  cases hfind : visited.find? (· ∉ w.after calls) with
  | none =>
    have hkept (x : EntryId) (hx : x ∈ visited) : x ∈ w.after calls := by
      simpa using List.find?_eq_none.1 hfind x hx
    refine .inl ⟨fun x hx => ?_, ?_⟩
    · have hx : x ∈ visited := (hmem x).2 hx
      exact (h.mem_after (hheld x hx) calls).1 (hkept x hx)
    · rw [← ht]
      refine h.resolve_congr (h.after calls) fun a ha => ?_
      have ha : a ∈ visited := (hmem a).2 (ReferenceGraph.reflTransGen_iff.1 ha)
      exact h.get?_after_of_mem (hheld a ha) (hkept a ha)
  | some x =>
    have hx : x ∈ visited := List.mem_of_find?_eq_some hfind
    have hgone : x ∉ w.after calls := by simpa using List.find?_some hfind
    rw [hfind, Option.map_some] at hfailure
    refine .inr ⟨x, (hmem x).1 hx, ?_, eq_error_of_failure? hfailure⟩
    exact not_not.1 (mt (h.mem_after (hheld x hx) calls).2 hgone)

end Coherent

/-- A tree, once found, is found again as long as the identifier is held with all that it led to. When one of these
has been removed, every later attempt fails, for one of them that has been removed by the time of the attempt and
so not always for one that was removed first. No call ever brings forth another tree. -/
theorem resolve_after {w : Workspace L} (hw : w.Reachable) {id : EntryId} {t : Tree L}
    (ht : w.resolve id = .ok t) :
    ∃ below, w.allReferences id = .ok below ∧ ∀ calls,
      ((w.after calls).resolve id = .ok t ↔
        ∀ x, x = id ∨ x ∈ below → x ∉ removedIds (w.history calls)) ∧
      ((∃ x, (x = id ∨ x ∈ below) ∧ x ∈ removedIds (w.history calls)) →
        ∀ later, ∃ x, (x = id ∨ x ∈ below) ∧ x ∈ removedIds (w.history (calls ++ later)) ∧
          (w.after (calls ++ later)).resolve id = .error (.unknownReference x)) ∧
      ∀ t', (w.after calls).resolve id = .ok t' → t' = t := by
  have hcoherent := hw.coherent
  have hid : id ∈ w := by
    by_contra hmem
    simp [resolve_of_notMem hmem] at ht
  refine ⟨_, allReferences_of_mem hid, fun calls => ⟨⟨fun hafter x hx hremoved => ?_, fun hkept => ?_⟩,
    fun ⟨x, hx, hremoved⟩ later => ?_, fun t' hafter => ?_⟩⟩
  · rcases hcoherent.resolve_after_cases ht calls with ⟨hkept, -⟩ | ⟨y, -, -, herror⟩
    · exact hkept x hx hremoved
    · simp [hafter] at herror
  · rcases hcoherent.resolve_after_cases ht calls with ⟨-, hafter⟩ | ⟨y, hy, hremoved, -⟩
    · exact hafter
    · exact absurd hremoved (hkept y hy)
  · rcases hcoherent.resolve_after_cases ht (calls ++ later) with ⟨hkept, -⟩ | hgone
    · refine absurd ?_ (hkept x hx)
      rw [history_append, removedIds_append]
      exact List.mem_append_left _ hremoved
    · exact hgone
  · rcases hcoherent.resolve_after_cases ht calls with ⟨-, hsame⟩ | ⟨y, -, -, herror⟩
    · exact Except.ok.inj (hafter.symm.trans hsame)
    · simp [hafter] at herror

theorem resolve_after_removal :
    let w : Workspace Nat :=
      (create {} 0).after [.put 7, .put 8, .join .and [.reference ⟨"_0"⟩, .reference ⟨"_1"⟩]]
    let calls : List (Call Nat) := [.put 9, .remove ⟨"_1"⟩]
    w.Reachable ∧ w.resolve ⟨"_2"⟩ = .ok (.compound .and [.leaf 7, .leaf 8]) ∧
      (w.after calls).resolve ⟨"_2"⟩ = .error (.unknownReference ⟨"_1"⟩) ∧
      ∀ later t, (w.after (calls ++ later)).resolve ⟨"_2"⟩ ≠ .ok t := by
  intro w calls
  have hw : w.Reachable := ⟨_, _, _, rfl⟩
  have ht : w.resolve ⟨"_2"⟩ = .ok (.compound .and [.leaf 7, .leaf 8]) := by decide +kernel
  refine ⟨hw, ht, by decide +kernel, fun later t hafter => ?_⟩
  obtain ⟨below, hbelow, hcalls⟩ := resolve_after hw ht
  have hmem : ⟨"_1"⟩ ∈ below := by
    rw [allReferences_of_mem (by decide +kernel)] at hbelow
    obtain rfl := Except.ok.inj hbelow
    decide +kernel
  have hremoved : ⟨"_1"⟩ ∈ removedIds (w.history calls) := by decide +kernel
  obtain ⟨x, -, -, herror⟩ := (hcalls calls).2.1 ⟨⟨"_1"⟩, .inr hmem, hremoved⟩ later
  simp [hafter] at herror

/-- A second removal may change which identifier the failure names. -/
theorem resolve_after_second_removal :
    let w : Workspace Nat :=
      (create {} 0).after [.put 7, .put 8, .join .and [.reference ⟨"_0"⟩, .reference ⟨"_1"⟩]]
    let calls : List (Call Nat) := [.remove ⟨"_1"⟩]
    let later : List (Call Nat) := [.remove ⟨"_0"⟩]
    w.Reachable ∧ w.resolve ⟨"_2"⟩ = .ok (.compound .and [.leaf 7, .leaf 8]) ∧
      (∃ below, w.allReferences ⟨"_2"⟩ = .ok below ∧ ⟨"_1"⟩ ∈ below) ∧
      ⟨"_1"⟩ ∈ removedIds (w.history calls) ∧
      ¬ ∃ x ∈ removedIds (w.history calls),
        (w.after (calls ++ later)).resolve ⟨"_2"⟩ = .error (.unknownReference x) := by
  intro w calls later
  have hremoved : removedIds (w.history calls) = [⟨"_1"⟩] := by decide +kernel
  have herror : (w.after (calls ++ later)).resolve ⟨"_2"⟩ = .error (.unknownReference ⟨"_0"⟩) := by decide +kernel
  have hbelow : w.allReferences ⟨"_2"⟩ = .ok (w.graph.closure ⟨"_2"⟩) := allReferences_of_mem (by decide +kernel)
  refine ⟨⟨_, _, _, rfl⟩, by decide +kernel, ⟨_, hbelow, by decide +kernel⟩, by simp [hremoved], ?_⟩
  simp [hremoved, herror]

end FilterWorkspace.Workspace
