import FilterWorkspace.Proofs.Graph.Search
import FilterWorkspace.Workspace.History

/-! All that one call can do to a workspace: leave it as it is, add one entry whose references are
held, or drop one entry. What holds after every series of calls is shown over these three cases. -/

namespace FilterWorkspace.Workspace

variable {L : Type}

/-- An entry that refers to `ids` may be added: they are held, and close no loop. -/
structure Admits (w : Workspace L) (ids : IdSet) : Prop where
  held : ∀ {id}, id ∈ ids → id ∈ w
  loop?_eq_none : w.loop? ids = none

theorem notMem_of_loop? {w : Workspace L} {ids : IdSet} (h : w.loop? ids = none) :
    w.nextId ∉ ids := by
  apply ReferenceGraph.notMem_of_findCycleWith (g := w.graph)
  unfold loop? at h
  split at h
  · simp at h
  · assumption

theorem missing?_eq_none {w : Workspace L} {ids : List EntryId} :
    w.missing? ids = none ↔ ∀ id ∈ ids, id ∈ w := by
  simp [missing?]

theorem register_cases (w : Workspace L) (c : Compound L) :
    (∃ e, w.register c = (.error e, w)) ∨
      w.Admits c.referenceSet ∧
        w.register c = (.ok (w.insert (.compound c)).1, (w.insert (.compound c)).2) := by
  unfold register
  split
  · exact .inl ⟨_, rfl⟩
  next hmissing =>
    split
    · exact .inl ⟨_, rfl⟩
    next hloop =>
      refine .inr ⟨⟨fun {id} hid => missing?_eq_none.1 hmissing id ?_, hloop⟩, rfl⟩
      have hne : id ≠ w.nextId := fun heq => notMem_of_loop? hloop (heq ▸ hid)
      simpa [hne] using hid

theorem combine_eq_ok {w : Workspace L} {op : Combinator} {operands : List (Child L)}
    {c : Compound L} (h : w.combine op operands = .ok c) : c = ⟨op, operands⟩ := by
  unfold combine at h
  dsimp only at h
  split at h
  · cases h
  · exact (Except.ok.inj h).symm

theorem join_cases (w : Workspace L) (op : Combinator) (operands : List (Child L)) :
    (∃ e, w.join op operands = (.error e, w)) ∨
      w.Admits (Compound.mk op operands).referenceSet ∧ w.join op operands =
        (.ok (w.insert (.compound ⟨op, operands⟩)).1, (w.insert (.compound ⟨op, operands⟩)).2) := by
  unfold join
  cases h : w.combine op operands with
  | error e => exact .inl ⟨e, rfl⟩
  | ok c =>
    obtain rfl := combine_eq_ok h
    exact w.register_cases _

theorem admits_empty (w : Workspace L) : w.Admits ∅ where
  held := by simp
  loop?_eq_none := by
    unfold loop?
    rw [ReferenceGraph.findCycleWith_empty]
    cases w.settings.policy <;> simp [ReferenceGraph.sharing?]

inductive Step (w : Workspace L) : Event L → Workspace L → Prop
  | keep {event : Event L} (hregistered : event.registered? = none)
      (hremoved : event.removed? = none) (hremoval : ∀ id, event.removal? = some id → id ∉ w) :
      Step w event w
  | add {event : Event L} {payload : Payload L} (hadmits : w.Admits payload.references)
      (hregistered : event.registered? = some (w.insert payload).1) :
      Step w event (w.insert payload).2
  | drop {id : EntryId} {e : Entry L} (h : w.get? id = some e) :
      Step w ⟨.remove id, .found (some e)⟩ (w.drop id)

theorem step_perform (w : Workspace L) (call : Call L) :
    w.Step ⟨call, (w.perform call).1⟩ (w.perform call).2 := by
  cases call with
  | put value =>
    show w.Step _ (w.insert (.leaf value)).2
    exact .add w.admits_empty rfl
  | remove id =>
    cases h : w.get? id with
    | none =>
      have hperform : w.perform (.remove id) = (.found none, w) := by simp only [perform, remove, h]
      rw [hperform]
      refine .keep rfl rfl fun other heq => ?_
      obtain rfl := Option.some.inj heq
      exact notMem_iff_get?.2 h
    | some e =>
      have hperform : w.perform (.remove id) = (.found (some e), w.drop id) := by
        simp only [perform, remove, h]
      rw [hperform]
      exact .drop h
  | register c =>
    rcases w.register_cases c with ⟨e, h⟩ | ⟨hadmits, h⟩
    · simp only [perform, h]
      exact .keep rfl rfl (by simp [Event.removal?])
    · simp only [perform, h]
      exact .add hadmits rfl
  | join op operands =>
    rcases w.join_cases op operands with ⟨e, h⟩ | ⟨hadmits, h⟩
    · simp only [perform, h]
      exact .keep rfl rfl (by simp [Event.removal?])
    · simp only [perform, h]
      exact .add hadmits rfl
  | _ => exact .keep rfl rfl (by simp [Event.removal?])

/-- What holds of a workspace before any call, and goes over from each moment to the next, holds
after every series of calls. -/
theorem run_induction {motive : List (Event L) → Workspace L → Prop} {w : Workspace L}
    (start : motive [] w)
    (step : ∀ events v event v', motive events v → v.Step event v' → motive (events ++ [event]) v')
    (calls : List (Call L)) : motive (w.history calls) (w.after calls) := by
  induction calls using List.reverseRecOn with
  | nil => exact start
  | append_singleton calls call ih =>
    rw [history_append, after_append]
    exact step _ _ _ _ ih (step_perform _ call)

end FilterWorkspace.Workspace
