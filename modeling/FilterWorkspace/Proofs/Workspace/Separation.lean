import FilterWorkspace.Proofs.Workspace.Persistence
import FilterWorkspace.Proofs.Workspace.Registration

/-! The strict policy looks at the references of an entry once, when the entry is added, and they
stay apart for good: what an identifier leads to does not grow afterwards. -/

namespace FilterWorkspace.Workspace

variable {L : Type}

def Separated (w : Workspace L) : Prop :=
  ∀ id e, w.get? id = some e → ∀ a b, ¬ w.graph.Shares e.references a b

theorem settings_step {w v : Workspace L} {event : Event L} (hstep : w.Step event v) :
    v.settings = w.settings := by
  cases hstep <;> rfl

theorem not_shares_of_admits {w : Workspace L} {ids : IdSet} (hstrict : w.settings.policy = .strict)
    (h : w.Admits ids) (a b : EntryId) : ¬ w.graph.Shares ids a b := by
  have hloop := h.loop?_eq_none
  unfold loop? at hloop
  split at hloop
  · cases hloop
  · rw [hstrict] at hloop
    exact ReferenceGraph.not_shares_of_sharing? (Option.map_eq_none_iff.1 hloop) a b

namespace Coherent

variable {w : Workspace L} (h : w.Coherent)
include h

theorem shares_of_step {event : Event L} {v : Workspace L} (hstep : w.Step event v) {ids : IdSet}
    (hnext : w.nextId ∉ ids) {a b : EntryId} (hab : v.graph.Shares ids a b) :
    w.graph.Shares ids a b := by
  have hold : a ≠ w.nextId := fun heq => hnext (heq ▸ hab.1)
  exact hab.of_reaches (h.reaches_of_step hstep hold)

theorem nextId_notMem_references {id : EntryId} {e : Entry L} (he : w.get? id = some e) :
    w.nextId ∉ e.references := by
  intro hmem
  refine h.not_edge_nextId id ⟨e.references, ?_, hmem⟩
  rw [h.graph, he, Option.map_some]

theorem separated_step {event : Event L} {v : Workspace L} (hstep : w.Step event v)
    (hstrict : w.settings.policy = .strict) (hw : w.Separated) : v.Separated := by
  intro id e he a b hab
  have hbefore : w.nextId ∉ e.references ∧ ∀ a b, ¬ w.graph.Shares e.references a b := by
    have hheld (he : w.get? id = some e) := And.intro (h.nextId_notMem_references he) (hw id e he)
    cases hstep with
    | keep => exact hheld he
    | add hadmits =>
      rw [get?_insert] at he
      split at he
      · obtain rfl := Option.some.inj he
        exact ⟨notMem_of_loop? hadmits.loop?_eq_none, not_shares_of_admits hstrict hadmits⟩
      · exact hheld he
    | drop =>
      rw [get?_drop] at he
      split at he
      · cases he
      · exact hheld he
  exact hbefore.2 a b (h.shares_of_step hstep hbefore.1 hab)

end Coherent

theorem Reachable.separated {w : Workspace L} (hw : w.Reachable)
    (hstrict : w.settings.policy = .strict) : w.Separated := by
  obtain ⟨settings, createdAt, calls, rfl⟩ := hw
  refine ((coherent_create settings createdAt).run_induction
    (motive := fun _ v => v.settings.policy = .strict → v.Separated)
    (fun _ => by simp [Separated, create, get?]) ?_ calls).2 hstrict
  intro events v event v' hv hseparated hstep hstrict
  rw [settings_step hstep] at hstrict
  exact hv.separated_step hstep hstrict (hseparated hstrict)

/-- Under the strict policy no entry held refers to an identifier and to something below it,
whatever has been added or removed since the entry was made. -/
theorem notMem_closure_of_strict {w : Workspace L} (hw : w.Reachable)
    (hstrict : w.settings.policy = .strict) {id : EntryId} {e : Entry L} (he : w.get? id = some e)
    {a b : EntryId} (ha : a ∈ e.references) (hb : b ∈ e.references) (hne : a ≠ b) :
    b ∉ w.graph.closure a :=
  fun hbelow => hw.separated hstrict id e he a b ⟨ha, hb, hne.symm, hbelow⟩

theorem notMem_closure_of_strict_removed :
    let w : Workspace Nat := (create { policy := .strict } 0).after
      [.put 7, .join .not [.reference ⟨"_0"⟩], .put 8,
        .join .and [.reference ⟨"_1"⟩, .reference ⟨"_2"⟩], .remove ⟨"_0"⟩,
        .join .or [.reference ⟨"_3"⟩, .leaf 9]]
    let e : Entry Nat :=
      .ofPayload ⟨"_3"⟩ (.compound ⟨.and, [.reference ⟨"_1"⟩, .reference ⟨"_2"⟩]⟩)
    w.Reachable ∧ w.settings.policy = .strict ∧ w.get? ⟨"_3"⟩ = some e ∧
      ⟨"_1"⟩ ∈ e.references ∧ ⟨"_2"⟩ ∈ e.references ∧ ⟨"_2"⟩ ∉ w.graph.closure ⟨"_1"⟩ := by
  intro w e
  have hw : w.Reachable := ⟨_, _, _, rfl⟩
  have hstrict : w.settings.policy = .strict := by decide +kernel
  have he : w.get? ⟨"_3"⟩ = some e := by decide +kernel
  have ha : ⟨"_1"⟩ ∈ e.references := by decide +kernel
  have hb : ⟨"_2"⟩ ∈ e.references := by decide +kernel
  exact ⟨hw, hstrict, he, ha, hb, notMem_closure_of_strict hw hstrict he ha hb (by decide)⟩

end FilterWorkspace.Workspace
