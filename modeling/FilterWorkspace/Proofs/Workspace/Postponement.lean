import FilterWorkspace.Proofs.Workspace.Prediction
import FilterWorkspace.Proofs.Workspace.Separation
import FilterWorkspace.Proofs.Workspace.Shrinking

/-! A compound may wait for its registration. Calls in between add nothing to what an identifier
leads to, so references that closed no loop before close none afterwards, and as long as they are
held the compound is accepted. -/

namespace FilterWorkspace.Workspace

variable {L : Type}

theorem settings_after (w : Workspace L) (calls : List (Call L)) :
    (w.after calls).settings = w.settings := by
  refine run_induction (motive := fun _ v => v.settings = w.settings) rfl ?_ calls
  intro events v event v' h hstep
  exact (settings_step hstep).trans h

theorem hasLoop_eq_false_iff {w : Workspace L} {ids : List EntryId} :
    w.hasLoop ids = .ok false ↔ (∀ id ∈ ids, id ∈ w) ∧ w.loop? (.ofList ids) = none := by
  unfold hasLoop
  cases hmissing : w.missing? ids with
  | some id =>
    have hid : ¬ ∀ id ∈ ids, id ∈ w := fun hheld => by simp [missing?_eq_none.2 hheld] at hmissing
    simp [hid]
  | none =>
    rw [and_iff_right (missing?_eq_none.1 hmissing)]
    simp

theorem register_of_hasLoop {w : Workspace L} {c : Compound L} (h : w.hasLoop c.references = .ok false) :
    w.register c = (.ok (w.insert (.compound c)).1, (w.insert (.compound c)).2) := by
  obtain ⟨hheld, hloop⟩ := hasLoop_eq_false_iff.1 h
  have hmissing : w.missing? (c.referenceSet.toList.filter (· ≠ w.nextId)) = none := by
    refine missing?_eq_none.2 fun id hid => hheld id ?_
    exact Compound.mem_referenceSet.1 (Std.ExtTreeSet.mem_toList.1 (List.mem_filter.1 hid).1)
  have hset : w.loop? c.referenceSet = none := hloop
  simp only [register, hmissing, hset]

namespace Coherent

variable {w : Workspace L} (h : w.Coherent)
include h

theorem reaches_of_after {a b : EntryId} (ha : ¬ w.Upcoming a) {calls : List (Call L)}
    (hab : (w.after calls).graph.Reaches a b) : w.graph.Reaches a b := by
  obtain ⟨between, hroute, -⟩ := (h.reaches_after_iff ha calls).1 hab
  exact ReferenceGraph.reaches_iff_exists_route.2 ⟨between, hroute⟩

theorem shares_of_after {ids : IdSet} (hheld : ∀ id ∈ ids, id ∈ w) {calls : List (Call L)}
    {a b : EntryId} (hab : (w.after calls).graph.Shares ids a b) : w.graph.Shares ids a b := by
  have hissued : ¬ w.Upcoming a := h.not_upcoming_of_mem (hheld a hab.1)
  exact hab.of_reaches (h.reaches_of_after hissued)

theorem loop?_after {ids : IdSet} (hheld : ∀ id ∈ ids, id ∈ w) (hloop : w.loop? ids = none)
    {calls : List (Call L)} (hkept : ∀ id ∈ ids, id ∈ w.after calls) :
    (w.after calls).loop? ids = none := by
  by_contra hsome
  have hfound : ((w.after calls).loop? ids).isSome := Option.isSome_iff_ne_none.2 hsome
  obtain ⟨hstrict, a, b, hab⟩ := ((h.after calls).isSome_loop? hkept).1 hfound
  rw [settings_after] at hstrict
  have hbefore : (w.loop? ids).isSome := (h.isSome_loop? hheld).2 ⟨hstrict, a, b, h.shares_of_after hheld hab⟩
  simp [hloop] at hbefore

theorem hasLoop_after {ids : List EntryId} (hfree : w.hasLoop ids = .ok false) {calls : List (Call L)}
    (hkept : ∀ id ∈ ids, id ∈ w.after calls) : (w.after calls).hasLoop ids = .ok false := by
  obtain ⟨hheld, hloop⟩ := hasLoop_eq_false_iff.1 hfree
  have hset {v : Workspace L} (hv : ∀ id ∈ ids, id ∈ v) : ∀ id ∈ Std.ExtTreeSet.ofList ids compare, id ∈ v := by
    simpa [Std.ExtTreeSet.mem_ofList] using hv
  exact hasLoop_eq_false_iff.2 ⟨hkept, h.loop?_after (hset hheld) hloop (hset hkept)⟩

end Coherent

/-- A compound whose references are found free of loops is still found so after any calls that leave
its references held, and is registered then. -/
theorem register_after {w : Workspace L} (hw : w.Reachable) {c : Compound L}
    (hfree : w.hasLoop c.references = .ok false) (calls : List (Call L))
    (hkept : ∀ id ∈ c.references, id ∈ w.after calls) :
    (w.after calls).hasLoop c.references = .ok false ∧
      (w.after calls).register c =
        (.ok (.ofPayload (w.after calls).nextId (.compound c)), ((w.after calls).insert (.compound c)).2) := by
  have hafter : (w.after calls).hasLoop c.references = .ok false := hw.coherent.hasLoop_after hfree hkept
  exact ⟨hafter, register_of_hasLoop hafter⟩

theorem register_after_strict :
    let w : Workspace Nat := (create { policy := .strict } 0).after
      [.put 7, .join .not [.reference ⟨"_0"⟩], .put 8]
    let c : Compound Nat := ⟨.and, [.reference ⟨"_1"⟩, .leaf 9, .reference ⟨"_2"⟩]⟩
    let calls : List (Call Nat) :=
      [.remove ⟨"_0"⟩, .join .or [.reference ⟨"_1"⟩, .reference ⟨"_2"⟩], .put 10]
    w.Reachable ∧ w.hasLoop c.references = .ok false ∧ (∀ id ∈ c.references, id ∈ w.after calls) ∧
      (w.after calls).hasLoop c.references = .ok false ∧
      ((w.after calls).register c).1 = .ok (.ofPayload ⟨"_5"⟩ (.compound c)) := by
  intro w c calls
  have hw : w.Reachable := ⟨_, _, _, rfl⟩
  have hfree : w.hasLoop c.references = .ok false := by decide +kernel
  have hkept : ∀ id ∈ c.references, id ∈ w.after calls := by decide +kernel
  have hnext : (w.after calls).nextId = ⟨"_5"⟩ := by decide +kernel
  obtain ⟨hafter, hregister⟩ := register_after hw hfree calls hkept
  exact ⟨hw, hfree, hkept, hafter, by rw [hregister, hnext]⟩

end FilterWorkspace.Workspace
