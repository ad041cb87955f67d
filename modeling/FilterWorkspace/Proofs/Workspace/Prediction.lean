import FilterWorkspace.Proofs.Workspace.Registration

/-! The question whether identifiers may be combined is answered as the combination of them comes
out: with the same identifier where one is not held, and otherwise according to the loop that both
look for. Since the operands are held before a loop is looked for, the only loops there are come from
the strict policy. -/

namespace FilterWorkspace

variable {L : Type}

theorem ReferenceGraph.isSome_sharing? {g : ReferenceGraph} {ids : IdSet} :
    (g.sharing? ids).isSome ↔ ∃ a b, g.Shares ids a b := by
  constructor
  · intro h
    obtain ⟨⟨a, b⟩, h⟩ := Option.isSome_iff_exists.1 h
    exact ⟨a, (isFirst_of_sharing? h).1.1⟩
  · rintro ⟨a, b, hab⟩
    by_contra hnone
    exact not_shares_of_sharing? (Option.not_isSome_iff_eq_none.1 hnone) a b hab

namespace Workspace

variable {w : Workspace L}

theorem join_of_held {op : Combinator} {operands : List (Child L)}
    (h : w.missing? (operands.filterMap Child.reference?) = none) :
    (w.join op operands).1 =
      match w.loop? (.ofList (operands.filterMap Child.reference?)) with
      | some ids => .error (.cycle ids)
      | none => .ok (w.insert (.compound ⟨op, operands⟩)).1 := by
  have hset : (Compound.mk op operands).referenceSet =
      .ofList (operands.filterMap Child.reference?) := rfl
  -- The second look for what is not held, which passes over the next identifier, finds nothing more.
  have hmissing :
      w.missing? ((Compound.mk op operands).referenceSet.toList.filter (· ≠ w.nextId)) = none := by
    refine missing?_eq_none.2 fun id hid => missing?_eq_none.1 h id ?_
    simpa [Compound.mem_referenceSet, Compound.references] using (List.mem_filter.1 hid).1
  have hcombine : w.combine op operands = .ok ⟨op, operands⟩ := by
    simp only [combine, Compound.references, h]
  simp only [join, hcombine, register, hmissing, ← hset]
  cases w.loop? (Compound.mk op operands).referenceSet <;> rfl

theorem join_of_missing? {op : Combinator} {operands : List (Child L)} {id : EntryId}
    (h : w.missing? (operands.filterMap Child.reference?) = some id) :
    (w.join op operands).1 = .error (.unknownReference id) := by
  simp only [join, combine, Compound.references, h]

/-- The reply `verdict` to a question foretells the reply `outcome` to a call: which identifier is
found missing, that a loop is found, or that an entry is added. -/
structure Foretells (verdict outcome : Reply L) : Prop where
  missing : ∀ id, verdict = .failure (.unknownReference id) ↔ outcome = .failure (.unknownReference id)
  refused : verdict = .flag true ↔ ∃ ids, outcome = .failure (.cycle ids)
  accepted : verdict = .flag false ↔ ∃ e, outcome = .entry e

theorem foretells_join (w : Workspace L) (op : Combinator) (operands : List (Child L)) :
    Foretells (w.perform (.hasLoop (operands.filterMap Child.reference?))).1
      (w.perform (.join op operands)).1 := by
  have hverdict (ids : List EntryId) :
      (w.perform (.hasLoop ids)).1 = .ofExcept .flag (w.hasLoop ids) := rfl
  have houtcome : (w.perform (.join op operands)).1 = .ofExcept .entry (w.join op operands).1 := rfl
  rw [hverdict, houtcome, hasLoop]
  cases hmissing : w.missing? (operands.filterMap Child.reference?) with
  | some id =>
    rw [join_of_missing? hmissing]
    constructor <;> simp [Reply.ofExcept]
  | none =>
    rw [join_of_held hmissing]
    cases w.loop? (.ofList (operands.filterMap Child.reference?)) <;>
      constructor <;> simp [Reply.ofExcept]

theorem hasLoop_eq_error_iff {ids : List EntryId} {id : EntryId} :
    w.hasLoop ids = .error (.unknownReference id) ↔
      ∃ before after, ids = before ++ id :: after ∧ (∀ a ∈ before, a ∈ w) ∧ id ∉ w := by
  have hfirst : w.hasLoop ids = .error (.unknownReference id) ↔ w.missing? ids = some id := by
    unfold hasLoop
    split <;> simp [*]
  rw [hfirst, missing?, List.find?_eq_some_iff_append]
  simp [and_comm, and_left_comm]

namespace Coherent

variable (hw : w.Coherent)
include hw

theorem isSome_loop? {ids : IdSet} (hheld : ∀ id ∈ ids, id ∈ w) :
    (w.loop? ids).isSome ↔ w.settings.policy = .strict ∧ ∃ a b, w.graph.Shares ids a b := by
  have hnext : w.nextId ∉ ids := fun hmem => hw.nextId_notMem (hheld _ hmem)
  rw [hw.loop?_of_notMem hnext]
  split
  next hpolicy => simp [hpolicy, ReferenceGraph.isSome_sharing?]
  next hpolicy => simp [hpolicy]

theorem hasLoop_eq_true_iff {ids : List EntryId} :
    w.hasLoop ids = .ok true ↔ (∀ id ∈ ids, id ∈ w) ∧ w.settings.policy = .strict ∧
      ∃ a ∈ ids, ∃ b ∈ ids, b ≠ a ∧ ∃ below, w.allReferences a = .ok below ∧ b ∈ below := by
  unfold hasLoop
  cases hmissing : w.missing? ids with
  | some id =>
    have hid : ¬ ∀ id ∈ ids, id ∈ w := fun hheld => by simp [missing?_eq_none.2 hheld] at hmissing
    simp [hid]
  | none =>
    have hheld := missing?_eq_none.1 hmissing
    have hset : ∀ id ∈ Std.ExtTreeSet.ofList ids compare, id ∈ w := by
      simpa [Std.ExtTreeSet.mem_ofList] using hheld
    simp only [Except.ok.injEq, hw.isSome_loop? hset]
    refine (and_iff_right hheld).symm.trans (and_congr_right fun _ => and_congr_right fun _ => ?_)
    constructor
    · rintro ⟨a, b, ha, hb, hne, hbelow⟩
      rw [Std.ExtTreeSet.mem_ofList, List.contains_iff_mem] at ha hb
      exact ⟨a, ha, b, hb, hne, _, allReferences_of_mem (hheld a ha), hbelow⟩
    · rintro ⟨a, ha, b, hb, hne, below, hbelow, hmem⟩
      rw [allReferences_of_mem (hheld a ha)] at hbelow
      obtain rfl := Except.ok.inj hbelow
      refine ⟨a, b, ?_, ?_, hne, hmem⟩ <;> rwa [Std.ExtTreeSet.mem_ofList, List.contains_iff_mem]

end Coherent

/-- Asking first and combining afterwards agree, for operands given to the workspace and for those
given to an entry, and a loop is found just where the strict policy meets one of the identifiers
below another. -/
theorem hasLoop_foretells {w : Workspace L} (hw : w.Reachable) :
    (∀ op operands, Foretells (w.perform (.hasLoop (operands.filterMap Child.reference?))).1
      (w.perform (.join op operands)).1) ∧
    (∀ (e : Entry L) op others,
      Foretells (w.perform (e.hasLoopCall (others.filterMap Child.reference?))).1
        (w.perform (e.joinCall op others)).1) ∧
    ∀ ids,
      (∀ id, w.hasLoop ids = .error (.unknownReference id) ↔
        ∃ before after, ids = before ++ id :: after ∧ (∀ a ∈ before, a ∈ w) ∧ id ∉ w) ∧
      (w.hasLoop ids = .ok true ↔ (∀ id ∈ ids, id ∈ w) ∧ w.settings.policy = .strict ∧
        ∃ a ∈ ids, ∃ b ∈ ids, b ≠ a ∧ ∃ below, w.allReferences a = .ok below ∧ b ∈ below) := by
  refine ⟨w.foretells_join, fun e op others => ?_, fun ids => ⟨fun id => hasLoop_eq_error_iff, ?_⟩⟩
  · exact w.foretells_join op (e.operand :: others)
  · exact hw.coherent.hasLoop_eq_true_iff

theorem hasLoop_foretells_strict :
    let w : Workspace Nat :=
      (create { policy := .strict } 0).after [.put 7, .join .not [.reference ⟨"_0"⟩]]
    w.Reachable ∧ w.hasLoop [⟨"_1"⟩, ⟨"_0"⟩] = .ok true ∧
      ∃ ids, (w.perform (.join .or [.reference ⟨"_1"⟩, .leaf 8, .reference ⟨"_0"⟩])).1 =
        .failure (.cycle ids) := by
  intro w
  have hw : w.Reachable := ⟨_, _, _, rfl⟩
  have htrue : w.hasLoop [⟨"_1"⟩, ⟨"_0"⟩] = .ok true := by decide +kernel
  refine ⟨hw, htrue, ?_⟩
  have hforetells := (hasLoop_foretells hw).1 .or [.reference ⟨"_1"⟩, .leaf 8, .reference ⟨"_0"⟩]
  exact hforetells.refused.1 (congrArg (Reply.ofExcept Reply.flag) htrue)

end Workspace
end FilterWorkspace
