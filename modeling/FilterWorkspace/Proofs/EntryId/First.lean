import FilterWorkspace.EntryId.Basic

/-! The first identifier, in byte order, of those with a property. A search through a list in byte
order finds it. -/

namespace FilterWorkspace.EntryId

def IsFirst (P : EntryId → Prop) (a : EntryId) : Prop := P a ∧ ∀ b, P b → b ≠ a → compare a b = .lt

theorem IsFirst.congr {P Q : EntryId → Prop} (h : ∀ a, P a ↔ Q a) {a : EntryId} (ha : IsFirst P a) :
    IsFirst Q a :=
  ⟨(h a).1 ha.1, fun b hb => ha.2 b ((h b).2 hb)⟩

theorem isFirst_of_split {before after : List EntryId} {a : EntryId} {P : EntryId → Prop}
    (hsorted : (before ++ a :: after).Pairwise fun a b => compare a b = .lt) (ha : P a)
    (hbefore : ∀ b ∈ before, ¬ P b) : IsFirst (fun b => b ∈ before ++ a :: after ∧ P b) a := by
  refine ⟨⟨by simp, ha⟩, fun b ⟨hmem, hb⟩ hne => ?_⟩
  have hafter := (List.pairwise_cons.1 (List.pairwise_append.1 hsorted).2.1).1
  rcases List.mem_append.1 hmem with hmem | hmem
  · exact absurd hb (hbefore b hmem)
  · rcases List.mem_cons.1 hmem with rfl | hmem
    · exact absurd rfl hne
    · exact hafter b hmem

theorem isFirst_of_find? {ids : IdSet} {p : EntryId → Bool} {a : EntryId}
    (h : ids.toList.find? p = some a) : IsFirst (fun b => b ∈ ids ∧ p b) a := by
  obtain ⟨ha, before, after, hsplit, hbefore⟩ := List.find?_eq_some_iff_append.1 h
  have hsorted : ids.toList.Pairwise fun a b => compare a b = .lt := Std.ExtTreeSet.ordered_toList
  rw [hsplit] at hsorted
  refine (isFirst_of_split hsorted (P := fun b => p b) ha
    fun b hb => by simpa using hbefore b hb).congr fun b => ?_
  rw [← hsplit, Std.ExtTreeSet.mem_toList]

theorem isFirst_of_findSome? {ids : IdSet} {α : Type} {f : EntryId → Option α} {x : α}
    (h : ids.toList.findSome? f = some x) :
    ∃ a, f a = some x ∧ IsFirst (fun b => b ∈ ids ∧ (f b).isSome) a := by
  obtain ⟨before, a, after, hsplit, ha, hbefore⟩ := List.findSome?_eq_some_iff.1 h
  have hsorted : ids.toList.Pairwise fun a b => compare a b = .lt := Std.ExtTreeSet.ordered_toList
  rw [hsplit] at hsorted
  refine ⟨a, ha, ?_⟩
  refine (isFirst_of_split hsorted (P := fun b => (f b).isSome) (by simp [ha])
    fun b hb => by simp [hbefore b hb]).congr fun b => ?_
  rw [← hsplit, Std.ExtTreeSet.mem_toList]

end FilterWorkspace.EntryId
