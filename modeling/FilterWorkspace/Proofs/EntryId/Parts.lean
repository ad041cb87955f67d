import FilterWorkspace.EntryId.Basic
import Std.Data.String.ToInt

/-! The parts of an identifier. A number is written without underscores, so the last underscore of a text
separates the number from whatever stands before it, however many underscores that has. -/

namespace FilterWorkspace

namespace Text

section

variable {α : Type} {a : α} {before before' after after' : List α}

theorem eq_nil_of_cons_eq_append (h : a ∉ after) (heq : a :: after = before ++ a :: after') :
    before = [] := by
  cases before with
  | nil => rfl
  | cons b before =>
    have hafter : after = before ++ a :: after' := (List.cons.inj heq).2
    have hmem : a ∈ after := hafter ▸ List.mem_append_right before List.mem_cons_self
    exact absurd hmem h

theorem append_cons_inj_of_last (h : a ∉ after) (h' : a ∉ after') :
    before ++ a :: after = before' ++ a :: after' ↔ before = before' ∧ after = after' := by
  constructor
  · intro heq
    rcases List.append_eq_append_iff.1 heq with ⟨more, rfl, hmore⟩ | ⟨more, rfl, hmore⟩
    · obtain rfl := eq_nil_of_cons_eq_append h hmore
      exact ⟨(List.append_nil before).symm, (List.cons.inj hmore).2⟩
    · obtain rfl := eq_nil_of_cons_eq_append h' hmore
      exact ⟨List.append_nil before', (List.cons.inj hmore).2.symm⟩
  · rintro ⟨rfl, rfl⟩
    rfl

end

theorem append_underscore_inj {before before' after after' : String} (h : '_' ∉ after.toList)
    (h' : '_' ∉ after'.toList) :
    before ++ "_" ++ after = before' ++ "_" ++ after' ↔ before = before' ∧ after = after' := by
  have hlist (s t : String) : (s ++ "_" ++ t).toList = s.toList ++ '_' :: t.toList := by simp
  rw [← String.toList_inj, hlist, hlist, append_cons_inj_of_last h h', String.toList_inj, String.toList_inj]

theorem underscore_notMem_repr (n : Nat) : '_' ∉ n.repr.toList := by
  rw [Nat.toList_repr]
  exact Nat.underscore_not_in_toDigits

theorem underscore_notMem_intRepr (i : Int) : '_' ∉ i.repr.toList := by
  cases i with
  | ofNat n => exact underscore_notMem_repr n
  | negSucc n => simp [Int.repr]

theorem intRepr_ne_empty (i : Int) : i.repr ≠ "" := by
  cases i with
  | ofNat n => exact Nat.repr_ne_empty
  | negSucc n => simp [Int.repr]

end Text

theorem EntryId.numbered_eq_numbered {space space' : String} {m n : Nat} :
    numbered space m = numbered space' n ↔ space = space' ∧ m = n := by
  rw [numbered, numbered, EntryId.mk.injEq, Text.append_underscore_inj (Text.underscore_notMem_repr m)
    (Text.underscore_notMem_repr n), Nat.repr_inj]

end FilterWorkspace
