import FilterWorkspace.Text.ByteOrder
import Std.Data.ExtTreeMap
import Std.Data.ExtTreeSet
import Std.Data.String.ToNat

/-! Identifiers of entries, and finite sets and tables of them. Sets and tables list their members
in the byte order of the identifiers, and are equal as soon as they have the same members. -/

namespace FilterWorkspace

structure EntryId where
  text : String
deriving DecidableEq, Repr

namespace EntryId

instance : Ord EntryId := ⟨fun a b => Text.byteOrder a.text b.text⟩

theorem compare_eq (a b : EntryId) : compare a b = Text.byteOrder a.text b.text := rfl

instance : Std.TransOrd EntryId where
  eq_swap {a b} := by
    rw [compare_eq, compare_eq]
    exact Std.OrientedCmp.eq_swap
  isLE_trans {a b c} := by
    simp only [compare_eq]
    exact Std.TransCmp.isLE_trans

instance : Std.LawfulEqOrd EntryId where
  eq_of_compare {a b} h := by
    rw [compare_eq] at h
    cases a
    cases b
    exact congrArg EntryId.mk (Std.LawfulEqCmp.eq_of_compare h)

def numbered (space : String) (n : Nat) : EntryId := ⟨space ++ "_" ++ Nat.repr n⟩

theorem numbered_inj {space : String} {m n : Nat} : numbered space m = numbered space n ↔ m = n := by
  rw [numbered, numbered, EntryId.mk.injEq, String.append_right_inj, Nat.repr_inj]

end EntryId

abbrev IdSet := Std.ExtTreeSet EntryId

abbrev IdMap := Std.ExtTreeMap EntryId

end FilterWorkspace
