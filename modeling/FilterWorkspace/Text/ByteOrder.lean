/-! Text compared by the bytes of its UTF-8 form. The comparison is a linear order, and two texts
compare equal only when they are the same text. -/

namespace FilterWorkspace.Text

def bytes (s : String) : List UInt8 := s.toByteArray.data.toList

theorem bytes_append (s t : String) : bytes (s ++ t) = bytes s ++ bytes t := by simp [bytes]

theorem bytes_injective {s t : String} (h : bytes s = bytes t) : s = t :=
  String.toByteArray_inj.1 (ByteArray.ext (Array.toList_inj.1 h))

def compareFrom (s t : String) (i : Nat) : Ordering :=
  if hs : i < s.utf8ByteSize then
    if ht : i < t.utf8ByteSize then
      (compare (s.getUTF8Byte ⟨i⟩ hs) (t.getUTF8Byte ⟨i⟩ ht)).then (compareFrom s t (i + 1))
    else .gt
  else if i < t.utf8ByteSize then .lt else .eq
termination_by s.utf8ByteSize - i

theorem compareFrom_eq (s t : String) (i : Nat) :
    compareFrom s t i = compare ((bytes s).drop i) ((bytes t).drop i) := by
  have nil {s : String} {i : Nat} (h : ¬ i < s.utf8ByteSize) : (bytes s).drop i = [] :=
    List.drop_eq_nil_of_le (Nat.le_of_not_lt h)
  have cons {s : String} {i : Nat} (h : i < s.utf8ByteSize) :
      (bytes s).drop i = s.getUTF8Byte ⟨i⟩ h :: (bytes s).drop (i + 1) :=
    List.drop_eq_getElem_cons h
  fun_induction compareFrom s t i with
  | case1 i hs ht ih => rw [cons hs, cons ht, ih, List.compare_cons_cons]
  | case2 i hs ht => rw [cons hs, nil ht, List.compare_cons_nil]
  | case3 i hs ht => rw [nil hs, cons ht, List.compare_nil_cons]
  | case4 i hs ht => rw [nil hs, nil ht, List.compare_nil_nil]

def byteOrder (s t : String) : Ordering := compareFrom s t 0

theorem byteOrder_eq (s t : String) : byteOrder s t = compare (bytes s) (bytes t) :=
  compareFrom_eq s t 0

theorem compare_append_left (bs cs ds : List UInt8) : compare (bs ++ cs) (bs ++ ds) = compare cs ds := by
  induction bs with
  | nil => rfl
  | cons b bs ih =>
    have hself : compare b b = .eq := Std.ReflCmp.compare_self
    rw [List.cons_append, List.cons_append, List.compare_cons_cons, hself, Ordering.eq_then, ih]

theorem byteOrder_append_left (p s t : String) : byteOrder (p ++ s) (p ++ t) = byteOrder s t := by
  rw [byteOrder_eq, byteOrder_eq, bytes_append, bytes_append, compare_append_left]

instance : Std.TransCmp byteOrder where
  eq_swap {s t} := by
    rw [byteOrder_eq, byteOrder_eq]
    exact Std.OrientedCmp.eq_swap
  isLE_trans {s t u} := by
    simp only [byteOrder_eq]
    exact Std.TransCmp.isLE_trans

instance : Std.LawfulEqCmp byteOrder where
  eq_of_compare {s t} h := by
    rw [byteOrder_eq] at h
    exact bytes_injective (Std.LawfulEqCmp.eq_of_compare h)

end FilterWorkspace.Text
