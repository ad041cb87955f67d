import FilterWorkspace.Proofs.Json.Numeral
import FilterWorkspace.Proofs.Double.Nearest

/-! Numbers in print. Every number is printed as a numeral. An integer of 64 bits and a double with few digits
are read from theirs as what they were; a longer double may come back as a neighbour. -/

namespace FilterWorkspace.Json

variable {n : Nat} {cs : List Char}

theorem le_ofDigitChars (n : Nat) (cs : List Char) : n ≤ Nat.ofDigitChars 10 cs n := by
  rw [Nat.ofDigitChars_eq_ofDigitChars_zero]
  exact Nat.le_trans (Nat.le_mul_of_pos_left n (Nat.pow_pos (by decide))) (Nat.le_add_right ..)

theorem Token.appendDigits_eq (h : Nat.ofDigitChars 10 cs n < 2 ^ 64) :
    appendDigits n cs = (Nat.ofDigitChars 10 cs n, 0) := by
  induction cs generalizing n with
  | nil => rfl
  | cons c cs ih =>
    rw [Nat.ofDigitChars_cons] at h ⊢
    have hkept : 10 * n + (c.toNat - '0'.toNat) < 0x10000000000000000 :=
      Nat.lt_of_le_of_lt (le_ofDigitChars ..) h
    rw [appendDigits, if_pos hkept, ih h]

namespace Numeral

def decimal (m : Numeral) : Decimal :=
  ⟨Nat.ofDigitChars 10 (m.whole ++ m.places) 0, m.exponent.getD 0 - m.places.length⟩

def ofInt (e : Int) : Numeral where
  negative := e < 0
  whole := Nat.toDigits 10 e.natAbs
  places := []
  exponent := none
  whole_ne_nil := Nat.toDigits_ne_nil
  whole_ne_zero_cons := toDigits_ne_zero_cons _
  isDigit_whole := isDigit_toDigits _
  isDigit_places := by simp

theorem text_ofInt (e : Int) : (ofInt e).text = (Int.repr e).toList := by
  rw [toList_repr]
  simp [text, ofInt, signText, placesText, exponentText]

theorem token_ofInt {e : Int} (h : Number.isInteger e) : (ofInt e).token = .number (.integer e) := by
  have hbounds : -0x8000000000000000 ≤ e ∧ e < 0x10000000000000000 := by
    simpa [Number.isInteger] using h
  have hvalue : Nat.ofDigitChars 10 (Nat.toDigits 10 e.natAbs) 0 = e.natAbs := Nat.ofDigitChars_ten_toDigits
  have hread : Token.appendDigits 0 (Nat.toDigits 10 e.natAbs) = (e.natAbs, 0) := by
    have hsmall : Nat.ofDigitChars 10 (Nat.toDigits 10 e.natAbs) 0 < 2 ^ 64 := by
      rw [hvalue]
      omega
    rw [Token.appendDigits_eq hsmall, hvalue]
  have hsign : (if e < 0 then -(e.natAbs : Int) else e.natAbs) = e := by
    split
    all_goals omega
  have hzero : ¬ (e < 0 ∧ e.natAbs = 0) := by omega
  simp only [token, ofInt, fraction, Token.ofParts, hread, hsign, decide_eq_true_eq]
  exact if_pos ⟨rfl, rfl, trivial, h, hzero⟩

theorem token_eq_ofParts? {m : Numeral} (hform : m.places ≠ [] ∨ m.exponent.isSome)
    (hsmall : m.decimal.digits < 2 ^ 64) :
    m.token = (Double.ofParts? m.decimal).elim .valueless fun x => .number (.float m.negative x) := by
  simp only [decimal] at hsmall
  have hwhole : Nat.ofDigitChars 10 m.whole 0 < 2 ^ 64 := by
    rw [Nat.ofDigitChars_append] at hsmall
    exact Nat.lt_of_le_of_lt (le_ofDigitChars ..) hsmall
  have hplaces : (fraction m.places).getD [] = m.places := by cases m.places <;> rfl
  have hform : ¬ ((fraction m.places).isNone ∧ m.exponent.isNone) := by
    rcases hform with hp | he
    · obtain ⟨c, cs, hcs⟩ := List.exists_cons_of_ne_nil hp
      simp [hcs, fraction]
    · rintro ⟨-, hnone⟩
      rw [Option.isNone_iff_eq_none] at hnone
      rw [hnone] at he
      cases he
  rw [Nat.ofDigitChars_append] at hsmall
  have hread := Token.appendDigits_eq hsmall
  unfold token Token.ofParts decimal
  simp only [Token.appendDigits_eq hwhole, hplaces, hread, Nat.ofDigitChars_append]
  rw [if_neg fun h => hform ⟨h.1, h.2.1⟩]
  simp

theorem isDigit_zeros (k : Nat) : ∀ c ∈ List.replicate k '0', c.isDigit := by
  intro c hc
  rw [List.eq_of_mem_replicate hc]
  decide

theorem take_toDigits_ne_zero_cons (n k : Nat) (c : Char) (cs : List Char) :
    (Nat.toDigits 10 n).take k ≠ '0' :: c :: cs := by
  intro h
  have hdigits := List.take_append_drop k (Nat.toDigits 10 n)
  rw [h, List.cons_append, List.cons_append] at hdigits
  exact toDigits_ne_zero_cons n _ _ hdigits.symm

theorem exists_positional_whole (negative : Bool) {d : Decimal} (hzero : d.digits = 0 → d.exponent ≤ 0)
    (hd : 0 ≤ d.exponent) : ∃ m : Numeral, m.text = signText negative ++ d.positional.toList ∧
      m.negative = negative ∧ m.places ≠ [] ∧ m.decimal = ⟨d.digits * 10 ^ (d.exponent + 1).toNat, -1⟩ := by
  obtain ⟨n, e⟩ := d
  obtain ⟨k, rfl⟩ : ∃ k : Nat, e = k := Int.eq_ofNat_of_zero_le hd
  have hne := Nat.toDigits_ne_nil (b := 10) (n := n)
  have hlead : ∀ c cs, Nat.toDigits 10 n ++ List.replicate k '0' ≠ '0' :: c :: cs := by
    intro c cs h
    obtain ⟨d, ds, hds⟩ := List.exists_cons_of_ne_nil hne
    rw [hds, List.cons_append] at h
    obtain ⟨rfl, hrest⟩ := List.cons.inj h
    have hn : n = 0 := eq_zero_of_toDigits hds
    have hk : k = 0 := Int.ofNat_eq_zero.1 (Int.le_antisymm (hzero hn) hd)
    rw [hn, Nat.toDigits_zero] at hds
    rw [← (List.cons.inj hds).2, hk] at hrest
    cases hrest
  refine ⟨⟨negative, Nat.toDigits 10 n ++ List.replicate k '0', ['0'], none, ?_, hlead, ?_, ?_⟩, ?_, rfl, ?_, ?_⟩
  · simp [hne]
  · simp only [List.forall_mem_append]
    exact ⟨isDigit_toDigits n, isDigit_zeros k⟩
  · exact isDigit_zeros 1
  · have hlength := List.length_pos_iff.2 hne
    have hpad : 1 - ((Nat.toDigits 10 n).length + k) = 0 := by omega
    have hall : (Nat.toDigits 10 n ++ List.replicate k '0').take ((Nat.toDigits 10 n).length + k) =
        Nat.toDigits 10 n ++ List.replicate k '0' := List.take_of_length_le (by simp)
    simp [text, Decimal.positional, placesText, exponentText, Nat.repr_eq_ofList_toDigits, hpad, hall]
  · simp
  · have hpow : ((k : Int) + 1).toNat = k + 1 := rfl
    simp only [decimal, List.append_assoc, Nat.ofDigitChars_append, Nat.ofDigitChars_ten_toDigits,
      Nat.ofDigitChars_replicate_zero, hpow, Nat.pow_succ]
    simp [Nat.ofDigitChars, Nat.mul_comm, Nat.mul_left_comm]

theorem exists_positional_places (negative : Bool) {d : Decimal} (hd : d.exponent < 0) :
    ∃ m : Numeral, m.text = signText negative ++ d.positional.toList ∧
      m.negative = negative ∧ m.places ≠ [] ∧ m.decimal = d := by
  obtain ⟨n, e⟩ := d
  obtain ⟨k, rfl⟩ : ∃ k : Nat, e = -(k + 1 : Nat) := ⟨(-e - 1).toNat, by simp at hd ⊢; omega⟩
  have hplaces : (-(-((k + 1 : Nat) : Int))).toNat = k + 1 := by omega
  have hzeros : (-((k + 1 : Nat) : Int)).toNat = 0 := by omega
  obtain ⟨pad, hpad⟩ : ∃ pad, pad = k + 1 + 1 - (Nat.toDigits 10 n).length := ⟨_, rfl⟩
  obtain ⟨ds, hds⟩ : ∃ ds, ds = List.replicate pad '0' ++ Nat.toDigits 10 n := ⟨_, rfl⟩
  have hlength : ds.length = pad + (Nat.toDigits 10 n).length := by simp [hds]
  have hdigits : ∀ c ∈ ds, c.isDigit := by
    rw [hds, List.forall_mem_append]
    exact ⟨isDigit_zeros pad, isDigit_toDigits n⟩
  -- Zeros are put in front only where they leave one digit before the point.
  have hlead : ∀ c cs, ds.take (ds.length - (k + 1)) ≠ '0' :: c :: cs := by
    intro c cs
    by_cases hp : pad = 0
    · rw [hds, hp]
      exact take_toDigits_ne_zero_cons n _ c cs
    · intro h
      have hone : (ds.take (ds.length - (k + 1))).length = 1 := by
        rw [List.length_take]
        omega
      rw [h] at hone
      simp at hone
  have hvalue : Nat.ofDigitChars 10 ds 0 = n := by
    rw [hds, Nat.ofDigitChars_append, Nat.ofDigitChars_replicate_zero, Nat.mul_zero,
      Nat.ofDigitChars_ten_toDigits]
  have hrest : (ds.drop (ds.length - (k + 1))).length = k + 1 := by
    rw [List.length_drop]
    omega
  obtain ⟨c, cs, hcs⟩ := List.exists_cons_of_length_eq_add_one hrest
  refine ⟨⟨negative, ds.take (ds.length - (k + 1)), ds.drop (ds.length - (k + 1)), none, ?_, hlead, ?_, ?_⟩,
    ?_, rfl, ?_, ?_⟩
  · apply List.ne_nil_of_length_pos
    rw [List.length_take]
    omega
  · exact fun c hc => hdigits c (List.mem_of_mem_take hc)
  · exact fun c hc => hdigits c (List.mem_of_mem_drop hc)
  · simp only [text, Decimal.positional, hplaces, hzeros, Nat.repr_eq_ofList_toDigits, String.toList_ofList,
      List.replicate_zero, List.append_nil, ← hpad, ← hds, exponentText]
    rw [if_neg (Nat.succ_ne_zero k), hcs]
    rfl
  · simp [hcs]
  · simp [decimal, hvalue, hrest]

theorem exists_scientific (negative : Bool) (d : Decimal) :
    ∃ m : Numeral, m.text = signText negative ++ d.scientific.toList ∧
      m.negative = negative ∧ m.exponent.isSome ∧ m.decimal = d := by
  obtain ⟨n, e⟩ := d
  obtain ⟨c, cs, hcs⟩ := List.exists_cons_of_ne_nil (Nat.toDigits_ne_nil (b := 10) (n := n))
  have hvalue : Nat.ofDigitChars 10 (c :: cs) 0 = n := by rw [← hcs, Nat.ofDigitChars_ten_toDigits]
  have hdigits : ∀ d ∈ c :: cs, d.isDigit := hcs ▸ isDigit_toDigits n
  refine ⟨⟨negative, [c], cs, some (Decimal.magnitude ⟨n, e⟩ - 1), ?_, ?_, ?_, ?_⟩, ?_, rfl, rfl, ?_⟩
  · simp
  · simp
  · simp [hdigits c List.mem_cons_self]
  · exact fun d hd => hdigits d (List.mem_cons_of_mem c hd)
  · have hplaces : (if cs = [] then [] else '.' :: cs) = placesText cs := by cases cs <;> rfl
    simp [text, Decimal.scientific, Nat.repr_eq_ofList_toDigits, hcs, hplaces, exponentText]
  · have hlength : (Nat.toDigits 10 n).length = cs.length + 1 := by simp [hcs]
    simp only [decimal, Decimal.magnitude, List.singleton_append, hvalue, Nat.repr_eq_ofList_toDigits,
      String.length_ofList, hlength, Option.getD_some]
    congr 1
    omega

end Numeral

namespace Number

theorem exists_numeral (negative : Bool) (x : Double) : ∃ m : Numeral,
    m.text = (float negative x).render.toList ∧ m.negative = negative ∧
    (m.places ≠ [] ∨ m.exponent.isSome) ∧
    (m.decimal = x.shortest .toEven ∨
      m.decimal = ⟨(x.shortest .toEven).digits * 10 ^ ((x.shortest .toEven).exponent + 1).toNat, -1⟩ ∧
        0 ≤ (x.shortest .toEven).exponent) := by
  have hsign : (if negative then "-" else "").toList = Numeral.signText negative := by cases negative <;> rfl
  have hzero : (x.shortest .toEven).digits = 0 → (x.shortest .toEven).exponent ≤ 0 := by
    intro h
    rw [Double.eq_zero_of_digits_shortest h]
    exact Int.le_refl 0
  simp only [render, String.toList_append, hsign]
  split
  · by_cases he : 0 ≤ (x.shortest .toEven).exponent
    · obtain ⟨m, htext, hnegative, hplaces, hdecimal⟩ := Numeral.exists_positional_whole negative hzero he
      exact ⟨m, htext, hnegative, .inl hplaces, .inr ⟨hdecimal, he⟩⟩
    · obtain ⟨m, htext, hnegative, hplaces, hdecimal⟩ :=
        Numeral.exists_positional_places negative (Int.not_le.1 he)
      exact ⟨m, htext, hnegative, .inl hplaces, .inl hdecimal⟩
  · obtain ⟨m, htext, hnegative, hexponent, hdecimal⟩ := Numeral.exists_scientific negative (x.shortest .toEven)
    exact ⟨m, htext, hnegative, .inr hexponent, .inl hdecimal⟩

theorem exists_text (n : Number) : ∃ m : Numeral, m.text = n.render.toList := by
  cases n with
  | integer e => exact ⟨.ofInt e, Numeral.text_ofInt e⟩
  | float negative x =>
    obtain ⟨m, htext, -⟩ := exists_numeral negative x
    exact ⟨m, htext⟩

def token (n : Number) : Token := (Token.ofChars n.render.toList).headD .fault

theorem token_eq {n : Number} {m : Numeral} (htext : m.text = n.render.toList) : n.token = m.token := by
  have hread := Token.ofChars_text m (s := []) (by simp [Token.Stops])
  rw [List.append_nil, htext] at hread
  rw [token, hread, List.headD_cons]

theorem ofChars_render (n : Number) {s : List Char} (hs : Token.Stops s) :
    Token.ofChars (n.render.toList ++ s) = n.token :: Token.ofChars s := by
  obtain ⟨m, htext⟩ := n.exists_text
  rw [token_eq htext, ← htext, Token.ofChars_text m hs]

theorem token_form (n : Number) : (∃ k, n.token = .number k) ∨ n.token = .valueless := by
  obtain ⟨m, htext⟩ := n.exists_text
  have hform (p : Prop) [Decidable p] (i : Number) (x : Option Double) (f : Double → Number) :
      (∃ k, (if p then .number i else x.elim .valueless fun x => .number (f x)) = Token.number k) ∨
        (if p then .number i else x.elim .valueless fun x => .number (f x)) = Token.valueless := by
    split
    · exact .inl ⟨_, rfl⟩
    · cases x with
      | none => exact .inr rfl
      | some x => exact .inl ⟨_, rfl⟩
  rw [token_eq htext]
  exact hform ..

/-- An integer of 64 bits, or a double with at most 22 decimal places whose digits, with the zero that is printed
after the point of a whole number, stay below `2 ^ 53` when the point is left out. -/
def IsShort : Number → Prop
  | integer e => isInteger e
  | float _ x =>
    (x.shortest .toEven).digits * 10 ^ ((x.shortest .toEven).exponent + 1).toNat < 2 ^ 53 ∧
      -22 ≤ (x.shortest .toEven).exponent

instance : (n : Number) → Decidable n.IsShort
  | integer e => inferInstanceAs (Decidable (isInteger e = true))
  | float _ _ => inferInstanceAs (Decidable (_ ∧ _))

theorem exponent_le_of_isShort {negative : Bool} {x : Double} (h : (float negative x).IsShort) :
    (x.shortest .toEven).exponent ≤ 22 := by
  by_cases hzero : (x.shortest .toEven).digits = 0
  · rw [Double.eq_zero_of_digits_shortest hzero]
    decide
  · refine Int.not_lt.1 fun hlt => Nat.not_le.2 h.1 ?_
    have hfew : 16 ≤ ((x.shortest .toEven).exponent + 1).toNat := by omega
    calc 2 ^ 53 ≤ 10 ^ 16 := by decide
      _ ≤ 10 ^ ((x.shortest .toEven).exponent + 1).toNat := Nat.pow_le_pow_right (by decide) hfew
      _ ≤ (x.shortest .toEven).digits * 10 ^ ((x.shortest .toEven).exponent + 1).toNat :=
        Nat.le_mul_of_pos_left _ (Nat.pos_of_ne_zero hzero)

theorem token_of_isShort {n : Number} (h : n.IsShort) : n.token = .number n := by
  cases n with
  | integer e => rw [token_eq (Numeral.text_ofInt e), Numeral.token_ofInt h]
  | float negative x =>
    obtain ⟨m, htext, rfl, hform, hdecimal⟩ := exists_numeral negative x
    have hshortest := Double.ofDecimal?_shortest .toEven x
    have hhigh := exponent_le_of_isShort h
    obtain ⟨hfew, hlow⟩ := h
    have hsmall : (x.shortest .toEven).digits < 2 ^ 53 :=
      Nat.lt_of_le_of_lt (Nat.le_mul_of_pos_right _ (Nat.pow_pos (by decide))) hfew
    have hread : m.decimal.digits < 2 ^ 53 ∧ Double.ofParts? m.decimal = some x := by
      rcases hdecimal with hdecimal | ⟨hdecimal, he⟩
      · rw [hdecimal, Double.ofParts?_eq_ofDecimal? hsmall hlow hhigh]
        exact ⟨hsmall, hshortest⟩
      · have hplace : (-22 : Int) ≤ -1 ∧ (-1 : Int) ≤ 22 := by decide
        rw [hdecimal, Double.ofParts?_eq_ofDecimal? hfew hplace.1 hplace.2, Double.ofDecimal?_mul_pow]
        refine ⟨hfew, ?_⟩
        have hexponent : -1 + (((x.shortest .toEven).exponent + 1).toNat : Int) = (x.shortest .toEven).exponent := by
          omega
        rw [hexponent]
        exact hshortest
    rw [token_eq htext, Numeral.token_eq_ofParts? hform (Nat.lt_trans hread.1 (by decide)), hread.2]
    rfl

end Number
end FilterWorkspace.Json
