import FilterWorkspace.Double.Shortest
import Mathlib.Algebra.Group.Nat.Defs

/-! Decimals and the doubles nearest to them. A decimal that is worth exactly a double is read as that double,
so the shortest text of a double is read as the double again. A reader that rounds digits and power apart
gets there too as long as both are doubles themselves. -/

namespace FilterWorkspace.Double

variable {x : Double} {a b c : Nat}

theorem log2_mul_two_pow (k : Nat) {m : Nat} (hm : m ≠ 0) : (m * Nat.pow 2 k).log2 = m.log2 + k := by
  induction k with
  | zero => simp
  | succ k ih =>
    have hk : m * Nat.pow 2 k ≠ 0 := Nat.mul_ne_zero hm (Nat.ne_of_gt (Nat.two_pow_pos k))
    have hsucc : m * Nat.pow 2 (k + 1) = 2 * (m * Nat.pow 2 k) := by
      rw [Nat.mul_left_comm]
      exact congrArg (m * ·) Nat.pow_succ'
    rw [hsucc, Nat.log2_two_mul hk, ih, Nat.add_assoc]

theorem roundDiv_mul (n : Nat) (hb : 0 < b) : roundDiv (n * b) b = n := by
  have := Nat.ne_of_gt hb
  simp [roundDiv, Nat.mul_div_cancel _ hb]
  omega

theorem roundDiv_mul_right (hc : 0 < c) : roundDiv (a * c) (b * c) = roundDiv a b := by
  have hdiv : a * c / (b * c) = a / b := Nat.mul_div_mul_right a b hc
  have hmod : a * c % (b * c) = a % b * c := Nat.mul_mod_mul_right c a b
  have hlt : b * c < 2 * (a % b) * c ↔ b < 2 * (a % b) := Nat.mul_lt_mul_right hc
  have heq : 2 * (a % b) * c = b * c ↔ 2 * (a % b) = b := Nat.mul_right_cancel_iff hc
  unfold roundDiv
  simp only [hdiv, hmod, ← Nat.mul_assoc, hlt, heq]

theorem ofRatio?_mul_right (a b : Nat) (hc : 0 < c) : ofRatio? (a * c) (b * c) = ofRatio? a b := by
  have hunits : a * c * one.units = a * one.units * c := Nat.mul_right_comm ..
  have hdiv : a * one.units * c / (b * c) = a * one.units / b := Nat.mul_div_mul_right _ _ hc
  have hdenominator (n : Nat) : b * c * n = b * n * c := Nat.mul_right_comm ..
  unfold ofRatio?
  simp only [hunits, hdiv, hdenominator, roundDiv_mul_right hc]

theorem exists_units_eq (x : Double) : ∃ k m,
    x.rank = k * Nat.pow 2 52 + m ∧ x.units = m * Nat.pow 2 k ∧ x.units.log2 - 52 = k := by
  by_cases h : x.rank / Nat.pow 2 52 = 0
  · have hlt : x.rank < Nat.pow 2 52 := (Nat.div_eq_zero_iff_lt (Nat.two_pow_pos _)).1 h
    have hunits : x.units = x.rank := by simp [units, h, Nat.mod_eq_of_lt hlt]
    refine ⟨0, x.rank, by simp, by simp [hunits], ?_⟩
    rw [hunits]
    rcases Nat.eq_zero_or_pos x.rank with hz | hz
    · simp [hz]
    · exact Nat.sub_eq_zero_of_le (Nat.le_of_lt ((Nat.log2_lt (Nat.ne_of_gt hz)).2 hlt))
  · obtain ⟨k, hk⟩ := Nat.exists_eq_succ_of_ne_zero h
    have hdiv := Nat.div_add_mod x.rank (Nat.pow 2 52)
    have hmod : x.rank % Nat.pow 2 52 < Nat.pow 2 52 := Nat.mod_lt _ (Nat.two_pow_pos _)
    have hunits : x.units = (Nat.pow 2 52 + x.rank % Nat.pow 2 52) * Nat.pow 2 k := by
      simp [units, hk]
    have hne : Nat.pow 2 52 + x.rank % Nat.pow 2 52 ≠ 0 :=
      Nat.ne_of_gt (Nat.add_pos_left (Nat.two_pow_pos 52) _)
    have hlog : (Nat.pow 2 52 + x.rank % Nat.pow 2 52).log2 = 52 :=
      (Nat.log2_eq_iff hne).2 ⟨Nat.le_add_right .., Nat.add_lt_add_left hmod _⟩
    refine ⟨k, Nat.pow 2 52 + x.rank % Nat.pow 2 52, ?_, hunits, ?_⟩
    · rw [hk, Nat.mul_succ] at hdiv
      rw [Nat.mul_comm k, ← Nat.add_assoc, hdiv]
    · rw [hunits, log2_mul_two_pow k hne, hlog, Nat.add_sub_cancel_left]

theorem units_pos (h : x ≠ zero) : 0 < x.units := by
  obtain ⟨k, m, hrank, hunits, hlog⟩ := x.exists_units_eq
  refine Nat.pos_of_ne_zero fun hz => h ?_
  obtain rfl : k = 0 := by simpa [hz] using hlog.symm
  obtain rfl : m = 0 := by simpa [hz] using hunits.symm
  cases x
  simpa [zero] using hrank

theorem units_lt (x : Double) : x.units < 2 ^ 2099 := by
  obtain ⟨k, m, hrank, hunits, hlog⟩ := x.exists_units_eq
  by_cases hz : x.units = 0
  · rw [hz]
    exact Nat.two_pow_pos 2099
  · have hk : k < 2047 := by
      have := x.rank_lt
      rw [hrank] at this
      simp only [Nat.pow_eq] at this
      omega
    have hlog : x.units.log2 < 2099 := by omega
    exact (Nat.log2_lt (k := 2099) hz).1 hlog

theorem units_one : one.units = 2 ^ 1074 := by decide +kernel

theorem units_one_pos : 0 < one.units := units_pos (by decide)

theorem ofRatio?_units (x : Double) : ofRatio? x.units one.units = some x := by
  obtain ⟨k, m, hrank, hunits, hlog⟩ := x.exists_units_eq
  have hround : roundDiv (x.units * one.units) (one.units * Nat.pow 2 k) = m := by
    rw [hunits, Nat.mul_assoc, Nat.mul_comm (Nat.pow 2 k)]
    exact roundDiv_mul m (Nat.mul_pos units_one_pos (Nat.two_pow_pos k))
  simp only [ofRatio?, Nat.mul_div_cancel _ units_one_pos, hlog, hround, ← hrank]
  exact dif_pos x.rank_lt

theorem ofRatio?_eq_some (hb : 0 < b) (h : x.units * b = a * one.units) : ofRatio? a b = some x := by
  calc ofRatio? a b = ofRatio? (a * one.units) (b * one.units) := (ofRatio?_mul_right a b units_one_pos).symm
    _ = ofRatio? (x.units * b) (one.units * b) := by rw [h, Nat.mul_comm b]
    _ = some x := by rw [ofRatio?_mul_right _ _ hb, ofRatio?_units]

theorem exists_units {m e : Nat} (hm : m < Nat.pow 2 53) (he : 52 ≤ e) (hlt : e ≤ 2045) :
    ∃ x : Double, x.units = m * Nat.pow 2 e := by
  rcases Nat.eq_zero_or_pos m with rfl | hpos
  · exact ⟨zero, by rw [Nat.zero_mul]; decide +kernel⟩
  · -- The digits are moved up to the top of their binade.
    have hlog : m.log2 < 53 := (Nat.log2_lt (Nat.ne_of_gt hpos)).2 hm
    obtain ⟨k, hk⟩ : ∃ k, k + m.log2 = 52 := ⟨52 - m.log2, by omega⟩
    have hbounds := (Nat.log2_eq_iff (Nat.ne_of_gt hpos)).1 rfl
    have hlow : 2 ^ 52 ≤ m * 2 ^ k := by
      rw [← hk, Nat.pow_add, Nat.mul_comm]
      exact Nat.mul_le_mul_right _ hbounds.1
    have hhigh : m * 2 ^ k < 2 ^ 53 := by
      have hpow : 2 ^ (53 : Nat) = 2 ^ (m.log2 + 1) * 2 ^ k := by
        rw [← Nat.pow_add]
        congr 1
        omega
      rw [hpow]
      exact Nat.mul_lt_mul_of_pos_right hbounds.2 (Nat.two_pow_pos k)
    refine ⟨⟨(e - k) * Nat.pow 2 52 + m * 2 ^ k, ?_⟩, ?_⟩
    · simp only [Nat.pow_eq]
      omega
    · have hdiv : ((e - k) * 2 ^ 52 + m * 2 ^ k) / 2 ^ 52 = e - k + 1 := by omega
      have hmod : ((e - k) * 2 ^ 52 + m * 2 ^ k) % 2 ^ 52 = m * 2 ^ k - 2 ^ 52 := by omega
      have hpow : 2 ^ e = 2 ^ k * 2 ^ (e - k) := by
        rw [← Nat.pow_add]
        congr 1
        omega
      simp only [units, Nat.pow_eq, hdiv, hmod, Nat.add_sub_cancel, hpow]
      rw [if_neg (Nat.succ_ne_zero _), Nat.add_sub_cancel' hlow, Nat.mul_assoc]

theorem length_repr_le {n k : Nat} (hk : 0 < k) (h : n < 10 ^ k) : (Nat.repr n).length ≤ k := by
  rw [Nat.repr_eq_ofList_toDigits, String.length_ofList]
  exact (Nat.length_toDigits_le_iff (by decide) hk).2 h

theorem lt_length_repr {n k : Nat} (hk : 0 < k) (h : 10 ^ k ≤ n) : k < (Nat.repr n).length := by
  rw [Nat.repr_eq_ofList_toDigits, String.length_ofList]
  exact Nat.lt_of_not_le fun hle => Nat.not_lt.2 h ((Nat.length_toDigits_le_iff (by decide) hk).1 hle)

theorem ofDecimal?_eq_some {d : Decimal} (hlow : -330 ≤ d.magnitude) (hhigh : d.magnitude ≤ 309)
    (h : x.units * 10 ^ (-d.exponent).toNat = d.digits * 10 ^ d.exponent.toNat * one.units) :
    ofDecimal? d = some x := by
  unfold ofDecimal?
  by_cases hzero : d.digits = 0
  · have hunits : x.units = 0 := by
      rw [hzero, Nat.zero_mul, Nat.zero_mul] at h
      exact (Nat.mul_eq_zero.1 h).resolve_right (Nat.ne_of_gt (Nat.pow_pos (by decide)))
    have hx : x = zero := Decidable.byContradiction fun hne => Nat.ne_of_gt (units_pos hne) hunits
    rw [if_pos (.inl hzero), hx]
  · rw [if_neg (not_or.2 ⟨hzero, Int.not_lt.2 hlow⟩), if_neg (Int.not_lt.2 hhigh)]
    exact ofRatio?_eq_some (Nat.pow_pos (by decide)) h

theorem ofDecimal?_units {n : Nat} (hone : one.units = 2 ^ n) (hlow : 10 ^ (n - 331) ≤ 5 ^ n) (hn : 331 < n)
    (hhigh : 2 ^ 2099 * 5 ^ n < 10 ^ (309 + n)) (hx : x ≠ zero) :
    ofDecimal? ⟨x.units * Nat.pow 5 n, -n⟩ = some x := by
  show ofDecimal? ⟨x.units * 5 ^ n, -n⟩ = some x
  have hleast : n - 331 < (Nat.repr (x.units * 5 ^ n)).length := by
    apply lt_length_repr (Nat.sub_pos_of_lt hn)
    exact Nat.le_trans hlow (Nat.le_mul_of_pos_left _ (units_pos hx))
  have hmost : (Nat.repr (x.units * 5 ^ n)).length ≤ 309 + n := by
    apply length_repr_le (Nat.add_pos_left (by decide) n)
    have hfives : 0 < 5 ^ n := Nat.pow_pos (by decide)
    exact Nat.lt_trans (Nat.mul_lt_mul_of_pos_right x.units_lt hfives) hhigh
  apply ofDecimal?_eq_some
  · simp only [Decimal.magnitude]
    omega
  · simp only [Decimal.magnitude]
    omega
  · have hminus : (-(-n : Int)).toNat = n := by omega
    have hplus : (-n : Int).toNat = 0 := by omega
    have hpow : 10 ^ n = 5 ^ n * 2 ^ n := Nat.mul_pow 5 2 n
    simp only [hminus, hplus, hone, hpow, Nat.pow_zero, Nat.mul_one, Nat.mul_assoc]

theorem ofDecimal?_toDecimal (hx : x ≠ zero) : ofDecimal? x.toDecimal = some x := by
  unfold toDecimal
  exact ofDecimal?_units (n := 1074) units_one (by decide +kernel) (by decide) (by decide +kernel) hx

theorem length_repr_mul_ten {n : Nat} (hn : n ≠ 0) : (Nat.repr (n * 10)).length = (Nat.repr n).length + 1 := by
  have hdigits := Nat.toDigits_append_toDigits (b := 10) (n := n) (d := 0) (by decide) (Nat.pos_of_ne_zero hn)
    (by decide)
  rw [Nat.add_zero, Nat.mul_comm] at hdigits
  simp only [Nat.repr_eq_ofList_toDigits, String.length_ofList, ← hdigits, List.length_append]
  rfl

theorem ofDecimal?_mul_ten (n : Nat) (e : Int) : ofDecimal? ⟨n * 10, e⟩ = ofDecimal? ⟨n, e + 1⟩ := by
  by_cases hn : n = 0
  · simp only [ofDecimal?, hn, Nat.zero_mul, true_or, if_true]
  · have hmul : n * 10 ≠ 0 := Nat.mul_ne_zero hn (by decide)
    have hmagnitude : Decimal.magnitude ⟨n * 10, e⟩ = Decimal.magnitude ⟨n, e + 1⟩ := by
      simp only [Decimal.magnitude, length_repr_mul_ten hn]
      omega
    have hratio : ofRatio? (n * 10 * 10 ^ e.toNat) (10 ^ (-e).toNat) =
        ofRatio? (n * 10 ^ (e + 1).toNat) (10 ^ (-(e + 1)).toNat) := by
      by_cases he : 0 ≤ e
      · have hplus : (e + 1).toNat = e.toNat + 1 := by omega
        have hminus : (-(e + 1)).toNat = (-e).toNat := by omega
        rw [hplus, hminus, Nat.pow_succ', Nat.mul_assoc]
      · have hplus : (e + 1).toNat = e.toNat := by omega
        have hminus : (-e).toNat = (-(e + 1)).toNat + 1 := by omega
        rw [hplus, hminus, Nat.pow_succ, Nat.mul_right_comm, ofRatio?_mul_right _ _ (by decide)]
    unfold ofDecimal?
    simp only [hn, hmul, hmagnitude, false_or, Nat.pow_eq]
    rw [hratio]

theorem ofDecimal?_mul_pow (n j : Nat) (e : Int) : ofDecimal? ⟨n * 10 ^ j, e⟩ = ofDecimal? ⟨n, e + j⟩ := by
  induction j generalizing e with
  | zero => simp
  | succ j ih =>
    rw [Nat.pow_succ, ← Nat.mul_assoc, ofDecimal?_mul_ten, ih]
    congr 2
    omega

theorem ofDecimal?_strip (d : Decimal) : ofDecimal? d.strip = ofDecimal? d := by
  fun_induction Decimal.strip d with
  | case1 d h ih =>
    have hdigits : d.digits / 10 * 10 = d.digits := Nat.div_mul_cancel (Nat.dvd_of_mod_eq_zero h.2)
    rw [ih, ← ofDecimal?_mul_ten, hdigits]
  | case2 => rfl

/-- The shortest decimal of a double is read as that double. -/
theorem ofDecimal?_shortest (tie : Tie) (x : Double) : ofDecimal? (x.shortest tie) = some x := by
  unfold shortest
  by_cases hx : x = zero
  · rw [if_pos hx, ofDecimal?, if_pos (.inl rfl), hx]
  · rw [if_neg hx, ofDecimal?_strip]
    cases hfound : (List.range' 1 17).findSome? fun (n : Nat) =>
        (x.neighbours tie (x.magnitude - n)).find? fun d => ofDecimal? d = some x with
    | none => exact ofDecimal?_toDecimal hx
    | some d =>
      obtain ⟨n, -, hd⟩ := List.exists_of_findSome?_eq_some hfound
      have hread := List.find?_some hd
      exact of_decide_eq_true hread

theorem eq_zero_of_digits_shortest {tie : Tie} (h : (x.shortest tie).digits = 0) : x = zero := by
  have hread := ofDecimal?_shortest tie x
  rw [ofDecimal?, if_pos (.inl h)] at hread
  exact (Option.some.inj hread).symm

theorem ofDecimal?_nat {n : Nat} (hunits : x.units = n * one.units) (hn : n < 10 ^ 23) :
    ofDecimal? ⟨n, 0⟩ = some x := by
  have hlength : (Nat.repr n).length ≤ 23 := length_repr_le (by decide) hn
  apply ofDecimal?_eq_some
  · simp only [Decimal.magnitude]
    omega
  · simp only [Decimal.magnitude]
    omega
  · simpa using hunits

theorem exists_double_nat {n : Nat} (hn : n < 2 ^ 53) :
    ∃ x : Double, x.units = n * one.units ∧ ofDecimal? ⟨n, 0⟩ = some x := by
  obtain ⟨x, hx⟩ := exists_units (e := 1074) hn (by decide) (by decide)
  have hunits : x.units = n * one.units := by
    rw [hx, units_one, ← Nat.pow_eq]
  exact ⟨x, hunits, ofDecimal?_nat hunits (Nat.lt_trans hn (by decide))⟩

theorem exists_double_tenPow {n : Nat} (hn : n ≤ 22) :
    ∃ x : Double, x.units = 10 ^ n * one.units ∧ tenPow? n = some x := by
  have hfives : 5 ^ n < 2 ^ 53 := Nat.lt_of_le_of_lt (Nat.pow_le_pow_right (by decide) hn) (by decide)
  have htens : 10 ^ n < 10 ^ 23 := Nat.pow_lt_pow_right (by decide) (Nat.lt_succ_of_le hn)
  obtain ⟨x, hx⟩ := exists_units (e := n + 1074) hfives (by omega) (by omega)
  have hunits : x.units = 10 ^ n * one.units := by
    rw [hx, units_one, Nat.mul_pow 5 2 n, Nat.mul_assoc]
    exact congrArg (5 ^ n * ·) (Nat.pow_add 2 n 1074)
  have hread : ofDecimal? ⟨10 ^ n, 0⟩ = some x := ofDecimal?_nat hunits htens
  rw [← Nat.one_mul (10 ^ n), ofDecimal?_mul_pow, Int.zero_add] at hread
  exact ⟨x, hunits, hread⟩

theorem units_zero : zero.units = 0 := by decide

theorem ofRatio?_zero {b : Nat} (hb : 0 < b) : ofRatio? 0 b = some zero := by
  apply ofRatio?_eq_some hb
  rw [units_zero, Nat.zero_mul, Nat.zero_mul]

theorem ofDecimal?_eq_ofRatio? {d : Decimal} (hdigits : d.digits < 2 ^ 53) (hlow : -22 ≤ d.exponent)
    (hhigh : d.exponent ≤ 22) :
    ofDecimal? d = ofRatio? (d.digits * 10 ^ d.exponent.toNat) (10 ^ (-d.exponent).toNat) := by
  have hlength : (Nat.repr d.digits).length ≤ 16 :=
    length_repr_le (by decide) (Nat.lt_trans hdigits (by decide))
  have hnotLow : ¬ d.magnitude < -330 := by
    simp only [Decimal.magnitude]
    omega
  have hnotHigh : ¬ 309 < d.magnitude := by
    simp only [Decimal.magnitude]
    omega
  unfold ofDecimal?
  by_cases hzero : d.digits = 0
  · rw [if_pos (.inl hzero), hzero, Nat.zero_mul, ofRatio?_zero (Nat.pow_pos (by decide))]
  · simp only [hzero, hnotLow, hnotHigh, or_self, if_false, Nat.pow_eq]

theorem mul?_eq {y : Double} (hx : x.units = a * one.units) (hy : y.units = b * one.units) :
    x.mul? y = ofRatio? (a * b) 1 := by
  have hsquare : 0 < one.units * one.units := Nat.mul_pos units_one_pos units_one_pos
  have hscale := ofRatio?_mul_right (a * b) 1 hsquare
  unfold mul?
  rw [hx, hy, Nat.mul_mul_mul_comm, ← hscale, Nat.one_mul]

theorem div?_eq {y : Double} (hx : x.units = a * one.units) (hy : y.units = b * one.units) :
    x.div? y = ofRatio? a b := by
  unfold div?
  rw [hx, hy, ofRatio?_mul_right a b units_one_pos]

theorem scaleUp?_eq {m n : Nat} (hx : x.units = m * one.units) (hn : n ≤ 22) :
    x.scaleUp? n = ofRatio? (m * 10 ^ n) 1 := by
  obtain ⟨t, ht, htens⟩ := exists_double_tenPow hn
  have hproduct : x.mul? t = ofRatio? (m * 10 ^ n) 1 := mul?_eq hx ht
  unfold scaleUp?
  by_cases hzero : x = zero
  · have hm : m = 0 := by
      rw [hzero, units_zero] at hx
      exact (Nat.mul_eq_zero.1 hx.symm).resolve_right (Nat.ne_of_gt units_one_pos)
    rw [if_pos hzero, hm, Nat.zero_mul, ofRatio?_zero Nat.one_pos]
  · rw [if_neg hzero, htens, ← hproduct]
    exact Option.bind_some t x.mul?

theorem scaleDown?_eq {m n : Nat} (hx : x.units = m * one.units) (hn : n ≤ 22) :
    x.scaleDown? n = ofRatio? m (10 ^ n) := by
  obtain ⟨t, ht, htens⟩ := exists_double_tenPow hn
  have hquotient : x.div? t = ofRatio? m (10 ^ n) := div?_eq hx ht
  have hfew : n ≤ 308 := Nat.le_trans hn (by decide)
  rw [scaleDown?, if_pos hfew, htens, ← hquotient]
  exact Option.bind_some t x.div?

/-- Where the digits and the power of ten are doubles themselves, only one rounding is left. -/
theorem ofParts?_eq_ofDecimal? {d : Decimal} (hdigits : d.digits < 2 ^ 53) (hlow : -22 ≤ d.exponent)
    (hhigh : d.exponent ≤ 22) : ofParts? d = ofDecimal? d := by
  obtain ⟨x, hx, hread⟩ := exists_double_nat hdigits
  rw [ofDecimal?_eq_ofRatio? hdigits hlow hhigh]
  unfold ofParts?
  simp only [hread, Option.bind_eq_bind, Option.bind_some]
  by_cases he : 0 ≤ d.exponent
  · have hminus : (-d.exponent).toNat = 0 := by omega
    rw [if_pos he, hminus, Nat.pow_zero]
    exact scaleUp?_eq hx (by omega)
  · have hplus : d.exponent.toNat = 0 := by omega
    rw [if_neg he, hplus, Nat.pow_zero, Nat.mul_one]
    exact scaleDown?_eq hx (by omega)

end FilterWorkspace.Double
