import FilterWorkspace.Json.Token
import Mathlib.Data.List.TakeWhile

/-! The written form of a number: a sign, a whole part, places after the point and an exponent. Whatever is
printed for a number has this form, and the reader takes it apart again at the same joints. -/

namespace FilterWorkspace

theorem eq_zero_of_toDigits {n : Nat} {cs : List Char} (h : Nat.toDigits 10 n = '0' :: cs) : n = 0 := by
  induction n using Nat.strongRecOn generalizing cs with
  | ind n ih =>
    by_cases hlt : n < 10
    · rw [Nat.toDigits_of_lt_base hlt] at h
      have hdigits : ∀ d < 10, Nat.digitChar d = '0' → d = 0 := by decide
      exact hdigits n hlt (List.cons.inj h).1
    · have hlt : 10 ≤ n := Nat.le_of_not_lt hlt
      rw [Nat.toDigits_of_base_le (by decide) hlt] at h
      obtain ⟨d, ds, hds⟩ := List.exists_cons_of_ne_nil (Nat.toDigits_ne_nil (b := 10) (n := n / 10))
      rw [hds, List.cons_append] at h
      obtain ⟨rfl, -⟩ := List.cons.inj h
      have hzero : n / 10 = 0 := ih (n / 10) (by omega) hds
      omega

theorem toDigits_ne_zero_cons (n : Nat) (c : Char) (cs : List Char) : Nat.toDigits 10 n ≠ '0' :: c :: cs := by
  intro h
  rw [eq_zero_of_toDigits h, Nat.toDigits_zero] at h
  cases (List.cons.inj h).2

theorem isDigit_toDigits (n : Nat) : ∀ c ∈ Nat.toDigits 10 n, c.isDigit :=
  fun _ => Nat.isDigit_of_mem_toDigits (by decide) (by decide)

theorem toList_repr (e : Int) :
    (Int.repr e).toList = (if e < 0 then ['-'] else []) ++ Nat.toDigits 10 e.natAbs := by
  rw [Int.repr_eq_if]
  by_cases he : 0 ≤ e
  · have hvalue : e.toNat = e.natAbs := by omega
    rw [if_pos he, if_neg (Int.not_lt.2 he), Nat.repr_eq_ofList_toDigits, String.toList_ofList, hvalue]
    rfl
  · have hvalue : (-e).toNat = e.natAbs := by omega
    rw [if_neg he, if_pos (Int.not_le.1 he), hvalue, Nat.repr_eq_ofList_toDigits, String.toList_append]
    exact congrArg ('-' :: ·) String.toList_ofList

namespace Json

structure Numeral where
  negative : Bool
  whole : List Char
  places : List Char
  exponent : Option Int
  whole_ne_nil : whole ≠ []
  whole_ne_zero_cons : ∀ c cs, whole ≠ '0' :: c :: cs
  isDigit_whole : ∀ c ∈ whole, c.isDigit
  isDigit_places : ∀ c ∈ places, c.isDigit

namespace Numeral

def signText (negative : Bool) : List Char := if negative then ['-'] else []

def placesText : List Char → List Char
  | [] => []
  | c :: cs => '.' :: c :: cs

def exponentText : Option Int → List Char
  | none => []
  | some e => 'e' :: (Int.repr e).toList

def text (m : Numeral) : List Char :=
  signText m.negative ++ (m.whole ++ (placesText m.places ++ exponentText m.exponent))

def fraction : List Char → Option (List Char)
  | [] => none
  | c :: cs => some (c :: cs)

def token (m : Numeral) : Token := Token.ofParts m.negative m.whole (fraction m.places) m.exponent

end Numeral

namespace Token

def Stops (s : List Char) : Prop := ∀ c ∈ s.head?, ¬ c.isDigit ∧ c ≠ '.' ∧ c ≠ 'e' ∧ c ≠ 'E'

variable {ds s : List Char}

theorem takeWhile_digits (hds : ∀ c ∈ ds, c.isDigit) (hs : ∀ c ∈ s.head?, ¬ c.isDigit) :
    (ds ++ s).takeWhile Char.isDigit = ds := by
  have hnil : s.takeWhile Char.isDigit = [] := by
    cases s with
    | nil => rfl
    | cons c s => exact List.takeWhile_cons_of_neg (hs c rfl)
  rw [List.takeWhile_append_of_pos hds, hnil, List.append_nil]

theorem dropWhile_digits (hds : ∀ c ∈ ds, c.isDigit) (hs : ∀ c ∈ s.head?, ¬ c.isDigit) :
    (ds ++ s).dropWhile Char.isDigit = s := by
  rw [List.dropWhile_append_of_pos hds]
  cases s with
  | nil => rfl
  | cons c s => exact List.dropWhile_cons_of_neg (hs c rfl)

theorem whole?_append (m : Numeral) (hs : ∀ c ∈ s.head?, ¬ c.isDigit) :
    whole? (m.whole ++ s) = some (m.whole, s) := by
  have hne := m.whole_ne_nil
  have hlead := m.whole_ne_zero_cons
  unfold whole?
  rw [takeWhile_digits m.isDigit_whole hs, dropWhile_digits m.isDigit_whole hs]
  split
  · contradiction
  next c cs heq => exact absurd heq (hlead c cs)
  · rfl

theorem fraction?_append {places : List Char} (hplaces : ∀ c ∈ places, c.isDigit)
    (hs : ∀ c ∈ s.head?, ¬ c.isDigit ∧ c ≠ '.') :
    fraction? (Numeral.placesText places ++ s) = some (Numeral.fraction places, s) := by
  have hdigit : ∀ c ∈ s.head?, ¬ c.isDigit := fun c hc => (hs c hc).1
  cases places with
  | nil =>
    unfold fraction?
    split
    next heq => exact absurd rfl (hs '.' (by rw [← List.nil_append s]; exact heq ▸ rfl)).2
    · rfl
  | cons d ds =>
    have hread := takeWhile_digits hplaces hdigit
    have hrest := dropWhile_digits hplaces hdigit
    simp only [Numeral.placesText, Numeral.fraction, List.cons_append, fraction?] at hread hrest ⊢
    rw [hread, hrest]

theorem natOfDigits_toDigits (n : Nat) : natOfDigits (Nat.toDigits 10 n) = n := Nat.ofDigitChars_ten_toDigits

theorem exponent?_digits (hne : ds ≠ []) (hds : ∀ c ∈ ds, c.isDigit) (hs : ∀ c ∈ s.head?, ¬ c.isDigit) :
    exponent? ('e' :: (ds ++ s)) = some (some (natOfDigits ds : Int), s) := by
  obtain ⟨d, ds, rfl⟩ := List.exists_cons_of_ne_nil hne
  have hread := takeWhile_digits hds hs
  have hrest := dropWhile_digits hds hs
  have hd : d.isDigit := hds d List.mem_cons_self
  simp only [exponent?]
  split
  next heq =>
    rw [(List.cons.inj heq).1] at hd
    cases hd
  next heq =>
    rw [(List.cons.inj heq).1] at hd
    cases hd
  · rw [hread, hrest]
    simp only [Int.one_mul]

theorem exponent?_minus (hne : ds ≠ []) (hds : ∀ c ∈ ds, c.isDigit) (hs : ∀ c ∈ s.head?, ¬ c.isDigit) :
    exponent? ('e' :: '-' :: (ds ++ s)) = some (some (-(natOfDigits ds : Int)), s) := by
  have hread := takeWhile_digits hds hs
  have hrest := dropWhile_digits hds hs
  obtain ⟨d, ds, rfl⟩ := List.exists_cons_of_ne_nil hne
  simp only [exponent?]
  rw [hread, hrest]
  simp only [Int.neg_mul, Int.one_mul]

theorem exponent?_append (exponent : Option Int) (hs : Stops s) :
    exponent? (Numeral.exponentText exponent ++ s) = some (exponent, s) := by
  cases exponent with
  | none =>
    unfold exponent?
    split
    next heq => exact absurd rfl (hs 'e' (by rw [← List.nil_append s]; exact heq ▸ rfl)).2.2.1
    next heq => exact absurd rfl (hs 'E' (by rw [← List.nil_append s]; exact heq ▸ rfl)).2.2.2
    · rfl
  | some e =>
    have hdigit : ∀ c ∈ s.head?, ¬ c.isDigit := fun c hc => (hs c hc).1
    rw [Numeral.exponentText, toList_repr]
    by_cases he : 0 ≤ e
    · have hvalue : (e.natAbs : Int) = e := Int.natAbs_of_nonneg he
      have hread := exponent?_digits Nat.toDigits_ne_nil (isDigit_toDigits e.natAbs) hdigit
      rw [natOfDigits_toDigits, hvalue] at hread
      rw [if_neg (Int.not_lt.2 he)]
      exact hread
    · have hvalue : -(e.natAbs : Int) = e := by omega
      have hread := exponent?_minus Nat.toDigits_ne_nil (isDigit_toDigits e.natAbs) hdigit
      rw [natOfDigits_toDigits, hvalue] at hread
      rw [if_pos (Int.not_le.1 he)]
      exact hread

theorem Stops.exponentText (hs : Stops s) (exponent : Option Int) :
    ∀ c ∈ (Numeral.exponentText exponent ++ s).head?, ¬ c.isDigit ∧ c ≠ '.' := by
  cases exponent with
  | none => exact fun c hc => ⟨(hs c hc).1, (hs c hc).2.1⟩
  | some e =>
    intro c hc
    obtain rfl : 'e' = c := Option.some.inj hc
    exact ⟨by decide, by decide⟩

theorem Stops.placesText (hs : Stops s) (places : List Char) (exponent : Option Int) :
    ∀ c ∈ (Numeral.placesText places ++ (Numeral.exponentText exponent ++ s)).head?, ¬ c.isDigit := by
  cases places with
  | nil => exact fun c hc => (hs.exponentText exponent c hc).1
  | cons d ds =>
    intro c hc
    obtain rfl : '.' = c := Option.some.inj hc
    decide

theorem unsignedNumber?_append (m : Numeral) (hs : Stops s) :
    unsignedNumber? m.negative
      (m.whole ++ (Numeral.placesText m.places ++ (Numeral.exponentText m.exponent ++ s))) = some (m.token, s) := by
  have hwhole := whole?_append m (hs.placesText m.places m.exponent)
  have hfraction := fraction?_append m.isDigit_places (hs.exponentText m.exponent)
  have hexponent := exponent?_append m.exponent hs
  simp only [unsignedNumber?, hwhole, hfraction, hexponent, Option.bind_eq_bind, Option.bind_some, Option.pure_def]
  rfl

theorem next_digit {d : Char} (hd : d.isDigit) (s : List Char) :
    next d s = (unsignedNumber? false (d :: s)).getD (fault, []) := by
  unfold next
  split
  case h_12 => rw [if_pos hd]
  all_goals cases hd

theorem isSpace_digit {d : Char} (hd : d.isDigit) : isSpace d = false := by
  have hne (c : Char) (hc : c.isDigit = false) : (d == c) = false := by
    refine beq_eq_false_iff_ne.2 ?_
    rintro rfl
    rw [hd] at hc
    cases hc
  unfold isSpace
  rw [hne ' ' rfl, hne '\n' rfl, hne '\r' rfl, hne '\t' rfl]
  rfl

theorem ofChars_cons {c : Char} {t : Token} {rest : List Char} (hspace : isSpace c = false)
    (hnext : next c s = (t, rest)) : ofChars (c :: s) = t :: ofChars rest := by
  rw [ofChars, hspace, hnext]
  rfl

theorem ofChars_text (m : Numeral) (hs : Stops s) : ofChars (m.text ++ s) = m.token :: ofChars s := by
  obtain ⟨rest, hrest⟩ : ∃ rest, rest = Numeral.placesText m.places ++ (Numeral.exponentText m.exponent ++ s) :=
    ⟨_, rfl⟩
  have htext : m.text ++ s = Numeral.signText m.negative ++ (m.whole ++ rest) := by
    simp only [Numeral.text, List.append_assoc, hrest]
  have hread := unsignedNumber?_append m hs
  rw [← hrest] at hread
  rw [htext]
  cases hnegative : m.negative with
  | true =>
    rw [hnegative] at hread
    apply ofChars_cons rfl
    show next '-' (m.whole ++ rest) = (m.token, s)
    simp only [next, hread, Option.getD_some]
  | false =>
    rw [hnegative] at hread
    obtain ⟨d, ds, hds⟩ := List.exists_cons_of_ne_nil m.whole_ne_nil
    have hd : d.isDigit := m.isDigit_whole d (hds ▸ List.mem_cons_self)
    have hnext := next_digit hd (ds ++ rest)
    rw [← List.cons_append, ← hds, hread, Option.getD_some] at hnext
    show ofChars (m.whole ++ rest) = m.token :: ofChars s
    rw [hds, List.cons_append, ofChars_cons (isSpace_digit hd) hnext]

end Token
end Json
end FilterWorkspace
