import FilterWorkspace.Json.Number
import FilterWorkspace.Text.Parser

/-! The tokens of a JSON text. Reading stops at the first place where no token stands; the last
token then is `fault`. -/

namespace FilterWorkspace.Json

inductive Token where
  | arrayOpen
  | arrayClose
  | objectOpen
  | objectClose
  | colon
  | comma
  | null
  | bool (value : Bool)
  | number (value : Number)
  | string (value : String)
  /-- A string or a number in good form that has no value: an escape names half of a surrogate
  pair, or the number is too large. -/
  | valueless
  | fault
deriving DecidableEq, Repr

namespace Token

def hexValue? (c : Char) : Option Nat :=
  if c.isDigit then some (c.toNat - '0'.toNat)
  else if 'a' ≤ c ∧ c ≤ 'f' then some (c.toNat - 'a'.toNat + 10)
  else if 'A' ≤ c ∧ c ≤ 'F' then some (c.toNat - 'A'.toNat + 10)
  else none

def hexNumber? (ds : List Char) : Option Nat :=
  ds.foldlM (fun n d => (hexValue? d).map (16 * n + ·)) 0

def isHighSurrogate (n : Nat) : Bool := 0xD800 ≤ n && n < 0xDC00

def isLowSurrogate (n : Nat) : Bool := 0xDC00 ≤ n && n < 0xE000

def ofCodes? : List Nat → Option (List Char)
  | [] => some []
  | [n] => if isHighSurrogate n || isLowSurrogate n then none else some [Char.ofNat n]
  | n :: m :: rest =>
    if isHighSurrogate n then
      if isLowSurrogate m then
        (ofCodes? rest).map (Char.ofNat (0x10000 + (n - 0xD800) * 0x400 + (m - 0xDC00)) :: ·)
      else none
    else if isLowSurrogate n then none
    else (ofCodes? (m :: rest)).map (Char.ofNat n :: ·)

def shortEscape? : Char → Option Char
  | '"' => some '"'
  | '\\' => some '\\'
  | '/' => some '/'
  | 'b' => some '\x08'
  | 'f' => some '\x0c'
  | 'n' => some '\n'
  | 'r' => some '\r'
  | 't' => some '\t'
  | _ => none

def codes? : List Char → Option (List Nat × List Char)
  | [] => none
  | '"' :: rest => some ([], rest)
  | '\\' :: 'u' :: a :: b :: c :: d :: rest => do
    let n ← hexNumber? [a, b, c, d]
    let (ns, rest) ← codes? rest
    return (n :: ns, rest)
  | '\\' :: c :: rest => do
    let c ← shortEscape? c
    let (ns, rest) ← codes? rest
    return (c.toNat :: ns, rest)
  | c :: rest =>
    if c.toNat < 0x20 then none
    else do
      let (ns, rest) ← codes? rest
      return (c.toNat :: ns, rest)

def ofCodes (ns : List Nat) : Token := (ofCodes? ns).elim valueless (string <| String.ofList ·)

def natOfDigits (ds : List Char) : Nat := ds.foldl (fun n d => 10 * n + (d.toNat - '0'.toNat)) 0

def fraction? (s : List Char) : Option (Option (List Char) × List Char) :=
  match s with
  | '.' :: s =>
    match s.takeWhile Char.isDigit with
    | [] => none
    | ds => some (some ds, s.dropWhile Char.isDigit)
  | s => some (none, s)

def exponent? (s : List Char) : Option (Option Int × List Char) :=
  let unsigned (sign : Int) (s : List Char) : Option (Option Int × List Char) :=
    match s.takeWhile Char.isDigit with
    | [] => none
    | ds => some (some (sign * natOfDigits ds), s.dropWhile Char.isDigit)
  let signed (s : List Char) :=
    match s with
    | '+' :: s => unsigned 1 s
    | '-' :: s => unsigned (-1) s
    | s => unsigned 1 s
  match s with
  | 'e' :: s => signed s
  | 'E' :: s => signed s
  | s => some (none, s)

def whole? (s : List Char) : Option (List Char × List Char) :=
  match s.takeWhile Char.isDigit with
  | [] => none
  | '0' :: _ :: _ => none
  | ds => some (ds, s.dropWhile Char.isDigit)

def appendDigits (n : Nat) : List Char → Nat × Nat
  | [] => (n, 0)
  | d :: ds =>
    let m := 10 * n + (d.toNat - '0'.toNat)
    if m < 0x10000000000000000 then appendDigits m ds else (n, ds.length + 1)

/-- The number with these parts. It is a double where it has a fraction or an exponent, where it is
no integer of 64 bits, and where it is minus zero, integers having only one zero. -/
def ofParts (negative : Bool) (whole : List Char) (fraction : Option (List Char))
    (exponent : Option Int) : Token :=
  let (n, dropped) := appendDigits 0 whole
  let value : Int := if negative then -n else n
  if fraction.isNone ∧ exponent.isNone ∧ dropped = 0 ∧ Number.isInteger value ∧
      ¬ (negative ∧ n = 0) then
    number (.integer value)
  else
    let places := fraction.getD []
    let (n, unread) := appendDigits n places
    let exponent := exponent.getD 0 + dropped - (places.length - unread : Nat)
    (Double.ofParts? ⟨n, exponent⟩).elim valueless fun x => number (.float negative x)

def unsignedNumber? (negative : Bool) (s : List Char) : Option (Token × List Char) := do
  let (whole, s) ← whole? s
  let (fraction, s) ← fraction? s
  let (exponent, s) ← exponent? s
  return (ofParts negative whole fraction exponent, s)

def next (c : Char) (s : List Char) : Token × List Char :=
  let orFault (r : Option (Token × List Char)) := r.getD (fault, [])
  match c with
  | '[' => (arrayOpen, s)
  | ']' => (arrayClose, s)
  | '\x7b' => (objectOpen, s)
  | '\x7d' => (objectClose, s)
  | ':' => (colon, s)
  | ',' => (comma, s)
  | '"' => orFault ((codes? s).map fun (ns, s) => (ofCodes ns, s))
  | 'n' => orFault ((Text.dropWord? "ull" s).map (null, ·))
  | 't' => orFault ((Text.dropWord? "rue" s).map (bool true, ·))
  | 'f' => orFault ((Text.dropWord? "alse" s).map (bool false, ·))
  | '-' => orFault (unsignedNumber? true s)
  | c => if c.isDigit then orFault (unsignedNumber? false (c :: s)) else (fault, [])

theorem length_codes? {s r : List Char} {ns : List Nat} (h : codes? s = some (ns, r)) :
    r.length ≤ s.length := by
  fun_induction codes? s generalizing ns r with
  | case1 => simp at h
  | case2 => simp_all
  | case3 a b c d rest ih =>
    simp only [Option.bind_eq_bind, Option.bind_eq_some_iff, Prod.exists] at h
    obtain ⟨_, _, ms, t, ht, h⟩ := h
    have := ih ht
    simp_all
    omega
  | case4 c rest _ ih =>
    simp only [Option.bind_eq_bind, Option.bind_eq_some_iff, Prod.exists] at h
    obtain ⟨_, _, ms, t, ht, h⟩ := h
    have := ih ht
    simp_all
    omega
  | case5 => simp at h
  | case6 c rest _ _ _ _ ih =>
    simp only [Option.bind_eq_bind, Option.bind_eq_some_iff, Prod.exists] at h
    obtain ⟨ms, t, ht, h⟩ := h
    have := ih ht
    simp_all
    omega

theorem length_dropDigits (s : List Char) : (s.dropWhile Char.isDigit).length ≤ s.length :=
  (List.dropWhile_sublist _).length_le

theorem length_whole? {s r ds : List Char} (h : whole? s = some (ds, r)) : r.length < s.length := by
  cases s with
  | nil => simp [whole?] at h
  | cons c s =>
    have := length_dropDigits s
    grind [whole?, List.takeWhile_cons, List.dropWhile_cons]

theorem length_fraction? {s r : List Char} {ds : Option (List Char)}
    (h : fraction? s = some (ds, r)) : r.length ≤ s.length := by
  unfold fraction? at h
  split at h
  · rename_i s
    have := length_dropDigits s
    grind
  · grind

theorem length_exponent? {s r : List Char} {n : Option Int} (h : exponent? s = some (n, r)) :
    r.length ≤ s.length := by
  have := length_dropDigits
  unfold exponent? at h
  grind

theorem length_unsignedNumber? {negative : Bool} {s r : List Char} {t : Token}
    (h : unsignedNumber? negative s = some (t, r)) : r.length < s.length := by
  simp only [unsignedNumber?, Option.bind_eq_bind, Option.bind_eq_some_iff, Prod.exists] at h
  obtain ⟨_, a, ha, _, b, hb, _, c, hc, h⟩ := h
  have := length_whole? ha
  have := length_fraction? hb
  have := length_exponent? hc
  simp at h
  grind

theorem length_next (c : Char) (s : List Char) : (next c s).2.length ≤ s.length := by
  have key (r : Option (Token × List Char)) (h : ∀ t u, r = some (t, u) → u.length ≤ s.length) :
      (r.getD (fault, [])).2.length ≤ s.length := by
    cases r with
    | none => simp
    | some r => exact h r.1 r.2 rfl
  have word (w : String) (t : Token) :
      (((Text.dropWord? w s).map (t, ·)).getD (fault, [])).2.length ≤ s.length := by
    refine key _ fun _ u h => ?_
    simp only [Option.map_eq_some_iff, Prod.mk.injEq, exists_eq_right_right] at h
    exact Text.length_dropWord? h.1
  unfold next
  split
  case h_7 =>
    refine key _ fun _ u h => ?_
    simp only [Option.map_eq_some_iff, Prod.mk.injEq, Prod.exists] at h
    obtain ⟨_, _, h, _, rfl⟩ := h
    exact length_codes? h
  case h_8 => exact word _ _
  case h_9 => exact word _ _
  case h_10 => exact word _ _
  case h_11 => exact key _ fun _ u h => Nat.le_of_lt (length_unsignedNumber? h)
  case h_12 =>
    split
    · exact key _ fun _ u h => Nat.le_of_lt_succ (length_unsignedNumber? h)
    · simp
  all_goals exact Nat.le_refl _

def isSpace (c : Char) : Bool := c == ' ' || c == '\n' || c == '\r' || c == '\t'

def ofChars : List Char → List Token
  | [] => []
  | c :: s =>
    if isSpace c then ofChars s
    else (next c s).1 :: ofChars (next c s).2
termination_by s => s.length
decreasing_by
  · simp
  · exact Nat.lt_succ_of_le (length_next c s)

end Token
end FilterWorkspace.Json
