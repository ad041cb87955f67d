import FilterWorkspace.Json.Printer
import FilterWorkspace.Proofs.Json.Number
import Mathlib.Data.List.Forall2

/-! What is printed falls into its tokens again, whatever stands after it, as long as that does not go on with a
number. -/

namespace FilterWorkspace.Json

namespace Token

variable {c : Char} {t : Token} {cs cs' s : List Char} {ts ts' : List Token}

theorem hexNumber?_control : ∀ n < 0x20, hexNumber? ['0', '0', hexDigit (n / 16), hexDigit (n % 16)] = some n := by
  decide

theorem codes?_shortEscape {e : Char} (h : shortEscape? e = some c) (s : List Char) :
    codes? ('\\' :: e :: s) = (codes? s).map fun (ns, rest) => (c.toNat :: ns, rest) := by
  rw [codes?]
  · simp only [h]
    cases codes? s <;> rfl
  · rintro _ _ _ _ _ ⟨⟩
    cases h

theorem codes?_escape (c : Char) (s : List Char) :
    codes? (escape c ++ s) = (codes? s).map fun (ns, rest) => (c.toNat :: ns, rest) := by
  unfold escape
  split
  case h_8 hquote hbackslash _ _ _ _ _ =>
    by_cases hcontrol : c.toNat < 0x20
    · rw [if_pos hcontrol]
      simp only [List.cons_append, List.nil_append, codes?, hexNumber?_control _ hcontrol]
      cases codes? s <;> rfl
    · rw [if_neg hcontrol, List.singleton_append, codes?, if_neg hcontrol]
      · cases codes? s <;> rfl
      · exact hquote
      · exact fun _ _ _ _ _ h _ => hbackslash h
      · exact fun _ _ h _ => hbackslash h
  all_goals exact codes?_shortEscape rfl s

theorem codes?_escapes (cs s : List Char) :
    codes? (cs.flatMap escape ++ '"' :: s) = some (cs.map Char.toNat, s) := by
  induction cs with
  | nil => rfl
  | cons c cs ih =>
    rw [List.flatMap_cons, List.append_assoc, codes?_escape, ih]
    rfl

theorem not_isSurrogate (c : Char) : isHighSurrogate c.toNat = false ∧ isLowSurrogate c.toNat = false := by
  have hvalid : c.toNat < 0xD800 ∨ 0xDFFF < c.toNat ∧ c.toNat < 0x110000 := c.valid
  simp only [isHighSurrogate, isLowSurrogate, Bool.and_eq_false_iff, decide_eq_false_iff_not]
  omega

theorem ofCodes?_map : ∀ cs : List Char, ofCodes? (cs.map Char.toNat) = some cs
  | [] => rfl
  | [c] => by
    obtain ⟨hhigh, hlow⟩ := not_isSurrogate c
    simp [ofCodes?, hhigh, hlow]
  | c :: d :: cs => by
    obtain ⟨hhigh, hlow⟩ := not_isSurrogate c
    have hrest : ofCodes? (d.toNat :: cs.map Char.toNat) = some (d :: cs) := ofCodes?_map (d :: cs)
    simp [ofCodes?, hhigh, hlow, hrest]

/-- The text is read as these tokens wherever a number ends that it may end with. -/
def Reads (cs : List Char) (ts : List Token) : Prop := ∀ s, Stops s → ofChars (cs ++ s) = ts ++ ofChars s

theorem Reads.nil : Reads [] [] := fun _ _ => rfl

theorem reads_quote (name : String) : Reads (quote name).toList [.string name] := by
  intro s _
  have hread := codes?_escapes name.toList s
  have hcodes : ofCodes (name.toList.map Char.toNat) = .string name := by
    rw [ofCodes, ofCodes?_map, Option.elim_some, String.ofList_toList]
  have hnext : next '"' (name.toList.flatMap escape ++ '"' :: s) = (.string name, s) := by
    simp only [next, hread, Option.map_some, Option.getD_some, hcodes]
  have htext : (quote name).toList ++ s = '"' :: (name.toList.flatMap escape ++ '"' :: s) := by
    simp [quote]
  rw [htext, ofChars_cons rfl hnext]
  rfl

theorem reads_word (c : Char) (cs : List Char) (hspace : isSpace c = false)
    (hnext : ∀ s, next c (cs ++ s) = (t, s)) : Reads (c :: cs) [t] :=
  fun s _ => ofChars_cons hspace (hnext s)

theorem reads_number (n : Number) : Reads n.render.toList [n.token] := fun _ hs => n.ofChars_render hs

structure IsMark (c : Char) (t : Token) : Prop where
  ofChars_cons : ∀ s, ofChars (c :: s) = t :: ofChars s
  stops : ¬ c.isDigit ∧ c ≠ '.' ∧ c ≠ 'e' ∧ c ≠ 'E'

theorem isMark_of_next (hspace : isSpace c = false) (hnext : ∀ s, next c s = (t, s))
    (hstops : ¬ c.isDigit ∧ c ≠ '.' ∧ c ≠ 'e' ∧ c ≠ 'E') : IsMark c t :=
  ⟨fun s => ofChars_cons hspace (hnext s), hstops⟩

theorem isMark_arrayOpen : IsMark '[' .arrayOpen := isMark_of_next rfl (fun _ => rfl) (by decide)

theorem isMark_arrayClose : IsMark ']' .arrayClose := isMark_of_next rfl (fun _ => rfl) (by decide)

theorem isMark_objectOpen : IsMark '\x7b' .objectOpen := isMark_of_next rfl (fun _ => rfl) (by decide)

theorem isMark_objectClose : IsMark '\x7d' .objectClose := isMark_of_next rfl (fun _ => rfl) (by decide)

theorem isMark_colon : IsMark ':' .colon := isMark_of_next rfl (fun _ => rfl) (by decide)

theorem isMark_comma : IsMark ',' .comma := isMark_of_next rfl (fun _ => rfl) (by decide)

theorem Reads.append_mark (h : Reads cs ts) (hc : IsMark c t) (h' : Reads cs' ts') :
    Reads (cs ++ c :: cs') (ts ++ t :: ts') := by
  intro s hs
  have hstops : Stops (c :: (cs' ++ s)) := by
    rintro d ⟨⟩
    exact hc.stops
  rw [List.append_assoc, List.cons_append, h _ hstops, hc.ofChars_cons, h' s hs, List.append_assoc]
  rfl

theorem Reads.enclose {d : Char} {u : Token} (hc : IsMark c t) (h : Reads cs ts) (hd : IsMark d u) :
    Reads (c :: (cs ++ [d])) (t :: (ts ++ [u])) :=
  Reads.nil.append_mark hc (h.append_mark hd Reads.nil)

theorem Reads.intercalate {css : List (List Char)} {tss : List (List Token)} (h : List.Forall₂ Reads css tss) :
    Reads ([','].intercalate css) ([.comma].intercalate tss) := by
  induction h with
  | nil => exact Reads.nil
  | cons hfirst hrest ih =>
    cases hrest with
    | nil => simpa using hfirst
    | cons _ _ =>
      rw [List.intercalate_cons_cons, List.intercalate_cons_cons, List.append_assoc, List.append_assoc]
      exact hfirst.append_mark isMark_comma ih

end Token

mutual

def tokens : Json → List Token
  | null => [.null]
  | bool value => [.bool value]
  | number value => [value.token]
  | string value => [.string value]
  | array items => .arrayOpen :: ([.comma].intercalate (itemTokens items) ++ [.arrayClose])
  | object fields => .objectOpen :: ([.comma].intercalate (fieldTokens fields) ++ [.objectClose])

def itemTokens : List Json → List (List Token)
  | [] => []
  | x :: xs => tokens x :: itemTokens xs

def fieldTokens : List (String × Json) → List (List Token)
  | [] => []
  | (name, x) :: rest => (.string name :: .colon :: tokens x) :: fieldTokens rest

end

open Token

mutual

theorem reads_render : ∀ x : Json, Reads x.render.toList x.tokens
  | null => reads_word 'n' ['u', 'l', 'l'] rfl fun _ => rfl
  | bool true => reads_word 't' ['r', 'u', 'e'] rfl fun _ => rfl
  | bool false => reads_word 'f' ['a', 'l', 's', 'e'] rfl fun _ => rfl
  | number value => reads_number value
  | string value => reads_quote value
  | array items => by
    have hitems := (Reads.intercalate (reads_renderItems items)).enclose isMark_arrayOpen isMark_arrayClose
    simpa [render, tokens] using hitems
  | object fields => by
    have hfields := (Reads.intercalate (reads_renderFields fields)).enclose isMark_objectOpen isMark_objectClose
    simpa [render, tokens] using hfields

theorem reads_renderItems : ∀ items : List Json,
    List.Forall₂ Reads ((renderItems items).map String.toList) (itemTokens items)
  | [] => .nil
  | x :: xs => .cons (reads_render x) (reads_renderItems xs)

theorem reads_renderFields : ∀ fields : List (String × Json),
    List.Forall₂ Reads ((renderFields fields).map String.toList) (fieldTokens fields)
  | [] => .nil
  | (name, x) :: rest => by
    have hfield := (reads_quote name).append_mark isMark_colon (reads_render x)
    refine .cons ?_ (reads_renderFields rest)
    simpa using hfield

end

theorem ofChars_render (x : Json) : ofChars x.render.toList = x.tokens := by
  have hread := reads_render x [] (by simp [Stops])
  rw [List.append_nil, ofChars, List.append_nil] at hread
  exact hread

end FilterWorkspace.Json
