/-! Parsers of text: a parser takes what it recognises from the front of a text, or fails. -/

namespace FilterWorkspace.Text

variable {α β : Type}

def dropWord? (w : String) (s : List Char) : Option (List Char) :=
  if w.toList.isPrefixOf s then some (s.drop w.toList.length) else none

theorem length_dropWord? {w : String} {s r : List Char} (h : dropWord? w s = some r) :
    r.length ≤ s.length := by
  simp only [dropWord?, Option.ite_none_right_eq_some, Option.some.injEq] at h
  rw [← h.2, List.length_drop]
  exact Nat.sub_le ..

abbrev Parser := StateT (List Char) Option

namespace Parser

def satisfy (p : Char → Bool) : Parser Char := fun
  | c :: s => if p c then some (c, s) else none
  | [] => none

def char (c : Char) : Parser Unit := do
  let _ ← satisfy (· == c)

def word (w : String) : Parser Unit := fun s => (dropWord? w s).map ((), ·)

def run (p : Char → Bool) : Parser (List Char) := fun s => some (s.takeWhile p, s.dropWhile p)

def run1 (p : Char → Bool) : Parser (List Char) := do
  let cs ← run p
  guard (!cs.isEmpty)
  return cs

def exactly (p : Char → Bool) : Nat → Parser (List Char)
  | 0 => return []
  | n + 1 => do return (← satisfy p) :: (← exactly p n)

def attempt (p : Parser α) : Parser (Option α) := some <$> p <|> pure none

def many (p : Parser α) : Parser (List α) := fun s =>
  match p s with
  | none => some ([], s)
  | some (a, rest) =>
    if rest.length < s.length then (many p rest).map fun (as, rest) => (a :: as, rest)
    else some ([a], rest)
termination_by s => s.length

def sepBy1 (p : Parser α) (separator : Parser β) : Parser (List α) := do
  let a ← p
  return a :: (← many (separator *> p))

def sepBy (p : Parser α) (separator : Parser β) : Parser (List α) :=
  sepBy1 p separator <|> pure []

def atEnd : Parser Unit := fun s => if s.isEmpty then some ((), s) else none

def parse? (p : Parser α) (text : String) : Option α := ((p <* atEnd) text.toList).map Prod.fst

end Parser
end FilterWorkspace.Text
