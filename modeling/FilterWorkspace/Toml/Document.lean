import FilterWorkspace.Toml.Scalar

/-! TOML documents: entries line by line, and headers that begin tables. -/

namespace FilterWorkspace.Toml

open Text Text.Parser

namespace Grammar

def comment : Parser Unit := do
  char '#'
  let _ ← run isPlain

def gap : Parser Unit := do
  let _ ← many ((do let _ ← run1 isBlankChar) <|> newline <|> comment *> newline)

def isBareChar (c : Char) : Bool := c.isAlphanum || c == '_' || c == '-'

def key : Parser String :=
  basicString <|> literalString <|> String.ofList <$> run1 isBareChar

def limit : Nat := 80

def dottedKey : Parser (List String × String) := do
  let keys ← sepBy1 (blanks *> key <* blanks) (char '.')
  guard (keys.length < limit)
  match keys.getLast? with
  | none => failure
  | some name => return (keys.dropLast, name)

def entry (value : Parser Toml) : Parser Entry := do
  let (path, name) ← dottedKey
  char '='
  blanks
  return ⟨path, name, ← value⟩

def value : (depth : Nat) → Parser Toml
  | 0 => scalar
  | depth + 1 =>
    let items : Parser Toml := do
      char '['
      let xs ← sepBy (gap *> value depth <* gap) (char ',')
      if !xs.isEmpty then
        let _ ← attempt (char ',')
      gap
      char ']'
      return .array xs
    let braces : Parser Toml := do
      char '\x7b'
      let entries ← sepBy (entry (value depth) <* blanks) (char ',')
      blanks
      char '\x7d'
      match Fields.addAll [] entries with
      | none => failure
      | some fields => return .inline fields
    scalar <|> items <|> braces

def lineEnd : Parser Unit := blanks *> attempt comment *> (newline <|> atEnd)

def emptyLines : Parser Unit := do
  let _ ← many (blanks *> attempt comment *> newline)

def entries : Parser (List Entry) := many (emptyLines *> entry (value (limit - 1)) <* lineEnd)

def header : Parser Section := do
  let close (repeated : Bool) (path : List String) (name : String) : Parser Section := do
    char ']'
    if repeated then char ']'
    lineEnd
    return ⟨path, name, repeated, ← entries⟩
  emptyLines
  blanks
  char '['
  let repeated := (← attempt (char '[')).isSome
  let (path, name) ← dottedKey
  close repeated path name

def document : Parser (List Entry × List Section) := do
  let _ ← attempt (char '\uFEFF')
  let first ← entries
  let sections ← many header
  emptyLines
  blanks
  let _ ← attempt comment
  return (first, sections)

end Grammar

def parse? (text : String) : Option Fields := do
  let (first, sections) ← Parser.parse? Grammar.document text
  ofSections? first sections

end FilterWorkspace.Toml
