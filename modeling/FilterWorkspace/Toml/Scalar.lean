import FilterWorkspace.Json.Token
import FilterWorkspace.Text.Parser
import FilterWorkspace.Toml.Basic

/-! Strings, numbers, dates and times as TOML writes them. -/

namespace FilterWorkspace.Toml.Grammar

open Text Text.Parser

def isBlankChar (c : Char) : Bool := c == ' ' || c == '\t'

def blanks : Parser Unit := do
  let _ ← run isBlankChar

def newline : Parser Unit := word "\n" <|> word "\r\n"

def isPlain (c : Char) : Bool := c == '\t' || (0x20 ≤ c.toNat && c.toNat != 0x7F)

def isHexDigit (c : Char) : Bool := (Json.Token.hexValue? c).isSome

def codePoint (n : Nat) : Parser Char := do
  let ds ← exactly isHexDigit n
  match Json.Token.hexNumber? ds with
  | none => failure
  | some n =>
    guard (n.isValidChar)
    return Char.ofNat n

def escaped : Parser Char := do
  match ← satisfy fun _ => true with
  | '"' => return '"'
  | '\\' => return '\\'
  | 'b' => return '\x08'
  | 't' => return '\t'
  | 'n' => return '\n'
  | 'f' => return '\x0c'
  | 'r' => return '\r'
  | 'u' => codePoint 4
  | 'U' => codePoint 8
  | _ => failure

def basicPiece : Parser (List Char) :=
  run1 (fun c => isPlain c && c != '"' && c != '\\') <|>
    char '\\' *> (fun c => [c]) <$> escaped

def basicString : Parser String := do
  char '"'
  let pieces ← many basicPiece
  char '"'
  return String.ofList pieces.flatten

def literalString : Parser String := do
  char '\x27'
  let cs ← run fun c => isPlain c && c != '\x27'
  char '\x27'
  return String.ofList cs

def continuation : Parser (List Char) := do
  char '\\'
  blanks
  newline
  let _ ← many (newline <|> do let _ ← run1 isBlankChar)
  return []

def innerQuotes (quote : Char) : Parser (List Char) := do
  let s ← get
  let cs ← run (· == quote)
  guard (0 < cs.length)
  if cs.length < 3 then return cs
  else
    guard (3 < cs.length && cs.length < 6)
    set (s.drop (cs.length - 3))
    return cs.drop 3

/-- A string between three quotes on each side. A line break after the first three does not belong
to it. -/
def multiline (quote : Char) (piece : Parser (List Char)) : Parser String := do
  let close := char quote *> char quote *> char quote
  close
  let _ ← attempt newline
  let pieces ← many (piece <|> newline *> pure ['\n'] <|> innerQuotes quote)
  close
  return String.ofList pieces.flatten

def multilineBasic : Parser String := multiline '"' (basicPiece <|> continuation)

def multilineLiteral : Parser String :=
  multiline '\x27' <| run1 fun c => isPlain c && c != '\x27'

def string : Parser String := do
  let s ← get
  if "\"\"\"".toList.isPrefixOf s then multilineBasic
  else if "'''".toList.isPrefixOf s then multilineLiteral
  else basicString <|> literalString

def digits (isDigit : Char → Bool) : Parser (List Char) :=
  List.flatten <$> sepBy1 (run1 isDigit) (char '_')

def sign : Parser Bool := char '+' *> pure false <|> char '-' *> pure true <|> pure false

def whole : Parser (List Char) := char '0' *> pure ['0'] <|> digits Char.isDigit

def isInRange (n : Int) : Bool := -0x8000000000000000 ≤ n && n < 0x8000000000000000

def radix (mark : String) (base : Nat) : Parser Int := do
  word mark
  let ds ← digits fun c => (Json.Token.hexValue? c).any (· < base)
  return ds.foldl (fun n d => base * n + ((Json.Token.hexValue? d).getD 0 : Nat)) (0 : Int)

def integer : Parser Toml := do
  let n ← radix "0x" 16 <|> radix "0o" 8 <|> radix "0b" 2 <|> do
    let negative ← sign
    let n : Int := Json.Token.natOfDigits (← whole)
    return if negative then -n else n
  guard (isInRange n)
  return .integer n

def exponent : Parser Int := do
  char 'e' <|> char 'E'
  let negative ← sign
  let n : Int := Json.Token.natOfDigits (← digits Char.isDigit)
  return if negative then -n else n

def float : Parser Toml := do
  let negative ← sign
  let special (name : String) : Parser Toml := do
    word name
    return .float ((if negative then "-" else "") ++ name)
  let decimal : Parser Toml := do
    let ds ← whole
    let places ← attempt (char '.' *> digits Char.isDigit)
    let exponent ← attempt exponent
    guard (places.isSome || exponent.isSome)
    let places := places.getD []
    let x : Decimal := ⟨Json.Token.natOfDigits (ds ++ places), exponent.getD 0 - places.length⟩
    match Double.ofDecimal? x with
    | some x => return .float (x.text negative)
    | none =>
      guard negative
      return .float "-inf"
  special "inf" <|> word "nan" *> pure (.float "NaN") <|> decimal

def field (n first last : Nat) : Parser Nat := do
  let m := Json.Token.natOfDigits (← exactly Char.isDigit n)
  guard (first ≤ m && m ≤ last)
  return m

def isLeapYear (year : Nat) : Bool := year % 4 == 0 && (year % 100 != 0 || year % 400 == 0)

def daysIn (year month : Nat) : Nat :=
  if month = 2 then if isLeapYear year then 29 else 28
  else if month ∈ [4, 6, 9, 11] then 30
  else 31

def date : Parser Unit := do
  let year ← field 4 0 9999
  char '-'
  let month ← field 2 1 12
  char '-'
  let _ ← field 2 1 (daysIn year month)

def time : Parser Unit := do
  let _ ← field 2 0 23
  char ':'
  let _ ← field 2 0 59
  char ':'
  let _ ← field 2 0 60
  let _ ← attempt (char '.' *> run1 Char.isDigit)

def offset : Parser Unit :=
  char 'Z' <|> char 'z' <|> do
    char '+' <|> char '-'
    let _ ← field 2 0 23
    char ':'
    let _ ← field 2 0 59

def datetime : Parser Toml := do
  let separator := char 'T' <|> char 't' <|> char ' '
  time <|> do
    date
    let _ ← attempt (separator *> time *> attempt offset)
  return .datetime

def scalar : Parser Toml :=
  .string <$> string <|>
    word "true" *> pure (.boolean true) <|>
    word "false" *> pure (.boolean false) <|>
    datetime <|>
    float <|>
    integer

end FilterWorkspace.Toml.Grammar
