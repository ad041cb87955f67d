/-! White space: the characters with that property in Unicode. -/

namespace FilterWorkspace.Text

def blankRuns : List (Nat × Nat) :=
  [(0x9, 0xD), (0x20, 0x20), (0x85, 0x85), (0xA0, 0xA0), (0x1680, 0x1680), (0x2000, 0x200A),
    (0x2028, 0x2029), (0x202F, 0x202F), (0x205F, 0x205F), (0x3000, 0x3000)]

def isBlankChar (c : Char) : Bool :=
  blankRuns.any fun (first, last) => first ≤ c.toNat ∧ c.toNat ≤ last

def trim (s : String) : String :=
  let rest := s.toList.dropWhile isBlankChar
  String.ofList (rest.reverse.dropWhile isBlankChar).reverse

def isBlank (s : String) : Bool := (trim s).isEmpty

end FilterWorkspace.Text
