import FilterWorkspace.Double.Shortest

/-! Numbers of JSON. A double is another value than the integer it equals. -/

namespace FilterWorkspace.Json

inductive Number where
  | integer (value : Int)
  | float (negative : Bool) (magnitude : Double)
deriving DecidableEq, Repr

namespace Number

/-- The integers that are numbers as such: those of 64 bits, with a sign or without. Others count as
doubles. -/
def isInteger (n : Int) : Bool := -0x8000000000000000 ≤ n && n < 0x10000000000000000

def render : Number → String
  | integer value => Int.repr value
  | float negative magnitude =>
    let x := magnitude.shortest .toEven
    (if negative then "-" else "") ++
      if -5 < x.magnitude ∧ x.magnitude ≤ 16 then x.positional else x.scientific

end Number
end FilterWorkspace.Json
