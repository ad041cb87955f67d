/-! Decimals, and the two ways to write them. -/

namespace FilterWorkspace

structure Decimal where
  digits : Nat
  exponent : Int
deriving DecidableEq, Repr

namespace Decimal

def magnitude (x : Decimal) : Int := (Nat.repr x.digits).length + x.exponent

def strip (x : Decimal) : Decimal :=
  if x.digits ≠ 0 ∧ x.digits % 10 = 0 then strip ⟨x.digits / 10, x.exponent + 1⟩ else x
termination_by x.digits
decreasing_by omega

def positional (x : Decimal) : String :=
  let places := (-x.exponent).toNat
  let ds := (Nat.repr x.digits).toList ++ List.replicate x.exponent.toNat '0'
  let ds := List.replicate (places + 1 - ds.length) '0' ++ ds
  let whole := ds.length - places
  String.ofList (ds.take whole ++ '.' :: if places = 0 then ['0'] else ds.drop whole)

def scientific (x : Decimal) : String :=
  let ds := (Nat.repr x.digits).toList
  let places := ds.drop 1
  String.ofList (ds.take 1 ++ if places.isEmpty then [] else '.' :: places) ++ "e" ++
    Int.repr (x.magnitude - 1)

end Decimal
end FilterWorkspace
