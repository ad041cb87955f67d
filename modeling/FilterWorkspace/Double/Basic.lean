import FilterWorkspace.Decimal

/-! Finite doubles without their signs. Products and quotients are exact before they are rounded;
every rounding is to the nearest double, of two to the even one. -/

namespace FilterWorkspace

/-- A double by its rank, which is the number of the doubles below it. -/
structure Double where
  rank : Nat
  rank_lt : rank < 2047 * Nat.pow 2 52
deriving DecidableEq, Repr

namespace Double

def zero : Double := ⟨0, by decide⟩

def one : Double := ⟨1023 * Nat.pow 2 52, by decide⟩

def units (x : Double) : Nat :=
  let binade := x.rank / Nat.pow 2 52
  let fraction := x.rank % Nat.pow 2 52
  if binade = 0 then fraction else (Nat.pow 2 52 + fraction) * Nat.pow 2 (binade - 1)

def roundDiv (a b : Nat) : Nat :=
  let rest := 2 * (a % b)
  if b < rest ∨ (rest = b ∧ a / b % 2 = 1) then a / b + 1 else a / b

/-- The double nearest to `a / b`; `none` where it is infinite. Doubles stand one unit apart in the
first two binades, and in every other twice as far apart as in the one before. -/
def ofRatio? (a b : Nat) : Option Double :=
  let a := a * one.units
  let doublings := (a / b).log2 - 52
  let rank := doublings * Nat.pow 2 52 + roundDiv a (b * Nat.pow 2 doublings)
  if h : rank < 2047 * Nat.pow 2 52 then some ⟨rank, h⟩ else none

def ofDecimal? (x : Decimal) : Option Double :=
  if x.digits = 0 ∨ x.magnitude < -330 then some zero
  else if 309 < x.magnitude then none
  else ofRatio? (x.digits * Nat.pow 10 x.exponent.toNat) (Nat.pow 10 (-x.exponent).toNat)

def mul? (x y : Double) : Option Double := ofRatio? (x.units * y.units) (one.units * one.units)

def div? (x y : Double) : Option Double := ofRatio? x.units y.units

def tenPow? (n : Nat) : Option Double := ofDecimal? ⟨1, n⟩

def scaleUp? (x : Double) (n : Nat) : Option Double :=
  if x = zero then some zero else do x.mul? (← tenPow? n)

/-- `x / 10 ^ n`, where the power is rounded before the quotient is. Powers above all doubles divide
in steps. -/
def scaleDown? (x : Double) (n : Nat) : Option Double := do
  if n ≤ 308 then x.div? (← tenPow? n)
  else
    let y ← x.div? (← tenPow? 308)
    if y = zero then return zero else scaleDown? y (n - 308)
termination_by n

/-- A double near a decimal, whose digits and whose power of ten are rounded each by itself. -/
def ofParts? (x : Decimal) : Option Double := do
  let digits ← ofDecimal? ⟨x.digits, 0⟩
  if 0 ≤ x.exponent then digits.scaleUp? x.exponent.toNat
  else digits.scaleDown? (-x.exponent).toNat

end Double
end FilterWorkspace
