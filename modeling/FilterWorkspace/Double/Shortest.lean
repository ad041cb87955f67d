import FilterWorkspace.Double.Basic

/-! The decimal with the fewest digits that is read as a given double; of several the nearest one.
Candidates are only the two neighbours of the double on each decimal grid, since with any other
point of the grid the neighbour on its side is read as the double too. -/

namespace FilterWorkspace.Double

inductive Tie where
  | toEven
  | upward
deriving DecidableEq, Repr

def magnitude (x : Double) : Int :=
  (Nat.repr (x.units * Nat.pow 10 350 / one.units)).length - 350

def neighbours (tie : Tie) (x : Double) (e : Int) : List Decimal :=
  let a := x.units * Nat.pow 10 (-e).toNat
  let b := one.units * Nat.pow 10 e.toNat
  let below := a / b
  let rest := 2 * (a % b)
  if b < rest ∨ (rest = b ∧ (tie = .upward ∨ below % 2 = 1)) then [⟨below + 1, e⟩, ⟨below, e⟩]
  else [⟨below, e⟩, ⟨below + 1, e⟩]

def toDecimal (x : Double) : Decimal := ⟨x.units * Nat.pow 5 1074, -1074⟩

def shortest (tie : Tie) (x : Double) : Decimal :=
  if x = zero then ⟨0, 0⟩
  else
    let found := (List.range' 1 17).findSome? fun (n : Nat) =>
      (x.neighbours tie (x.magnitude - n)).find? fun d => ofDecimal? d = some x
    (found.getD x.toDecimal).strip

def text (x : Double) (negative : Bool) : String :=
  (if negative then "-" else "") ++ (x.shortest .upward).positional

end FilterWorkspace.Double
