import FilterWorkspace.EntryId.Basic

/-! A minter hands out the identifiers of one space in the order of their numbers. It only ever
counts upward, so it hands none out twice. -/

namespace FilterWorkspace

structure Minter where
  space : String
  issued : Nat
deriving DecidableEq, Repr

namespace Minter

def fresh (space : String) : Minter := ⟨space, 0⟩

def peek (m : Minter) : EntryId := .numbered m.space m.issued

def mint (m : Minter) : EntryId × Minter := (m.peek, { m with issued := m.issued + 1 })

def advance (m : Minter) (n : Nat) : Minter := { m with issued := m.issued + n }

theorem advance_zero (m : Minter) : m.advance 0 = m := rfl

theorem advance_succ (m : Minter) (n : Nat) : m.advance (n + 1) = (m.advance n).mint.2 := rfl

end Minter
end FilterWorkspace
