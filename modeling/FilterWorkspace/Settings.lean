/-! Settings of a workspace: how its identifiers are named, and whether the operands of one
combination may share what they refer to. -/

namespace FilterWorkspace

inductive SharingPolicy where
  | allowShared
  | strict
deriving DecidableEq, Repr

namespace SharingPolicy

def name : SharingPolicy → String
  | allowShared => "allow-shared"
  | strict => "strict"

def all : List SharingPolicy := [allowShared, strict]

theorem mem_all (p : SharingPolicy) : p ∈ all := by cases p <;> decide

theorem name_injective {p q : SharingPolicy} (h : p.name = q.name) : p = q := by
  revert h
  cases p <;> cases q <;> decide

end SharingPolicy

structure Settings where
  label : Option String := none
  timestamp : Bool := false
  policy : SharingPolicy := .allowShared
deriving DecidableEq, Repr

namespace Settings

def labelled (label : String) : Settings := { label := some label }

def withTimestamp (s : Settings) : Settings := { s with timestamp := true }

def withPolicy (s : Settings) (p : SharingPolicy) : Settings := { s with policy := p }

/-- The label that takes part in identifiers; an empty one counts as none. -/
def effectiveLabel (s : Settings) : Option String := s.label.filter (· ≠ "")

def effectiveTime (s : Settings) (createdAt : Int) : Option Int :=
  if s.timestamp then some createdAt else none

def space (s : Settings) (createdAt : Int) : String :=
  "_".intercalate (s.effectiveLabel.toList ++ ((s.effectiveTime createdAt).map Int.repr).toList)

end Settings
end FilterWorkspace
