/-! The boolean operators that join filters. -/

namespace FilterWorkspace

inductive Combinator where
  | and
  | or
  | not
deriving DecidableEq, Repr

namespace Combinator

def name : Combinator → String
  | and => "and"
  | or => "or"
  | not => "not"

def all : List Combinator := [and, or, not]

theorem mem_all (op : Combinator) : op ∈ all := by cases op <;> decide

theorem name_injective {a b : Combinator} (h : a.name = b.name) : a = b := by
  revert h
  cases a <;> cases b <;> decide

end Combinator
end FilterWorkspace
