/-! Operators of field filters. -/

namespace FilterWorkspace

inductive FieldOperator where
  | within
  | without
  | all
  | above
  | atLeast
  | below
  | atMost
deriving DecidableEq, Repr

namespace FieldOperator

def name : FieldOperator → String
  | within => "in"
  | without => "not-in"
  | all => "all"
  | above => ">"
  | atLeast => ">="
  | below => "<"
  | atMost => "<="

def every : List FieldOperator := [within, without, all, above, atLeast, below, atMost]

theorem mem_every (op : FieldOperator) : op ∈ every := by cases op <;> decide

theorem name_injective {a b : FieldOperator} (h : a.name = b.name) : a = b := by
  revert h
  cases a <;> cases b <;> decide

def takesList : FieldOperator → Bool
  | within | without | all => true
  | above | atLeast | below | atMost => false

end FieldOperator
end FilterWorkspace
