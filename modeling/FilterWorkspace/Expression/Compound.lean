import FilterWorkspace.EntryId.Basic
import FilterWorkspace.Expression.Combinator

/-! Compounds whose references are still names. A child is a leaf carried by value, or the
identifier of an entry that is to stand in its place. -/

namespace FilterWorkspace

variable {L : Type}

inductive Child (L : Type) where
  | leaf (value : L)
  | reference (id : EntryId)
deriving DecidableEq, Repr

namespace Child

def reference? : Child L → Option EntryId
  | leaf _ => none
  | reference id => some id

def leaf? : Child L → Option L
  | leaf value => some value
  | reference _ => none

end Child

structure Compound (L : Type) where
  op : Combinator
  content : List (Child L)
deriving DecidableEq, Repr

namespace Compound

def references (c : Compound L) : List EntryId := c.content.filterMap Child.reference?

def referenceSet (c : Compound L) : IdSet := .ofList c.references

@[simp] theorem mem_referenceSet {c : Compound L} {id : EntryId} :
    id ∈ c.referenceSet ↔ id ∈ c.references := by
  simp [referenceSet, Std.ExtTreeSet.mem_ofList]

end Compound
end FilterWorkspace
