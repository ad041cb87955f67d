import FilterWorkspace.Expression.Compound

/-! Entries of a workspace: an identifier and what it stands for. An entry is a value; it keeps its
payload also after the workspace has dropped it. -/

namespace FilterWorkspace

variable {L : Type}

inductive Payload (L : Type) where
  | leaf (value : L)
  | compound (expression : Compound L)
deriving DecidableEq, Repr

namespace Payload

def isLeaf : Payload L → Bool
  | leaf _ => true
  | compound _ => false

/-- The children of a compound; a leaf counts as its own only child. -/
def children : Payload L → List (Child L)
  | leaf value => [.leaf value]
  | compound c => c.content

def references : Payload L → IdSet
  | leaf _ => ∅
  | compound c => c.referenceSet

def sites (p : Payload L) : List EntryId := p.children.filterMap Child.reference?

@[simp] theorem mem_references {p : Payload L} {id : EntryId} : id ∈ p.references ↔ id ∈ p.sites := by
  cases p with
  | leaf value => simp [references, sites, children, Child.reference?]
  | compound c => exact Compound.mem_referenceSet

end Payload

structure Entry (L : Type) where
  id : EntryId
  payload : Payload L
  /-- What the payload refers to directly, set down when the entry is made. -/
  references : IdSet
deriving DecidableEq, Repr

namespace Entry

def ofPayload (id : EntryId) (payload : Payload L) : Entry L := ⟨id, payload, payload.references⟩

def isLeaf (e : Entry L) : Bool := e.payload.isLeaf

def operand (e : Entry L) : Child L := .reference e.id

end Entry
end FilterWorkspace
