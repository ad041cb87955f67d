import FilterWorkspace.Filter.Basic
import FilterWorkspace.Workspace.Renaming

/-! When values count as equal. Zero is written with a sign and without one, but is one number, so whatever differs
in the sign of a zero only counts as equal. -/

namespace FilterWorkspace

namespace Json

def Number.plain : Number → Number
  | integer value => integer value
  | float negative x => float (negative && x ≠ .zero) x

mutual

def plain : Json → Json
  | null => null
  | bool value => bool value
  | number value => number value.plain
  | string value => string value
  | array items => array (plainItems items)
  | object fields => object (plainFields fields)

def plainItems : List Json → List Json
  | [] => []
  | x :: xs => plain x :: plainItems xs

def plainFields : List (String × Json) → List (String × Json)
  | [] => []
  | (name, x) :: rest => (name, plain x) :: plainFields rest

end

def same (x y : Json) : Bool := x.plain = y.plain

end Json

namespace FieldFilter

def plain (f : FieldFilter) : FieldFilter := ⟨f.op, f.fieldName, f.content.value.plain⟩

def same (f g : FieldFilter) : Bool := f.plain = g.plain

end FieldFilter

variable {L : Type} [DecidableEq L] (plain : L → L)

def Tree.same (s t : Tree L) : Bool := s.map plain = t.map plain

def Payload.same (p q : Payload L) : Bool := p.map id plain = q.map id plain

def Entry.same (a b : Entry L) : Bool :=
  a.id = b.id ∧ a.payload.same plain b.payload ∧ a.references = b.references

end FilterWorkspace
