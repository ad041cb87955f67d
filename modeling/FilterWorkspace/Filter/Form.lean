import FilterWorkspace.Filter.Basic
import FilterWorkspace.Reading.OfText

/-! The written form of filters. -/

namespace FilterWorkspace

open Reading

variable {ν : Type}

def FieldOperator.toJson (op : FieldOperator) : Json := .string op.name

def FieldOperator.read [Source ν] : Reader ν FieldOperator := named name every

namespace FieldContent

def toJson (c : FieldContent) : Json := .object [("fieldName", .string c.fieldName), ("value", c.value)]

def read [JsonSource ν] : Reader ν FieldContent := fun x => do
  let (fieldName, value) ← pair "FieldContent" "fieldName" "value" string JsonSource.json x
  return ⟨fieldName, value⟩

end FieldContent

namespace FieldFilter

def toJson (f : FieldFilter) : Json := .object [("op", f.op.toJson), ("content", f.content.toJson)]

def read [JsonSource ν] : Reader ν FieldFilter := fun x => do
  let (op, content) ← pair "FieldFilter" "op" "content" FieldOperator.read FieldContent.read x
  return ⟨op, content⟩

end FieldFilter
end FilterWorkspace
