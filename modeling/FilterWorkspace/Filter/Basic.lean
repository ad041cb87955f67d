import FilterWorkspace.Filter.Operator
import FilterWorkspace.Json.Basic
import FilterWorkspace.Text.Blank

/-! Filters on one field. A filter that is built has a name for its field and a value that fits its
operator; a filter that is read from a text may have neither. -/

namespace FilterWorkspace

structure FieldContent where
  fieldName : String
  value : Json
deriving DecidableEq, Repr

structure FieldFilter where
  op : FieldOperator
  content : FieldContent
deriving DecidableEq, Repr

namespace FieldFilter

inductive Error where
  | emptyField
  | expectedList (op : FieldOperator) (field : String)
  | expectedScalar (op : FieldOperator) (field : String)
deriving DecidableEq, Repr

def Error.message : Error → String
  | emptyField => "field name must not be empty"
  | expectedList op field =>
    "operator `" ++ op.name ++ "` on `" ++ field ++ "` expects a list of values"
  | expectedScalar op field =>
    "operator `" ++ op.name ++ "` on `" ++ field ++ "` expects a single scalar value"

def fit (op : FieldOperator) (field : String) (value : Json) : Except Error Json :=
  if op.takesList then
    match value with
    | .array items => .ok (.array items)
    | .null | .object _ => .error (.expectedList op field)
    | scalar => .ok (.array [scalar])
  else
    match value with
    | .null | .array _ | .object _ => .error (.expectedScalar op field)
    | scalar => .ok scalar

def build (op : FieldOperator) (field : String) (value : Json) : Except Error FieldFilter :=
  if Text.isBlank field then .error .emptyField
  else (fit op field value).map fun value => ⟨op, field, value⟩

def isIn (field : String) (values : List Json) : Except Error FieldFilter :=
  build .within field (.array values)

def notIn (field : String) (values : List Json) : Except Error FieldFilter :=
  build .without field (.array values)

def atLeast (field : String) (value : Json) : Except Error FieldFilter := build .atLeast field value

def atMost (field : String) (value : Json) : Except Error FieldFilter := build .atMost field value

def fieldName (f : FieldFilter) : String := f.content.fieldName

end FieldFilter
end FilterWorkspace
