import FilterWorkspace.Json.Basic
import FilterWorkspace.Reading.Record

/-! JSON values as a source. -/

namespace FilterWorkspace

namespace Json

def shape : Json → Reading.Shape Json
  | null => .null
  | bool value => .bool value
  | number (.integer value) => .integer value
  | number (.float negative x) => .float (x.text negative)
  | string value => .string value
  | array items => .sequence items
  | object fields => .map (fields.map fun (name, x) => (.ok name, x))

def choice : Json → Except Reading.Error (Reading.Choice Json)
  | string name => .ok ⟨name, none, .ok ()⟩
  | object [(name, x)] => .ok ⟨name, some x, .ok ()⟩
  | object _ => .error (.mismatch .notSingleKey)
  | x => .error (Reading.wrongType x.shape "string or map")

instance : Reading.Source Json where
  shape x := .ok x.shape
  choice := choice
  unit
    | null => .ok ()
    | x => .error (Reading.wrongType x.shape "unit")
  skip _ := .ok ()
  surplus length := .mismatch (.wrongLength length "fewer elements in array")

end Json

namespace Reading

class JsonSource (ν : Type) extends Source ν where
  json : Reader ν Json

instance : JsonSource Json where
  toSource := inferInstance
  json := .ok

end Reading
end FilterWorkspace
