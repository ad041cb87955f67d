import FilterWorkspace.Json.Draft
import FilterWorkspace.Reading.OfJson

/-! JSON texts as a source. What is wrong with a text is found in the order of the text, so a value
of the wrong form that stands before a fault is told before the fault. -/

namespace FilterWorkspace

namespace Json.Draft

def fieldName (name : Option String) : Except Reading.Error String :=
  name.elim (.error .malformed) .ok

def shape : Draft → Except Reading.Error (Reading.Shape Draft)
  | null => .ok .null
  | bool value => .ok (.bool value)
  | number (.integer value) => .ok (.integer value)
  | number (.float negative x) => .ok (.float (x.text negative))
  | string value => .ok (.string value)
  | array items => .ok (.sequence items)
  | object fields => .ok (.map (fields.map fun (name, x) => (fieldName name, x)))
  | valueless _ => .error .malformed
  | fault => .error .malformed

def choice : Draft → Except Reading.Error (Reading.Choice Draft)
  | string name => .ok ⟨name, none, .ok ()⟩
  | object ((name, x) :: rest) => do
    return ⟨← fieldName name, some x, if rest.isEmpty then .ok () else .error .malformed⟩
  | _ => .error .malformed

instance : Reading.Source Draft where
  shape := shape
  choice := choice
  unit
    | null => .ok ()
    | x => do .error (Reading.wrongType (← x.shape) "unit")
  skip x := if x.wellFormed then .ok () else .error .malformed
  surplus _ := .malformed

end Json.Draft

namespace Reading

def ofText {α : Type} (read : Reader Json.Draft α) (text : String) : Except Error α :=
  let (x, more) := Json.draft text
  do
    let a ← read x
    if more then .error .malformed else .ok a

instance : JsonSource Json.Draft where
  toSource := inferInstance
  json x := x.value?.elim (.error .malformed) .ok

end Reading
end FilterWorkspace
