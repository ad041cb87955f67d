import FilterWorkspace.Reading.Record
import FilterWorkspace.Toml.Document

/-! TOML documents as a source. A date or a time counts as a map, having no type of its own. -/

namespace FilterWorkspace

namespace Toml

def shape : Toml → Reading.Shape Toml
  | string value => .string value
  | integer value => .integer value
  | float text => .float text
  | boolean value => .bool value
  | datetime => .map []
  | array items => .sequence items
  | tables items => .sequence (items.map (table .header))
  | inline fields | table _ fields => .map (fields.map fun (name, x) => (.ok name, x))

def choice : Toml → Except Reading.Error (Reading.Choice Toml)
  | string name => .ok ⟨name, none, .ok ()⟩
  | inline fields | table _ fields =>
    match fields with
    | [] => .error (.mismatch .emptyTable)
    | [(name, x)] => .ok ⟨name, some x, .ok ()⟩
    | _ => .error (.mismatch .severalEntries)
  | _ => .error (.mismatch .neitherNameNorTable)

def unit : Toml → Except Reading.Error Unit
  | array [] | tables [] | inline [] | table _ [] => .ok ()
  | array _ | inline _ | table _ _ => .error (.mismatch (.notEmpty "table"))
  | tables _ => .error (.mismatch (.notEmpty "array"))
  | string _ => .error (.mismatch (.notTable "string"))
  | integer _ => .error (.mismatch (.notTable "integer"))
  | float _ => .error (.mismatch (.notTable "float"))
  | boolean _ => .error (.mismatch (.notTable "boolean"))
  | datetime => .error (.mismatch (.notTable "datetime"))

instance : Reading.Source Toml where
  shape x := .ok x.shape
  choice := choice
  unit := unit
  skip _ := .ok ()
  surplus length := .mismatch (.wrongLength length "fewer elements in array")

end Toml

namespace Reading

def ofToml {α : Type} (read : Reader Toml α) (text : String) : Except Error α :=
  match Toml.parse? text with
  | none => .error .malformed
  | some fields => read (.table .header fields)

end Reading
end FilterWorkspace
