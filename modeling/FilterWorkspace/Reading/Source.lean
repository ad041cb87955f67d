import FilterWorkspace.Reading.Mismatch
import FilterWorkspace.Text.Quoted

/-! What a reader may ask of a value, whatever the format it is written in. -/

namespace FilterWorkspace.Reading

variable {ν : Type}

inductive Shape (ν : Type) where
  | null
  | bool (value : Bool)
  | integer (value : Int)
  | float (text : String)
  | string (value : String)
  | sequence (items : List ν)
  | map (fields : List (Except Error String × ν))

def Shape.describe : Shape ν → String
  | null => "null"
  | bool value => "boolean `" ++ (if value then "true" else "false") ++ "`"
  | integer value => "integer `" ++ Int.repr value ++ "`"
  | float text => "floating point `" ++ text ++ "`"
  | string value => "string " ++ Text.quoted value
  | sequence _ => "sequence"
  | map _ => "map"

/-- One of several named alternatives, with what the alternative carries. After that has been read
`close` tells whether the choice ends there. -/
structure Choice (ν : Type) where
  name : String
  content : Option ν
  close : Except Error Unit

class Source (ν : Type) where
  shape : ν → Except Error (Shape ν)
  choice : ν → Except Error (Choice ν)
  /-- Accepts the content of an alternative that carries nothing. -/
  unit : ν → Except Error Unit
  skip : ν → Except Error Unit
  /-- A sequence of `length` items holds more than are read. -/
  surplus (length : Nat) : Error

def wrongType (s : Shape ν) (expected : String) : Error :=
  .mismatch (.wrongType s.describe expected)

end FilterWorkspace.Reading
