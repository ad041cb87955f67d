import FilterWorkspace.Reading.Source

/-! Readers of single values, of lists and of choices. -/

namespace FilterWorkspace.Reading

variable {ν α β : Type}

abbrev Reader (ν α : Type) := ν → Except Error α

section

variable [Source ν]

def string : Reader ν String := fun x => do
  match ← Source.shape x with
  | .string value => .ok value
  | s => .error (wrongType s "a string")

def bool : Reader ν Bool := fun x => do
  match ← Source.shape x with
  | .bool value => .ok value
  | s => .error (wrongType s "a boolean")

def optional (read : Reader ν α) : Reader ν (Option α) := fun x => do
  match ← Source.shape x with
  | .null => .ok none
  | _ => some <$> read x

def list (read : Reader ν α) : Reader ν (List α) := fun x => do
  match ← Source.shape x with
  | .sequence items => items.mapM read
  | s => .error (wrongType s "a sequence")

def choice (known : List (String × (Option ν → Except Error α))) : Reader ν α := fun x => do
  let c ← Source.choice x
  match known.lookup c.name with
  | none => .error (.mismatch (.unknownVariant c.name (known.map Prod.fst)))
  | some read =>
    let a ← read c.content
    c.close
    return a

def bare (a : α) : Option ν → Except Error α
  | none => .ok a
  | some x => do
    Source.unit x
    return a

def carrying (read : Reader ν α) : Option ν → Except Error α
  | none => .error (.mismatch (.wrongType "unit variant" "newtype variant"))
  | some x => read x

def named (name : α → String) (all : List α) : Reader ν α :=
  choice (all.map fun a => (name a, bare a))

end

end FilterWorkspace.Reading
