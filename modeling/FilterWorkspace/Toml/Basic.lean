/-! Values of TOML documents, and the rules for the tables in them. A table may be given piece by
piece; how it was begun decides what may still be added to it. -/

namespace FilterWorkspace

namespace Toml

inductive Origin where
  /-- Named on the way in a dotted key. -/
  | dotted
  /-- Named on the way in a header. -/
  | implied
  | header
deriving DecidableEq, Repr

end Toml

inductive Toml where
  | string (value : String)
  | integer (value : Int)
  | float (text : String)
  | boolean (value : Bool)
  | datetime
  | array (items : List Toml)
  | inline (fields : List (String × Toml))
  | table (origin : Toml.Origin) (fields : List (String × Toml))
  /-- The tables under headers in double brackets. -/
  | tables (items : List (List (String × Toml)))
deriving Repr

namespace Toml

abbrev Fields := List (String × Toml)

namespace Fields

def replace (fields : Fields) (name : String) (x : Toml) : Fields :=
  fields.map fun (other, y) => if other = name then (other, x) else (other, y)

/-- Gives the field `name` of the table that `path` leads to. Tables on the path are begun where
they are missing; the last of them must have been begun in this way. -/
def define (name : String) (x : Toml) : List String → Fields → Option Fields
  | [], fields => if (fields.lookup name).isSome then none else some (fields ++ [(name, x)])
  | step :: path, fields =>
    match fields.lookup step with
    | none => do return fields ++ [(step, table .dotted (← define name x path []))]
    | some (table .dotted inner) => do
      return replace fields step (table .dotted (← define name x path inner))
    | some (table .implied inner) => do
      guard (!path.isEmpty)
      return replace fields step (table .implied (← define name x path inner))
    | some (tables items) => do
      guard (!path.isEmpty)
      let last ← items.getLast?
      return replace fields step (tables (items.dropLast ++ [← define name x path last]))
    | _ => none

def update (f : Fields → Option Fields) : List String → Fields → Option Fields
  | [], fields => f fields
  | step :: path, fields =>
    match fields.lookup step with
    | none => do return fields ++ [(step, table .implied (← update f path []))]
    | some (table origin inner) => do
      return replace fields step (table origin (← update f path inner))
    | some (tables items) => do
      let last ← items.getLast?
      return replace fields step (tables (items.dropLast ++ [← update f path last]))
    | _ => none

end Fields

structure Entry where
  path : List String
  name : String
  value : Toml

def Fields.addAll (fields : Fields) (entries : List Entry) : Option Fields :=
  entries.foldlM (fun fields e => fields.define e.name e.value e.path) fields

structure Section where
  path : List String
  name : String
  /-- Whether the header begins one more table of an array. -/
  repeated : Bool
  entries : List Entry

def Section.place (s : Section) (fields : Fields) : Option Fields :=
  match fields.lookup s.name, s.repeated with
  | none, false => do return fields ++ [(s.name, table .header (← Fields.addAll [] s.entries))]
  | some (table .implied inner), false => do
    return fields.filter (·.1 ≠ s.name) ++ [(s.name, table .header (← Fields.addAll inner s.entries))]
  | none, true => do return fields ++ [(s.name, tables [← Fields.addAll [] s.entries])]
  | some (tables items), true => do
    return fields.replace s.name (tables (items ++ [← Fields.addAll [] s.entries]))
  | _, _ => none

def ofSections? (entries : List Entry) (sections : List Section) : Option Fields := do
  sections.foldlM (fun fields s => fields.update s.place s.path) (← Fields.addAll [] entries)

end Toml
end FilterWorkspace
