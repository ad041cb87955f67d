/-! Why a value does not have the form that is read. -/

namespace FilterWorkspace.Reading

inductive Mismatch where
  | unknownVariant (name : String) (known : List String)
  | unknownField (name : String) (known : List String)
  | missingField (name : String)
  | duplicateField (name : String)
  | wrongType (found expected : String)
  | wrongLength (length : Nat) (expected : String)
  /-- A choice given as a map has not exactly one key. -/
  | notSingleKey
  | neitherNameNorTable
  | emptyTable
  | severalEntries
  /-- Something is held where only an empty table or an empty array may stand. -/
  | notEmpty (expected : String)
  | notTable (found : String)
deriving DecidableEq, Repr

namespace Mismatch

def oneOf (names : List String) : String :=
  let ticked := names.map fun name => "`" ++ name ++ "`"
  match ticked with
  | [a] => a
  | [a, b] => a ++ " or " ++ b
  | ticked => "one of " ++ ", ".intercalate ticked

def message : Mismatch → String
  | unknownVariant name known => "unknown variant `" ++ name ++ "`, expected " ++ oneOf known
  | unknownField name known => "unknown field `" ++ name ++ "`, expected " ++ oneOf known
  | missingField name => "missing field `" ++ name ++ "`"
  | duplicateField name => "duplicate field `" ++ name ++ "`"
  | wrongType found expected => "invalid type: " ++ found ++ ", expected " ++ expected
  | wrongLength length expected => "invalid length " ++ Nat.repr length ++ ", expected " ++ expected
  | notSingleKey => "invalid value: map, expected map with a single key"
  | neitherNameNorTable => "wanted string or table"
  | emptyTable => "wanted exactly 1 element, found 0 elements"
  | severalEntries => "wanted exactly 1 element, more than 1 element"
  | notEmpty expected => "expected empty " ++ expected
  | notTable found => "expected table, found " ++ found

end Mismatch

inductive Error where
  | malformed
  | mismatch (what : Mismatch)
deriving DecidableEq, Repr

end FilterWorkspace.Reading
