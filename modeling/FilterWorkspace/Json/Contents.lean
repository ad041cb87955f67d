import FilterWorkspace.Json.Basic

/-! What a JSON value is made of. -/

namespace FilterWorkspace.Json

mutual

def nesting : Json → Nat
  | null | bool _ | number _ | string _ => 0
  | array items => itemsNesting items + 1
  | object fields => fieldsNesting fields + 1

def itemsNesting : List Json → Nat
  | [] => 0
  | x :: xs => max (nesting x) (itemsNesting xs)

def fieldsNesting : List (String × Json) → Nat
  | [] => 0
  | (_, x) :: rest => max (nesting x) (fieldsNesting rest)

end

mutual

def numbers : Json → List Number
  | null | bool _ | string _ => []
  | number value => [value]
  | array items => itemsNumbers items
  | object fields => fieldsNumbers fields

def itemsNumbers : List Json → List Number
  | [] => []
  | x :: xs => numbers x ++ itemsNumbers xs

def fieldsNumbers : List (String × Json) → List Number
  | [] => []
  | (_, x) :: rest => numbers x ++ fieldsNumbers rest

end

end FilterWorkspace.Json
