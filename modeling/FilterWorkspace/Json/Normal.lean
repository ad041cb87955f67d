import FilterWorkspace.Json.Basic

/-! The value that a written form stands for. In a value the fields of an object have no order of their
own, so they are put in byte order, and of two fields with one name only the later is there. -/

namespace FilterWorkspace.Json

mutual

def normal : Json → Json
  | null => null
  | bool value => bool value
  | number value => number value
  | string value => string value
  | array items => array (normalItems items)
  | object fields => ofFields (normalFields fields)

def normalItems : List Json → List Json
  | [] => []
  | x :: xs => normal x :: normalItems xs

def normalFields : List (String × Json) → List (String × Json)
  | [] => []
  | (name, x) :: rest => (name, normal x) :: normalFields rest

end

def IsNormal (x : Json) : Prop := x.normal = x

instance (x : Json) : Decidable x.IsNormal := inferInstanceAs (Decidable (x.normal = x))

theorem normalItems_eq (items : List Json) : normalItems items = items.map normal := by
  induction items with
  | nil => rfl
  | cons x xs ih => rw [normalItems, ih, List.map_cons]

theorem normalFields_eq (fields : List (String × Json)) :
    normalFields fields = fields.map fun field => (field.1, field.2.normal) := by
  induction fields with
  | nil => rfl
  | cons field rest ih =>
    obtain ⟨name, x⟩ := field
    rw [normalFields, ih, List.map_cons]

@[simp] theorem normal_array (items : List Json) : (array items).normal = array (items.map normal) := by
  rw [normal, normalItems_eq]

theorem normal_object (fields : List (String × Json)) :
    (object fields).normal = ofFields (fields.map fun field => (field.1, field.2.normal)) := by
  rw [normal, normalFields_eq]

end FilterWorkspace.Json
