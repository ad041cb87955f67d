import FilterWorkspace.Reading.Basic

/-! Readers of records. A record is written as a map of its fields, or as the sequence of their
values in the order of the fields. -/

namespace FilterWorkspace.Reading

variable {ν σ α β : Type}

structure Field (ν σ : Type) where
  name : String
  given : σ → Bool
  read : ν → σ → Except Error σ

structure RecordForm (ν σ : Type) where
  name : String
  fields : List (Field ν σ)
  /-- Whether fields of other names are refused. -/
  closed : Bool
  /-- Whether fields may be left out at the end of a sequence. -/
  optional : Bool

namespace RecordForm

variable (form : RecordForm ν σ)

def fieldNames : List String := form.fields.map Field.name

def readFields [Source ν] : List (Except Error String × ν) → σ → Except Error σ
  | [], s => .ok s
  | (name, x) :: rest, s => do
    let name ← name
    match form.fields.find? (·.name = name) with
    | some f =>
      if f.given s then .error (.mismatch (.duplicateField name))
      else readFields rest (← f.read x s)
    | none =>
      if form.closed then .error (.mismatch (.unknownField name form.fieldNames))
      else
        Source.skip x
        readFields rest s

def readItems : List (Field ν σ) → List ν → σ → Except Error σ
  | f :: fs, x :: xs, s => do readItems fs xs (← f.read x s)
  | _, _, s => .ok s

def read [Source ν] (blank : σ) : Reader ν σ := fun x => do
  match ← Source.shape x with
  | .map fields => form.readFields fields blank
  | .sequence items =>
    let s ← readItems form.fields items blank
    if form.fields.length < items.length then .error (Source.surplus ν items.length)
    else if items.length < form.fields.length ∧ ¬ form.optional then
      .error (.mismatch (.wrongLength items.length
        ("struct " ++ form.name ++ " with " ++ Nat.repr form.fields.length ++ " elements")))
    else .ok s
  | s => .error (wrongType s ("struct " ++ form.name))

end RecordForm

def field (name : String) (get : σ → Option α) (set : α → σ → σ) (read : Reader ν α) : Field ν σ :=
  ⟨name, fun s => (get s).isSome, fun x s => do return set (← read x) s⟩

def require (name : String) : Option α → Except Error α
  | some a => .ok a
  | none => .error (.mismatch (.missingField name))

def pair [Source ν] (name first second : String) (readFirst : Reader ν α) (readSecond : Reader ν β) :
    Reader ν (α × β) := fun x => do
  let form : RecordForm ν (Option α × Option β) :=
    { name, closed := false, optional := false
      fields :=
        [field first Prod.fst (fun a s => (some a, s.2)) readFirst,
          field second Prod.snd (fun b s => (s.1, some b)) readSecond] }
  let s ← form.read (none, none) x
  return (← require first s.1, ← require second s.2)

end FilterWorkspace.Reading
