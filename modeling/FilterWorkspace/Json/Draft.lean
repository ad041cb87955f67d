import FilterWorkspace.Json.Basic
import FilterWorkspace.Json.Token

/-! A text read as JSON as far as it goes. The draft of a text holds all that stands before the
place where the text stops being JSON, and `fault` at that place; nothing follows a fault. So a
reader of the draft meets whatever is wrong in the order of the text. -/

namespace FilterWorkspace.Json

inductive Draft where
  | null
  | bool (value : Bool)
  | number (value : Number)
  | string (value : String)
  | array (items : List Draft)
  /-- A field has no name where a string without a value stands for it, or where no string stands
  for it; then it has a fault for its value. -/
  | object (fields : List (Option String × Draft))
  /-- Written like `form`, but without a value. -/
  | valueless (form : Draft)
  | fault
deriving Repr

namespace Draft

inductive Frame where
  | items (done : List Draft)
  | fields (done : List (Option String × Draft))
  /-- An object in the middle of a field. -/
  | field (done : List (Option String × Draft)) (name : Option String)

inductive Due where
  | value
  | firstItem
  | firstName
  | name
  | colon
  | separator
deriving DecidableEq

/-- Containers nested deeper than this have no value. -/
def maxDepth : Nat := 127

def Frame.add (d : Draft) : Frame → Frame
  | items done => .items (d :: done)
  | fields done => .fields ((none, fault) :: done)
  | field done name => .fields ((name, d) :: done)

def Frame.close : Frame → Draft
  | items done => .array done.reverse
  | fields done => .object done.reverse
  | field done name => .object ((name, fault) :: done).reverse

def closeAll (d : Draft) (frames : List Frame) : Draft :=
  frames.foldl (fun d f => (f.add d).close) d

inductive Step where
  | go (frames : List Frame) (due : Due)
  | done (d : Draft)

def finish (d : Draft) : List Frame → Step
  | [] => .done d
  | f :: frames => .go (f.add d :: frames) .separator

def finishContainer (frame : Frame) (outer : List Frame) : Step :=
  finish (if outer.length < maxDepth then frame.close else .valueless frame.close) outer

def ofToken : Token → Draft
  | .null => null
  | .bool value => bool value
  | .number value => number value
  | .string value => string value
  | .valueless => valueless null
  | _ => fault

def step (frames : List Frame) (due : Due) (t : Token) : Option Step :=
  match due, t, frames with
  | .firstItem, .arrayClose, frame :: outer => some (finishContainer frame outer)
  | .value, t, frames | .firstItem, t, frames =>
    match t with
    | .arrayOpen => some (.go (.items [] :: frames) .firstItem)
    | .objectOpen => some (.go (.fields [] :: frames) .firstName)
    | .null | .bool _ | .number _ | .string _ | .valueless => some (finish (ofToken t) frames)
    | _ => none
  | .firstName, .objectClose, frame :: outer => some (finishContainer frame outer)
  | .firstName, t, .fields done :: outer | .name, t, .fields done :: outer =>
    match t with
    | .string name => some (.go (.field done (some name) :: outer) .colon)
    | .valueless => some (.go (.field done none :: outer) .colon)
    | _ => none
  | .colon, .colon, frames => some (.go frames .value)
  | .separator, .comma, .items done :: outer => some (.go (.items done :: outer) .value)
  | .separator, .arrayClose, .items done :: outer => some (finishContainer (.items done) outer)
  | .separator, .comma, .fields done :: outer => some (.go (.fields done :: outer) .name)
  | .separator, .objectClose, .fields done :: outer => some (finishContainer (.fields done) outer)
  | _, _, _ => none

def read (frames : List Frame) (due : Due) : List Token → Draft × List Token
  | [] => (closeAll fault frames, [])
  | t :: ts =>
    match step frames due t with
    | none => (closeAll fault frames, [])
    | some (.done d) => (d, ts)
    | some (.go frames due) => read frames due ts

mutual

def wellFormed : Draft → Bool
  | fault => false
  | array items => wellFormedItems items
  | object fields => wellFormedFields fields
  | valueless form => form.wellFormed
  | null | bool _ | number _ | string _ => true

def wellFormedItems : List Draft → Bool
  | [] => true
  | d :: ds => d.wellFormed && wellFormedItems ds

def wellFormedFields : List (Option String × Draft) → Bool
  | [] => true
  | (_, d) :: rest => d.wellFormed && wellFormedFields rest

end

mutual

def value? : Draft → Option Json
  | null => some .null
  | bool value => some (.bool value)
  | number value => some (.number value)
  | string value => some (.string value)
  | array items => (values? items).map .array
  | object fields => (fieldValues? fields).map .ofFields
  | valueless _ => none
  | fault => none

def values? : List Draft → Option (List Json)
  | [] => some []
  | d :: ds => do return (← d.value?) :: (← values? ds)

def fieldValues? : List (Option String × Draft) → Option (List (String × Json))
  | [] => some []
  | (some name, d) :: rest => do return (name, ← d.value?) :: (← fieldValues? rest)
  | _ :: _ => none

end

end Draft

def draft (text : String) : Draft × Bool :=
  let (d, rest) := Draft.read [] .value (Token.ofChars text.toList)
  (d, !rest.isEmpty)

def parse? (text : String) : Option Json :=
  match draft text with
  | (d, false) => d.value?
  | (_, true) => none

end FilterWorkspace.Json
