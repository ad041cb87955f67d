import FilterWorkspace.Expression.Compound
import FilterWorkspace.Expression.Tree
import FilterWorkspace.Reading.OfText

/-! The written form of expressions. Children of compounds carry a tag, so compounds can be read
back; nodes of trees carry none, and leaves stand in a tree as they are. -/

namespace FilterWorkspace

open Reading

variable {L ν : Type}

def EntryId.toJson (id : EntryId) : Json := .string id.text

def EntryId.read [Source ν] : Reader ν EntryId := fun x => return ⟨← string x⟩

def Combinator.toJson (op : Combinator) : Json := .string op.name

def Combinator.read [Source ν] : Reader ν Combinator := named name all

namespace Child

def toJson (leafJson : L → Json) : Child L → Json
  | leaf value => .object [("leaf", leafJson value)]
  | reference id => .object [("reference", id.toJson)]

def read [Source ν] (readLeaf : Reader ν L) : Reader ν (Child L) :=
  choice
    [("leaf", carrying fun x => return leaf (← readLeaf x)),
      ("reference", carrying fun x => return reference (← EntryId.read x))]

end Child

namespace Compound

def toJson (leafJson : L → Json) (c : Compound L) : Json :=
  .object [("op", c.op.toJson), ("content", .array (c.content.map (Child.toJson leafJson)))]

def read [Source ν] (readLeaf : Reader ν L) : Reader ν (Compound L) := fun x => do
  let (op, content) ← pair "CompoundExpression" "op" "content" Combinator.read (list (Child.read readLeaf)) x
  return ⟨op, content⟩

end Compound

namespace Tree

mutual

def toJson (leafJson : L → Json) : Tree L → Json
  | leaf value => leafJson value
  | compound op content => .object [("op", op.toJson), ("content", .array (toJsonAll leafJson content))]

def toJsonAll (leafJson : L → Json) : List (Tree L) → List Json
  | [] => []
  | t :: ts => toJson leafJson t :: toJsonAll leafJson ts

end

end Tree
end FilterWorkspace
