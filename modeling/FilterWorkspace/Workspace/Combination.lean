import FilterWorkspace.Graph.Closure
import FilterWorkspace.Graph.Cycle
import FilterWorkspace.Workspace.Basic
import FilterWorkspace.Workspace.Error

/-! Combining entries into compounds. A compound is accepted when all that it refers to is held and
its references close no cycle; under the strict policy none of its references may lead to another
of them. -/

namespace FilterWorkspace

variable {L : Type}

/-- Two of `ids`, the first of which leads to the second; the least such first, and for it the
least second. -/
def ReferenceGraph.sharing? (g : ReferenceGraph) (ids : IdSet) : Option (EntryId × EntryId) :=
  ids.toList.findSome? fun holder =>
    let below := g.closure holder
    (ids.toList.find? fun other => other ≠ holder ∧ other ∈ below).map (holder, ·)

namespace Workspace

def missing? (w : Workspace L) (ids : List EntryId) : Option EntryId := ids.find? (· ∉ w)

def loop? (w : Workspace L) (ids : IdSet) : Option (List EntryId) :=
  match w.graph.findCycleWith w.nextId ids with
  | some cycle => some cycle
  | none =>
    match w.settings.policy with
    | .allowShared => none
    | .strict => (w.graph.sharing? ids).map fun (holder, reached) => [holder, reached]

def hasLoop (w : Workspace L) (ids : List EntryId) : Except Error Bool :=
  match w.missing? ids with
  | some id => .error (.unknownReference id)
  | none => .ok (w.loop? (.ofList ids)).isSome

def combine (w : Workspace L) (op : Combinator) (operands : List (Child L)) :
    Except Error (Compound L) :=
  let c : Compound L := ⟨op, operands⟩
  match w.missing? c.references with
  | some id => .error (.unknownReference id)
  | none => .ok c

/-- Adds an entry for `c`. A reference to the identifier that the entry would receive is a cycle,
any other has to be held. -/
def register (w : Workspace L) (c : Compound L) : Except Error (Entry L) × Workspace L :=
  match w.missing? (c.referenceSet.toList.filter (· ≠ w.nextId)) with
  | some id => (.error (.unknownReference id), w)
  | none =>
    match w.loop? c.referenceSet with
    | some ids => (.error (.cycle ids), w)
    | none =>
      let (e, w) := w.insert (.compound c)
      (.ok e, w)

def join (w : Workspace L) (op : Combinator) (operands : List (Child L)) :
    Except Error (Entry L) × Workspace L :=
  match w.combine op operands with
  | .error e => (.error e, w)
  | .ok c => w.register c

end Workspace
end FilterWorkspace
