import FilterWorkspace.Proofs.Graph.Route
import FilterWorkspace.Proofs.Workspace.Persistence

/-! What an identifier leads to can only become less. Calls record nothing more for what has been issued, and a
removal takes away the edges of the removed entry alone, so that what lies behind it is lost where no other
route leads there, while it stays itself at the end of the routes to it. -/

namespace FilterWorkspace.Workspace

variable {L : Type}

namespace Coherent

variable {w : Workspace L} (h : w.Coherent)
include h

theorem not_upcoming_of_edge {a b : EntryId} (hab : w.graph.Edge a b) : ¬ w.Upcoming a ∧ ¬ w.Upcoming b := by
  obtain ⟨i, j, rfl, rfl, hji, hi⟩ := h.descends hab
  exact ⟨not_upcoming_numbered hi, not_upcoming_numbered (hji.trans hi)⟩

theorem edge_after_iff {a b : EntryId} (ha : ¬ w.Upcoming a) (calls : List (Call L)) :
    (w.after calls).graph.Edge a b ↔ a ∉ removedIds (w.history calls) ∧ w.graph.Edge a b := by
  rw [(h.after calls).edge_iff, h.get?_after ha, h.edge_iff]
  split <;> simp [*]

theorem reaches_after_iff {a b : EntryId} (ha : ¬ w.Upcoming a) (calls : List (Call L)) :
    (w.after calls).graph.Reaches a b ↔
      ∃ between, w.graph.Route a between b ∧ ∀ x ∈ a :: between, x ∉ removedIds (w.history calls) := by
  rw [← ReferenceGraph.transGen_iff_exists_route]
  constructor
  · intro hab
    induction hab using Relation.TransGen.head_induction_on with
    | single hab => exact .single ((h.edge_after_iff ha calls).1 hab)
    | head hac _ ih =>
      have hedge := (h.edge_after_iff ha calls).1 hac
      exact .head hedge (ih (h.not_upcoming_of_edge hedge.2).2)
  · refine Relation.TransGen.mono (fun x y hxy => ?_) a b
    exact (h.edge_after_iff (h.not_upcoming_of_edge hxy.2).1 calls).2 hxy

theorem mem_closure_after_iff {id y : EntryId} (hid : id ∈ w) {calls : List (Call L)}
    (hkept : id ∈ w.after calls) : y ∈ (w.after calls).graph.closure id ↔
      ∃ between, w.graph.Route id between y ∧ ∀ x ∈ between, x ∉ removedIds (w.history calls) := by
  rw [ReferenceGraph.mem_closure_iff, h.reaches_after_iff (h.not_upcoming_of_mem hid)]
  refine exists_congr fun between => and_congr_right fun _ => ?_
  rw [List.forall_mem_cons, and_iff_right ((h.mem_after hid calls).1 hkept)]

end Coherent

/-- What an identifier leads to after some calls is what it led to before them by a route on which no
identifier in between has been removed. So it is never more than before, and no less where none of it
has been removed; and what an entry refers to itself stays in it, removed or not. -/
theorem allReferences_after {w : Workspace L} (hw : w.Reachable) {id : EntryId} (hid : id ∈ w)
    {calls : List (Call L)} (hkept : id ∈ w.after calls) :
    ∃ before now, w.allReferences id = .ok before ∧ (w.after calls).allReferences id = .ok now ∧
      (∀ y, y ∈ now ↔
        ∃ between, w.graph.Route id between y ∧ ∀ x ∈ between, x ∉ removedIds (w.history calls)) ∧
      (∀ y ∈ now, y ∈ before) ∧
      ((∀ x ∈ before, x ∉ removedIds (w.history calls)) → now = before) ∧
      ∀ e, (w.after calls).get? id = some e → ∀ x ∈ e.references, x ∈ now := by
  have hcoherent := hw.coherent
  have hmem {y : EntryId} := hcoherent.mem_closure_after_iff (y := y) hid hkept
  have hless (y : EntryId) (hy : y ∈ (w.after calls).graph.closure id) : y ∈ w.graph.closure id := by
    obtain ⟨between, hroute, -⟩ := hmem.1 hy
    exact ReferenceGraph.mem_closure_iff_exists_route.2 ⟨between, hroute⟩
  refine ⟨_, _, allReferences_of_mem hid, allReferences_of_mem hkept, fun y => hmem, hless,
    fun hnone => ?_, fun e he x hx => ?_⟩
  · refine Std.ExtTreeSet.ext_mem fun y => ⟨hless y, fun hy => hmem.2 ?_⟩
    obtain ⟨between, hroute⟩ := ReferenceGraph.mem_closure_iff_exists_route.1 hy
    exact ⟨between, hroute, fun x hx => hnone x (hroute.mem_closure hx)⟩
  · have hedge : (w.after calls).graph.Edge id x :=
      ⟨e.references, by rw [(hcoherent.after calls).graph, he, Option.map_some], hx⟩
    exact ReferenceGraph.mem_closure_iff.2 (.single hedge)

theorem allReferences_after_removal :
    let w : Workspace Nat := (create {} 0).after
      [.put 7, .join .not [.reference ⟨"_0"⟩], .join .or [.reference ⟨"_1"⟩, .leaf 8]]
    let calls : List (Call Nat) := [.join .and [.reference ⟨"_2"⟩, .reference ⟨"_0"⟩], .remove ⟨"_1"⟩, .put 9]
    w.Reachable ∧ ⟨"_2"⟩ ∈ w ∧ ⟨"_2"⟩ ∈ w.after calls ∧
      ∃ before now, w.allReferences ⟨"_2"⟩ = .ok before ∧ (w.after calls).allReferences ⟨"_2"⟩ = .ok now ∧
        ⟨"_1"⟩ ∈ now ∧ ⟨"_0"⟩ ∈ before ∧ (⟨"_0"⟩ : EntryId) ∉ now := by
  intro w calls
  have hw : w.Reachable := ⟨_, _, _, rfl⟩
  have hid : ⟨"_2"⟩ ∈ w := by decide +kernel
  have hkept : ⟨"_2"⟩ ∈ w.after calls := by decide +kernel
  obtain ⟨before, now, hbefore, hnow, hmem, -⟩ := allReferences_after hw hid hkept
  refine ⟨hw, hid, hkept, before, now, hbefore, hnow, (hmem _).2 ⟨[], by decide +kernel, by simp⟩, ?_, ?_⟩
  · rw [allReferences_of_mem hid] at hbefore
    obtain rfl := Except.ok.inj hbefore
    decide +kernel
  · rw [allReferences_of_mem hkept] at hnow
    obtain rfl := Except.ok.inj hnow
    decide +kernel

end FilterWorkspace.Workspace
