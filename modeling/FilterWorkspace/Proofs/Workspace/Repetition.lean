import FilterWorkspace.Proofs.Workspace.Postponement
import FilterWorkspace.Proofs.Workspace.Unfolding

/-! What was registered once may be registered again. The references of an entry stay apart, so they
close no loop as long as they are held, and the new entry says the same as the old one. -/

namespace FilterWorkspace

variable {L : Type}

theorem ReferenceGraph.closure_congr {g : ReferenceGraph} {a b : EntryId}
    (h : g.references? a = g.references? b) : g.closure a = g.closure b := by
  rw [closure, closure, successors, successors, h]

namespace Workspace.Coherent

variable {w : Workspace L} (h : w.Coherent)
include h

section

variable {a b : EntryId} {e f : Entry L} (ha : w.get? a = some e) (hb : w.get? b = some f)
  (hpayload : e.payload = f.payload)
include ha hb hpayload

theorem resolve_of_payload_eq : w.resolve a = w.resolve b := by
  rw [h.resolve_of_get? ha, h.resolve_of_get? hb, hpayload]

theorem allReferences_of_payload_eq : w.allReferences a = w.allReferences b := by
  have hreferences : w.graph.references? a = w.graph.references? b := by
    rw [h.graph, h.graph, ha, hb, Option.map_some, Option.map_some, h.references_eq ha,
      h.references_eq hb, hpayload]
  rw [allReferences_of_mem (mem_iff_get?.2 ⟨e, ha⟩), allReferences_of_mem (mem_iff_get?.2 ⟨f, hb⟩),
    ReferenceGraph.closure_congr hreferences]

end

theorem not_upcoming_of_mem_references {id r : EntryId} {e : Entry L} (he : w.get? id = some e)
    (hr : r ∈ e.references) : ¬ w.Upcoming r := by
  have hedge : w.graph.Edge id r := ⟨e.references, by rw [h.graph, he, Option.map_some], hr⟩
  exact (h.not_upcoming_of_edge hedge).2

theorem loop?_references_after (hseparated : w.settings.policy = .strict → w.Separated) {id : EntryId}
    {e : Entry L} (he : w.get? id = some e) {calls : List (Call L)}
    (hheld : ∀ r ∈ e.references, r ∈ w.after calls) : (w.after calls).loop? e.references = none := by
  rw [← Option.not_isSome_iff_eq_none, (h.after calls).isSome_loop? hheld, settings_after]
  rintro ⟨hstrict, a, b, ha, hb, hne, hbelow⟩
  have hissued : ¬ w.Upcoming a := h.not_upcoming_of_mem_references he ha
  rw [ReferenceGraph.mem_closure_iff] at hbelow
  have hbefore : b ∈ w.graph.closure a :=
    ReferenceGraph.mem_closure_iff.2 (h.reaches_of_after hissued hbelow)
  exact hseparated hstrict id e he a b ⟨ha, hb, hne, hbefore⟩

end Workspace.Coherent

namespace Workspace

/-- A compound that is held, or was held before some calls, is registered again as soon as its references
are held. The new entry refers to what the old one refers to; while both are there they have the same
tree, or fail alike, and lead to the same identifiers. -/
theorem register_again {w : Workspace L} (hw : w.Reachable) {id : EntryId} {e : Entry L} {c : Compound L}
    (he : w.get? id = some e) (hc : e.payload = .compound c) (calls : List (Call L))
    (hheld : ∀ r ∈ c.references, r ∈ w.after calls) :
    ∃ n v, (w.after calls).register c = (.ok n, v) ∧ n.id ∉ w.after calls ∧ v.get? n.id = some n ∧
      n.payload = e.payload ∧ n.references = e.references ∧
      (e.id ∈ w.after calls →
        v.resolve n.id = v.resolve e.id ∧ v.allReferences n.id = v.allReferences e.id) := by
  have hcoherent := hw.coherent
  have hafter := hcoherent.after calls
  have hreferences : e.references = c.referenceSet := by
    rw [hcoherent.references_eq he, hc]
    rfl
  have hset : ∀ r ∈ c.referenceSet, r ∈ w.after calls := fun r hr =>
    hheld r (Compound.mem_referenceSet.1 hr)
  have hloop : (w.after calls).loop? c.referenceSet = none := by
    rw [← hreferences]
    exact hcoherent.loop?_references_after hw.separated he (hreferences ▸ hset)
  have hregister := register_of_hasLoop (hasLoop_eq_false_iff.2 ⟨hheld, hloop⟩)
  have hnew : ((w.after calls).insert (.compound c)).2.get? (w.after calls).nextId =
      some (.ofPayload (w.after calls).nextId (.compound c)) := by
    rw [get?_insert, if_pos rfl]
  refine ⟨_, _, hregister, hafter.nextId_notMem, hnew, hc.symm, hreferences.symm, fun hid => ?_⟩
  have hold : ((w.after calls).insert (.compound c)).2.get? e.id = some e := by
    rw [hcoherent.id_eq he] at hid ⊢
    have hne : (w.after calls).nextId ≠ id := fun heq => hafter.nextId_notMem (heq.symm ▸ hid)
    rw [get?_insert, if_neg hne, hcoherent.get?_after_of_mem (mem_iff_get?.2 ⟨e, he⟩) hid, he]
  have hboth : ((w.after calls).insert (.compound c)).2.Coherent :=
    hafter.insert fun {r} hr => hset r hr
  exact ⟨hboth.resolve_of_payload_eq hnew hold hc.symm,
    hboth.allReferences_of_payload_eq hnew hold hc.symm⟩

theorem register_again_strict :
    let w : Workspace Nat := (create { policy := .strict } 0).after
      [.put 7, .join .not [.reference ⟨"_0"⟩], .put 8,
        .join .and [.reference ⟨"_1"⟩, .leaf 9, .reference ⟨"_2"⟩]]
    let c : Compound Nat := ⟨.and, [.reference ⟨"_1"⟩, .leaf 9, .reference ⟨"_2"⟩]⟩
    let calls : List (Call Nat) := [.join .or [.reference ⟨"_3"⟩], .remove ⟨"_0"⟩]
    w.Reachable ∧ w.get? ⟨"_3"⟩ = some (.ofPayload ⟨"_3"⟩ (.compound c)) ∧
      (∀ r ∈ c.references, r ∈ w.after calls) ∧ ⟨"_3"⟩ ∈ w.after calls ∧
      ∃ n v, (w.after calls).register c = (.ok n, v) ∧ v.resolve n.id = v.resolve ⟨"_3"⟩ ∧
        v.allReferences n.id = v.allReferences ⟨"_3"⟩ := by
  intro w c calls
  have hw : w.Reachable := ⟨_, _, _, rfl⟩
  have he : w.get? ⟨"_3"⟩ = some (.ofPayload ⟨"_3"⟩ (.compound c)) := by decide +kernel
  have hheld : ∀ r ∈ c.references, r ∈ w.after calls := by decide +kernel
  have hid : ⟨"_3"⟩ ∈ w.after calls := by decide +kernel
  obtain ⟨n, v, hregister, -, -, -, -, hsame⟩ := register_again hw he rfl calls hheld
  exact ⟨hw, he, hheld, hid, n, v, hregister, hsame hid⟩

end Workspace
end FilterWorkspace
