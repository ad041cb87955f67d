import FilterWorkspace.Proofs.EntryId.First
import FilterWorkspace.Proofs.Workspace.Coherent

/-! Which compounds are registered, and why the others are refused. A reference that is not held
comes first, then a reference to the identifier that the entry would receive, then, under the strict
policy, a reference that leads to another one. Nothing else is ever reported as a cycle, since the
references of the entries held close none. -/

namespace FilterWorkspace

variable {L : Type}

namespace ReferenceGraph

def Shares (g : ReferenceGraph) (ids : IdSet) (a b : EntryId) : Prop :=
  a ∈ ids ∧ b ∈ ids ∧ b ≠ a ∧ b ∈ g.closure a

theorem Shares.of_reaches {g g' : ReferenceGraph} {ids : IdSet} {a b : EntryId} (h : g.Shares ids a b)
    (hreach : g.Reaches a b → g'.Reaches a b) : g'.Shares ids a b := by
  obtain ⟨ha, hb, hne, hbelow⟩ := h
  exact ⟨ha, hb, hne, mem_closure_iff.2 (hreach (mem_closure_iff.1 hbelow))⟩

theorem isFirst_of_sharing? {g : ReferenceGraph} {ids : IdSet} {a b : EntryId}
    (h : g.sharing? ids = some (a, b)) :
    EntryId.IsFirst (fun a => ∃ b, g.Shares ids a b) a ∧ EntryId.IsFirst (g.Shares ids a) b := by
  obtain ⟨holder, hfound, hholder⟩ := EntryId.isFirst_of_findSome? h
  obtain ⟨reached, hreached, heq⟩ := Option.map_eq_some_iff.1 hfound
  obtain ⟨rfl, rfl⟩ := Prod.mk.inj heq
  refine ⟨hholder.congr fun id => ?_, (EntryId.isFirst_of_find? hreached).congr fun id => ?_⟩
  · simp only [Option.isSome_map, List.find?_isSome, Std.ExtTreeSet.mem_toList, decide_eq_true_eq]
    exact ⟨fun ⟨hid, b, hb⟩ => ⟨b, hid, hb⟩, fun ⟨b, hid, hb⟩ => ⟨hid, b, hb⟩⟩
  · rw [decide_eq_true_eq]
    exact ⟨fun hid => ⟨hholder.1.1, hid⟩, fun hid => hid.2⟩

theorem not_shares_of_sharing? {g : ReferenceGraph} {ids : IdSet} (h : g.sharing? ids = none)
    (a b : EntryId) : ¬ g.Shares ids a b := by
  rintro ⟨ha, hb, hne, hbelow⟩
  have hnone := List.findSome?_eq_none_iff.1 h a (Std.ExtTreeSet.mem_toList.2 ha)
  rw [Option.map_eq_none_iff, List.find?_eq_none] at hnone
  exact hnone b (Std.ExtTreeSet.mem_toList.2 hb) (decide_eq_true ⟨hne, hbelow⟩)

end ReferenceGraph

namespace Workspace

def Lacks (w : Workspace L) (c : Compound L) (id : EntryId) : Prop :=
  id ∈ c.referenceSet ∧ id ≠ w.nextId ∧ id ∉ w

/-- The compound `c` refers to `a` and to `b`, and `b` is among all that `a` refers to. -/
def Shares (w : Workspace L) (c : Compound L) (a b : EntryId) : Prop :=
  a ∈ c.referenceSet ∧ b ∈ c.referenceSet ∧ b ≠ a ∧ ∃ below, w.allReferences a = .ok below ∧ b ∈ below

/-- When `w` registers the compound `c`, and for which reason it is refused otherwise. -/
structure Decides (w : Workspace L) (c : Compound L) : Prop where
  lacking : (∃ id, w.Lacks c id) → ∃ id, EntryId.IsFirst (w.Lacks c) id ∧
    w.register c = (.error (.unknownReference id), w)
  selfReference : (∀ id, ¬ w.Lacks c id) → w.nextId ∈ c.referenceSet →
    w.register c = (.error (.cycle [w.nextId, w.nextId]), w)
  sharing : (∀ id, ¬ w.Lacks c id) → w.nextId ∉ c.referenceSet → w.settings.policy = .strict →
    (∃ a b, w.Shares c a b) → ∃ a b, EntryId.IsFirst (fun a => ∃ b, w.Shares c a b) a ∧
      EntryId.IsFirst (w.Shares c a) b ∧ w.register c = (.error (.cycle [a, b]), w)
  accepted : (∀ id, ¬ w.Lacks c id) → w.nextId ∉ c.referenceSet →
    (w.settings.policy = .strict → ∀ a b, ¬ w.Shares c a b) →
    w.nextId ∉ w ∧ w.graph.references? w.nextId = none ∧
    w.register c = (.ok ⟨w.nextId, .compound c, c.referenceSet⟩,
      { settings := w.settings
        ids := ⟨w.ids.space, w.ids.issued + 1⟩
        entries := w.entries.insert w.nextId ⟨w.nextId, .compound c, c.referenceSet⟩
        graph := w.graph.insert w.nextId c.referenceSet })
  allowShared : w.settings.policy = .allowShared → ∀ ids, (w.register c).1 = .error (.cycle ids) →
    ids = [w.nextId, w.nextId]

theorem isFirst_of_missing? {w : Workspace L} {c : Compound L} {id : EntryId}
    (h : w.missing? (c.referenceSet.toList.filter (· ≠ w.nextId)) = some id) :
    EntryId.IsFirst (w.Lacks c) id := by
  rw [missing?, List.find?_filter] at h
  exact (EntryId.isFirst_of_find? h).congr fun _ => by simp [Lacks]

theorem not_lacks_of_missing? {w : Workspace L} {c : Compound L}
    (h : w.missing? (c.referenceSet.toList.filter (· ≠ w.nextId)) = none) (id : EntryId) :
    ¬ w.Lacks c id := by
  rintro ⟨hid, hne, hmem⟩
  exact hmem (missing?_eq_none.1 h id (by simp [hid, hne]))

theorem shares_iff {w : Workspace L} {c : Compound L} (hlacks : ∀ id, ¬ w.Lacks c id)
    (hnext : w.nextId ∉ c.referenceSet) {a b : EntryId} :
    w.Shares c a b ↔ w.graph.Shares c.referenceSet a b := by
  unfold Shares ReferenceGraph.Shares
  refine and_congr_right fun ha => ?_
  have hheld : a ∈ w := by
    by_contra hmem
    exact hlacks a ⟨ha, fun heq => hnext (heq ▸ ha), hmem⟩
  simp [allReferences_of_mem hheld]

theorem Coherent.loop?_of_mem {w : Workspace L} (h : w.Coherent) {ids : IdSet}
    (hnext : w.nextId ∈ ids) : w.loop? ids = some [w.nextId, w.nextId] := by
  rw [loop?, ReferenceGraph.findCycleWith_fresh h.not_edge_nextId h.acyclic, if_pos hnext]

theorem Coherent.loop?_of_notMem {w : Workspace L} (h : w.Coherent) {ids : IdSet}
    (hnext : w.nextId ∉ ids) : w.loop? ids =
      if w.settings.policy = .strict then (w.graph.sharing? ids).map fun (a, b) => [a, b] else none := by
  rw [loop?, ReferenceGraph.findCycleWith_fresh h.not_edge_nextId h.acyclic, if_neg hnext]
  cases w.settings.policy <;> rfl

section

variable {w : Workspace L} {c : Compound L}

theorem decides_of_missing? {id : EntryId}
    (h : w.missing? (c.referenceSet.toList.filter (· ≠ w.nextId)) = some id) : w.Decides c := by
  have hfirst := isFirst_of_missing? h
  have hregister : w.register c = (.error (.unknownReference id), w) := by simp only [register, h]
  constructor
  case lacking => exact fun _ => ⟨id, hfirst, hregister⟩
  case allowShared => simp [hregister]
  all_goals exact fun hlacks => absurd hfirst.1 (hlacks id)

variable (hw : w.Coherent)
  (hmissing : w.missing? (c.referenceSet.toList.filter (· ≠ w.nextId)) = none)
include hw hmissing

theorem decides_of_nextId_mem (hnext : w.nextId ∈ c.referenceSet) : w.Decides c := by
  have hregister : w.register c = (.error (.cycle [w.nextId, w.nextId]), w) := by
    simp only [register, hmissing, hw.loop?_of_mem hnext]
  constructor
  case lacking => exact fun ⟨id, hid⟩ => absurd hid (not_lacks_of_missing? hmissing id)
  case selfReference => exact fun _ _ => hregister
  case allowShared => simp [hregister, eq_comm]
  all_goals exact fun _ hne => absurd hnext hne

theorem decides_of_sharing? (hnext : w.nextId ∉ c.referenceSet) (hpolicy : w.settings.policy = .strict)
    {a b : EntryId} (hsharing : w.graph.sharing? c.referenceSet = some (a, b)) : w.Decides c := by
  have hlacks := not_lacks_of_missing? hmissing
  have hregister : w.register c = (.error (.cycle [a, b]), w) := by
    simp only [register, hmissing, hw.loop?_of_notMem hnext, if_pos hpolicy, hsharing, Option.map_some]
  obtain ⟨ha, hb⟩ := ReferenceGraph.isFirst_of_sharing? hsharing
  have hshares (id : EntryId) : (∃ b, w.graph.Shares c.referenceSet id b) ↔ ∃ b, w.Shares c id b :=
    exists_congr fun _ => (shares_iff hlacks hnext).symm
  constructor
  case lacking => exact fun ⟨id, hid⟩ => absurd hid (hlacks id)
  case selfReference => exact fun _ hmem => absurd hmem hnext
  case sharing =>
    exact fun _ _ _ _ =>
      ⟨a, b, ha.congr hshares, hb.congr fun _ => (shares_iff hlacks hnext).symm, hregister⟩
  case accepted =>
    intro _ _ hnone
    obtain ⟨b, hab⟩ := (hshares a).1 ha.1
    exact absurd hab (hnone hpolicy a b)
  case allowShared => simp [hpolicy]

theorem decides_of_loop?_eq_none (hnext : w.nextId ∉ c.referenceSet)
    (hloop : w.loop? c.referenceSet = none) : w.Decides c := by
  have hlacks := not_lacks_of_missing? hmissing
  have hregister : w.register c = (.ok (w.insert (.compound c)).1, (w.insert (.compound c)).2) := by
    simp only [register, hmissing, hloop]
  constructor
  case lacking => exact fun ⟨id, hid⟩ => absurd hid (hlacks id)
  case selfReference => exact fun _ hmem => absurd hmem hnext
  case sharing =>
    intro _ _ hpolicy ⟨a, b, hab⟩
    rw [hw.loop?_of_notMem hnext, if_pos hpolicy, Option.map_eq_none_iff] at hloop
    exact absurd ((shares_iff hlacks hnext).1 hab) (ReferenceGraph.not_shares_of_sharing? hloop a b)
  case accepted =>
    intro _ _ _
    refine ⟨hw.nextId_notMem, ?_, hregister⟩
    rw [hw.graph, notMem_iff_get?.1 hw.nextId_notMem, Option.map_none]
  case allowShared => simp [hregister]

end

theorem register_decides {w : Workspace L} (hw : w.Reachable) (c : Compound L) : w.Decides c := by
  have hcoherent := hw.coherent
  cases hmissing : w.missing? (c.referenceSet.toList.filter (· ≠ w.nextId)) with
  | some id => exact decides_of_missing? hmissing
  | none =>
    by_cases hnext : w.nextId ∈ c.referenceSet
    · exact decides_of_nextId_mem hcoherent hmissing hnext
    · cases hloop : w.loop? c.referenceSet with
      | none => exact decides_of_loop?_eq_none hcoherent hmissing hnext hloop
      | some ids =>
        rw [hcoherent.loop?_of_notMem hnext] at hloop
        split at hloop
        next hpolicy =>
          obtain ⟨⟨a, b⟩, hsharing, -⟩ := Option.map_eq_some_iff.1 hloop
          exact decides_of_sharing? hcoherent hmissing hnext hpolicy hsharing
        · cases hloop

theorem register_decides_shared :
    let w : Workspace Nat :=
      (create { policy := .strict } 0).after [.put 7, .join .not [.reference ⟨"_0"⟩]]
    let c : Compound Nat := ⟨.and, [.reference ⟨"_0"⟩, .reference ⟨"_1"⟩]⟩
    w.Reachable ∧ w.Decides c ∧ (w.register c).1 = .error (.cycle [⟨"_1"⟩, ⟨"_0"⟩]) := by
  intro w c
  have hw : w.Reachable := ⟨_, _, _, rfl⟩
  exact ⟨hw, register_decides hw c, by decide +kernel⟩

end Workspace
end FilterWorkspace
