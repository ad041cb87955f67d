import FilterWorkspace.Proofs.Workspace.Prediction
import Mathlib.Data.List.Find

/-! A removal and a registration that does not refer to what is removed may change places. The one look that
a registration takes beyond its references is that of the strict policy, and a removal only takes away from
what is found there: a compound that was admitted stays so, while one that was refused for what leads
through the removed entry may be admitted afterwards. -/

namespace FilterWorkspace

variable {L : Type} {id : EntryId}

theorem IdMap.insert_erase {α : Type} (m : IdMap α) {other : EntryId} (h : id ≠ other) (value : α) :
    (m.erase id).insert other value = (m.insert other value).erase id := by
  apply Std.ExtTreeMap.ext_getElem?
  intro a
  simp only [Std.ExtTreeMap.getElem?_insert, Std.ExtTreeMap.getElem?_erase, Std.LawfulEqCmp.compare_eq_iff_eq]
  split
  next ha => rw [if_neg (ha ▸ h)]
  next => rfl

theorem IdMap.erase_eq_self {α : Type} {m : IdMap α} (h : m[id]? = none) : m.erase id = m := by
  apply Std.ExtTreeMap.ext_getElem?
  intro a
  simp only [Std.ExtTreeMap.getElem?_erase, Std.LawfulEqCmp.compare_eq_iff_eq]
  split
  next ha => exact ha ▸ h.symm
  next => rfl

theorem ReferenceGraph.shares_of_erase {g : ReferenceGraph} {ids : IdSet} {a b : EntryId}
    (hab : (g.erase id).Shares ids a b) : g.Shares ids a b := by
  have hedge (x y : EntryId) (hxy : (g.erase id).Edge x y) : g.Edge x y := (edge_erase.1 hxy).2
  exact hab.of_reaches (Relation.TransGen.mono hedge a b)

theorem ReferenceGraph.sharing?_erase {g : ReferenceGraph} {ids : IdSet} (h : g.sharing? ids = none) :
    (g.erase id).sharing? ids = none := by
  rw [← Option.not_isSome_iff_eq_none, isSome_sharing?]
  rintro ⟨a, b, hab⟩
  exact not_shares_of_sharing? h a b (shares_of_erase hab)

namespace Workspace

variable {w : Workspace L} {c : Compound L}

theorem insert_drop (h : id ≠ w.nextId) (payload : Payload L) :
    (w.drop id).insert payload = ((w.insert payload).1, (w.insert payload).2.drop id) := by
  have hentries := IdMap.insert_erase w.entries h (Entry.ofPayload w.nextId payload)
  have hedges := IdMap.insert_erase w.graph.edges h payload.references
  refine Prod.ext rfl ?_
  show Workspace.mk _ _ _ (ReferenceGraph.mk _) = Workspace.mk _ _ _ (ReferenceGraph.mk _)
  exact congr (congrArg _ hentries) (congrArg _ hedges)

theorem missing?_drop {ids : List EntryId} (h : id ∉ ids) : (w.drop id).missing? ids = w.missing? ids := by
  apply List.find?_congr
  intro a ha
  have hne : id ≠ a := fun heq => h (heq ▸ ha)
  have hmem : a ∈ w.drop id ↔ a ∈ w := mem_drop.trans (and_iff_right hne)
  rw [decide_eq_decide, hmem]

theorem register_drop (hid : id ∉ c.referenceSet) (hnext : id ≠ w.nextId)
    (hloop : (w.drop id).loop? c.referenceSet = w.loop? c.referenceSet) :
    (w.drop id).register c = ((w.register c).1, (w.register c).2.drop id) := by
  have hrest : id ∉ c.referenceSet.toList.filter (· ≠ w.nextId) := fun hmem =>
    hid (Std.ExtTreeSet.mem_toList.1 (List.mem_filter.1 hmem).1)
  have hmissing : (w.drop id).missing? (c.referenceSet.toList.filter (· ≠ (w.drop id).nextId)) =
      w.missing? (c.referenceSet.toList.filter (· ≠ w.nextId)) := missing?_drop hrest
  unfold register
  rw [hmissing, hloop, insert_drop hnext]
  cases w.missing? (c.referenceSet.toList.filter (· ≠ w.nextId)) with
  | some a => rfl
  | none => cases w.loop? c.referenceSet <;> rfl

theorem get?_register (hnext : id ≠ w.nextId) (c : Compound L) : (w.register c).2.get? id = w.get? id := by
  rcases w.register_cases c with ⟨e, heq⟩ | ⟨-, heq⟩
  · rw [heq]
  · rw [heq, get?_insert, if_neg hnext.symm]

namespace Coherent

variable (h : w.Coherent)
include h

theorem drop_of_notMem (hid : id ∉ w) : w.drop id = w := by
  have hget : w.get? id = none := notMem_iff_get?.1 hid
  have hnode : w.graph.references? id = none := by rw [h.graph, hget, Option.map_none]
  have hentries : w.entries.erase id = w.entries := IdMap.erase_eq_self hget
  have hedges : w.graph.edges.erase id = w.graph.edges := IdMap.erase_eq_self hnode
  rw [Workspace.drop, ReferenceGraph.erase, hentries, hedges]

theorem remove_eq (id : EntryId) : w.remove id = (w.get? id, w.drop id) := by
  unfold remove
  cases hget : w.get? id with
  | none => rw [h.drop_of_notMem (notMem_iff_get?.2 hget)]
  | some e => rfl

theorem after_register (c : Compound L) : (w.register c).2.Coherent :=
  h.step (w.step_perform (.register c))

theorem loop?_drop {ids : IdSet} (hfree : w.loop? ids = none ∨ w.settings.policy = .allowShared) :
    (w.drop id).loop? ids = w.loop? ids := by
  by_cases hnext : w.nextId ∈ ids
  · rw [h.loop?_of_mem hnext]
    exact (h.drop id).loop?_of_mem hnext
  · have hdrop := (h.drop id).loop?_of_notMem hnext
    have hloop := h.loop?_of_notMem hnext
    rw [hdrop, hloop]
    by_cases hstrict : w.settings.policy = .strict
    · have hnone : w.graph.sharing? ids = none := by
        rcases hfree with hnone | hshared
        · rw [hloop, if_pos hstrict] at hnone
          exact Option.map_eq_none_iff.1 hnone
        · rw [hstrict] at hshared
          cases hshared
      have herased : (w.drop id).graph.sharing? ids = none := ReferenceGraph.sharing?_erase hnone
      rw [herased, hnone]
      rfl
    · rw [if_neg hstrict, if_neg (show (w.drop id).settings.policy ≠ .strict from hstrict)]

end Coherent

/-- A removal and a registration that has no reference to what is removed come to the same in either order,
with the same two replies, if the registration succeeds or the policy does not look behind the references. So
under the strict policy too a removal is no reason to refuse what would have been registered before it. -/
theorem remove_register_comm {w : Workspace L} (hw : w.Reachable) {id : EntryId} {c : Compound L}
    (hid : id ∉ c.referenceSet) (hnext : id ≠ w.nextId) :
    ((∃ e, (w.register c).1 = .ok e) ∨ w.settings.policy = .allowShared →
      ∃ removal registration v, w.run [.remove id, .register c] = ([removal, registration], v) ∧
        w.run [.register c, .remove id] = ([registration, removal], v)) ∧
      (w.settings.policy = .strict → ∀ e, (w.register c).1 = .ok e →
        ((w.remove id).2.register c).1 = .ok e) := by
  have h := hw.coherent
  have hloop (e : Entry L) (he : (w.register c).1 = .ok e) : w.loop? c.referenceSet = none := by
    rcases w.register_cases c with ⟨_, heq⟩ | ⟨hadmits, -⟩
    · rw [heq] at he
      cases he
    · exact hadmits.loop?_eq_none
  have hregister (hfree : w.loop? c.referenceSet = none ∨ w.settings.policy = .allowShared) :
      (w.remove id).2.register c = ((w.register c).1, (w.register c).2.drop id) := by
    rw [h.remove_eq]
    exact register_drop hid hnext (h.loop?_drop hfree)
  refine ⟨fun hcase => ?_, fun _ e he => ?_⟩
  · have hfirst := hregister (hcase.imp_left fun ⟨e, he⟩ => hloop e he)
    have hlast : (w.register c).2.remove id = ((w.remove id).1, (w.register c).2.drop id) := by
      rw [(h.after_register c).remove_eq, get?_register hnext, h.remove_eq]
    refine ⟨.found (w.remove id).1, .ofExcept .entry (w.register c).1, (w.register c).2.drop id, ?_, ?_⟩
    · simp only [run, perform, hfirst]
    · simp only [run, perform, hlast]
  · rw [hregister (.inl (hloop e he))]
    exact he

theorem remove_register_comm_strict :
    let w : Workspace Nat := (create { policy := .strict } 0).after
      [.put 7, .join .not [.reference ⟨"_0"⟩], .join .not [.reference ⟨"_1"⟩], .put 8]
    let c : Compound Nat := ⟨.and, [.reference ⟨"_2"⟩, .reference ⟨"_3"⟩]⟩
    let d : Compound Nat := ⟨.or, [.reference ⟨"_2"⟩, .reference ⟨"_0"⟩]⟩
    w.Reachable ∧ ⟨"_1"⟩ ∉ c.referenceSet ∧ ⟨"_1"⟩ ≠ w.nextId ∧ w.settings.policy = .strict ∧
      (∃ removal registration v, w.run [.remove ⟨"_1"⟩, .register c] = ([removal, registration], v) ∧
        w.run [.register c, .remove ⟨"_1"⟩] = ([registration, removal], v)) ∧
      ((w.remove ⟨"_1"⟩).2.register c).1 = .ok (.ofPayload ⟨"_4"⟩ (.compound c)) ∧
      (w.register d).1 = .error (.cycle [⟨"_2"⟩, ⟨"_0"⟩]) ∧
      ((w.remove ⟨"_1"⟩).2.register d).1 = .ok (.ofPayload ⟨"_4"⟩ (.compound d)) := by
  intro w c d
  have hw : w.Reachable := ⟨_, _, _, rfl⟩
  have hid : ⟨"_1"⟩ ∉ c.referenceSet := by decide +kernel
  have hnext : (⟨"_1"⟩ : EntryId) ≠ w.nextId := by decide +kernel
  have hstrict : w.settings.policy = .strict := by decide +kernel
  have hok : (w.register c).1 = .ok (.ofPayload ⟨"_4"⟩ (.compound c)) := by decide +kernel
  obtain ⟨hsame, hkept⟩ := remove_register_comm hw hid hnext
  exact ⟨hw, hid, hnext, hstrict, hsame (.inl ⟨_, hok⟩), hkept hstrict _ hok, by decide +kernel,
    by decide +kernel⟩

end Workspace
end FilterWorkspace
