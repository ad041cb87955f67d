import FilterWorkspace.Outcome
import FilterWorkspace.Proofs.Workspace.Coherent
import Mathlib.Data.Finset.Card

/-! The tree of an identifier is put together from the trees of what its entry refers to. The depth
that the expansion is given always suffices: no entry stands twice on a chain of references, so
the entries that a chain can still come to grow fewer with every reference followed. -/

namespace FilterWorkspace

variable {L : Type}

def failure? {ε α : Type} : Except ε α → Option ε
  | .ok _ => none
  | .error e => some e

theorem exists_ok_of_failure? {ε α : Type} {r : Except ε α} (h : failure? r = none) :
    ∃ a, r = .ok a := by
  cases r with
  | ok a => exact ⟨a, rfl⟩
  | error e => cases h

theorem eq_error_of_failure? {ε α : Type} {r : Except ε α} {e : ε} (h : failure? r = some e) :
    r = .error e := by
  cases r with
  | ok a => cases h
  | error _ => rw [Option.some.inj h]

section

variable {ε : Type} {f g : EntryId → Except ε (Tree L)}

theorem Child.mapM_expand_congr {content : List (Child L)}
    (h : ∀ id ∈ content.filterMap Child.reference?, f id = g id) :
    content.mapM (Child.expand f) = content.mapM (Child.expand g) := by
  induction content with
  | nil => rfl
  | cons child content ih =>
    rw [List.mapM_cons, List.mapM_cons, ih fun id hid => h id ?_]
    · cases child with
      | leaf value => rfl
      | reference id => rw [expand, expand, h id (by simp [reference?])]
    · rw [List.filterMap_cons]
      split
      · exact hid
      · exact List.mem_cons_of_mem _ hid

theorem Payload.expand_congr {p : Payload L} (h : ∀ id ∈ p.sites, f id = g id) :
    p.expand f = p.expand g := by
  cases p with
  | leaf value => rfl
  | compound c =>
    have hcontent : c.content.mapM (Child.expand f) = c.content.mapM (Child.expand g) :=
      Child.mapM_expand_congr h
    rw [expand, expand, hcontent]

theorem Child.failure?_mapM_expand (content : List (Child L)) :
    failure? (content.mapM (Child.expand f)) =
      (content.filterMap Child.reference?).findSome? fun id => failure? (f id) := by
  induction content with
  | nil => rfl
  | cons child content ih =>
    rw [List.mapM_cons]
    cases child with
    | leaf value =>
      show _ = (content.filterMap Child.reference?).findSome? _
      rw [← ih]
      cases content.mapM (Child.expand f) <;> rfl
    | reference id =>
      show _ = (id :: content.filterMap Child.reference?).findSome? _
      rw [List.findSome?_cons, ← ih]
      cases hid : f id with
      | error e => simp [expand, hid, failure?]
      | ok t =>
        cases content.mapM (Child.expand f) <;>
          simp [expand, hid, failure?]

theorem Payload.failure?_expand (p : Payload L) :
    failure? (p.expand f) = p.sites.findSome? fun id => failure? (f id) := by
  cases p with
  | leaf value => rfl
  | compound c =>
    have hcontent : failure? (c.content.mapM (Child.expand f)) =
        (compound c).sites.findSome? fun id => failure? (f id) := Child.failure?_mapM_expand c.content
    rw [← hcontent, expand]
    cases c.content.mapM (Child.expand f) <;> rfl

end

namespace Workspace

def ahead (w : Workspace L) (id : EntryId) : Finset EntryId :=
  w.entries.keys.toFinset.filter fun a => a = id ∨ a ∈ w.graph.closure id

theorem mem_ahead {w : Workspace L} {id a : EntryId} :
    a ∈ w.ahead id ↔ a ∈ w ∧ Relation.ReflTransGen w.graph.Edge id a := by
  rw [ahead, Finset.mem_filter, List.mem_toFinset, Std.ExtTreeMap.mem_keys, ReferenceGraph.reflTransGen_iff]
  rfl

theorem card_ahead_le (w : Workspace L) (id : EntryId) : (w.ahead id).card ≤ w.size := by
  calc (w.ahead id).card ≤ w.entries.keys.toFinset.card := Finset.card_filter_le _ _
    _ ≤ w.entries.keys.length := List.toFinset_card_le _
    _ = w.size := Std.ExtTreeMap.length_keys

namespace Coherent

variable {w : Workspace L}

theorem edge_iff (h : w.Coherent) {a b : EntryId} :
    w.graph.Edge a b ↔ ∃ e, w.get? a = some e ∧ b ∈ e.payload.sites := by
  unfold ReferenceGraph.Edge
  rw [h.graph]
  constructor
  · rintro ⟨targets, htargets, hb⟩
    obtain ⟨e, he, rfl⟩ := Option.map_eq_some_iff.1 htargets
    rw [h.references_eq he, Payload.mem_references] at hb
    exact ⟨e, he, hb⟩
  · rintro ⟨e, he, hb⟩
    rw [← Payload.mem_references, ← h.references_eq he] at hb
    exact ⟨e.references, by rw [he, Option.map_some], hb⟩

theorem mem_of_reaches (h : w.Coherent) {a b : EntryId} (hab : w.graph.Reaches a b) : a ∈ w := by
  obtain ⟨c, hedge, -⟩ := Relation.TransGen.head'_iff.1 hab
  obtain ⟨e, he, -⟩ := h.edge_iff.1 hedge
  exact mem_iff_get?.2 ⟨e, he⟩

theorem card_ahead_lt (h : w.Coherent) {a b : EntryId} (hab : w.graph.Edge a b) :
    (w.ahead b).card < (w.ahead a).card := by
  -- All that is ahead of `b` is ahead of `a`, and `a` itself is not ahead of `b`.
  have ha : a ∈ w.ahead a := mem_ahead.2 ⟨h.mem_of_reaches (.single hab), .refl⟩
  have hnot : a ∉ w.ahead b := fun hmem => h.acyclic a (.head' hab (mem_ahead.1 hmem).2)
  refine Finset.card_lt_card ⟨fun c hc => ?_, fun hsub => hnot (hsub ha)⟩
  obtain ⟨hheld, hbc⟩ := mem_ahead.1 hc
  exact mem_ahead.2 ⟨hheld, .head hab hbc⟩

/-- What holds of an identifier whenever it holds of all that its entry refers to holds of all
identifiers. -/
theorem reference_induction (h : w.Coherent) {motive : EntryId → Prop}
    (step : ∀ a, (∀ b, w.graph.Edge a b → motive b) → motive a) (id : EntryId) : motive id := by
  induction hcard : (w.ahead id).card using Nat.strong_induction_on generalizing id with
  | _ n ih =>
    subst hcard
    exact step id fun b hab => ih _ (h.card_ahead_lt hab) b rfl

/-- Any depth beyond the number of entries ahead gives the same answer. -/
theorem resolveWithin_eq (h : w.Coherent) {m n : Nat} {id : EntryId} (hm : (w.ahead id).card < m)
    (hn : (w.ahead id).card < n) : w.resolveWithin m id = w.resolveWithin n id := by
  induction id using h.reference_induction generalizing m n with
  | step id ih =>
    obtain ⟨m, rfl⟩ := Nat.exists_eq_succ_of_ne_zero (Nat.ne_zero_of_lt hm)
    obtain ⟨n, rfl⟩ := Nat.exists_eq_succ_of_ne_zero (Nat.ne_zero_of_lt hn)
    cases he : w.entries[id]? with
    | none => simp only [resolveWithin, he]
    | some e =>
      simp only [resolveWithin, he]
      refine Payload.expand_congr fun b hb => ?_
      have hedge : w.graph.Edge id b := h.edge_iff.2 ⟨e, he, hb⟩
      have hlt := h.card_ahead_lt hedge
      exact ih b hedge (by omega) (by omega)

theorem resolve_of_get? (h : w.Coherent) {id : EntryId} {e : Entry L} (he : w.get? id = some e) :
    w.resolve id = e.payload.expand w.resolve := by
  have hentry : w.entries[id]? = some e := he
  rw [resolve, resolveWithin, hentry]
  refine Payload.expand_congr fun b hb => ?_
  have hlt := h.card_ahead_lt (h.edge_iff.2 ⟨e, he, hb⟩)
  have hle := w.card_ahead_le id
  exact h.resolveWithin_eq (by omega) (by omega)

/-- The tree of an identifier depends only on the entries that it leads to. -/
theorem resolve_congr {v : Workspace L} (h : w.Coherent) (hv : v.Coherent) {id : EntryId}
    (heq : ∀ a, Relation.ReflTransGen w.graph.Edge id a → v.get? a = w.get? a) :
    v.resolve id = w.resolve id := by
  induction id using h.reference_induction with
  | step id ih =>
    have hid : v.get? id = w.get? id := heq id .refl
    cases he : w.get? id with
    | none =>
      rw [resolve_of_notMem (notMem_iff_get?.2 he),
        resolve_of_notMem (notMem_iff_get?.2 (hid.trans he))]
    | some e =>
      rw [h.resolve_of_get? he, hv.resolve_of_get? (hid.trans he)]
      refine Payload.expand_congr fun b hb => ?_
      have hedge : w.graph.Edge id b := h.edge_iff.2 ⟨e, he, hb⟩
      exact ih b hedge fun a ha => heq a (.head hedge ha)

end Coherent

end Workspace
end FilterWorkspace
