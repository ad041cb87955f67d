import FilterWorkspace.Proofs.Graph.Reach
import Mathlib.Data.List.Nodup
import Mathlib.Order.Bounds.Defs

/-! What an identifier leads to, told by the routes that lead there. A route goes from edge to edge, and every
identifier on the way is one whose edges are recorded, so none goes on from a node that has been forgotten. -/

namespace FilterWorkspace.ReferenceGraph

variable {g : ReferenceGraph} {a b c : EntryId} {between : List EntryId}

def Route (g : ReferenceGraph) : EntryId → List EntryId → EntryId → Prop
  | a, [], b => g.Edge a b
  | a, c :: between, b => g.Edge a c ∧ Route g c between b

instance decidableRoute (g : ReferenceGraph) : ∀ a between b, Decidable (g.Route a between b)
  | a, [], b => inferInstanceAs (Decidable (g.Edge a b))
  | a, c :: between, b =>
    have := decidableRoute g c between b
    inferInstanceAs (Decidable (g.Edge a c ∧ g.Route c between b))

theorem route_append_cons {before after : List EntryId} :
    g.Route a (before ++ c :: after) b ↔ g.Route a before c ∧ g.Route c after b := by
  induction before generalizing a with
  | nil => exact Iff.rfl
  | cons d before ih => rw [List.cons_append, Route, ih, Route, and_assoc]

theorem transGen_iff_exists_route {p : EntryId → Prop} :
    Relation.TransGen (fun x y => p x ∧ g.Edge x y) a b ↔
      ∃ between, g.Route a between b ∧ ∀ x ∈ a :: between, p x := by
  constructor
  · intro h
    induction h using Relation.TransGen.head_induction_on with
    | single hab => exact ⟨[], hab.2, by simpa using hab.1⟩
    | @head a c hac _ ih =>
      obtain ⟨between, hroute, hall⟩ := ih
      exact ⟨c :: between, ⟨hac.2, hroute⟩, List.forall_mem_cons.2 ⟨hac.1, hall⟩⟩
  · rintro ⟨between, hroute, hall⟩
    induction between generalizing a with
    | nil => exact .single ⟨hall a List.mem_cons_self, hroute⟩
    | cons c between ih =>
      obtain ⟨ha, hall⟩ := List.forall_mem_cons.1 hall
      exact .head ⟨ha, hroute.1⟩ (ih hroute.2 hall)

theorem reaches_iff_exists_route : g.Reaches a b ↔ ∃ between, g.Route a between b := by
  have hedge : g.Edge = fun x y => True ∧ g.Edge x y := by simp
  rw [Reaches, hedge, transGen_iff_exists_route]
  simp

theorem mem_closure_iff_exists_route : b ∈ g.closure a ↔ ∃ between, g.Route a between b :=
  mem_closure_iff.trans reaches_iff_exists_route

theorem Route.mem_closure (h : g.Route a between b) {x : EntryId} (hx : x ∈ between) : x ∈ g.closure a := by
  obtain ⟨before, after, rfl⟩ := List.append_of_mem hx
  exact mem_closure_iff_exists_route.2 ⟨before, (route_append_cons.1 h).1⟩

theorem exists_nodup_route (h : g.Reaches a b) :
    ∃ between, g.Route a between b ∧ between.Nodup ∧ a ∉ between ∧ b ∉ between := by
  induction h using Relation.TransGen.head_induction_on with
  | single hab => exact ⟨[], hab, by simp⟩
  | @head a c hac _ ih =>
    obtain ⟨between, hroute, hnodup, hc, hb⟩ := ih
    by_cases hcb : c = b
    · exact ⟨[], hcb ▸ hac, by simp⟩
    have hlonger : (c :: between).Nodup := List.nodup_cons.2 ⟨hc, hnodup⟩
    have hend : b ∉ c :: between := by simp [hb, Ne.symm hcb]
    by_cases ha : a ∈ c :: between
    · -- The route comes back to `a`: what it did before can be left out.
      obtain ⟨before, after, heq⟩ := List.append_of_mem ha
      have hback : g.Route a (before ++ a :: after) b := heq ▸ ⟨hac, hroute⟩
      rw [heq] at hlonger hend
      obtain ⟨hfirst, hafter⟩ := List.nodup_cons.1 hlonger.of_append_right
      exact ⟨after, (route_append_cons.1 hback).2, hafter, hfirst, by simp_all⟩
    · exact ⟨c :: between, ⟨hac, hroute⟩, hlonger, ha, hend⟩

theorem reaches_erase_iff {id : EntryId} :
    (g.erase id).Reaches a b ↔ ∃ between, g.Route a between b ∧ id ∉ a :: between := by
  have hedge : (g.erase id).Edge = fun x y => id ≠ x ∧ g.Edge x y := by
    funext x y
    exact propext edge_erase
  rw [Reaches, hedge, transGen_iff_exists_route]
  refine exists_congr fun between => and_congr_right fun _ => ?_
  rw [List.forall_mem_ne]

theorem closure_of_references?_eq_none (h : g.references? a = none) : g.closure a = ∅ := by
  have hnil : g.successors a = [] := by rw [successors, h]
  rw [closure, hnil, collect]

def closedSets (g : ReferenceGraph) (root : EntryId) : Set (Set EntryId) :=
  {s | (∀ x, g.Edge root x → x ∈ s) ∧ ∀ x ∈ s, ∀ y, g.Edge x y → y ∈ s}

theorem isLeast_closure (g : ReferenceGraph) (root : EntryId) :
    IsLeast (g.closedSets root) {x | x ∈ g.closure root} := by
  refine ⟨⟨fun x hx => ?_, fun x hx y hxy => ?_⟩, fun s hs x hx => ?_⟩
  · exact mem_closure_iff.2 (.single hx)
  · exact mem_closure_iff.2 (.tail (mem_closure_iff.1 hx) hxy)
  · induction mem_closure_iff.1 hx with
    | single hab => exact hs.1 _ hab
    | tail hab hbc ih => exact hs.2 _ (ih (mem_closure_iff.2 hab)) _ hbc

theorem mem_closure_self_iff :
    a ∈ g.closure a ↔ ∃ between, g.Route a between a ∧ (a :: between).Nodup := by
  constructor
  · intro hmem
    obtain ⟨between, hroute, hnodup, ha, -⟩ := exists_nodup_route (mem_closure_iff.1 hmem)
    exact ⟨between, hroute, List.nodup_cons.2 ⟨ha, hnodup⟩⟩
  · exact fun ⟨between, hroute, _⟩ => mem_closure_iff_exists_route.2 ⟨between, hroute⟩

/-- The closure of `root` holds what the routes from `root` lead to, and so it is the least set that has the
direct targets of `root` and with each member the direct targets of that. It has `root` itself only where
`root` stands on a cycle. An identifier that is no node leads nowhere, and one that has been removed stays
where a route ends in it, but is on the way to nothing. -/
theorem closure_exact (g : ReferenceGraph) (root : EntryId) :
    (∀ x, x ∈ g.closure root ↔ ∃ between, g.Route root between x) ∧
      IsLeast (g.closedSets root) {x | x ∈ g.closure root} ∧
      (root ∈ g.closure root ↔ ∃ between, g.Route root between root ∧ (root :: between).Nodup) ∧
      (∀ x, g.references? x = none → g.closure x = ∅) ∧
      (∀ removed x, x ∈ (g.erase removed).closure root ↔
        ∃ between, g.Route root between x ∧ removed ∉ root :: between) ∧
      ∀ x ∈ g.closure root, ∀ y ∈ g.closure x, y ∈ g.closure root := by
  refine ⟨fun x => mem_closure_iff_exists_route, g.isLeast_closure root, mem_closure_self_iff,
    fun x hx => closure_of_references?_eq_none hx, fun removed x => ?_, fun x hx y hy => ?_⟩
  · exact mem_closure_iff.trans reaches_erase_iff
  · exact mem_closure_iff.2 ((mem_closure_iff.1 hx).trans (mem_closure_iff.1 hy))

theorem closure_exact_detour :
    let g : ReferenceGraph := (((empty.addEdge ⟨"x"⟩ ⟨"a"⟩).addEdge ⟨"a"⟩ ⟨"b"⟩).addEdge ⟨"b"⟩ ⟨"a"⟩).addEdge
      ⟨"b"⟩ ⟨"gone"⟩
    (⟨"b"⟩ : EntryId) ∈ g.closure ⟨"x"⟩ ∧ (⟨"gone"⟩ : EntryId) ∈ g.closure ⟨"b"⟩ ∧
      (⟨"gone"⟩ : EntryId) ∈ g.closure ⟨"x"⟩ ∧ g.references? ⟨"gone"⟩ = none ∧ g.closure ⟨"gone"⟩ = ∅ ∧
      (∃ between, g.Route ⟨"a"⟩ between ⟨"a"⟩ ∧ (⟨"a"⟩ :: between).Nodup) ∧
      ⟨"b"⟩ ∈ (g.erase ⟨"b"⟩).closure ⟨"x"⟩ ∧ (⟨"gone"⟩ : EntryId) ∉ (g.erase ⟨"b"⟩).closure ⟨"x"⟩ := by
  intro g
  have hb : (⟨"b"⟩ : EntryId) ∈ g.closure ⟨"x"⟩ := by decide +kernel
  have hgone : (⟨"gone"⟩ : EntryId) ∈ g.closure ⟨"b"⟩ := by decide +kernel
  have hleaf : g.references? ⟨"gone"⟩ = none := by decide +kernel
  obtain ⟨-, -, -, hempty, hremoved, htrans⟩ := g.closure_exact ⟨"x"⟩
  have hkept : (⟨"b"⟩ : EntryId) ∈ (g.erase ⟨"b"⟩).closure ⟨"x"⟩ :=
    (hremoved ⟨"b"⟩ ⟨"b"⟩).2 ⟨[⟨"a"⟩], by decide +kernel, by decide⟩
  exact ⟨hb, hgone, htrans _ hb _ hgone, hleaf, hempty _ hleaf,
    (g.closure_exact ⟨"a"⟩).2.2.1.1 (by decide +kernel), hkept, by decide +kernel⟩

end FilterWorkspace.ReferenceGraph
