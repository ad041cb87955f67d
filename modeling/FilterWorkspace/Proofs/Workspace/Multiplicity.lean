import FilterWorkspace.Proofs.Workspace.Walk
import Mathlib.Algebra.BigOperators.Group.Finset.Basic
import Mathlib.Data.List.Forall2
import Mathlib.Data.Set.Card

/-! How often a leaf stands in a tree. Every chain of references that leads from an identifier to an
entry brings the leaves of that entry into the tree once, so each of them is counted as many times as
there are chains. The walk down the references comes to an entry once for every chain. -/

namespace FilterWorkspace

variable {L : Type}

def Payload.leaves (p : Payload L) : List L := p.children.filterMap Child.leaf?

theorem forall₂_of_mapM {ε α β : Type} {f : α → Except ε β} {xs : List α} {ys : List β}
    (h : xs.mapM f = .ok ys) : List.Forall₂ (fun x y => f x = .ok y) xs ys := by
  induction xs generalizing ys with
  | nil =>
    obtain rfl := Except.ok.inj h
    exact .nil
  | cons x xs ih =>
    rw [List.mapM_cons] at h
    cases hx : f x with
    | error e => simp [hx] at h
    | ok y =>
      cases hxs : xs.mapM f with
      | error e => simp [hx, hxs] at h
      | ok rest =>
        rw [hx, hxs] at h
        obtain rfl := Except.ok.inj h
        exact .cons hx (ih hxs)

theorem Child.perm_leaves_of_expand {ε : Type} {f : EntryId → Except ε (Tree L)}
    {content : List (Child L)} {trees : List (Tree L)}
    (h : List.Forall₂ (fun child t => child.expand f = .ok t) content trees) :
    ∃ below, List.Forall₂ (fun id t => f id = .ok t) (content.filterMap Child.reference?) below ∧
      (trees.flatMap Tree.leaves).Perm (content.filterMap Child.leaf? ++ below.flatMap Tree.leaves) := by
  induction h with
  | nil => exact ⟨[], .nil, .refl _⟩
  | @cons child t content trees hchild _ ih =>
    obtain ⟨below, hbelow, hperm⟩ := ih
    cases child with
    | leaf value =>
      obtain rfl := Except.ok.inj hchild
      exact ⟨below, hbelow, hperm.cons value⟩
    | reference id =>
      refine ⟨t :: below, .cons hchild hbelow, ?_⟩
      show (t.leaves ++ trees.flatMap Tree.leaves).Perm
        (content.filterMap Child.leaf? ++ (t.leaves ++ below.flatMap Tree.leaves))
      refine (hperm.append_left t.leaves).trans ?_
      rw [← List.append_assoc, ← List.append_assoc]
      exact List.perm_append_comm.append_right _

theorem Payload.perm_leaves_of_expand {ε : Type} {f : EntryId → Except ε (Tree L)} {p : Payload L}
    {t : Tree L} (h : p.expand f = .ok t) :
    ∃ below, List.Forall₂ (fun id t => f id = .ok t) p.sites below ∧
      t.leaves.Perm (p.leaves ++ below.flatMap Tree.leaves) := by
  cases p with
  | leaf value =>
    obtain rfl := Except.ok.inj h
    exact ⟨[], .nil, .refl _⟩
  | compound c =>
    cases hcontent : c.content.mapM (Child.expand f) with
    | error e => simp [expand, hcontent, Except.map] at h
    | ok trees =>
      rw [expand, hcontent] at h
      obtain rfl := Except.ok.inj h
      rw [Tree.leaves, Tree.leavesOfAll_eq]
      exact Child.perm_leaves_of_expand (forall₂_of_mapM hcontent)

namespace Workspace

def leavesAt (w : Workspace L) (id : EntryId) : List L :=
  match w.get? id with
  | none => []
  | some e => e.payload.leaves

def sitesAt (w : Workspace L) (id : EntryId) : List EntryId :=
  match w.get? id with
  | none => []
  | some e => e.payload.sites

/-- The end of the chain of references that leaves `id`, and each identifier after it, at the given
place among its references. -/
def follow? (w : Workspace L) : EntryId → List Nat → Option EntryId
  | id, [] => some id
  | id, place :: places => (w.sitesAt id)[place]?.bind fun next => w.follow? next places

/-- The chains of references from `a` to `b`, told by their places, so that two references to the same
identifier belong to two chains. -/
def chains (w : Workspace L) (a b : EntryId) : Set (List Nat) := {places | w.follow? a places = some b}

def chainsFrom (w : Workspace L) (ids : List EntryId) (b : EntryId) : Set (List Nat) :=
  {chain | ∃ place places, chain = place :: places ∧ ∃ a, ids[place]? = some a ∧ places ∈ w.chains a b}

theorem chainsFrom_nil (w : Workspace L) (b : EntryId) : w.chainsFrom [] b = ∅ := by
  simp [chainsFrom]

theorem chains_eq (w : Workspace L) (a b : EntryId) :
    w.chains a b = {places | places = [] ∧ a = b} ∪ w.chainsFrom (w.sitesAt a) b := by
  ext places
  cases places with
  | nil => simp [chains, chainsFrom, follow?]
  | cons place places => simp [chains, chainsFrom, follow?, Option.bind_eq_some_iff]

theorem encard_chains (w : Workspace L) (a b : EntryId) :
    (w.chains a b).encard = (if a = b then 1 else 0) + (w.chainsFrom (w.sitesAt a) b).encard := by
  have hdisjoint : Disjoint {places : List Nat | places = [] ∧ a = b} (w.chainsFrom (w.sitesAt a) b) := by
    rw [Set.disjoint_left]
    rintro _ ⟨rfl, -⟩ ⟨place, places, heq, -⟩
    cases heq
  rw [chains_eq, Set.encard_union_eq hdisjoint]
  congr 1
  split
  next heq => simp [heq]
  next hne => simp [hne]

theorem chainsFrom_cons (w : Workspace L) (a b : EntryId) (ids : List EntryId) :
    w.chainsFrom (a :: ids) b =
      List.cons 0 '' w.chains a b ∪ List.modifyHead (· + 1) '' w.chainsFrom ids b := by
  ext chain
  constructor
  · rintro ⟨_ | place, places, rfl, c, hc, hplaces⟩
    · obtain rfl := Option.some.inj hc
      exact .inl ⟨places, hplaces, rfl⟩
    · exact .inr ⟨place :: places, ⟨place, places, rfl, c, hc, hplaces⟩, rfl⟩
  · rintro (⟨places, hplaces, rfl⟩ | ⟨_, ⟨place, places, rfl, c, hc, hplaces⟩, rfl⟩)
    · exact ⟨0, places, rfl, a, rfl, hplaces⟩
    · exact ⟨place + 1, places, rfl, c, hc, hplaces⟩

theorem encard_chainsFrom_cons (w : Workspace L) (a b : EntryId) (ids : List EntryId) :
    (w.chainsFrom (a :: ids) b).encard = (w.chains a b).encard + (w.chainsFrom ids b).encard := by
  have hdisjoint : Disjoint (List.cons 0 '' w.chains a b)
      (List.modifyHead (· + 1) '' w.chainsFrom ids b) := by
    rw [Set.disjoint_left]
    rintro _ ⟨places, -, rfl⟩ ⟨_, ⟨place, places', rfl, -⟩, heq⟩
    cases heq
  have hshift : Function.Injective (List.modifyHead (· + 1) : List Nat → List Nat) := by
    rintro (_ | ⟨m, places⟩) (_ | ⟨n, places'⟩) heq <;> simp_all
  rw [chainsFrom_cons, Set.encard_union_eq hdisjoint, (List.cons_injective).encard_image,
    hshift.encard_image]

theorem encard_chainsFrom_append (w : Workspace L) (ids ids' : List EntryId) (b : EntryId) :
    (w.chainsFrom (ids ++ ids') b).encard = (w.chainsFrom ids b).encard + (w.chainsFrom ids' b).encard := by
  induction ids with
  | nil => simp [chainsFrom_nil]
  | cons a ids ih => rw [List.cons_append, encard_chainsFrom_cons, encard_chainsFrom_cons, ih, add_assoc]

/-- The walk comes to an identifier once for every chain that leads there. -/
theorem Walk.encard_chainsFrom {w : Workspace L} {ids visited : List EntryId} (h : w.Walk ids visited)
    (b : EntryId) : (w.chainsFrom ids b).encard = visited.count b := by
  -- Cardinals may be infinite here, so that finitely many chains need not be assumed beforehand.
  induction h with
  | done => simp [chainsFrom_nil]
  | @absent id ids visited hid rest ih =>
    have hsites : w.sitesAt id = [] := by rw [sitesAt, notMem_iff_get?.1 hid]
    rw [encard_chainsFrom_cons, encard_chains, hsites, chainsFrom_nil, ih, List.count_cons]
    split <;> simp_all [add_comm]
  | @held id ids visited e he rest ih =>
    have hsites : w.sitesAt id = e.payload.sites := by rw [sitesAt, he]
    rw [encard_chainsFrom_append] at ih
    rw [encard_chainsFrom_cons, encard_chains, hsites, add_assoc, ih, List.count_cons]
    split <;> simp_all [add_comm]

theorem Walk.encard_chains {w : Workspace L} {id : EntryId} {visited : List EntryId}
    (h : w.Walk [id] visited) (b : EntryId) : (w.chains id b).encard = visited.count b := by
  rw [← h.encard_chainsFrom, encard_chainsFrom_cons, chainsFrom_nil, Set.encard_empty, add_zero]

theorem Walk.finite_chains {w : Workspace L} {id : EntryId} {visited : List EntryId}
    (h : w.Walk [id] visited) (b : EntryId) : (w.chains id b).Finite :=
  Set.finite_of_encard_eq_coe (h.encard_chains b)

theorem Walk.ncard_chains {w : Workspace L} {id : EntryId} {visited : List EntryId}
    (h : w.Walk [id] visited) (b : EntryId) : (w.chains id b).ncard = visited.count b := by
  rw [Set.ncard_def, h.encard_chains, ENat.toNat_natCast]

namespace Coherent

variable {w : Workspace L} (hw : w.Coherent)
include hw

theorem perm_leaves_of_walk {ids visited : List EntryId} (h : w.Walk ids visited) {trees : List (Tree L)}
    (htrees : List.Forall₂ (fun id t => w.resolve id = .ok t) ids trees) :
    (trees.flatMap Tree.leaves).Perm (visited.flatMap w.leavesAt) := by
  induction h generalizing trees with
  | done =>
    cases htrees
    exact .refl _
  | absent hid =>
    cases htrees with
    | cons hresolve => exact absurd (mem_of_resolve_eq_ok hresolve) hid
  | @held id ids visited e he rest ih =>
    cases htrees with
    | @cons _ t _ trees hresolve htrees =>
      rw [hw.resolve_of_get? he] at hresolve
      obtain ⟨below, hbelow, hperm⟩ := Payload.perm_leaves_of_expand hresolve
      have hleaves : w.leavesAt id = e.payload.leaves := by rw [leavesAt, he]
      have hrest := ih (List.rel_append hbelow htrees)
      rw [List.flatMap_append] at hrest
      rw [List.flatMap_cons, List.flatMap_cons, hleaves]
      calc (t.leaves ++ trees.flatMap Tree.leaves).Perm
            (e.payload.leaves ++ below.flatMap Tree.leaves ++ trees.flatMap Tree.leaves) :=
            hperm.append_right _
        _ = e.payload.leaves ++ (below.flatMap Tree.leaves ++ trees.flatMap Tree.leaves) :=
            List.append_assoc ..
        List.Perm _ (e.payload.leaves ++ visited.flatMap w.leavesAt) := hrest.append_left _

end Coherent

theorem sum_map_eq_sum_count {visited : List EntryId} {ids : IdSet} (h : ∀ x, x ∈ visited ↔ x ∈ ids)
    (f : EntryId → Nat) :
    (visited.map f).sum = (ids.toList.map fun x => visited.count x * f x).sum := by
  have hnodup : ids.toList.Nodup :=
    Std.ExtTreeSet.ordered_toList.imp fun {a b} hlt heq => by simp [heq] at hlt
  have hsame : visited.toFinset = ids.toList.toFinset := by
    ext x
    rw [List.mem_toFinset, List.mem_toFinset, Std.ExtTreeSet.mem_toList, h]
  rw [Finset.sum_list_map_count, hsame, List.sum_toFinset _ hnodup]
  rfl

/-- The leaves of a tree, of any kind, are as many as the entries below it hold of that kind, each entry
counted once for every chain of references that leads to it. -/
theorem countP_leaves_resolve {w : Workspace L} (hw : w.Reachable) {id : EntryId} {t : Tree L}
    (ht : w.resolve id = .ok t) :
    ∃ below, w.allReferences id = .ok below ∧ (∀ x, (w.chains id x).Finite) ∧
      (∀ p : L → Bool, t.leaves.countP p =
        ((below.insert id).toList.map fun x => (w.chains id x).ncard * (w.leavesAt x).countP p).sum) ∧
      ∀ value, value ∈ t.leaves ↔ ∃ x ∈ below.insert id, value ∈ w.leavesAt x := by
  have hcoherent := hw.coherent
  obtain ⟨visited, hwalk⟩ := hcoherent.exists_walk id
  have hmem (x : EntryId) : x ∈ visited ↔ x ∈ (w.graph.closure id).insert id := by
    rw [hcoherent.mem_walk_singleton hwalk, Std.ExtTreeSet.mem_insert, Std.LawfulEqOrd.compare_eq_iff_eq,
      eq_comm]
  have hleaves : t.leaves.Perm (visited.flatMap w.leavesAt) := by
    simpa using hcoherent.perm_leaves_of_walk hwalk (.cons ht .nil)
  refine ⟨_, allReferences_of_mem (mem_of_resolve_eq_ok ht), hwalk.finite_chains, fun p => ?_, fun value => ?_⟩
  · rw [hleaves.countP_eq, List.countP_flatMap]
    simp only [hwalk.ncard_chains]
    exact sum_map_eq_sum_count hmem _
  · rw [hleaves.mem_iff, List.mem_flatMap]
    exact exists_congr fun x => and_congr_left fun _ => hmem x

theorem countP_leaves_resolve_shared :
    let w : Workspace Nat := (create {} 0).after
      [.put 7, .join .or [.reference ⟨"_0"⟩, .leaf 8, .reference ⟨"_0"⟩],
        .join .and [.reference ⟨"_1"⟩, .reference ⟨"_0"⟩, .leaf 7]]
    let t : Tree Nat := .compound .and [.compound .or [.leaf 7, .leaf 8, .leaf 7], .leaf 7, .leaf 7]
    w.Reachable ∧ w.resolve ⟨"_2"⟩ = .ok t ∧ ∃ below, w.allReferences ⟨"_2"⟩ = .ok below ∧
      4 = ((below.insert ⟨"_2"⟩).toList.map fun x =>
        (w.chains ⟨"_2"⟩ x).ncard * (w.leavesAt x).countP (· = 7)).sum := by
  intro w t
  have hw : w.Reachable := ⟨_, _, _, rfl⟩
  have ht : w.resolve ⟨"_2"⟩ = .ok t := by decide +kernel
  obtain ⟨below, hbelow, -, hcount, -⟩ := countP_leaves_resolve hw ht
  exact ⟨hw, ht, below, hbelow, hcount (· = 7)⟩

end Workspace
end FilterWorkspace
