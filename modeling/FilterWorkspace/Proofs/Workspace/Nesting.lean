import FilterWorkspace.Proofs.Workspace.Multiplicity
import FilterWorkspace.Workspace.Resolving

/-! Resolving comes to an end. References go down to entries that were made earlier, so no call under way is made
once more below itself, and neither the calls that wait for one another nor the levels of the tree that they
build are more than the entries that can be come to. -/

namespace FilterWorkspace

variable {L : Type}

theorem Child.depthOfAll_le {ε : Type} {f : EntryId → Except ε (Tree L)} {content : List (Child L)}
    {trees : List (Tree L)} {n : Nat}
    (h : List.Forall₂ (fun child t => child.expand f = .ok t) content trees) (hn : 1 ≤ n)
    (hbelow : ∀ id ∈ content.filterMap Child.reference?, ∀ t, f id = .ok t → t.depth ≤ n) :
    Tree.depthOfAll trees ≤ n := by
  induction h with
  | nil => exact Nat.zero_le n
  | @cons child t content trees hchild _ ih =>
    rw [Tree.depthOfAll, Nat.max_le]
    cases child with
    | leaf value =>
      obtain rfl := Except.ok.inj hchild
      exact ⟨hn, ih hbelow⟩
    | reference id =>
      have hbelow : ∀ a ∈ id :: content.filterMap Child.reference?, ∀ t, f a = .ok t → t.depth ≤ n := hbelow
      exact ⟨hbelow id List.mem_cons_self t hchild, ih fun a ha => hbelow a (List.mem_cons_of_mem _ ha)⟩

theorem Payload.depth_le_of_expand {ε : Type} {f : EntryId → Except ε (Tree L)} {p : Payload L} {t : Tree L}
    {n : Nat} (h : p.expand f = .ok t) (hn : 1 ≤ n) (hbelow : ∀ id ∈ p.sites, ∀ t, f id = .ok t → t.depth ≤ n) :
    t.depth ≤ n + 1 := by
  cases p with
  | leaf value =>
    obtain rfl := Except.ok.inj h
    exact Nat.le_add_left 1 n
  | compound c =>
    cases hcontent : c.content.mapM (Child.expand f) with
    | error e => simp [expand, hcontent, Except.map] at h
    | ok trees =>
      rw [expand, hcontent] at h
      obtain rfl := Except.ok.inj h
      have hdepth : Tree.depthOfAll trees ≤ n := Child.depthOfAll_le (forall₂_of_mapM hcontent) hn hbelow
      rw [Tree.depth]
      omega

namespace Workspace

inductive Nested (w : Workspace L) (root : EntryId) : List EntryId → Prop
  | none : Nested w root []
  | first : Nested w root [root]
  | next {a b : EntryId} {ids : List EntryId} (h : Nested w root (a :: ids)) (hab : w.graph.Edge a b) :
      Nested w root (b :: a :: ids)

namespace Nested

variable {w : Workspace L} {root a : EntryId} {ids : List EntryId}

theorem tail (h : w.Nested root (a :: ids)) : w.Nested root ids := by
  cases h with
  | first => exact .none
  | next h => exact h

theorem getLast? (h : w.Nested root (a :: ids)) : (a :: ids).getLast? = some root := by
  generalize hcalls : a :: ids = calls at h
  induction h generalizing a ids with
  | none => cases hcalls
  | first => rfl
  | next h hab ih =>
    obtain ⟨rfl, rfl⟩ := List.cons.inj hcalls
    rw [List.getLast?_cons_cons]
    exact ih rfl

theorem pairwise (h : w.Nested root ids) : ids.Pairwise fun b a => w.graph.Reaches a b := by
  induction h with
  | none => exact .nil
  | first => exact List.pairwise_singleton _ _
  | next _ hab ih =>
    refine .cons (fun x hx => ?_) ih
    rcases List.mem_cons.1 hx with rfl | hx
    · exact .single hab
    · exact .tail (List.rel_of_pairwise_cons ih hx) hab

theorem nodup (hw : w.Coherent) (h : w.Nested root ids) : ids.Nodup :=
  h.pairwise.imp fun {b a} (hreach : w.graph.Reaches a b) (heq : b = a) => hw.acyclic a (heq ▸ hreach)

theorem reaches_of_append {nested : List EntryId} (h : w.Nested root (nested ++ [a])) :
    a = root ∧ ∀ x ∈ nested, w.graph.Reaches root x := by
  obtain ⟨b, ids, heq⟩ := List.exists_cons_of_ne_nil (List.concat_ne_nil a nested)
  have hlast : (nested ++ [a]).getLast? = some root := by
    rw [heq] at h ⊢
    exact h.getLast?
  obtain rfl : a = root := by simpa using hlast
  exact ⟨rfl, fun x hx => (List.pairwise_append.1 h.pairwise).2.2 x hx a (List.mem_singleton_self a)⟩

theorem length_le (hw : w.Coherent) (h : w.Nested root ids) : ids.length ≤ w.size + 1 := by
  cases ids with
  | nil => exact Nat.zero_le _
  | cons b ids =>
    have hheld : ids ⊆ w.entries.keys := by
      intro a ha
      exact Std.ExtTreeMap.mem_keys.2 (hw.mem_of_reaches (List.rel_of_pairwise_cons h.pairwise ha))
    have hlength : ids.length ≤ w.entries.keys.length :=
      (List.subperm_of_subset (h.nodup hw).of_cons hheld).length_le
    rw [Std.ExtTreeMap.length_keys] at hlength
    exact Nat.succ_le_succ hlength

end Nested

def Proceeds (w : Workspace L) : Resolving L → Resolving L → Prop :=
  Relation.ReflTransGen fun s t => s.next? w = some t

/-- The calls under way have come of one for `root`, and what their entries refer to is what they still have to
call for. -/
structure Orderly (w : Workspace L) (root : EntryId) (s : Resolving L) : Prop where
  nested : w.Nested root s.active
  ahead : ∀ call ∈ s.pending, ∀ a ∈ call.rest.filterMap Child.reference?, w.graph.Edge call.id a

theorem map_mapM_cons {ε α β γ : Type} {f : α → Except ε β} {x : α} {y : β} (h : f x = .ok y) (xs : List α)
    (g : List β → γ) : ((x :: xs).mapM f).map g = (xs.mapM f).map fun ys => g (y :: ys) := by
  rw [List.mapM_cons, h]
  cases xs.mapM f <;> rfl

def Answers (w : Workspace L) (id : EntryId) : Prop :=
  ∀ waiting, w.Proceeds (.called id waiting) (.returned (w.resolve id) waiting)

theorem proceeds_within {w : Workspace L} (id : EntryId) (op : Combinator) (done : List (Tree L))
    (rest : List (Child L)) (waiting : List (PendingCall L))
    (h : ∀ a ∈ rest.filterMap Child.reference?, w.Answers a) :
    w.Proceeds (.within ⟨id, op, done, rest⟩ waiting)
      (.returned ((rest.mapM (Child.expand w.resolve)).map fun ts => .compound op (done ++ ts)) waiting) := by
  induction rest generalizing done with
  | nil =>
    rw [List.mapM_nil]
    refine .single ?_
    show some _ = some (Resolving.returned (.ok (.compound op (done ++ []))) waiting)
    rw [List.append_nil]
  | cons child rest ih =>
    have hgo (t : Tree L) (ht : child.expand w.resolve = .ok t)
        (hrest : ∀ a ∈ rest.filterMap Child.reference?, w.Answers a) :
        w.Proceeds (.within ⟨id, op, done ++ [t], rest⟩ waiting) (.returned
          (((child :: rest).mapM (Child.expand w.resolve)).map fun ts => .compound op (done ++ ts)) waiting) := by
      have hdone := ih (done ++ [t]) hrest
      simp only [List.append_assoc, List.singleton_append] at hdone
      rw [map_mapM_cons ht]
      exact hdone
    cases child with
    | leaf value => exact .head rfl (hgo (.leaf value) rfl h)
    | reference a =>
      obtain ⟨ha, hrest⟩ := List.forall_mem_cons.1 h
      refine .head rfl ((ha _).trans ?_)
      cases hresolve : w.resolve a with
      | ok t => exact .head rfl (hgo t hresolve hrest)
      | error e =>
        rw [List.mapM_cons, Child.expand, hresolve]
        exact .single rfl

/-- There is one way to go on, so what comes to an end comes to it from wherever it has come to. -/
theorem Proceeds.ends {w : Workspace L} {s t : Resolving L} {result : Except Error (Tree L)}
    (hend : w.Proceeds s (.returned result [])) (h : w.Proceeds s t) : w.Proceeds t (.returned result []) := by
  have hunique : Relator.RightUnique fun s t : Resolving L => s.next? w = some t :=
    fun _ _ _ ht hu => Option.some.inj (ht.symm.trans hu)
  rcases Relation.ReflTransGen.total_of_right_unique hunique h hend with hlater | hlater
  · exact hlater
  · rcases Relation.ReflTransGen.cases_head hlater with rfl | ⟨u, hnext, -⟩
    · exact .refl
    · rw [Resolving.next?_returned] at hnext
      cases hnext

namespace Coherent

variable {w : Workspace L} (hw : w.Coherent)
include hw

theorem orderly_step {root : EntryId} {s t : Resolving L} (h : w.Orderly root s) (hnext : s.next? w = some t) :
    w.Orderly root t := by
  obtain ⟨hnested, hahead⟩ := h
  revert hnext
  -- A call that returns is taken off, one that is made stands on an edge; else only children go by.
  fun_cases s.next? w with
  | case1 id waiting | case2 id waiting =>
    rintro ⟨⟩
    exact ⟨hnested.tail, hahead⟩
  | case3 id waiting e he c hc =>
    rintro ⟨⟩
    have hsites : c.content.filterMap Child.reference? = e.payload.sites := by rw [hc]; rfl
    refine ⟨hnested, List.forall_mem_cons.2 ⟨fun a ha => ?_, hahead⟩⟩
    exact hw.edge_iff.2 ⟨e, he, hsites ▸ ha⟩
  | case4 id op done waiting =>
    rintro ⟨⟩
    exact ⟨hnested.tail, (List.forall_mem_cons.1 hahead).2⟩
  | case5 id op done value rest waiting =>
    rintro ⟨⟩
    obtain ⟨hfirst, hwaiting⟩ := List.forall_mem_cons.1 hahead
    exact ⟨hnested, List.forall_mem_cons.2 ⟨hfirst, hwaiting⟩⟩
  | case6 id op done a rest waiting =>
    rintro ⟨⟩
    obtain ⟨hfirst, hwaiting⟩ := List.forall_mem_cons.1 hahead
    obtain ⟨hedge, hrest⟩ := List.forall_mem_cons.1 hfirst
    exact ⟨hnested.next hedge, List.forall_mem_cons.2 ⟨hrest, hwaiting⟩⟩
  | case7 t id op done rest waiting =>
    rintro ⟨⟩
    obtain ⟨hfirst, hwaiting⟩ := List.forall_mem_cons.1 hahead
    exact ⟨hnested, List.forall_mem_cons.2 ⟨hfirst, hwaiting⟩⟩
  | case8 e call waiting =>
    rintro ⟨⟩
    exact ⟨hnested.tail, (List.forall_mem_cons.1 hahead).2⟩
  | case9 => rintro ⟨⟩

theorem orderly_of_proceeds {id : EntryId} {s : Resolving L} (h : w.Proceeds (.called id []) s) :
    w.Orderly id s := by
  induction h with
  | refl => exact ⟨.first, by simp [Resolving.pending]⟩
  | tail _ hnext ih => exact hw.orderly_step ih hnext

theorem answers (id : EntryId) : w.Answers id := by
  induction id using hw.reference_induction with
  | step id ih =>
    intro waiting
    cases he : w.get? id with
    | none =>
      rw [resolve_of_notMem (notMem_iff_get?.2 he)]
      exact .single (by simp only [Resolving.next?, he])
    | some e =>
      rw [hw.resolve_of_get? he]
      cases hp : e.payload with
      | leaf value => exact .single (by simp only [Resolving.next?, he, hp]; rfl)
      | compound c =>
        refine .head (by simp only [Resolving.next?, he, hp]; rfl) ?_
        refine proceeds_within id c.op [] c.content waiting fun a ha => ih a (hw.edge_iff.2 ⟨e, he, ?_⟩)
        rw [hp]
        exact ha

theorem depth_le {id : EntryId} {t : Tree L} (ht : w.resolve id = .ok t) : t.depth ≤ (w.ahead id).card + 1 := by
  induction id using hw.reference_induction generalizing t with
  | step id ih =>
    obtain ⟨e, he⟩ := mem_iff_get?.1 (mem_of_resolve_eq_ok ht)
    rw [hw.resolve_of_get? he] at ht
    have hself : id ∈ w.ahead id := mem_ahead.2 ⟨mem_iff_get?.2 ⟨e, he⟩, .refl⟩
    refine Payload.depth_le_of_expand ht (Finset.card_pos.2 ⟨id, hself⟩) fun a ha t ht => ?_
    have hedge : w.graph.Edge id a := hw.edge_iff.2 ⟨e, he, ha⟩
    exact (ih a hedge ht).trans (hw.card_ahead_lt hedge)

end Coherent

theorem card_ahead_le_closure (w : Workspace L) (id : EntryId) :
    (w.ahead id).card ≤ (w.graph.closure id).size + 1 := by
  have hsubset : w.ahead id ⊆ {id} ∪ (w.graph.closure id).toList.toFinset := by
    intro a ha
    rw [Finset.mem_union, Finset.mem_singleton, List.mem_toFinset, Std.ExtTreeSet.mem_toList]
    exact ReferenceGraph.reflTransGen_iff.1 (mem_ahead.1 ha).2
  have hbelow : (w.graph.closure id).toList.toFinset.card ≤ (w.graph.closure id).size := by
    rw [← Std.ExtTreeSet.length_toList]
    exact List.toFinset_card_le _
  calc (w.ahead id).card ≤ ({id} ∪ (w.graph.closure id).toList.toFinset).card := Finset.card_le_card hsubset
    _ ≤ 1 + (w.graph.closure id).toList.toFinset.card := Finset.card_union_le _ _
    _ ≤ (w.graph.closure id).size + 1 := by omega

/-- Resolving comes to its end, with what `resolve` says, from wherever it has come to. On the way the calls
that have not returned are for identifiers all of which differ, the first of them `id` and the others among
what `id` leads to, so that there are at most as many as there are entries and one more. A tree that it
comes to has at most two levels more than there are identifiers that `id` leads to. -/
theorem resolving_ends {w : Workspace L} (hw : w.Reachable) (id : EntryId) :
    w.Proceeds (.called id []) (.returned (w.resolve id) []) ∧
      (∀ s, w.Proceeds (.called id []) s →
        w.Proceeds s (.returned (w.resolve id) []) ∧ s.active.Nodup ∧ s.active.length ≤ w.size + 1 ∧
          ∀ nested first, s.active = nested ++ [first] →
            first = id ∧ ∀ a ∈ nested, ∃ below, w.allReferences id = .ok below ∧ a ∈ below) ∧
      ∀ t, w.resolve id = .ok t →
        ∃ below, w.allReferences id = .ok below ∧ t.depth ≤ below.size + 2 := by
  have hcoherent := hw.coherent
  have hend := hcoherent.answers id []
  refine ⟨hend, fun s hs => ?_, fun t ht => ?_⟩
  · have hnested := (hcoherent.orderly_of_proceeds hs).nested
    refine ⟨hend.ends hs, hnested.nodup hcoherent, hnested.length_le hcoherent, fun nested first heq => ?_⟩
    rw [heq] at hnested
    obtain ⟨hfirst, hbelow⟩ := hnested.reaches_of_append
    refine ⟨hfirst, fun a ha => ⟨_, allReferences_of_mem ?_, ReferenceGraph.mem_closure_iff.2 (hbelow a ha)⟩⟩
    exact hcoherent.mem_of_reaches (hbelow a ha)
  · refine ⟨_, allReferences_of_mem (mem_of_resolve_eq_ok ht), ?_⟩
    exact (hcoherent.depth_le ht).trans (Nat.succ_le_succ (w.card_ahead_le_closure id))

theorem resolving_ends_removed :
    let w : Workspace Nat := (create {} 0).after
      [.put 7, .join .not [.reference ⟨"_0"⟩, .leaf 8], .join .and [.leaf 9, .reference ⟨"_1"⟩]]
    let v : Workspace Nat := w.after [.remove ⟨"_0"⟩]
    let t : Tree Nat := .compound .and [.leaf 9, .compound .not [.leaf 7, .leaf 8]]
    let s : Resolving Nat :=
      .called ⟨"_0"⟩ [⟨⟨"_1"⟩, .not, [], [.leaf 8]⟩, ⟨⟨"_2"⟩, .and, [.leaf 9], []⟩]
    w.Reachable ∧ w.resolve ⟨"_2"⟩ = .ok t ∧
      (∃ below, w.allReferences ⟨"_2"⟩ = .ok below ∧ t.depth ≤ below.size + 2) ∧
      v.Reachable ∧ v.Proceeds (.called ⟨"_2"⟩ []) s ∧ s.active = [⟨"_0"⟩, ⟨"_1"⟩, ⟨"_2"⟩] ∧
      s.active.length ≤ v.size + 1 ∧ v.size = 2 ∧
      v.Proceeds s (.returned (.error (.unknownReference ⟨"_0"⟩)) []) := by
  intro w v t s
  have hw : w.Reachable := ⟨_, _, _, rfl⟩
  have hv : v.Reachable := ⟨_, _, _, (after_append _ _ _).symm⟩
  have ht : w.resolve ⟨"_2"⟩ = .ok t := by decide +kernel
  have htop : v.get? ⟨"_2"⟩ =
      some (.ofPayload ⟨"_2"⟩ (.compound ⟨.and, [.leaf 9, .reference ⟨"_1"⟩]⟩)) := by decide +kernel
  have hmiddle : v.get? ⟨"_1"⟩ =
      some (.ofPayload ⟨"_1"⟩ (.compound ⟨.not, [.reference ⟨"_0"⟩, .leaf 8]⟩)) := by decide +kernel
  have herror : v.resolve ⟨"_2"⟩ = .error (.unknownReference ⟨"_0"⟩) := by decide +kernel
  have hs : v.Proceeds (.called ⟨"_2"⟩ []) s := by
    refine .head (by simp only [Resolving.next?, htop]; rfl) ?_
    refine .head rfl (.head rfl ?_)
    refine .head (by simp only [Resolving.next?, hmiddle]; rfl) ?_
    exact .single rfl
  obtain ⟨hend, -, hlength, -⟩ := (resolving_ends hv ⟨"_2"⟩).2.1 s hs
  rw [herror] at hend
  exact ⟨hw, ht, (resolving_ends hw ⟨"_2"⟩).2.2 t ht, hv, hs, rfl, hlength, by decide +kernel, hend⟩

end Workspace
end FilterWorkspace
