import Std.Data.ExtTreeMap
import Std.Data.ExtTreeSet

/-! Lists in order. There is one list in order of given members, so a table or a set lists what it was
made from when that was in order already. -/

namespace FilterWorkspace

variable {α β γ : Type} {cmp : α → α → Ordering}

def InOrder (cmp : α → α → Ordering) (key : γ → α) (l : List γ) : Prop :=
  l.Pairwise fun a b => cmp (key a) (key b) = .lt

instance (key : γ → α) (l : List γ) : Decidable (InOrder cmp key l) :=
  inferInstanceAs (Decidable (l.Pairwise fun a b => cmp (key a) (key b) = .lt))

namespace InOrder

variable {key : γ → α} {l l' : List γ}

theorem of_map (h : InOrder cmp id (l.map key)) : InOrder cmp key l := List.pairwise_map.1 h

theorem distinct (h : InOrder cmp key l) : l.Pairwise fun a b => ¬ cmp (key a) (key b) = .eq :=
  h.imp fun {a b} hlt heq => by simp [hlt] at heq

variable [Std.TransCmp cmp]

theorem nodup (h : InOrder cmp key l) : l.Nodup := by
  refine h.distinct.imp fun {a b} hne heq => hne ?_
  rw [heq]
  exact Std.ReflCmp.compare_self

theorem eq_of_perm (h : InOrder cmp key l) (h' : InOrder cmp key l') (hperm : l.Perm l') : l = l' := by
  refine hperm.eq_of_pairwise (fun a b _ _ hab hba => ?_) h h'
  have hswap : cmp (key a) (key b) = (cmp (key b) (key a)).swap := Std.OrientedCmp.eq_swap
  simp [hab, hba] at hswap

theorem eq_of_mem_iff (h : InOrder cmp key l) (h' : InOrder cmp key l') (hmem : ∀ a, a ∈ l ↔ a ∈ l') :
    l = l' :=
  h.eq_of_perm h' ((List.perm_ext_iff_of_nodup h.nodup h'.nodup).2 hmem)

end InOrder

variable [Std.TransCmp cmp] [Std.LawfulEqCmp cmp]

theorem mem_of_getElem?_insertMany {l : List (α × β)} {t : Std.ExtTreeMap α β cmp} {k : α} {v : β}
    (h : (t.insertMany l)[k]? = some v) : (k, v) ∈ l ∨ t[k]? = some v := by
  induction l generalizing t with
  | nil => exact .inr (by simpa using h)
  | cons first l ih =>
    rw [Std.ExtTreeMap.insertMany_cons] at h
    rcases ih h with hmem | hget
    · exact .inl (List.mem_cons_of_mem _ hmem)
    · rw [Std.ExtTreeMap.getElem?_insert] at hget
      split at hget
      next heq =>
        obtain rfl := Std.LawfulEqCmp.eq_of_compare heq
        obtain rfl := Option.some.inj hget
        exact .inl List.mem_cons_self
      · exact .inr hget

theorem mem_of_getElem?_ofList {l : List (α × β)} {k : α} {v : β}
    (h : (Std.ExtTreeMap.ofList l cmp)[k]? = some v) : (k, v) ∈ l := by
  rw [Std.ExtTreeMap.ofList_eq_insertMany_empty] at h
  simpa using mem_of_getElem?_insertMany h

theorem getElem?_ofList_iff {l : List (α × β)} (h : l.Pairwise fun a b => ¬ cmp a.1 b.1 = .eq) {k : α}
    {v : β} : (Std.ExtTreeMap.ofList l cmp)[k]? = some v ↔ (k, v) ∈ l :=
  ⟨mem_of_getElem?_ofList, Std.ExtTreeMap.getElem?_ofList_of_mem Std.ReflCmp.compare_self h⟩

theorem toList_ofList {l l' : List (α × β)} (hperm : l.Perm l') (h : InOrder cmp Prod.fst l') :
    (Std.ExtTreeMap.ofList l cmp).toList = l' := by
  have hdistinct : l.Pairwise fun a b => ¬ cmp a.1 b.1 = .eq :=
    hperm.symm.pairwise h.distinct fun {a b} hne heq => hne (Std.OrientedCmp.eq_symm heq)
  have hlisted : InOrder cmp Prod.fst (Std.ExtTreeMap.ofList l cmp).toList :=
    Std.ExtTreeMap.ordered_keys_toList
  refine hlisted.eq_of_mem_iff h fun ⟨k, v⟩ => ?_
  rw [Std.ExtTreeMap.mem_toList_iff_getElem?_eq_some, getElem?_ofList_iff hdistinct, hperm.mem_iff]

theorem toList_ofList_set {l : List α} (h : InOrder cmp id l) :
    (Std.ExtTreeSet.ofList l cmp).toList = l := by
  classical
  have hlisted : (Std.ExtTreeSet.ofList l cmp).toList.Pairwise fun a b => cmp a b = .lt :=
    Std.ExtTreeSet.ordered_toList
  exact InOrder.eq_of_mem_iff hlisted h fun a => by simp

end FilterWorkspace
