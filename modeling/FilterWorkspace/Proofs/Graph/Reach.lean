import FilterWorkspace.Graph.Closure
import Mathlib.Logic.Relation

/-! The closure of an identifier holds exactly what can be reached from it. The queue of the
collection holds at every moment all direct targets of seen nodes that are not seen themselves, so
nothing is missing once it is empty. -/

namespace FilterWorkspace.ReferenceGraph

def Reaches (g : ReferenceGraph) : EntryId → EntryId → Prop := Relation.TransGen g.Edge

theorem mem_collect_of_mem (g : ReferenceGraph) {queue : List EntryId} {seen : IdSet} {a : EntryId}
    (h : a ∈ seen) : a ∈ g.collect queue seen := by
  fun_induction collect g queue seen with
  | case1 => exact h
  | case2 seen id rest hid ih => exact ih h
  | case3 seen id rest hid ih => exact ih (by simp [h])

theorem mem_collect_of_mem_queue (g : ReferenceGraph) {queue : List EntryId} {seen : IdSet}
    {a : EntryId} (h : a ∈ queue) : a ∈ g.collect queue seen := by
  fun_induction collect g queue seen with
  | case1 => simp at h
  | case2 seen id rest hid ih =>
    rcases List.mem_cons.1 h with rfl | h
    · exact g.mem_collect_of_mem hid
    · exact ih h
  | case3 seen id rest hid ih =>
    rcases List.mem_cons.1 h with rfl | h
    · exact g.mem_collect_of_mem (by simp)
    · exact ih (by simp [h])

theorem collect_closed (g : ReferenceGraph) {queue : List EntryId} {seen : IdSet}
    (hseen : ∀ a ∈ seen, ∀ b, g.Edge a b → b ∈ seen ∨ b ∈ queue) {a b : EntryId}
    (ha : a ∈ g.collect queue seen) (hab : g.Edge a b) : b ∈ g.collect queue seen := by
  fun_induction collect g queue seen with
  | case1 seen => simpa using hseen a ha b hab
  | case2 seen id rest hid ih =>
    refine ih (fun c hc d hcd => ?_) ha
    rcases hseen c hc d hcd with hd | hd
    · exact .inl hd
    · rcases List.mem_cons.1 hd with rfl | hd
      · exact .inl hid
      · exact .inr hd
  | case3 seen id rest hid ih =>
    refine ih (fun c hc d hcd => ?_) ha
    rcases Std.ExtTreeSet.mem_insert.1 hc with hc | hc
    · obtain rfl : id = c := Std.LawfulEqOrd.compare_eq_iff_eq.1 hc
      exact .inr (List.mem_append_right _ (mem_successors.2 hcd))
    · rcases hseen c hc d hcd with hd | hd
      · exact .inl (by simp [hd])
      · rcases List.mem_cons.1 hd with rfl | hd
        · exact .inl (by simp)
        · exact .inr (List.mem_append_left _ hd)

theorem reflTransGen_of_mem_collect (g : ReferenceGraph) {queue : List EntryId} {seen : IdSet}
    {b : EntryId} (h : b ∈ g.collect queue seen) :
    b ∈ seen ∨ ∃ a ∈ queue, Relation.ReflTransGen g.Edge a b := by
  fun_induction collect g queue seen with
  | case1 => exact .inl h
  | case2 seen id rest hid ih =>
    rcases ih h with hb | ⟨a, ha, hab⟩
    · exact .inl hb
    · exact .inr ⟨a, List.mem_cons_of_mem _ ha, hab⟩
  | case3 seen id rest hid ih =>
    have hid : id ∈ id :: rest := List.mem_cons_self
    rcases ih h with hb | ⟨a, ha, hab⟩
    · rcases Std.ExtTreeSet.mem_insert.1 hb with hb | hb
      · obtain rfl : id = b := Std.LawfulEqOrd.compare_eq_iff_eq.1 hb
        exact .inr ⟨id, hid, .refl⟩
      · exact .inl hb
    · rcases List.mem_append.1 ha with ha | ha
      · exact .inr ⟨a, List.mem_cons_of_mem _ ha, hab⟩
      · exact .inr ⟨id, hid, .head (mem_successors.1 ha) hab⟩

theorem mem_closure_iff {g : ReferenceGraph} {a b : EntryId} :
    b ∈ g.closure a ↔ g.Reaches a b := by
  constructor
  · intro h
    rcases g.reflTransGen_of_mem_collect h with hb | ⟨c, hc, hcb⟩
    · simp at hb
    · exact .head' (mem_successors.1 hc) hcb
  · intro h
    induction h with
    | single hab => exact g.mem_collect_of_mem_queue (mem_successors.2 hab)
    | tail _ hbc ih => exact g.collect_closed (by simp) ih hbc

theorem reflTransGen_iff {g : ReferenceGraph} {a b : EntryId} :
    Relation.ReflTransGen g.Edge a b ↔ b = a ∨ b ∈ g.closure a := by
  rw [mem_closure_iff, Relation.reflTransGen_iff_eq_or_transGen]
  rfl

end FilterWorkspace.ReferenceGraph
