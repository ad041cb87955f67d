import FilterWorkspace.Proofs.Reading.Restoration

/-! Trees of filters can be told from what is written for them. Nodes carry no tag, but what a compound
holds is an array, and what a filter holds is an object, so that neither is ever taken for the other. -/

namespace FilterWorkspace

variable {L : Type}

theorem Json.exists_normal_object (fields : List (String × Json)) :
    ∃ sorted, (object fields).normal = object sorted := ⟨_, normal_object fields⟩

/-- What is written for leaves determines those with the property `P`, and is never what is written for a
compound. -/
structure Distinguishes (leafJson : L → Json) (P : L → Prop) : Prop where
  eq_of_normal : ∀ {a b}, P a → P b → (leafJson a).normal = (leafJson b).normal → a = b
  apart : ∀ a op items,
    (leafJson a).normal ≠ (Json.object [("op", op), ("content", .array items)]).normal

theorem FieldFilter.distinguishes :
    Distinguishes FieldFilter.toJson fun f => f.content.value.IsNormal where
  eq_of_normal {f g} hf hg h := by
    have hread := (FieldFilter.restores hf).normal
    rw [h, (FieldFilter.restores hg).normal] at hread
    exact (Except.ok.inj hread).symm
  apart f op items h := by
    obtain ⟨sorted, hsorted⟩ :=
      Json.exists_normal_object [("fieldName", .string f.content.fieldName), ("value", f.content.value)]
    rw [toJson, Json.normal_opContent, Json.normal_opContent, FieldContent.toJson, hsorted,
      Json.normal_array] at h
    simp at h

namespace Tree

variable {leafJson : L → Json} {P : L → Prop}

mutual

theorem eq_of_normal_toJson (hleaf : Distinguishes leafJson P) :
    ∀ {s t : Tree L}, (∀ a ∈ s.leaves, P a) → (∀ a ∈ t.leaves, P a) →
      (s.toJson leafJson).normal = (t.toJson leafJson).normal → s = t
  | leaf a, leaf b, hs, ht, h => by
    rw [hleaf.eq_of_normal (hs a List.mem_cons_self) (ht b List.mem_cons_self) h]
  | leaf a, compound op content, _, _, h => absurd h (hleaf.apart a op.toJson (toJsonAll leafJson content))
  | compound op content, leaf a, _, _, h =>
    absurd h.symm (hleaf.apart a op.toJson (toJsonAll leafJson content))
  | compound op ss, compound op' ts, hs, ht, h => by
    rw [toJson, toJson, Json.normal_opContent, Json.normal_opContent, Json.normal_array,
      Json.normal_array] at h
    simp only [Json.object.injEq, List.cons.injEq, Prod.mk.injEq, Json.array.injEq, true_and, and_true] at h
    obtain ⟨hcontent, hop⟩ := h
    rw [Combinator.name_injective (Json.string.inj hop), eq_of_normal_toJsonAll hleaf hs ht hcontent]

theorem eq_of_normal_toJsonAll (hleaf : Distinguishes leafJson P) :
    ∀ {ss ts : List (Tree L)}, (∀ a ∈ leavesOfAll ss, P a) → (∀ a ∈ leavesOfAll ts, P a) →
      (toJsonAll leafJson ss).map Json.normal = (toJsonAll leafJson ts).map Json.normal → ss = ts
  | [], [], _, _, _ => rfl
  | [], _ :: _, _, _, h | _ :: _, [], _, _, h => by simp [toJsonAll] at h
  | s :: ss, t :: ts, hs, ht, h => by
    rw [toJsonAll, toJsonAll, List.map_cons, List.map_cons, List.cons.injEq] at h
    rw [leavesOfAll, List.forall_mem_append] at hs ht
    rw [eq_of_normal_toJson hleaf hs.1 ht.1 h.1, eq_of_normal_toJsonAll hleaf hs.2 ht.2 h.2]

end

/-- Trees of filters for which the same value is written are the same tree, whatever fields, operators and
JSON values their filters have. -/
theorem eq_of_written {s t : Tree FieldFilter} (hs : ∀ f ∈ s.leaves, f.content.value.IsNormal)
    (ht : ∀ f ∈ t.leaves, f.content.value.IsNormal)
    (h : (s.toJson FieldFilter.toJson).normal = (t.toJson FieldFilter.toJson).normal) : s = t :=
  eq_of_normal_toJson FieldFilter.distinguishes hs ht h

theorem eq_of_written_lookalike :
    let empty : Tree FieldFilter := .compound .and []
    let f : FieldFilter := ⟨.within, "op", (empty.toJson FieldFilter.toJson).normal⟩
    let s : Tree FieldFilter := .compound .not [.leaf f, empty]
    let t : Tree FieldFilter := .compound .not ((empty :: [f].map .leaf).reverse)
    (∀ g ∈ s.leaves, g.content.value.IsNormal) ∧
      (s.toJson FieldFilter.toJson).normal = (t.toJson FieldFilter.toJson).normal ∧ s = t := by
  intro empty f s t
  have hs : ∀ g ∈ s.leaves, g.content.value.IsNormal := by decide +kernel
  have ht : ∀ g ∈ t.leaves, g.content.value.IsNormal := by decide +kernel
  have h : (s.toJson FieldFilter.toJson).normal = (t.toJson FieldFilter.toJson).normal := by decide +kernel
  exact ⟨hs, h, eq_of_written hs ht h⟩

/-- Leaves that are JSON values cannot be told from compounds. -/
example : (leaf (.object [("op", .string "and"), ("content", .array [])])).toJson id =
    (compound .and [] : Tree Json).toJson id := rfl

end Tree
end FilterWorkspace
