import FilterWorkspace.Proofs.Workspace.Persistence
import Mathlib.Data.List.Forall2

/-! Combining by reference is combining by value. The tree of a new compound has the tree of each
operand in its place, as it was before the compound was added, so a reference to a leaf and the leaf
itself do the same. -/

namespace FilterWorkspace

variable {L : Type}

namespace Workspace

/-- The tree `t` stands in `w` for the operand: a leaf for itself, for a reference what it resolves
to. -/
inductive Stands (w : Workspace L) : Child L → Tree L → Prop
  | leaf (value : L) : Stands w (.leaf value) (.leaf value)
  | reference {id : EntryId} {t : Tree L} (h : w.resolve id = .ok t) : Stands w (.reference id) t

theorem expand_of_stands {w : Workspace L} {child : Child L} {t : Tree L} (h : w.Stands child t) :
    child.expand w.resolve = .ok t := by
  cases h with
  | leaf value => rfl
  | reference h => exact h

theorem mapM_expand_of_stands {w : Workspace L} {operands : List (Child L)} {trees : List (Tree L)}
    (h : List.Forall₂ w.Stands operands trees) : operands.mapM (Child.expand w.resolve) = .ok trees := by
  induction h with
  | nil => rfl
  | cons hchild _ ih =>
    rw [List.mapM_cons, expand_of_stands hchild, ih]
    rfl

theorem exists_stands {w : Workspace L} {operands : List (Child L)}
    (h : ∀ id, .reference id ∈ operands → ∃ t, w.resolve id = .ok t) :
    ∃ trees, List.Forall₂ w.Stands operands trees := by
  induction operands with
  | nil => exact ⟨[], .nil⟩
  | cons child operands ih =>
    obtain ⟨trees, htrees⟩ := ih fun id hid => h id (List.mem_cons_of_mem _ hid)
    cases child with
    | leaf value => exact ⟨.leaf value :: trees, .cons (.leaf value) htrees⟩
    | reference id =>
      obtain ⟨t, ht⟩ := h id List.mem_cons_self
      exact ⟨t :: trees, .cons (.reference ht) htrees⟩

namespace Coherent

variable {w : Workspace L} (h : w.Coherent)
include h

/-- A new entry changes no tree but that of its own identifier. -/
theorem resolve_insert {payload : Payload L} (hheld : ∀ {id}, id ∈ payload.references → id ∈ w)
    {id : EntryId} (hid : id ≠ w.nextId) : (w.insert payload).2.resolve id = w.resolve id := by
  refine h.resolve_congr (h.insert hheld) fun a ha => ?_
  have hne : a ≠ w.nextId := by
    rcases Relation.reflTransGen_iff_eq_or_transGen.1 ha with rfl | hreach
    · exact hid
    · exact fun heq => h.not_reaches_nextId id (heq ▸ hreach)
  rw [get?_insert, if_neg hne.symm]

theorem resolve_of_join {op : Combinator} {operands : List (Child L)} {e : Entry L} {v : Workspace L}
    (hjoin : w.join op operands = (.ok e, v)) :
    v.resolve e.id = (operands.mapM (Child.expand w.resolve)).map (.compound op) := by
  rcases w.join_cases op operands with ⟨err, herror⟩ | ⟨hadmits, hok⟩
  · rw [hjoin] at herror
    cases herror
  · obtain ⟨he, rfl⟩ := Prod.mk.inj (hjoin.symm.trans hok)
    obtain rfl := Except.ok.inj he
    have hcoherent : (w.insert (.compound ⟨op, operands⟩)).2.Coherent := h.insert hadmits.held
    have hentry : (w.insert (.compound ⟨op, operands⟩)).2.get? w.nextId =
        some (.ofPayload w.nextId (.compound ⟨op, operands⟩)) := by
      rw [get?_insert, if_pos rfl]
    calc (w.insert (.compound ⟨op, operands⟩)).2.resolve w.nextId
        = (Payload.compound ⟨op, operands⟩).expand (w.insert (.compound ⟨op, operands⟩)).2.resolve :=
          hcoherent.resolve_of_get? hentry
      _ = (Payload.compound ⟨op, operands⟩).expand w.resolve :=
          Payload.expand_congr fun id hid => h.resolve_insert hadmits.held fun heq => ?_
    exact h.nextId_notMem (heq ▸ hadmits.held (Payload.mem_references.2 hid))

end Coherent

/-- The tree of a new compound is put together from those that the operands had before, in their
order; where one had none, its error is that of the first such operand. To refer to a leaf is to give
the leaf itself. -/
theorem resolve_join {w : Workspace L} (hw : w.Reachable) {op : Combinator}
    {operands : List (Child L)} {e : Entry L} {v : Workspace L} (h : w.join op operands = (.ok e, v)) :
    ((∀ id, .reference id ∈ operands → ∃ t, w.resolve id = .ok t) →
      ∃ trees, List.Forall₂ w.Stands operands trees ∧ v.resolve e.id = .ok (.compound op trees)) ∧
    (∀ before id after err, operands = before ++ .reference id :: after →
      (∀ id', .reference id' ∈ before → ∃ t, w.resolve id' = .ok t) → w.resolve id = .error err →
      v.resolve e.id = .error err) ∧
    ∀ before id after leaf value e' v', operands = before ++ .reference id :: after →
      w.get? id = some leaf → leaf.payload = .leaf value →
      w.join op (before ++ .leaf value :: after) = (.ok e', v') → v'.resolve e'.id = v.resolve e.id := by
  have hcoherent := hw.coherent
  have hresolve := hcoherent.resolve_of_join h
  refine ⟨fun hall => ?_, ?_, ?_⟩
  · obtain ⟨trees, htrees⟩ := exists_stands hall
    refine ⟨trees, htrees, ?_⟩
    rw [hresolve, mapM_expand_of_stands htrees]
    rfl
  · rintro before id after err rfl hbefore hid
    obtain ⟨trees, htrees⟩ := exists_stands hbefore
    rw [hresolve, List.mapM_append, mapM_expand_of_stands htrees, List.mapM_cons, Child.expand, hid]
    rfl
  · rintro before id after leaf value e' v' rfl hget hleaf hjoin
    have hexpand : (Child.reference id).expand w.resolve = (Child.leaf value).expand w.resolve := by
      show w.resolve id = .ok (.leaf value)
      rw [hcoherent.resolve_of_get? hget, hleaf]
      rfl
    rw [hresolve, hcoherent.resolve_of_join hjoin, List.mapM_append, List.mapM_append, List.mapM_cons,
      List.mapM_cons, hexpand]

theorem resolve_join_by_value :
    let w : Workspace Nat :=
      (create {} 0).after [.put 7, .join .not [.reference ⟨"_0"⟩], .put 8]
    let operands : List (Child Nat) := [.reference ⟨"_1"⟩, .leaf 9, .reference ⟨"_2"⟩]
    let v := (w.join .or operands).2
    w.Reachable ∧ (w.join .or operands).1 = .ok (.ofPayload ⟨"_3"⟩ (.compound ⟨.or, operands⟩)) ∧
      (∃ trees, List.Forall₂ w.Stands operands trees ∧ v.resolve ⟨"_3"⟩ = .ok (.compound .or trees)) ∧
      (w.join .or [.reference ⟨"_1"⟩, .leaf 9, .leaf 8]).2.resolve ⟨"_3"⟩ = v.resolve ⟨"_3"⟩ := by
  intro w operands v
  have hw : w.Reachable := ⟨_, _, _, rfl⟩
  have hjoin : (w.join .or operands).1 = .ok (.ofPayload ⟨"_3"⟩ (.compound ⟨.or, operands⟩)) := by
    decide +kernel
  obtain ⟨hvalues, -, hleaf⟩ := resolve_join hw (Prod.ext hjoin rfl : w.join .or operands = (_, v))
  refine ⟨hw, hjoin, hvalues fun id hid => ?_, ?_⟩
  · obtain rfl | rfl : id = ⟨"_1"⟩ ∨ id = ⟨"_2"⟩ := by simpa [operands] using hid
    · exact ⟨.compound .not [.leaf 7], by decide +kernel⟩
    · exact ⟨.leaf 8, by decide +kernel⟩
  · have hheld : w.get? ⟨"_2"⟩ = some (.ofPayload ⟨"_2"⟩ (.leaf 8)) := by decide +kernel
    have hinline : (w.join .or [.reference ⟨"_1"⟩, .leaf 9, .leaf 8]).1 =
        .ok (.ofPayload ⟨"_3"⟩ (.compound ⟨.or, [.reference ⟨"_1"⟩, .leaf 9, .leaf 8]⟩)) := by
      decide +kernel
    exact hleaf [.reference ⟨"_1"⟩, .leaf 9] ⟨"_2"⟩ [] _ 8 _ _ rfl hheld rfl (Prod.ext hinline rfl)

end Workspace
end FilterWorkspace
