import FilterWorkspace.Proofs.EntryId.Renaming
import FilterWorkspace.Proofs.Workspace.Registration
import FilterWorkspace.Proofs.Workspace.Unfolding

/-! Workspaces that hold the same under other identifiers, with other leaves. As long as the renaming keeps
the byte order, the same calls under the new names are answered alike and leave such a pair again. -/

namespace FilterWorkspace

variable {L M : Type} {f : EntryId → EntryId} {φ : L → M}

theorem Child.references_map (content : List (Child L)) :
    (content.map (Child.map f φ)).filterMap Child.reference? =
      (content.filterMap Child.reference?).map f := by
  rw [List.filterMap_map, List.map_filterMap]
  refine List.filterMap_congr fun child _ => ?_
  cases child <;> rfl

theorem Compound.references_map (c : Compound L) : (c.map f φ).references = c.references.map f :=
  Child.references_map c.content

theorem Compound.referenceSet_map (c : Compound L) :
    (c.map f φ).referenceSet = IdSet.map f c.referenceSet := by
  rw [referenceSet, referenceSet, references_map, IdSet.map_ofList]

theorem Payload.references_map (p : Payload L) : (p.map f φ).references = IdSet.map f p.references := by
  cases p with
  | leaf value => rfl
  | compound c => exact c.referenceSet_map

theorem Entry.map_ofPayload (id : EntryId) (p : Payload L) :
    (Entry.ofPayload id p).map f φ = .ofPayload (f id) (p.map f φ) := by
  rw [ofPayload, ofPayload, Payload.references_map]
  rfl

section

open Workspace (Error mapResult)

variable {tree : EntryId → Except Error (Tree L)} {tree' : EntryId → Except Error (Tree M)}

theorem Child.mapM_expand_map {content : List (Child L)}
    (h : ∀ id ∈ content.filterMap Child.reference?, tree' (f id) = mapResult f (Tree.map φ) (tree id)) :
    (content.map (Child.map f φ)).mapM (Child.expand tree') =
      mapResult f (Tree.mapAll φ) (content.mapM (Child.expand tree)) := by
  induction content with
  | nil => rfl
  | cons child content ih =>
    have hchild : (child.map f φ).expand tree' = mapResult f (Tree.map φ) (child.expand tree) := by
      cases child with
      | leaf value => rfl
      | reference id => exact h id (by simp [reference?])
    have hrest := ih fun id hid =>
      h id (((List.sublist_cons_self child content).filterMap Child.reference?).subset hid)
    rw [List.map_cons, List.mapM_cons, List.mapM_cons, hchild, hrest]
    cases child.expand tree with
    | error e => rfl
    | ok t => cases content.mapM (Child.expand tree) <;> rfl

theorem Payload.expand_map {p : Payload L}
    (h : ∀ id ∈ p.sites, tree' (f id) = mapResult f (Tree.map φ) (tree id)) :
    (p.map f φ).expand tree' = mapResult f (Tree.map φ) (p.expand tree) := by
  cases p with
  | leaf value => rfl
  | compound c =>
    have hcontent : (c.content.map (Child.map f φ)).mapM (Child.expand tree') = _ :=
      Child.mapM_expand_map h
    rw [map, expand, expand, Compound.map, hcontent]
    cases c.content.mapM (Child.expand tree) <;> rfl

end

namespace ReferenceGraph

def IsImage (f : EntryId → EntryId) (g g' : ReferenceGraph) : Prop :=
  ∀ id, g'.references? (f id) = (g.references? id).map (IdSet.map f)

namespace IsImage

variable {g g' : ReferenceGraph} (h : IsImage f g g')
include h

theorem edge_iff {a : EntryId} {b' : EntryId} : g'.Edge (f a) b' ↔ ∃ b, g.Edge a b ∧ f b = b' := by
  unfold Edge
  rw [h a]
  cases g.references? a with
  | none => simp
  | some targets => simp [IdSet.mem_map]

theorem reaches_iff {a : EntryId} {b' : EntryId} : g'.Reaches (f a) b' ↔ ∃ b, g.Reaches a b ∧ f b = b' := by
  constructor
  · intro hreach
    induction hreach with
    | single hedge =>
      obtain ⟨b, hab, rfl⟩ := h.edge_iff.1 hedge
      exact ⟨b, .single hab, rfl⟩
    | tail _ hedge ih =>
      obtain ⟨b, hab, rfl⟩ := ih
      obtain ⟨c, hbc, rfl⟩ := h.edge_iff.1 hedge
      exact ⟨c, hab.tail hbc, rfl⟩
  · rintro ⟨b, hreach, rfl⟩
    exact Relation.TransGen.lift f (fun a b hab => h.edge_iff.2 ⟨b, hab, rfl⟩) a b hreach

theorem closure_eq (a : EntryId) : g'.closure (f a) = IdSet.map f (g.closure a) := by
  apply Std.ExtTreeSet.ext_mem
  intro b'
  rw [mem_closure_iff, h.reaches_iff, IdSet.mem_map]
  simp only [mem_closure_iff]

theorem sharing?_eq (hf : EntryId.KeepsOrder f) (ids : IdSet) :
    g'.sharing? (IdSet.map f ids) = (g.sharing? ids).map (Prod.map f f) := by
  unfold sharing?
  rw [IdSet.toList_map hf, List.findSome?_map, List.map_findSome?]
  congr 1
  funext holder
  simp [h.closure_eq, List.find?_map, IdSet.mem_map_apply hf, hf.injective.eq_iff, Function.comp_def]

end IsImage

end ReferenceGraph

namespace Workspace

/-- The workspace `v` holds what `w` holds, each entry renamed by `f` and its leaves replaced by `φ`, and
the identifiers that it has still to mint are those of `w` renamed. -/
structure IsImage (f : EntryId → EntryId) (φ : L → M) (w : Workspace L) (v : Workspace M) : Prop where
  keepsOrder : EntryId.KeepsOrder f
  policy : v.settings.policy = w.settings.policy
  issued : v.ids.issued = w.ids.issued
  numbered : ∀ n, .numbered v.ids.space n = f (.numbered w.ids.space n)
  get? : ∀ id, v.get? (f id) = (w.get? id).map (Entry.map f φ)

theorem isImage_create (hf : EntryId.KeepsOrder f) {settings settings' : Settings}
    {createdAt createdAt' : Int} (hpolicy : settings'.policy = settings.policy)
    (hnumbered : ∀ n, .numbered (settings'.space createdAt') n = f (.numbered (settings.space createdAt) n)) :
    IsImage f φ (create settings createdAt) (create settings' createdAt') where
  keepsOrder := hf
  policy := hpolicy
  issued := rfl
  numbered := hnumbered
  get? := by simp [create, Workspace.get?]

namespace IsImage

variable {w : Workspace L} {v : Workspace M} (h : IsImage f φ w v)
include h

theorem nextId : v.nextId = f w.nextId := by
  show EntryId.numbered v.ids.space v.ids.issued = _
  rw [h.issued, h.numbered]
  rfl

theorem mem_iff {id : EntryId} : f id ∈ v ↔ id ∈ w := by
  rw [mem_iff_get?, mem_iff_get?, h.get?]
  simp

theorem insert_fst (p : Payload L) : (v.insert (p.map f φ)).1 = (w.insert p).1.map f φ := by
  rw [Workspace.insert_fst, Workspace.insert_fst, h.nextId, Entry.map_ofPayload]

theorem insert (p : Payload L) : IsImage f φ (w.insert p).2 (v.insert (p.map f φ)).2 where
  keepsOrder := h.keepsOrder
  policy := h.policy
  issued := congrArg (· + 1) h.issued
  numbered := h.numbered
  get? id := by
    rw [get?_insert, get?_insert, h.nextId, h.get?]
    simp only [h.keepsOrder.injective.eq_iff]
    split
    · rw [Option.map_some, Entry.map_ofPayload]
    · rfl

theorem drop (id : EntryId) : IsImage f φ (w.drop id) (v.drop (f id)) where
  keepsOrder := h.keepsOrder
  policy := h.policy
  issued := h.issued
  numbered := h.numbered
  get? other := by
    rw [get?_drop, get?_drop, h.get?]
    simp only [h.keepsOrder.injective.eq_iff]
    split <;> rfl

theorem missing? (ids : List EntryId) : v.missing? (ids.map f) = (w.missing? ids).map f := by
  simp only [Workspace.missing?, List.find?_map, Function.comp_def, h.mem_iff]

theorem combine (op : Combinator) (operands : List (Child L)) :
    v.combine op (operands.map (Child.map f φ)) =
      mapResult f (Compound.map f φ) (w.combine op operands) := by
  have hreferences : (Compound.mk op (operands.map (Child.map f φ))).references =
      (Compound.mk op operands).references.map f := Compound.references_map ⟨op, operands⟩
  unfold Workspace.combine
  simp only [hreferences, h.missing?]
  cases w.missing? (Compound.mk op operands).references <;> rfl

theorem exists_of_mem (hv : v.Coherent) {id' : EntryId} (hid : id' ∈ v) : ∃ id ∈ w, f id = id' := by
  obtain ⟨i, -, rfl⟩ := hv.issued hid
  rw [h.numbered] at hid ⊢
  exact ⟨_, h.mem_iff.1 hid, rfl⟩

variable (hw : w.Coherent) (hv : v.Coherent)
include hw hv

theorem toList : v.toList = w.toList.map (Entry.map f φ) := by
  have hordered : InOrder compare Entry.id (w.toList.map (Entry.map f φ)) := by
    refine List.pairwise_map.2 ((List.pairwise_map.1 hw.sorted_toList).imp fun {a b} hlt => ?_)
    exact (h.keepsOrder a.id b.id).trans hlt
  refine InOrder.eq_of_mem_iff (.of_map hv.sorted_toList) hordered fun e' => ?_
  rw [hv.mem_toList, List.mem_map]
  constructor
  · intro he'
    obtain ⟨id, -, hid⟩ := h.exists_of_mem hv (mem_iff_get?.2 ⟨e', he'⟩)
    rw [← hid, h.get?] at he'
    obtain ⟨e, he, rfl⟩ := Option.map_eq_some_iff.1 he'
    exact ⟨e, hw.mem_toList.2 (hw.id_eq he ▸ he), rfl⟩
  · rintro ⟨e, he, rfl⟩
    show v.get? (f e.id) = _
    rw [h.get?, hw.mem_toList.1 he, Option.map_some]

theorem size : v.size = w.size := by
  have hlength := congrArg List.length (h.toList hw hv)
  simpa [Workspace.toList, Workspace.size] using hlength

theorem isEmpty : v.isEmpty = w.isEmpty := by
  have hempty := congrArg List.isEmpty (h.toList hw hv)
  simpa [Workspace.toList, Workspace.isEmpty] using hempty

theorem graph : w.graph.IsImage f v.graph := by
  intro id
  rw [hv.graph, hw.graph, h.get?, Option.map_map, Option.map_map]
  rfl

theorem loop? (ids : IdSet) : v.loop? (IdSet.map f ids) = (w.loop? ids).map (List.map f) := by
  by_cases hnext : w.nextId ∈ ids
  · have hnext' : v.nextId ∈ IdSet.map f ids := h.nextId ▸ (IdSet.mem_map_apply h.keepsOrder).2 hnext
    rw [hw.loop?_of_mem hnext, hv.loop?_of_mem hnext', h.nextId]
    rfl
  · have hnext' : v.nextId ∉ IdSet.map f ids := h.nextId ▸ mt (IdSet.mem_map_apply h.keepsOrder).1 hnext
    rw [hw.loop?_of_notMem hnext, hv.loop?_of_notMem hnext', h.policy,
      (h.graph hw hv).sharing?_eq h.keepsOrder]
    split
    · rw [Option.map_map, Option.map_map]
      rfl
    · rfl

theorem hasLoop (ids : List EntryId) : v.hasLoop (ids.map f) = mapResult f id (w.hasLoop ids) := by
  unfold Workspace.hasLoop
  rw [h.missing?, ← IdSet.map_ofList, h.loop? hw hv]
  cases w.missing? ids with
  | some id => rfl
  | none => simp [mapResult]

theorem register (c : Compound L) :
    (v.register (c.map f φ)).1 = mapResult f (Entry.map f φ) (w.register c).1 ∧
      IsImage f φ (w.register c).2 (v.register (c.map f φ)).2 := by
  have hothers : (c.map f φ).referenceSet.toList.filter (· ≠ v.nextId) =
      (c.referenceSet.toList.filter (· ≠ w.nextId)).map f := by
    rw [Compound.referenceSet_map, IdSet.toList_map h.keepsOrder, List.filter_map, h.nextId]
    simp [Function.comp_def, h.keepsOrder.injective.eq_iff]
  unfold Workspace.register
  rw [hothers, h.missing?, Compound.referenceSet_map, h.loop? hw hv]
  cases w.missing? (c.referenceSet.toList.filter (· ≠ w.nextId)) with
  | some id => exact ⟨rfl, h⟩
  | none =>
    cases w.loop? c.referenceSet with
    | some ids => exact ⟨rfl, h⟩
    | none => exact ⟨congrArg Except.ok (h.insert_fst (.compound c)), h.insert (.compound c)⟩

theorem join (op : Combinator) (operands : List (Child L)) :
    (v.join op (operands.map (Child.map f φ))).1 = mapResult f (Entry.map f φ) (w.join op operands).1 ∧
      IsImage f φ (w.join op operands).2 (v.join op (operands.map (Child.map f φ))).2 := by
  unfold Workspace.join
  rw [h.combine]
  cases w.combine op operands with
  | error e => exact ⟨rfl, h⟩
  | ok c => exact h.register hw hv c

theorem resolve (id : EntryId) : v.resolve (f id) = mapResult f (Tree.map φ) (w.resolve id) := by
  induction id using hw.reference_induction with
  | step id ih =>
    cases he : w.get? id with
    | none =>
      have hid : id ∉ w := notMem_iff_get?.2 he
      rw [resolve_of_notMem hid, resolve_of_notMem (mt h.mem_iff.1 hid)]
      rfl
    | some e =>
      have he' : v.get? (f id) = some (e.map f φ) := by rw [h.get?, he, Option.map_some]
      rw [hw.resolve_of_get? he, hv.resolve_of_get? he']
      exact Payload.expand_map fun b hb => ih b (hw.edge_iff.2 ⟨e, he, hb⟩)

theorem allReferences (id : EntryId) :
    v.allReferences (f id) = mapResult f (IdSet.map f) (w.allReferences id) := by
  unfold Workspace.allReferences
  rw [(h.graph hw hv).closure_eq]
  simp only [h.mem_iff]
  split <;> rfl

end IsImage

end Workspace

theorem Reply.ofExcept_map {α β : Type} {reply : α → Reply L} {reply' : β → Reply M} {g : α → β}
    {r : Except Workspace.Error α} {r' : Except Workspace.Error β} (hr : r' = Workspace.mapResult f g r)
    (h : ∀ a, reply' (g a) = (reply a).map f φ) : ofExcept reply' r' = (ofExcept reply r).map f φ := by
  rw [hr]
  cases r with
  | ok a => exact h a
  | error e => rfl

namespace Workspace

variable {w : Workspace L} {v : Workspace M}

theorem IsImage.perform (h : IsImage f φ w v) (hw : w.Coherent) (hv : v.Coherent) (call : Call L) :
    (v.perform (call.map f φ)).1 = (w.perform call).1.map f φ ∧
      IsImage f φ (w.perform call).2 (v.perform (call.map f φ)).2 := by
  cases call with
  | put value => exact ⟨congrArg Reply.entry (h.insert_fst (.leaf value)), h.insert (.leaf value)⟩
  | remove id =>
    simp only [Call.map, Workspace.perform, Workspace.remove, h.get?]
    cases w.get? id with
    | none => exact ⟨rfl, h⟩
    | some e => exact ⟨rfl, h.drop id⟩
  | register c =>
    obtain ⟨hresult, himage⟩ := h.register hw hv c
    exact ⟨Reply.ofExcept_map hresult fun _ => rfl, himage⟩
  | join op operands =>
    obtain ⟨hresult, himage⟩ := h.join hw hv op operands
    exact ⟨Reply.ofExcept_map hresult fun _ => rfl, himage⟩
  | combine op operands => exact ⟨Reply.ofExcept_map (h.combine op operands) fun _ => rfl, h⟩
  | resolve id => exact ⟨Reply.ofExcept_map (h.resolve hw hv id) fun _ => rfl, h⟩
  | allReferences id => exact ⟨Reply.ofExcept_map (h.allReferences hw hv id) fun _ => rfl, h⟩
  | hasLoop ids => exact ⟨Reply.ofExcept_map (h.hasLoop hw hv ids) fun _ => rfl, h⟩
  | get id => exact ⟨congrArg Reply.found (h.get? id), h⟩
  | has id => exact ⟨congrArg Reply.flag (decide_eq_decide.2 h.mem_iff), h⟩
  | size => exact ⟨congrArg Reply.count (h.size hw hv), h⟩
  | isEmpty => exact ⟨congrArg Reply.flag (h.isEmpty hw hv), h⟩
  | entries => exact ⟨congrArg Reply.entries (h.toList hw hv), h⟩
  | nextId => exact ⟨congrArg Reply.id h.nextId, h⟩

theorem IsImage.run (h : IsImage f φ w v) (hw : w.Coherent) (hv : v.Coherent) (calls : List (Call L)) :
    (v.run (calls.map (Call.map f φ))).1 = (w.run calls).1.map (Reply.map f φ) := by
  induction calls generalizing w v with
  | nil => rfl
  | cons call calls ih =>
    obtain ⟨hreply, himage⟩ := h.perform hw hv call
    rw [List.map_cons, run_cons, run_cons, List.map_cons, hreply,
      ih himage (hw.step (step_perform w call)) (hv.step (step_perform v _))]

theorem IsImage.after (h : IsImage f φ w v) (hw : w.Coherent) (hv : v.Coherent) (calls : List (Call L)) :
    IsImage f φ (w.after calls) (v.after (calls.map (Call.map f φ))) := by
  induction calls generalizing w v with
  | nil => exact h
  | cons call calls ih =>
    have himage := (h.perform hw hv call).2
    exact ih himage (hw.step (step_perform w call)) (hv.step (step_perform v _))

end Workspace

end FilterWorkspace
