import FilterWorkspace.Proofs.Workspace.Image
import FilterWorkspace.Proofs.Workspace.Postponement

/-! Leaves are not looked at. Whatever stands in the place of the leaves that a workspace is given, the calls
are answered alike, and the leaves of the replies are those that stand in their place. -/

namespace FilterWorkspace

variable {L M : Type} {φ : L → M}

/-! Other leaves in the place of those that are there, under the same identifiers. -/

def Compound.mapLeaves (φ : L → M) (c : Compound L) : Compound M := c.map id φ

def Payload.mapLeaves (φ : L → M) (p : Payload L) : Payload M := p.map id φ

def Call.mapLeaves (φ : L → M) (call : Call L) : Call M := call.map id φ

theorem Workspace.Error.map_id (e : Error) : e.map id = e := by
  cases e with
  | unknownReference a => rfl
  | cycle ids => exact congrArg cycle (List.map_id ids)
  | poisoned => rfl

namespace Tree

mutual

theorem leaves_map : ∀ t : Tree L, (t.map φ).leaves = t.leaves.map φ
  | leaf value => rfl
  | compound op content => by rw [map, leaves, leaves, leavesOfAll_mapAll content]

theorem leavesOfAll_mapAll : ∀ ts : List (Tree L), leavesOfAll (mapAll φ ts) = (leavesOfAll ts).map φ
  | [] => rfl
  | t :: ts => by rw [mapAll, leavesOfAll, leavesOfAll, leaves_map t, leavesOfAll_mapAll ts, List.map_append]

end

mutual

theorem depth_map : ∀ t : Tree L, (t.map φ).depth = t.depth
  | leaf value => rfl
  | compound op content => by rw [map, depth, depth, depthOfAll_mapAll content]

theorem depthOfAll_mapAll : ∀ ts : List (Tree L), depthOfAll (mapAll φ ts) = depthOfAll ts
  | [] => rfl
  | t :: ts => by rw [mapAll, depthOfAll, depthOfAll, depth_map t, depthOfAll_mapAll ts]

end

structure LeafImage (φ : L → M) (t : Tree L) (t' : Tree M) : Prop where
  eq_map : t' = t.map φ
  leaves : t'.leaves = t.leaves.map φ
  length_leaves : t'.leaves.length = t.leaves.length
  depth : t'.depth = t.depth

end Tree

structure Entry.LeafImage (φ : L → M) (e : Entry L) (e' : Entry M) : Prop where
  id : e'.id = e.id
  payload : e'.payload = e.payload.mapLeaves φ
  references : e'.references = e.references

inductive Reply.LeafImage (φ : L → M) : Reply L → Reply M → Prop
  | entry {e : Entry L} {e' : Entry M} (h : e.LeafImage φ e') : LeafImage φ (.entry e) (.entry e')
  | found {e : Option (Entry L)} {e' : Option (Entry M)} (h : Option.Rel (Entry.LeafImage φ) e e') :
      LeafImage φ (.found e) (.found e')
  | entries {es : List (Entry L)} {es' : List (Entry M)} (h : List.Forall₂ (Entry.LeafImage φ) es es') :
      LeafImage φ (.entries es) (.entries es')
  | compound (c : Compound L) : LeafImage φ (.compound c) (.compound (c.mapLeaves φ))
  | tree {t : Tree L} {t' : Tree M} (h : t.LeafImage φ t') : LeafImage φ (.tree t) (.tree t')
  | id (a : EntryId) : LeafImage φ (.id a) (.id a)
  | ids (below : IdSet) : LeafImage φ (.ids below) (.ids below)
  | flag (b : Bool) : LeafImage φ (.flag b) (.flag b)
  | count (n : Nat) : LeafImage φ (.count n) (.count n)
  | failure (e : Workspace.Error) : LeafImage φ (.failure e) (.failure e)

theorem leafImage_tree (t : Tree L) : t.LeafImage φ (t.map φ) where
  eq_map := rfl
  leaves := t.leaves_map
  length_leaves := by rw [t.leaves_map, List.length_map]
  depth := t.depth_map

theorem leafImage_entry (e : Entry L) : e.LeafImage φ (e.map id φ) where
  id := rfl
  payload := rfl
  references := IdSet.map_id e.references

theorem leafImage_found (e : Option (Entry L)) :
    Option.Rel (Entry.LeafImage φ) e (e.map (Entry.map id φ)) := by
  cases e with
  | none => exact .none
  | some e => exact .some (leafImage_entry e)

theorem leafImage_reply (reply : Reply L) : reply.LeafImage φ (reply.map id φ) := by
  cases reply with
  | entry e => exact .entry (leafImage_entry e)
  | found e => exact .found (leafImage_found e)
  | entries es =>
    refine .entries ?_
    rw [List.forall₂_map_right_iff, List.forall₂_same]
    exact fun e _ => leafImage_entry e
  | compound c => exact .compound c
  | tree t => exact .tree (leafImage_tree t)
  | ids below =>
    rw [Reply.map, IdSet.map_id]
    exact .ids below
  | failure e =>
    rw [Reply.map, e.map_id]
    exact .failure e
  | id a => exact .id a
  | flag b => exact .flag b
  | count n => exact .count n

namespace Workspace

structure LeafImage (φ : L → M) (w : Workspace L) (v : Workspace M) : Prop where
  settings : v.settings = w.settings
  ids : v.ids = w.ids
  graph : v.graph = w.graph
  get? : ∀ a, Option.Rel (Entry.LeafImage φ) (w.get? a) (v.get? a)

theorem IsImage.leafImage {w : Workspace L} {v : Workspace M} (h : IsImage id φ w v) (hw : w.Coherent)
    (hv : v.Coherent) (hsettings : v.settings = w.settings) (hspace : v.ids.space = w.ids.space) :
    w.LeafImage φ v where
  settings := hsettings
  ids := by
    calc v.ids = ⟨v.ids.space, v.ids.issued⟩ := rfl
      _ = ⟨w.ids.space, w.ids.issued⟩ := by rw [hspace, h.issued]
      _ = w.ids := rfl
  graph := by
    have hkept : IdSet.map id = id := funext IdSet.map_id
    refine ReferenceGraph.ext_references? fun a => ?_
    have ha := h.graph hw hv a
    rw [hkept, Option.map_id] at ha
    exact ha
  get? a := by
    have ha : v.get? a = (w.get? a).map (Entry.map id φ) := h.get? a
    rw [ha]
    exact leafImage_found (w.get? a)

/-- What stands in the place of a leaf makes no difference to anything else. Where each leaf that is supplied
is replaced by its image under `φ`, each reply is the earlier one with its leaves replaced, and so is what
the workspace holds in the end. -/
theorem run_mapLeaves (φ : L → M) {settings : Settings} {createdAt createdAt' : Int}
    (hspace : settings.space createdAt' = settings.space createdAt) (calls : List (Call L)) :
    let w : Workspace L := create settings createdAt
    let v : Workspace M := create settings createdAt'
    List.Forall₂ (Reply.LeafImage φ) (w.run calls).1 (v.run (calls.map (Call.mapLeaves φ))).1 ∧
      (w.after calls).LeafImage φ (v.after (calls.map (Call.mapLeaves φ))) := by
  intro w v
  have hw : w.Coherent := coherent_create settings createdAt
  have hv : v.Coherent := coherent_create settings createdAt'
  have himage : IsImage id φ w v :=
    isImage_create (fun _ _ => rfl) rfl fun n => congrArg (EntryId.numbered · n) hspace
  constructor
  · have hreplies : (v.run (calls.map (Call.mapLeaves φ))).1 = (w.run calls).1.map (Reply.map id φ) :=
      himage.run hw hv calls
    rw [hreplies, List.forall₂_map_right_iff, List.forall₂_same]
    exact fun reply _ => leafImage_reply reply
  · refine (himage.after hw hv calls).leafImage (hw.after calls) (hv.after _) ?_ ?_
    · rw [settings_after, settings_after]
      rfl
    · rw [space_after, space_after]
      exact hspace

theorem run_mapLeaves_parity :
    let φ : Nat → Bool := fun n => n % 2 == 0
    let settings : Settings := { label := some "a", policy := .strict }
    let w : Workspace Nat := create settings 0
    let v : Workspace Bool := create settings 5
    let calls : List (Call Nat) :=
      [.put 7, .put 9, .join .not [.reference ⟨"a_0"⟩, .leaf 4], .resolve ⟨"a_2"⟩,
        .join .or [.reference ⟨"a_0"⟩, .reference ⟨"a_2"⟩], .remove ⟨"a_0"⟩, .resolve ⟨"a_2"⟩]
    settings.space 5 = settings.space 0 ∧
      List.Forall₂ (Reply.LeafImage φ) (w.run calls).1 (v.run (calls.map (Call.mapLeaves φ))).1 ∧
      (v.run (calls.map (Call.mapLeaves φ))).1 =
        [.entry ⟨⟨"a_0"⟩, .leaf false, ∅⟩, .entry ⟨⟨"a_1"⟩, .leaf false, ∅⟩,
          .entry ⟨⟨"a_2"⟩, .compound ⟨.not, [.reference ⟨"a_0"⟩, .leaf true]⟩, .ofList [(⟨"a_0"⟩ : EntryId)]⟩,
          .tree (.compound .not [.leaf false, .leaf true]), .failure (.cycle [⟨"a_2"⟩, ⟨"a_0"⟩]),
          .found (some ⟨⟨"a_0"⟩, .leaf false, ∅⟩), .failure (.unknownReference ⟨"a_0"⟩)] := by
  intro φ settings w v calls
  have hspace : settings.space 5 = settings.space 0 := by decide +kernel
  exact ⟨hspace, (run_mapLeaves φ hspace calls).1, by decide +kernel⟩

end Workspace

end FilterWorkspace
