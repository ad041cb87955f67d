import FilterWorkspace.Proofs.InOrder
import FilterWorkspace.Workspace.Renaming

/-! Renamings that keep the byte order of identifiers. A set lists what was renamed in the same order as
before. -/

namespace FilterWorkspace

namespace EntryId

def KeepsOrder (f : EntryId → EntryId) : Prop := ∀ a b, compare (f a) (f b) = compare a b

theorem keepsOrder_under (space : String) : KeepsOrder (under space) := fun a b =>
  Text.byteOrder_append_left space a.text b.text

theorem KeepsOrder.injective {f : EntryId → EntryId} (hf : KeepsOrder f) : Function.Injective f := by
  intro a b h
  rw [← Std.LawfulEqOrd.compare_eq_iff_eq (α := EntryId), ← hf, h]
  exact Std.ReflCmp.compare_self

theorem under_numbered (space : String) (n : Nat) : under space (numbered "" n) = numbered space n := by
  simp [under, numbered, String.append_assoc]

theorem moved_under (old new : String) (id : EntryId) : moved old new (under old id) = under new id := by
  have hdrop : (old ++ id.text).toList.drop old.length = id.text.toList := by
    rw [String.toList_append, ← String.length_toList, List.drop_left]
  rw [moved, under, under, hdrop, String.ofList_toList]

theorem moved_comp_under (old new : String) : moved old new ∘ under old = under new :=
  funext (moved_under old new)

theorem under_comp_moved (old new : String) : under new ∘ moved old "" = moved old new := by
  funext id
  simp [moved, under]

theorem moved_numbered (old new : String) (n : Nat) : moved old new (numbered old n) = numbered new n := by
  rw [← under_numbered, moved_under, under_numbered]

theorem compare_numbered (old new : String) (m n : Nat) :
    compare (numbered old m) (numbered old n) = compare (numbered new m) (numbered new n) := by
  simp only [← under_numbered old, ← under_numbered new, keepsOrder_under old _ _, keepsOrder_under new _ _]

end EntryId

open EntryId

variable {f g : EntryId → EntryId}

namespace IdSet

theorem mem_map {ids : IdSet} {a : EntryId} : a ∈ IdSet.map f ids ↔ ∃ b ∈ ids, f b = a := by
  simp [IdSet.map, Std.ExtTreeSet.mem_ofList]

theorem map_id (ids : IdSet) : IdSet.map id ids = ids := by
  apply Std.ExtTreeSet.ext_mem
  intro a
  simp [mem_map]

theorem map_ofList (l : List EntryId) : IdSet.map f (.ofList l) = .ofList (l.map f) := by
  apply Std.ExtTreeSet.ext_mem
  intro a
  simp [mem_map, Std.ExtTreeSet.mem_ofList]

theorem map_map (ids : IdSet) : IdSet.map g (IdSet.map f ids) = IdSet.map (g ∘ f) ids := by
  apply Std.ExtTreeSet.ext_mem
  intro a
  rw [mem_map, mem_map]
  constructor
  · rintro ⟨_, hmem, rfl⟩
    obtain ⟨b, hb, rfl⟩ := mem_map.1 hmem
    exact ⟨b, hb, rfl⟩
  · rintro ⟨b, hb, rfl⟩
    exact ⟨f b, mem_map.2 ⟨b, hb, rfl⟩, rfl⟩

variable (hf : KeepsOrder f)
include hf

theorem mem_map_apply {ids : IdSet} {a : EntryId} : f a ∈ IdSet.map f ids ↔ a ∈ ids := by
  simp [mem_map, hf.injective.eq_iff]

theorem toList_map (ids : IdSet) : (IdSet.map f ids).toList = ids.toList.map f := by
  have hordered : ids.toList.Pairwise fun a b => compare a b = .lt := Std.ExtTreeSet.ordered_toList
  exact toList_ofList_set (List.pairwise_map.2 (hordered.imp fun {a b} hlt => (hf a b).trans hlt))

end IdSet

end FilterWorkspace
