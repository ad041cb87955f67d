import FilterWorkspace.Proofs.Workspace.Image

/-! The space of identifiers is only a name. Whatever two workspaces put before the numbers of their
entries, they answer the same calls alike. -/

namespace FilterWorkspace

variable {K L M : Type} {f g : EntryId → EntryId} {φ : K → L} {ψ : L → M}

theorem Child.map_comp_map : Child.map g ψ ∘ Child.map f φ = Child.map (g ∘ f) (ψ ∘ φ) := by
  funext child
  cases child <;> rfl

theorem Compound.map_map (c : Compound K) : (c.map f φ).map g ψ = c.map (g ∘ f) (ψ ∘ φ) := by
  simp only [map, List.map_map, Child.map_comp_map]

theorem Payload.map_map (p : Payload K) : (p.map f φ).map g ψ = p.map (g ∘ f) (ψ ∘ φ) := by
  cases p with
  | leaf value => rfl
  | compound c => exact congrArg compound c.map_map

theorem Entry.map_comp_map : Entry.map g ψ ∘ Entry.map f φ = Entry.map (g ∘ f) (ψ ∘ φ) := by
  funext e
  simp only [map, Payload.map_map, IdSet.map_map, Function.comp_apply]

namespace Tree

mutual

theorem map_map : ∀ t : Tree K, (t.map φ).map ψ = t.map (ψ ∘ φ)
  | leaf value => rfl
  | compound op content => by rw [map, map, map, mapAll_mapAll content]

theorem mapAll_mapAll : ∀ ts : List (Tree K), mapAll ψ (mapAll φ ts) = mapAll (ψ ∘ φ) ts
  | [] => rfl
  | t :: ts => by rw [mapAll, mapAll, mapAll, map_map t, mapAll_mapAll ts]

end

mutual

theorem map_id : ∀ t : Tree L, t.map id = t
  | leaf value => rfl
  | compound op content => by rw [map, mapAll_id content]

theorem mapAll_id : ∀ ts : List (Tree L), mapAll id ts = ts
  | [] => rfl
  | t :: ts => by rw [mapAll, map_id t, mapAll_id ts]

end

end Tree

theorem Workspace.Error.map_map (e : Error) : (e.map f).map g = e.map (g ∘ f) := by
  cases e <;> simp only [map, List.map_map, Function.comp_apply]

theorem Reply.map_map (reply : Reply K) : (reply.map f φ).map g ψ = reply.map (g ∘ f) (ψ ∘ φ) := by
  have hentry (e : Entry K) : (e.map f φ).map g ψ = e.map (g ∘ f) (ψ ∘ φ) := congrFun Entry.map_comp_map e
  cases reply <;> simp only [map, hentry, Option.map_map, List.map_map, Entry.map_comp_map, Compound.map_map,
    Tree.map_map, IdSet.map_map, Workspace.Error.map_map, Function.comp_apply]

theorem Child.map_eq_self {content : List (Child L)}
    (h : ∀ id ∈ content.filterMap Child.reference?, f id = id) : content.map (Child.map f id) = content := by
  conv_rhs => rw [← List.map_id content]
  refine List.map_congr_left fun child hmem => ?_
  cases child with
  | leaf value => rfl
  | reference id => exact congrArg reference (h id (List.mem_filterMap.2 ⟨_, hmem, rfl⟩))

namespace Call

theorem map_map (call : Call K) : (call.map f φ).map g ψ = call.map (g ∘ f) (ψ ∘ φ) := by
  cases call <;> simp only [map, Child.map_comp_map, Compound.map_map, List.map_map, Function.comp_apply]

theorem map_eq_self {call : Call L} (h : ∀ id ∈ call.ids, f id = id) : call.map f id = call := by
  cases call with
  | combine op operands => exact congrArg (combine op) (Child.map_eq_self h)
  | join op operands => exact congrArg (join op) (Child.map_eq_self h)
  | register c => exact congrArg (fun content => register ⟨c.op, content⟩) (Child.map_eq_self h)
  | hasLoop ids =>
    have hids : ids.map f = ids.map id := List.map_congr_left h
    rw [map, hids, List.map_id]
  | remove id => exact congrArg remove (h id List.mem_cons_self)
  | get id => exact congrArg get (h id List.mem_cons_self)
  | has id => exact congrArg has (h id List.mem_cons_self)
  | resolve id => exact congrArg resolve (h id List.mem_cons_self)
  | allReferences id => exact congrArg allReferences (h id List.mem_cons_self)
  | put value => rfl
  | size => rfl
  | isEmpty => rfl
  | entries => rfl
  | nextId => rfl

theorem map_under_map_moved (old new : String) (calls : List (Call L)) :
    (calls.map (Call.map (.moved old "") id)).map (Call.map (.under new) id) =
      calls.map (Call.map (.moved old new) id) := by
  rw [List.map_map]
  refine List.map_congr_left fun call _ => ?_
  rw [Function.comp_apply, map_map, EntryId.under_comp_moved]
  rfl

end Call

namespace Workspace

/-- The calls on a workspace are answered as they would be if identifiers were numbers only. -/
theorem run_under (settings : Settings) (createdAt : Int) (calls : List (Call L)) :
    ((create settings createdAt).run (calls.map (Call.map (.under (settings.space createdAt)) id))).1 =
      ((create { policy := settings.policy } 0).run calls).1.map
        (Reply.map (.under (settings.space createdAt)) id) := by
  have himage : IsImage (.under (settings.space createdAt)) id
      (create { policy := settings.policy } 0 : Workspace L) (create settings createdAt) :=
    isImage_create (EntryId.keepsOrder_under _) rfl fun n => (EntryId.under_numbered _ n).symm
  exact himage.run (coherent_create _ _) (coherent_create _ _) calls

/-- Two workspaces of one sharing policy answer the same calls alike, when every identifier is given by its
number: the replies of the second are those of the first in the other space. Trees are the same, and
identifiers have the same order in both spaces. -/
theorem run_moved {settings settings' : Settings} (createdAt createdAt' : Int)
    (hpolicy : settings.policy = settings'.policy) {calls : List (Call L)}
    (hcalls : ∀ call ∈ calls, ∀ id ∈ call.ids, ∃ k, id = .numbered (settings.space createdAt) k) :
    let rename := EntryId.moved (settings.space createdAt) (settings'.space createdAt')
    ((create settings' createdAt').run (calls.map (Call.map rename id))).1 =
        ((create settings createdAt).run calls).1.map (Reply.map rename id) ∧
      (∀ k, rename (.numbered (settings.space createdAt) k) = .numbered (settings'.space createdAt') k) ∧
      (∀ j k, compare (rename (.numbered (settings.space createdAt) j))
          (rename (.numbered (settings.space createdAt) k)) =
        compare (EntryId.numbered (settings.space createdAt) j) (.numbered (settings.space createdAt) k)) ∧
      ∀ t : Tree L, Reply.map rename id (.tree t) = .tree t := by
  intro rename
  have hnumbered (k : Nat) :
      rename (.numbered (settings.space createdAt) k) = .numbered (settings'.space createdAt') k :=
    EntryId.moved_numbered _ _ k
  have hkept : calls.map (Call.map (.moved (settings.space createdAt) (settings.space createdAt)) id) =
      calls := by
    conv_rhs => rw [← List.map_id calls]
    refine List.map_congr_left fun call hcall => Call.map_eq_self fun id hid => ?_
    obtain ⟨k, rfl⟩ := hcalls call hcall id hid
    exact EntryId.moved_numbered _ _ k
  refine ⟨?_, hnumbered, fun j k => ?_, fun t => congrArg Reply.tree t.map_id⟩
  · -- Both runs are the run of the bare numbers, each under its own space.
    rw [← Call.map_under_map_moved, run_under, ← hpolicy]
    conv_rhs => rw [← hkept, ← Call.map_under_map_moved, run_under, List.map_map]
    refine List.map_congr_left fun reply _ => ?_
    rw [Function.comp_apply, Reply.map_map, EntryId.moved_comp_under]
    rfl
  · rw [hnumbered, hnumbered]
    exact EntryId.compare_numbered _ _ j k

theorem run_moved_strict :
    let settings : Settings := { label := some "a", policy := .strict }
    let settings' : Settings := { timestamp := true, policy := .strict }
    let calls (space : String) : List (Call Nat) :=
      [.put 7, .join .not [.reference (.numbered space 0)], .register ⟨.or, [.reference (.numbered space 2)]⟩,
        .join .and [.reference (.numbered space 0), .leaf 8, .reference (.numbered space 1)],
        .remove (.numbered space 0), .resolve (.numbered space 1), .get (.numbered space 12)]
    ((create settings' (-5)).run (calls "-5")).1 =
        ((create settings 0).run (calls "a")).1.map (Reply.map (.moved "a" "-5") id) ∧
      ((create settings' (-5)).run (calls "-5")).1 =
        [.entry ⟨⟨"-5_0"⟩, .leaf 7, ∅⟩,
          .entry ⟨⟨"-5_1"⟩, .compound ⟨.not, [.reference ⟨"-5_0"⟩]⟩, .ofList [(⟨"-5_0"⟩ : EntryId)]⟩,
          .failure (.cycle [⟨"-5_2"⟩, ⟨"-5_2"⟩]), .failure (.cycle [⟨"-5_1"⟩, ⟨"-5_0"⟩]),
          .found (some ⟨⟨"-5_0"⟩, .leaf 7, ∅⟩), .failure (.unknownReference ⟨"-5_0"⟩), .found none] := by
  intro settings settings' calls
  have hpolicy : settings.policy = settings'.policy := rfl
  have hspace : settings.space 0 = "a" := by decide +kernel
  have hspace' : settings'.space (-5) = "-5" := by decide +kernel
  have hcalls : ∀ call ∈ calls "a", ∀ id ∈ call.ids, ∃ k, id = .numbered (settings.space 0) k := by
    rw [hspace]
    simp [calls, Call.ids, Child.reference?, Compound.references, EntryId.numbered_inj]
  have hreplies : ((create settings' (-5)).run
        ((calls "a").map (Call.map (.moved (settings.space 0) (settings'.space (-5))) id))).1 =
      ((create settings 0).run (calls "a")).1.map
        (Reply.map (.moved (settings.space 0) (settings'.space (-5))) id) :=
    (run_moved 0 (-5) hpolicy hcalls).1
  have hmoved : (calls "a").map (Call.map (.moved "a" "-5") id) = calls "-5" := by decide +kernel
  rw [hspace, hspace', hmoved] at hreplies
  exact ⟨hreplies, by decide +kernel⟩

end Workspace

end FilterWorkspace
