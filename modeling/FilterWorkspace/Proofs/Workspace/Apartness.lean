import FilterWorkspace.Proofs.EntryId.Parts
import FilterWorkspace.Proofs.Workspace.Ledger
import FilterWorkspace.Proofs.Workspace.Prediction

/-! What workspaces of different settings have in common. The space of a workspace joins its label and its
time with an underscore, and labels may have underscores and digits too. So the time can be told from the
space if there is known to be one, and otherwise a label may look like another label with a time. -/

namespace FilterWorkspace

namespace Settings

variable {s s' : Settings} {createdAt createdAt' : Int}

def stamped (label : Option String) (createdAt : Int) : String :=
  match label with
  | none => createdAt.repr
  | some label => label ++ "_" ++ createdAt.repr

/-- The settings have a label and no time, and the label reads like the label of `s'` with a time. -/
def Mimics (s s' : Settings) (createdAt' : Int) : Prop :=
  s.timestamp = false ∧ s'.timestamp = true ∧
    s.effectiveLabel = some (stamped s'.effectiveLabel createdAt')

instance (s s' : Settings) (createdAt' : Int) : Decidable (s.Mimics s' createdAt') :=
  inferInstanceAs (Decidable (_ ∧ _ ∧ _))

theorem stamped_ne_empty (label : Option String) (createdAt : Int) : stamped label createdAt ≠ "" := by
  cases label with
  | none => exact Text.intRepr_ne_empty createdAt
  | some label => exact fun heq => Text.intRepr_ne_empty createdAt (String.append_eq_empty_iff.1 heq).2

theorem stamped_inj {label label' : Option String} :
    stamped label createdAt = stamped label' createdAt' ↔ label = label' ∧ createdAt = createdAt' := by
  have hplain := Text.underscore_notMem_intRepr createdAt
  have hplain' := Text.underscore_notMem_intRepr createdAt'
  have hne (label : String) {i : Int} (hi : '_' ∉ i.repr.toList) (time : String) :
      i.repr ≠ label ++ "_" ++ time := fun heq => hi (by simp [heq])
  unfold stamped
  cases label with
  | none =>
    cases label' with
    | none => simp [Int.repr_inj]
    | some label' => simp [hne label' hplain]
  | some label =>
    cases label' with
    | none => simp [(hne label hplain' _).symm]
    | some label' =>
      dsimp only
      rw [Text.append_underscore_inj hplain hplain', Int.repr_inj, Option.some.injEq]

theorem ne_empty_of_effectiveLabel {label : String} (h : s.effectiveLabel = some label) : label ≠ "" := by
  simpa using (Option.filter_eq_some_iff.1 h).2

theorem effectiveTime_eq_iff : s.effectiveTime createdAt = s'.effectiveTime createdAt' ↔
    s.timestamp = s'.timestamp ∧ (s.timestamp = true → createdAt = createdAt') := by
  unfold effectiveTime
  cases s.timestamp <;> cases s'.timestamp <;> simp

theorem space_without_time (h : s.timestamp = false) : s.space createdAt = s.effectiveLabel.getD "" := by
  cases hlabel : s.effectiveLabel <;> simp [space, effectiveTime, h, hlabel]

theorem space_with_time (h : s.timestamp = true) :
    s.space createdAt = stamped s.effectiveLabel createdAt := by
  cases hlabel : s.effectiveLabel <;> simp [space, effectiveTime, h, hlabel, stamped]

theorem space_eq_iff_without_time (h : s.timestamp = false) (h' : s'.timestamp = false) :
    s.space createdAt = s'.space createdAt' ↔ s.effectiveLabel = s'.effectiveLabel := by
  rw [space_without_time h, space_without_time h']
  cases hlabel : s.effectiveLabel with
  | none =>
    cases hlabel' : s'.effectiveLabel with
    | none => simp
    | some label' => simpa using (ne_empty_of_effectiveLabel hlabel').symm
  | some label =>
    cases hlabel' : s'.effectiveLabel with
    | none => simpa using ne_empty_of_effectiveLabel hlabel
    | some label' => simp

theorem space_eq_iff_with_time (h : s.timestamp = true) (h' : s'.timestamp = true) :
    s.space createdAt = s'.space createdAt' ↔
      s.effectiveLabel = s'.effectiveLabel ∧ createdAt = createdAt' := by
  rw [space_with_time h, space_with_time h', stamped_inj]

theorem space_eq_iff_mimics (h : s.timestamp = false) (h' : s'.timestamp = true) :
    s.space createdAt = s'.space createdAt' ↔ s.Mimics s' createdAt' := by
  have hstamped := stamped_ne_empty s'.effectiveLabel createdAt'
  rw [space_without_time h, space_with_time h', Mimics]
  cases s.effectiveLabel with
  | none => simpa [h, h'] using hstamped.symm
  | some label => simp [h, h']

theorem space_eq_space_iff : s.space createdAt = s'.space createdAt' ↔
    (s.effectiveLabel = s'.effectiveLabel ∧ s.effectiveTime createdAt = s'.effectiveTime createdAt') ∨
      s.Mimics s' createdAt' ∨ s'.Mimics s createdAt := by
  rw [effectiveTime_eq_iff]
  cases h : s.timestamp with
  | false =>
    cases h' : s'.timestamp with
    | false => simp [space_eq_iff_without_time h h', Mimics, h, h']
    | true =>
      rw [space_eq_iff_mimics h h']
      simp [Mimics, h, h']
  | true =>
    cases h' : s'.timestamp with
    | false =>
      rw [eq_comm, space_eq_iff_mimics h' h]
      simp [Mimics, h, h']
    | true => simp [space_eq_iff_with_time h h', Mimics, h, h']

theorem effectiveLabel_labelled_inj {label label' : String} :
    (labelled label).withTimestamp.effectiveLabel = (labelled label').withTimestamp.effectiveLabel ↔
      label = label' := by
  have hlabelled (label : String) : (labelled label).withTimestamp.effectiveLabel =
      if label = "" then none else some label := by
    simp [effectiveLabel, labelled, withTimestamp, Option.filter]
  rw [hlabelled, hlabelled]
  split <;> split <;> simp_all [eq_comm]

end Settings

namespace Workspace

variable {L M : Type}

theorem id_of_log {settings : Settings} {createdAt : Int} {calls : List (Call L)} {k : Nat} {e : Entry L}
    (h : (log ((create settings createdAt).history calls))[k]? = some e) :
    e.id = .numbered (settings.space createdAt) k := by
  have hfollows := follows_after (L := L) settings createdAt calls
  rw [hfollows.id_log k e h, space_after]
  rfl

theorem exists_numbered_of_mem_log {settings : Settings} {createdAt : Int} {calls : List (Call L)} {e : Entry L}
    (h : e ∈ log ((create settings createdAt).history calls)) :
    ∃ k, e.id = .numbered (settings.space createdAt) k := by
  obtain ⟨k, hk⟩ := List.mem_iff_getElem?.1 h
  exact ⟨k, id_of_log hk⟩

theorem exists_numbered_of_mem_after {settings : Settings} {createdAt : Int} {calls : List (Call L)}
    {id : EntryId} (h : id ∈ (create settings createdAt : Workspace L).after calls) :
    ∃ k, id = .numbered (settings.space createdAt) k := by
  obtain ⟨k, -, hid⟩ := (coherent_after settings createdAt calls).issued h
  rw [space_after] at hid
  exact ⟨k, hid⟩

/-- What one of the workspaces issues in its calls, the other neither issues nor holds after its own. -/
structure Apart (w : Workspace L) (v : Workspace M) (calls : List (Call L)) (calls' : List (Call M)) : Prop where
  issued : ∀ e ∈ log (w.history calls), ∀ e' ∈ log (v.history calls'), e.id ≠ e'.id
  notMem_after : ∀ e ∈ log (w.history calls), e.id ∉ v.after calls'
  notMem_after' : ∀ e' ∈ log (v.history calls'), e'.id ∉ w.after calls

theorem apart_of_space_ne {settings settings' : Settings} {createdAt createdAt' : Int}
    (h : settings.space createdAt ≠ settings'.space createdAt') (calls : List (Call L))
    (calls' : List (Call M)) : Apart (create settings createdAt) (create settings' createdAt') calls calls' := by
  have hne {m n : Nat} : EntryId.numbered (settings.space createdAt) m ≠
      .numbered (settings'.space createdAt') n := fun heq => h (EntryId.numbered_eq_numbered.1 heq).1
  constructor
  · intro e he e' he'
    obtain ⟨m, hm⟩ := exists_numbered_of_mem_log he
    obtain ⟨n, hn⟩ := exists_numbered_of_mem_log he'
    rw [hm, hn]
    exact hne
  · intro e he hmem
    obtain ⟨m, hm⟩ := exists_numbered_of_mem_log he
    obtain ⟨n, hn⟩ := exists_numbered_of_mem_after hmem
    exact hne (hm.symm.trans hn)
  · intro e' he' hmem
    obtain ⟨m, hm⟩ := exists_numbered_of_mem_after hmem
    obtain ⟨n, hn⟩ := exists_numbered_of_mem_log he'
    exact hne (hm.symm.trans hn)

theorem log_join_nil (settings : Settings) (createdAt : Int) (op : Combinator) :
    log ((create settings createdAt : Workspace L).history [.join op []]) =
      [.ofPayload (.numbered (settings.space createdAt) 0) (.compound ⟨op, []⟩)] := by
  let w : Workspace L := create settings createdAt
  have hloop : w.loop? ∅ = none := w.admits_empty.loop?_eq_none
  have hjoin : (w.join op []).1 = .ok (w.insert (.compound ⟨op, []⟩)).1 := by
    rw [join_of_held rfl, List.filterMap_nil, Std.ExtTreeSet.ofList_nil, hloop]
  simp only [log, history, run, perform, hjoin, w, Reply.ofExcept]
  rfl

theorem not_apart_of_space_eq {settings settings' : Settings} {createdAt createdAt' : Int}
    (h : settings.space createdAt = settings'.space createdAt') :
    ¬ Apart (create settings createdAt : Workspace L) (create settings' createdAt' : Workspace M)
      [.join .and []] [.join .and []] := by
  intro happart
  have hissued := happart.issued
  rw [log_join_nil, log_join_nil] at hissued
  exact hissued _ List.mem_cons_self _ List.mem_cons_self (congrArg (EntryId.numbered · 0) h)

/-- Workspaces that differ in their labels or in their times have no identifier in common, whatever calls
are made on them, unless the label of one is all of the space of the other. -/
theorem apart_iff_not_mimics {settings settings' : Settings} {createdAt createdAt' : Int}
    (hparts : settings.effectiveLabel ≠ settings'.effectiveLabel ∨
      settings.effectiveTime createdAt ≠ settings'.effectiveTime createdAt') :
    (∀ (calls : List (Call L)) (calls' : List (Call M)),
        Apart (create settings createdAt) (create settings' createdAt') calls calls') ↔
      ¬ settings.Mimics settings' createdAt' ∧ ¬ settings'.Mimics settings createdAt := by
  have hspace : settings.space createdAt = settings'.space createdAt' ↔
      settings.Mimics settings' createdAt' ∨ settings'.Mimics settings createdAt := by
    rw [Settings.space_eq_space_iff, or_iff_right]
    exact fun hsame => hparts.elim (fun hlabel => hlabel hsame.1) fun htime => htime hsame.2
  rw [← not_or, ← hspace]
  constructor
  · intro happart heq
    exact not_apart_of_space_eq heq (happart [.join .and []] [.join .and []])
  · exact fun hne calls calls' => apart_of_space_ne hne calls calls'

theorem apart_iff_not_mimics_near_miss :
    let settings : Settings := .labelled "a_5"
    let settings' : Settings := (Settings.labelled "a").withTimestamp
    settings.effectiveLabel ≠ settings'.effectiveLabel ∧
      (¬ settings.Mimics settings' 6 ∧ ¬ settings'.Mimics settings 0) ∧
      Apart (create settings 0) (create settings' 6) [.put 7] [.put 8, .join .not [.leaf 9]] := by
  intro settings settings'
  have hlabel : settings.effectiveLabel ≠ settings'.effectiveLabel := by decide +kernel
  have hmimics : ¬ settings.Mimics settings' 6 ∧ ¬ settings'.Mimics settings 0 := by decide +kernel
  have happart := (apart_iff_not_mimics (L := Nat) (M := Nat) (.inl hlabel)).2 hmimics
  exact ⟨hlabel, hmimics, happart _ _⟩

theorem not_apart_lookalike :
    let settings : Settings := .labelled "a_5"
    let settings' : Settings := (Settings.labelled "a").withTimestamp
    (settings.effectiveLabel ≠ settings'.effectiveLabel ∧
        settings.effectiveTime 0 ≠ settings'.effectiveTime 5) ∧
      ((create settings 0).run [.put 7]).1 = [.entry ⟨⟨"a_5_0"⟩, .leaf 7, ∅⟩] ∧
      ((create settings' 5).run [.put 8, .has ⟨"a_5_0"⟩]).1 =
        [.entry ⟨⟨"a_5_0"⟩, .leaf 8, ∅⟩, .flag true] ∧
      ¬ Apart (create settings 0) (create settings' 5) [.put 7] [.put 8] := by
  intro settings settings'
  have hheld : (⟨"a_5_0"⟩ : EntryId) ∈ (create settings' 5).after [.put 8] := by decide +kernel
  have hlog : log ((create settings 0).history [.put 7]) = [⟨⟨"a_5_0"⟩, .leaf 7, ∅⟩] := by decide +kernel
  refine ⟨by decide +kernel, by decide +kernel, by decide +kernel, fun happart => ?_⟩
  have hapart := happart.notMem_after
  rw [hlog] at hapart
  exact hapart _ List.mem_cons_self hheld

/-- A space and a number make an identifier that no others make. So workspaces with a label and a time issue
a common identifier only as the same number of the same label at the same time. -/
theorem id_eq_id_iff_of_labelled :
    (∀ (space space' : String) (m n : Nat),
        EntryId.numbered space m = .numbered space' n → space = space' ∧ m = n) ∧
      ∀ (label label' : String) (createdAt createdAt' : Int) (calls : List (Call L))
        (calls' : List (Call M)) (m n : Nat) (e : Entry L) (e' : Entry M),
        (log ((create (Settings.labelled label).withTimestamp createdAt).history calls))[m]? = some e →
        (log ((create (Settings.labelled label').withTimestamp createdAt').history calls'))[n]? = some e' →
        (e.id = e'.id ↔ m = n ∧ createdAt = createdAt' ∧ label = label') := by
  refine ⟨fun _ _ _ _ => EntryId.numbered_eq_numbered.1, ?_⟩
  intro label label' createdAt createdAt' calls calls' m n e e' he he'
  have htime (label : String) : (Settings.labelled label).withTimestamp.timestamp = true := rfl
  rw [id_of_log he, id_of_log he', EntryId.numbered_eq_numbered,
    Settings.space_eq_iff_with_time (htime label) (htime label'), Settings.effectiveLabel_labelled_inj]
  constructor
  · rintro ⟨⟨hlabel, htime⟩, hnumber⟩
    exact ⟨hnumber, htime, hlabel⟩
  · rintro ⟨hnumber, htime, hlabel⟩
    exact ⟨⟨hlabel, htime⟩, hnumber⟩

theorem id_eq_id_iff_of_labelled_lookalike :
    let w : Workspace Nat := create (Settings.labelled "a_1").withTimestamp (-5)
    let v : Workspace Nat := create (Settings.labelled "a").withTimestamp (-5)
    (log (w.history [.put 7, .put 9]))[1]? = some ⟨⟨"a_1_-5_1"⟩, .leaf 9, ∅⟩ ∧
      (log (v.history [.put 8]))[0]? = some ⟨⟨"a_-5_0"⟩, .leaf 8, ∅⟩ ∧
      ((⟨"a_1_-5_1"⟩ : EntryId) = ⟨"a_-5_0"⟩ ↔ 1 = 0 ∧ (-5 : Int) = -5 ∧ "a_1" = "a") := by
  intro w v
  have hw : (log (w.history [.put 7, .put 9]))[1]? = some ⟨⟨"a_1_-5_1"⟩, .leaf 9, ∅⟩ := by decide +kernel
  have hv : (log (v.history [.put 8]))[0]? = some ⟨⟨"a_-5_0"⟩, .leaf 8, ∅⟩ := by decide +kernel
  exact ⟨hw, hv, id_eq_id_iff_of_labelled.2 "a_1" "a" (-5) (-5) [.put 7, .put 9] [.put 8] 1 0 _ _ hw hv⟩

end Workspace
end FilterWorkspace
