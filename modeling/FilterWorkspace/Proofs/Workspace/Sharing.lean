import FilterWorkspace.Proofs.Workspace.Persistence
import FilterWorkspace.Workspace.Access

/-! A shared workspace answers accesses, whoever makes them, as a workspace of one user answers the
same accesses. That ends when a user is interrupted: from then on all are told that the workspace is
poisoned, and what it holds stays as it is. -/

namespace FilterWorkspace

variable {L : Type}

section Attend

variable {σ : Type} {machine : σ → Access L → Answer L × σ}

theorem attend_append (s : σ) (accesses later : List (Access L)) :
    attend machine s (accesses ++ later) =
      ((attend machine s accesses).1 ++ (attend machine (attend machine s accesses).2 later).1,
        (attend machine (attend machine s accesses).2 later).2) := by
  induction accesses generalizing s with
  | nil => rfl
  | cons access accesses ih => simp only [List.cons_append, attend, ih]

end Attend

namespace SharedWorkspace

theorem access_of_poisoned {s : SharedWorkspace L} (h : s.poisoned = true) (access : Access L) :
    s.access access = (.reply (.failure .poisoned), s) := by
  cases access <;> simp [SharedWorkspace.access, perform, h]

theorem attend_of_poisoned {s : SharedWorkspace L} (h : s.poisoned = true) (accesses : List (Access L)) :
    attend SharedWorkspace.access s accesses =
      (List.replicate accesses.length (.reply (.failure .poisoned)), s) := by
  induction accesses with
  | nil => rfl
  | cons access accesses ih =>
    simp only [attend, access_of_poisoned h, ih, List.length_cons, List.replicate_succ]

theorem access_of_interrupted {w : Workspace L} {access : Access L}
    (h : (w.access access).1 = .interrupted) :
    (ofWorkspace w).access access = (.interrupted, ⟨w, true⟩) := by
  cases access with
  | call c => simp [Workspace.access] at h
  | brokenOff op operands =>
    unfold Workspace.access at h
    cases hcombine : w.combine op operands with
    | error e => simp [hcombine] at h
    | ok c =>
      simp [SharedWorkspace.access, perform, ofWorkspace, interrupt, Workspace.perform, hcombine,
        Reply.ofExcept]

theorem access_of_not_interrupted {w : Workspace L} {access : Access L}
    (h : (w.access access).1 ≠ .interrupted) :
    (ofWorkspace w).access access = ((w.access access).1, ofWorkspace (w.access access).2) := by
  cases access with
  | call c => rfl
  | brokenOff op operands =>
    unfold Workspace.access at h ⊢
    cases hcombine : w.combine op operands with
    | error e =>
      simp [SharedWorkspace.access, perform, ofWorkspace, Workspace.perform, hcombine, Reply.ofExcept]
    | ok c => simp [hcombine] at h

/-- To break off before the first operand is to be interrupted. -/
theorem access_brokenOff_nil (s : SharedWorkspace L) (op : Combinator) : s.access (.brokenOff op []) =
    match s.interrupt with
    | .ok s' => (.interrupted, s')
    | .error e => (.reply (.failure e), s) := by
  obtain ⟨w, poisoned⟩ := s
  cases poisoned with
  | true => exact access_of_poisoned rfl _
  | false =>
    have hbroken : (w.access (.brokenOff op [])).1 = .interrupted := rfl
    exact access_of_interrupted hbroken

theorem attend_ofWorkspace {w : Workspace L} {accesses : List (Access L)}
    (h : .interrupted ∉ (attend Workspace.access w accesses).1) :
    attend SharedWorkspace.access (ofWorkspace w) accesses =
      ((attend Workspace.access w accesses).1, ofWorkspace (attend Workspace.access w accesses).2) := by
  induction accesses generalizing w with
  | nil => rfl
  | cons access accesses ih =>
    simp only [attend, List.mem_cons, not_or] at h ⊢
    rw [access_of_not_interrupted (Ne.symm h.1), ih h.2]

theorem attend_ofWorkspace_interrupted {w : Workspace L} {before after : List (Access L)}
    {access : Access L} (hbefore : .interrupted ∉ (attend Workspace.access w before).1)
    (h : ((attend Workspace.access w before).2.access access).1 = .interrupted) :
    attend SharedWorkspace.access (ofWorkspace w) (before ++ access :: after) =
      ((attend Workspace.access w before).1 ++
        .interrupted :: List.replicate after.length (.reply (.failure .poisoned)),
        ⟨(attend Workspace.access w before).2, true⟩) := by
  rw [attend_append, attend_ofWorkspace hbefore, attend, access_of_interrupted h]
  simp only [attend_of_poisoned]

end SharedWorkspace

theorem Workspace.exists_first_interruption {w : Workspace L} {accesses : List (Access L)}
    (h : .interrupted ∈ (attend Workspace.access w accesses).1) :
    ∃ before access later, accesses = before ++ access :: later ∧
      .interrupted ∉ (attend Workspace.access w before).1 ∧
      ((attend Workspace.access w before).2.access access).1 = .interrupted := by
  induction accesses generalizing w with
  | nil => simp [attend] at h
  | cons access accesses ih =>
    by_cases hfirst : (w.access access).1 = .interrupted
    · exact ⟨[], access, accesses, rfl, by simp [attend], hfirst⟩
    · simp only [attend, List.mem_cons, Ne.symm hfirst, false_or] at h
      obtain ⟨before, found, later, rfl, hbefore, hfound⟩ := ih h
      refine ⟨access :: before, found, later, rfl, ?_, hfound⟩
      simp only [attend, List.mem_cons, not_or]
      exact ⟨Ne.symm hfirst, hbefore⟩

theorem Reply.exists_of_ofExcept {α : Type} {reply : α → Reply L} {r : Except Workspace.Error α}
    {e : Entry L} (h : Reply.ofExcept reply r = .entry e) : ∃ a, reply a = .entry e := by
  cases r with
  | ok a => exact ⟨a, h⟩
  | error err => cases h

namespace Workspace

theorem registered?_of_entry {w : Workspace L} {call : Call L} {e : Entry L}
    (h : (w.perform call).1 = .entry e) : Event.registered? ⟨call, (w.perform call).1⟩ = some e := by
  rw [h]
  cases call with
  | put | register | join => rfl
  | combine | resolve | allReferences | hasLoop =>
    obtain ⟨_, h⟩ := Reply.exists_of_ofExcept h
    cases h
  | _ => cases h

theorem access_brokenOff (w : Workspace L) (op : Combinator) (operands : List (Child L)) :
    (w.access (.brokenOff op operands)).1.added? = none ∧ (w.access (.brokenOff op operands)).2 = w := by
  cases h : w.combine op operands <;> simp [Workspace.access, h, Answer.added?]

theorem Step.not_upcoming_of_registered {w v : Workspace L} {event : Event L} {e : Entry L}
    (hstep : w.Step event v) (h : event.registered? = some e) : w.Upcoming e.id ∧ ¬ v.Upcoming e.id := by
  cases hstep with
  | keep hregistered => simp [hregistered] at h
  | add _ hregistered =>
    obtain rfl := Option.some.inj (hregistered.symm.trans h)
    refine ⟨w.upcoming_nextId, ?_⟩
    rintro ⟨n, hn, heq⟩
    have hlast : w.ids.issued = n := EntryId.numbered_inj.1 heq
    have hmore : w.ids.issued + 1 ≤ n := hn
    omega
  | drop => cases h

theorem access_added? {w : Workspace L} {access : Access L} {e : Entry L}
    (h : (w.access access).1.added? = some e) : w.Upcoming e.id ∧ ¬ (w.access access).2.Upcoming e.id := by
  cases access with
  | call c =>
    have hentry : (w.perform c).1 = .entry e := by
      cases hreply : (w.perform c).1 <;> simp_all [Workspace.access, Answer.added?]
    exact (w.step_perform c).not_upcoming_of_registered (registered?_of_entry hentry)
  | brokenOff op operands => simp [access_brokenOff] at h

theorem upcoming_of_access {w : Workspace L} {access : Access L} {id : EntryId}
    (h : (w.access access).2.Upcoming id) : w.Upcoming id := by
  cases access with
  | call c => exact (w.step_perform c).upcoming h
  | brokenOff op operands => rwa [(w.access_brokenOff op operands).2] at h

end Workspace

namespace SharedWorkspace

/-- An access is refused for good, or does what it does to a workspace of one user. -/
theorem access_cases (s : SharedWorkspace L) (access : Access L) :
    s.access access = (.reply (.failure .poisoned), s) ∨
      (s.access access).1 = (s.workspace.access access).1 ∧
        (s.access access).2.workspace = (s.workspace.access access).2 := by
  obtain ⟨w, _ | _⟩ := s
  · refine .inr ?_
    by_cases h : (w.access access).1 = .interrupted
    · have hstays : (w.access access).2 = w := by
        cases access with
        | call c => cases h
        | brokenOff op operands => exact (w.access_brokenOff op operands).2
      rw [h, hstays]
      exact ⟨congrArg Prod.fst (access_of_interrupted h),
        congrArg (fun result => result.2.workspace) (access_of_interrupted h)⟩
    · exact ⟨congrArg Prod.fst (access_of_not_interrupted h),
        congrArg (fun result => result.2.workspace) (access_of_not_interrupted h)⟩
  · exact .inl (access_of_poisoned rfl access)

/-- The entries that are handed out, to whomever, have identifiers that differ. -/
theorem nodup_attend (s : SharedWorkspace L) (accesses : List (Access L)) :
    (((attend SharedWorkspace.access s accesses).1.filterMap Answer.added?).map Entry.id).Nodup ∧
      ∀ e ∈ (attend SharedWorkspace.access s accesses).1.filterMap Answer.added?,
        s.workspace.Upcoming e.id := by
  induction accesses generalizing s with
  | nil => exact ⟨.nil, by simp [attend]⟩
  | cons access accesses ih =>
    obtain ⟨hnodup, hupcoming⟩ := ih (s.access access).2
    have hkept {id : EntryId} (h : (s.access access).2.workspace.Upcoming id) : s.workspace.Upcoming id := by
      rcases s.access_cases access with hrefused | ⟨-, hsame⟩
      · rwa [hrefused] at h
      · exact Workspace.upcoming_of_access (hsame ▸ h)
    simp only [attend, List.filterMap_cons]
    cases hentry : (s.access access).1.added? with
    | none => exact ⟨hnodup, fun e he => hkept (hupcoming e he)⟩
    | some e =>
      have hfirst : s.workspace.Upcoming e.id ∧ ¬ (s.access access).2.workspace.Upcoming e.id := by
        rcases s.access_cases access with hrefused | ⟨hsame, hstate⟩
        · rw [hrefused] at hentry
          cases hentry
        · rw [hstate]
          exact Workspace.access_added? (hsame ▸ hentry)
      refine ⟨List.nodup_cons.2 ⟨fun hmem => ?_, hnodup⟩, fun e' he' => ?_⟩
      · obtain ⟨e', he', heq⟩ := List.mem_map.1 hmem
        exact hfirst.2 (heq ▸ hupcoming e' he')
      · rcases List.mem_cons.1 he' with rfl | he'
        · exact hfirst.1
        · exact hkept (hupcoming e' he')

end SharedWorkspace
end FilterWorkspace
