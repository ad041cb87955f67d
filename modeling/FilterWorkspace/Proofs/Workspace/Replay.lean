import FilterWorkspace.Proofs.Workspace.Step

/-! Questions and failures leave no trace. Without them, the same calls from the same beginning get
the same replies and lead to the same workspace, down to the counter of its identifiers. -/

namespace FilterWorkspace.Workspace

variable {L : Type}

theorem Step.eq_of_isIdle {w v : Workspace L} {event : Event L} (hstep : w.Step event v)
    (hidle : event.isIdle) : v = w := by
  cases hstep with
  | keep => rfl
  | add _ hregistered =>
    rcases Event.exists_of_registered? hregistered with ⟨_, rfl⟩ | ⟨_, rfl⟩ | ⟨_, _, rfl⟩ <;> cases hidle
  | drop => cases hidle

def effective (events : List (Event L)) : List (Event L) := events.filter fun event => !event.isIdle

/-- The calls that were neither questions nor failures, made alone, get the replies that they got among
the others, and lead to the same settings, counter, entries and graph. -/
theorem run_effective (w : Workspace L) (calls : List (Call L)) :
    w.run ((effective (w.history calls)).map Event.call) =
      ((effective (w.history calls)).map Event.reply, w.after calls) := by
  induction calls generalizing w with
  | nil => rfl
  | cons call calls ih =>
    have hafter : w.after (call :: calls) = (w.perform call).2.after calls := rfl
    rw [history_cons, hafter]
    cases hidle : Event.isIdle ⟨call, (w.perform call).1⟩ with
    | true =>
      have hstays : (w.perform call).2 = w := (step_perform w call).eq_of_isIdle hidle
      have hpassed : effective (⟨call, (w.perform call).1⟩ :: w.history calls) =
          effective (w.history calls) := by
        rw [effective, List.filter_cons_of_neg (by simp [hidle]), effective]
      rw [hstays, hpassed]
      exact ih w
    | false =>
      have hkept : effective (⟨call, (w.perform call).1⟩ :: (w.perform call).2.history calls) =
          ⟨call, (w.perform call).1⟩ :: effective ((w.perform call).2.history calls) :=
        List.filter_cons_of_pos (by simp [hidle])
      rw [hkept, List.map_cons, List.map_cons, run_cons, after, ih]

end FilterWorkspace.Workspace
