import FilterWorkspace.Workspace.Call

/-! What has happened to a workspace: the calls made on it, each with the reply that it was given. -/

namespace FilterWorkspace

variable {L : Type}

def Call.isQuestion : Call L → Bool
  | .put _ | .remove _ | .register _ | .join _ _ => false
  | _ => true

def Reply.isFailure : Reply L → Bool
  | .failure _ => true
  | _ => false

structure Event (L : Type) where
  call : Call L
  reply : Reply L

namespace Event

def isIdle : Event L → Bool
  | ⟨.remove _, .found none⟩ => true
  | ⟨call, reply⟩ => call.isQuestion || reply.isFailure

def registered? : Event L → Option (Entry L)
  | ⟨.put _, .entry e⟩ => some e
  | ⟨.register _, .entry e⟩ => some e
  | ⟨.join _ _, .entry e⟩ => some e
  | _ => none

def removal? : Event L → Option EntryId
  | ⟨.remove id, _⟩ => some id
  | _ => none

def removed? : Event L → Option (Entry L)
  | ⟨.remove _, .found e⟩ => e
  | _ => none

theorem exists_of_registered? {event : Event L} {e : Entry L} (h : event.registered? = some e) :
    (∃ value, event = ⟨.put value, .entry e⟩) ∨ (∃ c, event = ⟨.register c, .entry e⟩) ∨
      ∃ op operands, event = ⟨.join op operands, .entry e⟩ := by
  unfold registered? at h
  split at h
  case h_4 => cases h
  all_goals
    obtain rfl := Option.some.inj h
    simp

end Event

namespace Workspace

def history (w : Workspace L) (calls : List (Call L)) : List (Event L) :=
  List.zipWith Event.mk calls (w.run calls).1

def log (events : List (Event L)) : List (Entry L) := events.filterMap Event.registered?

def removals (events : List (Event L)) : List (Entry L) := events.filterMap Event.removed?

def removedIds (events : List (Event L)) : List EntryId := (removals events).map Entry.id

theorem run_cons (w : Workspace L) (call : Call L) (calls : List (Call L)) :
    w.run (call :: calls) =
      ((w.perform call).1 :: ((w.perform call).2.run calls).1, (w.perform call).2.after calls) := rfl

theorem history_cons (w : Workspace L) (call : Call L) (calls : List (Call L)) :
    w.history (call :: calls) = ⟨call, (w.perform call).1⟩ :: (w.perform call).2.history calls := rfl

theorem run_append (w : Workspace L) (calls later : List (Call L)) :
    w.run (calls ++ later) = ((w.run calls).1 ++ ((w.after calls).run later).1,
      (w.after calls).after later) := by
  induction calls generalizing w with
  | nil => rfl
  | cons first calls ih =>
    simp only [List.cons_append, run, ih]
    rfl

theorem length_run (w : Workspace L) (calls : List (Call L)) :
    (w.run calls).1.length = calls.length := by
  induction calls generalizing w with
  | nil => rfl
  | cons call calls ih => simp only [run, List.length_cons, ih]

theorem after_append (w : Workspace L) (calls later : List (Call L)) :
    w.after (calls ++ later) = (w.after calls).after later := by
  rw [after, run_append]

theorem history_append (w : Workspace L) (calls later : List (Call L)) :
    w.history (calls ++ later) = w.history calls ++ (w.after calls).history later := by
  rw [history, run_append, List.zipWith_append (w.length_run calls).symm]
  rfl

end Workspace
end FilterWorkspace
