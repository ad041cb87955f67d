import FilterWorkspace.Workspace.Call

/-! Workspaces that several users call in turn. A user who is interrupted in the middle of a change
poisons the workspace, and from then on every call fails. -/

namespace FilterWorkspace

variable {L : Type}

structure SharedWorkspace (L : Type) where
  workspace : Workspace L
  poisoned : Bool

def Call.isShareable : Call L → Bool
  | .combine _ _ | .entries | .nextId => false
  | _ => true

namespace SharedWorkspace

def ofWorkspace (w : Workspace L) : SharedWorkspace L := ⟨w, false⟩

def perform (s : SharedWorkspace L) (call : Call L) : Reply L × SharedWorkspace L :=
  if s.poisoned then (.failure .poisoned, s)
  else
    let (reply, w) := s.workspace.perform call
    (reply, { s with workspace := w })

def interrupt (s : SharedWorkspace L) : Except Workspace.Error (SharedWorkspace L) :=
  if s.poisoned then .error .poisoned else .ok { s with poisoned := true }

end SharedWorkspace
end FilterWorkspace
