import FilterWorkspace.Workspace.Shared

/-! What comes to a workspace from its users: calls, and combinations that a user breaks off while
giving the operands. Operands are looked at one by one as they are given, so a combination that has
already failed at one of them cannot be broken off any more. -/

namespace FilterWorkspace

variable {L : Type}

inductive Access (L : Type) where
  | call (call : Call L)
  /-- A combination whose user is interrupted when `operands` have been given and others are to come. -/
  | brokenOff (op : Combinator) (operands : List (Child L))
deriving DecidableEq, Repr

inductive Answer (L : Type) where
  | reply (reply : Reply L)
  | interrupted
deriving DecidableEq

def Access.isShareable : Access L → Bool
  | call c => c.isShareable
  | brokenOff _ _ => true

def Answer.added? : Answer L → Option (Entry L)
  | reply (.entry e) => some e
  | _ => none

/-- An interruption leaves a workspace as it is, since nothing is added before all operands are there. -/
def Workspace.access (w : Workspace L) : Access L → Answer L × Workspace L
  | .call call =>
    let (reply, w) := w.perform call
    (.reply reply, w)
  | .brokenOff op operands =>
    match w.combine op operands with
    | .error e => (.reply (.failure e), w)
    | .ok _ => (.interrupted, w)

/-- The contents are those of a workspace of its own, but an interruption poisons them. -/
def SharedWorkspace.access (s : SharedWorkspace L) : Access L → Answer L × SharedWorkspace L
  | .call call =>
    let (reply, s) := s.perform call
    (.reply reply, s)
  | .brokenOff op operands =>
    match (s.perform (.combine op operands)).1, s.interrupt with
    | .failure e, _ => (.reply (.failure e), s)
    | _, .error e => (.reply (.failure e), s)
    | _, .ok s => (.interrupted, s)

def attend {σ : Type} (step : σ → Access L → Answer L × σ) (s : σ) :
    List (Access L) → List (Answer L) × σ
  | [] => ([], s)
  | access :: accesses =>
    let (answer, s) := step s access
    let (answers, s) := attend step s accesses
    (answer :: answers, s)

end FilterWorkspace
