import FilterWorkspace.Expression.Combinator

/-! Trees of filters: every reference has been replaced by what it names, so a tree can be read
without the workspace it came from. -/

namespace FilterWorkspace

variable {L : Type}

inductive Tree (L : Type) where
  | leaf (value : L)
  | compound (op : Combinator) (content : List (Tree L))
deriving Repr

namespace Tree

def isLeaf : Tree L → Bool
  | leaf _ => true
  | compound _ _ => false

def op? : Tree L → Option Combinator
  | leaf _ => none
  | compound op _ => some op

mutual

def leaves : Tree L → List L
  | leaf value => [value]
  | compound _ content => leavesOfAll content

def leavesOfAll : List (Tree L) → List L
  | [] => []
  | t :: ts => t.leaves ++ leavesOfAll ts

end

mutual

def depth : Tree L → Nat
  | leaf _ => 1
  | compound _ content => 1 + depthOfAll content

def depthOfAll : List (Tree L) → Nat
  | [] => 0
  | t :: ts => max t.depth (depthOfAll ts)

end

mutual

def decEq [DecidableEq L] : (s t : Tree L) → Decidable (s = t)
  | leaf a, leaf b => decidable_of_iff (a = b) (by simp)
  | leaf _, compound _ _ => isFalse (by simp)
  | compound _ _, leaf _ => isFalse (by simp)
  | compound o xs, compound p ys =>
    if h : o = p then
      match decEqAll xs ys with
      | isTrue e => isTrue (by simp [h, e])
      | isFalse e => isFalse (by simp [e])
    else isFalse (by simp [h])

def decEqAll [DecidableEq L] : (xs ys : List (Tree L)) → Decidable (xs = ys)
  | [], [] => isTrue rfl
  | [], _ :: _ => isFalse (by simp)
  | _ :: _, [] => isFalse (by simp)
  | x :: xs, y :: ys =>
    match decEq x y, decEqAll xs ys with
    | isTrue h, isTrue e => isTrue (by simp [h, e])
    | isFalse h, _ => isFalse (by simp [h])
    | _, isFalse e => isFalse (by simp [e])

end

instance [DecidableEq L] : DecidableEq (Tree L) := decEq

@[simp] theorem leavesOfAll_eq (ts : List (Tree L)) : leavesOfAll ts = ts.flatMap leaves := by
  induction ts with
  | nil => rfl
  | cons t ts ih => simp [leavesOfAll, ih]

end Tree
end FilterWorkspace
