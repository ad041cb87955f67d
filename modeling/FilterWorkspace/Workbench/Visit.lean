import FilterWorkspace.Workbench
import FilterWorkspace.Workspace.Access

/-! What users do at a bench, and what of it comes to one workspace. Users may access the same shared
workspace by different names, and make more names for it at any time. -/

namespace FilterWorkspace.Workbench

variable {L : Type}

inductive Act (L : Type) where
  | access (name : String) (access : Access L)
  | copy (name other : String)
  | share (name other : String)

def Act.renamed? : Act L → Option String
  | .access _ _ => none
  | .copy _ other => some other
  | .share _ other => some other

def access (b : Workbench L) (name : String) : Access L → Except Error (Answer L × Workbench L)
  | .call call => do
    let (reply, b) ← b.perform name call
    return (.reply reply, b)
  | .brokenOff op operands => do
    match ← b.slot name with
    | .own w =>
      let (answer, w) := w.access (.brokenOff op operands)
      return (answer, b.placeOwn name w)
    | .shared cell =>
      match b.cells[cell]? with
      | none => .error (.unsupported name)
      | some s =>
        let (answer, s) := s.access (.brokenOff op operands)
        return (answer, { b with cells := b.cells.set cell s })

theorem access_of_own {b : Workbench L} {name : String} {w : Workspace L}
    (h : b.slots[name]? = some (.own w)) (access : Access L) :
    b.access name access = .ok ((w.access access).1, b.placeOwn name (w.access access).2) := by
  have hslot : b.slot name = .ok (.own w) := slot_eq_ok_iff.2 h
  cases access with
  | call c =>
    simp [Workbench.access, perform, performOwn, own, hslot, Workspace.access]
  | brokenOff op operands => simp [Workbench.access, hslot]

theorem access_of_shared {b : Workbench L} {name : String} {cell : Nat} {s : SharedWorkspace L}
    (h : b.slots[name]? = some (.shared cell)) (hs : b.cells[cell]? = some s) {access : Access L}
    (hoffered : access.isShareable) :
    b.access name access =
      .ok ((s.access access).1, { b with cells := b.cells.set cell (s.access access).2 }) := by
  have hslot : b.slot name = .ok (.shared cell) := slot_eq_ok_iff.2 h
  cases access with
  | call c =>
    have hcall : c.isShareable = true := hoffered
    simp [Workbench.access, perform, performShared, hcall, hs, hslot, SharedWorkspace.access]
  | brokenOff op operands => simp [Workbench.access, hslot, hs]

theorem access_cases (b : Workbench L) (name : String) (access : Access L) :
    (∃ e, b.access name access = .error e) ∨ (∃ w, b.slots[name]? = some (.own w)) ∨
      ∃ cell s, b.slots[name]? = some (.shared cell) ∧ b.cells[cell]? = some s ∧ access.isShareable := by
  cases hslot : b.slots[name]? with
  | none =>
    have hvacant : b.slot name = .error (.vacant name) := by simp only [slot, hslot]
    refine .inl ⟨.vacant name, ?_⟩
    cases access <;> simp [Workbench.access, perform, hvacant]
  | some slot =>
    cases slot with
    | own w => exact .inr (.inl ⟨w, rfl⟩)
    | shared cell =>
      have hshared : b.slot name = .ok (.shared cell) := slot_eq_ok_iff.2 hslot
      cases hs : b.cells[cell]? with
      | none =>
        refine .inl ⟨.unsupported name, ?_⟩
        cases access <;>
          simp [Workbench.access, perform, performShared, hshared, hs]
      | some s =>
        by_cases hoffered : access.isShareable = true
        · exact .inr (.inr ⟨cell, s, rfl, hs, hoffered⟩)
        · refine .inl ⟨.unsupported name, ?_⟩
          cases access with
          | brokenOff op operands => exact absurd rfl hoffered
          | call c =>
            have hcall : c.isShareable = false := Bool.eq_false_iff.2 hoffered
            simp [Workbench.access, perform, performShared, hshared, hcall]

def step (b : Workbench L) (act : Act L) : Workbench L :=
  let result := match act with
    | .access name access => (b.access name access).map Prod.snd
    | .copy name other => b.copy name other
    | .share name other => b.share name other
  match result with
  | .ok b => b
  | .error _ => b

theorem step_of_error {b : Workbench L} {name : String} {access : Access L} {e : Error}
    (h : b.access name access = .error e) : b.step (.access name access) = b := by
  simp [step, h, Except.map]

theorem step_of_ok {b b' : Workbench L} {name : String} {access : Access L} {answer : Answer L}
    (h : b.access name access = .ok (answer, b')) : b.step (.access name access) = b' := by
  simp [step, h, Except.map]

theorem step_copy (b : Workbench L) (name other : String) :
    b.step (.copy name other) = b ∨ ∃ slot, b.step (.copy name other) = b.place other slot := by
  cases h : b.copy name other with
  | error e => exact .inl (by simp [step, h])
  | ok b' =>
    obtain ⟨slot, -, rfl⟩ := copy_eq_ok_iff.1 h
    exact .inr ⟨slot, by simp [step, h]⟩

theorem step_share (b : Workbench L) (name other : String) :
    b.step (.share name other) = b ∨ ∃ w, b.step (.share name other) = b.placeShared other w := by
  cases h : b.share name other with
  | error e => exact .inl (by simp [step, h])
  | ok b' =>
    obtain ⟨w, -, rfl⟩ := share_eq_ok_iff.1 h
    exact .inr ⟨w, by simp [step, h]⟩

def after (b : Workbench L) (acts : List (Act L)) : Workbench L := acts.foldl step b

inductive Place where
  | own (name : String)
  | shared (cell : Nat)
deriving DecidableEq, Repr

def Place.offers : Place → Access L → Bool
  | .own _, _ => true
  | .shared _, access => access.isShareable

def place? (b : Workbench L) (name : String) : Option Place :=
  match b.slots[name]? with
  | none => none
  | some (.own _) => some (.own name)
  | some (.shared cell) => some (.shared cell)

theorem place?_eq_shared_iff {b : Workbench L} {name : String} {cell : Nat} :
    b.place? name = some (.shared cell) ↔ b.slots[name]? = some (.shared cell) := by
  unfold place?
  split <;> simp [*]

theorem place?_of_own {b : Workbench L} {name : String} {w : Workspace L}
    (h : b.slots[name]? = some (.own w)) : b.place? name = some (.own name) := by
  rw [place?, h]

theorem eq_of_place?_eq_own {b : Workbench L} {name other : String}
    (h : b.place? other = some (.own name)) : other = name := by
  unfold place? at h
  split at h
  · cases h
  · exact Place.own.inj (Option.some.inj h)
  · cases h

structure Visit (L : Type) where
  access : Access L
  answer : Except Error (Answer L)

def Visit.added? (visit : Visit L) : Option (Entry L) := visit.answer.toOption.bind Answer.added?

def visit? (place : Place) (b : Workbench L) : Act L → Option (Visit L)
  | .access name access =>
    if b.place? name = some place ∧ place.offers access then
      some ⟨access, (b.access name access).map Prod.fst⟩
    else none
  | _ => none

def visits (place : Place) (b : Workbench L) : List (Act L) → List (Visit L)
  | [] => []
  | act :: acts => (b.visit? place act).toList ++ visits place (b.step act) acts

end FilterWorkspace.Workbench
