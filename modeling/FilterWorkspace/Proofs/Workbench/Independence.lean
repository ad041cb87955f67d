import FilterWorkspace.Proofs.Workspace.Sharing
import FilterWorkspace.Workbench.Visit

/-! The users of a shared workspace, by however many names they have it, are served one after the other,
as if a single user made all their accesses to a workspace of one's own. Nobody else has a part in
it, so a shared copy and its original go their own ways. -/

namespace FilterWorkspace.Workbench

variable {L : Type}

theorem interrupt_of_own {b : Workbench L} {name : String} {w : Workspace L}
    (h : b.slots[name]? = some (.own w)) : b.interrupt name = .error (.unsupported name) := by
  have hslot : b.slot name = .ok (.own w) := slot_eq_ok_iff.2 h
  simp [interrupt, hslot]

theorem access_brokenOff_of_shared {b : Workbench L} {name : String} {cell : Nat}
    (h : b.slots[name]? = some (.shared cell)) (op : Combinator) :
    b.access name (.brokenOff op []) = (b.interrupt name).map fun
      | .ok b' => (.interrupted, b')
      | .error e => (.reply (.failure e), b) := by
  have hslot : b.slot name = .ok (.shared cell) := slot_eq_ok_iff.2 h
  cases hs : b.cells[cell]? with
  | none => simp [Workbench.access, interrupt, hslot, hs, Except.map]
  | some s =>
    obtain ⟨hlt, hget⟩ := List.getElem?_eq_some_iff.1 hs
    have hsame : b.cells.set cell s = b.cells := by rw [← hget, List.set_getElem_self]
    rw [access_of_shared h hs rfl, SharedWorkspace.access_brokenOff_nil]
    cases hinterrupt : s.interrupt <;> simp [interrupt, hslot, hs, hinterrupt, hsame, Except.map]

inductive Turn {σ : Type} (machine : σ → Access L → Answer L × σ) (s : σ) : Option (Visit L) → σ → Prop
  | aside : Turn machine s none s
  | visit (access : Access L) :
      Turn machine s (some ⟨access, .ok (machine s access).1⟩) (machine s access).2

theorem cells_step_of_aside {b : Workbench L} {cell : Nat} {s : SharedWorkspace L}
    (h : b.cells[cell]? = some s) {act : Act L} (haside : b.visit? (.shared cell) act = none) :
    (b.step act).cells[cell]? = some s := by
  cases act with
  | copy name other =>
    rcases b.step_copy name other with heq | ⟨slot, heq⟩
    · rw [heq, h]
    · rw [heq]
      exact h
  | share name other =>
    have hlt : cell < b.cells.length := (List.getElem?_eq_some_iff.1 h).1
    rcases b.step_share name other with heq | ⟨w, heq⟩
    · rw [heq, h]
    · rw [heq, placeShared, List.getElem?_append_left hlt, h]
  | access name access =>
    rcases b.access_cases name access with ⟨e, herror⟩ | ⟨w, hslot⟩ | ⟨cell', s', hslot, hs, hoffered⟩
    · rw [step_of_error herror, h]
    · rw [step_of_ok (access_of_own hslot access)]
      exact h
    · have hne : cell' ≠ cell := by
        rintro rfl
        have hvisit : b.place? name = some (.shared cell') ∧ (Place.shared cell').offers access :=
          ⟨place?_eq_shared_iff.2 hslot, hoffered⟩
        rw [visit?, if_pos hvisit] at haside
        cases haside
      rw [step_of_ok (access_of_shared hslot hs hoffered)]
      exact (List.getElem?_set_ne hne).trans h

theorem turn_shared {b : Workbench L} {cell : Nat} {s : SharedWorkspace L} (h : b.cells[cell]? = some s)
    (act : Act L) : ∃ s', (b.step act).cells[cell]? = some s' ∧
      Turn SharedWorkspace.access s (b.visit? (.shared cell) act) s' := by
  cases act with
  | copy | share => exact ⟨s, cells_step_of_aside h rfl, .aside⟩
  | access name access =>
    by_cases hvisit : b.place? name = some (.shared cell) ∧ (Place.shared cell).offers access
    · have haccess := access_of_shared (place?_eq_shared_iff.1 hvisit.1) h hvisit.2
      refine ⟨(s.access access).2, ?_, ?_⟩
      · rw [step_of_ok haccess]
        exact List.getElem?_set_self (List.getElem?_eq_some_iff.1 h).1
      · rw [visit?, if_pos hvisit, haccess]
        exact .visit access
    · have haside : b.visit? (.shared cell) (.access name access) = none := if_neg hvisit
      rw [haside]
      exact ⟨s, cells_step_of_aside h haside, .aside⟩

theorem slots_step_of_aside {b : Workbench L} {name : String} {w : Workspace L}
    (h : b.slots[name]? = some (.own w)) {act : Act L} (hname : act.renamed? ≠ some name)
    (haside : b.visit? (.own name) act = none) : (b.step act).slots[name]? = some (.own w) := by
  cases act with
  | copy source other =>
    have hne : other ≠ name := fun heq => hname (congrArg some heq)
    rcases b.step_copy source other with heq | ⟨slot, heq⟩
    · rw [heq, h]
    · rw [heq, slots_place, if_neg hne, h]
  | share source other =>
    have hne : other ≠ name := fun heq => hname (congrArg some heq)
    rcases b.step_share source other with heq | ⟨v, heq⟩
    · rw [heq, h]
    · rw [heq]
      exact (b.slots_place other name _).trans ((if_neg hne).trans h)
  | access other access =>
    have hother : other ≠ name := by
      rintro rfl
      rw [visit?, if_pos ⟨place?_of_own h, rfl⟩] at haside
      cases haside
    rcases b.access_cases other access with ⟨e, herror⟩ | ⟨v, hslot⟩ | ⟨cell, s, hslot, hs, hoffered⟩
    · rw [step_of_error herror, h]
    · rw [step_of_ok (access_of_own hslot access), placeOwn, slots_place, if_neg hother, h]
    · rw [step_of_ok (access_of_shared hslot hs hoffered)]
      exact h

theorem turn_own {b : Workbench L} {name : String} {w : Workspace L} (h : b.slots[name]? = some (.own w))
    {act : Act L} (hname : act.renamed? ≠ some name) : ∃ w', (b.step act).slots[name]? = some (.own w') ∧
      Turn Workspace.access w (b.visit? (.own name) act) w' := by
  cases act with
  | copy | share => exact ⟨w, slots_step_of_aside h hname rfl, .aside⟩
  | access other access =>
    by_cases hother : other = name
    · subst hother
      have haccess := access_of_own h access
      refine ⟨(w.access access).2, ?_, ?_⟩
      · rw [step_of_ok haccess, placeOwn, slots_place, if_pos rfl]
      · rw [visit?, if_pos ⟨place?_of_own h, rfl⟩, haccess]
        exact .visit access
    · have haside : b.visit? (.own name) (.access other access) = none :=
        if_neg fun hvisit => hother (eq_of_place?_eq_own hvisit.1)
      rw [haside]
      exact ⟨w, slots_step_of_aside h hname haside, .aside⟩

theorem visits_of_turns {σ : Type} {machine : σ → Access L → Answer L × σ} {place : Place}
    {motive : Workbench L → σ → Prop} {acts : List (Act L)}
    (hturn : ∀ act ∈ acts, ∀ b s, motive b s →
      ∃ s', motive (b.step act) s' ∧ Turn machine s (b.visit? place act) s')
    {b : Workbench L} {s : σ} (h : motive b s) :
    (b.visits place acts).map Visit.answer =
        (attend machine s ((b.visits place acts).map Visit.access)).1.map .ok ∧
      motive (b.after acts) (attend machine s ((b.visits place acts).map Visit.access)).2 := by
  induction acts generalizing b s with
  | nil => exact ⟨rfl, h⟩
  | cons act acts ih =>
    obtain ⟨s', hs', hact⟩ := hturn act List.mem_cons_self b s h
    obtain ⟨hanswers, hlast⟩ := ih (fun act hact => hturn act (List.mem_cons_of_mem _ hact)) hs'
    rw [visits]
    generalize b.visit? place act = visit at hact
    cases hact with
    | aside => exact ⟨hanswers, hlast⟩
    | visit access =>
      refine ⟨?_, hlast⟩
      simp only [Option.toList_some, List.singleton_append, List.map_cons, attend, hanswers]

theorem visits_shared {b : Workbench L} {cell : Nat} {s : SharedWorkspace L} (h : b.cells[cell]? = some s)
    (acts : List (Act L)) :
    (b.visits (.shared cell) acts).map Visit.answer =
        (attend SharedWorkspace.access s ((b.visits (.shared cell) acts).map Visit.access)).1.map .ok ∧
      (b.after acts).cells[cell]? =
        some (attend SharedWorkspace.access s ((b.visits (.shared cell) acts).map Visit.access)).2 :=
  visits_of_turns (motive := fun b s => b.cells[cell]? = some s) (fun act _ _ _ h => turn_shared h act) h

theorem visits_own {b : Workbench L} {name : String} {w : Workspace L}
    (h : b.slots[name]? = some (.own w)) {acts : List (Act L)}
    (hname : ∀ act ∈ acts, act.renamed? ≠ some name) :
    (b.visits (.own name) acts).map Visit.answer =
        (attend Workspace.access w ((b.visits (.own name) acts).map Visit.access)).1.map .ok ∧
      (b.after acts).slots[name]? =
        some (.own (attend Workspace.access w ((b.visits (.own name) acts).map Visit.access)).2) :=
  visits_of_turns (motive := fun b w => b.slots[name]? = some (.own w))
    (fun act hact _ _ h => turn_own h (hname act hact)) h

theorem copy_shared {b b' : Workbench L} {name other : String} {cell : Nat}
    (hname : b.place? name = some (.shared cell)) (hcopy : b.copy name other = .ok b') :
    b'.place? other = some (.shared cell) ∧ b'.cells = b.cells := by
  obtain ⟨slot, hslot, rfl⟩ := copy_eq_ok_iff.1 hcopy
  obtain rfl := Option.some.inj (hslot.symm.trans (place?_eq_shared_iff.1 hname))
  exact ⟨place?_eq_shared_iff.2 ((b.slots_place other other _).trans (if_pos rfl)), rfl⟩

/-- The visits to what began as the workspace `w`, and what it has become: all is as if a single user
had made the visits to `w`, up to the first interruption, and stands still after it. -/
structure ServesAsOwn (w : Workspace L) (visits : List (Visit L)) (s : Option (SharedWorkspace L)) :
    Prop where
  uninterrupted : .interrupted ∉ (attend Workspace.access w (visits.map Visit.access)).1 →
    visits.map Visit.answer = (attend Workspace.access w (visits.map Visit.access)).1.map .ok ∧
      s = some (.ofWorkspace (attend Workspace.access w (visits.map Visit.access)).2)
  interrupted : .interrupted ∈ (attend Workspace.access w (visits.map Visit.access)).1 →
    ∃ before access later, visits.map Visit.access = before ++ access :: later ∧
      .interrupted ∉ (attend Workspace.access w before).1 ∧
      ((attend Workspace.access w before).2.access access).1 = .interrupted ∧
      visits.map Visit.answer = ((attend Workspace.access w before).1 ++
        Answer.interrupted :: List.replicate later.length (Answer.reply (.failure .poisoned))).map .ok ∧
      s = some ⟨(attend Workspace.access w before).2, true⟩
  nodup : ((visits.filterMap Visit.added?).map Entry.id).Nodup

theorem filterMap_added? {visits : List (Visit L)} {answers : List (Answer L)}
    (h : visits.map Visit.answer = answers.map .ok) :
    visits.filterMap Visit.added? = answers.filterMap Answer.added? := by
  calc visits.filterMap Visit.added?
      = (visits.map Visit.answer).filterMap fun answer => answer.toOption.bind Answer.added? := by
        rw [List.filterMap_map]
        rfl
    _ = answers.filterMap Answer.added? := by
        rw [h, List.filterMap_map]
        rfl

theorem servesAsOwn {b : Workbench L} {cell : Nat} {w : Workspace L}
    (h : b.cells[cell]? = some (.ofWorkspace w)) (acts : List (Act L)) :
    ServesAsOwn w (b.visits (.shared cell) acts) (b.after acts).cells[cell]? := by
  obtain ⟨hanswers, hcontents⟩ := visits_shared h acts
  constructor
  case uninterrupted =>
    intro hnone
    rw [SharedWorkspace.attend_ofWorkspace hnone] at hanswers hcontents
    exact ⟨hanswers, hcontents⟩
  case interrupted =>
    intro hsome
    obtain ⟨before, access, later, hsplit, hbefore, hfound⟩ := Workspace.exists_first_interruption hsome
    rw [hsplit, SharedWorkspace.attend_ofWorkspace_interrupted hbefore hfound] at hanswers hcontents
    exact ⟨before, access, later, hsplit, hbefore, hfound, hanswers, hcontents⟩
  case nodup =>
    rw [filterMap_added? hanswers]
    exact (SharedWorkspace.nodup_attend _ _).1

/-- A shared workspace, by all its names together, serves as one of a single user would until a user is
interrupted. A copy of a name of it is another name of it, while a shared copy of a workspace and that
workspace itself each know only of the visits to themselves. -/
theorem shared_servesAsOwn {b : Workbench L} {cell : Nat} {w : Workspace L}
    (hcell : b.cells[cell]? = some (.ofWorkspace w)) :
    (∀ acts, ServesAsOwn w (b.visits (.shared cell) acts) (b.after acts).cells[cell]?) ∧
    (∀ name other b', b.place? name = some (.shared cell) → b.copy name other = .ok b' →
      b'.place? other = some (.shared cell) ∧ b'.cells = b.cells) ∧
    ∀ name other b', b.share name other = .ok b' → name ≠ other →
      ∃ v, b.slots[name]? = some (.own v) ∧ b'.place? other = some (.shared b.cells.length) ∧
        ∀ acts : List (Act L), (∀ act ∈ acts, act.renamed? ≠ some name) →
          let visits := b'.visits (.own name) acts
          ServesAsOwn v (b'.visits (.shared b.cells.length) acts)
              (b'.after acts).cells[b.cells.length]? ∧
            visits.map Visit.answer = (attend Workspace.access v (visits.map Visit.access)).1.map .ok ∧
            (b'.after acts).slots[name]? =
              some (.own (attend Workspace.access v (visits.map Visit.access)).2) := by
  refine ⟨servesAsOwn hcell, fun name other b' => copy_shared, fun name other b' hshare hne => ?_⟩
  obtain ⟨v, hown, rfl⟩ := share_eq_ok_iff.1 hshare
  have hslots (x : String) : (b.placeShared other v).slots[x]? =
      if other = x then some (.shared b.cells.length) else b.slots[x]? := b.slots_place other x _
  refine ⟨v, hown, place?_eq_shared_iff.2 ((hslots other).trans (if_pos rfl)), fun acts hname => ⟨?_, ?_⟩⟩
  · refine servesAsOwn ?_ acts
    rw [placeShared, List.getElem?_concat_length]
  · exact visits_own ((hslots name).trans ((if_neg hne.symm).trans hown)) hname

theorem shared_servesAsOwn_poisoned :
    let w : Workspace Nat := (Workspace.create {} 0).after [.put 7]
    let b : Workbench Nat := (empty.placeOwn "m" w).placeShared "s" w
    let acts : List (Act Nat) := [.copy "s" "t", .access "s" (.call (.put 8)),
      .access "m" (.call (.put 9)), .access "t" (.brokenOff .and [.reference ⟨"_5"⟩, .leaf 1]),
      .access "t" (.call (.join .or [.reference ⟨"_0"⟩, .reference ⟨"_1"⟩])),
      .access "s" (.brokenOff .and [.reference ⟨"_1"⟩]), .access "t" (.call .size)]
    b.cells[0]? = some (.ofWorkspace w) ∧
      ServesAsOwn w (b.visits (.shared 0) acts) (b.after acts).cells[0]? ∧
      (b.visits (.shared 0) acts).map Visit.answer =
        [.ok (.reply (.entry (.ofPayload ⟨"_1"⟩ (.leaf 8)))),
          .ok (.reply (.failure (.unknownReference ⟨"_5"⟩))),
          .ok (.reply (.entry (.ofPayload ⟨"_2"⟩
            (.compound ⟨.or, [.reference ⟨"_0"⟩, .reference ⟨"_1"⟩]⟩)))),
          .ok .interrupted, .ok (.reply (.failure .poisoned))] := by
  intro w b acts
  have hcell : b.cells[0]? = some (.ofWorkspace w) := rfl
  exact ⟨hcell, (shared_servesAsOwn hcell).1 acts, by decide +kernel⟩

end FilterWorkspace.Workbench
