import FilterWorkspace.Graph.Course

/-! A cycle is found in one place only, by a visit to what is on the path. What is said of a reported cycle is
therefore said of one such visit, and of whatever is true whenever a search comes to visit something. -/

namespace FilterWorkspace.Adjacency

variable {g : Adjacency} {roots ids path : List EntryId} {id : EntryId} {s : Search}

theorem cycle_visit_of_mem_onPath (h : id ∈ s.onPath) : (g.visit id s).cycle = s.cycleAt id := by
  rw [visit, if_pos h]

theorem cycle_visit_of_notMem (honPath : id ∉ s.onPath) (hvisited : id ∉ s.visited) :
    (g.visit id s).cycle = (g.visitAll (g.next id) (s.enter id)).cycle := by
  rw [visit, if_neg honPath, dif_neg hvisited]
  cases g.visitAll (g.next id) (s.enter id) with
  | mk cycle t h => cases cycle <;> rfl

theorem cycle_visitAll_cons : (g.visitAll (id :: ids) s).cycle =
    (g.visit id s).cycle.or (g.visitAll ids (g.visit id s).search).cycle := by
  rw [visitAll]
  cases hvisit : g.visit id s with
  | mk cycle t h => cases cycle <;> rfl

theorem Due.reports (h : g.Due roots ids s) (hcycle : (g.visitAll ids s).cycle = some path) :
    (g.visitAll roots .start).cycle = some path := by
  induction h with
  | start => exact hcycle
  | next _ hnone ih =>
    apply ih
    rw [cycle_visitAll_cons, hnone, Option.none_or]
    exact hcycle
  | enter _ honPath hvisited ih =>
    apply ih
    rw [cycle_visitAll_cons, cycle_visit_of_notMem honPath hvisited, hcycle]
    rfl

def ComesBack (g : Adjacency) (roots path : List EntryId) : Prop :=
  ∃ id s, g.Visits roots id s ∧ id ∈ s.onPath ∧ (g.visit id s).cycle = some path

theorem comesBack_aux (g : Adjacency) (roots path : List EntryId) :
    (∀ id s, (g.visit id s).cycle = some path → ∀ ids, g.Due roots (id :: ids) s → g.ComesBack roots path) ∧
      ∀ ids s, (g.visitAll ids s).cycle = some path → g.Due roots ids s → g.ComesBack roots path := by
  apply visit.mutual_induct g
  · intro id s hid hcycle ids hdue
    exact ⟨id, s, ⟨ids, hdue⟩, hid, hcycle⟩
  · intro id s hid hvisited hcycle
    rw [visit, if_neg hid, dif_pos hvisited] at hcycle
    cases hcycle
  · intro id s hid hvisited cycle t h hall ih hcycle ids hdue
    rw [cycle_visit_of_notMem hid hvisited] at hcycle
    exact ih hcycle (hdue.enter hid hvisited)
  · intro id s hid hvisited t h hall ih hcycle ids hdue
    rw [cycle_visit_of_notMem hid hvisited] at hcycle
    exact ih hcycle (hdue.enter hid hvisited)
  · intro s hcycle
    rw [visitAll] at hcycle
    cases hcycle
  · intro s id ids cycle t h hvisit ih hcycle hdue
    rw [cycle_visitAll_cons, hvisit] at hcycle
    exact ih (hvisit ▸ hcycle) ids hdue
  · intro s id ids t h hvisit ihvisit ihall hcycle hdue
    rw [cycle_visitAll_cons, hvisit] at hcycle
    have hnext := hdue.next (by rw [hvisit])
    rw [hvisit] at hnext
    exact ihall hcycle hnext

theorem comesBack_iff : (g.visitAll roots .start).cycle = some path ↔ g.ComesBack roots path := by
  constructor
  · intro h
    exact (g.comesBack_aux roots path).2 roots .start h .start
  · rintro ⟨id, s, ⟨ids, hdue⟩, -, hcycle⟩
    apply hdue.reports
    rw [cycle_visitAll_cons, hcycle]
    rfl

end FilterWorkspace.Adjacency
