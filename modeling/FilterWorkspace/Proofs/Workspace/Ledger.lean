import FilterWorkspace.Proofs.Workspace.Coherent

/-! A workspace is an append-only log of entries with marks for the removed ones. The log is read
off the replies: a registered entry has its place in the log as its number, it is held until a call
asks to remove it, and what is held is the logged entry unchanged. -/

namespace FilterWorkspace.Workspace

variable {L : Type}

theorem log_concat (events : List (Event L)) (event : Event L) :
    log (events ++ [event]) = log events ++ event.registered?.toList := by
  rw [log, log, List.filterMap_append]
  cases h : event.registered? <;> simp [h]

theorem removals_concat (events : List (Event L)) (event : Event L) :
    removals (events ++ [event]) = removals events ++ event.removed?.toList := by
  rw [removals, removals, List.filterMap_append]
  cases h : event.removed? <;> simp [h]

/-- An entry was registered under `id`, and no later call asked to remove it. -/
def Standing (events : List (Event L)) (id : EntryId) : Prop :=
  ∃ before event after e, events = before ++ event :: after ∧ event.registered? = some e ∧
    e.id = id ∧ ∀ later ∈ after, later.removal? ≠ some id

theorem standing_concat {events : List (Event L)} {event : Event L} {id : EntryId} :
    Standing (events ++ [event]) id ↔ (∃ e, event.registered? = some e ∧ e.id = id) ∨
      Standing events id ∧ event.removal? ≠ some id := by
  constructor
  · rintro ⟨before, found, after, e, hsplit, hfound, hid, hlater⟩
    rcases List.eq_nil_or_concat after with rfl | ⟨after, last, rfl⟩
    · obtain ⟨-, hlast⟩ := List.append_inj' hsplit rfl
      obtain rfl := List.singleton_inj.1 hlast
      exact .inl ⟨e, hfound, hid⟩
    · rw [List.concat_eq_append, ← List.cons_append, ← List.append_assoc] at hsplit
      obtain ⟨rfl, hlast⟩ := List.append_inj' hsplit rfl
      obtain rfl := List.singleton_inj.1 hlast
      refine .inr ⟨⟨before, found, after, e, rfl, hfound, hid, fun later h => ?_⟩, ?_⟩
      · exact hlater later (by simp [h])
      · exact hlater event (by simp)
  · rintro (⟨e, hregistered, hid⟩ | ⟨⟨before, found, after, e, rfl, hfound, hid, hlater⟩, hlast⟩)
    · exact ⟨events, event, [], e, rfl, hregistered, hid, by simp⟩
    · refine ⟨before, found, after ++ [event], e, by simp, hfound, hid, fun later h => ?_⟩
      rcases List.mem_append.1 h with h | h
      · exact hlater later h
      · rwa [List.mem_singleton.1 h]

structure Follows (w : Workspace L) (events : List (Event L)) : Prop where
  issued : w.ids.issued = (log events).length
  id_log : ∀ (k : Nat) (e : Entry L), (log events)[k]? = some e → e.id = .numbered w.ids.space k
  mem : ∀ id, id ∈ w ↔ Standing events id
  mem_log : ∀ id e, w.get? id = some e → e ∈ log events
  size : w.size + (removals events).length = (log events).length
  removed : ∀ id e, ⟨.remove id, .found (some e)⟩ ∈ events → e ∈ log events ∧ e.id = id
  gone : ∀ e ∈ removals events, e.id ∉ w
  logged : ∀ e ∈ removals events, e ∈ log events
  removals_nodup : ((removals events).map Entry.id).Nodup

theorem follows_create (settings : Settings) (createdAt : Int) :
    (create settings createdAt : Workspace L).Follows [] where
  issued := rfl
  id_log := by simp [log]
  mem id := by simp [create, mem_def, Standing]
  mem_log := by simp [create, get?]
  size := by simp [create, size, removals, log]
  removed := by simp
  gone := by simp [removals]
  logged := by simp [removals]
  removals_nodup := by simp [removals]

namespace Follows

variable {w : Workspace L} {events : List (Event L)} (h : w.Follows events)
include h

theorem keep {event : Event L} (hregistered : event.registered? = none)
    (hremoved : event.removed? = none) (hremoval : ∀ id, event.removal? = some id → id ∉ w) :
    w.Follows (events ++ [event]) := by
  have hlog : log (events ++ [event]) = log events := by simp [log_concat, hregistered]
  have hremovals : removals (events ++ [event]) = removals events := by
    simp [removals_concat, hremoved]
  refine ⟨hlog ▸ h.issued, hlog ▸ h.id_log, fun id => ?_, hlog ▸ h.mem_log, ?_, ?_, hremovals ▸ h.gone,
    ?_, hremovals ▸ h.removals_nodup⟩
  · rw [standing_concat, ← h.mem]
    constructor
    · exact fun hid => .inr ⟨hid, fun heq => hremoval id heq hid⟩
    · rintro (⟨e, he, -⟩ | ⟨hid, -⟩)
      · simp [hregistered] at he
      · exact hid
  · rw [hlog, hremovals, h.size]
  · intro id e hmem
    rw [hlog]
    rcases List.mem_append.1 hmem with hmem | hmem
    · exact h.removed id e hmem
    · rw [← List.mem_singleton.1 hmem] at hremoved
      simp [Event.removed?] at hremoved
  · rw [hlog, hremovals]
    exact h.logged

theorem eq_of_id_eq {e e' : Entry L} (he : e ∈ log events) (he' : e' ∈ log events)
    (hid : e.id = e'.id) : e = e' := by
  obtain ⟨k, hk⟩ := List.mem_iff_getElem?.1 he
  obtain ⟨k', hk'⟩ := List.mem_iff_getElem?.1 he'
  have heq : k = k' := EntryId.numbered_inj.1 (by rw [← h.id_log k e hk, ← h.id_log k' e' hk', hid])
  rw [heq, hk'] at hk
  exact (Option.some.inj hk).symm

theorem id_ne_nextId {e : Entry L} (he : e ∈ log events) : e.id ≠ w.nextId := by
  obtain ⟨k, hk⟩ := List.mem_iff_getElem?.1 he
  intro heq
  have hlt := (List.getElem?_eq_some_iff.1 hk).1
  rw [h.id_log k e hk] at heq
  have := EntryId.numbered_inj.1 heq
  have := h.issued
  omega

theorem add {event : Event L} {payload : Payload L} (hnext : w.nextId ∉ w)
    (hregistered : event.registered? = some (w.insert payload).1) :
    (w.insert payload).2.Follows (events ++ [event]) := by
  obtain ⟨hremoval, hremoved⟩ : event.removal? = none ∧ event.removed? = none := by
    rcases Event.exists_of_registered? hregistered with ⟨_, rfl⟩ | ⟨_, rfl⟩ | ⟨_, _, rfl⟩ <;> exact ⟨rfl, rfl⟩
  have hlog : log (events ++ [event]) = log events ++ [(w.insert payload).1] := by
    rw [log_concat, hregistered, Option.toList_some]
  have hremovals : removals (events ++ [event]) = removals events := by
    rw [removals_concat, hremoved, Option.toList_none, List.append_nil]
  constructor
  case issued =>
    rw [hlog, List.length_append, ← h.issued]
    rfl
  case id_log =>
    intro k e hk
    rw [hlog] at hk
    rcases Nat.lt_or_ge k (log events).length with hlt | hge
    · rw [List.getElem?_append_left hlt] at hk
      exact h.id_log k e hk
    · -- The new entry is the last of the log, and has the number that was next.
      rw [List.getElem?_append_right hge] at hk
      obtain ⟨hlt, rfl⟩ := List.getElem?_eq_some_iff.1 hk
      have hlast : k = w.ids.issued := by
        rw [List.length_singleton] at hlt
        have := h.issued
        omega
      rw [List.getElem_singleton, hlast]
      rfl
  case mem =>
    intro id
    rw [mem_insert, standing_concat, ← h.mem, hregistered, hremoval]
    simp [Entry.ofPayload]
  case mem_log =>
    intro id e he
    rw [hlog]
    rw [get?_insert] at he
    split at he
    next heq =>
      obtain rfl := Option.some.inj he
      rw [← heq]
      exact List.mem_append_right _ (List.mem_singleton_self _)
    · exact List.mem_append_left _ (h.mem_log id e he)
  case size =>
    rw [hlog, hremovals, size_insert hnext, List.length_append, ← h.size, List.length_singleton]
    omega
  case removed =>
    intro id e hmem
    rw [hlog]
    rcases List.mem_append.1 hmem with hmem | hmem
    · exact (h.removed id e hmem).imp_left (List.mem_append_left _)
    · rw [← List.mem_singleton.1 hmem] at hremoval
      cases hremoval
  case gone =>
    rw [hremovals]
    intro e he hmem
    rcases mem_insert.1 hmem with heq | hmem
    · exact h.id_ne_nextId (h.logged e he) heq.symm
    · exact h.gone e he hmem
  case logged =>
    rw [hlog, hremovals]
    exact fun e he => List.mem_append_left _ (h.logged e he)
  case removals_nodup => exact hremovals ▸ h.removals_nodup

theorem drop {id : EntryId} {e : Entry L} (he : w.get? id = some e) (hid : e.id = id) :
    (w.drop id).Follows (events ++ [⟨.remove id, .found (some e)⟩]) := by
  have hlog : log (events ++ [⟨.remove id, .found (some e)⟩]) = log events := by
    rw [log_concat]
    exact List.append_nil _
  have hremovals : removals (events ++ [⟨.remove id, .found (some e)⟩]) = removals events ++ [e] :=
    removals_concat _ _
  have hheld : id ∈ w := mem_iff_get?.2 ⟨e, he⟩
  constructor
  case issued => exact hlog ▸ h.issued
  case id_log => exact hlog ▸ h.id_log
  case mem =>
    intro other
    rw [mem_drop, standing_concat, ← h.mem]
    simp [Event.registered?, Event.removal?, and_comm]
  case mem_log =>
    intro other e' he'
    rw [get?_drop] at he'
    split at he'
    · cases he'
    · exact hlog ▸ h.mem_log other e' he'
  case size =>
    rw [hlog, hremovals, List.length_append, ← h.size, ← size_drop hheld, List.length_singleton]
    omega
  case removed =>
    intro other e' hmem
    rw [hlog]
    rcases List.mem_append.1 hmem with hmem | hmem
    · exact h.removed other e' hmem
    · injection List.mem_singleton.1 hmem with hcall hreply
      injection hcall with heq
      injection hreply with heq'
      obtain rfl := Option.some.inj heq'
      exact ⟨h.mem_log id _ he, hid.trans heq.symm⟩
  case gone =>
    rw [hremovals]
    intro e' he' hmem
    rcases List.mem_append.1 he' with he' | he'
    · exact h.gone e' he' (mem_drop.1 hmem).2
    · rw [List.mem_singleton.1 he', hid] at hmem
      exact (mem_drop.1 hmem).1 rfl
  case logged =>
    rw [hlog, hremovals]
    intro e' he'
    rcases List.mem_append.1 he' with he' | he'
    · exact h.logged e' he'
    · rw [List.mem_singleton.1 he']
      exact h.mem_log id e he
  case removals_nodup =>
    rw [hremovals, List.map_append, List.map_singleton, List.nodup_append_comm, List.singleton_append,
      List.nodup_cons]
    refine ⟨fun hmem => ?_, h.removals_nodup⟩
    obtain ⟨e', he', heq⟩ := List.mem_map.1 hmem
    exact h.gone e' he' (by rwa [heq, hid])

end Follows

theorem follows_after (settings : Settings) (createdAt : Int) (calls : List (Call L)) :
    ((create settings createdAt).after calls).Follows ((create settings createdAt).history calls) := by
  refine ((coherent_create settings createdAt).run_induction (motive := fun events v => v.Follows events)
    (follows_create settings createdAt) ?_ calls).2
  intro events v event v' hcoherent hfollows hstep
  cases hstep with
  | keep hregistered hremoved hremoval => exact hfollows.keep hregistered hremoved hremoval
  | add _ hregistered => exact hfollows.add hcoherent.nextId_notMem hregistered
  | drop he => exact hfollows.drop he (hcoherent.id_eq he)

/-- The workspace `w`, with identifiers of `space`, shows just what the log of `events` says. -/
structure Mirrors (w : Workspace L) (space : String) (events : List (Event L)) : Prop where
  id_log : ∀ (k : Nat) (e : Entry L), (log events)[k]? = some e → e.id = .numbered space k
  nextId : w.nextId = .numbered space (log events).length
  mem : ∀ id, id ∈ w ↔ Standing events id
  isSome_get? : ∀ id, (w.get? id).isSome ↔ id ∈ w
  get? : ∀ id e, w.get? id = some e ↔ id ∈ w ∧ e ∈ log events ∧ e.id = id
  references? : ∀ id, w.graph.references? id = (w.get? id).map Entry.references
  references : ∀ id e, w.get? id = some e → e.references = e.payload.references
  mem_toList : ∀ e, e ∈ w.toList ↔ w.get? e.id = some e
  sorted_toList : (w.toList.map Entry.id).Pairwise fun a b => compare a b = .lt
  size : w.size = (log events).length - (removals events).length
  removals_le : (removals events).length ≤ (log events).length
  removed : ∀ id e, ⟨.remove id, .found (some e)⟩ ∈ events → e ∈ log events ∧ e.id = id
  removals_nodup : ((removals events).map Entry.id).Nodup

theorem mirrors_after (settings : Settings) (createdAt : Int) (calls : List (Call L)) :
    ((create settings createdAt).after calls).Mirrors (settings.space createdAt)
      ((create settings createdAt).history calls) := by
  have hcoherent := coherent_after (L := L) settings createdAt calls
  have hfollows := follows_after (L := L) settings createdAt calls
  have hspace : ((create settings createdAt : Workspace L).after calls).ids.space =
      settings.space createdAt := space_after _ calls
  constructor
  case id_log => exact hspace ▸ hfollows.id_log
  case nextId =>
    rw [← hfollows.issued, ← hspace]
    rfl
  case mem => exact hfollows.mem
  case isSome_get? => exact fun id => by rw [mem_iff_get?, Option.isSome_iff_exists]
  case get? =>
    intro id e
    constructor
    · exact fun he => ⟨mem_iff_get?.2 ⟨e, he⟩, hfollows.mem_log id e he, hcoherent.id_eq he⟩
    · rintro ⟨hid, hlogged, heq⟩
      obtain ⟨e', he'⟩ := mem_iff_get?.1 hid
      have hsame : e' = e :=
        hfollows.eq_of_id_eq (hfollows.mem_log id e' he') hlogged ((hcoherent.id_eq he').trans heq.symm)
      rw [he', hsame]
  case references? => exact hcoherent.graph
  case references => exact fun id e he => hcoherent.references_eq he
  case mem_toList => exact fun e => hcoherent.mem_toList
  case sorted_toList => exact hcoherent.sorted_toList
  case size => have := hfollows.size; omega
  case removals_le => have := hfollows.size; omega
  case removed => exact hfollows.removed
  case removals_nodup => exact hfollows.removals_nodup

end FilterWorkspace.Workspace
