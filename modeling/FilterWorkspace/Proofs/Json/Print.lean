import FilterWorkspace.Json.Contents
import FilterWorkspace.Proofs.Json.Lexeme
import FilterWorkspace.Proofs.Json.Normal

/-! The reader and the printer. A value is read back from its own text just in case its numbers are, and arrays
and objects do not stand too deep inside one another. -/

namespace FilterWorkspace.Json

namespace Draft

def contain (depth : Nat) (d : Draft) : Draft := if depth < maxDepth then d else valueless d

mutual

/-- What is read where the value is printed inside `depth` arrays and objects. -/
def printed : Nat → Json → Draft
  | _, .null => null
  | _, .bool value => bool value
  | _, .number value => ofToken value.token
  | _, .string value => string value
  | depth, .array items => contain depth (array (printedItems (depth + 1) items))
  | depth, .object fields => contain depth (object (printedFields (depth + 1) fields))

def printedItems : Nat → List Json → List Draft
  | _, [] => []
  | depth, x :: xs => printed depth x :: printedItems depth xs

def printedFields : Nat → List (String × Json) → List (Option String × Draft)
  | _, [] => []
  | depth, (name, x) :: rest => (some name, printed depth x) :: printedFields depth rest

end

def resume : Step → List Token → Draft × List Token
  | .go frames due, ts => read frames due ts
  | .done d, ts => (d, ts)

variable {frames : List Frame} {due : Due} {t : Token} {st : Step} {ts : List Token}

theorem read_step (h : step frames due t = some st) : read frames due (t :: ts) = resume st ts := by
  rw [read, h]
  cases st <;> rfl

theorem read_go {inner : List Frame} {next : Due} (h : step frames due t = some (.go inner next)) :
    read frames due (t :: ts) = read inner next ts :=
  read_step h

theorem resume_finish (d : Draft) (f : Frame) :
    resume (finish d (f :: frames)) ts = read (f.add d :: frames) .separator ts := rfl

theorem step_firstItem (h : t ≠ .arrayClose) : step frames .firstItem t = step frames .value t := by
  cases t <;> first | rfl | contradiction

theorem tokens_eq_cons (x : Json) : ∃ t ts, x.tokens = t :: ts ∧ t ≠ .arrayClose := by
  cases x with
  | number n =>
    refine ⟨n.token, [], rfl, ?_⟩
    rcases n.token_form with ⟨k, h⟩ | h
    all_goals
      rw [h]
      nofun
  | _ => exact ⟨_, _, rfl, by nofun⟩

theorem read_firstItem (x : Json) : read frames .firstItem (x.tokens ++ ts) = read frames .value (x.tokens ++ ts) := by
  obtain ⟨t, rest, hx, ht⟩ := tokens_eq_cons x
  rw [hx, List.cons_append, read, read, step_firstItem ht]

theorem read_token (n : Number) (frames : List Frame) (ts : List Token) :
    read frames .value (n.token :: ts) = resume (finish (ofToken n.token) frames) ts := by
  rcases n.token_form with ⟨k, h⟩ | h
  all_goals
    rw [h]
    exact read_step rfl

theorem finishContainer_items (ds : List Draft) (frames : List Frame) :
    finishContainer (.items ds.reverse) frames = finish (contain frames.length (array ds)) frames := by
  simp only [finishContainer, contain, Frame.close, List.reverse_reverse]

theorem finishContainer_fields (ds : List (Option String × Draft)) (frames : List Frame) :
    finishContainer (.fields ds.reverse) frames = finish (contain frames.length (object ds)) frames := by
  simp only [finishContainer, contain, Frame.close, List.reverse_reverse]

theorem intercalate_itemTokens (x y : Json) (xs : List Json) : [.comma].intercalate (itemTokens (x :: y :: xs)) =
    x.tokens ++ .comma :: [.comma].intercalate (itemTokens (y :: xs)) := by
  rw [itemTokens, itemTokens, List.intercalate_cons_cons, List.append_assoc]
  rfl

theorem intercalate_fieldTokens (name : String) (x : Json) (field : String × Json) (fields : List (String × Json)) :
    [.comma].intercalate (fieldTokens ((name, x) :: field :: fields)) =
      .string name :: .colon :: (x.tokens ++ .comma :: [.comma].intercalate (fieldTokens (field :: fields))) := by
  obtain ⟨name', y⟩ := field
  rw [fieldTokens, fieldTokens, List.intercalate_cons_cons, List.append_assoc]
  rfl

theorem read_firstItems (x : Json) (xs : List Json) :
    read frames .firstItem ([.comma].intercalate (itemTokens (x :: xs)) ++ ts) =
      read frames .value ([.comma].intercalate (itemTokens (x :: xs)) ++ ts) := by
  cases xs with
  | nil =>
    simp only [itemTokens, List.intercalate_singleton]
    exact read_firstItem x
  | cons y xs =>
    rw [intercalate_itemTokens, List.append_assoc]
    exact read_firstItem x

theorem read_name {done : List (Option String × Draft)} {name : String} (hdue : due = .firstName ∨ due = .name) :
    read (.fields done :: frames) due (.string name :: .colon :: ts) =
      read (.field done (some name) :: frames) .value ts := by
  rcases hdue with rfl | rfl
  all_goals
    refine (read_go rfl).trans ?_
    exact read_go rfl

mutual

theorem read_tokens : ∀ (x : Json) (frames : List Frame) (ts : List Token),
    read frames .value (x.tokens ++ ts) = resume (finish (printed frames.length x) frames) ts
  | .null, _, _ | .bool _, _, _ | .string _, _, _ => read_step rfl
  | .number n, frames, ts => read_token n frames ts
  | .array [], frames, ts => by
    have hclose : read (.items [] :: frames) .firstItem (.arrayClose :: ts) =
        resume (finishContainer (.items [].reverse) frames) ts := read_step rfl
    rw [finishContainer_items] at hclose
    refine (read_go rfl).trans ?_
    exact hclose
  | .array (x :: xs), frames, ts => by
    have hitems := read_items x xs [] frames ts
    rw [← read_firstItems, List.append_nil, finishContainer_items] at hitems
    rw [tokens, List.cons_append, List.append_assoc]
    refine (read_go rfl).trans ?_
    exact hitems
  | .object [], frames, ts => by
    have hclose : read (.fields [] :: frames) .firstName (.objectClose :: ts) =
        resume (finishContainer (.fields [].reverse) frames) ts := read_step rfl
    rw [finishContainer_fields] at hclose
    refine (read_go rfl).trans ?_
    exact hclose
  | .object ((name, x) :: fields), frames, ts => by
    have hfields := read_fields .firstName (.inl rfl) name x fields [] frames ts
    rw [List.append_nil, finishContainer_fields] at hfields
    rw [tokens, List.cons_append, List.append_assoc]
    refine (read_go rfl).trans ?_
    exact hfields
termination_by x => sizeOf x

theorem read_items : ∀ (x : Json) (xs : List Json) (done : List Draft) (frames : List Frame) (ts : List Token),
    read (.items done :: frames) .value ([.comma].intercalate (itemTokens (x :: xs)) ++ .arrayClose :: ts) =
      resume (finishContainer (.items ((printedItems (frames.length + 1) (x :: xs)).reverse ++ done)) frames) ts
  | x, [], done, frames, ts => by
    have hitem := read_tokens x (.items done :: frames) (.arrayClose :: ts)
    simp only [itemTokens, List.intercalate_singleton]
    rw [hitem]
    exact read_step rfl
  | x, y :: xs, done, frames, ts => by
    have hitem := read_tokens x (.items done :: frames)
      (.comma :: ([.comma].intercalate (itemTokens (y :: xs)) ++ .arrayClose :: ts))
    have hrest := read_items y xs (printed (frames.length + 1) x :: done) frames ts
    rw [intercalate_itemTokens, List.append_assoc, List.cons_append, hitem, resume_finish, printedItems, List.reverse_cons,
      List.append_assoc]
    refine (read_go rfl).trans ?_
    exact hrest
termination_by x xs => sizeOf (x :: xs)

theorem read_fields : ∀ (due : Due), due = .firstName ∨ due = .name → ∀ (name : String) (x : Json)
    (fields : List (String × Json)) (done : List (Option String × Draft)) (frames : List Frame) (ts : List Token),
    read (.fields done :: frames) due ([.comma].intercalate (fieldTokens ((name, x) :: fields)) ++ .objectClose :: ts) =
      resume (finishContainer
        (.fields ((printedFields (frames.length + 1) ((name, x) :: fields)).reverse ++ done)) frames) ts
  | due, hdue, name, x, [], done, frames, ts => by
    have hvalue := read_tokens x (.field done (some name) :: frames) (.objectClose :: ts)
    simp only [fieldTokens, List.intercalate_singleton, List.cons_append]
    refine (read_name hdue).trans ?_
    rw [hvalue]
    exact read_step rfl
  | due, hdue, name, x, (name', y) :: fields, done, frames, ts => by
    have hvalue := read_tokens x (.field done (some name) :: frames)
      (.comma :: ([.comma].intercalate (fieldTokens ((name', y) :: fields)) ++ .objectClose :: ts))
    have hrest := read_fields .name (.inr rfl) name' y fields ((some name, printed (frames.length + 1) x) :: done)
      frames ts
    rw [intercalate_fieldTokens, List.cons_append, List.cons_append, List.append_assoc, List.cons_append]
    refine (read_name hdue).trans ?_
    rw [hvalue, resume_finish, printedFields, List.reverse_cons, List.append_assoc]
    refine (read_go rfl).trans ?_
    exact hrest
termination_by _ _ name x fields => sizeOf ((name, x) :: fields)

end

theorem value?_ofToken {n : Number} (h : n.token = .number n) : (ofToken n.token).value? = some (.number n) := by
  rw [h]
  rfl

theorem token_of_value? {n m : Number} (h : (ofToken n.token).value? = some (.number m)) : n.token = .number m := by
  rcases n.token_form with ⟨k, hk⟩ | hk
  · rw [hk] at h ⊢
    simpa [ofToken, value?] using h
  · rw [hk] at h
    cases h

mutual

theorem value?_printed : ∀ {depth : Nat} {x : Json}, depth + x.nesting ≤ maxDepth →
    (∀ n ∈ x.numbers, n.token = .number n) → (printed depth x).value? = some x.normal
  | _, .null, _, _ | _, .bool _, _, _ | _, .string _, _, _ => rfl
  | _, .number n, _, hnumbers => value?_ofToken (hnumbers n List.mem_cons_self)
  | depth, .array items, hdepth, hnumbers => by
    rw [nesting] at hdepth
    have hshallow : depth < maxDepth := by omega
    have hitems : values? (printedItems (depth + 1) items) = some (normalItems items) :=
      values?_printedItems (by omega) hnumbers
    rw [printed, contain, if_pos hshallow, value?, hitems, normal, Option.map_some]
  | depth, .object fields, hdepth, hnumbers => by
    rw [nesting] at hdepth
    have hshallow : depth < maxDepth := by omega
    have hfields : fieldValues? (printedFields (depth + 1) fields) = some (normalFields fields) :=
      fieldValues?_printedFields (by omega) hnumbers
    rw [printed, contain, if_pos hshallow, value?, hfields, normal, Option.map_some]

theorem values?_printedItems : ∀ {depth : Nat} {items : List Json}, depth + itemsNesting items ≤ maxDepth →
    (∀ n ∈ itemsNumbers items, n.token = .number n) →
    values? (printedItems depth items) = some (normalItems items)
  | _, [], _, _ => rfl
  | depth, x :: xs, hdepth, hnumbers => by
    rw [itemsNesting] at hdepth
    rw [itemsNumbers, List.forall_mem_append] at hnumbers
    have hx : (printed depth x).value? = some x.normal := value?_printed (by omega) hnumbers.1
    have hxs : values? (printedItems depth xs) = some (normalItems xs) :=
      values?_printedItems (by omega) hnumbers.2
    rw [printedItems, values?, hx, hxs]
    rfl

theorem fieldValues?_printedFields : ∀ {depth : Nat} {fields : List (String × Json)},
    depth + fieldsNesting fields ≤ maxDepth → (∀ n ∈ fieldsNumbers fields, n.token = .number n) →
    fieldValues? (printedFields depth fields) = some (normalFields fields)
  | _, [], _, _ => rfl
  | depth, (name, x) :: rest, hdepth, hnumbers => by
    rw [fieldsNesting] at hdepth
    rw [fieldsNumbers, List.forall_mem_append] at hnumbers
    have hx : (printed depth x).value? = some x.normal := value?_printed (by omega) hnumbers.1
    have hrest : fieldValues? (printedFields depth rest) = some (normalFields rest) :=
      fieldValues?_printedFields (by omega) hnumbers.2
    rw [printedFields, fieldValues?, hx, hrest]
    rfl

end

theorem shallow_of_value? {depth : Nat} {d : Draft} {x : Json} (h : (contain depth d).value? = some x) :
    depth < maxDepth ∧ d.value? = some x := by
  unfold contain at h
  split at h
  next hdepth => exact ⟨hdepth, h⟩
  · cases h

theorem names_of_fieldValues? {depth : Nat} {fields values : List (String × Json)}
    (h : fieldValues? (printedFields depth fields) = some values) : values.map Prod.fst = fields.map Prod.fst := by
  induction fields generalizing values with
  | nil =>
    obtain rfl := Option.some.inj h
    rfl
  | cons field fields ih =>
    rw [printedFields, fieldValues?] at h
    simp only [Option.bind_eq_bind, Option.bind_eq_some_iff, Option.pure_def, Option.some.injEq] at h
    obtain ⟨x, -, rest, hrest, rfl⟩ := h
    rw [List.map_cons, List.map_cons, ih hrest]

theorem fieldValues?_of_value? {depth : Nat} {fields : List (String × Json)} (hnormal : (Json.object fields).IsNormal)
    (h : (object (printedFields depth fields)).value? = some (.object fields)) :
    fieldValues? (printedFields depth fields) = some fields := by
  obtain ⟨values, hvalues, heq⟩ := Option.map_eq_some_iff.1 h
  have hnames := names_of_fieldValues? hvalues
  have hinOrder : InOrder Text.byteOrder Prod.fst values := by
    have hfields := inOrder_of_isNormal hnormal
    refine .of_map ?_
    rw [hnames]
    exact List.pairwise_map.2 hfields
  rw [Json.ofFields_eq (.refl _) hinOrder] at heq
  rw [hvalues, Json.object.inj heq]

mutual

theorem kept_of_value? : ∀ {depth : Nat} {x : Json}, depth ≤ maxDepth → x.IsNormal →
    (printed depth x).value? = some x → depth + x.nesting ≤ maxDepth ∧ ∀ n ∈ x.numbers, n.token = .number n
  | _, .null, hdepth, _, _ | _, .bool _, hdepth, _, _ | _, .string _, hdepth, _, _ => by
    simpa [nesting, numbers] using hdepth
  | depth, .number n, hdepth, _, h => by
    have hn := token_of_value? h
    simpa [nesting, numbers, hn] using hdepth
  | depth, .array items, _, hnormal, h => by
    obtain ⟨hshallow, h⟩ := shallow_of_value? h
    obtain ⟨_, hitems, heq⟩ := Option.map_eq_some_iff.1 h
    rw [Json.array.inj heq] at hitems
    have hkept := kept_of_values? (Nat.succ_le_of_lt hshallow) (isNormal_of_mem hnormal) hitems
    rw [nesting]
    exact ⟨by omega, hkept.2⟩
  | depth, .object fields, _, hnormal, h => by
    obtain ⟨hshallow, h⟩ := shallow_of_value? h
    have hfields := fieldValues?_of_value? hnormal h
    have hkept := kept_of_fieldValues? (Nat.succ_le_of_lt hshallow) (isNormal_of_mem_fields hnormal) hfields
    rw [nesting]
    exact ⟨by omega, hkept.2⟩

theorem kept_of_values? : ∀ {depth : Nat} {items : List Json}, depth ≤ maxDepth → (∀ x ∈ items, x.IsNormal) →
    values? (printedItems depth items) = some items →
    depth + itemsNesting items ≤ maxDepth ∧ ∀ n ∈ itemsNumbers items, n.token = .number n
  | _, [], hdepth, _, _ => by simpa [itemsNesting, itemsNumbers] using hdepth
  | depth, x :: xs, hdepth, hnormal, h => by
    rw [printedItems, values?] at h
    simp only [Option.bind_eq_bind, Option.bind_eq_some_iff, Option.pure_def, Option.some.injEq,
      List.cons.injEq] at h
    obtain ⟨_, hx, _, hxs, rfl, rfl⟩ := h
    obtain ⟨hnormalx, hnormalxs⟩ := List.forall_mem_cons.1 hnormal
    have hfirst := kept_of_value? hdepth hnormalx hx
    have hrest := kept_of_values? hdepth hnormalxs hxs
    rw [itemsNesting, itemsNumbers, List.forall_mem_append]
    exact ⟨by omega, hfirst.2, hrest.2⟩

theorem kept_of_fieldValues? : ∀ {depth : Nat} {fields : List (String × Json)}, depth ≤ maxDepth →
    (∀ field ∈ fields, field.2.IsNormal) → fieldValues? (printedFields depth fields) = some fields →
    depth + fieldsNesting fields ≤ maxDepth ∧ ∀ n ∈ fieldsNumbers fields, n.token = .number n
  | _, [], hdepth, _, _ => by simpa [fieldsNesting, fieldsNumbers] using hdepth
  | depth, (name, x) :: rest, hdepth, hnormal, h => by
    rw [printedFields, fieldValues?] at h
    simp only [Option.bind_eq_bind, Option.bind_eq_some_iff, Option.pure_def, Option.some.injEq,
      List.cons.injEq, Prod.mk.injEq, true_and] at h
    obtain ⟨y, hx, _, hrest, rfl, rfl⟩ := h
    obtain ⟨hnormalx, hnormalrest⟩ := List.forall_mem_cons.1 hnormal
    have hfirst : depth + y.nesting ≤ maxDepth ∧ _ := kept_of_value? hdepth hnormalx hx
    have hrest := kept_of_fieldValues? hdepth hnormalrest hrest
    rw [fieldsNesting, fieldsNumbers, List.forall_mem_append]
    exact ⟨by omega, hfirst.2, hrest.2⟩

end

theorem value?_printed_iff {depth : Nat} {x : Json} (hdepth : depth ≤ maxDepth) (hx : x.IsNormal) :
    (printed depth x).value? = some x ↔ depth + x.nesting ≤ maxDepth ∧ ∀ n ∈ x.numbers, n.token = .number n := by
  constructor
  · exact kept_of_value? hdepth hx
  · rintro ⟨hnesting, hnumbers⟩
    rw [value?_printed hnesting hnumbers, hx]

end Draft

theorem draft_render (x : Json) : draft x.render = (Draft.printed 0 x, false) := by
  have hread := Draft.read_tokens x [] []
  rw [List.append_nil] at hread
  rw [draft, ofChars_render, hread]
  rfl

theorem parse?_render (x : Json) : parse? x.render = (Draft.printed 0 x).value? := by
  rw [parse?, draft_render]

theorem parse?_number_iff {n : Number} : parse? (number n).render = some (number n) ↔ n.token = .number n := by
  rw [parse?_render]
  exact ⟨Draft.token_of_value?, Draft.value?_ofToken⟩

/-- A value is read back from its own text just in case each number of it is, and at most 127 arrays and objects
stand inside one another. -/
theorem parse?_render_iff {x : Json} (hx : x.IsNormal) : parse? x.render = some x ↔
    x.nesting ≤ 127 ∧ ∀ n ∈ x.numbers, parse? (number n).render = some (number n) := by
  simp only [parse?_number_iff]
  rw [parse?_render, Draft.value?_printed_iff (Nat.zero_le _) hx, Nat.zero_add]
  rfl

/-- From the text of a written form, whatever the order of its fields, the value is read that the form stands for. -/
theorem parse?_render_normal {x : Json} (hnesting : x.nesting ≤ 127) (hnumbers : ∀ n ∈ x.numbers, n.IsShort) :
    parse? x.render = some x.normal := by
  rw [parse?_render]
  apply Draft.value?_printed
  · rw [Nat.zero_add]
    exact hnesting
  · exact fun n hn => Number.token_of_isShort (hnumbers n hn)

end FilterWorkspace.Json
