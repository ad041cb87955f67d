import FilterWorkspace.Expression.Form
import FilterWorkspace.Filter.Form
import FilterWorkspace.Outcome
import FilterWorkspace.Proofs.Json.Normal
import FilterWorkspace.Settings.Form

/-! Reading undoes writing. Each reader gets back what was written for it, provided that the readers of
the parts do, so that a written value is never taken for another of the forms that a reader accepts. -/

namespace FilterWorkspace.Reading

variable {ν α β : Type}

/-- Reading gets `a` back from the form `x`, and from the value that `x` stands for. -/
structure Restores (read : Reader Json α) (x : Json) (a : α) : Prop where
  written : read x = .ok a
  normal : read x.normal = .ok a

theorem Restores.map {read : Reader Json α} {x : Json} {a : α} (h : Restores read x a) (f : α → β) :
    Restores (fun x => do return f (← read x)) x (f a) where
  written := by rw [h.written]; rfl
  normal := by rw [h.normal]; rfl

theorem restores_string (s : String) : Restores string (.string s) s := ⟨rfl, rfl⟩

theorem restores_bool (b : Bool) : Restores bool (.bool b) b := ⟨rfl, rfl⟩

theorem restores_json {x : Json} (h : x.IsNormal) : Restores JsonSource.json x x :=
  ⟨rfl, congrArg Except.ok h⟩

theorem lookup_map {γ : Type} {name : α → String} (hname : Function.Injective name) (f : α → γ)
    {all : List α} {a : α} (ha : a ∈ all) :
    (all.map fun b => (name b, f b)).lookup (name a) = some (f a) := by
  induction all with
  | nil => simp at ha
  | cons b all ih =>
    rw [List.map_cons, List.lookup_cons]
    by_cases hab : a = b
    · rw [hab, beq_self_eq_true]
    · have hne : (name a == name b) = false := beq_eq_false_iff_ne.2 fun heq => hab (hname heq)
      rw [hne]
      exact ih ((List.mem_cons.1 ha).resolve_left hab)

theorem named_of_choice [Source ν] {name : α → String} (hname : Function.Injective name) {all : List α} {a : α}
    (ha : a ∈ all) {x : ν} (hx : Source.choice x = .ok ⟨name a, none, .ok ()⟩) : named name all x = .ok a := by
  have hlookup := lookup_map hname (bare : α → Option ν → Except Error α) ha
  simp [named, choice, hx, hlookup, bare]

theorem restores_named {name : α → String} (hname : Function.Injective name) {all : List α} {a : α}
    (ha : a ∈ all) : Restores (named name all) (Json.string (name a)) a := by
  have hread : named name all (Json.string (name a)) = .ok a := named_of_choice hname ha rfl
  exact ⟨hread, hread⟩

theorem mapM_ok {items : List α} {read : Reader Json α} {f : α → Json} (h : ∀ a ∈ items, read (f a) = .ok a) :
    (items.map f).mapM read = .ok items := by
  induction items with
  | nil => rfl
  | cons a items ih =>
    rw [List.map_cons, List.mapM_cons, h a List.mem_cons_self, ih fun b hb => h b (List.mem_cons_of_mem _ hb)]
    rfl

theorem restores_list {read : Reader Json α} {toJson : α → Json} {items : List α}
    (h : ∀ a ∈ items, Restores read (toJson a) a) :
    Restores (list read) (.array (items.map toJson)) items where
  written := mapM_ok fun a ha => (h a ha).written
  normal := by
    rw [Json.normal_array, List.map_map]
    exact mapM_ok fun a ha => (h a ha).normal

theorem restores_choice {known : List (String × (Option Json → Except Error α))} {name : String}
    {read : Reader Json α} (hknown : known.lookup name = some (carrying read)) {x : Json} {a : α}
    (h : Restores read x a) : Restores (choice known) (.object [(name, x)]) a := by
  have hread {x : Json} (hx : read x = .ok a) : choice known (Json.object [(name, x)]) = .ok a := by
    simp [choice, Source.choice, Json.choice, hknown, carrying, hx]
  refine ⟨hread h.written, ?_⟩
  rw [Json.normal_single]
  exact hread h.normal

section

variable [Source ν] {name first second : String} {readFirst : Reader ν α} {readSecond : Reader ν β} {x y z : ν}

theorem pair_of_map (hne : first ≠ second) (hz : Source.shape z = .ok (.map [(.ok first, x), (.ok second, y)])) :
    pair name first second readFirst readSecond z = do
      let a ← readFirst x
      let b ← readSecond y
      return (a, b) := by
  cases hx : readFirst x <;> cases hy : readSecond y <;>
    simp [pair, RecordForm.read, hz, RecordForm.readFields, field, require, hx, hy, hne]

theorem pair_of_swapped_map (hne : first ≠ second)
    (hz : Source.shape z = .ok (.map [(.ok second, y), (.ok first, x)])) :
    pair name first second readFirst readSecond z = do
      let b ← readSecond y
      let a ← readFirst x
      return (a, b) := by
  cases hx : readFirst x <;> cases hy : readSecond y <;>
    simp [pair, RecordForm.read, hz, RecordForm.readFields, field, require, hx, hy, hne]

end

theorem pair_of_fields {name first second : String} (hne : first ≠ second) {readFirst : Reader Json α}
    {readSecond : Reader Json β} {x y : Json} {a : α} {b : β} (hx : readFirst x = .ok a)
    (hy : readSecond y = .ok b) {fields : List (String × Json)}
    (hfields : fields = [(first, x), (second, y)] ∨ fields = [(second, y), (first, x)]) :
    pair name first second readFirst readSecond (Json.object fields) = .ok (a, b) := by
  rcases hfields with rfl | rfl
  · rw [pair_of_map hne rfl, hx, hy]
    rfl
  · rw [pair_of_swapped_map hne rfl, hx, hy]
    rfl

theorem restores_pair {name first second : String} (hne : first ≠ second) {readFirst : Reader Json α}
    {readSecond : Reader Json β} {x y : Json} {a : α} {b : β} (hx : Restores readFirst x a)
    (hy : Restores readSecond y b) :
    Restores (pair name first second readFirst readSecond) (.object [(first, x), (second, y)]) (a, b) where
  written := pair_of_fields hne hx.written hy.written (.inl rfl)
  normal := by
    rcases Json.normal_pair hne x y with h | h
    · rw [h]
      exact pair_of_fields hne hx.normal hy.normal (.inl rfl)
    · rw [h]
      exact pair_of_fields hne hx.normal hy.normal (.inr rfl)

end FilterWorkspace.Reading

namespace FilterWorkspace

open Reading

theorem EntryId.restores (id : EntryId) : Restores EntryId.read id.toJson id :=
  (restores_string id.text).map EntryId.mk

theorem Combinator.restores (op : Combinator) : Restores Combinator.read op.toJson op :=
  restores_named (fun _ _ => Combinator.name_injective) (Combinator.mem_all op)

theorem FieldOperator.restores (op : FieldOperator) : Restores FieldOperator.read op.toJson op :=
  restores_named (fun _ _ => FieldOperator.name_injective) (FieldOperator.mem_every op)

theorem FieldContent.restores {c : FieldContent} (h : c.value.IsNormal) :
    Restores FieldContent.read c.toJson c := by
  have hpair : Restores (pair "FieldContent" "fieldName" "value" string JsonSource.json) c.toJson
      (c.fieldName, c.value) :=
    restores_pair (by decide) (restores_string c.fieldName) (restores_json h)
  exact hpair.map fun p => FieldContent.mk p.1 p.2

theorem FieldFilter.restores {f : FieldFilter} (h : f.content.value.IsNormal) :
    Restores FieldFilter.read f.toJson f := by
  have hpair : Restores (pair "FieldFilter" "op" "content" FieldOperator.read FieldContent.read) f.toJson
      (f.op, f.content) :=
    restores_pair (by decide) f.op.restores (FieldContent.restores h)
  exact hpair.map fun p => FieldFilter.mk p.1 p.2

variable {L : Type} {leafJson : L → Json} {readLeaf : Reader Json L}

theorem Child.restores {child : Child L}
    (h : ∀ value, child = .leaf value → Restores readLeaf (leafJson value) value) :
    Restores (Child.read readLeaf) (child.toJson leafJson) child := by
  cases child with
  | leaf value => exact restores_choice rfl ((h value rfl).map leaf)
  | reference id => exact restores_choice rfl (id.restores.map reference)

theorem Compound.restores {c : Compound L}
    (h : ∀ value, .leaf value ∈ c.content → Restores readLeaf (leafJson value) value) :
    Restores (Compound.read readLeaf) (c.toJson leafJson) c := by
  have hcontent : ∀ child ∈ c.content, Restores (Child.read readLeaf) (child.toJson leafJson) child :=
    fun child hchild => Child.restores fun value heq => h value (heq ▸ hchild)
  have hpair : Restores (pair "CompoundExpression" "op" "content" Combinator.read
      (list (Child.read readLeaf))) (c.toJson leafJson) (c.op, c.content) :=
    restores_pair (by decide) c.op.restores (restores_list hcontent)
  exact hpair.map fun p => Compound.mk p.1 p.2

theorem SharingPolicy.restores (p : SharingPolicy) : Restores SharingPolicy.read p.toJson p :=
  restores_named (fun _ _ => SharingPolicy.name_injective) (SharingPolicy.mem_all p)

namespace Settings

theorem restores_label (label : Option String) :
    Restores (optional string) (label.elim .null .string) label := by
  cases label with
  | none => exact ⟨rfl, rfl⟩
  | some label => exact ⟨rfl, rfl⟩

theorem read_of_fields {s : Settings} {label timestamp policy : Json}
    (hlabel : Reading.optional string label = .ok s.label) (htimestamp : bool timestamp = .ok s.timestamp)
    (hpolicy : SharingPolicy.read policy = .ok s.policy) {fields : List (String × Json)}
    (hfields : fields = [("label", label), ("timestamp", timestamp), ("policy", policy)] ∨
      fields = [("label", label), ("policy", policy), ("timestamp", timestamp)]) :
    Settings.read (Json.object fields) = .ok s := by
  rcases hfields with rfl | rfl <;>
    simp [Settings.read, RecordForm.read, Source.shape, Json.shape, RecordForm.readFields, form, field,
      hlabel, htimestamp, hpolicy]

theorem normal_toJson (s : Settings) :
    s.toJson.normal = .object [("label", (s.label.elim Json.null Json.string).normal),
      ("policy", s.policy.toJson.normal), ("timestamp", (Json.bool s.timestamp).normal)] := by
  have hnames : InOrder Text.byteOrder id ["label", "policy", "timestamp"] := by decide +kernel
  rw [toJson, Json.normal_object]
  exact Json.ofFields_eq (.cons _ (.swap ..)) (.of_map hnames)

theorem restores (s : Settings) : Restores Settings.read s.toJson s := by
  have hlabel := restores_label s.label
  have htimestamp := restores_bool s.timestamp
  have hpolicy := s.policy.restores
  refine ⟨read_of_fields hlabel.written htimestamp.written hpolicy.written (.inl rfl), ?_⟩
  rw [normal_toJson]
  exact read_of_fields hlabel.normal htimestamp.normal hpolicy.normal (.inr rfl)

end Settings

/-- Compounds, filters and settings are read back from the values written for them, exactly as they were,
whatever JSON values stand as leaves or in filters. -/
theorem reading_restores :
    (∀ c : Compound Json, (∀ value, .leaf value ∈ c.content → value.IsNormal) →
      Restores (Compound.read JsonSource.json) (c.toJson id) c) ∧
    (∀ c : Compound FieldFilter, (∀ f, .leaf f ∈ c.content → f.content.value.IsNormal) →
      Restores (Compound.read FieldFilter.read) (c.toJson FieldFilter.toJson) c) ∧
    (∀ f : FieldFilter, f.content.value.IsNormal → Restores FieldFilter.read f.toJson f) ∧
    ∀ s : Settings, Restores Settings.read s.toJson s :=
  ⟨fun _ h => Compound.restores fun value hvalue => restores_json (h value hvalue),
    fun _ h => Compound.restores fun f hf => FieldFilter.restores (h f hf),
    fun _ h => FieldFilter.restores h, Settings.restores⟩

theorem reading_restores_lookalike :
    let leaf : Json := .object [("content", .array [.object [("leaf", .null)]]), ("op", .string "and")]
    let c : Compound Json := ⟨.not, [.leaf .null, .reference ⟨"_0"⟩, .leaf leaf]⟩
    let f : FieldFilter := ⟨.atMost, "", leaf⟩
    (∀ value, .leaf value ∈ c.content → value.IsNormal) ∧ f.content.value.IsNormal ∧
      Compound.read JsonSource.json (c.toJson id).normal = .ok c ∧
      Compound.read FieldFilter.read ((Compound.mk .or [.leaf f]).toJson FieldFilter.toJson).normal =
        .ok ⟨.or, [.leaf f]⟩ ∧
      FieldFilter.read f.toJson.normal = .ok f := by
  intro leaf c f
  have hleaf : leaf.IsNormal := by decide +kernel
  have hleaves : ∀ value, .leaf value ∈ c.content → value.IsNormal := by
    intro value hvalue
    obtain rfl | rfl : value = .null ∨ value = leaf := by simpa [c] using hvalue
    · rfl
    · exact hleaf
  obtain ⟨hjson, hfilters, hfilter, -⟩ := reading_restores
  refine ⟨hleaves, hleaf, (hjson c hleaves).normal, (hfilters _ fun g hg => ?_).normal,
    (hfilter f hleaf).normal⟩
  obtain rfl : g = f := by simpa using hg
  exact hleaf

end FilterWorkspace
