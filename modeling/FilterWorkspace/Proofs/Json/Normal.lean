import FilterWorkspace.Json.Draft
import FilterWorkspace.Json.Normal
import FilterWorkspace.Proofs.InOrder

/-! Values among written forms. Putting the fields of all objects in order makes a value of any form,
and whatever is read from a text is a value. -/

namespace FilterWorkspace.Json

theorem ofFields_eq {fields sorted : List (String × Json)} (hperm : fields.Perm sorted)
    (h : InOrder Text.byteOrder Prod.fst sorted) : ofFields fields = object sorted := by
  rw [ofFields, toList_ofList hperm h]

theorem isNormal_array {items : List Json} (h : ∀ x ∈ items, x.IsNormal) : (array items).IsNormal := by
  rw [IsNormal, normal_array, List.map_congr_left h, List.map_id']

theorem isNormal_object {fields : List (String × Json)} (h : InOrder Text.byteOrder Prod.fst fields)
    (hvalues : ∀ field ∈ fields, field.2.IsNormal) : (object fields).IsNormal := by
  have hsame : fields.map (fun field => (field.1, field.2.normal)) = fields := by
    refine (List.map_congr_left fun field hfield => ?_).trans (List.map_id' fields)
    exact Prod.ext rfl (hvalues field hfield)
  rw [IsNormal, normal_object, hsame, ofFields_eq (.refl _) h]

theorem isNormal_ofFields {fields : List (String × Json)} (h : ∀ field ∈ fields, field.2.IsNormal) :
    (ofFields fields).IsNormal := by
  refine isNormal_object Std.ExtTreeMap.ordered_keys_toList fun ⟨name, x⟩ hfield => ?_
  rw [Std.ExtTreeMap.mem_toList_iff_getElem?_eq_some] at hfield
  exact h (name, x) (mem_of_getElem?_ofList hfield)

mutual

theorem isNormal_normal : ∀ x : Json, x.normal.IsNormal
  | null | bool _ | number _ | string _ => rfl
  | array items => isNormal_array (isNormal_normalItems items)
  | object fields => isNormal_ofFields (isNormal_normalFields fields)

theorem isNormal_normalItems : ∀ items : List Json, ∀ x ∈ normalItems items, x.IsNormal
  | [] => by simp [normalItems]
  | x :: xs => List.forall_mem_cons.2 ⟨isNormal_normal x, isNormal_normalItems xs⟩

theorem isNormal_normalFields :
    ∀ fields : List (String × Json), ∀ field ∈ normalFields fields, field.2.IsNormal
  | [] => by simp [normalFields]
  | (_, x) :: rest => List.forall_mem_cons.2 ⟨isNormal_normal x, isNormal_normalFields rest⟩

end

theorem isNormal_of_mem {items : List Json} (h : (array items).IsNormal) : ∀ x ∈ items, x.IsNormal := by
  rw [IsNormal, normal_array] at h
  intro x hx
  rw [← array.inj h] at hx
  obtain ⟨y, -, rfl⟩ := List.mem_map.1 hx
  exact isNormal_normal y

theorem inOrder_of_isNormal {fields : List (String × Json)} (h : (object fields).IsNormal) :
    InOrder Text.byteOrder Prod.fst fields := by
  rw [IsNormal, normal_object, ofFields] at h
  rw [← object.inj h]
  exact Std.ExtTreeMap.ordered_keys_toList

theorem isNormal_of_mem_fields {fields : List (String × Json)} (h : (object fields).IsNormal) :
    ∀ field ∈ fields, field.2.IsNormal := by
  rw [IsNormal, normal_object, ofFields] at h
  rintro ⟨name, x⟩ hfield
  rw [← object.inj h, Std.ExtTreeMap.mem_toList_iff_getElem?_eq_some] at hfield
  obtain ⟨⟨_, y⟩, -, heq⟩ := List.mem_map.1 (mem_of_getElem?_ofList hfield)
  rw [← (Prod.mk.inj heq).2]
  exact isNormal_normal y

namespace Draft

mutual

theorem isNormal_of_value? : ∀ {d : Draft} {x : Json}, d.value? = some x → x.IsNormal
  | null, x, h | bool _, x, h | number _, x, h | string _, x, h => by
    obtain rfl := Option.some.inj h
    rfl
  | array items, x, h => by
    obtain ⟨xs, hxs, rfl⟩ := Option.map_eq_some_iff.1 h
    exact isNormal_array (isNormal_of_values? hxs)
  | object fields, x, h => by
    obtain ⟨xs, hxs, rfl⟩ := Option.map_eq_some_iff.1 h
    exact isNormal_ofFields (isNormal_of_fieldValues? hxs)
  | valueless _, x, h | fault, x, h => by simp [value?] at h

theorem isNormal_of_values? : ∀ {ds : List Draft} {xs : List Json},
    values? ds = some xs → ∀ x ∈ xs, x.IsNormal
  | [], xs, h => by
    obtain rfl := Option.some.inj h
    simp
  | d :: ds, xs, h => by
    rw [values?] at h
    simp only [Option.bind_eq_bind, Option.bind_eq_some_iff, Option.pure_def, Option.some.injEq] at h
    obtain ⟨x, hx, rest, hrest, rfl⟩ := h
    exact List.forall_mem_cons.2 ⟨isNormal_of_value? hx, isNormal_of_values? hrest⟩

theorem isNormal_of_fieldValues? : ∀ {ds : List (Option String × Draft)} {xs : List (String × Json)},
    fieldValues? ds = some xs → ∀ field ∈ xs, field.2.IsNormal
  | [], xs, h => by
    obtain rfl := Option.some.inj h
    simp
  | (some name, d) :: ds, xs, h => by
    rw [fieldValues?] at h
    simp only [Option.bind_eq_bind, Option.bind_eq_some_iff, Option.pure_def, Option.some.injEq] at h
    obtain ⟨x, hx, rest, hrest, rfl⟩ := h
    exact List.forall_mem_cons.2 ⟨isNormal_of_value? hx, isNormal_of_fieldValues? hrest⟩
  | (none, _) :: _, xs, h => by simp [fieldValues?] at h

end

end Draft

theorem isNormal_of_parse? {text : String} {x : Json} (h : parse? text = some x) : x.IsNormal := by
  unfold parse? at h
  split at h
  · exact Draft.isNormal_of_value? h
  · cases h

theorem normal_single (name : String) (x : Json) :
    (object [(name, x)]).normal = object [(name, x.normal)] := by
  rw [normal_object]
  exact ofFields_eq (.refl _) (List.pairwise_singleton _ _)

theorem normal_pair {first second : String} (hne : first ≠ second) (x y : Json) :
    (object [(first, x), (second, y)]).normal = object [(first, x.normal), (second, y.normal)] ∨
      (object [(first, x), (second, y)]).normal = object [(second, y.normal), (first, x.normal)] := by
  rw [normal_object]
  have hinOrder {a b : String × Json} (hlt : Text.byteOrder a.1 b.1 = .lt) :
      InOrder Text.byteOrder Prod.fst [a, b] := List.pairwise_pair.2 hlt
  cases horder : Text.byteOrder first second with
  | lt => exact .inl (ofFields_eq (.refl _) (hinOrder horder))
  | eq => exact absurd (Std.LawfulEqCmp.eq_of_compare horder) hne
  | gt => exact .inr (ofFields_eq (.swap ..) (hinOrder (Std.OrientedCmp.lt_of_gt horder)))

theorem normal_opContent (op content : Json) :
    (object [("op", op), ("content", content)]).normal =
      object [("content", content.normal), ("op", op.normal)] := by
  have hnames : InOrder Text.byteOrder id ["content", "op"] := by decide +kernel
  rw [normal_object]
  exact ofFields_eq (.swap ..) (.of_map hnames)

end FilterWorkspace.Json
