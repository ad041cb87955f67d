import FilterWorkspace.Equality
import FilterWorkspace.Json.Contents
import Mathlib.Data.List.Forall2

/-! What counts as equal is alike part by part, and only zeros may be written differently in it. -/

namespace FilterWorkspace

namespace Json

namespace Number

def IsZero (n : Number) : Prop := ∃ negative, n = float negative .zero

theorem plain_of_not_isZero {n : Number} (h : ¬ n.IsZero) : n.plain = n := by
  cases n with
  | integer value => rfl
  | float negative x =>
    have hx : x ≠ .zero := by
      rintro rfl
      exact h ⟨negative, rfl⟩
    simp [plain, hx]

theorem plain_eq_iff {a b : Number} : a.plain = b.plain ↔ a = b ∨ a.IsZero ∧ b.IsZero := by
  constructor
  · intro h
    by_cases ha : a.IsZero <;> by_cases hb : b.IsZero
    · exact .inr ⟨ha, hb⟩
    · obtain ⟨negative, rfl⟩ := ha
      rw [plain_of_not_isZero hb] at h
      exact absurd ⟨_, h.symm⟩ hb
    · obtain ⟨negative, rfl⟩ := hb
      rw [plain_of_not_isZero ha] at h
      exact absurd ⟨_, h⟩ ha
    · rw [plain_of_not_isZero ha, plain_of_not_isZero hb] at h
      exact .inl h
  · rintro (rfl | ⟨⟨_, rfl⟩, ⟨_, rfl⟩⟩)
    · rfl
    · simp [plain]

end Number

variable {x y : Json}

theorem same_iff : x.same y ↔ x.plain = y.plain := decide_eq_true_iff

theorem same_number {a b : Number} : (number a).same (number b) ↔ a = b ∨ a.IsZero ∧ b.IsZero := by
  rw [same_iff, ← Number.plain_eq_iff]
  exact ⟨number.inj, congrArg number⟩

theorem same_array {xs ys : List Json} : (array xs).same (array ys) ↔ List.Forall₂ (fun x y => x.same y) xs ys := by
  have hitems : plainItems xs = plainItems ys ↔ List.Forall₂ (fun x y => x.same y) xs ys := by
    induction xs generalizing ys with
    | nil => cases ys <;> simp [plainItems]
    | cons x xs ih => cases ys <;> simp [plainItems, ih, same_iff]
  rw [same_iff, ← hitems]
  exact ⟨array.inj, congrArg array⟩

theorem same_object {fs gs : List (String × Json)} :
    (object fs).same (object gs) ↔ List.Forall₂ (fun f g => f.1 = g.1 ∧ f.2.same g.2) fs gs := by
  have hfields : plainFields fs = plainFields gs ↔ List.Forall₂ (fun f g => f.1 = g.1 ∧ f.2.same g.2) fs gs := by
    induction fs generalizing gs with
    | nil =>
      cases gs <;> simp [plainFields]
    | cons f fs ih =>
      cases gs <;> simp [plainFields, ih, same_iff]
  rw [same_iff, ← hfields]
  exact ⟨object.inj, congrArg object⟩

mutual

theorem plain_of_no_zero : ∀ {x : Json}, (∀ n ∈ x.numbers, ¬ n.IsZero) → x.plain = x
  | null, _ | bool _, _ | string _, _ => rfl
  | number n, h => congrArg number (Number.plain_of_not_isZero (h n List.mem_cons_self))
  | array _, h => congrArg array (plainItems_of_no_zero h)
  | object _, h => congrArg object (plainFields_of_no_zero h)

theorem plainItems_of_no_zero : ∀ {items : List Json}, (∀ n ∈ itemsNumbers items, ¬ n.IsZero) →
    plainItems items = items
  | [], _ => rfl
  | x :: xs, h => by
    rw [itemsNumbers, List.forall_mem_append] at h
    rw [plainItems, plain_of_no_zero h.1, plainItems_of_no_zero h.2]

theorem plainFields_of_no_zero : ∀ {fields : List (String × Json)}, (∀ n ∈ fieldsNumbers fields, ¬ n.IsZero) →
    plainFields fields = fields
  | [], _ => rfl
  | (name, x) :: rest, h => by
    rw [fieldsNumbers, List.forall_mem_append] at h
    rw [plainFields, plain_of_no_zero h.1, plainFields_of_no_zero h.2]

end

theorem same_iff_eq (hx : ∀ n ∈ x.numbers, ¬ n.IsZero) (hy : ∀ n ∈ y.numbers, ¬ n.IsZero) :
    x.same y ↔ x = y := by
  rw [same_iff, plain_of_no_zero hx, plain_of_no_zero hy]

end Json

namespace FieldFilter

theorem fit_plain (op : FieldOperator) (field : String) (value : Json) :
    fit op field value.plain = (fit op field value).map Json.plain := by
  unfold fit
  cases op.takesList <;> cases value <;> rfl

theorem build_plain (op : FieldOperator) (field : String) (value : Json) :
    build op field value.plain = (build op field value).map plain := by
  unfold build
  rw [fit_plain]
  cases Text.isBlank field <;> cases fit op field value <;> rfl

end FieldFilter

variable {L : Type} [DecidableEq L] {plain : L → L}

theorem Tree.same_compound {op op' : Combinator} {ss ts : List (Tree L)} :
    (compound op ss).same plain (compound op' ts) ↔ op = op' ∧ List.Forall₂ (fun s t => s.same plain t) ss ts := by
  have hcontent : mapAll plain ss = mapAll plain ts ↔ List.Forall₂ (fun s t => s.same plain t) ss ts := by
    induction ss generalizing ts with
    | nil => cases ts <;> simp [mapAll]
    | cons s ss ih => cases ts <;> simp [mapAll, ih, same]
  rw [same, decide_eq_true_iff, map, map, compound.injEq, hcontent]

end FilterWorkspace
