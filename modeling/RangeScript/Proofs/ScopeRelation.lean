import Mathlib.Data.List.Forall2
import RangeScript.Scope

/-!
# Related scopes

* `Scope.Related R s t` : both scopes bind the same names in the same order, and what stands for a name
  in `s` is in the relation `R` to what stands for it in `t`. Looking a name up gives related answers
  (`Related.get?`), and applying one lambda in related scopes leads into related scopes
  (`Related.enter`);
* `Scope.Keeps s t` : whatever is bound in `s` is bound to the same in `t`.
-/

namespace RangeScript.Scope

variable {α β : Type}

/-- The same names in the same order, and what stands for them related. -/
inductive Related (R : α → β → Prop) : Scope α → Scope β → Prop
  | nil : Related R [] []
  | cons {name : String} {a : α} {b : β} {s : Scope α} {t : Scope β} :
    R a b → Related R s t → Related R ((name, a) :: s) ((name, b) :: t)

namespace Related

variable {R : α → β → Prop} {s s' : Scope α} {t t' : Scope β}

theorem get? (h : Related R s t) (name : String) : Option.Rel R (s.get? name) (t.get? name) := by
  induction h with
  | nil => exact .none
  | @cons bound a b s t hab _ ih =>
    unfold Scope.get?
    by_cases hname : name = bound
    · rw [if_pos hname, if_pos hname]
      exact .some hab
    · rw [if_neg hname, if_neg hname]
      exact ih

theorem contains_eq (h : Related R s t) (name : String) : s.contains name = t.contains name := by
  have hget := h.get? name
  unfold contains
  generalize s.get? name = x at hget ⊢
  generalize t.get? name = y at hget ⊢
  cases hget with
  | some _ => rfl
  | none => rfl

theorem names_eq (h : Related R s t) : s.names = t.names := by
  have hkeys : s.map (·.1) = t.map (·.1) := by
    induction h with
    | nil => rfl
    | cons _ _ ih => exact congrArg (_ :: ·) ih
  unfold names
  rw [hkeys]

/-- What a name stands for in the first scope, from what it stands for in the second. -/
theorem lookup (h : Related R s t) {name : String} {b : β} (hb : t.get? name = some b) :
    ∃ a, s.get? name = some a ∧ R a b := by
  have hget := h.get? name
  rw [hb] at hget
  generalize s.get? name = x at hget ⊢
  cases hget with
  | some hab => exact ⟨_, rfl, hab⟩

theorem append (h : Related R s t) (h' : Related R s' t') : Related R (s ++ s') (t ++ t') := by
  induction h with
  | nil => exact h'
  | cons hab _ ih => exact .cons hab ih

theorem reverse (h : Related R s t) : Related R s.reverse t.reverse := by
  induction h with
  | nil => exact .nil
  | cons hab _ ih =>
    rw [List.reverse_cons, List.reverse_cons]
    exact ih.append (.cons hab .nil)

/-- Names paired with related things, as far as all go. -/
theorem zip {as : List α} {bs : List β} (h : List.Forall₂ R as bs) (names : List String) :
    Related R (names.zip as) (names.zip bs) := by
  induction h generalizing names with
  | nil =>
    rw [List.zip_nil_right, List.zip_nil_right]
    exact .nil
  | cons hab _ ih =>
    cases names with
    | nil => exact .nil
    | cons name names => exact .cons hab (ih names)

/-- One lambda of two related scopes, applied to related arguments. -/
theorem enter (h : Related R s t) {as : List α} {bs : List β} (hargs : List.Forall₂ R as bs)
    (params : List String) (body : Expr) :
    Related R (Closure.enter ⟨params, body, s⟩ as) (Closure.enter ⟨params, body, t⟩ bs) :=
  (zip hargs params).reverse.append h

end Related

/-- Whatever is bound stays bound to the same. -/
def Keeps (s t : Scope α) : Prop := ∀ name a, s.get? name = some a → t.get? name = some a

namespace Keeps

variable {s t u : Scope α}

theorem refl (s : Scope α) : Keeps s s := fun _ _ h => h

theorem trans (h : Keeps s t) (h' : Keeps t u) : Keeps s u :=
  fun name a ha => h' name a (h name a ha)

/-- A new binding hides none, if its name is new. -/
theorem insert {name : String} (hnew : s.contains name = false) (a : α) :
    Keeps s (s.insert name a) := by
  intro other b hb
  have hne : other ≠ name := by
    rintro rfl
    unfold contains at hnew
    rw [hb] at hnew
    cases hnew
  rw [get?_insert_of_ne s a hne]
  exact hb

end Keeps

end RangeScript.Scope
