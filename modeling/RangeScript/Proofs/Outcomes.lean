import RangeScript.Error
import RangeScript.Outcome

/-!
# Ends of computations

* `Outcome.Obeys P E U x` : a value of `x` has `P`, an error of it has `E`, and it is given up only if `U`;
* `RunError.isLimit` : errors because of the limits of numbers and ranges;
* `Outcome.Sound P x` : `x` ends with a value that has `P`, or at a limit; there is no other way.
-/

namespace RangeScript

namespace Outcome

variable {ε ε' α β : Type}

theorem ofExcept_eq_done {x : Except ε α} {a : α} : ofExcept x = .done a ↔ x = .ok a := by
  cases x <;> simp [ofExcept]

theorem ofOption_eq_done {e : ε} {x : Option α} {a : α} : ofOption e x = .done a ↔ x = some a := by
  cases x <;> simp [ofOption]

theorem mapError_eq_done {f : ε → ε'} {x : Outcome ε α} {a : α} :
    x.mapError f = .done a ↔ x = .done a := by
  cases x <;> simp [mapError]

/-- A value has `P`, an error has `E`, and giving up takes `U`. -/
def Obeys (P : α → Prop) (E : ε → Prop) (U : Prop) : Outcome ε α → Prop
  | done a => P a
  | failed e => E e
  | unfinished => U

namespace Obeys

variable {P : α → Prop} {Q : β → Prop} {E : ε → Prop} {U : Prop} {x : Outcome ε α}

theorem mono {V : Prop} (h : Obeys P E U x) (hUV : U → V) : Obeys P E V x := by
  rcases x with a | e | _
  · exact h
  · exact h
  · exact hUV h

theorem imp {Q : α → Prop} (h : Obeys P E U x) (hPQ : ∀ a, P a → Q a) : Obeys Q E U x := by
  rcases x with a | e | _
  · exact hPQ a h
  · exact h
  · exact h

theorem bind {f : α → Outcome ε β} (h : Obeys P E U x) (hf : ∀ a, P a → Obeys Q E U (f a)) :
    Obeys Q E U (x >>= f) := by
  rcases x with a | e | _
  · exact hf a h
  · exact h
  · exact h

theorem mapError {E' : ε' → Prop} {f : ε → ε'} (h : Obeys P E U x) (hf : ∀ e, E e → E' (f e)) :
    Obeys P E' U (x.mapError f) := by
  rcases x with a | e | _
  · exact h
  · exact hf e h
  · exact h

theorem ofExcept {x : Except ε α} (hok : ∀ a, x = .ok a → P a) (herror : ∀ e, x = .error e → E e) :
    Obeys P E U (ofExcept x) := by
  rcases x with e | a
  · exact herror e rfl
  · exact hok a rfl

theorem ofOption {x : Option α} {e : ε} (hsome : ∀ a, x = some a → P a) (he : E e) :
    Obeys P E U (ofOption e x) := by
  rcases x with _ | a
  · exact he
  · exact hsome a rfl

theorem mapM {f : α → Outcome ε β} {as : List α} (has : ∀ a ∈ as, P a)
    (hf : ∀ a, P a → Obeys Q E U (f a)) : Obeys (fun bs => ∀ b ∈ bs, Q b) E U (as.mapM f) := by
  induction as with
  | nil =>
    intro b hb
    cases hb
  | cons a as ih =>
    obtain ⟨ha, has⟩ := List.forall_mem_cons.1 has
    rw [List.mapM_cons]
    refine (hf a ha).bind fun b hb => (ih has).bind fun bs hbs => ?_
    exact List.forall_mem_cons.2 ⟨hb, hbs⟩

theorem foldlM {f : β → α → Outcome ε β} {as : List α} {b : β} (has : ∀ a ∈ as, P a) (hb : Q b)
    (hf : ∀ b a, Q b → P a → Obeys Q E U (f b a)) : Obeys Q E U (as.foldlM f b) := by
  induction as generalizing b with
  | nil => exact hb
  | cons a as ih =>
    obtain ⟨ha, has⟩ := List.forall_mem_cons.1 has
    rw [List.foldlM_cons]
    exact (hf b a hb ha).bind fun b hb => ih has hb

theorem ne_unfinished (h : Obeys P E U x) (hU : ¬ U) : x ≠ .unfinished := by
  rintro rfl
  exact hU h

end Obeys

end Outcome

/-! ## Limits -/

/-- Errors of numbers and ranges that are too large, in operators and inside any functions. -/
def RunError.isLimit : RunError → Bool
  | .rangeTooLarge _ _ => true
  | .atOperator _ .divisionByZero => true
  | .atOperator _ (.overflow _) => true
  | .inFunction _ cause => cause.isLimit
  | _ => false

namespace Outcome

variable {α : Type} {P : α → Prop} {x : Outcome RunError α}

/-- Ends with a value that has the property, or at a limit. -/
abbrev Sound (P : α → Prop) (x : Outcome RunError α) : Prop := x.Obeys P (·.isLimit = true) False

/-- A limit is one inside of a function too. -/
theorem Sound.inFunction (hx : Sound P x) (name : Lexeme) :
    Sound P (x.mapError (.inFunction name)) := hx.mapError fun _ h => h

end Outcome

end RangeScript
