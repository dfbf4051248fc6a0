/-!
# Outcomes

A computation that may call lambdas ends with a value, ends with an error, or is given up because
too many calls are active at once. The three are kept apart: giving up is no error that a program
could have.
-/

namespace RangeScript

/-- How a computation ends. -/
inductive Outcome (ε α : Type)
  | done (a : α)
  | failed (e : ε)
  | unfinished

namespace Outcome

variable {ε ε' α β : Type}

@[inline] protected def bind (x : Outcome ε α) (f : α → Outcome ε β) : Outcome ε β :=
  match x with
  | done a => f a
  | failed e => failed e
  | unfinished => unfinished

instance : Monad (Outcome ε) where
  pure := done
  bind := Outcome.bind

@[simp] theorem done_bind (a : α) (f : α → Outcome ε β) : (done a >>= f) = f a := rfl

@[simp] theorem failed_bind (e : ε) (f : α → Outcome ε β) :
    ((failed e : Outcome ε α) >>= f) = failed e := rfl

@[simp] theorem unfinished_bind (f : α → Outcome ε β) :
    ((unfinished : Outcome ε α) >>= f) = unfinished := rfl

@[simp] theorem pure_eq_done (a : α) : (pure a : Outcome ε α) = done a := rfl

instance : LawfulMonad (Outcome ε) := LawfulMonad.mk' _
  (fun x => by cases x <;> rfl)
  (fun _ _ => rfl)
  (fun x _ _ => by cases x <;> rfl)

/-- A computation ended with a value if both of its steps did. -/
theorem bind_eq_done {x : Outcome ε α} {f : α → Outcome ε β} {b : β} :
    (x >>= f) = done b ↔ ∃ a, x = done a ∧ f a = done b := by
  cases x <;> simp

/-- The outcome with every error put into a context. -/
def mapError (f : ε → ε') : Outcome ε α → Outcome ε' α
  | done a => done a
  | failed e => failed (f e)
  | unfinished => unfinished

/-- The outcome of a computation that calls no lambdas. -/
def ofExcept : Except ε α → Outcome ε α
  | .ok a => done a
  | .error e => failed e

/-- What is there, or else an error. -/
def ofOption (e : ε) : Option α → Outcome ε α
  | some a => done a
  | none => failed e

end Outcome

end RangeScript
