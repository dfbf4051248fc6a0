import RangeScript.Expr.Basic

/-!
# Scopes and closures

A scope binds names. Of several bindings of a name the one in front counts, so the parameters of a
lambda are put in front of the scope that the lambda was written in. A closure is a lambda together
with that scope; the same notions serve for types and for values.
-/

namespace RangeScript

/-- Bindings of names, the innermost first. -/
abbrev Scope (α : Type) := List (String × α)

namespace Scope

variable {α : Type}

/-- What the name is bound to. -/
def get? : Scope α → String → Option α
  | [], _ => none
  | (bound, a) :: rest, name => if name = bound then some a else get? rest name

def contains (s : Scope α) (name : String) : Bool := (s.get? name).isSome

/-- The scope with one more binding, which hides an earlier one of the same name. -/
def insert (s : Scope α) (name : String) (a : α) : Scope α := (name, a) :: s

/-- The names that are bound, each once, in the order of their characters. -/
def names (s : Scope α) : List String :=
  (s.map (·.1)).eraseDups.mergeSort fun a b => decide (a ≤ b)

@[simp] theorem get?_insert_self (s : Scope α) (name : String) (a : α) :
    (s.insert name a).get? name = some a := by
  simp [get?, insert]

theorem get?_insert_of_ne (s : Scope α) {name other : String} (a : α) (h : other ≠ name) :
    (s.insert name a).get? other = s.get? other := by
  simp [get?, insert, h]

theorem get?_append (s t : Scope α) (name : String) :
    Scope.get? (s ++ t) name = (s.get? name).or (t.get? name) := by
  induction s with
  | nil => rfl
  | cons b rest ih =>
    obtain ⟨bound, a⟩ := b
    by_cases h : name = bound
    · simp [get?, h]
    · simpa [get?, h] using ih

end Scope

/-- A lambda and the scope it was written in. -/
structure Closure (α : Type) where
  params : List String
  body : Expr
  scope : List (String × α)

namespace Closure

variable {α : Type}

/-- The number of parameters. -/
def arity (c : Closure α) : Nat := c.params.length

/-- The scope of the body when the closure is applied to `args`. Parameters and arguments are
paired as far as both go, and of a repeated parameter the last one counts. -/
def enter (c : Closure α) (args : List α) : Scope α := (c.params.zip args).reverse ++ c.scope

end Closure

end RangeScript
