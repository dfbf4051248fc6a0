import RangeScript.Proofs.LambdaDepth
import RangeScript.Proofs.Monotonicity

/-!
# Recursion through applications

Typing and evaluation recurse in the same way: on the expression, and through applications of lambdas up to a
bound.

* `recurseAt step depth` : the recursion that typing and evaluation have in common;
* `guarded test body` : enters the body of a lambda only where all that is bound passes the test.

If the step obeys the rules where applied bodies with fewer lambdas do, the recursion obeys them, and it is given
up only if the bound is less than the number of lambdas inside each other (`obeys_recurseAt`).
-/

namespace RangeScript

open Outcome

/-! ## Scopes and closures -/

namespace Scope

variable {α : Type} {P : α → Prop} {s : Scope α}

/-- Whatever is bound has the property. -/
def All (P : α → Prop) (s : Scope α) : Prop := ∀ binding ∈ s, P binding.2

theorem All.get? (h : All P s) {name : String} {a : α} (ha : s.get? name = some a) : P a :=
  h (name, a) (mem_of_get? ha)

theorem All.insert (h : All P s) (name : String) {a : α} (ha : P a) : All P (s.insert name a) :=
  List.forall_mem_cons.2 ⟨ha, h⟩

end Scope

namespace Closure

variable {α : Type} {P : α → Prop} {scope : Scope α} {d : Nat} {c : Closure α}

/-- The closure of a lambda that can be written in the scope, with less than `d` lambdas inside each other
in its body. -/
structure WrittenIn (scope : Scope α) (d : Nat) (c : Closure α) : Prop where
  scope_eq : c.scope = scope
  surface : c.body.Surface
  lambdaDepth_lt : c.body.lambdaDepth < d

theorem WrittenIn.enter (hc : c.WrittenIn scope d) (hscope : scope.All P) {args : List α}
    (hargs : ∀ a ∈ args, P a) : Scope.All P (c.enter args) := by
  intro binding hbinding
  rcases List.mem_append.1 hbinding with hparam | hrest
  · exact hargs binding.2 (List.of_mem_zip (List.mem_reverse.1 hparam)).2
  · rw [hc.scope_eq] at hrest
    exact hscope binding hrest

end Closure

/-! ## Recursion through applications -/

section Recursion
variable {ε α : Type}

/-- The recursion of which `step` says how an expression is treated if applied bodies are treated as told,
with at most `depth` applications active at once. -/
def recurseAt (step : (Scope α → Expr → Outcome ε α) → Scope α → Expr → Outcome ε α) :
    Nat → Scope α → Expr → Outcome ε α
  | 0 => step fun _ _ => .unfinished
  | depth + 1 => step (recurseAt step depth)

/-- Enters a body only where all names are bound to what passes the test, and gives up elsewhere. -/
def guarded (test : α → Bool) (body : Scope α → Expr → Outcome ε α) (scope : Scope α) (e : Expr) :
    Outcome ε α :=
  if scope.all (test ·.2) then body scope e else .unfinished

/-- What can be written with less than `d` lambdas inside each other obeys the rules, in scopes with `P`. -/
def ObeysBelow (P : α → Prop) (E : ε → Prop) (U : Prop) (d : Nat)
    (body : Scope α → Expr → Outcome ε α) : Prop :=
  ∀ scope e, scope.All P → e.Surface → e.lambdaDepth < d → (body scope e).Obeys P E U

variable {P : α → Prop} {E : ε → Prop} {U : Prop} {d : Nat}
  {body body' : Scope α → Expr → Outcome ε α}
  {step step' : (Scope α → Expr → Outcome ε α) → Scope α → Expr → Outcome ε α}

/-- The application of a lambda to data leads to something smaller in a scope of data. -/
theorem ObeysBelow.apply (h : ObeysBelow P E U d body) {scope : Scope α} {c : Closure α}
    (hc : c.WrittenIn scope d) (hscope : scope.All P) {args : List α} (hargs : ∀ a ∈ args, P a) :
    (body (c.enter args) c.body).Obeys P E U :=
  h _ _ (hc.enter hscope hargs) hc.surface hc.lambdaDepth_lt

/-- The guard lets pass what has the property. -/
theorem ObeysBelow.guarded (h : ObeysBelow P E U d body) {test : α → Bool}
    (htest : ∀ a, P a → test a = true) : ObeysBelow P E U d (guarded test body) := by
  intro scope e hscope he hd
  have hpass : scope.all (test ·.2) = true :=
    List.all_eq_true.2 fun binding hbinding => htest _ (hscope binding hbinding)
  rw [RangeScript.guarded, if_pos hpass]
  exact h scope e hscope he hd

theorem guarded_upTo (test : α → Bool) (h : ∀ scope e, (body scope e).UpTo (body' scope e))
    (scope : Scope α) (e : Expr) : (guarded test body scope e).UpTo (body' scope e) := by
  unfold guarded
  split
  · exact h scope e
  · exact .unfinished _

/-- One level of applications takes one level of lambdas, by induction on the bound. -/
theorem obeys_recurseAt
    (hstep : ∀ {body U d}, ObeysBelow P E U d body → ∀ scope e, scope.All P → e.Surface →
      e.lambdaDepth ≤ d → (step body scope e).Obeys P E U)
    {scope : Scope α} (hscope : scope.All P) {e : Expr} (he : e.Surface) (n : Nat) :
    (recurseAt step n scope e).Obeys P E (n < e.lambdaDepth) := by
  induction n generalizing scope e with
  | zero =>
    refine hstep ?_ scope e hscope he (Nat.le_refl _)
    intro _ _ _ _ hd
    exact Nat.zero_lt_of_lt hd
  | succ n ih =>
    refine hstep ?_ scope e hscope he (Nat.le_refl _)
    intro _ _ hinside hbody hd
    exact (ih hinside hbody).mono fun hn => Nat.lt_of_le_of_lt hn hd

/-- A larger bound changes nothing that has ended. -/
theorem recurseAt_upTo
    (hstep : ∀ {body body'}, (∀ scope e, (body scope e).UpTo (body' scope e)) →
      ∀ scope e, (step body scope e).UpTo (step' body' scope e))
    {n m : Nat} (h : n ≤ m) (scope : Scope α) (e : Expr) :
    (recurseAt step n scope e).UpTo (recurseAt step' m scope e) := by
  induction n generalizing m scope e with
  | zero =>
    cases m with
    | zero => exact hstep (fun _ _ => .unfinished _) scope e
    | succ m => exact hstep (fun _ _ => .unfinished _) scope e
  | succ n ih =>
    cases m with
    | zero => cases h
    | succ m => exact hstep (ih (Nat.le_of_succ_le_succ h)) scope e

theorem exists_recurseAt_eq (step : (Scope α → Expr → Outcome ε α) → Scope α → Expr → Outcome ε α) (n : Nat) :
    ∃ body, recurseAt step n = step body := by
  cases n with
  | zero => exact ⟨_, rfl⟩
  | succ n => exact ⟨_, rfl⟩

theorem Language.evalAt_eq_recurseAt (lang : Language) (n : Nat) :
    lang.evalAt n = recurseAt lang.evalWith n := by
  induction n with
  | zero => rfl
  | succ n ih => rw [evalAt, ih, recurseAt]

theorem Language.inferAt_eq_recurseAt (lang : Language) (n : Nat) :
    lang.inferAt n = recurseAt lang.inferWith n := by
  induction n with
  | zero => rfl
  | succ n ih => rw [inferAt, ih, recurseAt]

/-- Whatever the bound is, an expression is evaluated with some evaluation of applied bodies. -/
theorem Language.exists_eval_eq (lang : Language) : ∃ body, lang.eval = lang.evalWith body := by
  obtain ⟨body, hbody⟩ := exists_recurseAt_eq lang.evalWith lang.callDepth
  exact ⟨body, (lang.evalAt_eq_recurseAt lang.callDepth).trans hbody⟩

theorem Language.exists_infer_eq (lang : Language) : ∃ body, lang.infer = lang.inferWith body := by
  obtain ⟨body, hbody⟩ := exists_recurseAt_eq lang.inferWith lang.callDepth
  exact ⟨body, (lang.inferAt_eq_recurseAt lang.callDepth).trans hbody⟩

theorem Language.eval_int (lang : Language) (values : Scope Value) (literal : Lexeme) :
    lang.eval values (.int literal) =
      (Outcome.ofExcept (intLiteral literal)).mapError .typing >>= fun n => .done (.int n) := by
  obtain ⟨body, heval⟩ := lang.exists_eval_eq
  rw [heval, evalWith]
  rfl

theorem Language.infer_int (lang : Language) (types : Scope Ty) (literal : Lexeme) :
    lang.infer types (.int literal) = Outcome.ofExcept (intLiteral literal) >>= fun _ => .done .int := by
  obtain ⟨body, hinfer⟩ := lang.exists_infer_eq
  rw [hinfer, inferWith]
  rfl

end Recursion

end RangeScript
