import RangeScript.Evaluation

/-!
# Outcomes up to giving up

`Outcome.UpTo x y` : `x` was given up, or `x` and `y` are the same outcome. Typing and evaluation are monotone
in this order in what they do with the bodies of applied lambdas (`Language.inferWith_upTo`,
`Language.evalWith_upTo`), so what has ended stays the same when fewer applications are given up.
-/

namespace RangeScript

namespace Outcome

variable {ε ε' α β : Type}

/-- The first was given up, or both are the same. -/
def UpTo (x y : Outcome ε α) : Prop := x = .unfinished ∨ x = y

namespace UpTo

theorem refl (x : Outcome ε α) : UpTo x x := .inr rfl

theorem unfinished (x : Outcome ε α) : UpTo .unfinished x := .inl rfl

theorem eq {x y : Outcome ε α} (h : UpTo x y) (hx : x ≠ .unfinished) : y = x :=
  (h.resolve_left hx).symm

theorem bind {x y : Outcome ε α} {f g : α → Outcome ε β} (h : UpTo x y)
    (hfg : ∀ a, UpTo (f a) (g a)) : UpTo (x >>= f) (y >>= g) := by
  rcases h with rfl | rfl
  · exact unfinished _
  · rcases x with a | e | _
    · exact hfg a
    · exact refl _
    · exact refl _

theorem mapError {x y : Outcome ε α} (h : UpTo x y) (f : ε → ε') :
    UpTo (x.mapError f) (y.mapError f) := by
  rcases h with rfl | rfl
  · exact unfinished _
  · exact refl _

theorem mapM {f g : α → Outcome ε β} (hfg : ∀ a, UpTo (f a) (g a)) (as : List α) :
    UpTo (as.mapM f) (as.mapM g) := by
  induction as with
  | nil => exact refl _
  | cons a as ih =>
    rw [List.mapM_cons, List.mapM_cons]
    exact (hfg a).bind fun b => ih.bind fun bs => refl _

theorem foldlM {f g : β → α → Outcome ε β} (hfg : ∀ b a, UpTo (f b a) (g b a)) (as : List α)
    (b : β) : UpTo (as.foldlM f b) (as.foldlM g b) := by
  induction as generalizing b with
  | nil => exact refl _
  | cons a as ih =>
    rw [List.foldlM_cons, List.foldlM_cons]
    exact (hfg b a).bind ih

end UpTo

end Outcome

open Outcome

/-! ## Typing -/

section Typing
variable {body body' : Scope Ty → Expr → Outcome TypeError Ty}

theorem Builtin.applyTy_upTo (hbody : ∀ scope e, (body scope e).UpTo (body' scope e))
    (f : Ty) (args : List Ty) :
    (applyTy body f args).UpTo (applyTy body' f args) := by
  cases f with
  | lambda c => exact hbody _ _
  | _ => exact .refl _

theorem Builtin.resultTy_upTo (hbody : ∀ scope e, (body scope e).UpTo (body' scope e))
    (f : Builtin) (tys : List Ty) :
    (f.resultTy body tys).UpTo (f.resultTy body' tys) := by
  unfold resultTy
  split
  · refine (UpTo.refl _).bind fun elem => (UpTo.refl _).bind fun _ => ?_
    exact (applyTy_upTo hbody _ _).bind fun result => .refl _
  · refine (UpTo.refl _).bind fun elem => (UpTo.refl _).bind fun _ => (UpTo.refl _).bind fun _ => ?_
    exact (applyTy_upTo hbody _ _).bind fun result => .refl _
  · exact .refl _

variable {lang : Language} {scope : Scope Ty}

mutual

theorem Language.inferWith_upTo (hbody : ∀ scope e, (body scope e).UpTo (body' scope e)) :
    (e : Expr) → (lang.inferWith body scope e).UpTo (lang.inferWith body' scope e)
  | .int _ | .real _ | .var _ | .lambda _ _ => by
    rw [inferWith, inferWith]
    exact .refl _
  | .range left right => by
    rw [inferWith, inferWith]
    refine (inferWith_upTo hbody left).bind fun tl => (UpTo.refl _).bind fun _ => ?_
    exact (inferWith_upTo hbody right).bind fun tr => .refl _
  | .binary left op right => by
    rw [inferWith, inferWith]
    exact (inferWith_upTo hbody left).bind fun tl => (inferWith_upTo hbody right).bind fun tr => .refl _
  | .call function args => by
    rw [inferWith, inferWith]
    refine (UpTo.refl _).bind fun f => (inferAllWith_upTo hbody args).bind fun tys => ?_
    exact (Builtin.resultTy_upTo hbody f tys).mapError _

theorem Language.inferAllWith_upTo (hbody : ∀ scope e, (body scope e).UpTo (body' scope e)) :
    (es : List Expr) → (lang.inferAllWith body scope es).UpTo (lang.inferAllWith body' scope es)
  | [] => by
    rw [inferAllWith, inferAllWith]
    exact .refl _
  | e :: es => by
    rw [inferAllWith, inferAllWith]
    exact (inferWith_upTo hbody e).bind fun t => (inferAllWith_upTo hbody es).bind fun ts => .refl _

end

end Typing

/-! ## Evaluation -/

section Evaluation
variable {body body' : Scope Value → Expr → Outcome RunError Value}

theorem Builtin.call_upTo (hbody : ∀ scope e, (body scope e).UpTo (body' scope e))
    (f : Builtin) (args : List Value) :
    (f.call body args).UpTo (f.call body' args) := by
  unfold call
  split
  · refine (UpTo.refl _).bind fun elements => (UpTo.refl _).bind fun c => ?_
    exact (UpTo.mapM (fun v => hbody _ _) elements).bind fun results => .refl _
  · refine (UpTo.refl _).bind fun elements => (UpTo.refl _).bind fun _ => ?_
    exact (UpTo.refl _).bind fun c => UpTo.foldlM (fun acc v => hbody _ _) elements _
  · exact .refl _

variable {lang : Language} {scope : Scope Value}

mutual

theorem Language.evalWith_upTo (hbody : ∀ scope e, (body scope e).UpTo (body' scope e)) :
    (e : Expr) → (lang.evalWith body scope e).UpTo (lang.evalWith body' scope e)
  | .int _ | .real _ | .var _ | .lambda _ _ => by
    rw [evalWith, evalWith]
    exact .refl _
  | .range left right => by
    rw [evalWith, evalWith]
    refine (evalWith_upTo hbody left).bind fun l => (UpTo.refl _).bind fun lo => ?_
    exact (evalWith_upTo hbody right).bind fun r => .refl _
  | .binary left op right => by
    rw [evalWith, evalWith]
    exact (evalWith_upTo hbody left).bind fun l => (evalWith_upTo hbody right).bind fun r => .refl _
  | .call function args => by
    rw [evalWith, evalWith]
    refine (UpTo.refl _).bind fun f => (evalAllWith_upTo hbody args).bind fun vs => ?_
    exact (Builtin.call_upTo hbody f vs).mapError _

theorem Language.evalAllWith_upTo (hbody : ∀ scope e, (body scope e).UpTo (body' scope e)) :
    (es : List Expr) → (lang.evalAllWith body scope es).UpTo (lang.evalAllWith body' scope es)
  | [] => by
    rw [evalAllWith, evalAllWith]
    exact .refl _
  | e :: es => by
    rw [evalAllWith, evalAllWith]
    exact (evalWith_upTo hbody e).bind fun v => (evalAllWith_upTo hbody es).bind fun vs => .refl _

end

end Evaluation

end RangeScript
