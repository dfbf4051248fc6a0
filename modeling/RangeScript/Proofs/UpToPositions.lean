import RangeScript.Proofs.MovedTokens
import RangeScript.Proofs.ScopeRelation
import RangeScript.Session

/-!
# Types, values and outcomes up to positions

* `Error.forget` : the error without the positions that it names;
* `Ty.Alike`, `Value.Alike` : the same numbers and sequences, and lambdas with the same parameters, the
  same body up to positions and alike scopes;
* `Outcome.Alike R erase x y` : both end with values in the relation `R`, or both fail with errors that
  `erase` makes equal, or neither ends.

Whatever asks a type for its shape (`Ty.Alike.shape_eq`) or a value for its text (`Value.Alike.render_eq`)
gets the same answer from types and values that are alike.
-/

namespace RangeScript

/-! ## Errors -/

def TypeError.forget : TypeError → TypeError
  | undeclared name => .undeclared (name.relocate Position.forget)
  | redeclared name => .redeclared (name.relocate Position.forget)
  | unknownOperator op => .unknownOperator (op.relocate Position.forget)
  | atOperator op cause => .atOperator (op.relocate Position.forget) cause.forget
  | unknownFunction name => .unknownFunction (name.relocate Position.forget)
  | duplicateParam name => .duplicateParam (name.relocate Position.forget)
  | invalidLiteral sort literal => .invalidLiteral sort (literal.relocate Position.forget)
  | rangeBound pos found => .rangeBound pos.forget found
  | notPrintable pos found => .notPrintable pos.forget found
  | inFunction name cause => .inFunction (name.relocate Position.forget) cause.forget
  | e => e

def RunError.forget : RunError → RunError
  | typing cause => .typing cause.forget
  | unbound name => .unbound (name.relocate Position.forget)
  | redeclared name => .redeclared (name.relocate Position.forget)
  | rangeBound pos found => .rangeBound pos.forget found
  | rangeTooLarge pos length => .rangeTooLarge pos.forget length
  | atOperator op cause => .atOperator (op.relocate Position.forget) cause.forget
  | inFunction name cause => .inFunction (name.relocate Position.forget) cause.forget
  | e => e

/-- The error with all positions that it names sent to one. -/
def Error.forget : Error → Error
  | scan cause => .scan { cause with pos := cause.pos.forget }
  | parse cause => .parse (cause.relocate Position.forget)
  | run cause => .run cause.forget

/-! ## Types and values -/

/-- The same type, up to the positions in the bodies of lambdas. -/
inductive Ty.Alike : Ty → Ty → Prop
  | nothing : Alike .nothing .nothing
  | int : Alike .int .int
  | real : Alike .real .real
  | seq {t u : Ty} : Alike t u → Alike (.seq t) (.seq u)
  | callable (arity : Nat) : Alike (.callable arity) (.callable arity)
  | lambda {body body' : Expr} {scope scope' : Scope Ty} (params : List String) :
    body.same body' = true → Scope.Related Alike scope scope' →
    Alike (.lambda ⟨params, body, scope⟩) (.lambda ⟨params, body', scope'⟩)

/-- The same value, up to the positions in the bodies of lambdas. -/
inductive Value.Alike : Value → Value → Prop
  | int (n : Int64) : Alike (.int n) (.int n)
  | real (x : Float) : Alike (.real x) (.real x)
  | seq {vs ws : List Value} (noted : Shape) :
    List.Forall₂ Alike vs ws → Alike (.seq vs noted) (.seq ws noted)
  | lambda {body body' : Expr} {scope scope' : Scope Value} (params : List String) :
    body.same body' = true → Scope.Related Alike scope scope' →
    Alike (.lambda ⟨params, body, scope⟩) (.lambda ⟨params, body', scope'⟩)

namespace Ty

theorem Alike.shape_eq : {t u : Ty} → t.Alike u → t.shape = u.shape
  | _, _, .nothing | _, _, .int | _, _, .real | _, _, .callable _ | _, _, .lambda _ _ _ => rfl
  | _, _, .seq h => congrArg Shape.seq h.shape_eq

theorem alike_ofShape (s : Shape) : (ofShape s).Alike (ofShape s) := by
  induction s with
  | nothing => exact .nothing
  | int => exact .int
  | real => exact .real
  | seq elem ih => exact .seq ih
  | lambda arity => exact .callable arity

end Ty

namespace Value

mutual

theorem Alike.refl : (v : Value) → v.Alike v
  | .int n => .int n
  | .real x => .real x
  | .seq vs noted => .seq noted (Alike.refl_all vs)
  | .lambda ⟨params, body, scope⟩ => .lambda params ((Expr.same_iff body body).2 rfl) (Alike.refl_scope scope)

theorem Alike.refl_all : (vs : List Value) → List.Forall₂ Alike vs vs
  | [] => .nil
  | v :: vs => .cons (Alike.refl v) (Alike.refl_all vs)

theorem Alike.refl_scope : (scope : List (String × Value)) → Scope.Related Alike scope scope
  | [] => .nil
  | (_, v) :: scope => .cons (Alike.refl v) (Alike.refl_scope scope)

end

theorem Alike.shape_eq {v w : Value} (h : v.Alike w) : v.shape = w.shape := by
  cases h <;> rfl

mutual

theorem Alike.renderAfter_eq :
    (v : Value) → {w : Value} → v.Alike w → (before : String) → v.renderAfter before = w.renderAfter before
  | .int n, _, .int _, before | .real x, _, .real _, before | .lambda c, _, .lambda _ _ _, before => rfl
  | .seq vs _, _, .seq _ hall, before => by
    rw [renderAfter, renderAfter]
    exact Alike.renderAllAfter_eq vs hall _ _

theorem Alike.renderAllAfter_eq :
    (vs : List Value) → {ws : List Value} → List.Forall₂ Alike vs ws → (before separator : String) →
    renderAllAfter before separator vs = renderAllAfter before separator ws
  | [], _, .nil, _, _ => rfl
  | v :: vs, _, .cons hv hvs, before, separator => by
    rw [renderAllAfter, renderAllAfter, Alike.renderAfter_eq v hv]
    split
    · exact Alike.renderAllAfter_eq vs hvs _ _
    · rfl

end

theorem Alike.render_eq {v w : Value} (h : v.Alike w) : v.render = w.render := Alike.renderAfter_eq v h ""

theorem alike_seqOf {vs ws : List Value} (h : List.Forall₂ Alike vs ws) :
    (Builtin.seqOf vs).Alike (Builtin.seqOf ws) := by
  have hshape : vs.head?.map shape = ws.head?.map shape := by
    cases h with
    | nil => rfl
    | cons hv _ => exact congrArg some hv.shape_eq
  unfold Builtin.seqOf
  rw [hshape]
  exact .seq _ h

end Value

/-! ## Outcomes -/

namespace Outcome

variable {ε ε' α β α' β' : Type}

/-- Related values, errors that are equal after erasing, or no end of both. -/
inductive Alike (R : α → β → Prop) (erase : ε → ε) : Outcome ε α → Outcome ε β → Prop
  | done {a : α} {b : β} : R a b → Alike R erase (.done a) (.done b)
  | failed {e e' : ε} : erase e = erase e' → Alike R erase (.failed e) (.failed e')
  | unfinished : Alike R erase .unfinished .unfinished

namespace Alike

variable {R : α → β → Prop} {S : α' → β' → Prop} {erase : ε → ε} {erase' : ε' → ε'}
  {x : Outcome ε α} {y : Outcome ε β}

theorem bind {f : α → Outcome ε α'} {g : β → Outcome ε β'} (h : Alike R erase x y)
    (hfg : ∀ a b, R a b → Alike S erase (f a) (g b)) : Alike S erase (x >>= f) (y >>= g) := by
  cases h with
  | done hab => exact hfg _ _ hab
  | failed he => exact .failed he
  | unfinished => exact .unfinished

theorem mapError {f g : ε → ε'} (h : Alike R erase x y)
    (hfg : ∀ e e', erase e = erase e' → erase' (f e) = erase' (g e')) :
    Alike R erase' (x.mapError f) (y.mapError g) := by
  cases h with
  | done hab => exact .done hab
  | failed he => exact .failed (hfg _ _ he)
  | unfinished => exact .unfinished

theorem ofOption {u : Option α} {w : Option β} {e e' : ε} (h : Option.Rel R u w)
    (he : erase e = erase e') : Alike R erase (ofOption e u) (ofOption e' w) := by
  cases h with
  | some hab => exact .done hab
  | none => exact .failed he

theorem ofOption_refl (u : Option α) {e e' : ε} (he : erase e = erase e') :
    Alike Eq erase (Outcome.ofOption e u) (Outcome.ofOption e' u) := by
  cases u with
  | some a => exact .done rfl
  | none => exact .failed he

/-- A computation that ends in the same way. -/
theorem refl (x : Outcome ε α) : Alike Eq erase x x := by
  cases x with
  | done a => exact .done rfl
  | failed e => exact .failed rfl
  | unfinished => exact .unfinished

theorem imp {S : α → β → Prop} (h : Alike R erase x y) (himp : ∀ a b, R a b → S a b) :
    Alike S erase x y := by
  cases h with
  | done hab => exact .done (himp _ _ hab)
  | failed he => exact .failed he
  | unfinished => exact .unfinished

/-- One computation, its errors put into two contexts. -/
theorem mapError_refl (x : Outcome ε α) {f g : ε → ε'} (hfg : ∀ e, erase' (f e) = erase' (g e)) :
    Alike Eq erase' (x.mapError f) (x.mapError g) := by
  cases x with
  | done a => exact .done rfl
  | failed e => exact .failed (hfg e)
  | unfinished => exact .unfinished

theorem mapM {f : α → Outcome ε α'} {g : β → Outcome ε β'} {as : List α} {bs : List β}
    (h : List.Forall₂ R as bs) (hfg : ∀ a b, R a b → Alike S erase (f a) (g b)) :
    Alike (List.Forall₂ S) erase (as.mapM f) (bs.mapM g) := by
  induction h with
  | nil =>
    rw [List.mapM_nil, List.mapM_nil]
    exact .done .nil
  | cons hab _ ih =>
    rw [List.mapM_cons, List.mapM_cons]
    exact (hfg _ _ hab).bind fun a' b' hab' => ih.bind fun as' bs' hall => .done (.cons hab' hall)

theorem foldlM {f : α' → α → Outcome ε α'} {g : β' → β → Outcome ε β'} {as : List α} {bs : List β}
    {a' : α'} {b' : β'} (h : List.Forall₂ R as bs) (hinitial : S a' b')
    (hfg : ∀ a' b' a b, S a' b' → R a b → Alike S erase (f a' a) (g b' b)) :
    Alike S erase (as.foldlM f a') (bs.foldlM g b') := by
  induction h generalizing a' b' with
  | nil => exact .done hinitial
  | cons hab _ ih =>
    rw [List.foldlM_cons, List.foldlM_cons]
    exact (hfg _ _ _ _ hinitial hab).bind fun a' b' hacc => ih hacc

end Alike

end Outcome

end RangeScript
