import RangeScript.Proofs.ClosureSoundness
import RangeScript.Proofs.Correspondence
import RangeScript.Proofs.PositionIndependence

/-!
# Corresponding expressions end alike

* `Respects number near erase body` : corresponding expressions end with the same, or with errors that `erase`
  makes equal;
* `Indistinct` : the same types or values, or lambdas that correspond for all arguments that fit.

Typing respects the correspondence up to nothing (`respects_inferAt`). Evaluation respects it for all
positions and errors that suit each other (`Tolerates`, `respects_evalAt`): either both are compared as they
are, or both are forgotten.
-/

namespace RangeScript

open Outcome

theorem Outcome.Alike.eq {ε α : Type} {x y : Outcome ε α} (h : x.Alike Eq id y) : x = y := by
  cases h with
  | done h => rw [h]
  | failed h => exact congrArg Outcome.failed h
  | unfinished => rfl

section Respects
variable {ε α : Type}

/-- Corresponding expressions end alike. -/
def Respects (number : Int64 → α) (near : Position → Position → Prop) (erase : ε → ε)
    (body : Scope α → Expr → Outcome ε α) : Prop :=
  ∀ {s s' : Scope α} {e e' : Expr}, Corresponds number near s s' e e' →
    (body s e).Alike Eq erase (body s' e')

/-- Two closures that correspond when they are applied. -/
structure Closure.Indistinct (number : Int64 → α) (near : Position → Position → Prop)
    (c c' : Closure α) : Prop where
  arity_eq : c.arity = c'.arity
  bodies {args : List α} : args.length = c.arity →
    Corresponds number near (c.enter args) (c'.enter args) c.body c'.body

/-- The closures of corresponding lambdas. -/
theorem Closure.Indistinct.ofLambdas {number : Int64 → α} {near : Position → Position → Prop}
    {s s' : Scope α} {params params' : List Lexeme} {body body' : Expr}
    (hlength : params.length = params'.length)
    (hbodies : ∀ args : List α, args.length = params.length →
      Corresponds number near (enter ⟨params.map (·.text), body, s⟩ args)
        (enter ⟨params'.map (·.text), body', s'⟩ args) body body') :
    Indistinct number near ⟨params.map (·.text), body, s⟩ ⟨params'.map (·.text), body', s'⟩ where
  arity_eq := by rw [arity, arity, List.length_map, List.length_map, hlength]
  bodies hargs := hbodies _ (by rwa [arity, List.length_map] at hargs)

/-- The same, or closures that correspond when they are applied. -/
inductive Indistinct (lambda : Closure α → α) (number : Int64 → α) (near : Position → Position → Prop) :
    α → α → Prop
  | same (a : α) : Indistinct lambda number near a a
  | lambda {c c' : Closure α} :
    c.Indistinct number near c' → Indistinct lambda number near (lambda c) (lambda c')

end Respects

/-! ## Typing -/

section Typing

/-- Types that no application tells apart. -/
abbrev Ty.Indistinct : Ty → Ty → Prop := RangeScript.Indistinct .lambda (fun _ => .int) Eq

/-- A typing of bodies that gives corresponding bodies the same type or error. -/
abbrev Ty.Respects : (Scope Ty → Expr → Outcome TypeError Ty) → Prop :=
  RangeScript.Respects (fun _ => .int) Eq id

variable {body : Scope Ty → Expr → Outcome TypeError Ty}

theorem Ty.Indistinct.shape_eq {t u : Ty} (h : t.Indistinct u) : t.shape = u.shape := by
  cases h with
  | same => rfl
  | lambda h => exact congrArg Shape.lambda h.arity_eq

namespace Builtin

variable {t u : Ty}

theorem seqTy_eq_of_indistinct (index : Nat) (h : t.Indistinct u) : seqTy index t = seqTy index u := by
  cases h with
  | same => rfl
  | lambda h =>
    have hshape := congrArg Shape.lambda h.arity_eq
    exact congrArg (fun shape => Except.error (TypeError.expectedSequence index shape)) hshape

theorem lambdaTy_eq_of_indistinct (index arity : Nat) (h : t.Indistinct u) :
    lambdaTy index arity t = lambdaTy index arity u := by
  unfold lambdaTy
  rw [h.shape_eq]

theorem initialTy_eq_of_indistinct (index : Nat) (h : t.Indistinct u) :
    initialTy index t = initialTy index u := by
  unfold initialTy
  rw [h.shape_eq]

/-- An initial value is no lambda, so there is no other type that it could be mistaken for. -/
theorem eq_of_initialTy {index : Nat} (h : t.Indistinct u) (hinitial : initialTy index t = .ok ()) :
    t = u := by
  cases h with
  | same => rfl
  | lambda => cases hinitial

variable (hbody : Ty.Respects body)
include hbody

theorem applyTy_eq_of_indistinct {index arity : Nat} (h : t.Indistinct u)
    (hlambda : lambdaTy index arity t = .ok ()) {args : List Ty} (hargs : args.length = arity) :
    applyTy body t args = applyTy body u args := by
  cases h with
  | same => rfl
  | lambda h =>
    have harity : _ = arity := Shape.lambda.inj (lambdaTy_eq_ok.1 hlambda)
    exact (hbody (h.bodies (hargs.trans harity.symm))).eq

theorem map_resultTy_eq_of_indistinct {f g : Ty} (hs : t.Indistinct u) (hf : f.Indistinct g) :
    map.resultTy body [t, f] = map.resultTy body [u, g] := by
  rw [resultTy, resultTy, seqTy_eq_of_indistinct 1 hs, ← lambdaTy_eq_of_indistinct 2 1 hf]
  cases hlambda : lambdaTy 2 1 f with
  | error e => rfl
  | ok _ =>
    have happly : ∀ elem, applyTy body f [elem] = applyTy body g [elem] :=
      fun elem => applyTy_eq_of_indistinct hbody hf hlambda rfl
    simp only [happly]

theorem reduce_resultTy_eq_of_indistinct {initial initial' f g : Ty} (hs : t.Indistinct u)
    (hinitial : initial.Indistinct initial') (hf : f.Indistinct g) :
    reduce.resultTy body [t, initial, f] = reduce.resultTy body [u, initial', g] := by
  rw [resultTy, resultTy, seqTy_eq_of_indistinct 1 hs, ← initialTy_eq_of_indistinct 2 hinitial,
    ← lambdaTy_eq_of_indistinct 3 2 hf]
  cases hno : initialTy 2 initial with
  | error e => rfl
  | ok _ =>
    obtain rfl := eq_of_initialTy hinitial hno
    cases hlambda : lambdaTy 3 2 f with
    | error e => rfl
    | ok _ =>
      have happly : ∀ elem, applyTy body f [initial, elem] = applyTy body g [initial, elem] :=
        fun elem => applyTy_eq_of_indistinct hbody hf hlambda rfl
      simp only [happly]

theorem resultTy_eq_of_indistinct (f : Builtin) {args args' : List Ty}
    (h : List.Forall₂ Ty.Indistinct args args') : f.resultTy body args = f.resultTy body args' := by
  have hcount : (failed (f.wrongCount args.length) : Outcome TypeError Ty) =
      failed (f.wrongCount args'.length) := by
    rw [h.length_eq]
  cases f with
  | map =>
    rcases h with _ | ⟨hs, _ | ⟨hf, _ | ⟨_, _⟩⟩⟩
    · exact hcount
    · exact hcount
    · exact map_resultTy_eq_of_indistinct hbody hs hf
    · exact hcount
  | reduce =>
    rcases h with _ | ⟨hs, _ | ⟨hinitial, _ | ⟨hf, _ | ⟨_, _⟩⟩⟩⟩
    · exact hcount
    · exact hcount
    · exact hcount
    · exact reduce_resultTy_eq_of_indistinct hbody hs hinitial hf
    · exact hcount

end Builtin

namespace Language

variable (lang : Language)

mutual

/-- Typing respects the correspondence if the typing of applied bodies does. -/
theorem inferWith_eq_of_corresponds (hbody : Ty.Respects body) {s s' : Scope Ty} {e e' : Expr}
    (h : Corresponds (fun _ => Ty.int) Eq s s' e e') :
    lang.inferWith body s e = lang.inferWith body s' e' := by
  match h with
  | .bound hget hget' _ =>
    rw [inferWith, inferWith, hget, hget']
    rfl
  | .unbound hget hget' => rw [inferWith, inferWith, hget, hget']
  | .literal hget hnumber _ =>
    rw [inferWith, inferWith, hget, intLiteral, hnumber]
    rfl
  | .int literal => rw [inferWith, inferWith]
  | .real literal => rw [inferWith, inferWith]
  | .binary op hleft hright =>
    rw [inferWith, inferWith, inferWith_eq_of_corresponds hbody hleft,
      inferWith_eq_of_corresponds hbody hright]
  | .range hleft hright =>
    rw [inferWith, inferWith, inferWith_eq_of_corresponds hbody hleft,
      inferWith_eq_of_corresponds hbody hright]
    unfold boundTy
    rw [hleft.near_pos fun _ => rfl, hright.near_pos fun _ => rfl]
  | .call function hargs =>
    rw [inferWith, inferWith]
    congr 1
    funext f
    have hall := alike_inferAllWith_of_corresponds hbody hargs
    refine (hall.bind fun ts ts' hts => ?_ : Alike Eq id _ _).eq
    rw [Builtin.resultTy_eq_of_indistinct hbody f hts]
    exact .refl _

theorem alike_inferWith_of_correspondsArg (hbody : Ty.Respects body) {s s' : Scope Ty} {e e' : Expr}
    (h : CorrespondsArg (fun _ => Ty.int) Eq s s' e e') :
    (lang.inferWith body s e).Alike Ty.Indistinct id (lang.inferWith body s' e') := by
  match h with
  | .expr h =>
    rw [inferWith_eq_of_corresponds hbody h]
    exact (Alike.refl _).imp fun t _ ht => ht ▸ .same t
  | .lambda hrepeated hlength hbodies =>
    rw [inferWith, inferWith, ← hrepeated]
    split
    · exact .failed rfl
    · exact .done (.lambda (.ofLambdas hlength hbodies))

theorem alike_inferAllWith_of_corresponds (hbody : Ty.Respects body) {s s' : Scope Ty}
    {es es' : List Expr} (h : CorrespondsArgs (fun _ => Ty.int) Eq s s' es es') :
    (lang.inferAllWith body s es).Alike (List.Forall₂ Ty.Indistinct) id
      (lang.inferAllWith body s' es') := by
  match h with
  | .nil =>
    rw [inferAllWith, inferAllWith]
    exact .done .nil
  | .cons he hes =>
    rw [inferAllWith, inferAllWith]
    refine (alike_inferWith_of_correspondsArg hbody he).bind fun t t' ht => ?_
    exact (alike_inferAllWith_of_corresponds hbody hes).bind fun ts ts' hts => .done (.cons ht hts)

end

theorem respects_inferAt (depth : Nat) : Ty.Respects (lang.inferAt depth) := by
  induction depth with
  | zero =>
    intro s s' e e' h
    rw [inferAt, lang.inferWith_eq_of_corresponds (fun _ => .unfinished) h]
    exact .refl _
  | succ depth ih =>
    intro s s' e e' h
    rw [inferAt, lang.inferWith_eq_of_corresponds ih h]
    exact .refl _

/-- Corresponding expressions have the same type. -/
theorem infer_eq_of_corresponds {s s' : Scope Ty} {e e' : Expr}
    (h : Corresponds (fun _ => Ty.int) Eq s s' e e') : lang.infer s e = lang.infer s' e' :=
  (lang.respects_inferAt lang.callDepth h).eq

end Language

end Typing

/-! ## Evaluation -/

section Evaluation

/-- Errors that name near positions are equal once `erase` has been applied. -/
structure Tolerates (near : Position → Position → Prop) (erase : RunError → RunError) : Prop where
  refl (p : Position) : near p p
  rangeBound {p q : Position} (found : Shape) :
    near p q → erase (.rangeBound p found) = erase (.rangeBound q found)
  rangeTooLarge {p q : Position} (length : Nat) :
    near p q → erase (.rangeTooLarge p length) = erase (.rangeTooLarge q length)
  inFunction (name : Lexeme) {e e' : RunError} :
    erase e = erase e' → erase (.inFunction name e) = erase (.inFunction name e')

/-- Positions are compared as they are. -/
theorem tolerates_id : Tolerates Eq id where
  refl _ := rfl
  rangeBound found h := congrArg (RunError.rangeBound · found) h
  rangeTooLarge length h := congrArg (RunError.rangeTooLarge · length) h
  inFunction name _ _ h := congrArg (RunError.inFunction name) h

/-- Positions are forgotten. -/
theorem tolerates_forget : Tolerates (fun _ _ => True) RunError.forget where
  refl _ := trivial
  rangeBound _ _ := rfl
  rangeTooLarge _ _ := rfl
  inFunction name _ _ h := congrArg (RunError.inFunction (name.relocate Position.forget)) h

variable {near : Position → Position → Prop} {erase : RunError → RunError}
  {body : Scope Value → Expr → Outcome RunError Value}

namespace Builtin

variable {v w : Value}

theorem seqArg_eq_of_indistinct (index : Nat) (h : Indistinct .lambda .int near v w) :
    seqArg index v = seqArg index w := by
  cases h with
  | same => rfl
  | lambda h =>
    have hshape := congrArg Shape.lambda h.arity_eq
    exact congrArg (fun shape => Except.error (RunError.typing (.expectedSequence index shape))) hshape

theorem initialArg_eq_of_indistinct (index : Nat) (h : Indistinct .lambda .int near v w) :
    initialArg index v = initialArg index w := by
  cases h with
  | same => rfl
  | lambda _ => rfl

/-- An initial value is no lambda, so there is no other value that it could be mistaken for. -/
theorem eq_of_initialArg {index : Nat} (h : Indistinct .lambda .int near v w)
    (hinitial : initialArg index v = .ok ()) : v = w := by
  cases h with
  | same => rfl
  | lambda _ => cases hinitial

/-- The closures give the same results for as many arguments. -/
def AppliesAlike (erase : RunError → RunError) (body : Scope Value → Expr → Outcome RunError Value)
    (arity : Nat) (c c' : Closure Value) : Prop :=
  ∀ args : List Value, args.length = arity →
    (applyClosure body c args).Alike Eq erase (applyClosure body c' args)

variable (hbody : Respects .int near erase body)
include hbody

theorem alike_lambdaArg_of_indistinct (index arity : Nat) (h : Indistinct .lambda .int near v w) :
    (ofExcept (lambdaArg index arity v)).Alike (AppliesAlike erase body arity) erase
      (ofExcept (lambdaArg index arity w)) := by
  cases h with
  | same =>
    refine (Alike.refl _).imp ?_
    rintro c _ rfl args -
    exact .refl _
  | @lambda c c' h =>
    by_cases harity : c.arity = arity
    · rw [lambdaArg_of_arity_eq index harity, lambdaArg_of_arity_eq index (h.arity_eq ▸ harity)]
      exact .done fun args hargs => hbody (h.bodies (hargs.trans harity.symm))
    · rw [lambdaArg_of_arity_ne index harity, lambdaArg_of_arity_ne index (h.arity_eq ▸ harity),
        h.arity_eq]
      exact .failed rfl

theorem alike_map_call_of_indistinct {f g : Value} (hs : Indistinct .lambda .int near v w)
    (hf : Indistinct .lambda .int near f g) :
    (map.call body [v, f]).Alike Eq erase (map.call body [w, g]) := by
  rw [call, call, seqArg_eq_of_indistinct 1 hs]
  refine (Alike.refl _).bind ?_
  rintro elements _ rfl
  refine (alike_lambdaArg_of_indistinct hbody 2 1 hf).bind fun c c' hc => ?_
  have helements : List.Forall₂ Eq elements elements := List.forall₂_same.2 fun _ _ => rfl
  refine (Alike.mapM (S := Eq) helements ?_).bind fun vs ws hall => .done ?_
  · rintro v _ rfl
    exact hc [v] rfl
  · rw [List.forall₂_eq_eq_eq] at hall
    rw [hall]

theorem alike_reduce_call_of_indistinct {initial initial' f g : Value}
    (hs : Indistinct .lambda .int near v w) (hinitial : Indistinct .lambda .int near initial initial')
    (hf : Indistinct .lambda .int near f g) :
    (reduce.call body [v, initial, f]).Alike Eq erase (reduce.call body [w, initial', g]) := by
  rw [call, call, seqArg_eq_of_indistinct 1 hs, ← initialArg_eq_of_indistinct 2 hinitial]
  refine (Alike.refl _).bind ?_
  rintro elements _ rfl
  cases hno : initialArg 2 initial with
  | error e => exact .failed rfl
  | ok _ =>
    obtain rfl := eq_of_initialArg hinitial hno
    refine (alike_lambdaArg_of_indistinct hbody 3 2 hf).bind fun c c' hc => ?_
    have helements : List.Forall₂ Eq elements elements := List.forall₂_same.2 fun _ _ => rfl
    refine Alike.foldlM helements rfl ?_
    rintro acc _ v _ rfl rfl
    exact hc [acc, v] rfl

theorem alike_call_of_indistinct (f : Builtin) {args args' : List Value}
    (h : List.Forall₂ (Indistinct .lambda .int near) args args') :
    (f.call body args).Alike Eq erase (f.call body args') := by
  have hcount : (failed (.typing (f.wrongCount args.length))).Alike Eq erase
      (failed (α := Value) (.typing (f.wrongCount args'.length))) := by
    rw [h.length_eq]
    exact .failed rfl
  cases f with
  | map =>
    rcases h with _ | ⟨hs, _ | ⟨hf, _ | ⟨_, _⟩⟩⟩
    · exact hcount
    · exact hcount
    · exact alike_map_call_of_indistinct hbody hs hf
    · exact hcount
  | reduce =>
    rcases h with _ | ⟨hs, _ | ⟨hinitial, _ | ⟨hf, _ | ⟨_, _⟩⟩⟩⟩
    · exact hcount
    · exact hcount
    · exact hcount
    · exact alike_reduce_call_of_indistinct hbody hs hinitial hf
    · exact hcount

end Builtin

namespace Language

variable (lang : Language)

theorem alike_boundValue_of_near (htol : Tolerates near erase) {bound bound' : Expr}
    (h : near bound.pos bound'.pos) (v : Value) :
    (boundValue bound v).Alike Eq erase (boundValue bound' v) :=
  Alike.ofOption_refl _ (htol.rangeBound v.shape h)

mutual

/-- Evaluation respects the correspondence if the evaluation of applied bodies does. -/
theorem alike_evalWith_of_corresponds (htol : Tolerates near erase) (hbody : Respects .int near erase body)
    {s s' : Scope Value} {e e' : Expr} (h : Corresponds .int near s s' e e') :
    (lang.evalWith body s e).Alike Eq erase (lang.evalWith body s' e') := by
  match h with
  | .bound hget hget' _ =>
    rw [evalWith, evalWith, hget, hget']
    exact .done rfl
  | .unbound hget hget' =>
    rw [evalWith, evalWith, hget, hget']
    exact .refl _
  | .literal hget hnumber _ =>
    rw [evalWith, evalWith, hget, intLiteral, hnumber]
    exact .done rfl
  | .int literal =>
    rw [evalWith, evalWith]
    exact .refl _
  | .real literal =>
    rw [evalWith, evalWith]
    exact .refl _
  | .binary op hleft hright =>
    rw [evalWith, evalWith]
    refine (alike_evalWith_of_corresponds htol hbody hleft).bind ?_
    rintro l _ rfl
    refine (alike_evalWith_of_corresponds htol hbody hright).bind ?_
    rintro r _ rfl
    exact .refl _
  | .range hleft hright =>
    have hpos := hleft.near_pos htol.refl
    rw [evalWith, evalWith]
    refine (alike_evalWith_of_corresponds htol hbody hleft).bind ?_
    rintro l _ rfl
    refine (alike_boundValue_of_near htol hpos l).bind ?_
    rintro lo _ rfl
    refine (alike_evalWith_of_corresponds htol hbody hright).bind ?_
    rintro r _ rfl
    refine (alike_boundValue_of_near htol (hright.near_pos htol.refl) r).bind ?_
    rintro hi _ rfl
    dsimp only
    split
    · exact .done rfl
    · exact .failed (htol.rangeTooLarge _ hpos)
  | .call function hargs =>
    rw [evalWith, evalWith]
    refine (Alike.refl _).bind ?_
    rintro f _ rfl
    refine (alike_evalAllWith_of_corresponds htol hbody hargs).bind fun vs ws hall => ?_
    exact (Builtin.alike_call_of_indistinct hbody f hall).mapError fun e e' he =>
      htol.inFunction function he

theorem alike_evalWith_of_correspondsArg (htol : Tolerates near erase)
    (hbody : Respects .int near erase body) {s s' : Scope Value} {e e' : Expr}
    (h : CorrespondsArg .int near s s' e e') :
    (lang.evalWith body s e).Alike (Indistinct .lambda .int near) erase (lang.evalWith body s' e') := by
  match h with
  | .expr h =>
    exact (alike_evalWith_of_corresponds htol hbody h).imp fun v _ hv => hv ▸ .same v
  | .lambda _ hlength hbodies =>
    rw [evalWith, evalWith]
    exact .done (.lambda (.ofLambdas hlength hbodies))

theorem alike_evalAllWith_of_corresponds (htol : Tolerates near erase)
    (hbody : Respects .int near erase body) {s s' : Scope Value} {es es' : List Expr}
    (h : CorrespondsArgs .int near s s' es es') :
    (lang.evalAllWith body s es).Alike (List.Forall₂ (Indistinct .lambda .int near)) erase
      (lang.evalAllWith body s' es') := by
  match h with
  | .nil =>
    rw [evalAllWith, evalAllWith]
    exact .done .nil
  | .cons he hes =>
    rw [evalAllWith, evalAllWith]
    refine (alike_evalWith_of_correspondsArg htol hbody he).bind fun v w hv => ?_
    exact (alike_evalAllWith_of_corresponds htol hbody hes).bind fun vs ws hvs => .done (.cons hv hvs)

end

theorem respects_evalAt (htol : Tolerates near erase) (depth : Nat) :
    Respects .int near erase (lang.evalAt depth) := by
  induction depth with
  | zero => exact fun h => lang.alike_evalWith_of_corresponds htol (fun _ => .unfinished) h
  | succ depth ih => exact fun h => lang.alike_evalWith_of_corresponds htol ih h

/-- Corresponding expressions have the same value. -/
theorem eval_eq_of_corresponds {s s' : Scope Value} {e e' : Expr} (h : Corresponds .int Eq s s' e e') :
    lang.eval s e = lang.eval s' e' :=
  (lang.respects_evalAt tolerates_id lang.callDepth h).eq

end Language

end Evaluation

end RangeScript
