import RangeScript.Proofs.Equality
import RangeScript.Proofs.History
import RangeScript.Proofs.UpToPositions

/-!
# Positions have no influence

Typing and evaluation are blind to positions (`Blind`): in scopes that are alike, expressions that are the
same up to positions end alike. So two sessions that are alike stay alike when they are handed programs
that are the same up to positions, print the same lines, and fail together, with errors that differ in
positions only (`positions_irrelevant`).
-/

namespace RangeScript

open Outcome

/-- Expressions that are the same up to positions end alike in scopes that are alike. -/
def Blind {ε α : Type} (R : α → α → Prop) (erase : ε → ε)
    (body : Scope α → Expr → Outcome ε α) : Prop :=
  ∀ {scope scope' : Scope α} {e e' : Expr}, Scope.Related R scope scope' → e.same e' = true →
    (body scope e).Alike R erase (body scope' e')

theorem Lexeme.text_eq_of_same {a b : Lexeme} (h : a.same b = true) : a.text = b.text := beq_iff_eq.1 h

/-- The lexemes are the same in errors once positions are forgotten. -/
theorem Lexeme.forget_eq_of_same {a b : Lexeme} (h : a.same b = true) :
    a.relocate Position.forget = b.relocate Position.forget := (same_iff a b).1 h

theorem Expr.texts_eq_of_sameLexemes {as bs : List Lexeme} (h : sameLexemes as bs = true) :
    as.map (·.text) = bs.map (·.text) := by
  have htexts := congrArg (List.map (·.text)) ((sameLexemes_iff as bs).1 h)
  rw [List.map_map, List.map_map] at htexts
  exact htexts

theorem Language.firstRepeated?_relocate (f : Position → Position) (before ps : List Lexeme) :
    firstRepeated? (before.map (Lexeme.relocate f)) (ps.map (Lexeme.relocate f)) =
      (firstRepeated? before ps).map (Lexeme.relocate f) := by
  induction ps generalizing before with
  | nil => rfl
  | cons p ps ih =>
    have hany : (before.map (Lexeme.relocate f)).any (p.relocate f).same = before.any p.same := by
      rw [List.any_map]
      rfl
    rw [List.map_cons, firstRepeated?, firstRepeated?, hany]
    split
    · rfl
    · exact ih (p :: before)

/-! ## Typing -/

section Typing
variable {body : Scope Ty → Expr → Outcome TypeError Ty}

namespace Builtin

variable {t u : Ty}

theorem alike_seqTy (index : Nat) (h : t.Alike u) :
    (ofExcept (seqTy index t)).Alike Ty.Alike TypeError.forget (ofExcept (seqTy index u)) := by
  cases h with
  | seq h => exact .done h
  | _ => exact .failed rfl

theorem alike_lambdaTy (index arity : Nat) (h : t.Alike u) :
    (ofExcept (lambdaTy index arity t)).Alike Eq TypeError.forget
      (ofExcept (lambdaTy index arity u)) := by
  unfold lambdaTy
  rw [h.shape_eq]
  exact .refl _

theorem alike_initialTy (index : Nat) (h : t.Alike u) :
    (ofExcept (initialTy index t)).Alike Eq TypeError.forget (ofExcept (initialTy index u)) := by
  unfold initialTy
  rw [h.shape_eq]
  exact .refl _

variable (hbody : Blind Ty.Alike TypeError.forget body)
include hbody

theorem alike_applyTy (h : t.Alike u) {args args' : List Ty} (hargs : List.Forall₂ Ty.Alike args args') :
    (applyTy body t args).Alike Ty.Alike TypeError.forget (applyTy body u args') := by
  cases h with
  | lambda params hsame hscope => exact hbody ((Scope.Related.zip hargs params).reverse.append hscope) hsame
  | _ => exact .done .nothing

theorem alike_map_resultTy {f g : Ty} (hs : t.Alike u) (hf : f.Alike g) :
    (map.resultTy body [t, f]).Alike Ty.Alike TypeError.forget (map.resultTy body [u, g]) := by
  refine (alike_seqTy 1 hs).bind fun elem elem' helem => ?_
  refine (alike_lambdaTy 2 1 hf).bind fun _ _ _ => ?_
  exact (alike_applyTy hbody hf (.cons helem .nil)).bind fun result result' h => .done (.seq h)

theorem alike_reduce_resultTy {initial initial' f g : Ty} (hs : t.Alike u)
    (hinitial : initial.Alike initial') (hf : f.Alike g) :
    (reduce.resultTy body [t, initial, f]).Alike Ty.Alike TypeError.forget
      (reduce.resultTy body [u, initial', g]) := by
  refine (alike_seqTy 1 hs).bind fun elem elem' helem => ?_
  refine (alike_initialTy 2 hinitial).bind fun _ _ _ => ?_
  refine (alike_lambdaTy 3 2 hf).bind fun _ _ _ => ?_
  refine (alike_applyTy hbody hf (.cons hinitial (.cons helem .nil))).bind fun result result' h => ?_
  rw [h.shape_eq, hinitial.shape_eq]
  split
  · exact .done hinitial
  · exact .failed rfl

/-- The cases are those of the number of arguments. -/
theorem alike_resultTy (f : Builtin) {args args' : List Ty} (h : List.Forall₂ Ty.Alike args args') :
    (f.resultTy body args).Alike Ty.Alike TypeError.forget (f.resultTy body args') := by
  have hcount : (failed (f.wrongCount args.length)).Alike Ty.Alike TypeError.forget
      (failed (f.wrongCount args'.length)) := by
    rw [h.length_eq]
    exact .failed rfl
  cases f with
  | map =>
    rcases h with _ | ⟨hs, _ | ⟨hf, _ | ⟨_, _⟩⟩⟩
    · exact hcount
    · exact hcount
    · exact alike_map_resultTy hbody hs hf
    · exact hcount
  | reduce =>
    rcases h with _ | ⟨hs, _ | ⟨hinitial, _ | ⟨hf, _ | ⟨_, _⟩⟩⟩⟩
    · exact hcount
    · exact hcount
    · exact hcount
    · exact alike_reduce_resultTy hbody hs hinitial hf
    · exact hcount

end Builtin

namespace Language

variable {lang : Language}

theorem alike_intLiteral {a b : Lexeme} (h : a.same b = true) :
    (ofExcept (intLiteral a)).Alike Eq TypeError.forget (ofExcept (intLiteral b)) := by
  unfold intLiteral
  rw [Lexeme.text_eq_of_same h]
  split
  · exact .done rfl
  · exact .failed (congrArg (TypeError.invalidLiteral .int) (Lexeme.forget_eq_of_same h))

theorem alike_realLiteral {a b : Lexeme} (h : a.same b = true) :
    (ofExcept (realLiteral a)).Alike Eq TypeError.forget (ofExcept (realLiteral b)) := by
  unfold realLiteral
  rw [Lexeme.text_eq_of_same h]
  split
  · exact .done rfl
  · exact .failed (congrArg (TypeError.invalidLiteral .real) (Lexeme.forget_eq_of_same h))

theorem alike_boundTy (bound bound' : Expr) {t u : Ty} (h : t.Alike u) :
    (boundTy bound t).Alike Eq TypeError.forget (boundTy bound' u) := by
  unfold boundTy
  rw [h.shape_eq]
  split
  · exact .done rfl
  · exact .failed rfl

mutual

/-- Typing is blind to positions if the typing of applied bodies is. -/
theorem alike_inferWith (hbody : Blind Ty.Alike TypeError.forget body)
    {scope scope' : Scope Ty} (hscope : Scope.Related Ty.Alike scope scope') (e e' : Expr)
    (h : e.same e' = true) :
    (lang.inferWith body scope e).Alike Ty.Alike TypeError.forget (lang.inferWith body scope' e') := by
  -- expressions that are the same have the same form; for two forms `h` says that `false` is `true`
  cases e with
  | int literal =>
    cases e' with
    | int literal' =>
      rw [inferWith, inferWith]
      exact (alike_intLiteral h).bind fun _ _ _ => .done .int
    | _ => cases h
  | real literal =>
    cases e' with
    | real literal' =>
      rw [inferWith, inferWith]
      exact (alike_realLiteral h).bind fun _ _ _ => .done .real
    | _ => cases h
  | var name =>
    cases e' with
    | var name' =>
      rw [inferWith, inferWith, Lexeme.text_eq_of_same h]
      exact .ofOption (hscope.get? _) (congrArg TypeError.undeclared (Lexeme.forget_eq_of_same h))
    | _ => cases h
  | range left right =>
    cases e' with
    | range left' right' =>
      obtain ⟨hleft, hright⟩ := Bool.and_eq_true_iff.1 h
      rw [inferWith, inferWith]
      refine (alike_inferWith hbody hscope left left' hleft).bind fun l l' hl => ?_
      refine (alike_boundTy left left' hl).bind fun _ _ _ => ?_
      refine (alike_inferWith hbody hscope right right' hright).bind fun r r' hr => ?_
      exact (alike_boundTy right right' hr).bind fun _ _ _ => .done (.seq .int)
    | _ => cases h
  | binary left op right =>
    cases e' with
    | binary left' op' right' =>
      obtain ⟨hleft, hright⟩ := Bool.and_eq_true_iff.1 h
      obtain ⟨hleft, hop⟩ := Bool.and_eq_true_iff.1 hleft
      have hforget := Lexeme.forget_eq_of_same hop
      rw [inferWith, inferWith, Lexeme.text_eq_of_same hop]
      refine (alike_inferWith hbody hscope left left' hleft).bind fun l l' hl => ?_
      refine (alike_inferWith hbody hscope right right' hright).bind fun r r' hr => ?_
      refine (Alike.ofOption_refl _ (congrArg TypeError.unknownOperator hforget)).bind ?_
      rintro operator _ rfl
      rw [hl.shape_eq, hr.shape_eq]
      have hcontext : ∀ e : TypeError, (TypeError.atOperator op e).forget =
          (TypeError.atOperator op' e).forget :=
        fun e => congrArg (TypeError.atOperator · _) hforget
      refine (Alike.mapError_refl _ hcontext).bind ?_
      rintro shape _ rfl
      exact .done (Ty.alike_ofShape shape)
    | _ => cases h
  | call function args =>
    cases e' with
    | call function' args' =>
      obtain ⟨hname, hargs⟩ := Bool.and_eq_true_iff.1 h
      have hforget := Lexeme.forget_eq_of_same hname
      rw [inferWith, inferWith, Lexeme.text_eq_of_same hname]
      refine (Alike.ofOption_refl _ (congrArg TypeError.unknownFunction hforget)).bind ?_
      rintro f _ rfl
      refine (alike_inferAllWith hbody hscope args args' hargs).bind fun ts ts' hts => ?_
      exact (Builtin.alike_resultTy hbody f hts).mapError fun e e' he =>
        congrArg₂ TypeError.inFunction hforget he
    | _ => cases h
  | lambda params e =>
    cases e' with
    | lambda params' e' =>
      obtain ⟨hparams, he⟩ := Bool.and_eq_true_iff.1 h
      have hrepeated : (firstRepeated? [] params).map (Lexeme.relocate Position.forget) =
          (firstRepeated? [] params').map (Lexeme.relocate Position.forget) := by
        rw [← firstRepeated?_relocate, ← firstRepeated?_relocate, (Expr.sameLexemes_iff _ _).1 hparams]
      rw [inferWith, inferWith, Expr.texts_eq_of_sameLexemes hparams]
      generalize firstRepeated? [] params = p at hrepeated
      generalize firstRepeated? [] params' = p' at hrepeated
      cases p with
      | none =>
        cases p' with
        | none => exact .done (.lambda _ he hscope)
        | some p' => cases hrepeated
      | some p =>
        cases p' with
        | none => cases hrepeated
        | some p' => exact .failed (congrArg TypeError.duplicateParam (Option.some.inj hrepeated))
    | _ => cases h

theorem alike_inferAllWith (hbody : Blind Ty.Alike TypeError.forget body)
    {scope scope' : Scope Ty} (hscope : Scope.Related Ty.Alike scope scope') (es es' : List Expr)
    (h : Expr.sameAll es es' = true) :
    (lang.inferAllWith body scope es).Alike (List.Forall₂ Ty.Alike)
      TypeError.forget (lang.inferAllWith body scope' es') := by
  cases es with
  | nil =>
    cases es' with
    | nil =>
      rw [inferAllWith, inferAllWith]
      exact .done .nil
    | cons _ _ => cases h
  | cons e es =>
    cases es' with
    | nil => cases h
    | cons e' es' =>
      obtain ⟨he, hes⟩ := Bool.and_eq_true_iff.1 h
      rw [inferAllWith, inferAllWith]
      refine (alike_inferWith hbody hscope e e' he).bind fun t t' ht => ?_
      exact (alike_inferAllWith hbody hscope es es' hes).bind fun ts ts' hts => .done (.cons ht hts)

end

variable (lang)

theorem blind_inferAt (depth : Nat) :
    Blind Ty.Alike TypeError.forget (lang.inferAt depth) := by
  induction depth with
  | zero => exact fun hscope h => alike_inferWith (fun _ _ => .unfinished) hscope _ _ h
  | succ depth ih => exact fun hscope h => alike_inferWith ih hscope _ _ h

variable {types types' : Scope Ty}

theorem alike_check (h : Scope.Related Ty.Alike types types') {s s' : Stmt} (hs : s.same s' = true) :
    (lang.check types s).Alike (Scope.Related Ty.Alike) TypeError.forget (lang.check types' s') := by
  cases s with
  | print text =>
    cases s' with
    | print text' => exact .done h
    | _ => cases hs
  | out value =>
    cases s' with
    | out value' =>
      rw [check, check]
      refine (lang.blind_inferAt lang.callDepth h hs).bind fun t t' ht => ?_
      rw [ht.shape_eq]
      split
      · exact .done h
      · exact .failed rfl
    | _ => cases hs
  | declare name value =>
    cases s' with
    | declare name' value' =>
      obtain ⟨hname, hvalue⟩ := Bool.and_eq_true_iff.1 hs
      rw [check, check, Lexeme.text_eq_of_same hname, h.contains_eq]
      split
      · exact .failed (congrArg TypeError.redeclared (Lexeme.forget_eq_of_same hname))
      · exact (lang.blind_inferAt lang.callDepth h hvalue).bind fun t t' ht => .done (.cons ht h)
    | _ => cases hs

theorem alike_checkProgram (h : Scope.Related Ty.Alike types types') {p q : Program}
    (hpq : Program.same p q = true) :
    (lang.checkProgram types p).2.Alike Eq TypeError.forget (lang.checkProgram types' q).2 := by
  induction p generalizing q types types' with
  | nil =>
    cases q with
    | nil => exact .done rfl
    | cons _ _ => cases hpq
  | cons s p ih =>
    cases q with
    | nil => cases hpq
    | cons s' q =>
      obtain ⟨hs, hpq⟩ := Bool.and_eq_true_iff.1 hpq
      have hcheck := lang.alike_check h hs
      rw [checkProgram, checkProgram]
      generalize lang.check types s = x at hcheck
      generalize lang.check types' s' = y at hcheck
      cases hcheck with
      | done h => exact ih h hpq
      | failed he => exact .failed he
      | unfinished => exact .unfinished

end Language

end Typing

/-! ## Evaluation -/

section Evaluation
variable {body : Scope Value → Expr → Outcome RunError Value}

namespace Builtin

variable {v w : Value}

theorem alike_seqArg (index : Nat) (h : v.Alike w) :
    (ofExcept (seqArg index v)).Alike (List.Forall₂ Value.Alike) RunError.forget
      (ofExcept (seqArg index w)) := by
  cases h with
  | seq noted hall => exact .done hall
  | _ => exact .failed rfl

theorem lambdaArg_of_arity_eq (index : Nat) {arity : Nat} {c : Closure Value} (h : c.arity = arity) :
    lambdaArg index arity (.lambda c) = .ok c := if_pos h

theorem lambdaArg_of_arity_ne (index : Nat) {arity : Nat} {c : Closure Value} (h : c.arity ≠ arity) :
    lambdaArg index arity (.lambda c) = .error (.typing (.lambdaArity index arity c.arity)) := if_neg h

theorem alike_lambdaArg (index arity : Nat) (h : v.Alike w) :
    (ofExcept (lambdaArg index arity v)).Alike (fun c c' => (Value.lambda c).Alike (.lambda c'))
      RunError.forget (ofExcept (lambdaArg index arity w)) := by
  cases h with
  | lambda params hsame hscope =>
    by_cases harity : params.length = arity
    · rw [lambdaArg_of_arity_eq index, lambdaArg_of_arity_eq index]
      · exact .done (.lambda params hsame hscope)
      · exact harity
      · exact harity
    · rw [lambdaArg_of_arity_ne index, lambdaArg_of_arity_ne index]
      · exact .failed rfl
      · exact harity
      · exact harity
  | _ => exact .failed rfl

theorem alike_initialArg (index : Nat) (h : v.Alike w) :
    (ofExcept (initialArg index v)).Alike Eq RunError.forget (ofExcept (initialArg index w)) := by
  cases h with
  | lambda params _ _ => exact .failed rfl
  | _ => exact .done rfl

variable (hbody : Blind Value.Alike RunError.forget body)
include hbody

theorem alike_applyClosure {c c' : Closure Value} (h : (Value.lambda c).Alike (.lambda c'))
    {args args' : List Value} (hargs : List.Forall₂ Value.Alike args args') :
    (applyClosure body c args).Alike Value.Alike RunError.forget (applyClosure body c' args') := by
  cases h with
  | lambda params hsame hscope => exact hbody ((Scope.Related.zip hargs params).reverse.append hscope) hsame

theorem alike_map_call {f g : Value} (hs : v.Alike w) (hf : f.Alike g) :
    (map.call body [v, f]).Alike Value.Alike RunError.forget (map.call body [w, g]) := by
  refine (alike_seqArg 1 hs).bind fun vs ws hall => ?_
  refine (alike_lambdaArg 2 1 hf).bind fun c c' hc => ?_
  refine (Alike.mapM hall fun v w hv => ?_).bind fun vs ws hresults => .done (Value.alike_seqOf hresults)
  exact alike_applyClosure hbody hc (.cons hv .nil)

theorem alike_reduce_call {initial initial' f g : Value} (hs : v.Alike w)
    (hinitial : initial.Alike initial') (hf : f.Alike g) :
    (reduce.call body [v, initial, f]).Alike Value.Alike RunError.forget
      (reduce.call body [w, initial', g]) := by
  refine (alike_seqArg 1 hs).bind fun vs ws hall => ?_
  refine (alike_initialArg 2 hinitial).bind fun _ _ _ => ?_
  refine (alike_lambdaArg 3 2 hf).bind fun c c' hc => ?_
  refine Alike.foldlM hall hinitial fun acc acc' v w hacc hv => ?_
  exact alike_applyClosure hbody hc (.cons hacc (.cons hv .nil))

theorem alike_call (f : Builtin) {args args' : List Value} (h : List.Forall₂ Value.Alike args args') :
    (f.call body args).Alike Value.Alike RunError.forget (f.call body args') := by
  have hcount : (failed (.typing (f.wrongCount args.length))).Alike Value.Alike
      RunError.forget (failed (.typing (f.wrongCount args'.length))) := by
    rw [h.length_eq]
    exact .failed rfl
  cases f with
  | map =>
    rcases h with _ | ⟨hs, _ | ⟨hf, _ | ⟨_, _⟩⟩⟩
    · exact hcount
    · exact hcount
    · exact alike_map_call hbody hs hf
    · exact hcount
  | reduce =>
    rcases h with _ | ⟨hs, _ | ⟨hinitial, _ | ⟨hf, _ | ⟨_, _⟩⟩⟩⟩
    · exact hcount
    · exact hcount
    · exact hcount
    · exact alike_reduce_call hbody hs hinitial hf
    · exact hcount

end Builtin

/-- An operator gives a number or fails, so its result tells nothing of positions. -/
theorem Operator.apply_eq_of_alike (operator : Operator) {v v' w w' : Value} (hv : v.Alike v')
    (hw : w.Alike w') : operator.apply v w = operator.apply v' w' := by
  cases hv <;> cases hw <;> rfl

namespace Language

variable {lang : Language}

theorem alike_boundValue (bound bound' : Expr) {v w : Value} (h : v.Alike w) :
    (boundValue bound v).Alike Eq RunError.forget (boundValue bound' w) := by
  cases h with
  | int n => exact .done rfl
  | _ => exact .failed rfl

mutual

/-- Evaluation is blind to positions if the evaluation of applied bodies is. -/
theorem alike_evalWith (hbody : Blind Value.Alike RunError.forget body)
    {scope scope' : Scope Value} (hscope : Scope.Related Value.Alike scope scope') (e e' : Expr)
    (h : e.same e' = true) :
    (lang.evalWith body scope e).Alike Value.Alike RunError.forget (lang.evalWith body scope' e') := by
  cases e with
  | int literal =>
    cases e' with
    | int literal' =>
      rw [evalWith, evalWith]
      refine ((alike_intLiteral h).mapError fun _ _ he => congrArg RunError.typing he).bind ?_
      rintro n _ rfl
      exact .done (.int n)
    | _ => cases h
  | real literal =>
    cases e' with
    | real literal' =>
      rw [evalWith, evalWith]
      refine ((alike_realLiteral h).mapError fun _ _ he => congrArg RunError.typing he).bind ?_
      rintro x _ rfl
      exact .done (.real x)
    | _ => cases h
  | var name =>
    cases e' with
    | var name' =>
      rw [evalWith, evalWith, Lexeme.text_eq_of_same h]
      exact .ofOption (hscope.get? _) (congrArg RunError.unbound (Lexeme.forget_eq_of_same h))
    | _ => cases h
  | range left right =>
    cases e' with
    | range left' right' =>
      obtain ⟨hleft, hright⟩ := Bool.and_eq_true_iff.1 h
      rw [evalWith, evalWith]
      refine (alike_evalWith hbody hscope left left' hleft).bind fun l l' hl => ?_
      refine (alike_boundValue left left' hl).bind ?_
      rintro lo _ rfl
      refine (alike_evalWith hbody hscope right right' hright).bind fun r r' hr => ?_
      refine (alike_boundValue right right' hr).bind ?_
      rintro hi _ rfl
      dsimp only
      split
      · exact .done (.seq .int (Value.Alike.refl_all _))
      · exact .failed rfl
    | _ => cases h
  | binary left op right =>
    cases e' with
    | binary left' op' right' =>
      obtain ⟨hleft, hright⟩ := Bool.and_eq_true_iff.1 h
      obtain ⟨hleft, hop⟩ := Bool.and_eq_true_iff.1 hleft
      have hforget := Lexeme.forget_eq_of_same hop
      have hunknown : (RunError.typing (.unknownOperator op)).forget =
          (RunError.typing (.unknownOperator op')).forget :=
        congrArg (fun op => RunError.typing (.unknownOperator op)) hforget
      have hcontext : ∀ e : RunError, (RunError.atOperator op e).forget =
          (RunError.atOperator op' e).forget :=
        fun e => congrArg (RunError.atOperator · _) hforget
      rw [evalWith, evalWith, Lexeme.text_eq_of_same hop]
      refine (alike_evalWith hbody hscope left left' hleft).bind fun l l' hl => ?_
      refine (alike_evalWith hbody hscope right right' hright).bind fun r r' hr => ?_
      refine (Alike.ofOption_refl _ hunknown).bind ?_
      rintro operator _ rfl
      rw [operator.apply_eq_of_alike hl hr]
      exact (Alike.mapError_refl _ hcontext).imp fun v _ hv => hv ▸ .refl v
    | _ => cases h
  | call function args =>
    cases e' with
    | call function' args' =>
      obtain ⟨hname, hargs⟩ := Bool.and_eq_true_iff.1 h
      have hforget := Lexeme.forget_eq_of_same hname
      have hunknown : (RunError.typing (.unknownFunction function)).forget =
          (RunError.typing (.unknownFunction function')).forget :=
        congrArg (fun name => RunError.typing (.unknownFunction name)) hforget
      rw [evalWith, evalWith, Lexeme.text_eq_of_same hname]
      refine (Alike.ofOption_refl _ hunknown).bind ?_
      rintro f _ rfl
      refine (alike_evalAllWith hbody hscope args args' hargs).bind fun vs ws hall => ?_
      exact (Builtin.alike_call hbody f hall).mapError fun e e' he =>
        congrArg₂ RunError.inFunction hforget he
    | _ => cases h
  | lambda params e =>
    cases e' with
    | lambda params' e' =>
      obtain ⟨hparams, he⟩ := Bool.and_eq_true_iff.1 h
      rw [evalWith, evalWith, Expr.texts_eq_of_sameLexemes hparams]
      exact .done (.lambda _ he hscope)
    | _ => cases h

theorem alike_evalAllWith (hbody : Blind Value.Alike RunError.forget body)
    {scope scope' : Scope Value} (hscope : Scope.Related Value.Alike scope scope') (es es' : List Expr)
    (h : Expr.sameAll es es' = true) :
    (lang.evalAllWith body scope es).Alike (List.Forall₂ Value.Alike)
      RunError.forget (lang.evalAllWith body scope' es') := by
  cases es with
  | nil =>
    cases es' with
    | nil =>
      rw [evalAllWith, evalAllWith]
      exact .done .nil
    | cons _ _ => cases h
  | cons e es =>
    cases es' with
    | nil => cases h
    | cons e' es' =>
      obtain ⟨he, hes⟩ := Bool.and_eq_true_iff.1 h
      rw [evalAllWith, evalAllWith]
      refine (alike_evalWith hbody hscope e e' he).bind fun v w hv => ?_
      exact (alike_evalAllWith hbody hscope es es' hes).bind fun vs ws hvs => .done (.cons hv hvs)

end

variable (lang)

theorem blind_evalAt (depth : Nat) :
    Blind Value.Alike RunError.forget (lang.evalAt depth) := by
  induction depth with
  | zero => exact fun hscope h => alike_evalWith (fun _ _ => .unfinished) hscope _ _ h
  | succ depth ih => exact fun hscope h => alike_evalWith ih hscope _ _ h

/-- The same line was printed, and what is bound after it is alike. -/
structure Effect.Alike (effect effect' : Effect) : Prop where
  globals : Scope.Related Value.Alike effect.globals effect'.globals
  line : effect.line = effect'.line

theorem alike_exec {globals globals' : Scope Value} (h : Scope.Related Value.Alike globals globals')
    {s s' : Stmt} (hs : s.same s' = true) :
    (lang.exec globals s).Alike Effect.Alike RunError.forget (lang.exec globals' s') := by
  cases s with
  | print text =>
    cases s' with
    | print text' => exact .done ⟨h, congrArg some (beq_iff_eq.1 hs)⟩
    | _ => cases hs
  | out value =>
    cases s' with
    | out value' =>
      rw [exec, exec]
      refine (lang.blind_evalAt lang.callDepth h hs).bind fun v w hv => ?_
      rw [hv.render_eq]
      refine (Alike.refl _).bind ?_
      rintro text _ rfl
      exact .done ⟨h, rfl⟩
    | _ => cases hs
  | declare name value =>
    cases s' with
    | declare name' value' =>
      obtain ⟨hname, hvalue⟩ := Bool.and_eq_true_iff.1 hs
      rw [exec, exec, Lexeme.text_eq_of_same hname, h.contains_eq]
      split
      · exact .failed (congrArg RunError.redeclared (Lexeme.forget_eq_of_same hname))
      · exact (lang.blind_evalAt lang.callDepth h hvalue).bind fun v w hv => .done ⟨.cons hv h, rfl⟩
    | _ => cases hs

end Language

end Evaluation

/-! ## Sessions -/

/-- The same names are declared, and their types and values are alike. -/
structure Session.Alike (s t : Session) : Prop where
  types : Scope.Related Ty.Alike s.types t.types
  values : Scope.Related Value.Alike s.values t.values

/-- The same lines were printed, and both ended in the same way, with errors that differ in positions only;
the sessions after it are alike. -/
structure Report.Alike (r r' : Report) : Prop where
  session : r.session.Alike r'.session
  lines : r.transcript.lines = r'.transcript.lines
  result : r.result.Alike Eq Error.forget r'.result

namespace Session

variable (lang : Language) {s t : Session}

theorem alike_step (h : s.Alike t) {stmt stmt' : Stmt} (hstmt : stmt.same stmt' = true) :
    (s.step lang stmt).1.Alike (t.step lang stmt').1 ∧
      (s.step lang stmt).2.1 = (t.step lang stmt').2.1 ∧
      (s.step lang stmt).2.2.Alike Eq Error.forget (t.step lang stmt').2.2 := by
  have hexec := lang.alike_exec h.values hstmt
  have hcheck := lang.alike_check h.types hstmt
  unfold step
  generalize lang.exec s.values stmt = x at hexec
  generalize lang.exec t.values stmt' = y at hexec
  generalize lang.check s.types stmt = x' at hcheck
  generalize lang.check t.types stmt' = y' at hcheck
  cases hexec with
  | failed he => exact ⟨h, rfl, .failed (congrArg Error.run he)⟩
  | unfinished => exact ⟨h, rfl, .unfinished⟩
  | done heffect =>
    have hlines := congrArg Option.toList heffect.line
    cases hcheck with
    | failed he => exact ⟨⟨h.types, heffect.globals⟩, hlines, .failed (congrArg Error.typing he)⟩
    | unfinished => exact ⟨⟨h.types, heffect.globals⟩, hlines, .unfinished⟩
    | done htypes => exact ⟨⟨htypes, heffect.globals⟩, hlines, .done rfl⟩

theorem alike_steps (h : s.Alike t) {p q : Program} (hpq : Program.same p q = true) :
    (steps lang s p).Alike (steps lang t q) := by
  induction p generalizing q s t with
  | nil =>
    cases q with
    | nil => exact ⟨h, rfl, .done rfl⟩
    | cons _ _ => cases hpq
  | cons stmt p ih =>
    cases q with
    | nil => cases hpq
    | cons stmt' q =>
      obtain ⟨hstmt, hpq⟩ := Bool.and_eq_true_iff.1 hpq
      obtain ⟨hsession, hlines, hresult⟩ := alike_step lang h hstmt
      rw [steps, steps]
      generalize s.step lang stmt = x at hsession hlines hresult
      generalize t.step lang stmt' = y at hsession hlines hresult
      obtain ⟨s', lines, x⟩ := x
      obtain ⟨t', lines', y⟩ := y
      dsimp only at hsession hlines hresult ⊢
      cases hresult with
      | done _ =>
        have hrest := ih hsession hpq
        refine ⟨hrest.session, ?_, hrest.result⟩
        dsimp only
        rw [Transcript.lines_append, Transcript.lines_append, hrest.lines]
        exact congrArg (· ++ _) hlines
      | failed he => exact ⟨hsession, congrArg (· ++ []) hlines, .failed he⟩
      | unfinished => exact ⟨hsession, hlines, .unfinished⟩

theorem alike_run (h : s.Alike t) {p q : Program} (hpq : Program.same p q = true) :
    (s.run lang p).Alike (t.run lang q) := by
  have hcheck : (s.check lang p).Alike Eq Error.forget (t.check lang q) :=
    (lang.alike_checkProgram h.types hpq).mapError fun e e' he => congrArg Error.typing he
  unfold run
  generalize s.check lang p = x at hcheck
  generalize t.check lang q = y at hcheck
  cases hcheck with
  | done _ => exact alike_steps lang h hpq
  | failed he => exact ⟨h, rfl, .failed he⟩
  | unfinished => exact ⟨h, rfl, .unfinished⟩

/-- Sessions that are alike stay alike, submission by submission. -/
theorem alike_history (h : s.Alike t) {ps qs : List Program}
    (hpq : List.Forall₂ (fun p q => Program.same p q = true) ps qs) :
    List.Forall₂ Report.Alike (s.reports lang (ps.map .program)) (t.reports lang (qs.map .program)) ∧
      (s.after lang (ps.map .program)).Alike (t.after lang (qs.map .program)) := by
  induction hpq generalizing s t with
  | nil => exact ⟨.nil, h⟩
  | cons hpq _ ih =>
    have hrun := alike_run lang h hpq
    obtain ⟨hreports, hafter⟩ := ih hrun.session
    exact ⟨.cons hrun hreports, hafter⟩

end Session

open Session

/-- Programs that are the same up to positions, handed to two fresh sessions in order, end in the same way
one by one: they print the same lines and succeed, fail or do not end together, with errors that differ in
positions only. In the end both sessions have the same names, and their values are alike. -/
theorem positions_irrelevant (lang : Language) {ps qs : List Program}
    (h : List.Forall₂ (fun p q => Program.same p q = true) ps qs) :
    List.Forall₂ Report.Alike (fresh.reports lang (ps.map .program))
        (fresh.reports lang (qs.map .program)) ∧
      (fresh.after lang (ps.map .program)).values.names =
        (fresh.after lang (qs.map .program)).values.names ∧
      Scope.Related Value.Alike (fresh.after lang (ps.map .program)).values
        (fresh.after lang (qs.map .program)).values := by
  have hfresh : fresh.Alike fresh := ⟨.nil, .nil⟩
  obtain ⟨hreports, hafter⟩ := alike_history lang hfresh h
  exact ⟨hreports, hafter.values.names_eq, hafter.values⟩

/-- A lambda with a captured number is declared, applied by a later submission, and then a division
fails: all at one position, and all at another. -/
theorem positions_irrelevant_elsewhere :
    let history (here : Position) : List Program := [
      [.declare ⟨"k", here⟩ (.int ⟨"2", here⟩),
        .declare ⟨"f", here⟩
          (.lambda [⟨"x", here⟩] (.binary (.var ⟨"x", here⟩) ⟨"+", here⟩ (.var ⟨"k", here⟩)))],
      [.out (.call ⟨"map", here⟩ [.range (.int ⟨"1", here⟩) (.int ⟨"3", here⟩), .var ⟨"f", here⟩]),
        .out (.binary (.var ⟨"k", here⟩) ⟨"/", here⟩ (.int ⟨"0", here⟩))]]
    let ps := history ⟨1, 1⟩
    let qs := history ⟨7, 7⟩
    let error (here : Position) : Error := .run (.atOperator ⟨"/", here⟩ .divisionByZero)
    List.Forall₂ (fun p q => Program.same p q = true) ps qs ∧
      (fresh.reports Language.standard (ps.map .program)).map (fun r => (r.transcript.lines, r.result)) =
        [([], .done ()), (["[3, 4, 5]"], .failed (error ⟨1, 1⟩))] ∧
      (fresh.reports Language.standard (qs.map .program)).map (fun r => (r.transcript.lines, r.result)) =
        [([], .done ()), (["[3, 4, 5]"], .failed (error ⟨7, 7⟩))] ∧
      List.Forall₂ Report.Alike (fresh.reports Language.standard (ps.map .program))
        (fresh.reports Language.standard (qs.map .program)) ∧
      Scope.Related Value.Alike (fresh.after Language.standard (ps.map .program)).values
        (fresh.after Language.standard (qs.map .program)).values := by
  intro history ps qs error
  have hsame : List.Forall₂ (fun p q => Program.same p q = true) ps qs :=
    .cons (by decide +kernel) (.cons (by decide +kernel) .nil)
  obtain ⟨hreports, -, hvalues⟩ := positions_irrelevant Language.standard hsame
  exact ⟨hsame, by decide +kernel, by decide +kernel, hreports, hvalues⟩

end RangeScript
