import RangeScript.Proofs.ExactArithmetic
import RangeScript.Proofs.SurfaceTyping

/-!
# Evaluation is exact up to the first step that does not fit

* `Expr.isWhole e` : there is no literal of a real number and no power in `e`;
* `Value.Denotes v x` : the value `v` is the exact value `x`, number by number;
* `Outcome.Follows limit R x y` : all steps of the exact computation `y` fit and `x` ends as `y` does, with related
  values or the same error; or `x` failed with the error of the first step of `y` that does not fit.

Evaluation of whole expressions follows exact evaluation, in scopes that denote each other, whatever the bound on
active applications (`Language.follows_evalAt`). No typing is needed for that, and lambdas may be anywhere.
-/

namespace RangeScript

/-! ## Expressions without real numbers -/

mutual

/-- No literal of a real number and no power. -/
def Expr.isWhole : Expr → Bool
  | var _ | int _ => true
  | real _ => false
  | binary left op right => op.text != "^" && left.isWhole && right.isWhole
  | range left right => left.isWhole && right.isWhole
  | call _ args => areWhole args
  | lambda _ body => body.isWhole

def Expr.areWhole : List Expr → Bool
  | [] => true
  | e :: es => e.isWhole && areWhole es

end

def Stmt.isWhole : Stmt → Bool
  | declare _ value | out value => value.isWhole
  | print _ => true

/-- With the standard operators, only the symbol `^` stands for powers. -/
theorem Language.ne_pow_of_operator? {lang : Language} (hops : lang.operators = standardOperators)
    {symbol : String} (hsymbol : (symbol != "^") = true) {operator : Operator}
    (h : lang.operator? symbol = some operator) : operator ≠ .pow := by
  rintro rfl
  unfold operator? at h
  rw [hops] at h
  have hmem : (symbol, Operator.pow) ∈ standardOperators := Scope.mem_of_get? h
  have heq : symbol = "^" := by simpa [standardOperators, Operator.all, Operator.symbol] using hmem
  rw [heq] at hsymbol
  cases hsymbol

/-! ## Values -/

/-- The value is the exact one, number by number; the same is noted with sequences, and lambdas are the same lambdas
in such scopes. -/
inductive Value.Denotes : Value → ExactValue → Prop
  | int (n : Int64) : Denotes (.int n) (.int n.toInt)
  | seq {vs : List Value} {xs : List ExactValue} (noted : Shape) :
    List.Forall₂ Denotes vs xs → Denotes (.seq vs noted) (.seq xs noted)
  | lambda {values : Scope Value} {exact : Scope ExactValue} {body : Expr} (params : List String) :
    body.isWhole = true → Scope.Related Denotes values exact →
    Denotes (.lambda ⟨params, body, values⟩) (.lambda ⟨params, body, exact⟩)

namespace Value

theorem Denotes.of_toInt {n : Int64} {m : Int} (h : n.toInt = m) : Denotes (.int n) (.int m) := h ▸ .int n

theorem Denotes.shape_eq {v : Value} {x : ExactValue} (h : v.Denotes x) : v.shape = x.shape := by
  cases h <;> rfl

theorem denotes_seqOf {vs : List Value} {xs : List ExactValue} (h : List.Forall₂ Denotes vs xs) :
    (Builtin.seqOf vs).Denotes (Builtin.exactSeqOf xs) := by
  have hnoted : (vs.head?.map Value.shape).getD .nothing =
      (xs.head?.map ExactValue.shape).getD .nothing := by
    cases h with
    | nil => rfl
    | cons hv _ => exact hv.shape_eq
  unfold Builtin.seqOf Builtin.exactSeqOf
  rw [hnoted]
  exact .seq _ h

end Value

/-! ## Numbers -/

namespace Whole

theorem ofInt?_of_fits {n : Int} (h : fits n = true) : ∃ m : Int64, ofInt? n = some m ∧ m.toInt = n := by
  have hrange := of_decide_eq_true h
  refine ⟨Int64.ofInt n, if_pos hrange, ?_⟩
  exact Int64.toInt_ofInt_of_le (by omega) (by omega)

theorem ofInt?_of_not_fits {n : Int} (h : fits n = false) : ofInt? n = none :=
  if_neg (of_decide_eq_false h)

theorem ofText?_eq (s : String) : ofText? s = (exactOfText? s).bind ofInt? := by
  unfold ofText? exactOfText?
  dsimp only
  cases natOfDigits? (splitSign s.toList).2 <;> rfl

end Whole

theorem Value.denotes_range (lo hi : Int64) :
    (Value.seq (Value.range lo hi) .int).Denotes (.seq (ExactValue.range lo.toInt hi.toInt) .int) := by
  refine .seq _ ?_
  unfold Value.range ExactValue.range Value.rangeLength
  rw [List.forall₂_map_left_iff, List.forall₂_map_right_iff, List.forall₂_same]
  intro i hi'
  have hlt := List.mem_range.1 hi'
  have hlo := lo.le_toInt
  have hhi := hi.toInt_lt
  exact .of_toInt (Int64.toInt_ofInt_of_le (by omega) (by omega))

/-- The result of an operator that is no power and does not divide by zero. -/
theorem Operator.onInts_eq (operator : Operator) (hpow : operator ≠ .pow) (a b : Int64)
    (hzero : ¬ (operator = .div ∧ b.toInt = 0)) :
    operator.onInts a b = (Whole.ofInt? (operator.exact a.toInt b.toInt)).elim
      (.error (.overflow operator.symbol)) fun n => .ok (.int n) := by
  cases operator with
  | add =>
    show _ = (Whole.add? a b).elim _ _
    unfold onInts
    cases Whole.add? a b <;> rfl
  | sub =>
    show _ = (Whole.sub? a b).elim _ _
    unfold onInts
    cases Whole.sub? a b <;> rfl
  | mul =>
    show _ = (Whole.mul? a b).elim _ _
    unfold onInts
    cases Whole.mul? a b <;> rfl
  | div =>
    have hb : b ≠ 0 := by
      rintro rfl
      exact hzero ⟨rfl, rfl⟩
    show _ = (Whole.div? a b).elim _ _
    unfold onInts
    dsimp only
    rw [if_neg hb]
    cases Whole.div? a b <;> rfl
  | pow => exact absurd rfl hpow

/-! ## Computations that follow an exact one -/

/-- Errors of results that are too large, in operators and functions. -/
def RunError.isTooLarge : RunError → Bool
  | rangeTooLarge _ _ | overflow _ => true
  | atOperator _ cause | inFunction _ cause => cause.isTooLarge
  | _ => false

namespace Outcome

variable {α β α' β' : Type}

/-- Both end in the same way, with related values or the same error; and nothing is too large. -/
inductive Matches (R : α → β → Prop) : Outcome RunError α → Outcome RunError β → Prop
  | done {a : α} {b : β} : R a b → Matches R (.done a) (.done b)
  | failed {e : RunError} : e.isTooLarge = false → Matches R (.failed e) (.failed e)
  | unfinished : Matches R .unfinished .unfinished

/-- The outcome of a computation that has limits, by the same computation without them. -/
inductive Follows (limit : Nat) (R : α → β → Prop) (x : Outcome RunError α) (y : ExactRun β) : Prop
  | stopped (before : List ExactEvent) (ev : ExactEvent) (after : List ExactEvent) :
    y.events = before ++ ev :: after → (∀ b ∈ before, b.step.fits limit = true) →
    ev.step.fits limit = false → x = .failed ev.error → Follows limit R x y
  | matched : (∀ ev ∈ y.events, ev.step.fits limit = true) → Matches R x y.outcome → Follows limit R x y

theorem Matches.mapError {R : α → β → Prop} {x : Outcome RunError α} {y : Outcome RunError β}
    (h : Matches R x y) (name : Lexeme) :
    Matches R (x.mapError (.inFunction name)) (y.mapError (.inFunction name)) := by
  cases h with
  | done hab => exact .done hab
  | failed he => exact .failed he
  | unfinished => exact .unfinished

namespace Follows

variable {limit : Nat} {R : α → β → Prop} {S : α' → β' → Prop} {x : Outcome RunError α} {y : ExactRun β}

theorem of {z : Outcome RunError β} (h : Matches R x z) : Follows limit R x (.of z) :=
  .matched (by simp [ExactRun.of]) h

theorem pure {a : α} {b : β} (h : R a b) : Follows limit R (.done a) (Pure.pure b) := .of (.done h)

theorem failed {e : RunError} (he : e.isTooLarge = false) :
    Follows limit R (.failed e) (.of (.failed e)) := .of (.failed he)

theorem bind {f : α → Outcome RunError α'} {g : β → ExactRun β'} (h : Follows limit R x y)
    (hfg : ∀ a b, R a b → Follows limit S (f a) (g b)) : Follows limit S (x >>= f) (y >>= g) := by
  cases h with
  | stopped before ev after hevents hbefore hev hx =>
    obtain ⟨more, hmore⟩ := y.events_bind g
    refine .stopped before ev (after ++ more) ?_ hbefore hev ?_
    · rw [hmore, hevents, List.append_assoc, List.cons_append]
    · rw [hx, failed_bind]
  | matched hfits hmatch =>
    obtain ⟨events, outcome⟩ := y
    dsimp only at hfits hmatch
    cases hmatch with
    | @done a b hab =>
      rw [done_bind, ExactRun.mk_done_bind]
      cases hfg a b hab with
      | stopped before ev after hevents hbefore hev hx =>
        refine .stopped (events ++ before) ev after ?_ (List.forall_mem_append.2 ⟨hfits, hbefore⟩) hev hx
        dsimp only
        rw [hevents, List.append_assoc]
      | matched hfits' hmatch =>
        exact .matched (List.forall_mem_append.2 ⟨hfits, hfits'⟩) hmatch
    | failed he => exact .matched hfits (.failed he)
    | unfinished => exact .matched hfits .unfinished

/-- A step is taken where its result fits, and the computation stops where it does not. -/
theorem note {step : ExactStep} (hfits : step.fits limit = true → Follows limit R x y)
    (herror : step.fits limit = false → x = .failed step.error) :
    Follows limit R x (ExactRun.note step >>= fun _ => y) := by
  cases hstep : step.fits limit with
  | false => exact .stopped [] ⟨[], step⟩ y.events rfl (by simp) hstep (herror hstep)
  | true =>
    cases hfits hstep with
    | stopped before ev after hevents hbefore hev hx =>
      refine .stopped (⟨[], step⟩ :: before) ev after ?_ (List.forall_mem_cons.2 ⟨hstep, hbefore⟩) hev hx
      show _ :: y.events = _
      rw [hevents, List.cons_append]
    | matched hfits hmatch => exact .matched (List.forall_mem_cons.2 ⟨hstep, hfits⟩) hmatch

theorem inFunction (h : Follows limit R x y) (name : Lexeme) :
    Follows limit R (x.mapError (.inFunction name)) (y.inFunction name) := by
  cases h with
  | stopped before ev after hevents hbefore hev hx =>
    refine .stopped (before.map fun ev => { ev with functions := name :: ev.functions })
      { ev with functions := name :: ev.functions }
      (after.map fun ev => { ev with functions := name :: ev.functions }) ?_ ?_ hev ?_
    · rw [ExactRun.inFunction, hevents, List.map_append, List.map_cons]
    · exact List.forall_mem_map.2 hbefore
    · rw [hx]
      rfl
  | matched hfits hmatch => exact .matched (List.forall_mem_map.2 hfits) (hmatch.mapError name)

theorem mapM {f : α → Outcome RunError α'} {g : β → ExactRun β'} {as : List α} {bs : List β}
    (h : List.Forall₂ R as bs) (hfg : ∀ a b, R a b → Follows limit S (f a) (g b)) :
    Follows limit (List.Forall₂ S) (as.mapM f) (bs.mapM g) := by
  induction h with
  | nil =>
    rw [List.mapM_nil, List.mapM_nil]
    exact .pure .nil
  | cons hab _ ih =>
    rw [List.mapM_cons, List.mapM_cons]
    exact (hfg _ _ hab).bind fun a' b' hab' => ih.bind fun as' bs' hall => .pure (.cons hab' hall)

theorem foldlM {f : α' → α → Outcome RunError α'} {g : β' → β → ExactRun β'} {as : List α} {bs : List β}
    {a' : α'} {b' : β'} (h : List.Forall₂ R as bs) (hinitial : S a' b')
    (hfg : ∀ a' b' a b, S a' b' → R a b → Follows limit S (f a' a) (g b' b)) :
    Follows limit S (as.foldlM f a') (bs.foldlM g b') := by
  induction h generalizing a' b' with
  | nil => exact .pure hinitial
  | cons hab _ ih =>
    rw [List.foldlM_cons, List.foldlM_cons]
    exact (hfg _ _ _ _ hinitial hab).bind fun a' b' hacc => ih hacc

theorem ofOption {u : Option α} {w : Option β} {e : RunError} (h : Option.Rel R u w)
    (he : e.isTooLarge = false) : Follows limit R (ofOption e u) (.of (ofOption e w)) := by
  cases h with
  | some hab => exact .of (.done hab)
  | none => exact .of (.failed he)

end Follows

end Outcome

open Outcome

/-! ## Functions -/

/-- In scopes that denote each other, the second is the exact evaluation of whole expressions for the first. -/
def Simulates (limit : Nat) (eval : Scope Value → Expr → Outcome RunError Value)
    (exact : Scope ExactValue → Expr → ExactRun ExactValue) : Prop :=
  ∀ values globals e, Scope.Related Value.Denotes values globals → e.isWhole = true →
    (eval values e).Follows limit Value.Denotes (exact globals e)

section Inside
variable {limit : Nat} {eval : Scope Value → Expr → Outcome RunError Value}
  {exact : Scope ExactValue → Expr → ExactRun ExactValue}

namespace Builtin

variable {v : Value} {x : ExactValue}

theorem follows_seqArg (index : Nat) (h : v.Denotes x) :
    (ofExcept (seqArg index v)).Follows limit (List.Forall₂ Value.Denotes)
      (.of (ofExcept (exactSeqArg index x))) := by
  cases h with
  | int n => exact .failed rfl
  | seq noted hall => exact .pure hall
  | lambda params _ _ => exact .failed rfl

theorem follows_lambdaArg (index arity : Nat) (h : v.Denotes x) :
    (ofExcept (lambdaArg index arity v)).Follows limit
      (fun c c' => (Value.lambda c).Denotes (.lambda c')) (.of (ofExcept (exactLambdaArg index arity x))) := by
  cases h with
  | int n => exact .failed rfl
  | seq noted _ => exact .failed rfl
  | @lambda values exact body params hbody hscope =>
    by_cases harity : params.length = arity
    · have hleft : lambdaArg index arity (.lambda ⟨params, body, values⟩) = .ok ⟨params, body, values⟩ :=
        if_pos harity
      have hright : exactLambdaArg index arity (.lambda ⟨params, body, exact⟩) = .ok ⟨params, body, exact⟩ :=
        if_pos harity
      rw [hleft, hright]
      exact .pure (.lambda params hbody hscope)
    · have hleft : lambdaArg index arity (.lambda ⟨params, body, values⟩) =
          .error (.typing (.lambdaArity index arity params.length)) := if_neg harity
      have hright : exactLambdaArg index arity (.lambda ⟨params, body, exact⟩) =
          .error (.typing (.lambdaArity index arity params.length)) := if_neg harity
      rw [hleft, hright]
      exact .failed rfl

theorem follows_initialArg (index : Nat) (h : v.Denotes x) :
    (ofExcept (initialArg index v)).Follows limit (fun _ _ => True)
      (.of (ofExcept (exactInitialArg index x))) := by
  cases h with
  | int n => exact .pure trivial
  | seq noted _ => exact .pure trivial
  | lambda params _ _ => exact .failed rfl

/-- One lambda, applied to arguments that denote each other. -/
theorem simulates_apply (hbody : Simulates limit eval exact) {c : Closure Value}
    {c' : Closure ExactValue} (hc : (Value.lambda c).Denotes (.lambda c')) {args : List Value}
    {xs : List ExactValue} (hargs : List.Forall₂ Value.Denotes args xs) :
    (applyClosure eval c args).Follows limit Value.Denotes (exact (c'.enter xs) c'.body) := by
  cases hc with
  | lambda params hwhole hscope => exact hbody _ _ _ (hscope.enter hargs params _) hwhole

theorem follows_wrongCount (f : Builtin) {args : List Value} {xs : List ExactValue}
    (h : List.Forall₂ Value.Denotes args xs) :
    Follows limit Value.Denotes (.failed (.typing (f.wrongCount args.length)))
      (.of (.failed (.typing (f.wrongCount xs.length)))) := by
  rw [h.length_eq]
  exact .failed rfl

theorem follows_map (hbody : Simulates limit eval exact) {w : Value} {y : ExactValue} (hs : v.Denotes x)
    (hf : w.Denotes y) :
    (map.call eval [v, w]).Follows limit Value.Denotes (map.exactCall exact [x, y]) := by
  refine (follows_seqArg 1 hs).bind fun elements xs hall => ?_
  refine (follows_lambdaArg 2 1 hf).bind fun c c' hc => ?_
  refine (Follows.mapM hall fun v x hv => ?_).bind fun results xs hresults => .pure (Value.denotes_seqOf hresults)
  exact simulates_apply hbody hc (.cons hv .nil)

theorem follows_reduce (hbody : Simulates limit eval exact) {u w : Value} {z y : ExactValue}
    (hs : v.Denotes x) (hinitial : u.Denotes z) (hf : w.Denotes y) :
    (reduce.call eval [v, u, w]).Follows limit Value.Denotes (reduce.exactCall exact [x, z, y]) := by
  refine (follows_seqArg 1 hs).bind fun elements xs hall => ?_
  refine (follows_initialArg 2 hinitial).bind fun _ _ _ => ?_
  refine (follows_lambdaArg 3 2 hf).bind fun c c' hc => ?_
  refine Follows.foldlM hall hinitial fun acc acc' v x hacc hv => ?_
  exact simulates_apply hbody hc (.cons hacc (.cons hv .nil))

/-- The cases are those of the number of arguments. -/
theorem follows_call (hbody : Simulates limit eval exact) (f : Builtin) {args : List Value}
    {xs : List ExactValue} (h : List.Forall₂ Value.Denotes args xs) :
    (f.call eval args).Follows limit Value.Denotes (f.exactCall exact xs) := by
  cases f with
  | map =>
    rcases h with _ | ⟨hs, _ | ⟨hf, _ | ⟨hmore, hrest⟩⟩⟩
    · exact follows_wrongCount map .nil
    · exact follows_wrongCount map (.cons hs .nil)
    · exact follows_map hbody hs hf
    · exact follows_wrongCount map (.cons hs (.cons hf (.cons hmore hrest)))
  | reduce =>
    rcases h with _ | ⟨hs, _ | ⟨hinitial, _ | ⟨hf, _ | ⟨hmore, hrest⟩⟩⟩⟩
    · exact follows_wrongCount reduce .nil
    · exact follows_wrongCount reduce (.cons hs .nil)
    · exact follows_wrongCount reduce (.cons hs (.cons hinitial .nil))
    · exact follows_reduce hbody hs hinitial hf
    · exact follows_wrongCount reduce (.cons hs (.cons hinitial (.cons hf (.cons hmore hrest))))

end Builtin

/-! ## Expressions -/

namespace Language

variable {lang : Language} {values : Scope Value} {globals : Scope ExactValue}

/-- The result of an operator on whole numbers is exact, or it does not fit. -/
theorem follows_onInts (op : Lexeme) (operator : Operator) (hpow : operator ≠ .pow) (a b : Int64) :
    ((ofExcept (operator.onInts a b)).mapError (.atOperator op)).Follows limit Value.Denotes
      (exactApply op operator (.int a.toInt) (.int b.toInt)) := by
  unfold exactApply
  dsimp only
  rw [if_neg hpow]
  by_cases hzero : operator = .div ∧ b.toInt = 0
  · rw [if_pos hzero]
    obtain ⟨rfl, hb⟩ := hzero
    have hb : b = 0 := Int64.toInt_inj.1 hb
    rw [Operator.onInts, if_pos hb]
    exact .failed rfl
  · rw [if_neg hzero, operator.onInts_eq hpow a b hzero]
    refine .note (fun hfits => ?_) fun hunfit => ?_
    · obtain ⟨n, hn, hvalue⟩ := Whole.ofInt?_of_fits hfits
      rw [hn]
      exact .pure (.of_toInt hvalue)
    · rw [Whole.ofInt?_of_not_fits hunfit]
      rfl

theorem follows_apply (op : Lexeme) (operator : Operator) (hpow : operator ≠ .pow) {v w : Value}
    {x y : ExactValue} (hv : v.Denotes x) (hw : w.Denotes y) :
    ((ofExcept (operator.apply v w)).mapError (.atOperator op)).Follows limit Value.Denotes
      (exactApply op operator x y) := by
  cases hv with
  | int a =>
    cases hw with
    | int b => exact follows_onInts op operator hpow a b
    | seq _ _ => exact .failed rfl
    | lambda _ _ _ => exact .failed rfl
  | seq _ _ =>
    cases hw with
    | int _ => exact .failed rfl
    | seq _ _ => exact .failed rfl
    | lambda _ _ _ => exact .failed rfl
  | lambda _ _ _ =>
    cases hw with
    | int _ => exact .failed rfl
    | seq _ _ => exact .failed rfl
    | lambda _ _ _ => exact .failed rfl

theorem follows_bound (bound : Expr) {v : Value} {x : ExactValue} (h : v.Denotes x) :
    (boundValue bound v).Follows limit (fun n m => n.toInt = m) (exactBound bound x) := by
  cases h with
  | int n => exact .pure rfl
  | seq _ _ => exact .failed rfl
  | lambda _ _ _ => exact .failed rfl

theorem follows_intLiteral (literal : Lexeme) :
    ((ofExcept (intLiteral literal)).mapError .typing >>= fun n => .done (.int n)).Follows limit
      Value.Denotes (lang.exactEvalWith exact globals (.int literal)) := by
  rw [exactEvalWith, intLiteral, Whole.ofText?_eq]
  rcases Whole.exactOfText? literal.text with _ | n
  · exact .failed rfl
  · show Follows _ _ _ (ExactRun.note (.literal literal n) >>= fun _ => Pure.pure (ExactValue.int n))
    refine .note (fun hfits => ?_) fun hunfit => ?_
    · obtain ⟨m, hm, hvalue⟩ := Whole.ofInt?_of_fits hfits
      rw [Option.bind_some, hm]
      exact .pure (.of_toInt hvalue)
    · rw [Option.bind_some, Whole.ofInt?_of_not_fits hunfit]
      rfl

mutual

/-- Whole expressions, by induction on them: both evaluations take the same steps in the same order. -/
theorem follows_evalWith (hops : lang.operators = standardOperators)
    (hbody : Simulates lang.rangeLimit eval exact) (hscope : Scope.Related Value.Denotes values globals) :
    (e : Expr) → e.isWhole = true →
    (lang.evalWith eval values e).Follows lang.rangeLimit Value.Denotes (lang.exactEvalWith exact globals e)
  | .int literal, _ => by
    rw [evalWith]
    exact follows_intLiteral literal
  | .real literal, h => by
    rw [Expr.isWhole] at h
    cases h
  | .var name, _ => by
    rw [evalWith, exactEvalWith]
    exact .ofOption (hscope.get? name.text) rfl
  | .range left right, h => by
    rw [Expr.isWhole, Bool.and_eq_true] at h
    rw [evalWith, exactEvalWith]
    refine (follows_evalWith hops hbody hscope left h.1).bind fun l l' hl => ?_
    refine (follows_bound left hl).bind fun lo lo' hlo => ?_
    refine (follows_evalWith hops hbody hscope right h.2).bind fun r r' hr => ?_
    refine (follows_bound right hr).bind fun hi hi' hhi => ?_
    subst hlo hhi
    dsimp only
    refine .note (fun hfits => ?_) fun hunfit => ?_
    · have hlength : Value.rangeLength lo hi ≤ lang.rangeLimit := of_decide_eq_true hfits
      rw [if_pos hlength]
      exact .pure (Value.denotes_range lo hi)
    · have hlength : ¬ Value.rangeLength lo hi ≤ lang.rangeLimit := of_decide_eq_false hunfit
      rw [if_neg hlength]
      rfl
  | .binary left op right, h => by
    rw [Expr.isWhole, Bool.and_eq_true, Bool.and_eq_true] at h
    rw [evalWith, exactEvalWith]
    refine (follows_evalWith hops hbody hscope left h.1.2).bind fun l l' hl => ?_
    refine (follows_evalWith hops hbody hscope right h.2).bind fun r r' hr => ?_
    rcases hoperator : lang.operator? op.text with _ | operator
    · exact .failed rfl
    · exact follows_apply op operator (ne_pow_of_operator? hops h.1.1 hoperator) hl hr
  | .call function args, h => by
    rw [Expr.isWhole] at h
    rw [evalWith, exactEvalWith]
    rcases lang.function? function.text with _ | f
    · exact .failed rfl
    · refine (follows_evalAllWith hops hbody hscope args h).bind fun vs xs hall => ?_
      exact (f.follows_call hbody hall).inFunction function
  | .lambda params e, h => by
    rw [Expr.isWhole] at h
    rw [evalWith, exactEvalWith]
    exact .pure (.lambda _ h hscope)

theorem follows_evalAllWith (hops : lang.operators = standardOperators)
    (hbody : Simulates lang.rangeLimit eval exact) (hscope : Scope.Related Value.Denotes values globals) :
    (es : List Expr) → Expr.areWhole es = true →
    (lang.evalAllWith eval values es).Follows lang.rangeLimit (List.Forall₂ Value.Denotes)
      (lang.exactEvalAllWith exact globals es)
  | [], _ => by
    rw [evalAllWith, exactEvalAllWith]
    exact .pure .nil
  | e :: es, h => by
    rw [Expr.areWhole, Bool.and_eq_true] at h
    rw [evalAllWith, exactEvalAllWith]
    refine (follows_evalWith hops hbody hscope e h.1).bind fun v x hv => ?_
    refine (follows_evalAllWith hops hbody hscope es h.2).bind fun vs xs hall => ?_
    exact .pure (.cons hv hall)

end

end Language

end Inside

/-- Evaluation simulates exact evaluation for each bound on active applications. -/
theorem Language.follows_evalAt {lang : Language} (hops : lang.operators = standardOperators) (depth : Nat) :
    Simulates lang.rangeLimit (lang.evalAt depth) (lang.exactEvalAt depth) := by
  induction depth with
  | zero =>
    intro values globals e hscope he
    exact follows_evalWith hops (fun _ _ _ _ _ => .of .unfinished) hscope e he
  | succ depth ih =>
    intro values globals e hscope he
    exact follows_evalWith hops ih hscope e he

/-! ## Texts -/

namespace Value

mutual

/-- The text of a value is that of the exact value. -/
theorem renderAfter_of_denotes :
    (v : Value) → {x : ExactValue} → v.Denotes x → (before : String) →
    v.renderAfter before = x.render.map (before ++ ·)
  | .int n, _, .int _, before => by
    rw [renderAfter, ExactValue.render]
    rfl
  | .seq vs _, _, @Denotes.seq _ xs _ hall, before => by
    rw [renderAfter, ExactValue.render, renderAllAfter_of_denotes vs hall]
    rcases ExactValue.renderAll "" xs with e | text
    · rfl
    · exact congrArg Except.ok String.append_assoc
  | .lambda _, _, .lambda _ _ _, before => by
    rw [renderAfter, ExactValue.render]
    rfl

theorem renderAllAfter_of_denotes :
    (vs : List Value) → {xs : List ExactValue} → List.Forall₂ Denotes vs xs → (before separator : String) →
    renderAllAfter before separator vs = (ExactValue.renderAll separator xs).map (before ++ ·)
  | [], _, .nil, before, separator => by
    rw [renderAllAfter, ExactValue.renderAll]
    rfl
  | v :: vs, _, @List.Forall₂.cons _ _ _ _ x _ xs hv hvs, before, separator => by
    rw [renderAllAfter, ExactValue.renderAll, renderAfter_of_denotes v hv]
    rcases x.render with e | text
    · rfl
    · show renderAllAfter (before ++ separator ++ text) ", " vs = _
      rw [renderAllAfter_of_denotes vs hvs]
      rcases ExactValue.renderAll ", " xs with e | rest
      · rfl
      · simp [Except.map, bind, Except.bind, pure, Except.pure, String.append_assoc]

end

theorem Denotes.render_eq {v : Value} {x : ExactValue} (h : v.Denotes x) : v.render = x.render := by
  rw [render, renderAfter_of_denotes v h]
  rcases x.render with e | text
  · rfl
  · simp [Except.map]

end Value

end RangeScript
