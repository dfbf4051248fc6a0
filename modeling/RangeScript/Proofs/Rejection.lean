import RangeScript.Proofs.Preservation

/-!
# What is rejected would fail

Typing and evaluation go through an expression on their own. Where there are no calls they meet the same
operands, bounds, operators and literals in the same order:

* `TypeError.Counterpart t e` : the error `e` of evaluation is about the same thing as the error `t` of
  typing. Shapes that are named may differ where nothing is known of the elements of a sequence;
* `RunError.isFault` : errors that depend on the numbers alone;
* `Outcome.Answers P x y` : `y` is a value for the type that `x` is, or a fault, or fails with the
  counterpart of the error of `x`.

So an expression without calls that has no type fails when it is evaluated all the same
(`rejected_expression_fails`).
-/

namespace RangeScript

/-- Whether no function is called in the expression. -/
def Expr.isCallFree : Expr → Bool
  | var _ | int _ | real _ => true
  | binary left _ right | range left right => left.isCallFree && right.isCallFree
  | call _ _ => false
  | lambda _ body => body.isCallFree

/-- Errors of numbers and ranges that are too large, outside of any function. -/
def RunError.isFault : RunError → Bool
  | .rangeTooLarge _ _ | .atOperator _ .divisionByZero | .atOperator _ (.overflow _) => true
  | _ => false

/-- The error of evaluation that is about the same literal, operator, name, bound or operands. -/
inductive TypeError.Counterpart : TypeError → RunError → Prop
  | literal (sort : NumberSort) (literal : Lexeme) :
    Counterpart (.invalidLiteral sort literal) (.typing (.invalidLiteral sort literal))
  | operator (op : Lexeme) : Counterpart (.unknownOperator op) (.typing (.unknownOperator op))
  | name (name : Lexeme) : Counterpart (.undeclared name) (.unbound name)
  | bound (pos : Position) {known found : Shape} :
    found.FilledBy known → Counterpart (.rangeBound pos known) (.rangeBound pos found)
  | operands (op : Lexeme) {left right left' right' : Shape} :
    left'.FilledBy left → right'.FilledBy right →
    Counterpart (.atOperator op (.operandTypes left right))
      (.atOperator op (.typing (.operandTypes left' right')))

/-! ## Outcomes side by side -/

namespace Outcome

variable {α α' β β' : Type}

/-- A value for a type, a fault, or the counterpart of an error about types. -/
def Answers (P : α → β → Prop) (x : Outcome TypeError β) : Outcome RunError α → Prop
  | done v => ∃ t, x = .done t ∧ P v t
  | failed e => e.isFault = true ∨ ∃ t, x = .failed t ∧ t.Counterpart e
  | unfinished => False

namespace Answers

variable {P : α → β → Prop} {Q : α' → β' → Prop}

theorem bind {x : Outcome TypeError β} {y : Outcome RunError α} {f : β → Outcome TypeError β'}
    {g : α → Outcome RunError α'} (h : Answers P x y)
    (hfg : ∀ v t, P v t → Answers Q (f t) (g v)) : Answers Q (x >>= f) (y >>= g) := by
  rcases y with v | e | _
  · obtain ⟨t, rfl, hv⟩ := h
    exact hfg v t hv
  · rcases h with hfault | ⟨t, rfl, ht⟩
    · exact .inl hfault
    · exact .inr ⟨t, rfl, ht⟩
  · exact h

theorem ofOption {x : Option α} {y : Option β} (h : Option.Rel P x y) {t : TypeError}
    {e : RunError} (ht : t.Counterpart e) : Answers P (ofOption t y) (ofOption e x) := by
  cases h with
  | some hab => exact ⟨_, rfl, hab⟩
  | none => exact .inr ⟨t, rfl, ht⟩

/-- The same computation on both sides, with errors that are kept as they are. -/
theorem typing {x : Except TypeError α}
    (hx : ∀ t, x = .error t → t.Counterpart (.typing t)) :
    Answers (fun _ _ => True) (ofExcept x) ((ofExcept x).mapError .typing) := by
  rcases x with t | a
  · exact .inr ⟨t, rfl, hx t rfl⟩
  · exact ⟨a, rfl, trivial⟩

/-- What has no type fails, with a fault or with the counterpart. -/
theorem of_failed {x : Outcome TypeError β} {y : Outcome RunError α} (h : Answers P x y)
    {t : TypeError} (hx : x = .failed t) :
    ∃ e, y = .failed e ∧ (e.isFault = true ∨ t.Counterpart e) := by
  subst hx
  rcases y with v | e | _
  · obtain ⟨t', ht', -⟩ := h
    cases ht'
  · refine ⟨e, rfl, h.imp_right ?_⟩
    rintro ⟨t', ht', hcounterpart⟩
    cases ht'
    exact hcounterpart
  · exact h.elim

/-- What has a type has a value for it, or there is a fault. -/
theorem of_done {x : Outcome TypeError β} {y : Outcome RunError α} (h : Answers P x y)
    {t : β} (hx : x = .done t) :
    (∃ v, y = .done v ∧ P v t) ∨ ∃ e, y = .failed e ∧ e.isFault = true := by
  subst hx
  rcases y with v | e | _
  · obtain ⟨t', ht', hv⟩ := h
    cases ht'
    exact .inl ⟨v, rfl, hv⟩
  · rcases h with hfault | ⟨t', ht', -⟩
    · exact .inr ⟨e, rfl, hfault⟩
    · cases ht'
  · exact h.elim

end Answers

end Outcome

/-! ## Operators -/

theorem Value.Inhabits.isNumeric_eq {v : Value} {t : Ty} (h : v.Inhabits t) :
    v.shape.isNumeric = t.shape.isNumeric := by
  cases h <;> rfl

namespace Operator

/-- Operands of given types, typed and applied: both go through the same rule. -/
theorem answers_apply (operator : Operator) {v w : Value} {t u : Ty} (hv : v.Inhabits t)
    (hw : w.Inhabits u) (op : Lexeme) :
    Outcome.Answers Value.Inhabits
      ((Outcome.ofExcept (operator.resultShape t.shape u.shape)).mapError (.atOperator op) >>=
        fun s => .done (.ofShape s))
      ((Outcome.ofExcept (operator.apply v w)).mapError (.atOperator op)) := by
  rcases hnumeric : (t.shape.isNumeric && u.shape.isNumeric) with _ | _
  · have hvalues : (v.shape.isNumeric && w.shape.isNumeric) = false := by
      rw [hv.isNumeric_eq, hw.isNumeric_eq, hnumeric]
    rw [operator.resultShape_eq_error hnumeric, operator.apply_eq_error hvalues]
    exact .inr ⟨_, rfl, .operands op hv.shape hw.shape⟩
  · obtain ⟨s, hs⟩ := operator.resultShape_eq_ok hnumeric
    have hsound := operator.preserves_apply hv hw op hs
    rw [hs]
    rcases happly : operator.apply v w with e | x
    · rw [happly] at hsound
      -- An error at an operator is a limit only if it is a fault.
      cases e <;> first | exact .inl rfl | cases hsound
    · rw [happly] at hsound
      exact ⟨_, rfl, hsound⟩

end Operator

/-! ## Expressions -/

namespace Language

variable {lang : Language}

theorem answers_bound (bound : Expr) {v : Value} {t : Ty} (hv : v.Inhabits t) :
    Outcome.Answers (fun _ _ => True) (boundTy bound t) (boundValue bound v) := by
  have hfound : v.shape.FilledBy t.shape := hv.shape
  cases hv with
  | int n => exact ⟨(), rfl, trivial⟩
  | _ => exact .inr ⟨_, rfl, .bound bound.pos hfound⟩

theorem counterpart_of_intLiteral {literal : Lexeme} {t : TypeError}
    (h : intLiteral literal = .error t) : t.Counterpart (.typing t) := by
  unfold intLiteral at h
  split at h
  · cases h
  · cases h
    exact .literal .int literal

theorem counterpart_of_realLiteral {literal : Lexeme} {t : TypeError}
    (h : realLiteral literal = .error t) : t.Counterpart (.typing t) := by
  unfold realLiteral at h
  split at h
  · cases h
  · cases h
    exact .literal .real literal

section With
variable {infer : Scope Ty → Expr → Outcome TypeError Ty}
  {eval : Scope Value → Expr → Outcome RunError Value} {values : Scope Value} {types : Scope Ty}

/-- By induction on the expression. Without calls no body of a lambda is entered, so `infer` and `eval`,
which stand for bodies, do not matter. -/
theorem answers_evalWith (hscope : Scope.Related Value.Inhabits values types) :
    (e : Expr) → e.Surface → e.isCallFree = true →
    Outcome.Answers Value.Inhabits (lang.inferWith infer types e) (lang.evalWith eval values e)
  | .int literal, _, _ => by
    rw [inferWith, evalWith]
    refine .bind (.typing fun t => counterpart_of_intLiteral) fun n _ _ => ?_
    exact ⟨.int, rfl, .int n⟩
  | .real literal, _, _ => by
    rw [inferWith, evalWith]
    refine .bind (.typing fun t => counterpart_of_realLiteral) fun x _ _ => ?_
    exact ⟨.real, rfl, .real x⟩
  | .var name, _, _ => by
    rw [inferWith, evalWith]
    exact .ofOption (hscope.get? name.text) (.name name)
  | .range left right, .range hleft hright, hcalls => by
    obtain ⟨hcl, hcr⟩ := Bool.and_eq_true_iff.1 hcalls
    rw [inferWith, evalWith]
    refine (answers_evalWith hscope left hleft hcl).bind fun l tl hl => ?_
    refine (answers_bound left hl).bind fun lo _ _ => ?_
    refine (answers_evalWith hscope right hright hcr).bind fun r tr hr => ?_
    refine (answers_bound right hr).bind fun hi _ _ => ?_
    dsimp only
    split
    · exact ⟨_, rfl, Value.inhabits_range lo hi⟩
    · exact .inl rfl
  | .binary left op right, .binary _ hleft hright, hcalls => by
    obtain ⟨hcl, hcr⟩ := Bool.and_eq_true_iff.1 hcalls
    have hsame : Option.Rel Eq (lang.operator? op.text) (lang.operator? op.text) := by
      cases lang.operator? op.text with
      | none => exact .none
      | some operator => exact .some rfl
    rw [inferWith, evalWith]
    refine (answers_evalWith hscope left hleft hcl).bind fun l tl hl => ?_
    refine (answers_evalWith hscope right hright hcr).bind fun r tr hr => ?_
    refine Outcome.Answers.bind (.ofOption hsame (.operator op)) ?_
    rintro operator _ rfl
    exact operator.answers_apply hl hr op

end With

theorem answers_eval {values : Scope Value} {types : Scope Ty}
    (hscope : Scope.Related Value.Inhabits values types) {e : Expr} (he : e.Surface)
    (hcalls : e.isCallFree = true) :
    Outcome.Answers Value.Inhabits (lang.infer types e) (lang.eval values e) := by
  unfold infer eval
  rcases lang.callDepth with _ | depth
  · exact answers_evalWith hscope e he hcalls
  · exact answers_evalWith hscope e he hcalls

end Language

namespace Session

/-- After any texts, an expression that can be read and calls no function: if it has no type, evaluating
it without a check fails as well, with a fault of its numbers or with the counterpart of the error about
types; and if it has a type, it has a value of this type, or there is such a fault. -/
theorem rejected_expression_fails (lang : Language) (texts : List String) (prec : Precedence)
    (stream : Token.Stream) (e : Expr) (hread : Parse.expression prec stream = .ok e)
    (hcalls : e.isCallFree = true) :
    let s := fresh.after lang (texts.map .source)
    (∀ t, lang.infer s.types e = .failed t →
      ∃ err, lang.eval s.values e = .failed err ∧ (err.isFault = true ∨ t.Counterpart err)) ∧
    ∀ t, lang.infer s.types e = .done t →
      (∃ v, lang.eval s.values e = .done v ∧ v.HasTy t) ∨
      ∃ err, lang.eval s.values e = .failed err ∧ err.isFault = true := by
  intro s
  have hs : s.Plain := plain_after plain_fresh texts
  have he : e.Surface := surface_of_expression hread
  have hanswers : Outcome.Answers Value.Inhabits (lang.infer s.types e) (lang.eval s.values e) :=
    Language.answers_eval hs.inhabited he hcalls
  constructor
  · intro t ht
    exact hanswers.of_failed ht
  · intro t ht
    refine (hanswers.of_done ht).imp_left ?_
    rintro ⟨v, hv, hinhabits⟩
    exact ⟨v, hv, hinhabits.hasTy (Language.isData_infer hs.isData he ht)⟩

/-- `xs` holds one empty sequence of sequences, so less is known of its elements when it is evaluated than
when it is typed. Adding it to a number is rejected, and would fail at the same operator. -/
theorem rejected_expression_fails_at_sum :
    let texts := ["var n = 0", "var xs = map({1, 1}, i -> map({1, n}, j -> {i, j}))"]
    let stream : Token.Stream :=
      ⟨[⟨.name, "n", ⟨1, 1⟩⟩, ⟨.plus, "+", ⟨1, 3⟩⟩, ⟨.name, "xs", ⟨1, 5⟩⟩], ⟨1, 7⟩⟩
    let e : Expr := .binary (.var ⟨"n", ⟨1, 1⟩⟩) ⟨"+", ⟨1, 3⟩⟩ (.var ⟨"xs", ⟨1, 5⟩⟩)
    let t : TypeError := .atOperator ⟨"+", ⟨1, 3⟩⟩ (.operandTypes .int (.seq (.seq (.seq .int))))
    Token.scan "n + xs" = .ok stream ∧ Parse.expression .standard stream = .ok e ∧
      e.isCallFree = true ∧
      Language.standard.infer (fresh.after .standard (texts.map .source)).types e = .failed t ∧
      ∃ err, Language.standard.eval (fresh.after .standard (texts.map .source)).values e =
        .failed err ∧ (err.isFault = true ∨ t.Counterpart err) := by
  intro texts stream e t
  have hread : Parse.expression .standard stream = .ok e := by decide +kernel
  have htype : Language.standard.infer (fresh.after .standard (texts.map .source)).types e =
      .failed t := by
    decide +kernel
  obtain ⟨hfails, -⟩ := rejected_expression_fails .standard texts .standard stream e hread rfl
  exact ⟨by decide +kernel, hread, rfl, htype, hfails t htype⟩

end Session

end RangeScript
