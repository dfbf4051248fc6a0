import RangeScript.Proofs.PrecedenceTree
import RangeScript.Proofs.Recursion

/-!
# The type of a chain does not depend on precedence

* `Ty.number isReal` : the type of whole numbers, or that of real ones;
* `Language.joinTy lang op l r` : the type of two operands of the types `l` and `r`, joined by `op`.

Tables that know the operators of a chain fold it into trees that may have nothing in common but their terms
and operators, read from left to right (`Precedence.exists_joined`). Joining makes a real number of numbers
exactly if one of them is real or the operator is a power (`joinTy_number`), and it takes nothing but numbers
(`isNumeric_of_joinTy`). By induction on the tree its type is told by its terms and operators alone
(`infer_of_numbers`), and a term that is no number has the whole rejected (`isNumeric_of_infer`). So every
table gives a chain the same type (`precedence_keeps_types`).
-/

namespace RangeScript

/-- The type of whole numbers, or that of real ones. -/
def Ty.number (isReal : Bool) : Ty := if isReal then .real else .int

theorem Ty.number_eq_real_iff {isReal : Bool} : number isReal = .real ↔ isReal = true := by
  cases isReal <;> simp [number]

theorem Ty.ofShape_shape_number (isReal : Bool) : ofShape (number isReal).shape = number isReal := by
  cases isReal <;> rfl

/-- A power is real, and every other operator makes a real number of numbers of which one is real. -/
theorem Operator.resultShape_number (operator : Operator) (a b : Bool) :
    operator.resultShape (Ty.number a).shape (Ty.number b).shape =
      .ok (Ty.number (a || b || operator == .pow)).shape := by
  cases operator <;> cases a <;> cases b <;> rfl

namespace Language

/-! ## Joining two operands -/

/-- The type of two operands joined by an operator. -/
def joinTy (lang : Language) (op : Lexeme) (l r : Ty) : Outcome TypeError Ty := do
  let operator ← .ofOption (.unknownOperator op) (lang.operator? op.text)
  let shape ← (Outcome.ofExcept (operator.resultShape l.shape r.shape)).mapError (.atOperator op)
  return .ofShape shape

theorem infer_binary (lang : Language) (scope : Scope Ty) (left : Expr) (op : Lexeme) (right : Expr) :
    lang.infer scope (.binary left op right) =
      lang.infer scope left >>= fun l => lang.infer scope right >>= fun r => lang.joinTy op l r := by
  obtain ⟨body, hbody⟩ := lang.exists_infer_eq
  rw [hbody, inferWith]
  rfl

/-- The standard operators, of which one is the power. -/
theorem exists_operator_of_mem {lang : Language} (hlang : lang.operators = standardOperators)
    {symbol : String} (h : symbol ∈ ["+", "-", "*", "/", "^"]) :
    ∃ operator, lang.operator? symbol = some operator ∧ (operator == .pow) = (symbol == "^") := by
  unfold operator?
  rw [hlang]
  simp only [List.mem_cons, List.not_mem_nil, or_false] at h
  rcases h with rfl | rfl | rfl | rfl | rfl
  · exact ⟨.add, rfl, rfl⟩
  · exact ⟨.sub, rfl, rfl⟩
  · exact ⟨.mul, rfl, rfl⟩
  · exact ⟨.div, rfl, rfl⟩
  · exact ⟨.pow, rfl, rfl⟩

theorem joinTy_number {lang : Language} (hlang : lang.operators = standardOperators) {op : Lexeme}
    (hop : op.text ∈ ["+", "-", "*", "/", "^"]) (a b : Bool) :
    lang.joinTy op (.number a) (.number b) = .done (.number (a || b || op.text == "^")) := by
  obtain ⟨operator, hoperator, hpow⟩ := exists_operator_of_mem hlang hop
  unfold joinTy
  rw [hoperator, ← hpow]
  simp only [Outcome.ofOption, Outcome.done_bind, operator.resultShape_number]
  exact congrArg Outcome.done (Ty.ofShape_shape_number _)

/-- Only numbers are joined, and what they make is a number. -/
theorem isNumeric_of_joinTy {lang : Language} {op : Lexeme} {l r t : Ty} (h : lang.joinTy op l r = .done t) :
    l.shape.isNumeric = true ∧ r.shape.isNumeric = true ∧ t.shape.isNumeric = true := by
  obtain ⟨operator, -, h⟩ := Outcome.bind_eq_done.1 h
  obtain ⟨shape, hshape, h⟩ := Outcome.bind_eq_done.1 h
  cases h
  rw [Outcome.mapError_eq_done, Outcome.ofExcept_eq_done] at hshape
  rw [Ty.shape_ofShape]
  exact Operator.isNumeric_of_resultShape hshape

theorem joinTy_ne_unfinished (lang : Language) (op : Lexeme) (l r : Ty) :
    lang.joinTy op l r ≠ .unfinished := by
  unfold joinTy
  rcases lang.operator? op.text with _ | operator
  · intro h
    cases h
  · cases hshape : operator.resultShape l.shape r.shape
    all_goals simp [Outcome.ofOption, hshape, Outcome.ofExcept, Outcome.mapError]

/-! ## Trees of terms -/

section Trees
variable {lang : Language} {scope : Scope Ty} {j : Precedence.Joined}

theorem infer_join (lang : Language) (scope : Scope Ty) (left : Precedence.Joined) (op : Lexeme)
    (right : Precedence.Joined) :
    lang.infer scope (Precedence.Joined.join left op right).expr =
      lang.infer scope left.expr >>= fun l => lang.infer scope right.expr >>= fun r => lang.joinTy op l r :=
  lang.infer_binary scope left.expr op right.expr

/-- A tree over numbers is a number, and it is real exactly if one of its terms is real or one of its operators
is a power. By induction on the tree. -/
theorem infer_of_numbers (hlang : lang.operators = standardOperators)
    (hops : ∀ op ∈ j.ops, op.text ∈ ["+", "-", "*", "/", "^"])
    (hterms : ∀ t ∈ j.terms, lang.infer scope t = .done .int ∨ lang.infer scope t = .done .real) :
    ∃ isReal, lang.infer scope j.expr = .done (.number isReal) ∧
      (isReal = true ↔ (∃ t ∈ j.terms, lang.infer scope t = .done .real) ∨ ∃ op ∈ j.ops, op.text = "^") := by
  induction j with
  | term e =>
    rcases hterms e (List.mem_singleton.2 rfl) with he | he
    · exact ⟨false, he, by simp [Precedence.Joined.terms, Precedence.Joined.ops, he]⟩
    · exact ⟨true, he, by simp [Precedence.Joined.terms, Precedence.Joined.ops, he]⟩
  | join left op right ihl ihr =>
    obtain ⟨hopsl, hops⟩ := List.forall_mem_append.1 hops
    obtain ⟨hop, hopsr⟩ := List.forall_mem_cons.1 hops
    obtain ⟨htermsl, htermsr⟩ := List.forall_mem_append.1 hterms
    obtain ⟨a, hl, ha⟩ := ihl hopsl htermsl
    obtain ⟨b, hr, hb⟩ := ihr hopsr htermsr
    refine ⟨a || b || op.text == "^", ?_, ?_⟩
    · rw [infer_join, hl, Outcome.done_bind, hr, Outcome.done_bind, joinTy_number hlang hop]
    · rw [Bool.or_eq_true, Bool.or_eq_true, ha, hb, beq_iff_eq]
      simp only [Precedence.Joined.terms, Precedence.Joined.ops, List.mem_append, List.mem_cons, or_and_right,
        exists_or, exists_eq_left]
      grind

/-- A tree that is a number is one over numbers. By induction on the tree: each operator has numbers on both
sides. -/
theorem isNumeric_of_infer {ty : Ty} (h : lang.infer scope j.expr = .done ty)
    (hnumeric : ty.shape.isNumeric = true) :
    ∀ t ∈ j.terms, ∃ u, lang.infer scope t = .done u ∧ u.shape.isNumeric = true := by
  induction j generalizing ty with
  | term e =>
    intro t ht
    rw [List.mem_singleton.1 ht]
    exact ⟨ty, h, hnumeric⟩
  | join left op right ihl ihr =>
    rw [infer_join] at h
    obtain ⟨l, hl, h⟩ := Outcome.bind_eq_done.1 h
    obtain ⟨r, hr, h⟩ := Outcome.bind_eq_done.1 h
    obtain ⟨hln, hrn, -⟩ := isNumeric_of_joinTy h
    exact List.forall_mem_append.2 ⟨ihl hl hln, ihr hr hrn⟩

/-- Typing a tree is given up only where typing one of its terms is. -/
theorem exists_unfinished (h : lang.infer scope j.expr = .unfinished) :
    ∃ t ∈ j.terms, lang.infer scope t = .unfinished := by
  induction j with
  | term e => exact ⟨e, List.mem_singleton.2 rfl, h⟩
  | join left op right ihl ihr =>
    rw [infer_join] at h
    rcases hl : lang.infer scope left.expr with l | e | _
    · rw [hl, Outcome.done_bind] at h
      rcases hr : lang.infer scope right.expr with r | e | _
      · rw [hr, Outcome.done_bind] at h
        exact absurd h (lang.joinTy_ne_unfinished op l r)
      · rw [hr] at h
        cases h
      · obtain ⟨t, ht, hunfinished⟩ := ihr hr
        exact ⟨t, List.mem_append_right _ ht, hunfinished⟩
    · rw [hl] at h
      cases h
    · obtain ⟨t, ht, hunfinished⟩ := ihl hl
      exact ⟨t, List.mem_append_left _ ht, hunfinished⟩

end Trees

end Language

/-- A chain whose operators the table knows is folded into a tree with its terms and operators. -/
theorem Precedence.exists_joined {p : Precedence} {terms : List Expr} {ops : List Lexeme}
    (hlength : terms.length = ops.length + 1) (hknown : ∀ op ∈ ops, p.knows op.text = true) :
    ∃ j : Joined, p.fold terms ops = .ok j.expr ∧ j.terms = terms ∧ j.ops = ops := by
  obtain ⟨first, rest, rfl, rfl⟩ := exists_chain hlength
  have hpairs : ∀ pair ∈ rest, p.knows pair.1.text = true := List.forall_mem_map.1 hknown
  refine ⟨p.tree first rest, ?_, terms_tree p first rest, ops_tree p first rest⟩
  rw [fold_eq_foldChain, foldChain, foldLevels_tree first hpairs]

namespace Language

variable {lang : Language} {scope : Scope Ty}

/-- A tree with an operator has no type if one of its terms is no number. -/
theorem rejected_of_not_numeric {j : Precedence.Joined} (hops : j.ops ≠ []) {t : Expr} (ht : t ∈ j.terms)
    {ty : Ty} (hty : lang.infer scope t = .done ty) (hnot : ty.shape.isNumeric = false) :
    (∀ u, lang.infer scope j.expr ≠ .done u) ∧
      ((∀ t ∈ j.terms, lang.infer scope t ≠ .unfinished) → ∃ err, lang.infer scope j.expr = .failed err) := by
  have hnone : ∀ u, lang.infer scope j.expr ≠ .done u := by
    intro u hu
    cases j with
    | term e => exact hops rfl
    | join left op right =>
      have hnumeric : u.shape.isNumeric = true := by
        rw [infer_join] at hu
        obtain ⟨l, -, hu⟩ := Outcome.bind_eq_done.1 hu
        obtain ⟨r, -, hu⟩ := Outcome.bind_eq_done.1 hu
        exact (isNumeric_of_joinTy hu).2.2
      obtain ⟨ty', hty', hnumeric'⟩ := isNumeric_of_infer hu hnumeric t ht
      rw [hty] at hty'
      cases hty'
      rw [hnot] at hnumeric'
      cases hnumeric'
  refine ⟨hnone, fun hends => ?_⟩
  rcases houtcome : lang.infer scope j.expr with u | err | _
  · exact absurd houtcome (hnone u)
  · exact ⟨err, rfl⟩
  · obtain ⟨t, ht, hunfinished⟩ := exists_unfinished houtcome
    exact absurd hunfinished (hends t ht)

end Language

/-- Terms with standard operators between them, and two tables that know these operators: both fold them, and if
all terms are numbers, both results have the same type, which is real exactly if a term is real or an operator is
a power. If there is an operator and some term is no number, neither result has a type; typing ends with an error
then, if it ends for each term. -/
theorem precedence_keeps_types (lang : Language) (hlang : lang.operators = Language.standardOperators)
    (scope : Scope Ty) (terms : List Expr) (ops : List Lexeme) (hlength : terms.length = ops.length + 1)
    (hops : ∀ op ∈ ops, op.text ∈ ["+", "-", "*", "/", "^"]) (p q : Precedence)
    (hp : ∀ op ∈ ops, p.knows op.text = true) (hq : ∀ op ∈ ops, q.knows op.text = true) :
    ∃ e f, p.fold terms ops = .ok e ∧ q.fold terms ops = .ok f ∧
      ((∀ t ∈ terms, lang.infer scope t = .done .int ∨ lang.infer scope t = .done .real) →
        ∃ ty, lang.infer scope e = .done ty ∧ lang.infer scope f = .done ty ∧ (ty = .int ∨ ty = .real) ∧
          (ty = .real ↔ (∃ t ∈ terms, lang.infer scope t = .done .real) ∨ ∃ op ∈ ops, op.text = "^")) ∧
      (ops ≠ [] → ∀ t ∈ terms, ∀ ty, lang.infer scope t = .done ty → ty.shape.isNumeric = false →
        ∀ g ∈ [e, f], (∀ u, lang.infer scope g ≠ .done u) ∧
          ((∀ t ∈ terms, lang.infer scope t ≠ .unfinished) → ∃ err, lang.infer scope g = .failed err)) := by
  obtain ⟨j, hj, rfl, rfl⟩ := Precedence.exists_joined hlength hp
  obtain ⟨k, hk, hkterms, hkops⟩ := Precedence.exists_joined hlength hq
  refine ⟨j.expr, k.expr, hj, hk, fun hterms => ?_, fun hne t ht ty hty hnot g hg => ?_⟩
  · obtain ⟨a, ha, hareal⟩ := Language.infer_of_numbers hlang hops hterms
    rw [← hkops] at hops
    rw [← hkterms] at hterms
    obtain ⟨b, hb, hbreal⟩ := Language.infer_of_numbers hlang hops hterms
    rw [hkterms, hkops] at hbreal
    obtain rfl : a = b := Bool.eq_iff_iff.2 (hareal.trans hbreal.symm)
    refine ⟨.number a, ha, hb, ?_, Ty.number_eq_real_iff.trans hareal⟩
    cases a with
    | false => exact .inl rfl
    | true => exact .inr rfl
  · simp only [List.mem_cons, List.not_mem_nil, or_false] at hg
    rcases hg with rfl | rfl
    · exact Language.rejected_of_not_numeric hne ht hty hnot
    · rw [← hkops] at hne
      rw [← hkterms] at ht ⊢
      exact Language.rejected_of_not_numeric hne ht hty hnot

/-- `n + x ^ n`, with a whole number `n` and a real one `x`, folded with the standard table and with one that has
sums first; and `n + xs * n`, where `xs` is a sequence. -/
theorem precedence_keeps_types_sums_first :
    let scope : Scope Ty := [("n", .int), ("x", .real), ("xs", .seq .int)]
    let sumsFirst : Precedence := ⟨[["+", "-"], ["*", "/", "^"]]⟩
    let o (symbol : String) : Lexeme := ⟨symbol, .start⟩
    let v (name : String) : Expr := .var ⟨name, .start⟩
    (∃ e f, Precedence.standard.fold [v "n", v "x", v "n"] [o "+", o "^"] = .ok e ∧
      sumsFirst.fold [v "n", v "x", v "n"] [o "+", o "^"] = .ok f ∧
      Language.standard.infer scope e = .done .real ∧ Language.standard.infer scope f = .done .real) ∧
    ∃ e f, Precedence.standard.fold [v "n", v "xs", v "n"] [o "+", o "*"] = .ok e ∧
      sumsFirst.fold [v "n", v "xs", v "n"] [o "+", o "*"] = .ok f ∧
      (∃ err, Language.standard.infer scope e = .failed err) ∧
      ∃ err, Language.standard.infer scope f = .failed err := by
  intro scope sumsFirst o v
  have hn : Language.standard.infer scope (v "n") = .done .int := rfl
  have hx : Language.standard.infer scope (v "x") = .done .real := rfl
  have hxs : Language.standard.infer scope (v "xs") = .done (.seq .int) := rfl
  constructor
  · obtain ⟨e, f, he, hf, htypes, -⟩ := precedence_keeps_types .standard rfl scope [v "n", v "x", v "n"]
      [o "+", o "^"] rfl (by decide) .standard sumsFirst (by decide) (by decide)
    obtain ⟨ty, hty, hty', -, hreal⟩ := htypes (by simp [hn, hx])
    rw [hreal.2 (.inl ⟨v "x", by simp, hx⟩)] at hty hty'
    exact ⟨e, f, he, hf, hty, hty'⟩
  · obtain ⟨e, f, he, hf, -, hrejects⟩ := precedence_keeps_types .standard rfl scope [v "n", v "xs", v "n"]
      [o "+", o "*"] rfl (by decide) .standard sumsFirst (by decide) (by decide)
    have hboth := hrejects (by simp) (v "xs") (by simp) (.seq .int) hxs rfl
    have hends : ∀ t ∈ [v "n", v "xs", v "n"], Language.standard.infer scope t ≠ .unfinished := by
      simp [hn, hxs]
    exact ⟨e, f, he, hf, (hboth e (by simp)).2 hends, (hboth f (by simp)).2 hends⟩

end RangeScript
