import RangeScript.Proofs.DecimalText
import RangeScript.Proofs.ExactSimulation
import RangeScript.Proofs.Journal
import RangeScript.Proofs.PositionIndependence
import RangeScript.Proofs.PrecedenceTree
import RangeScript.Proofs.Recursion
import RangeScript.Proofs.RoundTrip

/-!
# Chains of whole numbers

A chain is written as `out v₀ o₁ v₁ … oₙ vₙ` (`Chain.source`). Its exact value joins products and quotients
first, then sums and differences, each from left to right (`Chain.value`). It is valid if on the way no result is
out of range and no divisor is zero (`Chain.valid`).

The same grouping (`Chain.grouped`) gives the value of the chain and the expression that is read from its text
(`Chain.parse_source`), so what the expression computes follows the grouping step by step (`Chain.computes_expr`).
So a chain prints its exact value if it is valid, and fails at an operator if not (`chain_prints_exact_value`).
-/

namespace RangeScript

open RangeScript.Grammar RangeScript.Parse RangeScript.Token

/-! ## Chains and their values -/

/-- An operator that makes a whole number of two whole numbers. -/
structure WholeOperator where
  operator : Operator
  isWhole : operator ≠ .pow

namespace WholeOperator

/-- Products and quotients bind tighter than sums and differences. -/
def isProduct (op : WholeOperator) : Bool := op.operator == .mul || op.operator == .div

/-- The result is in range, and no divisor is zero. -/
def allows (op : WholeOperator) (a b : Int) : Bool :=
  decide (¬ (op.operator = .div ∧ b = 0)) && Whole.fits (op.operator.exact a b)

def lexeme (op : WholeOperator) : Lexeme := ⟨op.operator.symbol, .start⟩

end WholeOperator

/-- Whole numbers with operators between them. -/
structure Chain where
  first : Int64
  rest : List (WholeOperator × Int64)

/-- An exact number, and whether all that led to it was allowed. -/
structure Reached where
  value : Int
  valid : Bool

def Reached.ofNumber (n : Int64) : Reached := ⟨n.toInt, true⟩

def Reached.join (op : WholeOperator) (a b : Reached) : Reached where
  value := op.operator.exact a.value b.value
  valid := a.valid && b.valid && op.allows a.value b.value

namespace Chain

/-- The text that prints the value of the chain. -/
def source (c : Chain) : String :=
  " ".intercalate ("out" :: Whole.text c.first ::
    c.rest.flatMap fun pair => [pair.1.operator.symbol, Whole.text pair.2])

section Grouping
variable {α : Type} (leaf : Int64 → α) (join : WholeOperator → α → α → α)

/-- Joins products and quotients from left to right, and leaves sums and differences. -/
def products (first : α) : List (WholeOperator × Int64) → α × List (WholeOperator × α)
  | [] => (first, [])
  | (op, n) :: rest =>
    if op.isProduct then products (join op first (leaf n)) rest
    else (first, (op, (products (leaf n) rest).1) :: (products (leaf n) rest).2)

/-- Joins all from left to right. -/
def sums (first : α) : List (WholeOperator × α) → α
  | [] => first
  | (op, a) :: rest => sums (join op first a) rest

/-- The numbers joined, products and quotients first. -/
def grouped (c : Chain) : α :=
  sums join (products leaf join (leaf c.first) c.rest).1 (products leaf join (leaf c.first) c.rest).2

end Grouping

/-- The exact value. -/
def value (c : Chain) : Int := c.grouped Int64.toInt fun op => op.operator.exact

/-- No result on the way is out of range, and no divisor is zero. -/
def valid (c : Chain) : Bool := (c.grouped Reached.ofNumber Reached.join).valid

/-! ## Two groupings of a chain -/

section Relation
variable {α β : Type} {R : α → β → Prop} {leaf : Int64 → α} {join : WholeOperator → α → α → α}
  {leaf' : Int64 → β} {join' : WholeOperator → β → β → β}

theorem products_related (hleaf : ∀ n, R (leaf n) (leaf' n))
    (hjoin : ∀ op a b a' b', R a a' → R b b' → R (join op a b) (join' op a' b'))
    (rest : List (WholeOperator × Int64)) {a : α} {a' : β} (h : R a a') :
    R (products leaf join a rest).1 (products leaf' join' a' rest).1 ∧
      List.Forall₂ (fun p p' => p.1 = p'.1 ∧ R p.2 p'.2) (products leaf join a rest).2
        (products leaf' join' a' rest).2 := by
  induction rest generalizing a a' with
  | nil => exact ⟨h, .nil⟩
  | cons pair rest ih =>
    obtain ⟨op, n⟩ := pair
    rw [products, products]
    split
    · exact ih (hjoin op a (leaf n) a' (leaf' n) h (hleaf n))
    · obtain ⟨hnext, hrest⟩ := ih (hleaf n)
      exact ⟨h, .cons ⟨rfl, hnext⟩ hrest⟩

theorem sums_related (hjoin : ∀ op a b a' b', R a a' → R b b' → R (join op a b) (join' op a' b'))
    {rest : List (WholeOperator × α)} {rest' : List (WholeOperator × β)}
    (hrest : List.Forall₂ (fun p p' => p.1 = p'.1 ∧ R p.2 p'.2) rest rest') {a : α} {a' : β}
    (h : R a a') : R (sums join a rest) (sums join' a' rest') := by
  induction hrest generalizing a a' with
  | nil => exact h
  | @cons p p' rest rest' hp _ ih =>
    obtain ⟨op, b⟩ := p
    obtain ⟨op', b'⟩ := p'
    obtain ⟨rfl, hb⟩ := hp
    exact ih (hjoin op a b a' b' h hb)

/-- What holds of numbers, and of joined ones if it holds of both, holds of chains. -/
theorem grouped_related (hleaf : ∀ n, R (leaf n) (leaf' n))
    (hjoin : ∀ op a b a' b', R a a' → R b b' → R (join op a b) (join' op a' b')) (c : Chain) :
    R (c.grouped leaf join) (c.grouped leaf' join') := by
  obtain ⟨hfirst, hrest⟩ := products_related hleaf hjoin c.rest (hleaf c.first)
  exact sums_related hjoin hrest hfirst

end Relation

theorem value_grouped (c : Chain) : (c.grouped Reached.ofNumber Reached.join).value = c.value := by
  refine grouped_related (R := fun (r : Reached) (n : Int) => r.value = n) ?_ ?_ c
  · exact fun n => rfl
  · rintro op a b _ _ rfl rfl
    rfl

end Chain

/-! ## The expression of a chain -/

namespace WholeOperator

theorem contains_powers (op : WholeOperator) : ["^"].contains op.lexeme.text = false := by
  obtain ⟨op, hop⟩ := op
  cases op with
  | pow => exact absurd rfl hop
  | _ => rfl

theorem contains_products (op : WholeOperator) : ["*", "/"].contains op.lexeme.text = op.isProduct := by
  obtain ⟨op, hop⟩ := op
  cases op with
  | pow => exact absurd rfl hop
  | _ => rfl

theorem contains_sums (op : WholeOperator) (h : op.isProduct = false) :
    ["+", "-"].contains op.lexeme.text = true := by
  obtain ⟨op, hop⟩ := op
  cases op with
  | pow => exact absurd rfl hop
  | mul => cases h
  | div => cases h
  | _ => rfl

theorem isSome_ofSymbol? (op : WholeOperator) :
    (Kind.ofSymbol? op.operator.symbol).isSome = true ∧ Precedence.standard.knows op.operator.symbol = true := by
  obtain ⟨op, hop⟩ := op
  cases op with
  | pow => exact absurd rfl hop
  | _ => exact ⟨rfl, rfl⟩

end WholeOperator

namespace Chain

/-- The literal of a number. -/
def literal (n : Int64) : Expr := .int ⟨Whole.text n, .start⟩

/-- The operation on expressions. -/
def operation (op : WholeOperator) (left right : Expr) : Expr := .binary left op.lexeme right

/-- The expression of a chain. -/
def expr (c : Chain) : Expr := c.grouped literal operation

/-- Operators with the terms after them. -/
def pairs {α : Type} (term : α → Expr) (rest : List (WholeOperator × α)) : List (Lexeme × Expr) :=
  rest.map fun pair => (pair.1.lexeme, term pair.2)

theorem pairs_cons {α : Type} (term : α → Expr) (pair : WholeOperator × α) (rest : List (WholeOperator × α)) :
    pairs term (pair :: rest) = (pair.1.lexeme, term pair.2) :: pairs term rest := rfl

section Folding
open Precedence

/-- The pass over powers has nothing to do. -/
theorem foldLevel_powers {α : Type} (term : α → Expr) (rest : List (WholeOperator × α)) (first : Expr) :
    foldLevel ["^"] first (pairs term rest) = (first, pairs term rest) := by
  induction rest generalizing first with
  | nil => rfl
  | cons pair rest ih =>
    rw [pairs_cons, foldLevel_leaves (Bool.eq_false_iff.1 pair.1.contains_powers), ih]

theorem foldLevel_products (rest : List (WholeOperator × Int64)) (first : Expr) :
    foldLevel ["*", "/"] first (pairs literal rest) =
      ((products literal operation first rest).1,
        pairs id (products literal operation first rest).2) := by
  induction rest generalizing first with
  | nil => rfl
  | cons pair rest ih =>
    obtain ⟨op, n⟩ := pair
    have hlevel := op.contains_products
    rw [products, pairs_cons]
    by_cases hop : op.isProduct = true
    · rw [if_pos hop, foldLevel_joins (hlevel.trans hop)]
      exact ih _
    · rw [if_neg hop, foldLevel_leaves (hlevel ▸ hop), ih, pairs_cons]
      rfl

/-- The products are no longer between the terms that are left. -/
theorem isProduct_of_mem_products {α : Type} (leaf : Int64 → α) (join : WholeOperator → α → α → α)
    (rest : List (WholeOperator × Int64)) (first : α) :
    ∀ pair ∈ (products leaf join first rest).2, pair.1.isProduct = false := by
  induction rest generalizing first with
  | nil => exact fun pair hpair => by cases hpair
  | cons pair rest ih =>
    rw [products]
    split
    · exact ih _
    · next hop => exact List.forall_mem_cons.2 ⟨Bool.eq_false_iff.2 hop, ih _⟩

theorem foldLevel_sums {rest : List (WholeOperator × Expr)} (h : ∀ pair ∈ rest, pair.1.isProduct = false)
    (first : Expr) :
    foldLevel ["+", "-"] first (pairs id rest) = (sums operation first rest, []) := by
  induction rest generalizing first with
  | nil => rfl
  | cons pair rest ih =>
    obtain ⟨hop, hrest⟩ := List.forall_mem_cons.1 h
    rw [pairs_cons, foldLevel_joins (pair.1.contains_sums hop)]
    exact ih hrest _

/-- The passes of the standard table build the expression of a chain. -/
theorem foldChain_pairs (c : Chain) :
    Precedence.standard.foldChain (literal c.first) (pairs literal c.rest) = .ok c.expr := by
  have hsums := foldLevel_sums (isProduct_of_mem_products literal operation c.rest (literal c.first))
  rw [foldChain, Precedence.standard, foldLevels_cons, foldLevel_powers, foldLevels_cons, foldLevel_products,
    foldLevels_cons, hsums]
  rfl

end Folding

end Chain

/-! ## Reading a chain -/

theorem Charset.isDigit_of_ascii {c : Char} (h : c.isDigit = true) : Charset.isDigit c = true := by
  obtain ⟨hlo, hhi⟩ := Char.isDigit_iff_toNat.1 h
  have hlo : 0x30 ≤ c.toNat := hlo
  have hhi : c.toNat ≤ 0x39 := hhi
  rw [Charset.isDigit, Charset.digitRanges, Charset.inRanges, if_neg (by omega), if_pos hhi]

theorem Whole.unsigned_text (n : Int64) : unsigned (Whole.text n) = Whole.digits n := by
  unfold unsigned isSigned
  rw [Whole.toList_text]
  by_cases hneg : n.toInt < 0
  · rw [if_pos hneg]
    rfl
  · obtain ⟨c, cs, hcs⟩ := List.exists_cons_of_ne_nil (Whole.digits_ne_nil n)
    have hc : c ≠ '-' := by
      rintro rfl
      exact absurd (Whole.isDigit_of_mem_digits (hcs ▸ List.mem_cons_self)) (by decide)
    rw [if_neg hneg, List.nil_append, hcs, if_neg]
    simpa using hc

theorem Whole.isUnsigned_text (n : Int64) : IsUnsigned .int (unsigned (Whole.text n)) := by
  refine isUnsigned_of_isDigits (Bool.and_eq_true_iff.2 ?_)
  rw [Whole.unsigned_text, List.all_eq_true]
  exact ⟨by simpa using Whole.digits_ne_nil n, fun c hc => Charset.isDigit_of_ascii (Whole.isDigit_of_mem_digits hc)⟩

/-- A number and its sign are one word. -/
theorem Token.map_wordText_numberWords (k : Kind) (text : String) :
    (numberWords true k text).map wordText = [text] := by
  have hdigits : (wordText [⟨k, String.ofList (unsigned text), .start⟩]).toList = unsigned text := by
    rw [toList_wordText_cons, String.toList_ofList]
    exact List.append_nil _
  unfold numberWords
  split
  · next hsigned =>
    obtain ⟨cs, hcs⟩ := List.head?_eq_some_iff.1 (beq_iff_eq.1 hsigned)
    rw [if_pos rfl, List.map_singleton, List.singleton_inj, ← String.toList_inj, toList_wordText_cons,
      hdigits, unsigned, if_pos hsigned, hcs]
    rfl
  · next hsigned =>
    rw [List.map_singleton, List.singleton_inj, ← String.toList_inj, hdigits, unsigned, if_neg hsigned]

namespace Chain

/-- The words of an operator and the number after it. -/
def pairWords (pair : WholeOperator × Int64) : List (List Token) :=
  [ofOperator pair.1.operator.symbol] :: numberWords true .int (Whole.text pair.2)

def words (c : Chain) : List (List Token) :=
  [plain .out] :: (numberWords true .int (Whole.text c.first) ++ c.rest.flatMap pairWords)

theorem renderWords_words (c : Chain) : renderWords c.words = c.source := by
  have hpair : ∀ pair : WholeOperator × Int64,
      (pairWords pair).map wordText = [pair.1.operator.symbol, Whole.text pair.2] := by
    intro pair
    rw [pairWords, List.map_cons, map_wordText_numberWords]
    congr 1
  rw [renderWords, words, List.map_cons, List.map_append, map_wordText_numberWords, List.map_flatMap]
  simp only [hpair]
  rfl

theorem isWord_of_mem_words (c : Chain) : ∀ w ∈ c.words, IsWord w := by
  have hnumber (n : Int64) : ∀ w ∈ numberWords true .int (Whole.text n), IsWord w :=
    isWord_of_mem_numberWords (Whole.isUnsigned_text n)
  have hpair (pair : WholeOperator × Int64) : ∀ w ∈ pairWords pair, IsWord w := by
    obtain ⟨k, -, hfixed, heq⟩ := ofOperator_eq_plain pair.1.isSome_ofSymbol?.1
    refine List.forall_mem_cons.2 ⟨?_, hnumber pair.2⟩
    rw [heq]
    exact isWord_plain hfixed
  refine List.forall_mem_cons.2 ⟨isWord_plain rfl, List.forall_mem_append.2 ⟨hnumber c.first, ?_⟩⟩
  intro w hw
  obtain ⟨pair, -, hw⟩ := List.mem_flatMap.1 hw
  exact hpair pair w hw

theorem isAtom_literal (n : Int64) (d : Nat) :
    IsAtom .standard d (numberWords true .int (Whole.text n)).flatten (literal n) :=
  isAtom_number (isNumber_numberWords (Whole.isUnsigned_text n) .int .int)

theorem isTail_pairWords (rest : List (WholeOperator × Int64)) (d : Nat) :
    IsTail .standard (IsAtom .standard d) (rest.flatMap pairWords).flatten (pairs literal rest) := by
  induction rest with
  | nil => exact .nil
  | cons pair rest ih =>
    obtain ⟨hsymbol, hknows⟩ := pair.1.isSome_ofSymbol?
    have hop : IsOperator .standard (ofOperator pair.1.operator.symbol) := by
      obtain ⟨k, hkind, -, heq⟩ := ofOperator_eq_plain hsymbol
      refine ⟨?_, hknows⟩
      rw [heq]
      exact hkind
    rw [List.flatMap_cons, List.flatten_append, pairWords, List.flatten_cons, List.singleton_append]
    exact .cons hop (isAtom_literal pair.2 d) ih

theorem isProgram_words (c : Chain) : IsProgram .standard c.words.flatten [.out c.expr] := by
  have hfold := (Precedence.standard.fold_eq_foldChain (literal c.first) (pairs literal c.rest)).trans
    c.foldChain_pairs
  have hexpr : IsExpr .standard 256 _ c.expr :=
    .chain (isAtom_literal c.first 256) (isTail_pairWords c.rest 256) hfold
  have hprogram := IsProgram.cons (.out (kind_plain .out) hexpr) .nil
  rw [List.append_nil] at hprogram
  rw [words, List.flatten_cons, List.flatten_append, List.singleton_append]
  exact hprogram

/-- The text of a chain is read as the expression of the chain, up to positions. -/
theorem parse_source (c : Chain) :
    ∃ q, Language.standard.parse c.source = .ok q ∧ Program.same [.out c.expr] q = true := by
  obtain ⟨q, hparse, hq⟩ := Language.standard.parse_renderWords c.isWord_of_mem_words c.isProgram_words
  rw [renderWords_words] at hparse
  refine ⟨q, hparse, (Program.same_iff _ q).2 ?_⟩
  rw [← hq, Program.relocate_relocate]
  rfl

end Chain

/-! ## Computing a chain -/

/-- The errors of arithmetic on whole numbers at an operator. -/
inductive RunError.IsArithmetic : RunError → Prop
  | overflow (op : Lexeme) : IsArithmetic (.atOperator op (.overflow op.text))
  | divisionByZero (op : Lexeme) : IsArithmetic (.atOperator op .divisionByZero)

/-- The expression has the type of whole numbers. It has the exact number for a value if that was reached by what
is allowed, and else it fails at an operator. -/
structure Computes (e : Expr) (r : Reached) : Prop where
  type (body : Scope Ty → Expr → Outcome TypeError Ty) :
    Language.standard.inferWith body [] e = .done .int
  value (body : Scope Value → Expr → Outcome RunError Value) : r.valid = true →
    ∃ n, Language.standard.evalWith body [] e = .done (.int n) ∧ n.toInt = r.value
  error (body : Scope Value → Expr → Outcome RunError Value) : r.valid = false →
    ∃ err, Language.standard.evalWith body [] e = .failed err ∧ err.IsArithmetic

namespace WholeOperator

theorem operator?_symbol (op : WholeOperator) :
    Language.standard.operator? op.lexeme.text = some op.operator := by
  obtain ⟨op, hop⟩ := op
  cases op <;> rfl

theorem resultShape_int (op : WholeOperator) : op.operator.resultShape .int .int = .ok .int := by
  obtain ⟨op, hop⟩ := op
  cases op with
  | pow => exact absurd rfl hop
  | _ => rfl

/-- The operator on whole numbers is exact if the exact result is allowed. -/
theorem onInts_of_allows {op : WholeOperator} {a b : Int64} (h : op.allows a.toInt b.toInt = true) :
    ∃ n, op.operator.onInts a b = .ok (.int n) ∧ n.toInt = op.operator.exact a.toInt b.toInt := by
  obtain ⟨hzero, hfits⟩ := Bool.and_eq_true_iff.1 h
  obtain ⟨n, hn, hvalue⟩ := Whole.ofInt?_of_fits hfits
  refine ⟨n, ?_, hvalue⟩
  rw [op.operator.onInts_eq op.isWhole a b (of_decide_eq_true hzero), hn]
  rfl

theorem onInts_of_not_allows {op : WholeOperator} {a b : Int64} (h : op.allows a.toInt b.toInt = false) :
    ∃ err, op.operator.onInts a b = .error err ∧ (RunError.atOperator op.lexeme err).IsArithmetic := by
  by_cases hzero : op.operator = .div ∧ b.toInt = 0
  · obtain ⟨hdiv, hb⟩ := hzero
    obtain rfl : b = 0 := Int64.toInt_inj.1 hb
    refine ⟨.divisionByZero, ?_, .divisionByZero op.lexeme⟩
    rw [hdiv]
    rfl
  · have hunfit : Whole.fits (op.operator.exact a.toInt b.toInt) = false :=
      (Bool.and_eq_false_iff.1 h).resolve_left fun hno => of_decide_eq_false hno hzero
    refine ⟨.overflow op.operator.symbol, ?_, .overflow op.lexeme⟩
    rw [op.operator.onInts_eq op.isWhole a b hzero, Whole.ofInt?_of_not_fits hunfit]
    rfl

end WholeOperator

namespace Computes

open RangeScript.Language

theorem literal (n : Int64) : Computes (Chain.literal n) (.ofNumber n) := by
  have htext : intLiteral ⟨Whole.text n, .start⟩ = .ok n := by
    unfold intLiteral
    rw [Whole.ofText?_text]
  refine ⟨fun body => ?_, fun body _ => ⟨n, ?_, rfl⟩, fun body h => by cases h⟩
  · rw [Chain.literal, inferWith, htext]
    rfl
  · rw [Chain.literal, evalWith, htext]
    rfl

theorem evalWith_operation {op : WholeOperator} {l r : Expr} {n m : Int64}
    (body : Scope Value → Expr → Outcome RunError Value)
    (hl : Language.standard.evalWith body [] l = .done (.int n))
    (hr : Language.standard.evalWith body [] r = .done (.int m)) :
    Language.standard.evalWith body [] (Chain.operation op l r) =
      (Outcome.ofExcept (op.operator.onInts n m)).mapError (.atOperator op.lexeme) := by
  rw [Chain.operation, evalWith, hl, hr, op.operator?_symbol]
  rfl

/-- One operation: both sides are computed first, and then the operator does what it is allowed to do. -/
theorem operation (op : WholeOperator) {l r : Expr} {a b : Reached} (hl : Computes l a) (hr : Computes r b) :
    Computes (Chain.operation op l r) (Reached.join op a b) := by
  refine ⟨fun body => ?_, fun body hvalid => ?_, fun body hinvalid => ?_⟩
  · have hshape := op.resultShape_int
    rw [Chain.operation, inferWith, hl.type, hr.type, op.operator?_symbol]
    simp only [Outcome.done_bind, Outcome.ofOption, Ty.shape, hshape]
    rfl
  · obtain ⟨hvalid, hallows⟩ := Bool.and_eq_true_iff.1 hvalid
    obtain ⟨ha, hb⟩ := Bool.and_eq_true_iff.1 hvalid
    obtain ⟨n, hn, hna⟩ := hl.value body ha
    obtain ⟨m, hm, hmb⟩ := hr.value body hb
    rw [← hna, ← hmb] at hallows
    obtain ⟨k, hk, hvalue⟩ := WholeOperator.onInts_of_allows hallows
    refine ⟨k, ?_, ?_⟩
    · rw [evalWith_operation body hn hm, hk]
      rfl
    · rw [hvalue, hna, hmb]
      rfl
  · cases ha : a.valid with
    | false =>
      obtain ⟨err, herr, harith⟩ := hl.error body ha
      refine ⟨err, ?_, harith⟩
      rw [Chain.operation, evalWith, herr]
      rfl
    | true =>
      obtain ⟨n, hn, hna⟩ := hl.value body ha
      cases hb : b.valid with
      | false =>
        obtain ⟨err, herr, harith⟩ := hr.error body hb
        refine ⟨err, ?_, harith⟩
        rw [Chain.operation, evalWith, hn, herr]
        rfl
      | true =>
        obtain ⟨m, hm, hmb⟩ := hr.value body hb
        have hallows : op.allows n.toInt m.toInt = false := by
          rw [hna, hmb]
          rwa [Reached.join, ha, hb] at hinvalid
        obtain ⟨err, herr, harith⟩ := WholeOperator.onInts_of_not_allows hallows
        refine ⟨.atOperator op.lexeme err, ?_, harith⟩
        rw [evalWith_operation body hn hm, herr]
        rfl

end Computes

/-- The expression of a chain computes the chain. -/
theorem Chain.computes_expr (c : Chain) : Computes c.expr (c.grouped Reached.ofNumber Reached.join) :=
  grouped_related Computes.literal (fun op _ _ _ _ hl hr => Computes.operation op hl hr) c

/-! ## Running a chain -/

/-- The error is one of arithmetic, wherever it is. -/
theorem RunError.IsArithmetic.of_forget {err err' : RunError} (h : err.IsArithmetic)
    (hforget : err.forget = err'.forget) : err'.IsArithmetic := by
  cases h with
  | overflow op =>
    cases err' with
    | atOperator op' cause =>
      obtain ⟨hop, hcause⟩ := RunError.atOperator.inj hforget
      have htext : (op.relocate Position.forget).text = (op'.relocate Position.forget).text :=
        congrArg Lexeme.text hop
      obtain rfl : cause = .overflow op.text := by
        cases cause <;> cases hcause
        rfl
      rw [Lexeme.text_relocate, Lexeme.text_relocate] at htext
      rw [htext]
      exact .overflow op'
    | _ => cases hforget
  | divisionByZero op =>
    cases err' with
    | atOperator op' cause =>
      obtain ⟨-, hcause⟩ := RunError.atOperator.inj hforget
      obtain rfl : cause = .divisionByZero := by
        cases cause <;> cases hcause
        rfl
      exact .divisionByZero op'
    | _ => cases hforget

namespace Chain

open Session

variable (c : Chain)

theorem check_out_expr : Language.standard.check [] (.out c.expr) = .done [] := by
  obtain ⟨body, hinfer⟩ := Language.standard.exists_infer_eq
  rw [Language.check, hinfer, c.computes_expr.type]
  rfl

theorem exec_out_expr_of_valid (h : c.valid = true) :
    Language.standard.exec [] (.out c.expr) = .done ⟨[], some (toString c.value)⟩ := by
  obtain ⟨body, heval⟩ := Language.standard.exists_eval_eq
  obtain ⟨n, hn, hvalue⟩ := c.computes_expr.value body h
  have hrender : (Value.int n).render = .ok (toString c.value) := by
    rw [Value.render, Value.renderAfter, String.empty_append, Whole.text, hvalue, value_grouped]
  rw [Language.exec, heval, hn, Outcome.done_bind, hrender]
  rfl

theorem exec_out_expr_of_not_valid (h : c.valid = false) :
    ∃ err, Language.standard.exec [] (.out c.expr) = .failed err ∧ err.IsArithmetic := by
  obtain ⟨body, heval⟩ := Language.standard.exists_eval_eq
  obtain ⟨err, herr, harith⟩ := c.computes_expr.error body h
  refine ⟨err, ?_, harith⟩
  rw [Language.exec, heval, herr]
  rfl

theorem run_out_expr : fresh.run .standard [.out c.expr] = steps .standard fresh [.out c.expr] := by
  refine run_of_check (check_eq_done.2 ?_)
  rw [fresh, Language.checkProgram, check_out_expr]
  rfl

/-- The text of a chain is run like the expression of the chain. -/
theorem alike_runSource_source :
    (steps .standard fresh [.out c.expr]).Alike (fresh.runSource .standard c.source) := by
  obtain ⟨q, hparse, hsame⟩ := c.parse_source
  have hfresh : fresh.Alike fresh := ⟨.nil, .nil⟩
  rw [← run_out_expr, runSource_of_parse hparse]
  exact alike_run .standard hfresh hsame

end Chain

open Session

/-- The text of a chain, run in a fresh session, prints one line with the exact value if the chain is valid. If it
is not, then nothing is printed, and the one error that is reported is of arithmetic at an operator. -/
theorem chain_prints_exact_value (c : Chain) :
    let report := fresh.runSource .standard c.source
    if c.valid then report.result = .done () ∧ report.transcript = ⟨[toString c.value], []⟩
    else ∃ err, err.IsArithmetic ∧ report.result = .failed (.run err) ∧
      report.transcript = ⟨[], [(Error.run err).message]⟩ := by
  have halike := c.alike_runSource_source
  have herrors : (fresh.submit .standard (.source c.source)).transcript.errors = _ :=
    (replays_submit fresh (.source c.source)).2
  rw [submit] at herrors
  generalize fresh.runSource .standard c.source = report at halike herrors
  obtain ⟨session, ⟨lines, errors⟩, result⟩ := report
  intro report
  split
  · next hvalid =>
    rw [steps_of_done [] c.check_out_expr (c.exec_out_expr_of_valid hvalid)] at halike
    obtain ⟨-, hlines, hresult⟩ := halike
    obtain rfl : [toString c.value] = lines := hlines
    cases hresult with
    | done _ =>
      obtain rfl : errors = [] := herrors
      exact ⟨rfl, rfl⟩
  · next hinvalid =>
    -- the error names the operator where it stands in the text, so it is known up to its position only
    obtain ⟨err, hexec, harith⟩ := c.exec_out_expr_of_not_valid (Bool.eq_false_iff.2 hinvalid)
    rw [steps_of_failed [] hexec] at halike
    obtain ⟨-, hlines, hresult⟩ := halike
    obtain rfl : [] = lines := hlines
    cases hresult with
    | @failed _ e he =>
      cases e with
      | run err' =>
        obtain rfl : errors = [(Error.run err').message] := herrors
        exact ⟨err', harith.of_forget (Error.run.inj he), rfl, rfl⟩
      | _ => cases he

example :
    let c : Chain := ⟨-7, [(⟨.sub, by decide⟩, -5), (⟨.div, by decide⟩, 2), (⟨.add, by decide⟩, 1)]⟩
    c.source = "out -7 - -5 / 2 + 1" ∧ c.value = -4 ∧ c.valid = true := by
  decide +kernel

end RangeScript
