import Mathlib.Data.Nat.Digits.Defs
import RangeScript.Proofs.IntegerChains

/-!
# Literals of whole numbers

A literal of a whole number is a sign, blanks, and digits with underscores among them (`IntLiteral`). Its value is
that of its digits in base ten (`IntLiteral.value`), of any size. Three parts of the language deal with it: tokens
hold the digits and the sign apart, the grammar puts them together and drops what is not part of the number
(`IntLiteral.lexeme`), and typing and evaluation turn the text into a number. All the way the value is kept, and a
value that 64 bits cannot hold is an error at the digits (`integer_literals_exact`).
-/

namespace RangeScript

/-! ## Reading a whole expression -/

namespace Parse

open Grammar

theorem expression_of_isExpr {prec : Precedence} {s : Token.Stream} {e : Expr}
    (h : IsExpr prec maxNesting s.tokens e) : expression prec s = .ok e := by
  have hend : ExprEnd [] := fun t ht => by cases ht
  have hatEnd : Takes Parser.atEnd [] () [] := fun _ => rfl
  have htakes : Takes (do let e ← expr prec; Parser.atEnd; return e) (s.tokens ++ []) e [] :=
    (takes_expr h hend).bind (hatEnd.bind_pure fun _ => e)
  have hresult := htakes 0
  rw [List.append_nil, List.append_nil] at hresult
  exact run_eq_ok_iff.2 ⟨_, hresult⟩

end Parse

theorem Expr.parse_of_isExpr {source : String} {s : Token.Stream} {e : Expr}
    (hlaid : Token.Laid .start source.toList s) (h : Grammar.IsExpr .standard Parse.maxNesting s.tokens e) :
    Expr.parse source = .ok e := by
  rw [Expr.parse, Token.scan_eq_ok_iff.2 hlaid]
  dsimp only
  rw [Parse.expression_of_isExpr h]

/-! ## Signs -/

/-- What stands in front of a number. -/
inductive Sign
  | none
  | plus
  | minus
deriving DecidableEq

namespace Sign

def chars : Sign → List Char
  | none => []
  | plus => ['+']
  | minus => ['-']

def isMinus : Sign → Bool
  | minus => true
  | _ => false

/-- The number with the magnitude and the sign. -/
def apply (s : Sign) (magnitude : Nat) : Int := if s.isMinus then -(magnitude : Int) else magnitude

/-- A sign is a token of its own, or none. -/
theorem exists_laid (s : Sign) {pos : Position} {rest : List Char} {stream : Token.Stream}
    (hrest : Token.EndsBefore .minus rest) (h : Token.Laid (pos.after s.chars) rest stream) :
    ∃ ts, Grammar.IsSign ts s.isMinus ∧
      Token.Laid pos (s.chars ++ rest) ⟨ts ++ stream.tokens, stream.stop⟩ := by
  cases s with
  | none => exact ⟨[], .none, h⟩
  | plus => exact ⟨[⟨.plus, "+", pos⟩], .plus rfl, .token (.fixed rfl) (fun _ _ => rfl) h⟩
  | minus => exact ⟨[⟨.minus, "-", pos⟩], .minus rfl, .token (.fixed rfl) hrest h⟩

end Sign

/-! ## Digits in base ten -/

namespace Whole

/-- The digit that a character is. -/
def digit? (c : Char) : Option Nat := if c.isDigit then some (c.toNat - '0'.toNat) else none

theorem ne_of_isDigit {c d : Char} (hc : c.isDigit = true) (hd : d.isDigit = false) : c ≠ d := by
  rintro rfl
  rw [hc] at hd
  cases hd

/-- Reading digits from the left gives the number that they are the digits of. -/
theorem valueOf_eq_ofDigits (ds : List Char) :
    valueOf ds = Nat.ofDigits 10 (ds.map fun c => c.toNat - '0'.toNat).reverse := by
  induction ds using List.reverseRecOn with
  | nil => rfl
  | append_singleton ds c ih =>
    rw [List.map_append, List.map_singleton, List.reverse_append, List.reverse_singleton, List.singleton_append,
      Nat.ofDigits_cons, ← ih]
    unfold valueOf
    rw [List.foldl_append, List.foldl_cons, List.foldl_nil]
    exact Nat.add_comm _ _

/-- Digits, and underscores among them. -/
def Grouped (cs : List Char) : Prop := ∀ c ∈ cs, c.isDigit = true ∨ c = '_'

instance (cs : List Char) : Decidable (Grouped cs) :=
  decidable_of_iff (cs.all (fun c => c.isDigit || c == '_') = true) (by simp [Grouped])

/-- Those that are no underscores are the digits. -/
theorem map_filter_eq_filterMap {cs : List Char} (h : Grouped cs) :
    (cs.filter (· ≠ '_')).map (fun c => c.toNat - '0'.toNat) = cs.filterMap digit? := by
  induction cs with
  | nil => rfl
  | cons c cs ih =>
    obtain ⟨hc, hcs⟩ := List.forall_mem_cons.1 h
    rcases hc with hc | rfl
    · have hne : c ≠ '_' := ne_of_isDigit hc rfl
      have hdigit : digit? c = some (c.toNat - '0'.toNat) := if_pos hc
      rw [List.filter_cons, if_pos (decide_eq_true hne), List.map_cons, ih hcs, List.filterMap_cons_some hdigit]
    · rw [List.filter_cons, if_neg (by decide), ih hcs, List.filterMap_cons_none rfl]

end Whole

/-! ## Literals -/

/-- A literal of a whole number as it is written. -/
structure IntLiteral where
  sign : Sign
  blanks : List Char
  first : Char
  more : List Char
  isBlank : Token.Blank blanks
  isDigit : first.isDigit = true
  grouped : Whole.Grouped more

namespace IntLiteral

variable (l : IntLiteral)

/-- The digits and the underscores among them. -/
def chars : List Char := l.first :: l.more

/-- The text of the literal. -/
def source : String := String.ofList (l.sign.chars ++ (l.blanks ++ l.chars))

/-- The number with the digits and the sign of the literal. -/
def value : Int := l.sign.apply (Nat.ofDigits 10 (l.chars.filterMap Whole.digit?).reverse)

/-- A 64-bit number has the value of the literal. -/
def InRange : Prop := -0x8000000000000000 ≤ l.value ∧ l.value ≤ 0x7fffffffffffffff

instance : Decidable l.InRange := inferInstanceAs (Decidable (_ ∧ _))

/-- What is kept of the literal: a minus sign and the digits, where the digits stand. -/
def lexeme : Lexeme :=
  ⟨Grammar.signedDigits l.sign.isMinus (String.ofList l.chars), Position.start.after (l.sign.chars ++ l.blanks)⟩

theorem isText_chars : Token.IsText .int l.chars := by
  refine .int (Charset.isDigit_of_ascii l.isDigit) fun c hc => ?_
  unfold Token.isDigitOrUnderscore
  rcases l.grouped c hc with hdigit | rfl
  · rw [Charset.isDigit_of_ascii hdigit, Bool.true_or]
  · exact Bool.or_true _

/-- A minus sign and what follows it here are not an arrow. -/
theorem endsBefore_minus : Token.EndsBefore .minus (l.blanks ++ l.chars) := by
  by_cases hblanks : l.blanks = []
  · rw [hblanks, List.nil_append, chars]
    intro c hc
    cases hc
    exact bne_iff_ne.2 (Whole.ne_of_isDigit l.isDigit rfl)
  · exact l.isBlank.endsBefore hblanks .minus l.chars

/-- A literal is read as the number with the text and the position that are kept of it. -/
theorem parse_source : Expr.parse l.source = .ok (.int l.lexeme) := by
  have hend : Token.EndsBefore .int [] := fun c hc => by cases hc
  have hdigits : Token.Laid (Position.start.after l.sign.chars) (l.blanks ++ (l.chars ++ [])) _ :=
    .cons l.isBlank l.isText_chars hend (.nil Token.blank_nil)
  rw [List.append_nil] at hdigits
  obtain ⟨ts, hsign, hlaid⟩ := l.sign.exists_laid l.endsBefore_minus hdigits
  rw [← Position.after_append] at hlaid
  rw [← String.toList_ofList (l := l.sign.chars ++ (l.blanks ++ l.chars))] at hlaid
  exact Expr.parse_of_isExpr hlaid (Parse.isExprOver_of_atom (Grammar.isAtom_number (.int hsign rfl)))

/-- The digits of the literal without the underscores. -/
def kept : List Char := l.chars.filter (· ≠ '_')

theorem kept_eq_cons : l.kept = l.first :: l.more.filter (· ≠ '_') := by
  have hne : l.first ≠ '_' := Whole.ne_of_isDigit l.isDigit rfl
  rw [kept, chars, List.filter_cons, if_pos (decide_eq_true hne)]

theorem grouped_chars : Whole.Grouped l.chars :=
  List.forall_mem_cons.2 ⟨.inl l.isDigit, l.grouped⟩

theorem natOfDigits?_kept :
    Whole.natOfDigits? l.kept = some (Nat.ofDigits 10 (l.chars.filterMap Whole.digit?).reverse) := by
  have hany : l.kept.any (! ·.isDigit) = false := by
    rw [List.any_eq_false]
    intro c hc
    obtain ⟨hmem, hne⟩ := List.mem_filter.1 hc
    rw [(l.grouped_chars c hmem).resolve_right (of_decide_eq_true hne)]
    decide
  have hempty : l.kept.isEmpty = false := by
    rw [kept_eq_cons]
    rfl
  have hvalue : Whole.valueOf l.kept = Nat.ofDigits 10 (l.chars.filterMap Whole.digit?).reverse := by
    rw [Whole.valueOf_eq_ofDigits, kept, Whole.map_filter_eq_filterMap l.grouped_chars]
  rw [Whole.natOfDigits?, hempty, hany, hvalue]
  rfl

theorem toList_lexeme : l.lexeme.text.toList = (if l.sign.isMinus then ['-'] else []) ++ l.kept := by
  unfold lexeme Grammar.signedDigits kept
  rw [String.toList_append, String.toList_ofList, String.toList_ofList]
  cases l.sign.isMinus <;> rfl

theorem splitSign_lexeme : Whole.splitSign l.lexeme.text.toList = (l.sign.isMinus, l.kept) := by
  rw [toList_lexeme]
  cases l.sign.isMinus with
  | true => rfl
  | false =>
    rw [kept_eq_cons]
    exact Whole.splitSign_cons l.isDigit

/-- The text that is kept of a literal has the literal's value. -/
theorem ofText?_lexeme : Whole.ofText? l.lexeme.text = Whole.ofInt? l.value := by
  unfold Whole.ofText?
  rw [splitSign_lexeme]
  dsimp only
  rw [natOfDigits?_kept]
  rfl

theorem fits_value_iff : Whole.fits l.value = true ↔ l.InRange := by
  unfold Whole.fits InRange
  rw [decide_eq_true_eq]
  omega

/-- In range, the number of a literal is its value. -/
theorem intLiteral_of_inRange (h : l.InRange) :
    ∃ n : Int64, n.toInt = l.value ∧ Language.intLiteral l.lexeme = .ok n := by
  obtain ⟨n, hn, hvalue⟩ := Whole.ofInt?_of_fits (l.fits_value_iff.2 h)
  refine ⟨n, hvalue, ?_⟩
  rw [Language.intLiteral, ofText?_lexeme, hn]

theorem intLiteral_of_not_inRange (h : ¬ l.InRange) :
    Language.intLiteral l.lexeme = .error (.invalidLiteral .int l.lexeme) := by
  have hunfit : Whole.fits l.value = false := Bool.eq_false_iff.2 fun hfits => h (l.fits_value_iff.1 hfits)
  rw [Language.intLiteral, ofText?_lexeme, Whole.ofInt?_of_not_fits hunfit]

/-- The text of a number is a literal, and all of it is kept. -/
theorem exists_source_eq_text (n : Int64) :
    ∃ l : IntLiteral, l.source = Whole.text n ∧ l.lexeme.text = Whole.text n := by
  obtain ⟨c, cs, hcs⟩ := List.exists_cons_of_ne_nil (Whole.digits_ne_nil n)
  have hdigits : ∀ d ∈ c :: cs, d.isDigit = true := by
    intro d hd
    exact Whole.isDigit_of_mem_digits (hcs ▸ hd)
  obtain ⟨hc, hmore⟩ := List.forall_mem_cons.1 hdigits
  have hfilter : (c :: cs).filter (· ≠ '_') = c :: cs := by
    rw [List.filter_eq_self]
    intro d hd
    exact decide_eq_true (Whole.ne_of_isDigit (hdigits d hd) rfl)
  obtain ⟨sign, hchars, hminus⟩ : ∃ sign : Sign, sign.chars = (if n.toInt < 0 then ['-'] else []) ∧
      (if sign.isMinus then ['-'] else []) = sign.chars := by
    split
    · exact ⟨.minus, rfl, rfl⟩
    · exact ⟨.none, rfl, rfl⟩
  refine ⟨⟨sign, [], c, cs, Token.blank_nil, hc, fun d hd => .inl (hmore d hd)⟩, ?_, ?_⟩
  · rw [← String.toList_inj, Whole.toList_text, hcs, ← hchars]
    exact String.toList_ofList
  · rw [← String.toList_inj, toList_lexeme, Whole.toList_text, hcs, ← hchars]
    dsimp only [kept, chars]
    rw [hminus, hfilter]

end IntLiteral

/-- Each literal of a whole number is read as one, whatever its length. If its value is in range, it has the type of
whole numbers and evaluates to the number with this value; if not, typing and evaluation fail, with the sign and the
digits, where the digits stand. The text of each number is read and evaluated as this number. -/
theorem integer_literals_exact :
    (∀ l : IntLiteral, Expr.parse l.source = .ok (.int l.lexeme) ∧
      ∀ (lang : Language) (types : Scope Ty) (values : Scope Value),
        (l.InRange → ∃ n : Int64, n.toInt = l.value ∧ Language.intLiteral l.lexeme = .ok n ∧
          lang.infer types (.int l.lexeme) = .done .int ∧
          lang.eval values (.int l.lexeme) = .done (.int n)) ∧
        (¬ l.InRange → Language.intLiteral l.lexeme = .error (.invalidLiteral .int l.lexeme) ∧
          lang.infer types (.int l.lexeme) = .failed (.invalidLiteral .int l.lexeme) ∧
          lang.eval values (.int l.lexeme) = .failed (.typing (.invalidLiteral .int l.lexeme)))) ∧
    ∀ (n : Int64) (lang : Language) (values : Scope Value), ∃ text e,
      (Value.int n).render = .ok text ∧ Expr.parse text = .ok e ∧ lang.eval values e = .done (.int n) := by
  refine ⟨fun l => ⟨l.parse_source, fun lang types values => ⟨fun h => ?_, fun h => ?_⟩⟩, fun n lang values => ?_⟩
  · obtain ⟨n, hvalue, hn⟩ := l.intLiteral_of_inRange h
    rw [lang.infer_int, lang.eval_int, hn]
    exact ⟨n, hvalue, rfl, rfl, rfl⟩
  · rw [lang.infer_int, lang.eval_int, l.intLiteral_of_not_inRange h]
    exact ⟨rfl, rfl, rfl⟩
  · obtain ⟨l, hsource, htext⟩ := IntLiteral.exists_source_eq_text n
    have hread := l.parse_source
    rw [hsource] at hread
    have hn : Language.intLiteral l.lexeme = .ok n := by
      rw [Language.intLiteral, htext, Whole.ofText?_text]
    refine ⟨Whole.text n, .int l.lexeme, ?_, hread, ?_⟩
    · rw [Value.render, Value.renderAfter, String.empty_append]
    · rw [lang.eval_int, hn]
      rfl

/-- Blanks, a line feed among them, may stand behind the sign, and underscores behind the digits. The lowest number
is in range, and the same digits with a plus sign are not. -/
theorem integer_literals_exact_at_limits :
    let digits := "9_223_372_036_854_775_80__8_".toList
    let lowest : IntLiteral := ⟨.minus, [' ', '\n'], '0', digits, by decide, by decide, by decide⟩
    let beyond : IntLiteral := ⟨.plus, [' ', '\n'], '0', digits, by decide, by decide, by decide⟩
    (lowest.value = -0x8000000000000000 ∧ ∃ n : Int64, n.toInt = lowest.value ∧
      Language.standard.eval [] (.int lowest.lexeme) = .done (.int n)) ∧
    beyond.value = 0x8000000000000000 ∧ Language.standard.eval [] (.int beyond.lexeme) =
      .failed (.typing (.invalidLiteral .int ⟨"09223372036854775808", ⟨2, 1⟩⟩)) := by
  intro digits lowest beyond
  have hlowest : lowest.value = -0x8000000000000000 := by decide +kernel
  have hbeyond : beyond.value = 0x8000000000000000 := by decide +kernel
  have hin : lowest.InRange := by decide +kernel
  have hout : ¬ beyond.InRange := by decide +kernel
  obtain ⟨n, hn, -, -, heval⟩ := ((integer_literals_exact.1 lowest).2 .standard [] []).1 hin
  have hfailed := (((integer_literals_exact.1 beyond).2 .standard [] []).2 hout).2.2
  have hlexeme : beyond.lexeme = ⟨"09223372036854775808", ⟨2, 1⟩⟩ := by decide +kernel
  refine ⟨⟨hlowest, n, hn, heval⟩, hbeyond, ?_⟩
  rw [hfailed, hlexeme]

end RangeScript
