import RangeScript.Proofs.Layout

/-!
# Writing programs

A program is written as words with a space between them (`Program.render`). Every binary operation is in
parentheses, the text of a print statement in quotes. A word is one token, or a minus sign and the digits
after it if signs are to touch them.

* `Expr.isWritable prec` : names, numbers and operators have texts of their own, calls have arguments,
  and a lambda is an argument of a call;
* `Expr.nesting` : how many parentheses, ranges and calls stand inside each other in what is written.

What is written is read back as the same program (`parse_render`).
-/

namespace RangeScript

open RangeScript.Charset RangeScript.Grammar RangeScript.Parse RangeScript.Token

/-! ## Words -/

namespace Token

/-- The texts of tokens that touch each other. -/
def wordText (w : List Token) : String := String.join (w.map (·.text))

/-- The words of a text, with a space between them. -/
def renderWords (ws : List (List Token)) : String := " ".intercalate (ws.map wordText)

/-- In front of a blank, or at the end, the tokens are scanned from their texts without anything between
them. -/
def IsWord (w : List Token) : Prop :=
  ∀ (rest : List Char) (ts : List Token), (∀ c ∈ rest.head?, isBlank c = true) → Spells rest ts →
    Spells ((wordText w).toList ++ rest) (w ++ ts)

theorem toList_wordText_cons (t : Token) (w : List Token) :
    (wordText (t :: w)).toList = t.text.toList ++ (wordText w).toList := by
  rw [wordText, List.map_cons, String.join_cons, String.toList_append]
  rfl

theorem isWord_single {k : Kind} {text : String} (h : IsText k text.toList) :
    IsWord [⟨k, text, .start⟩] := by
  intro rest ts hrest hspells
  have hend : EndsBefore k rest := fun c hc => endsBefore_of_isBlank k (hrest c hc)
  have htoken := Spells.token h hend hspells
  rw [String.ofList_toList] at htoken
  rw [toList_wordText_cons, List.append_assoc]
  exact htoken

/-- A token that ends before the first character of a word may touch the word. -/
theorem IsWord.cons {k : Kind} {text : String} {w : List Token} (h : IsText k text.toList)
    (hend : EndsBefore k (wordText w).toList) (hne : wordText w ≠ "") (hw : IsWord w) :
    IsWord (⟨k, text, .start⟩ :: w) := by
  intro rest ts hrest hspells
  have hend : EndsBefore k ((wordText w).toList ++ rest) := by
    obtain ⟨c, cs, hcs⟩ := List.exists_cons_of_ne_nil (mt String.toList_eq_nil_iff.1 hne)
    rw [hcs] at hend ⊢
    exact hend
  have htoken := Spells.token h hend (hw rest ts hrest hspells)
  rw [String.ofList_toList] at htoken
  rw [toList_wordText_cons, List.append_assoc]
  exact htoken

/-- A text of words is scanned into their tokens. -/
theorem spells_renderWords {ws : List (List Token)} (h : ∀ w ∈ ws, IsWord w) :
    Spells (renderWords ws).toList ws.flatten := by
  unfold renderWords
  induction ws with
  | nil => exact .nil
  | cons w ws ih =>
    obtain ⟨hw, hws⟩ := List.forall_mem_cons.1 h
    have hrest := ih hws
    cases ws with
    | nil =>
      have hspells := hw [] [] (fun c hc => by cases hc) .nil
      rw [List.append_nil] at hspells
      exact hspells
    | cons v ws =>
      have hspace : Blank " ".toList := by decide
      rw [List.map_cons, List.map_cons, String.intercalate_cons_cons, String.toList_append,
        String.toList_append, List.append_assoc]
      refine hw _ _ ?_ (hrest.blanks hspace)
      rintro c ⟨⟩
      decide

/-- The token of a kind that has only one text. -/
def plain (k : Kind) : Token := ⟨k, String.ofList (k.fixed?.getD []), .start⟩

/-- The token of a name. -/
def ofName (text : String) : Token := ⟨.name, text, .start⟩

theorem kind_plain (k : Kind) : (plain k).kind = k := rfl

theorem kind_ofName (text : String) : (ofName text).kind = .name := rfl

theorem isText_plain {k : Kind} (h : k.fixed?.isSome = true) :
    IsText k (plain k).text.toList := by
  obtain ⟨chars, hchars⟩ := Option.isSome_iff_exists.1 h
  rw [plain, hchars, Option.getD_some, String.toList_ofList]
  exact .fixed hchars

theorem isWord_plain {k : Kind} (h : k.fixed?.isSome = true) : IsWord [plain k] :=
  isWord_single (isText_plain h)

/-- The kind of an operator with the symbol. -/
def Kind.ofSymbol? : String → Option Kind
  | "+" => some .plus
  | "-" => some .minus
  | "*" => some .star
  | "/" => some .slash
  | "^" => some .caret
  | _ => none

/-- The token of an operator. -/
def ofOperator (symbol : String) : Token := ⟨(Kind.ofSymbol? symbol).getD .plus, symbol, .start⟩

theorem ofOperator_eq_plain {symbol : String} (h : (Kind.ofSymbol? symbol).isSome = true) :
    ∃ k : Kind, k.isOperator = true ∧ k.fixed?.isSome = true ∧ ofOperator symbol = plain k := by
  obtain ⟨k, hk⟩ := Option.isSome_iff_exists.1 h
  refine ⟨k, ?_⟩
  rw [ofOperator, hk, Option.getD_some]
  unfold Kind.ofSymbol? at hk
  split at hk <;> cases hk <;> decide

/-! ## Names and numbers -/

/-- The text of a name: a letter or an underscore, then letters, digits and underscores, and no keyword. -/
def isNameText (text : String) : Bool :=
  match text.toList with
  | [] => false
  | c :: cs => isNameStart c && cs.all isWord && !keywords.contains (c :: cs)

theorem isText_of_isNameText {text : String} (h : isNameText text = true) : IsText .name text.toList := by
  unfold isNameText at h
  cases htext : text.toList with
  | nil => simp [htext] at h
  | cons c cs =>
    simp only [htext, Bool.and_eq_true, List.all_eq_true] at h
    obtain ⟨⟨hc, hcs⟩, hkeyword⟩ := h
    exact .name hc hcs (by simpa using hkeyword)

/-- One digit or more. -/
def isDigits (cs : List Char) : Bool := !cs.isEmpty && cs.all isDigit

/-- One digit or more, a point, and digits or nothing. -/
def isPointed (cs : List Char) : Bool :=
  isDigits (cs.takeWhile isDigit) &&
    match cs.dropWhile isDigit with
    | '.' :: ds => ds.all isDigit
    | _ => false

/-- There is a minus sign in front. -/
def isSigned (text : String) : Bool := text.toList.head? == some '-'

/-- The text without the minus sign. -/
def unsigned (text : String) : List Char := if isSigned text then text.toList.tail else text.toList

/-- The text of a number after its sign: it is a token's and starts with a digit, and no underscore would
be dropped from it. -/
structure IsUnsigned (k : Kind) (cs : List Char) : Prop where
  isText : IsText k cs
  isDigit_head : ∀ c ∈ cs.head?, isDigit c = true
  not_mem : '_' ∉ cs

theorem isDigitOrUnderscore_of_isDigit {c : Char} (h : isDigit c = true) :
    isDigitOrUnderscore c = true := by
  simp [isDigitOrUnderscore, h]

theorem underscore_not_mem_of_forall {cs : List Char} (h : ∀ c ∈ cs, isDigit c = true) : '_' ∉ cs :=
  fun hmem => absurd (h _ hmem) (by decide)

theorem isUnsigned_of_isDigits {cs : List Char} (h : isDigits cs = true) : IsUnsigned .int cs := by
  obtain ⟨hne, hall⟩ := Bool.and_eq_true_iff.1 h
  rw [List.all_eq_true] at hall
  cases cs with
  | nil => cases hne
  | cons c cs =>
    obtain ⟨hc, hcs⟩ := List.forall_mem_cons.1 hall
    refine ⟨.int hc fun d hd => isDigitOrUnderscore_of_isDigit (hcs d hd), ?_,
      underscore_not_mem_of_forall hall⟩
    rintro d ⟨⟩
    exact hc

theorem isUnsigned_of_isPointed {cs : List Char} (h : isPointed cs = true) : IsUnsigned .real cs := by
  obtain ⟨hwhole, hpoint⟩ := Bool.and_eq_true_iff.1 h
  have hsplit := List.takeWhile_append_dropWhile (p := isDigit) (l := cs)
  generalize cs.takeWhile isDigit = whole at hwhole hsplit
  generalize cs.dropWhile isDigit = rest at hpoint hsplit
  have hint := isUnsigned_of_isDigits hwhole
  obtain ⟨hne, hall⟩ := Bool.and_eq_true_iff.1 hwhole
  rw [List.all_eq_true] at hall
  split at hpoint
  next ds =>
    rw [List.all_eq_true] at hpoint
    cases whole with
    | nil => cases hne
    | cons c whole =>
      obtain ⟨hc, hcs⟩ := List.forall_mem_cons.1 hall
      have htext : IsText .real (c :: (whole ++ '.' :: ds)) :=
        .real hc (fun d hd => isDigitOrUnderscore_of_isDigit (hcs d hd))
          fun d hd => isDigitOrUnderscore_of_isDigit (hpoint d hd)
      rw [← hsplit]
      refine ⟨htext, hint.isDigit_head, ?_⟩
      intro hmem
      rcases List.mem_append.1 hmem with hmem | hmem
      · exact hint.not_mem hmem
      · rcases List.mem_cons.1 hmem with heq | hmem
        · revert heq
          decide
        · exact underscore_not_mem_of_forall hpoint hmem
  next => cases hpoint

/-- The words of a number. With `tight`, the sign touches the digits. -/
def numberWords (tight : Bool) (k : Kind) (text : String) : List (List Token) :=
  let digits : Token := ⟨k, String.ofList (unsigned text), .start⟩
  if isSigned text then if tight then [[plain .minus, digits]] else [[plain .minus], [digits]]
  else [[digits]]

theorem isWord_of_mem_numberWords {tight : Bool} {k : Kind} {text : String}
    (h : IsUnsigned k (unsigned text)) : ∀ w ∈ numberWords tight k text, IsWord w := by
  have hdigits : IsWord [⟨k, String.ofList (unsigned text), .start⟩] := by
    refine isWord_single ?_
    rw [String.toList_ofList]
    exact h.isText
  have hminus : IsWord [plain .minus] := isWord_plain rfl
  have htouch : IsWord [plain .minus, ⟨k, String.ofList (unsigned text), .start⟩] := by
    have htext : (wordText [⟨k, String.ofList (unsigned text), .start⟩]).toList = unsigned text := by
      rw [toList_wordText_cons, String.toList_ofList]
      exact List.append_nil _
    refine IsWord.cons (isText_plain (k := .minus) rfl) ?_ ?_ hdigits
    · rw [htext]
      intro c hc
      have hdigit := h.isDigit_head c hc
      rw [Kind.endsBefore, bne_iff_ne]
      rintro rfl
      revert hdigit
      decide
    · rw [ne_eq, ← String.toList_eq_nil_iff, htext]
      exact isText_ne_nil h.isText
  unfold numberWords
  split
  · split
    · exact List.forall_mem_singleton.2 htouch
    · exact List.forall_mem_cons.2 ⟨hminus, List.forall_mem_singleton.2 hdigits⟩
  · exact List.forall_mem_singleton.2 hdigits

theorem isNumber_numberWords {tight : Bool} {text : String} {k : Kind}
    (h : IsUnsigned k (unsigned text)) (literal : Lexeme → Expr)
    (hnumber : ∀ {ts : List Token} {t : Token} {minus : Bool}, IsSign ts minus → t.kind = k →
      IsNumber (ts ++ [t]) (literal ⟨signedDigits minus t.text, t.pos⟩)) :
    IsNumber (numberWords tight k text).flatten (literal ⟨text, .start⟩) := by
  let digits : Token := ⟨k, String.ofList (unsigned text), .start⟩
  have hfilter : (unsigned text).filter (· ≠ '_') = unsigned text := by
    rw [List.filter_eq_self]
    intro c hc
    rw [decide_eq_true_iff]
    rintro rfl
    exact h.not_mem hc
  have htext : signedDigits (isSigned text) digits.text = text := by
    rw [← String.toList_inj, signedDigits, String.toList_append, String.toList_ofList,
      String.toList_ofList, hfilter]
    unfold unsigned
    cases hsigned : isSigned text with
    | false => rfl
    | true =>
      obtain ⟨cs, hcs⟩ := List.head?_eq_some_iff.1 (beq_iff_eq.1 hsigned)
      rw [hcs]
      rfl
  unfold numberWords
  cases hsigned : isSigned text with
  | false =>
    have hread := hnumber (t := digits) .none rfl
    rw [← hsigned, htext] at hread
    exact hread
  | true =>
    have hread := hnumber (t := digits) (.minus (s := plain .minus) rfl) rfl
    rw [← hsigned, htext] at hread
    cases tight <;> exact hread

end Token

/-! ## Writing -/

mutual

/-- The words of an expression. -/
def Expr.words (tight : Bool) : Expr → List (List Token)
  | var name => [[ofName name.text]]
  | int literal => numberWords tight .int literal.text
  | real literal => numberWords tight .real literal.text
  | binary left op right =>
    [plain .leftParen] :: (left.words tight ++
      [ofOperator op.text] :: (right.words tight ++ [[plain .rightParen]]))
  | range left right =>
    [plain .leftBrace] :: (left.words tight ++
      [plain .comma] :: (right.words tight ++ [[plain .rightBrace]]))
  | call function args =>
    [ofName function.text] :: [plain .leftParen] ::
      ((argWords tight args).tail ++ [[plain .rightParen]])
  | lambda params body =>
    params.map (fun p => [ofName p.text]) ++ [plain .arrow] :: body.words tight

/-- The words of arguments, a comma in front of each. -/
def Expr.argWords (tight : Bool) : List Expr → List (List Token)
  | [] => []
  | e :: es => [plain .comma] :: (e.words tight ++ argWords tight es)

end

/-- The words of a statement. -/
def Stmt.words (tight : Bool) : Stmt → List (List Token)
  | declare name value =>
    [plain .var] :: [ofName name.text] :: [plain .assign] :: value.words tight
  | out value => [plain .out] :: value.words tight
  | print text => [[plain .print], [⟨.string, "\"" ++ text ++ "\"", .start⟩]]

/-- The text of a program. With `tight`, the signs of numbers touch the digits. -/
def Program.render (tight : Bool) (p : Program) : String :=
  renderWords (p.flatMap (Stmt.words tight))

mutual

/-- The expression can be written, as an argument of a call if `asArg`. -/
def Expr.isWritable (prec : Precedence) (asArg : Bool) : Expr → Bool
  | var name => isNameText name.text
  | int literal => isDigits (unsigned literal.text)
  | real literal => isPointed (unsigned literal.text)
  | binary left op right =>
    (Kind.ofSymbol? op.text).isSome && prec.knows op.text && left.isWritable prec false &&
      right.isWritable prec false
  | range left right => left.isWritable prec false && right.isWritable prec false
  | call function args => isNameText function.text && !args.isEmpty && areWritable prec args
  | lambda params body =>
    asArg && !params.isEmpty && params.all (isNameText ·.text) && body.isWritable prec false

/-- All of them can be written as arguments of a call. -/
def Expr.areWritable (prec : Precedence) : List Expr → Bool
  | [] => true
  | e :: es => e.isWritable prec true && areWritable prec es

end

mutual

/-- How many parentheses, ranges and calls stand inside each other where the expression is written. -/
def Expr.nesting : Expr → Nat
  | var _ | int _ | real _ => 0
  | binary left _ right | range left right => Nat.max left.nesting right.nesting + 1
  | call _ args => nestingAll args + 1
  | lambda _ body => body.nesting

def Expr.nestingAll : List Expr → Nat
  | [] => 0
  | e :: es => Nat.max e.nesting (nestingAll es)

end

/-- The statement can be written. -/
def Stmt.isWritable (prec : Precedence) : Stmt → Bool
  | declare name value => isNameText name.text && value.isWritable prec false
  | out value => value.isWritable prec false
  | print text => !text.toList.contains '"'

/-- How many parentheses, ranges and calls stand inside each other where the statement is written. -/
def Stmt.nesting : Stmt → Nat
  | declare _ value | out value => value.nesting
  | print _ => 0

/-! ## Scanning what was written -/

section Scanning
variable {prec : Precedence} {tight : Bool}

theorem Token.isWord_ofName {text : String} (h : isNameText text = true) : IsWord [ofName text] :=
  isWord_single (isText_of_isNameText h)

mutual

theorem Expr.isWord_of_mem_words (e : Expr) {asArg : Bool} (h : e.isWritable prec asArg = true) :
    ∀ w ∈ e.words tight, IsWord w := by
  cases e with
  | var name => exact List.forall_mem_singleton.2 (isWord_ofName h)
  | int literal => exact isWord_of_mem_numberWords (isUnsigned_of_isDigits h)
  | real literal => exact isWord_of_mem_numberWords (isUnsigned_of_isPointed h)
  | binary left op right =>
    simp only [isWritable, Bool.and_eq_true] at h
    obtain ⟨⟨⟨hop, -⟩, hleft⟩, hright⟩ := h
    have hword : IsWord [ofOperator op.text] := by
      obtain ⟨k, -, hfixed, heq⟩ := ofOperator_eq_plain hop
      rw [heq]
      exact isWord_plain hfixed
    rw [words]
    simp only [List.forall_mem_cons, List.forall_mem_append, List.not_mem_nil, false_imp_iff,
      implies_true, and_true]
    exact ⟨isWord_plain rfl, isWord_of_mem_words left hleft, hword, isWord_of_mem_words right hright,
      isWord_plain rfl⟩
  | range left right =>
    simp only [isWritable, Bool.and_eq_true] at h
    rw [words]
    simp only [List.forall_mem_cons, List.forall_mem_append, List.not_mem_nil, false_imp_iff,
      implies_true, and_true]
    exact ⟨isWord_plain rfl, isWord_of_mem_words left h.1, isWord_plain rfl,
      isWord_of_mem_words right h.2, isWord_plain rfl⟩
  | call function args =>
    simp only [isWritable, Bool.and_eq_true] at h
    obtain ⟨⟨hname, -⟩, hargs⟩ := h
    rw [words]
    simp only [List.forall_mem_cons, List.forall_mem_append, List.not_mem_nil, false_imp_iff,
      implies_true, and_true]
    exact ⟨isWord_ofName hname, isWord_plain rfl,
      fun w hw => isWord_of_mem_argWords args hargs w (List.mem_of_mem_tail hw), isWord_plain rfl⟩
  | lambda params body =>
    simp only [isWritable, Bool.and_eq_true, List.all_eq_true] at h
    obtain ⟨⟨-, hparams⟩, hbody⟩ := h
    simp only [words, List.forall_mem_cons, List.forall_mem_append, List.forall_mem_map]
    exact ⟨fun p hp => isWord_ofName (hparams p hp), isWord_plain rfl, isWord_of_mem_words body hbody⟩

theorem Expr.isWord_of_mem_argWords (es : List Expr) (h : areWritable prec es = true) :
    ∀ w ∈ argWords tight es, IsWord w := by
  cases es with
  | nil => exact fun w hw => by cases hw
  | cons e es =>
    simp only [areWritable, Bool.and_eq_true] at h
    simp only [argWords, List.forall_mem_cons, List.forall_mem_append]
    exact ⟨isWord_plain rfl, isWord_of_mem_words e h.1, isWord_of_mem_argWords es h.2⟩

end

theorem Stmt.isWord_of_mem_words (s : Stmt) (h : s.isWritable prec = true) :
    ∀ w ∈ s.words tight, IsWord w := by
  cases s with
  | declare name value =>
    simp only [isWritable, Bool.and_eq_true] at h
    simp only [words, List.forall_mem_cons]
    exact ⟨isWord_plain rfl, isWord_ofName h.1, isWord_plain rfl, value.isWord_of_mem_words h.2⟩
  | out value =>
    simp only [words, List.forall_mem_cons]
    exact ⟨isWord_plain rfl, value.isWord_of_mem_words h⟩
  | print text =>
    rw [words]
    simp only [List.forall_mem_cons, List.not_mem_nil, false_imp_iff, implies_true, and_true]
    refine ⟨isWord_plain rfl, isWord_single ?_⟩
    rw [String.toList_append, String.toList_append]
    exact .string (by simpa [isWritable] using h)

end Scanning

/-! ## Reading what was written -/

theorem Precedence.foldLevels_pair (levels : List (List String)) (left : Expr) (op : Lexeme)
    (right : Expr) (h : levels.any (·.contains op.text) = true) :
    foldLevels levels left [(op, right)] = (.binary left op right, []) := by
  induction levels with
  | nil => cases h
  | cons level levels ih =>
    rw [foldLevels, foldLevel]
    by_cases hlevel : level.contains op.text = true
    · rw [if_pos hlevel]
      exact foldLevels_nil levels _
    · rw [if_neg hlevel]
      rw [List.any_cons, Bool.or_eq_true] at h
      exact ih (h.resolve_left hlevel)

namespace Grammar

variable {prec : Precedence} {d : Nat}

/-- Two atoms with an operator between them are an expression. -/
theorem isExpr_binary {ts us : List Token} {op : Token} {left right : Expr}
    (hleft : IsAtom prec d ts left) (hop : IsOperator prec op) (hright : IsAtom prec d us right) :
    IsExpr prec d (ts ++ op :: us) (.binary left op.lexeme right) := by
  have hfold : prec.fold [left, right] [op.lexeme] = .ok (.binary left op.lexeme right) := by
    have hlevels := Precedence.foldLevels_pair prec.levels left op.lexeme right hop.2
    have hchain := prec.fold_eq_foldChain left [(op.lexeme, right)]
    rw [Precedence.foldChain, hlevels] at hchain
    exact hchain
  have htail : IsTail prec (IsAtom prec d) (op :: (us ++ [])) [(op.lexeme, right)] :=
    .cons hop hright .nil
  rw [List.append_nil] at htail
  exact .chain hleft htail hfold

theorem isAtom_number {ts : List Token} {e : Expr} (h : IsNumber ts e) : IsAtom prec d ts e := by
  cases d <;> exact .number h

/-- What stands as an operand, or as an argument of a call. -/
def IsOperand (prec : Precedence) (d : Nat) : Bool → List Token → Expr → Prop
  | false => IsAtom prec d
  | true => IsArg (IsExpr prec d)

theorem isOperand_of_isAtom {ts : List Token} {e : Expr} (h : IsAtom prec d ts e) (asArg : Bool) :
    IsOperand prec d asArg ts e :=
  match asArg with
  | false => h
  | true => .expr (isExprOver_of_atom h)

end Grammar

section Reading
variable {prec : Precedence} {tight : Bool}

mutual

/-- The words of an expression are read as the expression. -/
theorem Expr.isOperand_words (e : Expr) {asArg : Bool} {d : Nat} (h : e.isWritable prec asArg = true)
    (hd : e.nesting ≤ d) :
    IsOperand prec d asArg (e.words tight).flatten (e.relocate Position.forget) := by
  cases e with
  | var name => exact isOperand_of_isAtom (isAtom_name (kind_ofName name.text)) asArg
  | int literal =>
    exact isOperand_of_isAtom
      (isAtom_number (isNumber_numberWords (isUnsigned_of_isDigits h) .int .int)) asArg
  | real literal =>
    exact isOperand_of_isAtom
      (isAtom_number (isNumber_numberWords (isUnsigned_of_isPointed h) .real .real)) asArg
  | binary left op right =>
    simp only [isWritable, Bool.and_eq_true] at h
    obtain ⟨⟨⟨hop, hknows⟩, hleft⟩, hright⟩ := h
    have hoperator : IsOperator prec (ofOperator op.text) := by
      obtain ⟨k, hkind, -, heq⟩ := ofOperator_eq_plain hop
      refine ⟨?_, hknows⟩
      rw [heq]
      exact hkind
    -- the parentheses take one level, and the operands stand one level further inside
    obtain ⟨d, rfl⟩ := Nat.exists_eq_add_one.2 (Nat.lt_of_lt_of_le (Nat.succ_pos _) hd)
    obtain ⟨hl, hr⟩ := Nat.max_le.1 (Nat.le_of_succ_le_succ hd)
    have hexpr :=
      isExpr_binary (isOperand_words left hleft hl) hoperator (isOperand_words right hright hr)
    have hatom : IsAtom prec (d + 1) _ _ :=
      .parenthesized (kind_plain .leftParen) hexpr (kind_plain .rightParen)
    rw [words]
    simp only [List.flatten_cons, List.flatten_append, List.flatten_nil, List.append_nil,
      List.cons_append, List.nil_append, List.append_assoc] at hatom ⊢
    exact isOperand_of_isAtom hatom asArg
  | range left right =>
    simp only [isWritable, Bool.and_eq_true] at h
    obtain ⟨d, rfl⟩ := Nat.exists_eq_add_one.2 (Nat.lt_of_lt_of_le (Nat.succ_pos _) hd)
    obtain ⟨hl, hr⟩ := Nat.max_le.1 (Nat.le_of_succ_le_succ hd)
    have hatom : IsAtom prec (d + 1) _ _ :=
      .range (kind_plain .leftBrace) (isExprOver_of_atom (isOperand_words left h.1 hl))
        (kind_plain .comma) (isExprOver_of_atom (isOperand_words right h.2 hr)) (kind_plain .rightBrace)
    rw [words]
    simp only [List.flatten_cons, List.flatten_append, List.flatten_nil, List.append_nil,
      List.cons_append, List.nil_append] at hatom ⊢
    exact isOperand_of_isAtom hatom asArg
  | call function args =>
    simp only [isWritable, Bool.and_eq_true] at h
    obtain ⟨⟨-, hne⟩, hargs⟩ := h
    obtain ⟨d, rfl⟩ := Nat.exists_eq_add_one.2 (Nat.lt_of_lt_of_le (Nat.succ_pos _) hd)
    cases args with
    | nil => cases hne
    | cons first more =>
      simp only [areWritable, Bool.and_eq_true] at hargs
      obtain ⟨hf, hm⟩ := Nat.max_le.1 (Nat.le_of_succ_le_succ hd)
      have hatom : IsAtom prec (d + 1) _ _ :=
        .call (kind_ofName function.text) (kind_plain .leftParen) (isOperand_words first hargs.1 hf)
          (isMoreArgs_argWords more hargs.2 hm) (kind_plain .rightParen)
      rw [words, argWords, List.tail_cons]
      simp only [List.flatten_cons, List.flatten_append, List.flatten_nil, List.append_nil,
        List.cons_append, List.nil_append, List.append_assoc] at hatom ⊢
      exact isOperand_of_isAtom hatom asArg
  | lambda params body =>
    simp only [isWritable, Bool.and_eq_true] at h
    obtain ⟨⟨⟨rfl, hne⟩, -⟩, hbody⟩ := h
    have hexpr : IsExpr prec d _ _ := isExprOver_of_atom (isOperand_words body hbody hd)
    let names : List Token := params.map fun p => ofName p.text
    have hnames : names ≠ [] := by simpa [names] using hne
    have hkind : ∀ t ∈ names, t.kind = .name := by simp [names, kind_ofName]
    have hlambda := IsArg.lambda hnames hkind (kind_plain .arrow) hexpr
    have hlexemes : names.map Token.lexeme = params.map (Lexeme.relocate Position.forget) := by
      rw [List.map_map]
      rfl
    have hflatten : (params.map fun p => [ofName p.text]).flatten = names := by
      rw [← List.flatMap_def]
      exact List.map_eq_flatMap.symm
    rw [hlexemes] at hlambda
    rw [words, List.flatten_append, List.flatten_cons, hflatten, List.singleton_append]
    exact hlambda

theorem Expr.isMoreArgs_argWords (es : List Expr) {d : Nat} (h : areWritable prec es = true)
    (hd : nestingAll es ≤ d) :
    IsMoreArgs (IsExpr prec d) (argWords tight es).flatten (relocateAll Position.forget es) := by
  cases es with
  | nil => exact .nil
  | cons e es =>
    simp only [areWritable, Bool.and_eq_true] at h
    obtain ⟨he, hes⟩ := Nat.max_le.1 hd
    have he := isOperand_words e h.1 he
    have hes := isMoreArgs_argWords es h.2 hes
    rw [argWords, List.flatten_cons, List.flatten_append, List.singleton_append]
    exact .cons (kind_plain .comma) he hes

end

theorem Parse.unquoted_quoted (text : String) : unquoted ("\"" ++ text ++ "\"") = text := by
  have hchars : ("\"" ++ text ++ "\"").toList = '"' :: (text.toList ++ ['"']) := by
    rw [String.toList_append, String.toList_append]
    rfl
  simp [unquoted, hchars]

theorem Stmt.isStatement_words (s : Stmt) (h : s.isWritable prec = true) (hn : s.nesting ≤ 256) :
    IsStatement prec (s.words tight).flatten (s.relocate Position.forget) := by
  cases s with
  | declare name value =>
    simp only [isWritable, Bool.and_eq_true] at h
    exact .declare (kind_plain .var) (kind_ofName name.text) (kind_plain .assign)
      (isExprOver_of_atom (value.isOperand_words h.2 hn))
  | out value =>
    exact .out (kind_plain .out) (isExprOver_of_atom (value.isOperand_words h hn))
  | print text =>
    have hprint : IsStatement prec [plain .print, ⟨.string, "\"" ++ text ++ "\"", .start⟩]
        (.print (unquoted ("\"" ++ text ++ "\""))) := .print rfl rfl
    rw [unquoted_quoted] at hprint
    exact hprint

theorem Program.isProgram_words (p : Program) (h : ∀ s ∈ p, s.isWritable prec = true)
    (hn : ∀ s ∈ p, s.nesting ≤ 256) :
    IsProgram prec (p.flatMap (Stmt.words tight)).flatten (Program.relocate Position.forget p) := by
  induction p with
  | nil => exact .nil
  | cons s p ih =>
    obtain ⟨hs, hp⟩ := List.forall_mem_cons.1 h
    obtain ⟨hns, hnp⟩ := List.forall_mem_cons.1 hn
    rw [List.flatMap_cons, List.flatten_append]
    exact .cons (s.isStatement_words hs hns) (ih hp hnp)

end Reading

/-- Words whose tokens make up a program are read as this program, once positions are forgotten. -/
theorem Language.parse_renderWords (lang : Language) {ws : List (List Token)} (hws : ∀ w ∈ ws, IsWord w)
    {p : Program} (h : IsProgram lang.precedence ws.flatten p) :
    ∃ q, lang.parse (renderWords ws) = .ok q ∧ Program.relocate Position.forget q = p := by
  obtain ⟨stream, hscan, htokens⟩ := (spells_renderWords hws).scan
  have hread : program lang.precedence (stream.relocate Position.forget) = .ok p := by
    apply program_of_isProgram
    rw [Stream.relocate, htokens]
    exact h
  rw [program_relocate] at hread
  rw [parse_of_scan hscan]
  rcases hprogram : program lang.precedence stream with e | q <;> rw [hprogram] at hread
  · cases hread
  · exact ⟨q, rfl, Except.ok.inj hread⟩

/-- A program that can be written, with at most 256 parentheses, ranges and calls inside each other, is
read back from its text as the same program up to positions. -/
theorem parse_render (lang : Language) (tight : Bool) {p : Program}
    (h : ∀ s ∈ p, s.isWritable lang.precedence = true) (hn : ∀ s ∈ p, s.nesting ≤ 256) :
    ∃ q, lang.parse (Program.render tight p) = .ok q ∧ Program.same p q = true := by
  have hwords : ∀ w ∈ p.flatMap (Stmt.words tight), IsWord w := by
    intro w hw
    obtain ⟨s, hs, hw⟩ := List.mem_flatMap.1 hw
    exact s.isWord_of_mem_words (h s hs) w hw
  obtain ⟨q, hparse, hq⟩ := lang.parse_renderWords hwords (Program.isProgram_words p h hn)
  exact ⟨q, hparse, (Program.same_iff p q).2 hq.symm⟩

/-- A difference from a negative number inside a lambda, which is an argument, and a text that would be
a statement if it were not in quotes. -/
theorem parse_render_nested :
    let here : Position := ⟨7, 7⟩
    let p : Program := [
      .declare ⟨"xs", here⟩ (.range (.int ⟨"-1", here⟩)
        (.binary (.int ⟨"2", here⟩) ⟨"^", here⟩ (.real ⟨"3.", here⟩))),
      .out (.call ⟨"reduce", here⟩ [.var ⟨"xs", here⟩, .int ⟨"0", here⟩, .lambda [⟨"a", here⟩, ⟨"b", here⟩]
        (.binary (.var ⟨"a", here⟩) ⟨"-", here⟩ (.real ⟨"-5.5", here⟩))]),
      .print "out xs"]
    let text := "var xs = \x7b -1 , ( 2 ^ 3. ) \x7d out reduce ( xs , 0 , a b -> ( a - -5.5 ) ) " ++
      "print \"out xs\""
    (∀ s ∈ p, s.isWritable Precedence.standard = true) ∧ (∀ s ∈ p, s.nesting ≤ 256) ∧
      Program.render true p = text ∧
      ∃ q, Language.standard.parse text = .ok q ∧ Program.same p q = true := by
  intro here p text
  have hwritable : ∀ s ∈ p, s.isWritable Precedence.standard = true := by decide +kernel
  have hnesting : ∀ s ∈ p, s.nesting ≤ 256 := by decide +kernel
  have htext : Program.render true p = text := by decide +kernel
  refine ⟨hwritable, hnesting, htext, ?_⟩
  rw [← htext]
  exact parse_render Language.standard true hwritable hnesting

end RangeScript
