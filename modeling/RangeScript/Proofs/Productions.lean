import RangeScript.Proofs.Fold
import RangeScript.Proofs.Reading

/-!
# Each parser reads its nonterminal

For every parser of expressions, statements and programs: what it reads is derived by the grammar
from exactly the tokens it took, and at each of its notes the tokens before can be continued to a
phrase of its nonterminal. The parsers of parts are checked over any parser `inner` that reads some
language `E` (`Reads prec inner E E []`), and `reads_atom` closes the recursion over the depth.
-/

namespace RangeScript.Parse

open RangeScript.Grammar

/-- Some token of a kind, to continue a list of tokens with. -/
def sample (kind : Token.Kind) : Token := ⟨kind, "", .start⟩

@[simp] theorem sample_kind (kind : Token.Kind) : (sample kind).kind = kind := rfl

variable {prec : Precedence}

/-! ## Numbers, names and operators -/

theorem reads_sign : Reads prec sign IsSign IsNumber [] := by
  have hsigned : ∀ {ts : List Token} {minus : Bool}, IsSign ts minus → Viable IsNumber ts :=
    fun h => ⟨[sample .int], _, .int h rfl⟩
  refine Reads.nextKind fun kind => ?_
  split
  · refine (Reads.token (sample_kind .minus) (hsigned (.minus rfl))).bind fun ts t ht => ?_
    obtain ⟨rfl, ht⟩ := ht
    exact Reads.pure (.minus ht)
  · refine (Reads.token (sample_kind .plus) (hsigned (.plus rfl))).bind fun ts t ht => ?_
    obtain ⟨rfl, ht⟩ := ht
    exact Reads.pure (.plus ht)
  · exact Reads.pure .none

theorem numberText_eq (minus : Bool) (text : String) :
    numberText minus text = signedDigits minus text := by
  have hkept : (fun c : Char => c != '_') = fun c => decide (c ≠ '_') := by
    funext c
    by_cases h : c = '_' <;> simp [h]
  unfold numberText signedDigits
  rw [hkept, String.ofList_append]
  cases minus <;> rfl

theorem reads_number : Reads prec number IsNumber IsNumber [] := by
  refine reads_sign.bind fun ts minus hsign => ?_
  have hnumber : Names prec .number [sample .int] := .number (.int .none rfl)
  refine (Reads.tokenWhere (Fits.of_names hnumber (.of_mem (.int hsign rfl)))).bind fun us t ht => ?_
  obtain ⟨rfl, ht⟩ := ht
  apply Reads.pure
  simp only [List.append_nil, numberText_eq]
  split
  · next h => exact .int hsign (eq_of_beq h)
  · next h =>
    refine .real hsign ?_
    simpa [h] using ht

theorem reads_operator {σ : Type} {S : List Token → σ → Prop} {before : List Token}
    (hbefore : Viable S before) (h : ∀ t, IsOperator prec t → Viable S (before ++ [t])) :
    Reads prec (operator prec) (fun ts op => ∃ t, IsOperator prec t ∧ ts = [t] ∧ op = t.lexeme)
      S before := by
  have hfits : Fits prec S before .operator := by
    by_cases hop : ∃ t, IsOperator prec t
    · obtain ⟨t, ht⟩ := hop
      exact Fits.of_names (.operator ht) (h t ht)
    · exact ⟨hbefore, Or.inr (Or.inl ⟨rfl, fun t ht => hop ⟨t, ht⟩⟩)⟩
  refine (Reads.tokenWhere hfits).bind fun ts t ht => ?_
  obtain ⟨rfl, ht⟩ := ht
  exact Reads.pure ⟨t, by simpa [IsOperator] using ht, rfl, rfl⟩

/-- The tokens are all names, and are read as they are. -/
def AreNames (ts names : List Token) : Prop := ts = names ∧ ∀ t ∈ names, t.kind = .name

theorem reads_names :
    Reads prec (Parser.manyWhile (· == .name) (Parser.token .name)) AreNames AreNames [] := by
  refine Reads.manyWhile ?_ ⟨rfl, by simp⟩ _
    (Reads.token (sample_kind .name) ⟨[], [sample .name], rfl, by simp⟩)
  rintro ts us t names ⟨rfl, ht⟩ ⟨rfl, hnames⟩
  exact ⟨rfl, List.forall_mem_cons.2 ⟨ht, hnames⟩⟩

/-! ## Parts that hold expressions -/

section Inside
variable {E : List Token → Expr → Prop} {inner : Parser Expr}

theorem reads_variableName : Reads prec variableName (IsAtomOver E) (IsAtomOver E) [] := by
  refine (Reads.token (sample_kind .name) (.of_mem (.name rfl))).bind fun ts t ht => ?_
  obtain ⟨rfl, ht⟩ := ht
  exact Reads.pure (.name ht)

variable (hinner : Reads prec inner E E []) {xs : List Token} {x : Expr} (hx : E xs x)
include hinner hx

theorem reads_parenthesized :
    Reads prec (parenthesized inner) (IsAtomOver E) (IsAtomOver E) [] := by
  have hl : Viable (IsAtomOver E) [sample .leftParen] :=
    ⟨xs ++ [sample .rightParen], x, .parenthesized rfl hx rfl⟩
  refine (Reads.token (sample_kind .leftParen) hl).bind fun ts l hl => ?_
  obtain ⟨rfl, hl⟩ := hl
  refine (hinner.into ?_).bind fun ts e he => ?_
  · rintro u ⟨v, e, huv⟩
    exact ⟨v ++ [sample .rightParen], e, by simpa using IsAtomOver.parenthesized hl huv rfl⟩
  refine (Reads.token (sample_kind .rightParen) ?_).bind fun us r hr => ?_
  · exact .of_mem (by simpa using IsAtomOver.parenthesized hl he rfl)
  obtain ⟨rfl, hr⟩ := hr
  exact Reads.pure (by simpa using IsAtomOver.parenthesized hl he hr)

theorem reads_range : Reads prec (range inner) (IsAtomOver E) (IsAtomOver E) [] := by
  have hl : Viable (IsAtomOver E) [sample .leftBrace] :=
    ⟨xs ++ sample .comma :: (xs ++ [sample .rightBrace]), _, .range rfl hx rfl hx rfl⟩
  refine (Reads.token (sample_kind .leftBrace) hl).bind fun ts l hl => ?_
  obtain ⟨rfl, hl⟩ := hl
  refine (hinner.into ?_).bind fun ts lo hlo => ?_
  · rintro u ⟨v, lo, huv⟩
    exact ⟨v ++ sample .comma :: (xs ++ [sample .rightBrace]), _,
      by simpa using IsAtomOver.range hl huv rfl hx rfl⟩
  refine (Reads.token (sample_kind .comma) ?_).bind fun cs comma hcomma => ?_
  · exact ⟨xs ++ [sample .rightBrace], _, by simpa using IsAtomOver.range hl hlo rfl hx rfl⟩
  obtain ⟨rfl, hcomma⟩ := hcomma
  refine (hinner.into ?_).bind fun us hi hhi => ?_
  · rintro u ⟨v, hi, huv⟩
    exact ⟨v ++ [sample .rightBrace], _, by simpa using IsAtomOver.range hl hlo hcomma huv rfl⟩
  refine (Reads.token (sample_kind .rightBrace) ?_).bind fun rs r hr => ?_
  · exact .of_mem (by simpa using IsAtomOver.range hl hlo hcomma hhi rfl)
  obtain ⟨rfl, hr⟩ := hr
  exact Reads.pure (by simpa using IsAtomOver.range hl hlo hcomma hhi hr)

theorem reads_lambda : Reads prec (lambda inner) (IsArg E) (IsArg E) [] := by
  have hfirst : Viable (IsArg E) [sample .name] :=
    ⟨sample .arrow :: xs, _, .lambda (List.cons_ne_nil _ []) (by simp) rfl hx⟩
  refine (Reads.token (sample_kind .name) hfirst).bind fun ts first hname => ?_
  obtain ⟨rfl, hname⟩ := hname
  have hlambda : ∀ {more ts : List Token} {arrow : Token} {body : Expr},
      (∀ p ∈ more, p.kind = .name) → arrow.kind = .arrow → E ts body →
      IsArg E (first :: more ++ arrow :: ts) (.lambda ((first :: more).map Token.lexeme) body) :=
    fun hmore harrow hbody =>
      .lambda (List.cons_ne_nil _ _) (List.forall_mem_cons.2 ⟨hname, hmore⟩) harrow hbody
  refine (reads_names.into ?_).bind fun us more hmore => ?_
  · rintro u ⟨v, more, rfl, hmore⟩
    refine ⟨v ++ sample .arrow :: xs, .lambda ((first :: (u ++ v)).map Token.lexeme) x, ?_⟩
    simpa using hlambda hmore rfl hx
  obtain ⟨rfl, hmore⟩ := hmore
  refine (Reads.token (sample_kind .arrow) ?_).bind fun as arrow harrow => ?_
  · exact ⟨xs, _, by simpa using hlambda hmore rfl hx⟩
  obtain ⟨rfl, harrow⟩ := harrow
  refine (hinner.into ?_).bind fun ts body hbody => ?_
  · rintro u ⟨v, body, huv⟩
    exact ⟨v, _, by simpa using hlambda hmore harrow huv⟩
  exact Reads.pure (by simpa using hlambda hmore harrow hbody)

theorem reads_arg : Reads prec (arg inner) (IsArg E) (IsArg E) [] := by
  refine (reads_lambda hinner hx).orElse ((hinner.into ?_).mono fun _ _ => .expr)
  rintro u ⟨v, e, huv⟩
  exact ⟨v, e, .expr huv⟩

/-- One more argument: a comma and an argument. -/
theorem reads_nextArg :
    Reads prec (do let _ ← Parser.token .comma; arg inner)
      (fun ts e => ∃ comma us, comma.kind = .comma ∧ ts = comma :: us ∧ IsArg E us e)
      (IsMoreArgs E) [] := by
  have hcomma : Viable (IsMoreArgs E) [sample .comma] :=
    ⟨xs, [x], by simpa using IsMoreArgs.cons rfl (.expr hx) .nil⟩
  refine (Reads.token (sample_kind .comma) hcomma).bind fun ts comma hcomma => ?_
  obtain ⟨rfl, hcomma⟩ := hcomma
  refine ((reads_arg hinner hx).into ?_).mono fun ts e he => ⟨comma, ts, hcomma, rfl, he⟩
  rintro u ⟨v, e, huv⟩
  exact ⟨v, [e], by simpa using IsMoreArgs.cons hcomma huv .nil⟩

theorem reads_moreArgs :
    Reads prec (Parser.manyWhile (· == .comma) (do let _ ← Parser.token .comma; arg inner))
      (IsMoreArgs E) (IsMoreArgs E) [] := by
  refine Reads.manyWhile ?_ .nil _ (reads_nextArg hinner hx)
  rintro _ us e es ⟨comma, ts, hcomma, rfl, he⟩ hes
  exact .cons hcomma he hes

theorem reads_call : Reads prec (call inner) (IsAtomOver E) (IsAtomOver E) [] := by
  have hf : Viable (IsAtomOver E) [sample .name] :=
    ⟨sample .leftParen :: (xs ++ ([] ++ [sample .rightParen])), _, .call rfl rfl (.expr hx) .nil rfl⟩
  refine (Reads.token (sample_kind .name) hf).bind fun ts f hf => ?_
  obtain ⟨rfl, hf⟩ := hf
  have hl : Viable (IsAtomOver E) [f, sample .leftParen] :=
    ⟨xs ++ ([] ++ [sample .rightParen]), _, .call hf rfl (.expr hx) .nil rfl⟩
  refine (Reads.token (sample_kind .leftParen) hl).bind fun ts l hl => ?_
  obtain ⟨rfl, hl⟩ := hl
  refine ((reads_arg hinner hx).into ?_).bind fun ts first hfirst => ?_
  · rintro u ⟨v, e, huv⟩
    exact ⟨v ++ [sample .rightParen], _, by simpa using IsAtomOver.call hf hl huv .nil rfl⟩
  refine ((reads_moreArgs hinner hx).into ?_).bind fun us more hmore => ?_
  · rintro u ⟨v, es, huv⟩
    exact ⟨v ++ [sample .rightParen], _, by simpa using IsAtomOver.call hf hl hfirst huv rfl⟩
  refine (Reads.token (sample_kind .rightParen) ?_).bind fun rs r hr => ?_
  · exact .of_mem (by simpa using IsAtomOver.call hf hl hfirst hmore rfl)
  obtain ⟨rfl, hr⟩ := hr
  exact Reads.pure (by simpa using IsAtomOver.call hf hl hfirst hmore hr)

end Inside

/-! ## Atoms and expressions -/

theorem isAtom_name {depth : Nat} {t : Token} (h : t.kind = .name) :
    IsAtom prec depth [t] (.var t.lexeme) := by
  cases depth with
  | zero => exact .name h
  | succ depth => exact .name h

theorem isExprOver_of_atom {atom : List Token → Expr → Prop} {ts : List Token} {e : Expr}
    (h : atom ts e) : IsExprOver prec atom ts e := by
  simpa using IsExprOver.chain h .nil (prec.fold_single e)

theorem isExpr_name {depth : Nat} {t : Token} (h : t.kind = .name) :
    IsExpr prec depth [t] (.var t.lexeme) := isExprOver_of_atom (isAtom_name h)

section Atoms
variable {E : List Token → Expr → Prop} {inner : Option (Parser Expr)}

theorem reads_within {part : Parser Expr → Parser Expr}
    (h : ∀ i, inner = some i → Reads prec (part i) (IsAtomOver E) (IsAtomOver E) []) :
    Reads prec (within inner part) (IsAtomOver E) (IsAtomOver E) [] := by
  cases inner with
  | some i => exact h i rfl
  | none => exact Reads.fail ⟨⟨[sample .name], _, .name rfl⟩, Or.inl rfl⟩

theorem reads_atomOver (h : ∀ i, inner = some i → Reads prec i E E [] ∧ ∃ xs x, E xs x) :
    Reads prec (atomOver inner) (IsAtomOver E) (IsAtomOver E) [] := by
  have hname : Reads prec variableName (IsAtomOver E) (IsAtomOver E) [] := reads_variableName
  have hnumber : Reads prec number (IsAtomOver E) (IsAtomOver E) [] :=
    (reads_number.into fun u ⟨v, e, huv⟩ => ⟨v, e, .number huv⟩).mono fun _ _ => .number
  refine Reads.nextKind fun kind => ?_
  split
  · refine Reads.secondKind fun second => ?_
    split
    · refine (reads_within fun i hi => ?_).orElse hname
      obtain ⟨hi, xs, x, hx⟩ := h i hi
      exact reads_call hi hx
    · exact hname
  · exact hnumber
  · exact hnumber
  · exact hnumber
  · exact hnumber
  · refine reads_within fun i hi => ?_
    obtain ⟨hi, xs, x, hx⟩ := h i hi
    exact reads_parenthesized hi hx
  · refine reads_within fun i hi => ?_
    obtain ⟨hi, xs, x, hx⟩ := h i hi
    exact reads_range hi hx
  · have hexpr : Names prec .expression [sample .name] := .expression (isExpr_name rfl)
    exact Reads.fail (Fits.of_names hexpr (.of_mem (.name rfl)))

end Atoms

section Chains
variable {A : List Token → Expr → Prop} {atom : Parser Expr}

theorem knows_of_isTail {ts : List Token} {rest : List (Lexeme × Expr)} (h : IsTail prec A ts rest) :
    ∀ pair ∈ rest, prec.knows pair.1.text = true := by
  induction h with
  | nil => simp
  | cons hop _ _ ih => exact List.forall_mem_cons.2 ⟨hop.2, ih⟩

variable (hatom : Reads prec atom A A []) {xs : List Token} {x : Expr} (hx : A xs x)
include hatom hx

/-- One more operand: an operator and an atom. -/
theorem reads_operand :
    Reads prec (do let op ← operator prec; let term ← atom; return (op, term))
      (fun ts pair => ∃ op us, IsOperator prec op ∧ ts = op :: us ∧ pair.1 = op.lexeme ∧ A us pair.2)
      (IsTail prec A) [] := by
  refine (reads_operator (.of_mem .nil) fun op hop => ?_).bind fun ts op hop => ?_
  · exact ⟨xs, [(op.lexeme, x)], by simpa using IsTail.cons hop hx .nil⟩
  obtain ⟨t, ht, rfl, rfl⟩ := hop
  refine (hatom.into ?_).bind fun us e he => ?_
  · rintro u ⟨v, e, huv⟩
    exact ⟨v, [(t.lexeme, e)], by simpa using IsTail.cons ht huv .nil⟩
  exact Reads.pure ⟨t, us, ht, by simp, rfl, he⟩

theorem reads_tail :
    Reads prec (Parser.many (do let op ← operator prec; let term ← atom; return (op, term)))
      (IsTail prec A) (IsTail prec A) [] := by
  refine Reads.many ?_ .nil (reads_operand hatom hx)
  rintro _ us ⟨_, e⟩ rest ⟨op, ts, hop, rfl, rfl, he⟩ hrest
  exact .cons hop he hrest

theorem reads_exprOver :
    Reads prec (exprOver prec atom) (IsExprOver prec A) (IsExprOver prec A) [] := by
  refine (hatom.into ?_).bind fun ts first hfirst => ?_
  · rintro u ⟨v, e, huv⟩
    exact ⟨v, e, isExprOver_of_atom huv⟩
  have hchain : ∀ {us : List Token} {rest : List (Lexeme × Expr)}, IsTail prec A us rest →
      ∃ e, prec.foldChain first rest = .ok e ∧ IsExprOver prec A (ts ++ us) e := by
    intro us rest hrest
    obtain ⟨e, he⟩ := prec.exists_foldChain first (knows_of_isTail hrest)
    exact ⟨e, he, .chain hfirst hrest (by rw [prec.fold_eq_foldChain, he])⟩
  refine ((reads_tail hatom hx).into ?_).bind fun us rest hrest => ?_
  · rintro u ⟨v, rest, huv⟩
    obtain ⟨e, -, he⟩ := hchain huv
    exact ⟨v, e, by simpa using he⟩
  obtain ⟨e, hfold, he⟩ := hchain hrest
  rw [hfold]
  exact Reads.pure (by simpa using he)

end Chains

/-- An atom is read over expressions of one level less. -/
theorem reads_atom (prec : Precedence) (depth : Nat) :
    Reads prec (atom prec depth) (IsAtom prec depth) (IsAtom prec depth) [] := by
  induction depth with
  | zero =>
    refine reads_atomOver fun i hi => ?_
    cases hi
  | succ depth ih =>
    refine reads_atomOver fun i hi => ?_
    cases hi
    exact ⟨reads_exprOver ih (isAtom_name (sample_kind .name)), _, _, isExpr_name (sample_kind .name)⟩

theorem reads_expr (prec : Precedence) :
    Reads prec (expr prec) (IsExpr prec maxNesting) (IsExpr prec maxNesting) [] :=
  reads_exprOver (reads_atom prec maxNesting) (isAtom_name (sample_kind .name))

/-! ## Statements and programs -/

theorem reads_statement (prec : Precedence) :
    Reads prec (statement prec) (IsStatement prec) (IsStatement prec) [] := by
  have hexpr : IsExpr prec maxNesting [sample .name] _ := isExpr_name rfl
  refine Reads.nextKind fun kind => ?_
  split
  · have hvar : Viable (IsStatement prec) [sample .var] :=
      ⟨[sample .name, sample .assign, sample .name], _, .declare rfl rfl rfl hexpr⟩
    refine (Reads.token (sample_kind .var) hvar).bind fun ts var hvar => ?_
    obtain ⟨rfl, hvar⟩ := hvar
    have hname : Viable (IsStatement prec) [var, sample .name] :=
      ⟨[sample .assign, sample .name], _, .declare hvar rfl rfl hexpr⟩
    refine (Reads.token (sample_kind .name) hname).bind fun ts name hname => ?_
    obtain ⟨rfl, hname⟩ := hname
    have hassign : Viable (IsStatement prec) [var, name, sample .assign] :=
      ⟨[sample .name], _, .declare hvar hname rfl hexpr⟩
    refine (Reads.token (sample_kind .assign) hassign).bind fun ts assign hassign => ?_
    obtain ⟨rfl, hassign⟩ := hassign
    refine ((reads_expr prec).into ?_).bind fun ts e he => ?_
    · rintro u ⟨v, e, huv⟩
      exact ⟨v, _, .declare hvar hname hassign huv⟩
    exact Reads.pure (by simpa using IsStatement.declare hvar hname hassign he)
  · have hout : Viable (IsStatement prec) [sample .out] := ⟨[sample .name], _, .out rfl hexpr⟩
    refine (Reads.token (sample_kind .out) hout).bind fun ts out hout => ?_
    obtain ⟨rfl, hout⟩ := hout
    refine ((reads_expr prec).into ?_).bind fun ts e he => ?_
    · rintro u ⟨v, e, huv⟩
      exact ⟨v, _, .out hout huv⟩
    exact Reads.pure (by simpa using IsStatement.out hout he)
  · have hprint : Viable (IsStatement prec) [sample .print] :=
      ⟨[sample .string], _, .print rfl rfl⟩
    refine (Reads.token (sample_kind .print) hprint).bind fun ts print hprint => ?_
    obtain ⟨rfl, hprint⟩ := hprint
    refine (Reads.token (sample_kind .string) (.of_mem (.print hprint rfl))).bind fun ts t ht => ?_
    obtain ⟨rfl, ht⟩ := ht
    exact Reads.pure (.print hprint ht)
  · have hout : IsStatement prec [sample .out, sample .name] _ := .out rfl hexpr
    exact Reads.fail (Fits.of_names (.statement hout) (.of_mem hout))

theorem reads_program (prec : Precedence) :
    Reads prec (Parser.manyWhile (fun _ => true) (statement prec)) (IsProgram prec)
      (IsProgram prec) [] := by
  refine Reads.manyWhile (fun _ _ _ _ hs hp => .cons hs hp) .nil _ ((reads_statement prec).into ?_)
  rintro u ⟨v, s, huv⟩
  exact ⟨v, [s], by simpa using IsProgram.cons huv .nil⟩

end RangeScript.Parse
