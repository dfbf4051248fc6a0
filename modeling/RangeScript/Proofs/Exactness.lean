import Mathlib.Data.Set.Subsingleton
import RangeScript.Proofs.Productions
import RangeScript.Proofs.Taking

/-!
# The parser reads what the grammar derives

Alternatives are tried in a fixed order and the first that succeeds is kept, so that nothing is lost
has to come from what may follow a phrase. After an expression there is a closing token, a comma, a
keyword or nothing (`ExprEnd`), after an atom one of these or an operator (`AtomEnd`). With such an
end in sight each parser takes what its nonterminal derives (`takes_atom`, `takes_expr`,
`takes_program`). In the other direction see `reads_program`.
-/

namespace RangeScript.Token

/-- The kinds that may come after an expression. -/
def Kind.endsExpr : Kind → Bool
  | .rightParen | .rightBrace | .comma | .var | .out | .print => true
  | _ => false

end RangeScript.Token

namespace RangeScript.Parse

open RangeScript.Grammar

variable {prec : Precedence}

/-- What may come after an expression. -/
def ExprEnd (rest : List Token) : Prop := ∀ t ∈ rest.head?, t.kind.endsExpr = true

/-- What may come after an atom. -/
def AtomEnd (rest : List Token) : Prop :=
  ∀ t ∈ rest.head?, t.kind.endsExpr = true ∨ t.kind.isOperator = true

theorem ExprEnd.atomEnd {rest : List Token} (h : ExprEnd rest) : AtomEnd rest :=
  fun t ht => Or.inl (h t ht)

theorem exprEnd_cons {t : Token} {rest : List Token} (h : t.kind.endsExpr = true) :
    ExprEnd (t :: rest) := by
  intro u hu
  cases hu
  exact h

theorem AtomEnd.ne {t : Token} {rest : List Token} (h : AtomEnd (t :: rest)) {kind : Token.Kind}
    (hends : kind.endsExpr = false) (hop : kind.isOperator = false) : t.kind ≠ kind := by
  rintro rfl
  rcases h t rfl with h | h
  · rw [hends] at h
    cases h
  · rw [hop] at h
    cases h

theorem isOperator_of_endsExpr {kind : Token.Kind} (h : kind.endsExpr = true) :
    kind.isOperator = false := by
  cases kind <;> first | rfl | cases h

/-! ## Numbers and names -/

theorem takes_sign {ts us : List Token} {t : Token} {minus : Bool} (h : IsSign ts minus)
    (ht : t.kind = .int ∨ t.kind = .real) : Takes sign ts minus (t :: us) := by
  cases h with
  | none =>
    refine Takes.nextKind (some t.kind) rfl ?_
    rcases ht with ht | ht <;> rw [ht] <;> exact Takes.pure
  | plus hs =>
    refine Takes.nextKind (some .plus) (congrArg some hs) ?_
    exact (Takes.token hs).bind Takes.pure
  | minus hs =>
    refine Takes.nextKind (some .minus) (congrArg some hs) ?_
    exact (Takes.token hs).bind Takes.pure

theorem takes_number {ts rest : List Token} {e : Expr} (h : IsNumber ts e) :
    Takes number ts e rest := by
  cases h with
  | int hsign ht =>
    refine (takes_sign hsign (Or.inl ht)).bind ((Takes.tokenWhere ?_).bind (Takes.pure_of_eq ?_))
    · rw [ht]
      rfl
    · rw [ht, numberText_eq]
      rfl
  | real hsign ht =>
    refine (takes_sign hsign (Or.inr ht)).bind ((Takes.tokenWhere ?_).bind (Takes.pure_of_eq ?_))
    · rw [ht]
      rfl
    · rw [ht, numberText_eq]
      rfl

theorem isNumber_start {ts : List Token} {e : Expr} (h : IsNumber ts e) :
    ∃ t us, ts = t :: us ∧
      (t.kind = .plus ∨ t.kind = .minus ∨ t.kind = .int ∨ t.kind = .real) := by
  cases h with
  | int hsign ht =>
    cases hsign with
    | none => exact ⟨_, _, rfl, Or.inr (Or.inr (Or.inl ht))⟩
    | plus hs => exact ⟨_, _, rfl, Or.inl hs⟩
    | minus hs => exact ⟨_, _, rfl, Or.inr (Or.inl hs)⟩
  | real hsign ht =>
    cases hsign with
    | none => exact ⟨_, _, rfl, Or.inr (Or.inr (Or.inr ht))⟩
    | plus hs => exact ⟨_, _, rfl, Or.inl hs⟩
    | minus hs => exact ⟨_, _, rfl, Or.inr (Or.inl hs)⟩

theorem takes_variableName {t : Token} {rest : List Token} (h : t.kind = .name) :
    Takes variableName [t] (.var t.lexeme) rest :=
  (Takes.token h).bind Takes.pure

/-! ## Parts that hold expressions -/

section Inside
variable {E : List Token → Expr → Prop} {inner : Parser Expr}
  (hinner : ∀ {ts rest : List Token} {e : Expr}, E ts e → ExprEnd rest → Takes inner ts e rest)
include hinner

theorem takes_parenthesized {l r : Token} {ts rest : List Token} {e : Expr}
    (hl : l.kind = .leftParen) (he : E ts e) (hr : r.kind = .rightParen) :
    Takes (parenthesized inner) (l :: (ts ++ [r])) e rest := by
  have hend : ExprEnd ([r] ++ rest) := exprEnd_cons (by rw [hr]; rfl)
  exact (Takes.token hl).bind ((hinner he hend).bind ((Takes.token hr).bind Takes.pure))

theorem takes_range {l comma r : Token} {ts us rest : List Token} {lo hi : Expr}
    (hl : l.kind = .leftBrace) (hlo : E ts lo) (hcomma : comma.kind = .comma) (hhi : E us hi)
    (hr : r.kind = .rightBrace) :
    Takes (range inner) (l :: (ts ++ comma :: (us ++ [r]))) (.range lo hi) rest := by
  have hend : ExprEnd (comma :: (us ++ [r]) ++ rest) := exprEnd_cons (by rw [hcomma]; rfl)
  have hend' : ExprEnd ([r] ++ rest) := exprEnd_cons (by rw [hr]; rfl)
  exact (Takes.token hl).bind ((hinner hlo hend).bind ((Takes.token hcomma).bind
    ((hinner hhi hend').bind ((Takes.token hr).bind Takes.pure))))

omit hinner in
theorem takes_names {names rest : List Token} {n : Nat} (h : ∀ t ∈ names, t.kind = .name)
    (hrest : ∀ t ∈ rest.head?, t.kind ≠ .name) (hn : names.length ≤ n) :
    Takes (Parser.upToWhile (· == .name) (Parser.token .name) n) names names rest := by
  induction names generalizing n with
  | nil =>
    refine Takes.upToWhile_nil (fun t ht => ?_) n
    exact beq_eq_false_iff_ne.2 (hrest t ht)
  | cons t names ih =>
    obtain ⟨ht, hnames⟩ := List.forall_mem_cons.1 h
    simp only [List.length_cons] at hn
    obtain ⟨n, rfl⟩ : ∃ m, n = m + 1 := ⟨n - 1, by omega⟩
    have hstarts : (t.kind == Token.Kind.name) = true := beq_iff_eq.2 ht
    exact Takes.upToWhile_cons hstarts (Takes.token ht) (ih hnames (by omega))

theorem takes_lambda {params ts rest : List Token} {arrow : Token} {body : Expr}
    (hne : params ≠ []) (hparams : ∀ p ∈ params, p.kind = .name) (harrow : arrow.kind = .arrow)
    (hbody : E ts body) (hrest : ExprEnd rest) :
    Takes (lambda inner) (params ++ arrow :: ts) (.lambda (params.map Token.lexeme) body) rest := by
  obtain ⟨first, more, rfl⟩ := List.exists_cons_of_ne_nil hne
  obtain ⟨hfirst, hmore⟩ := List.forall_mem_cons.1 hparams
  have hnames : Takes (Parser.manyWhile (· == .name) (Parser.token .name)) more more
      (arrow :: ts ++ rest) := by
    refine Takes.manyWhile (takes_names hmore ?_ (by simp))
    intro t ht
    cases ht
    rw [harrow]
    decide
  exact (Takes.token hfirst).bind (hnames.bind ((Takes.token harrow).bind
    ((hinner hbody hrest).bind_pure _)))

/-- The tokens start like a lambda: a name, and another name or an arrow. -/
def StartsLambda : List Token → Prop
  | t :: u :: _ => t.kind = .name ∧ (u.kind = .name ∨ u.kind = .arrow)
  | _ => False

omit hinner in
theorem not_startsLambda_cons {t : Token} {ts : List Token} (h : t.kind ≠ .name) :
    ¬ StartsLambda (t :: ts) := by
  rcases ts with _ | ⟨u, ts⟩
  · exact id
  · exact fun hstart => h hstart.1

omit hinner in
theorem rejects_lambda {ts : List Token} (h : ¬ StartsLambda ts) : Rejects (lambda inner) ts := by
  rcases ts with _ | ⟨t, us⟩
  · exact Rejects.bind (Rejects.tokenWhere fun t ht => by cases ht) _
  · by_cases ht : t.kind = .name
    · have hus : ∀ u ∈ us.head?, u.kind ≠ .name ∧ u.kind ≠ .arrow := by
        rintro u hu
        rcases us with _ | ⟨v, us⟩
        · cases hu
        · cases hu
          exact ⟨fun hu => h ⟨ht, Or.inl hu⟩, fun hu => h ⟨ht, Or.inr hu⟩⟩
      have hnone : Takes (Parser.manyWhile (· == .name) (Parser.token .name)) [] [] us :=
        Takes.manyWhile (takes_names (by simp) (fun u hu => (hus u hu).1) (by simp))
      refine (Takes.token ht).bind_rejects (hnone.bind_rejects (Rejects.bind ?_ _))
      exact Rejects.tokenWhere fun u hu => beq_eq_false_iff_ne.2 (hus u hu).2
    · refine Rejects.bind (Rejects.tokenWhere fun u hu => ?_) _
      cases hu
      exact beq_eq_false_iff_ne.2 ht

variable (hstart : ∀ {ts rest : List Token} {e : Expr}, E ts e → ExprEnd rest →
  ¬ StartsLambda (ts ++ rest))
include hstart

theorem takes_arg {ts rest : List Token} {e : Expr} (h : IsArg E ts e) (hrest : ExprEnd rest) :
    Takes (arg inner) ts e rest := by
  cases h with
  | expr he => exact Takes.orElse_right (rejects_lambda (hstart he hrest)) (hinner he hrest)
  | lambda hne hparams harrow hbody =>
    exact Takes.orElse_left (takes_lambda hinner hne hparams harrow hbody hrest)

omit hinner hstart in
theorem exprEnd_moreArgs {us rest : List Token} {es : List Expr} {r : Token}
    (h : IsMoreArgs E us es) (hr : r.kind = .rightParen) : ExprEnd (us ++ r :: rest) := by
  cases h with
  | nil => exact exprEnd_cons (by rw [hr]; rfl)
  | cons hcomma _ _ => exact exprEnd_cons (by rw [hcomma]; rfl)

theorem takes_moreArgs {us rest : List Token} {es : List Expr} {r : Token} {n : Nat}
    (h : IsMoreArgs E us es) (hr : r.kind = .rightParen) (hn : us.length ≤ n) :
    Takes (Parser.upToWhile (· == .comma) (do let _ ← Parser.token .comma; arg inner) n) us es
      (r :: rest) := by
  induction h generalizing n with
  | nil =>
    refine Takes.upToWhile_nil (fun t ht => ?_) n
    cases ht
    rw [hr]
    rfl
  | @cons comma ts us e es hcomma he hes ih =>
    simp only [List.length_append, List.length_cons] at hn
    obtain ⟨n, rfl⟩ : ∃ m, n = m + 1 := ⟨n - 1, by omega⟩
    have hstarts : (comma.kind == Token.Kind.comma) = true := beq_iff_eq.2 hcomma
    have hend : ExprEnd (us ++ r :: rest) := exprEnd_moreArgs hes hr
    refine Takes.upToWhile_cons hstarts ?_ (ih (by omega))
    exact (Takes.token hcomma).bind (takes_arg hinner hstart he hend)

theorem takes_call {f l r : Token} {ts us rest : List Token} {first : Expr} {more : List Expr}
    (hf : f.kind = .name) (hl : l.kind = .leftParen) (hfirst : IsArg E ts first)
    (hmore : IsMoreArgs E us more) (hr : r.kind = .rightParen) :
    Takes (call inner) (f :: l :: (ts ++ (us ++ [r]))) (.call f.lexeme (first :: more)) rest := by
  have hend : ExprEnd (us ++ [r] ++ rest) := by
    rw [List.append_assoc]
    exact exprEnd_moreArgs hmore hr
  have hargs : Takes (Parser.manyWhile (· == .comma) (do let _ ← Parser.token .comma; arg inner))
      us more ([r] ++ rest) :=
    Takes.manyWhile (takes_moreArgs hinner hstart hmore hr (by simp))
  exact (Takes.token hf).bind ((Takes.token hl).bind ((takes_arg hinner hstart hfirst hend).bind
    (hargs.bind ((Takes.token hr).bind Takes.pure))))

end Inside

/-! ## Atoms and expressions -/

section Atoms
variable {E : List Token → Expr → Prop}

/-- A name at the front of an atom stands alone or is called. -/
theorem not_startsLambda_of_isAtomOver {ts rest : List Token} {e : Expr} (h : IsAtomOver E ts e)
    (hrest : AtomEnd rest) : ¬ StartsLambda (ts ++ rest) := by
  cases h with
  | name ht =>
    rcases rest with _ | ⟨u, rest⟩
    · exact id
    · rintro ⟨-, hu | hu⟩
      · exact hrest.ne rfl rfl hu
      · exact hrest.ne rfl rfl hu
  | number h =>
    obtain ⟨t, us, rfl, ht⟩ := isNumber_start h
    refine not_startsLambda_cons fun hname => ?_
    rcases ht with ht | ht | ht | ht <;> rw [ht] at hname <;> cases hname
  | parenthesized hl _ _ => exact not_startsLambda_cons (by rw [hl]; decide)
  | range hl _ _ _ _ => exact not_startsLambda_cons (by rw [hl]; decide)
  | call hf hl _ _ _ =>
    rintro ⟨-, h | h⟩ <;> rw [hl] at h <;> cases h

variable {inner : Option (Parser Expr)} {rest : List Token}

theorem takes_atomOver_name {t : Token} (ht : t.kind = .name) (hrest : AtomEnd rest) :
    Takes (atomOver inner) [t] (.var t.lexeme) rest := by
  refine Takes.nextKind (some .name) (congrArg some ht) (Takes.secondKind _ rfl ?_)
  have hsecond : (rest.head?.map (·.kind) == some .leftParen) = false := by
    rcases rest with _ | ⟨u, rest⟩
    · rfl
    · have hu : u.kind ≠ .leftParen := hrest.ne rfl rfl
      simpa using hu
  simp only [List.singleton_append, List.tail_cons, hsecond]
  exact takes_variableName ht

theorem takes_atomOver_number {ts : List Token} {e : Expr} (h : IsNumber ts e) :
    Takes (atomOver inner) ts e rest := by
  obtain ⟨t, us, rfl, ht⟩ := isNumber_start h
  refine Takes.nextKind (some t.kind) rfl ?_
  rcases ht with ht | ht | ht | ht <;> rw [ht] <;> exact takes_number h

theorem takes_atomOver_none {ts : List Token} {e : Expr} (h : IsAtomOver (fun _ _ => False) ts e)
    (hrest : AtomEnd rest) : Takes (atomOver none) ts e rest := by
  cases h with
  | name ht => exact takes_atomOver_name ht hrest
  | number h => exact takes_atomOver_number h
  | parenthesized _ he _ => exact he.elim
  | range _ he _ _ _ => exact he.elim
  | call _ _ hfirst _ _ =>
    cases hfirst with
    | expr he => exact he.elim
    | lambda _ _ _ he => exact he.elim

theorem takes_atomOver_some {i : Parser Expr} {ts : List Token} {e : Expr}
    (hinner : ∀ {ts rest : List Token} {e : Expr}, E ts e → ExprEnd rest → Takes i ts e rest)
    (hstart : ∀ {ts rest : List Token} {e : Expr}, E ts e → ExprEnd rest →
      ¬ StartsLambda (ts ++ rest))
    (h : IsAtomOver E ts e) (hrest : AtomEnd rest) : Takes (atomOver (some i)) ts e rest := by
  cases h with
  | name ht => exact takes_atomOver_name ht hrest
  | number h => exact takes_atomOver_number h
  | parenthesized hl he hr =>
    refine Takes.nextKind (some .leftParen) (congrArg some hl) ?_
    exact takes_parenthesized hinner hl he hr
  | range hl hlo hcomma hhi hr =>
    refine Takes.nextKind (some .leftBrace) (congrArg some hl) ?_
    exact takes_range hinner hl hlo hcomma hhi hr
  | call hf hl hfirst hmore hr =>
    refine Takes.nextKind (some .name) (congrArg some hf) ?_
    refine Takes.secondKind (some .leftParen) (congrArg some hl) (Takes.orElse_left ?_)
    exact takes_call hinner hstart hf hl hfirst hmore hr

end Atoms

section Chains
variable {A : List Token → Expr → Prop} {atom : Parser Expr}

theorem atomEnd_tail {us rest : List Token} {pairs : List (Lexeme × Expr)}
    (h : IsTail prec A us pairs) (hrest : ExprEnd rest) : AtomEnd (us ++ rest) := by
  cases h with
  | nil => exact hrest.atomEnd
  | cons hop _ _ =>
    intro t ht
    cases ht
    exact Or.inr hop.1

variable (hatom : ∀ {ts rest : List Token} {e : Expr}, A ts e → AtomEnd rest → Takes atom ts e rest)
include hatom

theorem takes_tail {us rest : List Token} {pairs : List (Lexeme × Expr)} {n : Nat}
    (h : IsTail prec A us pairs) (hrest : ExprEnd rest) (hn : us.length < n) :
    Takes (Parser.upTo (do let op ← operator prec; let term ← atom; return (op, term)) n) us pairs
      rest := by
  induction h generalizing n with
  | nil =>
    refine Takes.upTo_nil (Rejects.bind (Rejects.bind (Rejects.tokenWhere fun t ht => ?_) _) _) n
    rw [isOperator_of_endsExpr (hrest t ht), Bool.false_and]
  | @cons op ts us e pairs hop he hpairs ih =>
    simp only [List.length_append, List.length_cons] at hn
    obtain ⟨n, rfl⟩ : ∃ m, n = m + 1 := ⟨n - 1, by omega⟩
    have hoperator : Takes (operator prec) [op] op.lexeme (ts ++ (us ++ rest)) :=
      (Takes.tokenWhere (by rw [hop.1, hop.2]; rfl)).bind Takes.pure
    have hitem : Takes (do let op ← operator prec; let term ← atom; return (op, term)) (op :: ts)
        (op.lexeme, e) (us ++ rest) :=
      hoperator.bind ((hatom he (atomEnd_tail hpairs hrest)).bind_pure _)
    exact hitem.upTo_cons (ih (by omega))

theorem takes_exprOver {ts rest : List Token} {e : Expr} (h : IsExprOver prec A ts e)
    (hrest : ExprEnd rest) : Takes (exprOver prec atom) ts e rest := by
  cases h with
  | @chain ts us first e pairs hfirst hpairs hfold =>
    refine (hatom hfirst (atomEnd_tail hpairs hrest)).bind ?_
    rw [← List.append_nil us]
    refine (Takes.many (takes_tail hatom hpairs hrest ?_)).bind ?_
    · rw [List.length_append]
      omega
    · rw [prec.fold_eq_foldChain] at hfold
      rw [hfold]
      exact Takes.pure

end Chains

theorem not_startsLambda_of_isExpr (depth : Nat) {ts rest : List Token} {e : Expr}
    (h : IsExpr prec depth ts e) (hrest : ExprEnd rest) : ¬ StartsLambda (ts ++ rest) := by
  cases h with
  | chain hfirst hpairs _ =>
    rw [List.append_assoc]
    have hend := atomEnd_tail hpairs hrest
    cases depth with
    | zero => exact not_startsLambda_of_isAtomOver hfirst hend
    | succ depth => exact not_startsLambda_of_isAtomOver hfirst hend

theorem takes_atom (depth : Nat) {ts rest : List Token} {e : Expr} (h : IsAtom prec depth ts e)
    (hrest : AtomEnd rest) : Takes (atom prec depth) ts e rest := by
  induction depth generalizing ts rest e with
  | zero => exact takes_atomOver_none h hrest
  | succ depth ih =>
    exact takes_atomOver_some (takes_exprOver ih) (not_startsLambda_of_isExpr depth) h hrest

theorem takes_expr {ts rest : List Token} {e : Expr} (h : IsExpr prec maxNesting ts e)
    (hrest : ExprEnd rest) : Takes (expr prec) ts e rest :=
  takes_exprOver (takes_atom maxNesting) h hrest

/-! ## Statements and programs -/

theorem isStatement_start {ts : List Token} {s : Stmt} (h : IsStatement prec ts s) :
    ∃ t us, ts = t :: us ∧ t.kind.endsExpr = true := by
  cases h with
  | declare hvar _ _ _ => exact ⟨_, _, rfl, by rw [hvar]; rfl⟩
  | out hout _ => exact ⟨_, _, rfl, by rw [hout]; rfl⟩
  | print hprint _ => exact ⟨_, _, rfl, by rw [hprint]; rfl⟩

theorem exprEnd_program {ts : List Token} {p : Program} (h : IsProgram prec ts p) : ExprEnd ts := by
  cases h with
  | nil =>
    intro t ht
    cases ht
  | cons hs _ =>
    obtain ⟨t, us, rfl, ht⟩ := isStatement_start hs
    exact exprEnd_cons ht

theorem takes_statement {ts rest : List Token} {s : Stmt} (h : IsStatement prec ts s)
    (hrest : ExprEnd rest) : Takes (statement prec) ts s rest := by
  cases h with
  | declare hvar hname hassign he =>
    refine Takes.nextKind (some .var) (congrArg some hvar) ?_
    exact (Takes.token hvar).bind ((Takes.token hname).bind ((Takes.token hassign).bind
      ((takes_expr he hrest).bind_pure _)))
  | out hout he =>
    refine Takes.nextKind (some .out) (congrArg some hout) ?_
    exact (Takes.token hout).bind ((takes_expr he hrest).bind_pure _)
  | print hprint htext =>
    refine Takes.nextKind (some .print) (congrArg some hprint) ?_
    exact (Takes.token hprint).bind ((Takes.token htext).bind Takes.pure)

theorem takes_program {ts : List Token} {p : Program} {n : Nat} (h : IsProgram prec ts p)
    (hn : ts.length ≤ n) :
    Takes (Parser.upToWhile (fun _ => true) (statement prec) n) ts p [] := by
  induction h generalizing n with
  | nil =>
    refine Takes.upToWhile_nil (fun t ht => ?_) n
    cases ht
  | @cons ts us s p hs hp ih =>
    have hend : ExprEnd (us ++ []) := by
      rw [List.append_nil]
      exact exprEnd_program hp
    have htakes := takes_statement hs hend
    obtain ⟨t, ts, rfl, -⟩ := isStatement_start hs
    simp only [List.length_append, List.length_cons] at hn
    obtain ⟨n, rfl⟩ : ∃ m, n = m + 1 := ⟨n - 1, by omega⟩
    exact htakes.upToWhile_cons rfl (ih (by omega))

/-! ## Exactness -/

theorem run_eq_ok_iff {α : Type} {p : Parser α} {s : Token.Stream} {a : α} :
    run p s = .ok a ↔ ∃ d, (p ⟨0, s.tokens⟩).result = some (a, d) := by
  unfold run
  rcases h : p ⟨0, s.tokens⟩ with ⟨_ | ⟨b, d⟩, n⟩
  · simp
  · simp

theorem consumes_statement (prec : Precedence) : Consumes (statement prec) := by
  refine (reads_statement prec).consumes fun ts s hs => ?_
  obtain ⟨t, us, rfl, -⟩ := isStatement_start hs
  exact List.cons_ne_nil t us

theorem isProgram_of_program {s : Token.Stream} {p : Program} (h : program prec s = .ok p) :
    IsProgram prec s.tokens p := by
  obtain ⟨d, hd⟩ := run_eq_ok_iff.1 h
  obtain ⟨ts, hpass, hts⟩ := (reads_program prec).read hd
  have hrest : d.rest = [] := rest_of_upToWhile (consumes_statement prec) (Nat.le_refl _) hd
  have htokens : s.tokens = ts := by
    have := hpass.1
    rwa [hrest, List.append_nil] at this
  rwa [htokens]

theorem program_of_isProgram {s : Token.Stream} {p : Program} (h : IsProgram prec s.tokens p) :
    program prec s = .ok p := by
  have htakes : Takes (Parser.manyWhile (fun _ => true) (statement prec)) s.tokens p [] :=
    Takes.manyWhile (takes_program h (by simp))
  have hresult := htakes 0
  rw [List.append_nil] at hresult
  exact run_eq_ok_iff.2 ⟨_, hresult⟩

/-- A stream of tokens is read as a program exactly if the grammar derives the program from it, and
it derives no other. -/
theorem program_exact (prec : Precedence) (s : Token.Stream) :
    (∀ p, program prec s = .ok p ↔ IsProgram prec s.tokens p) ∧
      {p | IsProgram prec s.tokens p}.Subsingleton := by
  refine ⟨fun p => ⟨isProgram_of_program, program_of_isProgram⟩, ?_⟩
  intro p hp q hq
  have hread := program_of_isProgram hp
  rw [program_of_isProgram hq] at hread
  injection hread with hread
  exact hread.symm

end RangeScript.Parse
