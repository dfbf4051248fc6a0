import RangeScript.Proofs.Offending

/-!
# When folding fails

* `Precedence.unknown p ops` : the symbols of the operators that the table does not know, in their order.

Terms with operators between them are folded into one expression unless there is not one term more than
operators, or some operator is unknown; the error tells what is left (`fold_of_length_ne`, `fold_of_unknown`,
`exists_fold`). The reading of expressions takes no operator that the table does not know
(`knows_of_result_operands`), so the chain that it has read is always folded (`fold_fails_exactly`), and no
error ever asks for an operator with a known priority.
-/

namespace RangeScript

namespace Precedence

/-- The symbols of the operators that the table does not know. -/
def unknown (p : Precedence) (ops : List Lexeme) : List String :=
  (ops.map (·.text)).filter fun symbol => !p.knows symbol

theorem unknown_eq_nil_iff {p : Precedence} {ops : List Lexeme} :
    p.unknown ops = [] ↔ ∀ op ∈ ops, p.knows op.text = true := by
  simp [unknown, List.filter_eq_nil_iff]

/-- The operators that are left after all passes are the unknown ones. -/
theorem symbols_foldLevels (p : Precedence) (first : Expr) (rest : List (Lexeme × Expr)) :
    (foldLevels p.levels first rest).2.map (·.1.text) = p.unknown (rest.map (·.1)) := by
  have hops := congrArg (List.map Lexeme.text) (foldLevels_ops p.levels first rest)
  rw [List.map_map] at hops
  unfold unknown
  rw [List.filter_map]
  exact hops

theorem foldChain_of_unknown {p : Precedence} {first : Expr} {rest : List (Lexeme × Expr)}
    (h : p.unknown (rest.map (·.1)) ≠ []) :
    p.foldChain first rest =
      .error ⟨(p.unknown (rest.map (·.1))).length + 1, p.unknown (rest.map (·.1))⟩ := by
  rw [← symbols_foldLevels p first rest] at h ⊢
  unfold foldChain
  rcases hfold : foldLevels p.levels first rest with ⟨e, _ | ⟨pair, left⟩⟩
  · rw [hfold] at h
    exact absurd rfl h
  · simp

section Fold
variable {p : Precedence} {terms : List Expr} {ops : List Lexeme}

theorem fold_of_length_ne (h : terms.length ≠ ops.length + 1) :
    p.fold terms ops = .error ⟨terms.length, ops.map (·.text)⟩ := by
  cases terms with
  | nil => rfl
  | cons first rest =>
    rw [List.length_cons] at h
    have hne : ¬ rest.length = ops.length := by omega
    rw [fold, if_neg hne]

theorem fold_of_unknown (h : terms.length = ops.length + 1) (hunknown : p.unknown ops ≠ []) :
    p.fold terms ops = .error ⟨(p.unknown ops).length + 1, p.unknown ops⟩ := by
  obtain ⟨first, rest, rfl, rfl⟩ := exists_chain h
  rw [fold_eq_foldChain, foldChain_of_unknown hunknown]

theorem exists_fold (h : terms.length = ops.length + 1) (hknown : p.unknown ops = []) :
    ∃ e, p.fold terms ops = .ok e := by
  obtain ⟨first, rest, rfl, rfl⟩ := exists_chain h
  rw [fold_eq_foldChain]
  apply exists_foldChain
  simpa using unknown_eq_nil_iff.1 hknown

theorem fold_eq_error_iff (h : terms.length = ops.length + 1) :
    (∃ err, p.fold terms ops = .error err) ↔ ∃ op ∈ ops, p.knows op.text = false := by
  constructor
  · rintro ⟨err, herr⟩
    by_contra hnone
    have hknown : p.unknown ops = [] := by
      rw [unknown_eq_nil_iff]
      intro op hop
      rw [← Bool.not_eq_false]
      exact fun hop' => hnone ⟨op, hop, hop'⟩
    obtain ⟨e, he⟩ := exists_fold h hknown
    rw [he] at herr
    cases herr
  · rintro ⟨op, hop, hnot⟩
    have hunknown : p.unknown ops ≠ [] := by
      intro hnil
      rw [unknown_eq_nil_iff.1 hnil op hop] at hnot
      cases hnot
    exact ⟨_, fold_of_unknown h hunknown⟩

theorem error_of_fold {err : FoldError} (h : terms.length = ops.length + 1)
    (herr : p.fold terms ops = .error err) : err = ⟨(p.unknown ops).length + 1, p.unknown ops⟩ := by
  by_cases hknown : p.unknown ops = []
  · obtain ⟨e, he⟩ := exists_fold h hknown
    rw [he] at herr
    cases herr
  · rw [fold_of_unknown h hknown] at herr
    injection herr with herr
    exact herr.symm

end Fold

end Precedence

namespace Parse

open RangeScript.Parse.Parser

variable {prec : Precedence}

/-! ## The chain that is read -/

/-- What holds of each reading holds of all that are repeated. -/
theorem forall_of_result_upTo {α : Type} {p : Parser α} {P : α → Prop}
    (hp : ∀ c a d, (p c).result = some (a, d) → P a) {n : Nat} {c d : Cursor} {as : List α}
    (h : (upTo p n c).result = some (as, d)) : ∀ a ∈ as, P a := by
  induction n generalizing c as with
  | zero =>
    cases h
    simp
  | succ n ih =>
    unfold upTo at h
    rcases hmore : (p >>= fun a => upTo p n >>= fun more => pure (a :: more)) c with ⟨_ | r, notes⟩
    · rw [orElse_of_none hmore] at h
      cases h
      simp
    · rw [orElse_of_some hmore] at h
      cases h
      obtain ⟨a, e, ha, hrest⟩ := exists_of_result_bind (congrArg Attempt.result hmore)
      obtain ⟨more, e', hmore, hpure⟩ := exists_of_result_bind hrest
      cases hpure
      exact List.forall_mem_cons.2 ⟨hp c a e ha, ih hmore⟩

theorem knows_of_result_operator {c d : Cursor} {op : Lexeme}
    (h : (operator prec c).result = some (op, d)) : prec.knows op.text = true := by
  obtain ⟨t, e, ht, hpure⟩ := exists_of_result_bind h
  cases hpure
  rcases tokenWhere_cases (fun t => t.kind.isOperator && prec.knows t.text) .operator c with
    ⟨i, u, rest, -, hu, hrun⟩ | ⟨-, hrun⟩
  · rw [hrun] at ht
    cases ht
    exact (Bool.and_eq_true_iff.1 hu).2
  · rw [hrun] at ht
    cases ht

/-- The operators that are read between atoms are all known. -/
theorem knows_of_result_operands {atom : Parser Expr} {c d : Cursor} {rest : List (Lexeme × Expr)}
    (h : (many (do let op ← operator prec; let term ← atom; return (op, term)) c).result =
      some (rest, d)) : ∀ pair ∈ rest, prec.knows pair.1.text = true := by
  refine forall_of_result_upTo (P := fun pair => prec.knows pair.1.text = true) ?_ h
  intro c pair d hpair
  obtain ⟨op, e, hop, hrest⟩ := exists_of_result_bind hpair
  obtain ⟨term, e', -, hpure⟩ := exists_of_result_bind hrest
  cases hpure
  exact knows_of_result_operator hop

/-- A repetition always reads something, if only nothing at all. -/
theorem exists_result_upTo {α : Type} (p : Parser α) (n : Nat) (c : Cursor) :
    ∃ as d, (upTo p n c).result = some (as, d) := by
  cases n with
  | zero => exact ⟨[], c, rfl⟩
  | succ n =>
    unfold upTo
    rcases hmore : (p >>= fun a => upTo p n >>= fun more => pure (a :: more)) c with ⟨_ | ⟨as, d⟩, notes⟩
    · rw [orElse_of_none hmore]
      exact ⟨[], c, rfl⟩
    · rw [orElse_of_some hmore]
      exact ⟨as, d, rfl⟩

theorem exists_result_many {α : Type} (p : Parser α) (c : Cursor) :
    ∃ as d, (many p c).result = some (as, d) := exists_result_upTo p _ c

/-- Where a first atom is read, a chain is read after it, the chain is folded, and its expression is what is
read. -/
theorem exists_fold_of_first {atom : Parser Expr} {c d : Cursor} {first : Expr}
    (hfirst : (atom c).result = some (first, d)) :
    ∃ rest e tree,
      (many (do let op ← operator prec; let term ← atom; return (op, term)) d).result = some (rest, e) ∧
      prec.fold (first :: rest.map (·.2)) (rest.map (·.1)) = .ok tree ∧
      (exprOver prec atom c).result = some (tree, e) := by
  obtain ⟨rest, e, hrest⟩ := exists_result_many
    (do let op ← operator prec; let term ← atom; return (op, term)) d
  obtain ⟨tree, htree⟩ := prec.exists_foldChain first (knows_of_result_operands hrest)
  refine ⟨rest, e, tree, hrest, by rw [prec.fold_eq_foldChain, htree], ?_⟩
  unfold exprOver
  rw [result_bind_of_some hfirst, result_bind_of_some hrest, htree]
  rfl

/-! ## What is never expected -/

theorem Fits.ne_rankedOperator {σ : Type} {S : List Token → σ → Prop} {u : List Token} {x : Expectation}
    (h : Fits prec S u x) : x ≠ .rankedOperator := by
  rintro rfl
  rcases h.2 with hx | ⟨hx, -⟩ | ⟨w, hw, -⟩
  · cases hx
  · cases hx
  · cases hw

/-- The parser never notes the expectation. -/
def Ignores {α : Type} (x : Expectation) (p : Parser α) : Prop := ∀ c, x ∉ (p c).notes.expected

theorem Ignores.bind {α β : Type} {x : Expectation} {p : Parser α} {f : α → Parser β} (hp : Ignores x p)
    (hf : ∀ a, Ignores x (f a)) : Ignores x (p >>= f) := by
  intro c hx
  have hc := hp c
  rcases h : p c with ⟨_ | ⟨a, d⟩, n⟩ <;> rw [h] at hc
  · rw [bind_of_none h] at hx
    exact hc hx
  · rw [bind_of_some h] at hx
    rcases Notes.mem_join hx with ⟨hx, -⟩ | ⟨hx, -⟩
    · exact hc hx
    · exact hf a d hx

theorem ignores_atEnd : Ignores .rankedOperator atEnd := by
  intro c
  unfold atEnd
  split
  · simp [Notes.none]
  · simp

theorem Reads.ignores {α σ : Type} {p : Parser α} {R : List Token → α → Prop} {S : List Token → σ → Prop}
    {before : List Token} (h : Reads prec p R S before) : Ignores .rankedOperator p := by
  intro c hx
  obtain ⟨u, d, -, -, hfit⟩ := h.fits hx
  exact hfit.ne_rankedOperator rfl

/-- The error of a parser that never notes the expectation does not tell it. -/
theorem not_mem_expected_of_run {α : Type} {p : Parser α} (hp : Ignores .rankedOperator p)
    {s : Token.Stream} {e : ParseError} (h : run p s = .error e) : .rankedOperator ∉ e.expected := by
  obtain ⟨-, rfl⟩ := run_eq_error h
  unfold Notes.error
  split
  · simp
  · exact hp _

theorem ignores_expression (prec : Precedence) :
    Ignores .rankedOperator (do let e ← expr prec; atEnd; return e) := by
  refine (reads_expr prec).ignores.bind fun e => ignores_atEnd.bind fun _ => ?_
  intro c
  simp [pure, Notes.none]

end Parse

/-- Folding fails exactly if there is not one term more than operators or some operator is unknown. The error
tells the counts and symbols of what was given in the first case, and else the unknown symbols in their order
and one term more than these. So the chain that is read as an expression is folded, whatever its atoms are and
wherever it stands: reading an expression fails only where reading its first atom does, and no error tells that
an operator with a known priority was expected. -/
theorem fold_fails_exactly (p : Precedence) :
    (∀ terms ops,
      ((∃ err, p.fold terms ops = .error err) ↔
        terms.length ≠ ops.length + 1 ∨ ∃ op ∈ ops, p.knows op.text = false) ∧
      (terms.length ≠ ops.length + 1 →
        p.fold terms ops = .error ⟨terms.length, ops.map (·.text)⟩) ∧
      (terms.length = ops.length + 1 → ∀ err, p.fold terms ops = .error err →
        err.symbols = (ops.map (·.text)).filter (fun symbol => !p.knows symbol) ∧
        err.terms = err.symbols.length + 1)) ∧
    (∀ (atom : Parse.Parser Expr) c d first, (atom c).result = some (first, d) →
      ∃ rest e tree,
        (Parse.Parser.many (do let op ← Parse.operator p; let term ← atom; return (op, term)) d).result =
          some (rest, e) ∧
        p.fold (first :: rest.map (·.2)) (rest.map (·.1)) = .ok tree ∧
        (Parse.exprOver p atom c).result = some (tree, e)) ∧
    ∀ s err, Parse.program p s = .error err ∨ Parse.expression p s = .error err →
      .rankedOperator ∉ err.expected := by
  refine ⟨fun terms ops => ?_, fun _ _ _ _ => Parse.exists_fold_of_first, fun s err herr => ?_⟩
  · by_cases hlength : terms.length = ops.length + 1
    · refine ⟨?_, fun hne => absurd hlength hne, fun _ err herr => ?_⟩
      · rw [Precedence.fold_eq_error_iff hlength]
        exact ⟨.inr, fun h => h.resolve_left fun hne => hne hlength⟩
      · rw [Precedence.error_of_fold hlength herr]
        exact ⟨rfl, rfl⟩
    · have hfold := Precedence.fold_of_length_ne (p := p) hlength
      exact ⟨⟨fun _ => .inl hlength, fun _ => ⟨_, hfold⟩⟩, fun _ => hfold, fun h => absurd h hlength⟩
  · rcases herr with herr | herr
    · exact Parse.not_mem_expected_of_run (Parse.reads_program p).ignores herr
    · exact Parse.not_mem_expected_of_run (Parse.ignores_expression p) herr

/-- A table that knows sums only, twice: in `a % b + c * d` the operators `%` and `*` are left between three
terms, with a term too few all of them are, and of `a + b * c` only the sum is read. -/
theorem fold_fails_exactly_sums :
    let p : Precedence := ⟨[["+"], ["+"]]⟩
    let o (symbol : String) : Lexeme := ⟨symbol, .start⟩
    let v (name : String) : Expr := .var ⟨name, .start⟩
    let t (kind : Token.Kind) (text : String) : Token := ⟨kind, text, .start⟩
    let c : Parse.Cursor := ⟨0, [t .name "a", t .plus "+", t .name "b", t .star "*", t .name "c"]⟩
    let err : FoldError := ⟨3, ["%", "*"]⟩
    let found : Parse.ParseError := ⟨3, some (t .star "*"), .start, [.operator, .endOfInput]⟩
    (p.fold [v "a", v "b", v "c", v "d"] [o "%", o "+", o "*"] = .error err ∧
      err.symbols = ["%", "+", "*"].filter (fun symbol => !p.knows symbol) ∧
      err.terms = err.symbols.length + 1) ∧
    p.fold [v "a", v "b", v "c"] [o "%", o "+", o "*"] = .error ⟨3, ["%", "+", "*"]⟩ ∧
    (∃ rest e tree,
      (Parse.Parser.many (do
        let op ← Parse.operator p; let term ← Parse.atom p 0; return (op, term)) ⟨1, c.rest.tail⟩).result =
          some (rest, e) ∧
      p.fold (v "a" :: rest.map (·.2)) (rest.map (·.1)) = .ok tree ∧
      (Parse.exprOver p (Parse.atom p 0) c).result = some (tree, e)) ∧
    Parse.expression p ⟨c.rest, .start⟩ = .error found ∧ .rankedOperator ∉ found.expected := by
  intro p o v t c err found
  obtain ⟨hfold, hread, htold⟩ := fold_fails_exactly p
  have herr : p.fold [v "a", v "b", v "c", v "d"] [o "%", o "+", o "*"] = .error err := by decide +kernel
  have hatom : (Parse.atom p 0 c).result = some (v "a", ⟨1, c.rest.tail⟩) := by decide +kernel
  have hfound : Parse.expression p ⟨c.rest, .start⟩ = .error found := by decide +kernel
  exact ⟨⟨herr, (hfold _ _).2.2 rfl err herr⟩, (hfold _ _).2.1 (by decide), hread _ c _ _ hatom, hfound,
    htold _ _ (.inr hfound)⟩

end RangeScript
