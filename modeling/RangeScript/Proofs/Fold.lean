import RangeScript.Expr.Precedence

/-!
# What the passes over a chain leave

A pass joins the operators of its level and keeps the others in order (`foldLevel_ops`), so after
all passes the operators of no level are left (`foldLevels_ops`), and a chain whose operators all
have a level becomes one expression (`exists_foldChain`). What joining two expressions keeps, folding
keeps (`forall_foldChain`).
-/

namespace RangeScript.Precedence

theorem foldLevel_ops (level : List String) (first : Expr) (rest : List (Lexeme × Expr)) :
    (foldLevel level first rest).2.map (·.1) =
      (rest.map (·.1)).filter fun op => !level.contains op.text := by
  induction rest generalizing first with
  | nil => rfl
  | cons pair rest ih =>
    obtain ⟨op, term⟩ := pair
    unfold foldLevel
    by_cases h : level.contains op.text = true
    · rw [if_pos h, ih, List.map_cons, List.filter_cons_of_neg (by rw [h]; decide)]
    · rw [if_neg h, List.map_cons, List.map_cons, ih, List.filter_cons_of_pos]
      simpa using h

theorem foldLevels_ops (levels : List (List String)) (first : Expr)
    (rest : List (Lexeme × Expr)) :
    (foldLevels levels first rest).2.map (·.1) =
      (rest.map (·.1)).filter fun op => !levels.any (·.contains op.text) := by
  induction levels generalizing first rest with
  | nil => exact (List.filter_eq_self.2 fun _ _ => rfl).symm
  | cons level levels ih =>
    unfold foldLevels
    rw [ih, foldLevel_ops, List.filter_filter]
    congr 1
    funext op
    simp [Bool.and_comm]

/-- A chain whose operators all have a level becomes one expression. -/
theorem exists_foldChain (p : Precedence) (first : Expr) {rest : List (Lexeme × Expr)}
    (h : ∀ pair ∈ rest, p.knows pair.1.text = true) : ∃ e, p.foldChain first rest = .ok e := by
  have hops := foldLevels_ops p.levels first rest
  have hnone : (rest.map (·.1)).filter (fun op => !p.levels.any (·.contains op.text)) = [] := by
    rw [List.filter_eq_nil_iff]
    intro op hop
    obtain ⟨pair, hpair, rfl⟩ := List.mem_map.1 hop
    have := h pair hpair
    unfold knows at this
    rw [this]
    decide
  rw [hnone, List.map_eq_nil_iff] at hops
  refine ⟨(foldLevels p.levels first rest).1, ?_⟩
  unfold foldChain
  rw [← Prod.eta (foldLevels p.levels first rest), hops]

section Closed
variable {P : Expr → Prop} (hbinary : ∀ l op r, P l → P r → P (.binary l op r))
include hbinary

/-- What joining keeps, a pass keeps. -/
theorem forall_foldLevel (level : List String) {first : Expr} {rest : List (Lexeme × Expr)}
    (hfirst : P first) (hrest : ∀ pair ∈ rest, P pair.2) :
    P (foldLevel level first rest).1 ∧ ∀ pair ∈ (foldLevel level first rest).2, P pair.2 := by
  induction rest generalizing first with
  | nil => exact ⟨hfirst, hrest⟩
  | cons pair rest ih =>
    obtain ⟨op, term⟩ := pair
    obtain ⟨hterm, hrest⟩ := List.forall_mem_cons.1 hrest
    unfold foldLevel
    split
    · exact ih (hbinary _ _ _ hfirst hterm) hrest
    · obtain ⟨hnext, hleft⟩ := ih hterm hrest
      exact ⟨hfirst, List.forall_mem_cons.2 ⟨hnext, hleft⟩⟩

theorem forall_foldLevels (levels : List (List String)) {first : Expr}
    {rest : List (Lexeme × Expr)} (hfirst : P first) (hrest : ∀ pair ∈ rest, P pair.2) :
    P (foldLevels levels first rest).1 := by
  induction levels generalizing first rest with
  | nil => exact hfirst
  | cons level levels ih =>
    obtain ⟨hfirst, hrest⟩ := forall_foldLevel hbinary level hfirst hrest
    exact ih hfirst hrest

theorem forall_foldChain {p : Precedence} {first e : Expr} {rest : List (Lexeme × Expr)}
    (hfirst : P first) (hrest : ∀ pair ∈ rest, P pair.2) (h : p.foldChain first rest = .ok e) :
    P e := by
  have hlevels := forall_foldLevels hbinary p.levels hfirst hrest
  unfold foldChain at h
  rcases hfold : foldLevels p.levels first rest with ⟨e', _ | ⟨pair, left⟩⟩
  · rw [hfold] at h hlevels
    cases h
    exact hlevels
  · rw [hfold] at h
    cases h

end Closed

theorem foldLevels_nil (levels : List (List String)) (first : Expr) :
    foldLevels levels first [] = (first, []) := by
  induction levels with
  | nil => rfl
  | cons level levels ih => exact ih

theorem fold_single (p : Precedence) (e : Expr) : p.fold [e] [] = .ok e := by
  unfold fold foldChain
  simp [foldLevels_nil]

/-- A chain is folded as its terms with its operators between them. -/
theorem fold_eq_foldChain (p : Precedence) (first : Expr) (rest : List (Lexeme × Expr)) :
    p.fold (first :: rest.map (·.2)) (rest.map (·.1)) = p.foldChain first rest := by
  have hzip : (rest.map (·.1)).zip (rest.map (·.2)) = rest := by
    induction rest with
    | nil => rfl
    | cons pair rest ih => simp [ih]
  unfold fold
  simp [hzip]

/-- Terms with one operator fewer make a chain. -/
theorem exists_chain {terms : List Expr} {ops : List Lexeme} (h : terms.length = ops.length + 1) :
    ∃ (first : Expr) (rest : List (Lexeme × Expr)),
      terms = first :: rest.map (·.2) ∧ ops = rest.map (·.1) := by
  cases terms with
  | nil => cases h
  | cons first rest =>
    have hrest : rest.length = ops.length := Nat.succ.inj h
    refine ⟨first, ops.zip rest, ?_, ?_⟩
    · rw [List.map_snd_zip (Nat.le_of_eq hrest)]
    · rw [List.map_fst_zip (Nat.le_of_eq hrest.symm)]

end RangeScript.Precedence
