import RangeScript.Proofs.Fold

/-!
# The tree of a chain

Seen from the top, the tree of a chain `t₀ o₁ t₁ … oₙ tₙ` has at its root the rightmost of the
operators that bind loosest, and its two sides are the trees of what stands left and right of that
operator (`Precedence.tree`). The passes of a table work from the bottom, the tightest level first.
Both build the same tree (`fold_eq_tree`): no pass but that of its own level moves anything across
an operator (`foldLevel_split`), so the passes fold the two sides of the root apart
(`foldLevels_split`).
-/

namespace RangeScript.Precedence

/-! ## Joined terms -/

/-- Terms joined by operators. Nothing inside a term is looked at, so operators of the chain are told
apart from those in parentheses. -/
inductive Joined
  | term (e : Expr)
  | join (left : Joined) (op : Lexeme) (right : Joined)

namespace Joined

/-- The expression that is built. -/
def expr : Joined → Expr
  | term e => e
  | join left op right => .binary left.expr op right.expr

/-- The terms, from left to right. -/
def terms : Joined → List Expr
  | term e => [e]
  | join left _ right => left.terms ++ right.terms

/-- The operators that join the terms, from left to right. -/
def ops : Joined → List Lexeme
  | term _ => []
  | join left op right => left.ops ++ op :: right.ops

/-- No operator has a looser one below it, and one of the same level only on its left. -/
def Grouped (level : String → Nat) : Joined → Prop
  | term _ => True
  | join left op right =>
    left.Grouped level ∧ right.Grouped level ∧
      (∀ o ∈ left.ops, level o.text ≤ level op.text) ∧
      ∀ o ∈ right.ops, level o.text < level op.text

end Joined

/-! ## Splitting a chain -/

/-- The first of the levels that mention the symbol, counted from the tightest. -/
def level (p : Precedence) (symbol : String) : Nat := p.levels.findIdx (·.contains symbol)

/-- What follows the first term of a chain, split at the rightmost of the operators that bind loosest:
the part before it, the operator with the term after it, and the part after them. -/
def splitLoosest (p : Precedence) : List (Lexeme × Expr) →
    Option (List (Lexeme × Expr) × (Lexeme × Expr) × List (Lexeme × Expr))
  | [] => none
  | pair :: rest =>
    match p.splitLoosest rest with
    | none => some ([], pair, [])
    | some (before, root, after) =>
      if p.level root.1.text < p.level pair.1.text then some ([], pair, rest)
      else some (pair :: before, root, after)

theorem splitLoosest_eq_none {p : Precedence} {rest : List (Lexeme × Expr)}
    (h : p.splitLoosest rest = none) : rest = [] := by
  cases rest with
  | nil => rfl
  | cons pair rest =>
    unfold splitLoosest at h
    split at h
    · cases h
    · split at h <;> cases h

/-- The parts make up the whole; no operator is looser than the chosen one, and none after it is as
loose. -/
theorem splitLoosest_eq_some {p : Precedence} {rest before after : List (Lexeme × Expr)}
    {root : Lexeme × Expr} (h : p.splitLoosest rest = some (before, root, after)) :
    rest = before ++ root :: after ∧
      (∀ pair ∈ before, p.level pair.1.text ≤ p.level root.1.text) ∧
      ∀ pair ∈ after, p.level pair.1.text < p.level root.1.text := by
  induction rest generalizing before root after with
  | nil => cases h
  | cons pair rest ih =>
    unfold splitLoosest at h
    split at h
    · next hrest =>
      cases h
      simp [splitLoosest_eq_none hrest]
    · next before' root' after' hrest =>
      obtain ⟨hparts, hbefore, hafter⟩ := ih hrest
      split at h
      · next hlooser =>
        cases h
        refine ⟨rfl, by simp, ?_⟩
        intro q hq
        rw [hparts] at hq
        rcases List.mem_append.1 hq with hq | hq
        · exact Nat.lt_of_le_of_lt (hbefore q hq) hlooser
        · rcases List.mem_cons.1 hq with rfl | hq
          · exact hlooser
          · exact Nat.lt_trans (hafter q hq) hlooser
      · next hlooser =>
        cases h
        refine ⟨by rw [hparts, List.cons_append], ?_, hafter⟩
        exact List.forall_mem_cons.2 ⟨Nat.le_of_not_lt hlooser, hbefore⟩

/-- The tree of the chain of `first` and `rest`: the rightmost of the loosest operators is its root,
and both sides are trees of the same kind. -/
def tree (p : Precedence) (first : Expr) (rest : List (Lexeme × Expr)) : Joined :=
  match _hsplit : p.splitLoosest rest with
  | none => .term first
  | some (before, (op, next), after) => .join (p.tree first before) op (p.tree next after)
termination_by rest.length
decreasing_by
  all_goals
    rw [(splitLoosest_eq_some _hsplit).1, List.length_append, List.length_cons]
    omega

theorem tree_of_none {p : Precedence} {rest : List (Lexeme × Expr)} (first : Expr)
    (h : p.splitLoosest rest = none) : p.tree first rest = .term first := by
  rw [tree]
  split
  · rfl
  · next hsome => rw [h] at hsome; cases hsome

theorem tree_nil (p : Precedence) (first : Expr) : p.tree first [] = .term first :=
  tree_of_none first rfl

theorem tree_of_some {p : Precedence} {rest before after : List (Lexeme × Expr)} {op : Lexeme}
    {next : Expr} (first : Expr) (h : p.splitLoosest rest = some (before, (op, next), after)) :
    p.tree first rest = .join (p.tree first before) op (p.tree next after) := by
  rw [tree]
  split
  · next hnone => rw [h] at hnone; cases hnone
  · next hsome => rw [h] at hsome; cases hsome; rfl

/-- What holds of the tree of a single term, and of a tree if it holds of both sides, holds of the trees
of all chains. -/
theorem tree_induction {p : Precedence} {P : Expr → List (Lexeme × Expr) → Joined → Prop}
    (term : ∀ first, P first [] (.term first))
    (join : ∀ first before op next after,
      (∀ pair ∈ before, p.level pair.1.text ≤ p.level op.text) →
      (∀ pair ∈ after, p.level pair.1.text < p.level op.text) →
      P first before (p.tree first before) → P next after (p.tree next after) →
      P first (before ++ (op, next) :: after)
        (.join (p.tree first before) op (p.tree next after)))
    (first : Expr) (rest : List (Lexeme × Expr)) : P first rest (p.tree first rest) := by
  induction first, rest using tree.induct p with
  | case1 first rest hnone =>
    rw [tree_of_none first hnone, splitLoosest_eq_none hnone]
    exact term first
  | case2 first rest before op next after hsome ihleft ihright =>
    obtain ⟨hparts, hbefore, hafter⟩ := splitLoosest_eq_some hsome
    rw [tree_of_some first hsome, hparts]
    exact join first before op next after hbefore hafter ihleft ihright

theorem terms_tree (p : Precedence) (first : Expr) (rest : List (Lexeme × Expr)) :
    (p.tree first rest).terms = first :: rest.map (·.2) := by
  refine tree_induction (P := fun first rest t => t.terms = first :: rest.map (·.2)) ?_ ?_ first rest
  · intro first
    rfl
  · intro first before op next after _ _ hleft hright
    rw [Joined.terms, hleft, hright]
    simp

theorem ops_tree (p : Precedence) (first : Expr) (rest : List (Lexeme × Expr)) :
    (p.tree first rest).ops = rest.map (·.1) := by
  refine tree_induction (P := fun _ rest t => t.ops = rest.map (·.1)) ?_ ?_ first rest
  · intro first
    rfl
  · intro first before op next after _ _ hleft hright
    rw [Joined.ops, hleft, hright]
    simp

theorem grouped_tree (p : Precedence) (first : Expr) (rest : List (Lexeme × Expr)) :
    (p.tree first rest).Grouped p.level := by
  refine tree_induction (P := fun _ _ t => t.Grouped p.level) ?_ ?_ first rest
  · intro first
    trivial
  · intro first before op next after hbefore hafter hleft hright
    refine ⟨hleft, hright, ?_, ?_⟩
    · rw [ops_tree]
      simpa using hbefore
    · rw [ops_tree]
      simpa using hafter

/-! ## Passes on both sides of an operator -/

theorem foldLevel_joins {level : List String} {op : Lexeme} (hop : level.contains op.text = true)
    (first term : Expr) (rest : List (Lexeme × Expr)) :
    foldLevel level first ((op, term) :: rest) =
      foldLevel level (.binary first op term) rest := by
  rw [foldLevel, if_pos hop]

theorem foldLevel_leaves {level : List String} {op : Lexeme}
    (hop : ¬ level.contains op.text = true) (first term : Expr) (rest : List (Lexeme × Expr)) :
    foldLevel level first ((op, term) :: rest) =
      (first, (op, (foldLevel level term rest).1) :: (foldLevel level term rest).2) := by
  rw [foldLevel, if_neg hop]

/-- An operator that is not of the level stays, and the pass works on both sides of it apart. -/
theorem foldLevel_split {level : List String} {op : Lexeme} (hop : ¬ level.contains op.text = true)
    (first : Expr) (before : List (Lexeme × Expr)) (next : Expr) (after : List (Lexeme × Expr)) :
    foldLevel level first (before ++ (op, next) :: after) =
      ((foldLevel level first before).1,
        (foldLevel level first before).2 ++
          (op, (foldLevel level next after).1) :: (foldLevel level next after).2) := by
  induction before generalizing first with
  | nil => exact foldLevel_leaves hop first next after
  | cons pair before ih =>
    obtain ⟨o, term⟩ := pair
    rw [List.cons_append]
    by_cases ho : level.contains o.text = true
    · rw [foldLevel_joins ho, foldLevel_joins ho, ih]
    · rw [foldLevel_leaves ho, foldLevel_leaves ho, ih]
      rfl

/-- A pass over operators of its level alone joins them all, the last one at the top. -/
theorem foldLevel_snoc {level : List String} {op : Lexeme} (hop : level.contains op.text = true)
    (first : Expr) {before : List (Lexeme × Expr)}
    (hbefore : ∀ pair ∈ before, level.contains pair.1.text = true) (next : Expr) :
    foldLevel level first (before ++ [(op, next)]) =
        (.binary (foldLevel level first before).1 op next, []) ∧
      (foldLevel level first before).2 = [] := by
  induction before generalizing first with
  | nil => exact ⟨foldLevel_joins hop first next [], rfl⟩
  | cons pair before ih =>
    obtain ⟨o, term⟩ := pair
    obtain ⟨ho, hbefore⟩ := List.forall_mem_cons.1 hbefore
    rw [List.cons_append, foldLevel_joins ho, foldLevel_joins ho]
    exact ih _ hbefore

/-- The operators that a pass leaves are operators of the chain and not of the level. -/
theorem mem_ops_of_foldLevel {level : List String} {first : Expr} {rest : List (Lexeme × Expr)}
    {pair : Lexeme × Expr} (h : pair ∈ (foldLevel level first rest).2) :
    (∃ q ∈ rest, q.1 = pair.1) ∧ ¬ level.contains pair.1.text = true := by
  have hmem : pair.1 ∈ (foldLevel level first rest).2.map (·.1) := List.mem_map_of_mem h
  rw [foldLevel_ops, List.mem_filter] at hmem
  exact ⟨List.mem_map.1 hmem.1, by simpa using hmem.2⟩

theorem findIdx_of_contains {level : List String} (levels : List (List String)) {symbol : String}
    (h : level.contains symbol = true) : (level :: levels).findIdx (·.contains symbol) = 0 := by
  rw [List.findIdx_cons, h]
  rfl

theorem findIdx_of_not_contains {level : List String} (levels : List (List String))
    {symbol : String} (h : ¬ level.contains symbol = true) :
    (level :: levels).findIdx (·.contains symbol) =
      levels.findIdx (·.contains symbol) + 1 := by
  rw [List.findIdx_cons, Bool.eq_false_iff.2 h]
  rfl

theorem foldLevels_cons (level : List String) (levels : List (List String)) (first : Expr)
    (rest : List (Lexeme × Expr)) :
    foldLevels (level :: levels) first rest =
      foldLevels levels (foldLevel level first rest).1 (foldLevel level first rest).2 := rfl

/-- The passes fold both sides of an operator apart and join them last, if no operator on its left is
looser and all on its right are tighter. -/
theorem foldLevels_split {levels : List (List String)} {op : Lexeme} {first next l r : Expr}
    {before after : List (Lexeme × Expr)} (hop : levels.any (·.contains op.text) = true)
    (hbefore : ∀ pair ∈ before,
      levels.findIdx (·.contains pair.1.text) ≤ levels.findIdx (·.contains op.text))
    (hafter : ∀ pair ∈ after,
      levels.findIdx (·.contains pair.1.text) < levels.findIdx (·.contains op.text))
    (hl : foldLevels levels first before = (l, [])) (hr : foldLevels levels next after = (r, [])) :
    foldLevels levels first (before ++ (op, next) :: after) = (.binary l op r, []) := by
  induction levels generalizing first next before after with
  | nil => cases hop
  | cons level levels ih =>
    rw [foldLevels_cons] at hl hr ⊢
    by_cases hlevel : level.contains op.text = true
    · -- the pass of the operator's own level: nothing is left to the right, and all to the left is of
      -- this level
      rw [findIdx_of_contains levels hlevel] at hbefore hafter
      have hnone : after = [] := by
        rw [List.eq_nil_iff_forall_not_mem]
        intro pair hpair
        exact Nat.not_lt_zero _ (hafter pair hpair)
      have hall : ∀ pair ∈ before, level.contains pair.1.text = true := by
        intro pair hpair
        refine Decidable.byContradiction fun hne => ?_
        have hle := hbefore pair hpair
        rw [findIdx_of_not_contains levels hne] at hle
        omega
      subst hnone
      obtain ⟨hjoin, hleft⟩ := foldLevel_snoc hlevel first hall next
      rw [hleft, foldLevels_nil] at hl
      rw [foldLevel, foldLevels_nil] at hr
      cases hl
      cases hr
      rw [hjoin, foldLevels_nil]
    · -- an earlier pass: what it leaves keeps the order of the levels
      have hany : levels.any (·.contains op.text) = true := by
        rw [List.any_cons, Bool.eq_false_iff.2 hlevel, Bool.false_or] at hop
        exact hop
      rw [findIdx_of_not_contains levels hlevel] at hbefore hafter
      rw [foldLevel_split hlevel]
      refine ih hany ?_ ?_ hl hr
      · intro pair hpair
        obtain ⟨⟨q, hq, hqop⟩, hne⟩ := mem_ops_of_foldLevel hpair
        have hle := hbefore q hq
        rw [hqop, findIdx_of_not_contains levels hne] at hle
        omega
      · intro pair hpair
        obtain ⟨⟨q, hq, hqop⟩, hne⟩ := mem_ops_of_foldLevel hpair
        have hlt := hafter q hq
        rw [hqop, findIdx_of_not_contains levels hne] at hlt
        omega

/-- The passes of a table that knows all operators build the tree. -/
theorem foldLevels_tree {p : Precedence} (first : Expr) {rest : List (Lexeme × Expr)}
    (hknown : ∀ pair ∈ rest, p.knows pair.1.text = true) :
    foldLevels p.levels first rest = ((p.tree first rest).expr, []) := by
  refine tree_induction (p := p)
    (P := fun first rest t => (∀ pair ∈ rest, p.knows pair.1.text = true) →
      foldLevels p.levels first rest = (t.expr, [])) ?_ ?_ first rest hknown
  · intro first _
    exact foldLevels_nil p.levels first
  · intro first before op next after hbefore hafter hleft hright hknown
    obtain ⟨hknownBefore, hknownRest⟩ := List.forall_mem_append.1 hknown
    obtain ⟨hop, hknownAfter⟩ := List.forall_mem_cons.1 hknownRest
    exact foldLevels_split hop hbefore hafter (hleft hknownBefore) (hright hknownAfter)

/-- Terms with operators between them that the table knows are folded into their tree, which is split
at the rightmost of the loosest operators. Read from left to right it has the terms and the operators
in their order, and operators of one level group to the left. -/
theorem fold_eq_tree (p : Precedence) (first : Expr) (rest : List Expr) (ops : List Lexeme)
    (hlength : rest.length = ops.length) (hknown : ∀ op ∈ ops, p.knows op.text = true) :
    p.fold (first :: rest) ops = .ok (p.tree first (ops.zip rest)).expr ∧
      (p.tree first (ops.zip rest)).terms = first :: rest ∧
      (p.tree first (ops.zip rest)).ops = ops ∧
      (p.tree first (ops.zip rest)).Grouped p.level := by
  have hpairs : ∀ pair ∈ ops.zip rest, p.knows pair.1.text = true := by
    intro pair hpair
    exact hknown pair.1 (List.of_mem_zip hpair).1
  refine ⟨?_, ?_, ?_, grouped_tree p first _⟩
  · rw [fold, if_pos hlength, foldChain, foldLevels_tree first hpairs]
  · rw [terms_tree, List.map_snd_zip (Nat.le_of_eq hlength)]
  · rw [ops_tree, List.map_fst_zip (Nat.le_of_eq hlength.symm)]

/-- `a - b * c ^ d + e`, with products and powers on one level and once more on looser levels, which do
not count, is `(a - ((b * c) ^ d)) + e`. -/
theorem fold_eq_tree_repeated :
    let p : Precedence := ⟨[["^", "*"], [], ["*", "+", "-"], ["^"]]⟩
    let o (symbol : String) : Lexeme := ⟨symbol, .start⟩
    let v (name : String) : Expr := .var ⟨name, .start⟩
    let power : Joined := .join (.join (.term (v "b")) (o "*") (.term (v "c"))) (o "^") (.term (v "d"))
    let t : Joined := .join (.join (.term (v "a")) (o "-") power) (o "+") (.term (v "e"))
    p.tree (v "a") [(o "-", v "b"), (o "*", v "c"), (o "^", v "d"), (o "+", v "e")] = t ∧
      p.fold [v "a", v "b", v "c", v "d", v "e"] [o "-", o "*", o "^", o "+"] = .ok t.expr ∧
      t.Grouped p.level := by
  intro p o v power t
  have htree : p.tree (v "a")
      [(o "-", v "b"), (o "*", v "c"), (o "^", v "d"), (o "+", v "e")] = t := by
    rw [tree_of_some _ rfl, tree_of_some _ rfl, tree_nil, tree_of_some _ rfl, tree_of_some _ rfl]
    simp only [tree_nil]
    rfl
  obtain ⟨hfold, -, -, hgrouped⟩ := fold_eq_tree p (v "a") [v "b", v "c", v "d", v "e"]
    [o "-", o "*", o "^", o "+"] rfl (by decide)
  exact ⟨htree, htree ▸ hfold, htree ▸ hgrouped⟩

end RangeScript.Precedence
