import RangeScript.Proofs.Grammar

/-!
# Viable prefixes

* `Cursor.Passes c ts d` : the tokens `ts` stand between the places `c` and `d`;
* `Names prec x w` : the tokens `w` are one of the things that the expectation `x` names;
* `Viable S u` : the tokens `u` can be continued to something of the language `S`;
* `Fits prec S u x` : `u` is viable, and stays so with something that `x` names after it;
* `Notes.Proper n` : the notes `n` expect something or are no notes at all, so that joining loses no
  expectation.
-/

namespace RangeScript.Parse

open RangeScript.Grammar

/-! ## Places -/

/-- The tokens `ts` stand between the places `c` and `d`. -/
def Cursor.Passes (c : Cursor) (ts : List Token) (d : Cursor) : Prop :=
  c.rest = ts ++ d.rest ∧ d.index = c.index + ts.length

theorem Cursor.Passes.refl (c : Cursor) : c.Passes [] c := ⟨rfl, rfl⟩

theorem Cursor.Passes.one {i : Nat} {t : Token} {rest : List Token} :
    Cursor.Passes ⟨i, t :: rest⟩ [t] ⟨i + 1, rest⟩ := ⟨rfl, rfl⟩

theorem Cursor.Passes.trans {c d e : Cursor} {ts us : List Token} (h : c.Passes ts d)
    (h' : d.Passes us e) : c.Passes (ts ++ us) e := by
  refine ⟨?_, ?_⟩
  · rw [h.1, h'.1, List.append_assoc]
  · rw [h'.2, h.2, List.length_append, Nat.add_assoc]

theorem Cursor.Passes.length_add {c d : Cursor} {ts : List Token} (h : c.Passes ts d) :
    ts.length + d.rest.length = c.rest.length := by
  rw [h.1, List.length_append]

/-! ## Expectations -/

/-- The tokens `w` are one of the things that `x` names. -/
inductive Names (prec : Precedence) : Expectation → List Token → Prop
  | token {kind : Token.Kind} {t : Token} : t.kind = kind → Names prec (.token kind) [t]
  | statement {w : List Token} {s : Stmt} : IsStatement prec w s → Names prec .statement w
  | expression {w : List Token} {e : Expr} :
    IsExpr prec maxNesting w e → Names prec .expression w
  | number {w : List Token} {e : Expr} : IsNumber w e → Names prec .number w
  | operator {t : Token} : IsOperator prec t → Names prec .operator [t]

/-- `u` can be continued to something of the language `S`. -/
def Viable {σ : Type} (S : List Token → σ → Prop) (u : List Token) : Prop := ∃ v b, S (u ++ v) b

theorem Viable.of_mem {σ : Type} {S : List Token → σ → Prop} {ts : List Token} {b : σ}
    (h : S ts b) : Viable S ts := ⟨[], b, by rwa [List.append_nil]⟩

theorem Viable.of_append {σ : Type} {S : List Token → σ → Prop} {u v : List Token}
    (h : Viable S (u ++ v)) : Viable S u := by
  obtain ⟨w, b, hw⟩ := h
  exact ⟨v ++ w, b, by rwa [← List.append_assoc]⟩

/-- `u` is viable, and stays so with something that `x` names after it. No more than the first is
asked for where `x` is a remark on nesting, or an operator while no token is one. -/
def Fits {σ : Type} (prec : Precedence) (S : List Token → σ → Prop) (u : List Token)
    (x : Expectation) : Prop :=
  Viable S u ∧ (x = .shallowerNesting ∨ (x = .operator ∧ ∀ t, ¬ IsOperator prec t) ∨
    ∃ w, Names prec x w ∧ Viable S (u ++ w))

theorem Fits.of_names {σ : Type} {prec : Precedence} {S : List Token → σ → Prop}
    {u w : List Token} {x : Expectation} (hw : Names prec x w) (h : Viable S (u ++ w)) :
    Fits prec S u x := ⟨h.of_append, Or.inr (Or.inr ⟨w, hw, h⟩)⟩

theorem Fits.mono {σ τ : Type} {prec : Precedence} {S : List Token → σ → Prop}
    {T : List Token → τ → Prop} {before after u : List Token} {x : Expectation}
    (h : Fits prec S (before ++ u) x)
    (hST : ∀ u, Viable S (before ++ u) → Viable T (after ++ u)) :
    Fits prec T (after ++ u) x := by
  refine ⟨hST u h.1, ?_⟩
  rcases h.2 with hx | hx | ⟨w, hw, hV⟩
  · exact Or.inl hx
  · exact Or.inr (Or.inl hx)
  · refine Or.inr (Or.inr ⟨w, hw, ?_⟩)
    rw [List.append_assoc] at hV ⊢
    exact hST _ hV

/-! ## Notes -/

/-- Notes that expect nothing are at no place. -/
def Notes.Proper (n : Notes) : Prop := n.expected = [] → n = .none

theorem Notes.proper_none : Notes.none.Proper := fun _ => rfl

theorem Notes.proper_single (i : Nat) (x : Expectation) : Notes.Proper ⟨i, [x]⟩ := by
  intro h
  cases h

theorem Notes.join_expected_eq_nil {a b : Notes} (ha : a.Proper) (hb : b.Proper)
    (h : (a.join b).expected = []) : a = .none ∧ b = .none := by
  rcases Nat.lt_trichotomy a.index b.index with hab | hab | hab
  · rw [Notes.join_of_lt hab] at h
    rw [hb h] at hab
    exact absurd hab (Nat.not_lt_zero _)
  · rw [Notes.join_of_eq hab] at h
    obtain ⟨ha', hb'⟩ := List.append_eq_nil_iff.1 h
    rw [ha'] at hb'
    refine ⟨ha ha', hb (List.eq_nil_iff_forall_not_mem.2 fun x hx => ?_)⟩
    exact List.filter_eq_nil_iff.1 hb' x hx (by simp)
  · rw [Notes.join_of_gt hab] at h
    rw [ha h] at hab
    exact absurd hab (Nat.not_lt_zero _)

theorem Notes.Proper.join {a b : Notes} (ha : a.Proper) (hb : b.Proper) : (a.join b).Proper := by
  intro h
  obtain ⟨rfl, rfl⟩ := Notes.join_expected_eq_nil ha hb h
  exact Notes.none_join _

/-- What is expected by joined notes was expected at their place by one of the two. -/
theorem Notes.mem_join {a b : Notes} {x : Expectation} (h : x ∈ (a.join b).expected) :
    (x ∈ a.expected ∧ (a.join b).index = a.index) ∨
      (x ∈ b.expected ∧ (a.join b).index = b.index) := by
  rcases Nat.lt_trichotomy a.index b.index with hab | hab | hab
  · rw [Notes.join_of_lt hab] at h ⊢
    exact Or.inr ⟨h, rfl⟩
  · rw [Notes.join_of_eq hab] at h ⊢
    rcases List.mem_append.1 h with h | h
    · exact Or.inl ⟨h, rfl⟩
    · exact Or.inr ⟨(List.mem_filter.1 h).1, hab⟩
  · rw [Notes.join_of_gt hab] at h ⊢
    exact Or.inl ⟨h, rfl⟩

end RangeScript.Parse
