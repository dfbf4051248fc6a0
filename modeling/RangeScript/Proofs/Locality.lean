import RangeScript.Proofs.Exactness

/-!
# A parser looks no further than its notes

* `Cursor.AgreesTo k c d` : two places with the same tokens up to the one with index `k`, which is
  the end of the input for both or for none;
* `Attempt.Within k x` : an attempt that noted nothing after `k` and ended at `k` or before;
* `Local p` : an attempt within `k` comes out the same wherever the tokens agree up to `k`.

So an attempt that failed fails on every list of tokens that agrees up to its furthest note.
-/

namespace RangeScript.Parse

open RangeScript.Grammar

/-! ## Agreement -/

/-- The tokens from `c` and from `d` on are the same up to the one with index `k`. -/
def Cursor.AgreesTo (k : Nat) (c d : Cursor) : Prop :=
  c.index = d.index ∧ c.rest.take (k + 1 - c.index) = d.rest.take (k + 1 - c.index)

theorem Cursor.AgreesTo.nil {k i : Nat} {d : Cursor} (h : Cursor.AgreesTo k ⟨i, []⟩ d)
    (hk : i ≤ k) : d = ⟨i, []⟩ := by
  obtain ⟨j, rest⟩ := d
  obtain ⟨rfl, hrest⟩ := h
  obtain ⟨m, hm⟩ : ∃ m, k + 1 - i = m + 1 := ⟨k - i, by omega⟩
  simp only [hm, List.take_nil] at hrest
  cases rest with
  | nil => rfl
  | cons t rest => cases hrest

theorem Cursor.AgreesTo.cons {k i : Nat} {t : Token} {rest : List Token} {d : Cursor}
    (h : Cursor.AgreesTo k ⟨i, t :: rest⟩ d) (hk : i ≤ k) :
    ∃ rest', d = ⟨i, t :: rest'⟩ ∧ Cursor.AgreesTo k ⟨i + 1, rest⟩ ⟨i + 1, rest'⟩ := by
  obtain ⟨j, us⟩ := d
  obtain ⟨rfl, hrest⟩ := h
  have hm : k + 1 - i = k + 1 - (i + 1) + 1 := by omega
  simp only [hm, List.take_succ_cons] at hrest
  cases us with
  | nil => cases hrest
  | cons u us =>
    rw [List.take_succ_cons] at hrest
    injection hrest with ht hrest
    exact ⟨us, by rw [ht], rfl, hrest⟩

theorem Cursor.AgreesTo.kind {k : Nat} {c d : Cursor} (h : c.AgreesTo k d) (hk : c.index ≤ k) :
    d.kind? = c.kind? := by
  obtain ⟨i, _ | ⟨t, rest⟩⟩ := c
  · rw [h.nil hk]
  · obtain ⟨rest', rfl, -⟩ := h.cons hk
    rfl

/-- With one token more in common the kind after the next is the same too. -/
theorem Cursor.AgreesTo.secondKind {k : Nat} {c d : Cursor} (h : c.AgreesTo k d)
    (hk : c.index < k) : d.secondKind? = c.secondKind? := by
  obtain ⟨i, _ | ⟨t, rest⟩⟩ := c
  · rw [h.nil (Nat.le_of_lt hk)]
  · obtain ⟨rest', rfl, hrest⟩ := h.cons (Nat.le_of_lt hk)
    exact hrest.kind hk

/-! ## Attempts -/

/-- Nothing was noted after the token with index `k`, and the attempt ended there or before. -/
def Attempt.Within {α : Type} (k : Nat) (x : Attempt α) : Prop :=
  x.notes.index ≤ k ∧ ∀ a d, x.result = some (a, d) → d.index ≤ k

/-- The attempts made the same notes and read the same, up to places that agree up to `k`. -/
def Attempt.SameTo {α : Type} (k : Nat) (x y : Attempt α) : Prop :=
  y.notes = x.notes ∧ (x.result = none ∧ y.result = none ∨
    ∃ a d e, x.result = some (a, d) ∧ y.result = some (a, e) ∧ d.AgreesTo k e)

theorem Attempt.SameTo.none {α : Type} {k : Nat} {n : Notes} {y : Attempt α}
    (h : Attempt.SameTo k ⟨none, n⟩ y) : y = ⟨.none, n⟩ := by
  obtain ⟨r, m⟩ := y
  obtain ⟨rfl, ⟨-, rfl⟩ | ⟨a, d, e, hx, -, -⟩⟩ := h
  · rfl
  · cases hx

theorem Attempt.SameTo.some {α : Type} {k : Nat} {n : Notes} {a : α} {d : Cursor} {y : Attempt α}
    (h : Attempt.SameTo k ⟨some (a, d), n⟩ y) :
    ∃ e, y = ⟨.some (a, e), n⟩ ∧ d.AgreesTo k e := by
  obtain ⟨r, m⟩ := y
  obtain ⟨rfl, ⟨hx, -⟩ | ⟨b, d, e, hx, rfl, hde⟩⟩ := h
  · cases hx
  · cases hx
    exact ⟨e, rfl, hde⟩

theorem Notes.index_join_le {a b : Notes} {k : Nat} :
    (a.join b).index ≤ k ↔ a.index ≤ k ∧ b.index ≤ k := by
  rw [Notes.index_join]
  omega

/-- At the place `c`, an attempt within `k` depends on the tokens up to `k` only. -/
structure LocalAt {α : Type} (p : Parser α) (c : Cursor) : Prop where
  forward : ∀ {k : Nat}, (p c).Within k → c.index ≤ k
  same : ∀ {k : Nat} {d : Cursor}, c.AgreesTo k d → (p c).Within k → (p c).SameTo k (p d)

/-- At every place, an attempt within `k` depends on the tokens up to `k` only. -/
def Local {α : Type} (p : Parser α) : Prop := ∀ c, LocalAt p c

namespace Local

variable {α β : Type} {p q : Parser α}

theorem pure (a : α) : Local (pure a : Parser α) := by
  intro c
  refine ⟨fun hk => hk.2 a c rfl, fun h _ => ?_⟩
  exact ⟨rfl, Or.inr ⟨a, c, _, rfl, rfl, h⟩⟩

theorem fail (x : Expectation) : Local (Parser.fail x : Parser α) := by
  intro c
  refine ⟨fun hk => hk.1, fun {k d} h _ => ⟨?_, Or.inl ⟨rfl, rfl⟩⟩⟩
  unfold Parser.fail
  rw [h.1]

theorem tokenWhere (wanted : Token → Bool) (x : Expectation) :
    Local (Parser.tokenWhere wanted x) := by
  intro c
  have hforward : ∀ {k}, (Parser.tokenWhere wanted x c).Within k → c.index ≤ k := by
    intro k hk
    rcases Parser.tokenWhere_cases wanted x c with ⟨i, t, rest, rfl, -, hrun⟩ | ⟨-, hrun⟩
    · rw [hrun] at hk
      exact Nat.le_of_succ_le (hk.2 t _ rfl)
    · rw [hrun] at hk
      exact hk.1
  refine ⟨hforward, fun {k d} h hk => ?_⟩
  have hc := hforward hk
  obtain ⟨i, _ | ⟨t, rest⟩⟩ := c
  · rw [h.nil hc]
    exact ⟨rfl, Or.inl ⟨rfl, rfl⟩⟩
  · obtain ⟨rest', rfl, hrest⟩ := h.cons hc
    unfold Parser.tokenWhere
    by_cases ht : wanted t = true
    · simp only [ht, if_true]
      exact ⟨rfl, Or.inr ⟨t, _, _, rfl, rfl, hrest⟩⟩
    · simp only [ht]
      exact ⟨rfl, Or.inl ⟨rfl, rfl⟩⟩

theorem bind {f : α → Parser β} (hp : Local p) (hf : ∀ a, Local (f a)) : Local (p >>= f) := by
  intro c
  rcases h : p c with ⟨_ | ⟨a, d⟩, n⟩
  · have hwithin : ∀ {k}, ((p >>= f) c).Within k → (p c).Within k := by
      intro k hk
      rw [Parser.bind_of_none h] at hk
      rw [h]
      exact ⟨hk.1, fun a d had => by cases had⟩
    refine ⟨fun hk => (hp c).forward (hwithin hk), fun {k c'} hagree hk => ?_⟩
    have hsame := (hp c).same hagree (hwithin hk)
    rw [h] at hsame
    rw [Parser.bind_of_none h, Parser.bind_of_none hsame.none]
    exact ⟨rfl, Or.inl ⟨rfl, rfl⟩⟩
  · -- the second part starts where the first ended, so the first ended within `k` too
    have hwithin : ∀ {k}, ((p >>= f) c).Within k → (p c).Within k ∧ (f a d).Within k := by
      intro k hk
      rw [Parser.bind_of_some h] at hk
      obtain ⟨hn, hm⟩ := Notes.index_join_le.1 hk.1
      have hf' : (f a d).Within k := ⟨hm, hk.2⟩
      refine ⟨?_, hf'⟩
      rw [h]
      refine ⟨hn, fun b e hbe => ?_⟩
      cases hbe
      exact (hf a d).forward hf'
    refine ⟨fun hk => (hp c).forward (hwithin hk).1, fun {k c'} hagree hk => ?_⟩
    have hsame := (hp c).same hagree (hwithin hk).1
    rw [h] at hsame
    obtain ⟨e, he, hde⟩ := hsame.some
    obtain ⟨hnotes, hresult⟩ := (hf a d).same hde (hwithin hk).2
    rw [Parser.bind_of_some h, Parser.bind_of_some he, hnotes]
    exact ⟨rfl, hresult⟩

theorem orElse (hp : Local p) (hq : Local q) : Local (Parser.orElse p q) := by
  intro c
  rcases h : p c with ⟨_ | ⟨a, d⟩, n⟩
  · have hwithin : ∀ {k}, (Parser.orElse p q c).Within k → (p c).Within k ∧ (q c).Within k := by
      intro k hk
      rw [Parser.orElse_of_none h] at hk
      obtain ⟨hn, hm⟩ := Notes.index_join_le.1 hk.1
      refine ⟨?_, hm, hk.2⟩
      rw [h]
      exact ⟨hn, fun a d had => by cases had⟩
    refine ⟨fun hk => (hp c).forward (hwithin hk).1, fun {k c'} hagree hk => ?_⟩
    have hsame := (hp c).same hagree (hwithin hk).1
    rw [h] at hsame
    obtain ⟨hnotes, hresult⟩ := (hq c).same hagree (hwithin hk).2
    rw [Parser.orElse_of_none h, Parser.orElse_of_none hsame.none, hnotes]
    exact ⟨rfl, hresult⟩
  · have hwithin : ∀ {k}, (Parser.orElse p q c).Within k → (p c).Within k := by
      intro k hk
      rwa [Parser.orElse_of_some h, ← h] at hk
    refine ⟨fun hk => (hp c).forward (hwithin hk), fun {k c'} hagree hk => ?_⟩
    have hsame := (hp c).same hagree (hwithin hk)
    rw [h] at hsame
    obtain ⟨e, he, hde⟩ := hsame.some
    rw [Parser.orElse_of_some h, Parser.orElse_of_some he]
    exact ⟨rfl, Or.inr ⟨a, d, e, rfl, rfl, hde⟩⟩

theorem nextKind {f : Option Token.Kind → Parser α} (hf : ∀ c, LocalAt (f c.kind?) c) :
    Local (Parser.nextKind? >>= f) := by
  intro c
  refine ⟨fun hk => ?_, fun {k d} hagree hk => ?_⟩
  · rw [Parser.bind_nextKind] at hk
    exact (hf c).forward hk
  · rw [Parser.bind_nextKind] at hk ⊢
    rw [Parser.bind_nextKind, hagree.kind ((hf c).forward hk)]
    exact (hf c).same hagree hk

/-- Looking at two kinds is local only where a token is taken afterwards. -/
theorem secondKind {f : Option Token.Kind → Parser α} (hf : ∀ kind, Local (f kind)) {c : Cursor}
    (hnext : ∀ {k}, (f c.secondKind? c).Within k → c.index < k) :
    LocalAt (Parser.secondKind? >>= f) c := by
  refine ⟨fun hk => ?_, fun {k d} hagree hk => ?_⟩
  · rw [Parser.bind_secondKind] at hk
    exact Nat.le_of_lt (hnext hk)
  · rw [Parser.bind_secondKind] at hk ⊢
    rw [Parser.bind_secondKind, hagree.secondKind (hnext hk)]
    exact (hf _ c).same hagree hk

/-! ### Repetition -/

theorem upTo (hp : Local p) (n : Nat) : Local (Parser.upTo p n) := by
  induction n with
  | zero => exact pure []
  | succ n ih => exact (hp.bind fun a => ih.bind fun more => pure (a :: more)).orElse (pure [])

theorem upToWhile (starts : Token.Kind → Bool) (hp : Local p) (n : Nat) :
    Local (Parser.upToWhile starts p n) := by
  induction n with
  | zero => exact pure []
  | succ n ih =>
    refine nextKind fun c => ?_
    rcases c.kind? with _ | kind
    · exact pure [] c
    · dsimp only
      split
      · exact (hp.bind fun a => ih.bind fun more => pure (a :: more)) c
      · exact pure [] c

/-- A loop acts like its unrolling to any number of steps that is large enough for both places. -/
theorem many (hp : Local p) (hconsumes : Consumes p) : Local (Parser.many p) := by
  have hfuel : ∀ {c : Cursor} (n : Nat), Parser.many p c = Parser.upTo p (c.rest.length + 1 + n) c :=
    fun n => upTo_fuel hconsumes (by omega) (by omega)
  intro c
  refine ⟨fun hk => (hp.upTo _ c).forward hk, fun {k d} hagree hk => ?_⟩
  have hc := hfuel (c := c) (d.rest.length + 1)
  have hd := hfuel (c := d) (c.rest.length + 1)
  rw [hc] at hk ⊢
  rw [hd, Nat.add_comm (d.rest.length + 1)]
  exact (hp.upTo _ c).same hagree hk

theorem manyWhile (starts : Token.Kind → Bool) (hp : Local p) (hconsumes : Consumes p) :
    Local (Parser.manyWhile starts p) := by
  have hfuel : ∀ {c : Cursor} (n : Nat),
      Parser.manyWhile starts p c = Parser.upToWhile starts p (c.rest.length + n) c :=
    fun n => upToWhile_fuel hconsumes (by omega) (by omega)
  intro c
  refine ⟨fun hk => (hp.upToWhile starts _ c).forward hk, fun {k d} hagree hk => ?_⟩
  have hc := hfuel (c := c) d.rest.length
  have hd := hfuel (c := d) c.rest.length
  rw [hc] at hk ⊢
  rw [hd, Nat.add_comm d.rest.length]
  exact (hp.upToWhile starts _ c).same hagree hk

end Local

/-! ## Numbers, names and operators -/

variable {prec : Precedence}

theorem local_token (kind : Token.Kind) : Local (Parser.token kind) := Local.tokenWhere _ _

theorem local_sign : Local sign := by
  refine Local.nextKind fun c => ?_
  split
  · exact ((local_token .minus).bind fun _ => Local.pure true) c
  · exact ((local_token .plus).bind fun _ => Local.pure false) c
  · exact Local.pure false c

theorem local_number : Local number :=
  local_sign.bind fun _ => (Local.tokenWhere _ _).bind fun _ => Local.pure _

theorem local_variableName : Local variableName := (local_token .name).bind fun _ => Local.pure _

theorem local_operator (prec : Precedence) : Local (operator prec) :=
  (Local.tokenWhere _ _).bind fun _ => Local.pure _

/-! ## Parts that hold expressions -/

section Inside
variable {E : List Token → Expr → Prop} {inner : Parser Expr}

theorem local_parenthesized (h : Local inner) : Local (parenthesized inner) :=
  (local_token _).bind fun _ => h.bind fun _ => (local_token _).bind fun _ => Local.pure _

theorem local_range (h : Local inner) : Local (range inner) :=
  (local_token _).bind fun _ => h.bind fun _ => (local_token _).bind fun _ => h.bind fun _ =>
    (local_token _).bind fun _ => Local.pure _

theorem local_lambda (h : Local inner) : Local (lambda inner) := by
  have hnames : Local (Parser.manyWhile (· == .name) (Parser.token .name)) :=
    (local_token .name).manyWhile _ (consumes_tokenWhere _ _)
  exact (local_token _).bind fun _ => hnames.bind fun _ => (local_token _).bind fun _ =>
    h.bind fun _ => Local.pure _

theorem local_arg (h : Local inner) : Local (arg inner) := (local_lambda h).orElse h

theorem local_call (hinner : Reads prec inner E E []) {xs : List Token} {x : Expr} (hx : E xs x)
    (h : Local inner) : Local (call inner) := by
  have hconsumes : Consumes (do let _ ← Parser.token .comma; arg inner) := by
    refine (reads_nextArg hinner hx).consumes fun ts e hts => ?_
    obtain ⟨comma, us, -, rfl, -⟩ := hts
    exact List.cons_ne_nil _ _
  have hnext : Local (do let _ ← Parser.token .comma; arg inner) :=
    (local_token .comma).bind fun _ => local_arg h
  exact (local_token _).bind fun _ => (local_token _).bind fun _ => (local_arg h).bind fun _ =>
    (hnext.manyWhile (· == .comma) hconsumes).bind fun _ => (local_token _).bind fun _ => Local.pure _

end Inside

/-! ## Atoms and expressions -/

section Atoms
variable {E : List Token → Expr → Prop} {inner : Option (Parser Expr)}

theorem isAtomOver_ne_nil {ts : List Token} {e : Expr} (h : IsAtomOver E ts e) : ts ≠ [] := by
  cases h with
  | number h => cases h <;> simp
  | _ => exact List.cons_ne_nil _ _

theorem local_within {part : Parser Expr → Parser Expr}
    (h : ∀ i, inner = some i → Local (part i)) : Local (within inner part) := by
  cases inner with
  | some i => exact h i rfl
  | none => exact Local.fail _

/-- Where a name comes, it is taken, with a call or alone. -/
theorem exists_result_name (hreads : Reads prec (within inner call) (IsAtomOver E) (IsAtomOver E) [])
    {c : Cursor} (hc : c.kind? = some .name) (calls : Bool) :
    ∃ e d, ((if calls = true then Parser.orElse (within inner call) variableName
      else variableName) c).result = some (e, d) ∧ c.index < d.index := by
  have hname : ∃ e d, (variableName c).result = some (e, d) ∧ c.index < d.index := by
    obtain ⟨i, _ | ⟨t, rest⟩⟩ := c
    · cases hc
    · have ht : t.kind = .name := Option.some.inj hc
      exact ⟨_, _, Parser.result_bind_of_some (Takes.token ht i) _, Nat.lt_succ_self i⟩
  cases calls with
  | false => exact hname
  | true =>
    rw [if_pos rfl]
    rcases hcall : (within inner call c).result with _ | ⟨e, d⟩
    · rw [Parser.result_orElse_of_none hcall]
      exact hname
    · obtain ⟨ts, hpass, hts⟩ := hreads.read hcall
      have hpos := List.length_pos_iff.2 (isAtomOver_ne_nil hts)
      refine ⟨e, d, Parser.result_orElse_of_some hcall, ?_⟩
      rw [hpass.2]
      omega

theorem local_atomOver (prec : Precedence) (E : List Token → Expr → Prop)
    (h : ∀ i, inner = some i → Local i ∧ Reads prec i E E [] ∧ ∃ xs x, E xs x) :
    Local (atomOver inner) := by
  have hcall : Local (within inner call) := by
    refine local_within fun i hi => ?_
    obtain ⟨hlocal, hreads, xs, x, hx⟩ := h i hi
    exact local_call hreads hx hlocal
  have hreads : Reads prec (within inner call) (IsAtomOver E) (IsAtomOver E) [] := by
    refine reads_within fun i hi => ?_
    obtain ⟨-, hreads, xs, x, hx⟩ := h i hi
    exact reads_call hreads hx
  refine Local.nextKind fun c => ?_
  split
  · next hc =>
    refine Local.secondKind (fun second => ?_) fun {k} hk => ?_
    · split
      · exact hcall.orElse local_variableName
      · exact local_variableName
    · obtain ⟨e, d, hresult, hlt⟩ := exists_result_name hreads hc (c.secondKind? == some .leftParen)
      exact Nat.lt_of_lt_of_le hlt (hk.2 e d hresult)
  · exact local_number c
  · exact local_number c
  · exact local_number c
  · exact local_number c
  · exact local_within (fun i hi => local_parenthesized (h i hi).1) c
  · exact local_within (fun i hi => local_range (h i hi).1) c
  · exact Local.fail _ c

end Atoms

theorem local_exprOver {A : List Token → Expr → Prop} {atom : Parser Expr}
    (hatom : Reads prec atom A A []) {xs : List Token} {x : Expr} (hx : A xs x)
    (h : Local atom) : Local (exprOver prec atom) := by
  have hconsumes : Consumes (do let op ← operator prec; let term ← atom; return (op, term)) := by
    refine (reads_operand hatom hx).consumes fun ts pair hts => ?_
    obtain ⟨op, us, -, rfl, -, -⟩ := hts
    exact List.cons_ne_nil _ _
  have hoperand : Local (do let op ← operator prec; let term ← atom; return (op, term)) :=
    (local_operator prec).bind fun _ => h.bind fun _ => Local.pure _
  refine h.bind fun first => (hoperand.many hconsumes).bind fun rest => ?_
  split
  · exact Local.pure _
  · exact Local.fail _

theorem local_atom (prec : Precedence) (depth : Nat) : Local (atom prec depth) := by
  induction depth with
  | zero =>
    refine local_atomOver prec (fun _ _ => False) fun i hi => ?_
    cases hi
  | succ depth ih =>
    refine local_atomOver prec (IsExpr prec depth) fun i hi => ?_
    cases hi
    have hname : IsAtom prec depth [sample .name] _ := isAtom_name rfl
    have hreads := reads_atom prec depth
    exact ⟨local_exprOver hreads hname ih, reads_exprOver hreads hname, _, _,
      isExprOver_of_atom hname⟩

theorem local_expr (prec : Precedence) : Local (expr prec) :=
  local_exprOver (reads_atom prec maxNesting) (isAtom_name (sample_kind .name))
    (local_atom prec maxNesting)

/-! ## Statements and programs -/

theorem local_statement (prec : Precedence) : Local (statement prec) := by
  refine Local.nextKind fun c => ?_
  split
  · exact ((local_token _).bind fun _ => (local_token _).bind fun _ => (local_token _).bind fun _ =>
      (local_expr prec).bind fun _ => Local.pure _) c
  · exact ((local_token _).bind fun _ => (local_expr prec).bind fun _ => Local.pure _) c
  · exact ((local_token _).bind fun _ => (local_token _).bind fun _ => Local.pure _) c
  · exact Local.fail _ c

theorem local_program (prec : Precedence) :
    Local (Parser.manyWhile (fun _ => true) (statement prec)) :=
  (local_statement prec).manyWhile _ (consumes_statement prec)

end RangeScript.Parse
