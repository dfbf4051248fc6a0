import RangeScript.Proofs.Viability

/-!
# What a parser reads and notes

`Reads prec p R S before` says that what `p` reads is in `R`, and that each of its notes fits what was
read of `S` up to there, the tokens `before` included. The second part of a sequence is judged by what
is left of the language after the first (`Reads.bind`), so a production is checked token by token.
-/

namespace RangeScript.Parse

/-! ## Steps of parsers -/

namespace Parser

variable {α β : Type}

theorem tokenWhere_cases (wanted : Token → Bool) (x : Expectation) (c : Cursor) :
    (∃ i t rest, c = ⟨i, t :: rest⟩ ∧ wanted t = true ∧
      tokenWhere wanted x c = ⟨some (t, ⟨i + 1, rest⟩), .none⟩) ∨
    ((∀ t ∈ c.rest.head?, wanted t = false) ∧
      tokenWhere wanted x c = ⟨none, ⟨c.index, [x]⟩⟩) := by
  obtain ⟨i, _ | ⟨t, rest⟩⟩ := c
  · refine Or.inr ⟨fun t ht => ?_, rfl⟩
    cases ht
  · by_cases h : wanted t = true
    · exact Or.inl ⟨i, t, rest, rfl, h, if_pos h⟩
    · refine Or.inr ⟨fun u hu => ?_, if_neg h⟩
      cases hu
      exact Bool.eq_false_iff.2 h

theorem exists_of_result_bind {p : Parser α} {f : α → Parser β} {c e : Cursor} {b : β}
    (h : ((p >>= f) c).result = some (b, e)) :
    ∃ a d, (p c).result = some (a, d) ∧ (f a d).result = some (b, e) := by
  rcases hp : p c with ⟨_ | ⟨a, d⟩, n⟩
  · rw [bind_of_none hp] at h
    cases h
  · rw [bind_of_some hp] at h
    exact ⟨a, d, rfl, h⟩

theorem bind_congr {p : Parser α} {f g : α → Parser β} {c : Cursor}
    (h : ∀ a d, (p c).result = some (a, d) → f a d = g a d) : (p >>= f) c = (p >>= g) c := by
  rcases hp : p c with ⟨_ | ⟨a, d⟩, n⟩
  · rw [bind_of_none hp, bind_of_none hp]
  · rw [bind_of_some hp, bind_of_some hp, h a d (by rw [hp])]

theorem orElse_congr {p p' q : Parser α} {c : Cursor} (h : p c = p' c) :
    orElse p q c = orElse p' q c := by
  unfold orElse
  rw [h]

theorem orElse_of_some {p : Parser α} {c : Cursor} {r : α × Cursor} {n : Notes}
    (h : p c = ⟨some r, n⟩) (q : Parser α) : orElse p q c = ⟨some r, n⟩ := by
  simp only [orElse, h]

theorem orElse_of_none {p : Parser α} {c : Cursor} {n : Notes} (h : p c = ⟨none, n⟩)
    (q : Parser α) : orElse p q c = ⟨(q c).result, n.join (q c).notes⟩ := by
  simp only [orElse, h]

theorem bind_nextKind (f : Option Token.Kind → Parser α) (c : Cursor) :
    (nextKind? >>= f) c = f c.kind? c := by
  rw [bind_of_some (show nextKind? c = ⟨some (c.kind?, c), .none⟩ from rfl), Notes.none_join]

theorem bind_secondKind (f : Option Token.Kind → Parser α) (c : Cursor) :
    (secondKind? >>= f) c = f c.secondKind? c := by
  rw [bind_of_some (show secondKind? c = ⟨some (c.secondKind?, c), .none⟩ from rfl),
    Notes.none_join]

end Parser

/-! ## Reading -/

/-- What `p` reads is in `R`, and each of its notes, of which a failure has one, fits the language
`S` after `before` and what was read up to the note. -/
structure Reads {α σ : Type} (prec : Precedence) (p : Parser α) (R : List Token → α → Prop)
    (S : List Token → σ → Prop) (before : List Token) : Prop where
  read : ∀ {c : Cursor} {a : α} {d : Cursor}, (p c).result = some (a, d) →
    ∃ ts, c.Passes ts d ∧ R ts a
  fits : ∀ {c : Cursor} {x : Expectation}, x ∈ (p c).notes.expected →
    ∃ u d, c.Passes u d ∧ (p c).notes.index = d.index ∧ Fits prec S (before ++ u) x
  proper : ∀ c : Cursor, (p c).notes.Proper
  noted : ∀ {c : Cursor}, (p c).result = none → (p c).notes.expected ≠ []

namespace Reads

variable {α β σ τ : Type} {prec : Precedence} {p q : Parser α} {R R' : List Token → α → Prop}
  {S : List Token → σ → Prop} {T : List Token → τ → Prop} {before after : List Token}

theorem mono (h : Reads prec p R S before) (hR : ∀ ts a, R ts a → R' ts a) :
    Reads prec p R' S before where
  read hp := by
    obtain ⟨ts, hpass, hts⟩ := h.read hp
    exact ⟨ts, hpass, hR _ _ hts⟩
  fits := h.fits
  proper := h.proper
  noted := h.noted

/-- The parser as a part of a larger language. -/
theorem into (h : Reads prec p R S before)
    (hST : ∀ u, Viable S (before ++ u) → Viable T (after ++ u)) : Reads prec p R T after where
  read := h.read
  fits hx := by
    obtain ⟨u, d, hpass, hindex, hfit⟩ := h.fits hx
    exact ⟨u, d, hpass, hindex, hfit.mono hST⟩
  proper := h.proper
  noted := h.noted

theorem pure {a : α} (h : R [] a) : Reads prec (pure a) R S before where
  read hp := by
    cases hp
    exact ⟨[], .refl _, h⟩
  fits hx := by cases hx
  proper _ := Notes.proper_none
  noted hp := by cases hp

theorem fail {x : Expectation} (h : Fits prec S before x) :
    Reads prec (Parser.fail x : Parser α) R S before where
  read hp := by cases hp
  fits {c y} hx := by
    obtain rfl := List.mem_singleton.1 hx
    refine ⟨[], c, .refl c, rfl, ?_⟩
    rwa [List.append_nil]
  proper c := Notes.proper_single _ _
  noted _ := List.cons_ne_nil _ _

theorem tokenWhere {wanted : Token → Bool} {x : Expectation} (h : Fits prec S before x) :
    Reads prec (Parser.tokenWhere wanted x) (fun ts t => ts = [t] ∧ wanted t = true) S before where
  read {c t d} hp := by
    rcases Parser.tokenWhere_cases wanted x c with ⟨i, u, rest, rfl, hu, hrun⟩ | ⟨-, hrun⟩
    · rw [hrun] at hp
      cases hp
      exact ⟨_, .one, rfl, hu⟩
    · rw [hrun] at hp
      cases hp
  fits {c y} hx := by
    rcases Parser.tokenWhere_cases wanted x c with ⟨i, u, rest, rfl, hu, hrun⟩ | ⟨-, hrun⟩
    · rw [hrun] at hx
      cases hx
    · rw [hrun] at hx ⊢
      obtain rfl := List.mem_singleton.1 hx
      refine ⟨[], c, .refl c, rfl, ?_⟩
      rwa [List.append_nil]
  proper c := by
    rcases Parser.tokenWhere_cases wanted x c with ⟨i, u, rest, rfl, hu, hrun⟩ | ⟨-, hrun⟩
    · rw [hrun]
      exact Notes.proper_none
    · rw [hrun]
      exact Notes.proper_single _ _
  noted {c} hp := by
    rcases Parser.tokenWhere_cases wanted x c with ⟨i, u, rest, rfl, hu, hrun⟩ | ⟨-, hrun⟩
    · rw [hrun] at hp
      cases hp
    · rw [hrun]
      exact List.cons_ne_nil _ _

theorem token {kind : Token.Kind} {t : Token} (ht : t.kind = kind) (h : Viable S (before ++ [t])) :
    Reads prec (Parser.token kind) (fun ts t => ts = [t] ∧ t.kind = kind) S before :=
  (tokenWhere (Fits.of_names (.token ht) h)).mono fun _ _ h => ⟨h.1, eq_of_beq h.2⟩

/-- A sequence: its second part has to read what is left of the language after the first. -/
theorem bind {f : α → Parser β} {Q : List Token → β → Prop} (hp : Reads prec p R S before)
    (hf : ∀ ts a, R ts a → Reads prec (f a) (fun us b => Q (ts ++ us) b) S (before ++ ts)) :
    Reads prec (p >>= f) Q S before where
  read {c b e} hrun := by
    rcases h : p c with ⟨_ | ⟨a, d⟩, n⟩
    · rw [Parser.bind_of_none h] at hrun
      cases hrun
    · rw [Parser.bind_of_some h] at hrun
      obtain ⟨ts, hts, hR⟩ := hp.read (by rw [h])
      obtain ⟨us, hus, hQ⟩ := (hf ts a hR).read hrun
      exact ⟨ts ++ us, hts.trans hus, hQ⟩
  fits {c x} hx := by
    rcases h : p c with ⟨_ | ⟨a, d⟩, n⟩
    · rw [Parser.bind_of_none h] at hx ⊢
      simpa only [h] using hp.fits (c := c) (x := x) (by rwa [h])
    · rw [Parser.bind_of_some h] at hx ⊢
      obtain ⟨ts, hts, hR⟩ := hp.read (by rw [h])
      rcases Notes.mem_join hx with ⟨hx, hindex⟩ | ⟨hx, hindex⟩
      · have := hp.fits (c := c) (x := x) (by rwa [h])
        rw [h] at this
        rwa [hindex]
      · obtain ⟨u, e, hu, he, hfit⟩ := (hf ts a hR).fits hx
        refine ⟨ts ++ u, e, hts.trans hu, hindex.trans he, ?_⟩
        rwa [← List.append_assoc]
  proper c := by
    have hc := hp.proper c
    rcases h : p c with ⟨_ | ⟨a, d⟩, n⟩ <;> rw [h] at hc
    · rw [Parser.bind_of_none h]
      exact hc
    · rw [Parser.bind_of_some h]
      obtain ⟨ts, -, hR⟩ := hp.read (by rw [h])
      exact hc.join ((hf ts a hR).proper d)
  noted {c} hrun := by
    rcases h : p c with ⟨_ | ⟨a, d⟩, n⟩
    · rw [Parser.bind_of_none h]
      simpa only [h] using hp.noted (c := c) (by rw [h])
    · rw [Parser.bind_of_some h] at hrun ⊢
      obtain ⟨ts, -, hR⟩ := hp.read (by rw [h])
      intro hnil
      have hc := hp.proper c
      rw [h] at hc
      have hnone := (Notes.join_expected_eq_nil hc ((hf ts a hR).proper d) hnil).2
      exact (hf ts a hR).noted hrun (by rw [hnone]; rfl)

theorem orElse (hp : Reads prec p R S before) (hq : Reads prec q R S before) :
    Reads prec (Parser.orElse p q) R S before where
  read {c a d} hrun := by
    rcases h : p c with ⟨_ | r, n⟩
    · rw [Parser.orElse_of_none h] at hrun
      exact hq.read hrun
    · rw [Parser.orElse_of_some h] at hrun
      exact hp.read (by rw [h]; exact hrun)
  fits {c x} hx := by
    rcases h : p c with ⟨_ | r, n⟩
    · rw [Parser.orElse_of_none h] at hx ⊢
      rcases Notes.mem_join hx with ⟨hx, hindex⟩ | ⟨hx, hindex⟩
      · have := hp.fits (c := c) (x := x) (by rwa [h])
        rw [h] at this
        rwa [hindex]
      · have := hq.fits hx
        rwa [hindex]
    · rw [Parser.orElse_of_some h] at hx ⊢
      simpa only [h] using hp.fits (c := c) (x := x) (by rwa [h])
  proper c := by
    have hc := hp.proper c
    rcases h : p c with ⟨_ | r, n⟩ <;> rw [h] at hc
    · rw [Parser.orElse_of_none h]
      exact hc.join (hq.proper c)
    · rw [Parser.orElse_of_some h]
      exact hc
  noted {c} hrun := by
    rcases h : p c with ⟨_ | r, n⟩
    · rw [Parser.orElse_of_none h] at hrun ⊢
      intro hnil
      have hc := hp.proper c
      rw [h] at hc
      have hnone := (Notes.join_expected_eq_nil hc (hq.proper c) hnil).2
      exact hq.noted hrun (by rw [hnone]; rfl)
    · rw [Parser.orElse_of_some h] at hrun
      cases hrun

/-- A parser that acts at each place like one that reads `R`. -/
theorem pointwise (h : ∀ c, ∃ q, Reads prec q R S before ∧ p c = q c) : Reads prec p R S before where
  read {c _ _} hrun := by
    obtain ⟨q, hq, heq⟩ := h c
    rw [heq] at hrun
    exact hq.read hrun
  fits {c _} hx := by
    obtain ⟨q, hq, heq⟩ := h c
    rw [heq] at hx ⊢
    exact hq.fits hx
  proper c := by
    obtain ⟨q, hq, heq⟩ := h c
    rw [heq]
    exact hq.proper c
  noted {c} hrun := by
    obtain ⟨q, hq, heq⟩ := h c
    rw [heq] at hrun ⊢
    exact hq.noted hrun

theorem nextKind {f : Option Token.Kind → Parser α} (h : ∀ kind, Reads prec (f kind) R S before) :
    Reads prec (Parser.nextKind? >>= f) R S before :=
  pointwise fun c => ⟨f c.kind?, h c.kind?, Parser.bind_nextKind f c⟩

theorem secondKind {f : Option Token.Kind → Parser α} (h : ∀ kind, Reads prec (f kind) R S before) :
    Reads prec (Parser.secondKind? >>= f) R S before :=
  pointwise fun c => ⟨f c.secondKind?, h c.secondKind?, Parser.bind_secondKind f c⟩

/-! ### Repetition

A list of readings is in `T`, which has the empty list and with a list also each longer by one
reading in front. -/

section Repetition
variable {T : List Token → List α → Prop}
  (cons : ∀ ts us a as, R ts a → T us as → T (ts ++ us) (a :: as))
include cons

theorem more (hp : Reads prec p R T []) {r : Parser (List α)} (hr : Reads prec r T T []) :
    Reads prec (do let a ← p; let more ← r; return a :: more) T T [] := by
  refine hp.bind fun ts a hts => ?_
  have hafter : ∀ u, Viable T ([] ++ u) → Viable T ([] ++ ts ++ u) := by
    rintro u ⟨v, as, huv⟩
    refine ⟨v, a :: as, ?_⟩
    simpa using cons ts (u ++ v) a as hts huv
  refine (hr.into hafter).bind fun us as hus => Reads.pure ?_
  rw [List.append_nil]
  exact cons ts us a as hts hus

variable (nil : T [] [])
include nil

theorem upTo (hp : Reads prec p R T []) (n : Nat) : Reads prec (Parser.upTo p n) T T [] := by
  induction n with
  | zero => exact Reads.pure nil
  | succ n ih => exact (more cons hp ih).orElse (Reads.pure nil)

theorem many (hp : Reads prec p R T []) : Reads prec (Parser.many p) T T [] :=
  pointwise fun c => ⟨_, upTo cons nil hp (c.rest.length + 1), rfl⟩

theorem upToWhile (starts : Token.Kind → Bool) (hp : Reads prec p R T []) (n : Nat) :
    Reads prec (Parser.upToWhile starts p n) T T [] := by
  induction n with
  | zero => exact Reads.pure nil
  | succ n ih =>
    refine Reads.nextKind fun kind => ?_
    rcases kind with _ | kind
    · exact Reads.pure nil
    · dsimp only
      split
      · exact more cons hp ih
      · exact Reads.pure nil

theorem manyWhile (starts : Token.Kind → Bool) (hp : Reads prec p R T []) :
    Reads prec (Parser.manyWhile starts p) T T [] :=
  pointwise fun c => ⟨_, upToWhile cons nil starts hp c.rest.length, rfl⟩

end Repetition

end Reads

/-! ## Repetition takes as many steps as it needs -/

/-- Each success takes a token at least. -/
def Consumes {α : Type} (p : Parser α) : Prop :=
  ∀ {c : Cursor} {a : α} {d : Cursor}, (p c).result = some (a, d) → d.rest.length < c.rest.length

theorem consumes_tokenWhere (wanted : Token → Bool) (x : Expectation) :
    Consumes (Parser.tokenWhere wanted x) := by
  intro c t d h
  rcases Parser.tokenWhere_cases wanted x c with ⟨i, u, rest, rfl, -, hrun⟩ | ⟨-, hrun⟩
  · rw [hrun] at h
    cases h
    exact Nat.lt_succ_self _
  · rw [hrun] at h
    cases h

section Consumes
variable {α σ : Type} {prec : Precedence} {p : Parser α} {R : List Token → α → Prop}
  {S : List Token → σ → Prop} {before : List Token}

theorem Reads.consumes (h : Reads prec p R S before) (hR : ∀ ts a, R ts a → ts ≠ []) :
    Consumes p := by
  intro c a d hp
  obtain ⟨ts, hpass, hts⟩ := h.read hp
  have hne := List.length_pos_iff.2 (hR ts a hts)
  have hlen := hpass.length_add
  omega

variable (hp : Consumes p)
include hp

theorem upTo_fuel {n m : Nat} {c : Cursor} (hn : c.rest.length < n) (hm : c.rest.length < m) :
    Parser.upTo p n c = Parser.upTo p m c := by
  induction n generalizing m c with
  | zero => exact absurd hn (Nat.not_lt_zero _)
  | succ n ih =>
    obtain ⟨m, rfl⟩ : ∃ k, m = k + 1 := ⟨m - 1, by omega⟩
    refine Parser.orElse_congr (Parser.bind_congr fun a d hd => ?_)
    have hlen := hp hd
    have hmore : Parser.upTo p n d = Parser.upTo p m d := ih (by omega) (by omega)
    simp only [bind, hmore]

omit hp in
theorem upToWhile_end {starts : Token.Kind → Bool} {c : Cursor} (hc : c.rest = []) (n : Nat) :
    Parser.upToWhile starts p n c = (pure [] : Parser (List α)) c := by
  cases n with
  | zero => rfl
  | succ n =>
    have hkind : c.kind? = none := by rw [Cursor.kind?, hc]; rfl
    unfold Parser.upToWhile
    rw [Parser.bind_nextKind, hkind]

theorem upToWhile_fuel {starts : Token.Kind → Bool} {n m : Nat} {c : Cursor}
    (hn : c.rest.length ≤ n) (hm : c.rest.length ≤ m) :
    Parser.upToWhile starts p n c = Parser.upToWhile starts p m c := by
  induction n generalizing m c with
  | zero =>
    have hc : c.rest = [] := List.length_eq_zero_iff.1 (by omega)
    rw [upToWhile_end hc, upToWhile_end hc]
  | succ n ih =>
    rcases m with _ | m
    · have hc : c.rest = [] := List.length_eq_zero_iff.1 (by omega)
      rw [upToWhile_end hc, upToWhile_end hc]
    · unfold Parser.upToWhile
      rw [Parser.bind_nextKind, Parser.bind_nextKind]
      rcases c.kind? with _ | kind
      · rfl
      · dsimp only
        split
        · refine Parser.bind_congr fun a d hd => ?_
          have hlen := hp hd
          have hmore : Parser.upToWhile starts p n d = Parser.upToWhile starts p m d :=
            ih (by omega) (by omega)
          simp only [bind, hmore]
        · rfl

/-- Where every kind of token starts one more, nothing is left in the end. -/
theorem rest_of_upToWhile {n : Nat} {c d : Cursor} {as : List α} (hn : c.rest.length ≤ n)
    (h : (Parser.upToWhile (fun _ => true) p n c).result = some (as, d)) : d.rest = [] := by
  induction n generalizing c as with
  | zero =>
    cases h
    exact List.length_eq_zero_iff.1 (by omega)
  | succ n ih =>
    unfold Parser.upToWhile at h
    rw [Parser.bind_nextKind] at h
    rcases hkind : c.kind? with _ | kind
    · rw [hkind] at h
      cases h
      simpa [Cursor.kind?] using hkind
    · rw [hkind] at h
      obtain ⟨a, e, he, h⟩ := Parser.exists_of_result_bind h
      obtain ⟨more, e', hmore, h⟩ := Parser.exists_of_result_bind h
      cases h
      have hlen := hp he
      exact ih (by omega) hmore

end Consumes

end RangeScript.Parse
