import RangeScript.Proofs.Reading

/-!
# What a parser takes from given tokens

`Takes p ts a rest` : where the tokens `ts` come and then `rest`, `p` reads `a` from exactly `ts`.
`Rejects p ts` : where `ts` comes, `p` fails. What is read never depends on the notes, so neither
mentions them.
-/

namespace RangeScript.Parse

variable {α β : Type} {p q : Parser α} {a : α} {ts us rest : List Token}

/-- Where `ts` comes and then `rest`, the parser reads `a` from exactly `ts`. -/
def Takes (p : Parser α) (ts : List Token) (a : α) (rest : List Token) : Prop :=
  ∀ i, (p ⟨i, ts ++ rest⟩).result = some (a, ⟨i + ts.length, rest⟩)

/-- Where `ts` comes, the parser fails. -/
def Rejects (p : Parser α) (ts : List Token) : Prop := ∀ i, (p ⟨i, ts⟩).result = none

namespace Parser

theorem result_bind_of_some {c d : Cursor} (h : (p c).result = some (a, d)) (f : α → Parser β) :
    ((p >>= f) c).result = (f a d).result := by
  rcases hp : p c with ⟨r, n⟩
  rw [hp] at h
  obtain rfl : r = some (a, d) := h
  rw [bind_of_some hp]

theorem result_bind_of_none {c : Cursor} (h : (p c).result = none) (f : α → Parser β) :
    ((p >>= f) c).result = none := by
  rcases hp : p c with ⟨r, n⟩
  rw [hp] at h
  obtain rfl : r = none := h
  rw [bind_of_none hp]

theorem result_orElse_of_some {c : Cursor} {r : α × Cursor} (h : (p c).result = some r) :
    (orElse p q c).result = some r := by
  rcases hp : p c with ⟨s, n⟩
  rw [hp] at h
  obtain rfl : s = some r := h
  rw [orElse_of_some hp]

theorem result_orElse_of_none {c : Cursor} (h : (p c).result = none) :
    (orElse p q c).result = (q c).result := by
  rcases hp : p c with ⟨s, n⟩
  rw [hp] at h
  obtain rfl : s = none := h
  rw [orElse_of_none hp]

end Parser

/-! ## Failures -/

theorem Rejects.bind (h : Rejects p ts) (f : α → Parser β) : Rejects (p >>= f) ts :=
  fun i => Parser.result_bind_of_none (h i) f

theorem Rejects.tokenWhere {wanted : Token → Bool} {x : Expectation}
    (h : ∀ t ∈ ts.head?, wanted t = false) : Rejects (Parser.tokenWhere wanted x) ts := by
  intro i
  rcases Parser.tokenWhere_cases wanted x ⟨i, ts⟩ with ⟨j, t, us, hc, ht, -⟩ | ⟨-, hrun⟩
  · cases hc
    rw [h t rfl] at ht
    cases ht
  · rw [hrun]

theorem Takes.bind_rejects {f : α → Parser β} (h : Takes p ts a rest) (hf : Rejects (f a) rest) :
    Rejects (p >>= f) (ts ++ rest) := by
  intro i
  rw [Parser.result_bind_of_some (h i)]
  exact hf _

/-! ## Successes -/

namespace Takes

theorem pure : Takes (pure a) [] a rest := fun _ => rfl

theorem pure_of_eq {b : α} (h : b = a) : Takes (Pure.pure b) [] a rest := by
  rw [h]
  exact pure

theorem bind {f : α → Parser β} {b : β} (h : Takes p ts a (us ++ rest))
    (hf : Takes (f a) us b rest) : Takes (p >>= f) (ts ++ us) b rest := by
  intro i
  have hp := h i
  rw [← List.append_assoc] at hp
  rw [Parser.result_bind_of_some hp, hf, List.length_append, Nat.add_assoc]

theorem bind_pure (h : Takes p ts a rest) (f : α → β) :
    Takes (p >>= fun a => Pure.pure (f a)) ts (f a) rest := by
  intro i
  rw [Parser.result_bind_of_some (h i)]
  rfl

theorem tokenWhere {wanted : Token → Bool} {x : Expectation} {t : Token} (h : wanted t = true) :
    Takes (Parser.tokenWhere wanted x) [t] t rest := by
  intro i
  rcases Parser.tokenWhere_cases wanted x ⟨i, t :: rest⟩ with ⟨j, u, us, hc, -, hrun⟩ | ⟨hneg, -⟩
  · cases hc
    exact congrArg Attempt.result hrun
  · rw [hneg t rfl] at h
    cases h

theorem token {kind : Token.Kind} {t : Token} (h : t.kind = kind) :
    Takes (Parser.token kind) [t] t rest := tokenWhere (beq_iff_eq.2 h)

theorem orElse_left (h : Takes p ts a rest) : Takes (Parser.orElse p q) ts a rest :=
  fun i => Parser.result_orElse_of_some (h i)

theorem orElse_right (hp : Rejects p (ts ++ rest)) (h : Takes q ts a rest) :
    Takes (Parser.orElse p q) ts a rest := by
  intro i
  rw [Parser.result_orElse_of_none (hp i)]
  exact h i

theorem nextKind {f : Option Token.Kind → Parser α} (kind : Option Token.Kind)
    (hkind : (ts ++ rest).head?.map (·.kind) = kind) (h : Takes (f kind) ts a rest) :
    Takes (Parser.nextKind? >>= f) ts a rest := by
  intro i
  rw [Parser.bind_nextKind]
  unfold Cursor.kind?
  rw [hkind]
  exact h i

theorem secondKind {f : Option Token.Kind → Parser α} (kind : Option Token.Kind)
    (hkind : (ts ++ rest).tail.head?.map (·.kind) = kind) (h : Takes (f kind) ts a rest) :
    Takes (Parser.secondKind? >>= f) ts a rest := by
  intro i
  rw [Parser.bind_secondKind]
  unfold Cursor.secondKind?
  rw [hkind]
  exact h i

/-! ### Repetition -/

theorem many {as : List α} (h : Takes (Parser.upTo p ((ts ++ rest).length + 1)) ts as rest) :
    Takes (Parser.many p) ts as rest := h

theorem manyWhile {starts : Token.Kind → Bool} {as : List α}
    (h : Takes (Parser.upToWhile starts p (ts ++ rest).length) ts as rest) :
    Takes (Parser.manyWhile starts p) ts as rest := h

theorem upTo_nil (h : Rejects p rest) (n : Nat) : Takes (Parser.upTo p n) [] [] rest := by
  cases n with
  | zero => exact pure
  | succ n => exact orElse_right (h.bind _) pure

theorem upTo_cons {as : List α} {n : Nat} (h : Takes p ts a (us ++ rest))
    (hmore : Takes (Parser.upTo p n) us as rest) :
    Takes (Parser.upTo p (n + 1)) (ts ++ us) (a :: as) rest :=
  orElse_left (h.bind (hmore.bind_pure _))

theorem upToWhile_nil {starts : Token.Kind → Bool} (h : ∀ t ∈ rest.head?, starts t.kind = false)
    (n : Nat) : Takes (Parser.upToWhile starts p n) [] [] rest := by
  cases n with
  | zero => exact pure
  | succ n =>
    refine nextKind _ rfl ?_
    rcases rest with _ | ⟨t, rest⟩
    · exact pure
    · have ht : starts t.kind = false := h t rfl
      simp only [List.nil_append, List.head?_cons, Option.map_some, ht]
      exact pure

theorem upToWhile_cons {starts : Token.Kind → Bool} {t : Token} {as : List α} {n : Nat}
    (ht : starts t.kind = true) (h : Takes p (t :: ts) a (us ++ rest))
    (hmore : Takes (Parser.upToWhile starts p n) us as rest) :
    Takes (Parser.upToWhile starts p (n + 1)) (t :: (ts ++ us)) (a :: as) rest := by
  refine nextKind (some t.kind) rfl ?_
  simp only [ht, if_true]
  exact h.bind (hmore.bind_pure _)

end Takes

end RangeScript.Parse
