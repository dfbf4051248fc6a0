import RangeScript.Proofs.Equality
import RangeScript.Proofs.Locality

/-!
# A parse error points at the first offending token

The tokens before the one that the error tells can be continued to a program, and with that token
they cannot (`parseError_first_offending`). The first is because every note was made where something
could have gone on (`reads_program`), the second because nothing after the furthest note was looked
at (`local_program`). The end of the input counts as a last token (`withEnd`).
-/

namespace RangeScript.Parse

open RangeScript.Grammar

/-- The tokens and the end of the input after them. -/
def withEnd (ts : List Token) : List (Option Token) := ts.map some ++ [none]

theorem getElem?_withEnd (ts : List Token) {k : Nat} (hk : k ≤ ts.length) :
    (withEnd ts)[k]? = some ts[k]? := by
  induction ts generalizing k with
  | nil =>
    obtain rfl : k = 0 := by simpa using hk
    rfl
  | cons t ts ih =>
    cases k with
    | zero => rfl
    | succ k => exact ih (by simpa using hk)

theorem take_eq_of_take_withEnd {ts us : List Token} {k : Nat}
    (h : (withEnd ts).take k = (withEnd us).take k) : ts.take k = us.take k := by
  induction k generalizing ts us with
  | zero => rfl
  | succ k ih =>
    cases ts with
    | nil =>
      cases us with
      | nil => rfl
      | cons u us => injection h with h; cases h
    | cons t ts =>
      cases us with
      | nil => injection h with h; cases h
      | cons u us =>
        injection h with ht hts
        cases ht
        rw [List.take_succ_cons, List.take_succ_cons, ih hts]

/-- The tokens are those of a program. -/
def Accepts (prec : Precedence) (ts : List Token) : Prop :=
  ∃ stop p, program prec ⟨ts, stop⟩ = .ok p

theorem accepts_of_isProgram {prec : Precedence} {ts : List Token} {p : Program}
    (h : IsProgram prec ts p) : Accepts prec ts :=
  ⟨.start, p, program_of_isProgram (s := ⟨ts, .start⟩) h⟩

theorem exists_accepts_of_viable {prec : Precedence} {u : List Token}
    (h : Viable (IsProgram prec) u) : ∃ v, Accepts prec (u ++ v) := by
  obtain ⟨v, p, hp⟩ := h
  exact ⟨v, accepts_of_isProgram hp⟩

theorem run_eq_error {α : Type} {p : Parser α} {s : Token.Stream} {e : ParseError}
    (h : run p s = .error e) :
    (p ⟨0, s.tokens⟩).result = none ∧ e = (p ⟨0, s.tokens⟩).notes.error s := by
  unfold run at h
  rcases hp : p ⟨0, s.tokens⟩ with ⟨_ | ⟨a, d⟩, n⟩
  · simp only [hp] at h
    exact ⟨rfl, by injection h with h; exact h.symm⟩
  · simp [hp] at h

theorem Notes.error_expected {n : Notes} (h : n.expected ≠ []) (s : Token.Stream) :
    (n.error s).expected = n.expected := by
  unfold Notes.error
  rw [if_neg]
  rwa [List.isEmpty_iff]

/-- What the notes of a failure tell: each expectation was made after the same viable tokens. -/
theorem fits_of_program_eq_error {prec : Precedence} {s : Token.Stream} {e : ParseError}
    (h : program prec s = .error e) :
    e.expected ≠ [] ∧ ∀ x ∈ e.expected, e.index ≤ s.tokens.length ∧
      Fits prec (IsProgram prec) (s.tokens.take e.index) x := by
  obtain ⟨hnone, rfl⟩ := run_eq_error h
  have hnoted := (reads_program prec).noted hnone
  rw [Notes.error_expected hnoted]
  refine ⟨hnoted, fun x hx => ?_⟩
  obtain ⟨u, d, hpass, hindex, hfit⟩ := (reads_program prec).fits hx
  have htokens : s.tokens = u ++ d.rest := hpass.1
  have hlength : d.index = u.length := by simpa using hpass.2
  change Notes.index _ ≤ _ ∧ Fits prec _ (s.tokens.take (Notes.index _)) x
  rw [hindex, hlength, htokens, List.take_left]
  exact ⟨by simp, hfit⟩

/-- No program has the same tokens up to the one that the error tells. -/
theorem not_accepts_of_agree {prec : Precedence} {s : Token.Stream} {e : ParseError}
    (h : program prec s = .error e) {ts : List Token}
    (hts : s.tokens.take (e.index + 1) = ts.take (e.index + 1)) : ¬ Accepts prec ts := by
  rintro ⟨stop, p, hp⟩
  obtain ⟨hnone, rfl⟩ := run_eq_error h
  obtain ⟨d, hd⟩ := run_eq_ok_iff.1 hp
  have hwithin : (Parser.manyWhile (fun _ => true) (statement prec) ⟨0, s.tokens⟩).Within
      (Parser.manyWhile (fun _ => true) (statement prec) ⟨0, s.tokens⟩).notes.index := by
    refine ⟨Nat.le_refl _, fun a d had => ?_⟩
    rw [hnone] at had
    cases had
  have hsame := (local_program prec ⟨0, s.tokens⟩).same (d := ⟨0, ts⟩) ⟨rfl, hts⟩ hwithin
  rcases hsame.2 with ⟨-, hnone'⟩ | ⟨a, d', e', hsome, -, -⟩
  · rw [hnone'] at hd
    cases hd
  · rw [hnone] at hsome
    cases hsome

theorem isOperator_plus : IsOperator .standard ⟨.plus, "+", .start⟩ := by
  unfold IsOperator
  decide

/-- The error of a rejected stream carries the token at its index, or the end of the input. The
tokens before can be continued to a program, with that token they cannot; and something is expected
in its place, which with the standard precedence can be put there, nesting apart. -/
theorem parseError_first_offending (prec : Precedence) (s : Token.Stream) (e : ParseError)
    (h : program prec s = .error e) :
    ((withEnd s.tokens)[e.index]? = some e.found ∧ e.pos = (e.found.map (·.pos)).getD s.stop) ∧
    (∃ v, Accepts prec (s.tokens.take e.index ++ v)) ∧
    (∀ ts, (withEnd s.tokens).take (e.index + 1) <+: withEnd ts → ¬ Accepts prec ts) ∧
    (prec = .standard → e.expected ≠ [] ∧ ∀ x ∈ e.expected, x ≠ .shallowerNesting →
      ∃ w, Names prec x w ∧ ∃ v, Accepts prec (s.tokens.take e.index ++ w ++ v)) := by
  obtain ⟨hne, hfits⟩ := fits_of_program_eq_error h
  obtain ⟨x, hx⟩ := List.exists_mem_of_ne_nil _ hne
  obtain ⟨hindex, hfit⟩ := hfits x hx
  refine ⟨?_, exists_accepts_of_viable hfit.1, fun ts hts => ?_, ?_⟩
  · obtain ⟨-, rfl⟩ := run_eq_error h
    exact ⟨getElem?_withEnd _ hindex, rfl⟩
  · apply not_accepts_of_agree h
    apply take_eq_of_take_withEnd
    have htake := List.prefix_iff_eq_take.1 hts
    have hlength : ((withEnd s.tokens).take (e.index + 1)).length = e.index + 1 := by
      simp only [withEnd, List.length_take, List.length_append, List.length_map, List.length_singleton]
      omega
    rwa [hlength] at htake
  · rintro rfl
    refine ⟨hne, fun x hx hnesting => ?_⟩
    rcases (hfits x hx).2.2 with hx' | ⟨-, hnone⟩ | ⟨w, hw, hviable⟩
    · exact absurd hx' hnesting
    · exact absurd isOperator_plus (hnone _)
    · exact ⟨w, hw, exists_accepts_of_viable hviable⟩

/-- In `out f(x y 2)` the number is at fault: `x y` may be the parameters of a lambda, and the
attempts to read `f` as a name and `x` as an argument both ended before. -/
theorem parseError_first_offending_in_call :
    let tokens : List Token := [⟨.out, "out", ⟨1, 1⟩⟩, ⟨.name, "f", ⟨1, 5⟩⟩, ⟨.leftParen, "(", ⟨1, 6⟩⟩,
      ⟨.name, "x", ⟨1, 7⟩⟩, ⟨.name, "y", ⟨1, 9⟩⟩, ⟨.int, "2", ⟨1, 11⟩⟩, ⟨.rightParen, ")", ⟨1, 12⟩⟩]
    program .standard ⟨tokens, ⟨1, 13⟩⟩ =
      .error ⟨5, some ⟨.int, "2", ⟨1, 11⟩⟩, ⟨1, 11⟩, [.token .arrow]⟩ ∧
    (∃ v, Accepts .standard (tokens.take 5 ++ v)) ∧
    (∀ ts, (withEnd tokens).take 6 <+: withEnd ts → ¬ Accepts .standard ts) ∧
    ∃ w, Names .standard (.token .arrow) w ∧ ∃ v, Accepts .standard (tokens.take 5 ++ w ++ v) := by
  intro tokens
  have hprogram : program .standard ⟨tokens, ⟨1, 13⟩⟩ =
      .error ⟨5, some ⟨.int, "2", ⟨1, 11⟩⟩, ⟨1, 11⟩, [.token .arrow]⟩ := by decide +kernel
  obtain ⟨-, hbefore, hwith, hexpected⟩ := parseError_first_offending _ _ _ hprogram
  exact ⟨hprogram, hbefore, hwith, (hexpected rfl).2 _ (List.mem_singleton.2 rfl) (by decide)⟩

end RangeScript.Parse
