import RangeScript.Proofs.Relocation
import RangeScript.Proofs.TokenTexts

/-!
# A text as tokens and the blanks between them

* `Blank cs` : there are only blanks in `cs`;
* `Laid pos cs s` : the characters `cs`, which start at `pos`, are the texts of the tokens of `s` in order,
  each at its position, with blanks before, between and after them, and each token ends where the next
  character cannot go on with it;
* `Spells cs ts` : the same wherever the characters start, and up to the positions of the tokens.

A text is scanned into a stream exactly if it is laid out as that stream (`scan_eq_ok_iff`).
-/

namespace RangeScript.Token

open RangeScript.Charset

/-- There are only blanks. -/
def Blank (cs : List Char) : Prop := ∀ c ∈ cs, isBlank c = true

instance (cs : List Char) : Decidable (Blank cs) :=
  decidable_of_iff (cs.all isBlank = true) List.all_eq_true

theorem Blank.append {v w : List Char} (hv : Blank v) (hw : Blank w) : Blank (v ++ w) :=
  List.forall_mem_append.2 ⟨hv, hw⟩

theorem blank_nil : Blank [] := fun c hc => by cases hc

/-- A token of any kind ends before blanks. -/
theorem Blank.endsBefore {w : List Char} (hw : Blank w) (hne : w ≠ []) (k : Kind) (rest : List Char) :
    EndsBefore k (w ++ rest) := by
  obtain ⟨c, w, rfl⟩ := List.exists_cons_of_ne_nil hne
  intro d hd
  cases hd
  exact endsBefore_of_isBlank k (hw c List.mem_cons_self)

/-- No text of a token starts with a blank. -/
theorem isBlank_of_isText {k : Kind} {c : Char} {cs : List Char} (h : IsText k (c :: cs)) :
    isBlank c = false := by
  cases hblank : isBlank c with
  | false => rfl
  | true =>
    have hend : EndsBefore k [] := fun d hd => by cases hd
    have htoken := firstPiece?_of_isText h hend
    rw [List.append_nil, firstPiece?_blanks hblank] at htoken
    cases htoken

/-! ## Layouts -/

/-- The characters are the texts of the stream's tokens in order, each at its position, with blanks
around them. -/
inductive Laid : Position → List Char → Stream → Prop
  | nil {pos : Position} {w : List Char} : Blank w → Laid pos w ⟨[], pos.after w⟩
  | cons {pos : Position} {k : Kind} {w chars rest : List Char} {s : Stream} :
    Blank w → IsText k chars → EndsBefore k rest → Laid ((pos.after w).after chars) rest s →
    Laid pos (w ++ (chars ++ rest)) ⟨⟨k, String.ofList chars, pos.after w⟩ :: s.tokens, s.stop⟩

namespace Laid

variable {pos : Position} {k : Kind} {v w chars cs ds rest : List Char} {s t : Stream}

/-- Blanks in front only move what comes after them. -/
theorem blanks (hv : Blank v) (h : Laid (pos.after v) cs s) : Laid pos (v ++ cs) s := by
  cases h with
  | nil hw =>
    rw [← Position.after_append]
    exact nil (hv.append hw)
  | @cons _ k w chars rest s hw htext hend hrest =>
    rw [← Position.after_append pos v] at hrest ⊢
    rw [← List.append_assoc]
    exact cons (hv.append hw) htext hend hrest

theorem token (htext : IsText k chars) (hend : EndsBefore k rest) (h : Laid (pos.after chars) rest s) :
    Laid pos (chars ++ rest) ⟨⟨k, String.ofList chars, pos⟩ :: s.tokens, s.stop⟩ :=
  cons blank_nil htext hend h

theorem isText (h : Laid pos cs s) : ∀ t ∈ s.tokens, IsText t.kind t.text.toList := by
  induction h with
  | nil _ => simp
  | cons _ htext _ _ ih =>
    refine List.forall_mem_cons.2 ⟨?_, ih⟩
    rw [String.toList_ofList]
    exact htext

/-- Two texts with blanks between them: each keeps its tokens. -/
theorem append (h : Laid pos cs s) (hw : Blank w) (hne : w ≠ [])
    (ht : Laid (pos.after (cs ++ w)) ds t) :
    Laid pos (cs ++ (w ++ ds)) ⟨s.tokens ++ t.tokens, t.stop⟩ := by
  induction h with
  | nil hv =>
    rw [← List.append_assoc]
    exact blanks (hv.append hw) ht
  | @cons pos k v chars rest s hv htext hend _ ih =>
    rw [List.append_assoc, List.append_assoc]
    refine cons hv htext ?_ (ih ?_)
    · cases rest with
      | nil => exact hw.endsBefore hne k ds
      | cons c rest => exact hend
    · simpa only [Position.after_append] using ht

end Laid

/-! ## Scanning -/

theorem Stream.precede_none (chars : List Char) (pos : Position) :
    Stream.precede ⟨none, chars⟩ pos = id := rfl

/-- Every piece is some characters off the front. -/
theorem exists_rest_of_firstPiece? {cs : List Char} {piece : Piece}
    (h : firstPiece? Rule.all cs = some piece) :
    ∃ rest, cs = piece.chars ++ rest ∧ piece.chars ≠ [] := by
  obtain ⟨_ | k, chars⟩ := piece
  · obtain ⟨rest, hsplit, hne, -⟩ := isBlank_of_firstPiece? h
    exact ⟨rest, hsplit, hne⟩
  · obtain ⟨rest, hsplit, htext, -⟩ := isText_of_firstPiece? h
    exact ⟨rest, hsplit, isText_ne_nil htext⟩

section Scanning
variable {pos : Position} {n m : Nat} {cs w chars rest : List Char} {s : Stream}

theorem scanFrom_nil (n : Nat) (pos : Position) : scanFrom n pos [] = .ok ⟨[], pos⟩ := by
  cases n <;> rfl

theorem scanFrom_of_piece {kind : Option Kind}
    (h : firstPiece? Rule.all (chars ++ rest) = some ⟨kind, chars⟩) (hne : chars ≠ []) (n : Nat)
    (pos : Position) :
    scanFrom (n + 1) pos (chars ++ rest) =
      (scanFrom n (pos.after chars) rest).map (Stream.precede ⟨kind, chars⟩ pos) := by
  have hdrop : (chars ++ rest).drop chars.length = rest := List.drop_left
  obtain ⟨c, cs, rfl⟩ := List.exists_cons_of_ne_nil hne
  rw [List.cons_append] at h hdrop ⊢
  rw [scanFrom, h]
  simp only [hdrop]

/-- More steps than there are characters change nothing. -/
theorem scanFrom_fuel (hn : cs.length ≤ n) (hm : cs.length ≤ m) :
    scanFrom n pos cs = scanFrom m pos cs := by
  induction n generalizing m pos cs with
  | zero =>
    have hcs : cs = [] := List.length_eq_zero_iff.1 (Nat.le_zero.1 hn)
    rw [hcs, scanFrom_nil, scanFrom_nil]
  | succ n ih =>
    cases hcs : cs with
    | nil => rw [scanFrom_nil, scanFrom_nil]
    | cons c cs' =>
      obtain ⟨m, rfl⟩ : ∃ m', m = m' + 1 := ⟨m - 1, by rw [hcs, List.length_cons] at hm; omega⟩
      rw [← hcs]
      cases hpiece : firstPiece? Rule.all cs with
      | none =>
        rw [hcs] at hpiece ⊢
        rw [scanFrom, scanFrom, hpiece]
      | some piece =>
        obtain ⟨kind, chars⟩ := piece
        obtain ⟨rest, rfl, hne⟩ := exists_rest_of_firstPiece? hpiece
        have hpos := List.length_pos_iff.2 hne
        rw [List.length_append] at hn hm
        have hrest : scanFrom n (pos.after chars) rest = scanFrom m (pos.after chars) rest :=
          ih (by omega) (by omega)
        rw [scanFrom_of_piece hpiece hne, scanFrom_of_piece hpiece hne, hrest]

theorem scanFrom_token {k : Kind} (htext : IsText k chars) (hend : EndsBefore k rest)
    (hn : (chars ++ rest).length ≤ n) (hm : rest.length ≤ m) :
    scanFrom n pos (chars ++ rest) =
      (scanFrom m (pos.after chars) rest).map (Stream.precede ⟨some k, chars⟩ pos) := by
  have hne := isText_ne_nil htext
  have hpos := List.length_pos_iff.2 hne
  rw [List.length_append] at hn
  obtain ⟨n, rfl⟩ : ∃ n', n = n' + 1 := ⟨n - 1, by omega⟩
  have hpiece := firstPiece?_of_isText htext hend
  have hrest : rest.length ≤ n := by omega
  rw [scanFrom_of_piece hpiece hne, scanFrom_fuel hrest hm]

/-- Blanks before something else are skipped. -/
theorem scanFrom_blanks (hw : Blank w) (hrest : ∀ c ∈ rest.head?, isBlank c = false)
    (hn : (w ++ rest).length ≤ n) (hm : rest.length ≤ m) :
    scanFrom n pos (w ++ rest) = scanFrom m (pos.after w) rest := by
  cases w with
  | nil => exact scanFrom_fuel hn hm
  | cons c w =>
    obtain ⟨hc, hw⟩ := List.forall_mem_cons.1 hw
    have hpiece : firstPiece? Rule.all (c :: w ++ rest) = some ⟨none, c :: w⟩ := by
      rw [List.cons_append, firstPiece?_blanks hc, takeWhile_of_run hw hrest]
    rw [List.length_append, List.length_cons] at hn
    obtain ⟨n, rfl⟩ : ∃ n', n = n' + 1 := ⟨n - 1, by omega⟩
    have hlength : rest.length ≤ n := by omega
    rw [scanFrom_of_piece hpiece (List.cons_ne_nil c w), Stream.precede_none, scanFrom_fuel hlength hm]
    cases scanFrom m (pos.after (c :: w)) rest <;> rfl

theorem Laid.scanFrom (h : Laid pos cs s) (hn : cs.length ≤ n) : Token.scanFrom n pos cs = .ok s := by
  induction h generalizing n with
  | @nil pos w hw =>
    have hrest : ∀ c ∈ ([] : List Char).head?, isBlank c = false := fun c hc => by cases hc
    rw [← List.append_nil w] at hn ⊢
    rw [scanFrom_blanks hw hrest hn (Nat.zero_le 0), scanFrom_nil]
    simp only [List.append_nil]
  | @cons pos k w chars rest s hw htext hend _ ih =>
    have hfirst : ∀ c ∈ (chars ++ rest).head?, isBlank c = false := by
      intro c hc
      obtain ⟨d, chars, rfl⟩ := List.exists_cons_of_ne_nil (isText_ne_nil htext)
      cases hc
      exact isBlank_of_isText htext
    rw [scanFrom_blanks hw hfirst hn (Nat.le_refl _), scanFrom_token htext hend (Nat.le_refl _)
      (Nat.le_refl _), ih (Nat.le_refl _)]
    rfl

/-- By induction on the steps, one piece for each. -/
theorem laid_of_scanFrom (hn : cs.length ≤ n) (h : scanFrom n pos cs = .ok s) : Laid pos cs s := by
  induction n generalizing pos cs s with
  | zero =>
    have hcs : cs = [] := List.length_eq_zero_iff.1 (Nat.le_zero.1 hn)
    rw [hcs, scanFrom_nil] at h
    cases h
    rw [hcs]
    exact .nil blank_nil
  | succ n ih =>
    cases hpiece : firstPiece? Rule.all cs with
    | none =>
      cases cs with
      | nil =>
        rw [scanFrom_nil] at h
        cases h
        exact .nil blank_nil
      | cons c cs =>
        rw [scanFrom, hpiece] at h
        cases h
    | some piece =>
      obtain ⟨kind, chars⟩ := piece
      obtain ⟨rest, rfl, hne⟩ := exists_rest_of_firstPiece? hpiece
      have hpos := List.length_pos_iff.2 hne
      rw [scanFrom_of_piece hpiece hne] at h
      rw [List.length_append] at hn
      rcases hscan : scanFrom n (pos.after chars) rest with e | t
      · rw [hscan] at h
        cases h
      · rw [hscan] at h
        cases h
        have hlaid : Laid (pos.after chars) rest t := ih (by omega) hscan
        cases kind with
        | none =>
          obtain ⟨-, -, -, hblank⟩ := isBlank_of_firstPiece? hpiece
          exact .blanks hblank hlaid
        | some k =>
          obtain ⟨rest', hsplit, htext, hend⟩ := isText_of_firstPiece? hpiece
          rw [← List.append_cancel_left hsplit] at hend
          exact .token htext hend hlaid

end Scanning

/-- A text is scanned into the stream as which it is laid out. -/
theorem scan_eq_ok_iff {source : String} {s : Stream} :
    scan source = .ok s ↔ Laid .start source.toList s :=
  ⟨laid_of_scanFrom (Nat.le_refl _), fun h => h.scanFrom (Nat.le_refl _)⟩

/-! ## Up to positions -/

/-- The characters are the texts of the tokens in order with blanks around them, wherever they start. -/
def Spells (cs : List Char) (ts : List Token) : Prop :=
  ∀ pos, ∃ s, Laid pos cs s ∧ s.tokens.map (Token.relocate Position.forget) = ts

namespace Spells

variable {k : Kind} {w chars cs rest : List Char} {ts : List Token}

theorem nil : Spells [] [] := fun _ => ⟨_, .nil blank_nil, rfl⟩

theorem blanks (hw : Blank w) (h : Spells cs ts) : Spells (w ++ cs) ts := by
  intro pos
  obtain ⟨s, hlaid, hts⟩ := h (pos.after w)
  exact ⟨s, .blanks hw hlaid, hts⟩

theorem token (htext : IsText k chars) (hend : EndsBefore k rest) (h : Spells rest ts) :
    Spells (chars ++ rest) (⟨k, String.ofList chars, .start⟩ :: ts) := by
  intro pos
  obtain ⟨s, hlaid, hts⟩ := h (pos.after chars)
  refine ⟨_, .token htext hend hlaid, ?_⟩
  rw [List.map_cons, hts]
  rfl

theorem scan {source : String} (h : Spells source.toList ts) :
    ∃ s, scan source = .ok s ∧ s.tokens.map (Token.relocate Position.forget) = ts := by
  obtain ⟨s, hlaid, hts⟩ := h .start
  exact ⟨s, scan_eq_ok_iff.2 hlaid, hts⟩

end Spells

end RangeScript.Token
