import RangeScript.Proofs.Layout

/-!
# Where tokens stand in a text

* `Position.counted before` : the position behind the characters `before` of a text, counted from them: the
  line by the line feeds among them, the column by the characters since the last one;
* `Cut after before cs ts` : the stretch `cs` of the text `before ++ cs ++ after` is the texts of the tokens
  `ts` in order, with blanks before, between and after them. Each token has its counted position and is what
  the rules take off the front of all that follows, `after` included.

A text that is scanned is cut into its tokens, and where scanning fails, the text before the character at
fault is cut into the tokens that it has by itself (`scan_lossless`). No two places of a text have the same
position (`Position.eq_of_after_eq`).
-/

namespace RangeScript

namespace Position

/-- The position behind the characters `before` of a text. -/
def counted (before : List Char) : Position :=
  ⟨1 + before.count '\n', 1 + (before.reverse.takeWhile (· != '\n')).length⟩

theorem counted_eq_after (before : List Char) : counted before = start.after before := by
  rw [← behind_start]
  simp [counted, behind, start]

theorem line_after (p : Position) (cs : List Char) : (p.after cs).line = p.line + cs.count '\n' := by
  induction cs generalizing p with
  | nil => rfl
  | cons c cs ih =>
    rw [after_cons, ih, List.count_cons]
    by_cases hc : c = '\n'
    · rw [next, if_pos hc, if_pos (beq_iff_eq.2 hc)]
      show p.line + 1 + cs.count '\n' = p.line + (cs.count '\n' + 1)
      omega
    · rw [next, if_neg hc, if_neg (mt beq_iff_eq.1 hc)]
      rfl

/-- Without line feeds only the column moves. -/
theorem column_after (p : Position) {cs : List Char} (h : '\n' ∉ cs) :
    (p.after cs).column = p.column + cs.length := by
  induction cs generalizing p with
  | nil => rfl
  | cons c cs ih =>
    rw [List.mem_cons, not_or] at h
    rw [after_cons, ih _ h.2, next, if_neg (Ne.symm h.1), List.length_cons]
    show p.column + 1 + cs.length = p.column + (cs.length + 1)
    omega

/-- Every character moves the position on. -/
theorem eq_nil_of_after_eq {p : Position} {cs : List Char} (h : p.after cs = p) : cs = [] := by
  have hline := line_after p cs
  rw [h] at hline
  have hfeed : '\n' ∉ cs := List.count_eq_zero.1 (by omega)
  have hcolumn := column_after p hfeed
  rw [h] at hcolumn
  exact List.length_eq_zero_iff.1 (by omega)

/-- Two places of one text that have the same position are the same place. -/
theorem eq_of_after_eq {u u' rest rest' : List Char} (htext : u ++ rest = u' ++ rest')
    (hpos : start.after u = start.after u') : u = u' := by
  rcases List.append_eq_append_iff.1 htext with ⟨w, rfl, -⟩ | ⟨w, rfl, -⟩
  · rw [after_append] at hpos
    rw [eq_nil_of_after_eq hpos.symm, List.append_nil]
  · rw [after_append] at hpos
    rw [eq_nil_of_after_eq hpos, List.append_nil]

end Position

namespace Token

/-! ## Cutting a stretch of a text -/

/-- The stretch of a text between `before` and `after` is the texts of the tokens in order, each at its
position and as the rules take it there, with blanks around them. -/
inductive Cut (after : List Char) : List Char → List Char → List Token → Prop
  | nil {before w : List Char} : Blank w → Cut after before w []
  | cons {before w rest : List Char} {t : Token} {ts : List Token} :
    Blank w → t.text ≠ "" → t.pos = .counted (before ++ w) →
    firstPiece? Rule.all (t.text.toList ++ rest ++ after) = some ⟨some t.kind, t.text.toList⟩ →
    Cut after (before ++ w ++ t.text.toList) rest ts →
    Cut after before (w ++ t.text.toList ++ rest) (t :: ts)

namespace Cut

variable {after before v cs : List Char} {ts : List Token}

theorem blanks (hv : Blank v) (h : Cut after (before ++ v) cs ts) : Cut after before (v ++ cs) ts := by
  cases h with
  | nil hw => exact nil (hv.append hw)
  | @cons _ w rest t ts hw hne hpos hpiece hrest =>
    rw [List.append_assoc before] at hpos hrest
    have hcut := cons (hv.append hw) hne hpos hpiece hrest
    simpa only [List.append_assoc] using hcut

/-- A text of some kind that stands in front and ends there. -/
theorem token {k : Kind} {pos : Position} {chars rest : List Char}
    (hpos : pos = Position.start.after before) (htext : IsText k chars)
    (hend : EndsBefore k (rest ++ after)) (h : Cut after (before ++ chars) rest ts) :
    Cut after before (chars ++ rest) (⟨k, String.ofList chars, pos⟩ :: ts) := by
  have hchars : (String.ofList chars).toList = chars := String.toList_ofList
  have hcut : Cut after before ([] ++ (String.ofList chars).toList ++ rest)
      (⟨k, String.ofList chars, pos⟩ :: ts) := by
    refine .cons (t := ⟨k, String.ofList chars, pos⟩) blank_nil ?_ ?_ ?_ ?_
    · intro hempty
      have hnil : (String.ofList chars).toList = [] := congrArg String.toList hempty
      exact isText_ne_nil htext (hchars.symm.trans hnil)
    · show pos = _
      rw [List.append_nil, Position.counted_eq_after, hpos]
    · show firstPiece? Rule.all ((String.ofList chars).toList ++ rest ++ after) =
        some ⟨some k, (String.ofList chars).toList⟩
      rw [hchars, List.append_assoc]
      exact firstPiece?_of_isText htext hend
    · show Cut after (before ++ [] ++ (String.ofList chars).toList) rest ts
      rwa [hchars, List.append_nil]
  rwa [hchars] at hcut

/-- A stretch that is cut into tokens is laid out as these tokens by itself: what follows it ends them no
sooner than its own end does. -/
theorem laid (h : Cut after before cs ts) :
    Laid (Position.start.after before) cs ⟨ts, Position.start.after (before ++ cs)⟩ := by
  induction h with
  | @nil before w hw =>
    rw [Position.after_append]
    exact .nil hw
  | @cons before w rest t ts hw _ hpos hpiece _ ih =>
    obtain ⟨k, text, pos⟩ := t
    dsimp only at hpos hpiece ih ⊢
    rw [List.append_assoc] at hpiece
    obtain ⟨rest', hsplit, htext, hend⟩ := isText_of_firstPiece? hpiece
    obtain rfl : rest ++ after = rest' := List.append_cancel_left hsplit
    have hshort : EndsBefore k rest := by
      intro c hc
      apply hend c
      rw [Option.mem_def] at hc ⊢
      rw [List.head?_append, hc]
      rfl
    have hrest : Laid (((Position.start.after before).after w).after text.toList) rest
        ⟨ts, Position.start.after (before ++ (w ++ (text.toList ++ rest)))⟩ := by
      simpa only [Position.after_append] using ih
    have hlaid := Laid.cons hw htext hshort hrest
    rw [Position.counted_eq_after] at hpos
    rw [String.ofList_toList, ← Position.after_append, ← hpos] at hlaid
    rw [List.append_assoc w]
    exact hlaid

end Cut

/-- What is laid out in a text is cut there. -/
theorem Laid.cut {pos : Position} {cs : List Char} {s : Stream} (h : Laid pos cs s) {before : List Char}
    (hpos : pos = Position.start.after before) :
    Cut [] before cs s.tokens ∧ s.stop = Position.start.after (before ++ cs) := by
  induction h generalizing before with
  | @nil pos w hw =>
    rw [hpos, ← Position.after_append]
    exact ⟨.nil hw, rfl⟩
  | @cons pos k w chars rest s hw htext hend _ ih =>
    have hplace : pos.after w = Position.start.after (before ++ w) := by
      rw [Position.after_append, hpos]
    have hbehind : (pos.after w).after chars = Position.start.after (before ++ w ++ chars) := by
      rw [Position.after_append, hplace]
    obtain ⟨hcut, hstop⟩ := ih hbehind
    have htoken : Cut [] (before ++ w) (chars ++ rest)
        (⟨k, String.ofList chars, pos.after w⟩ :: s.tokens) :=
      .token hplace htext (by rwa [List.append_nil]) hcut
    refine ⟨.blanks hw htoken, ?_⟩
    rw [hstop]
    simp only [List.append_assoc]

theorem cut_of_scan {source : String} {s : Stream} (h : scan source = .ok s) :
    Cut [] [] source.toList s.tokens ∧ s.stop = .counted source.toList := by
  rw [Position.counted_eq_after]
  exact (scan_eq_ok_iff.1 h).cut rfl

/-! ## Failing -/

theorem taken_eq_nil_of_firstPiece? {rules : List Rule} {cs : List Char}
    (h : firstPiece? rules cs = none) : ∀ r ∈ rules, r.pattern.taken cs = [] := by
  intro r hr
  have hnone := List.findSome?_eq_none_iff.1 h r hr
  split at hnone
  · assumption
  · cases hnone

/-- Where scanning fails no rule applies, and what stands before is cut into tokens. By induction on the steps,
one piece for each. -/
theorem cut_of_scanFrom_error {n : Nat} {before cs : List Char} {e : ScanError} (hn : cs.length ≤ n)
    (h : scanFrom n (Position.start.after before) cs = .error e) :
    ∃ front rest ts, cs = front ++ e.char :: rest ∧ e.pos = Position.start.after (before ++ front) ∧
      firstPiece? Rule.all (e.char :: rest) = none ∧ Cut (e.char :: rest) before front ts := by
  induction n generalizing before cs with
  | zero =>
    rw [List.length_eq_zero_iff.1 (Nat.le_zero.1 hn), scanFrom_nil] at h
    cases h
  | succ n ih =>
    cases hpiece : firstPiece? Rule.all cs with
    | none =>
      cases cs with
      | nil =>
        rw [scanFrom_nil] at h
        cases h
      | cons c cs =>
        rw [scanFrom, hpiece] at h
        cases h
        refine ⟨[], cs, [], rfl, ?_, hpiece, .nil blank_nil⟩
        rw [List.append_nil]
    | some piece =>
      obtain ⟨kind, chars⟩ := piece
      obtain ⟨tail, rfl, hne⟩ := exists_rest_of_firstPiece? hpiece
      have hpos := List.length_pos_iff.2 hne
      rw [List.length_append] at hn
      rw [scanFrom_of_piece hpiece hne, ← Position.after_append] at h
      rcases hscan : scanFrom n (Position.start.after (before ++ chars)) tail with e' | s
      · rw [hscan] at h
        cases h
        obtain ⟨front, rest, ts, rfl, hat, hnone, hcut⟩ := ih (by omega) hscan
        rw [List.append_assoc] at hat
        cases kind with
        | none =>
          obtain ⟨-, -, -, hblank⟩ := isBlank_of_firstPiece? hpiece
          exact ⟨chars ++ front, rest, ts, by rw [List.append_assoc], hat, hnone, .blanks hblank hcut⟩
        | some k =>
          obtain ⟨tail', hsplit, htext, hend⟩ := isText_of_firstPiece? hpiece
          rw [← List.append_cancel_left hsplit] at hend
          exact ⟨chars ++ front, rest, _, by rw [List.append_assoc], hat, hnone, .token rfl htext hend hcut⟩
      · rw [hscan] at h
        cases h

/-- A text that is scanned is cut into its tokens and ends where scanning stops. Where scanning fails at a
character, no rule applies there; the text before that character is cut into tokens in front of what follows,
and it is scanned into the same tokens by itself. -/
theorem scan_lossless (source : String) :
    (∀ s, scan source = .ok s →
      Cut [] [] source.toList s.tokens ∧ s.stop = .counted source.toList) ∧
    ∀ e, scan source = .error e → ∃ before rest ts,
      source.toList = before ++ e.char :: rest ∧ e.pos = .counted before ∧
      (∀ r ∈ Rule.all, r.pattern.taken (e.char :: rest) = []) ∧
      Cut (e.char :: rest) [] before ts ∧ scan (String.ofList before) = .ok ⟨ts, e.pos⟩ := by
  refine ⟨fun s => cut_of_scan, ?_⟩
  intro e h
  have hscan : scanFrom source.toList.length (Position.start.after []) source.toList = .error e := h
  obtain ⟨before, rest, ts, hsource, hpos, hnone, hcut⟩ := cut_of_scanFrom_error (Nat.le_refl _) hscan
  rw [List.nil_append] at hpos
  refine ⟨before, rest, ts, hsource, ?_, taken_eq_nil_of_firstPiece? hnone, hcut, ?_⟩
  · rw [Position.counted_eq_after, hpos]
  · rw [scan_eq_ok_iff, String.toList_ofList, hpos]
    exact hcut.laid

/-- A string that goes over a line feed, and a letter at which no token starts. -/
theorem scan_lossless_over_lines :
    let s : Stream := ⟨[⟨.print, "print", ⟨1, 1⟩⟩, ⟨.string, "\"a\nλ\"", ⟨1, 7⟩⟩], ⟨2, 4⟩⟩
    let e : ScanError := ⟨'é', ⟨2, 4⟩⟩
    (scan "print \"a\nλ\" " = .ok s ∧ Cut [] [] "print \"a\nλ\" ".toList s.tokens ∧
      s.stop = .counted "print \"a\nλ\" ".toList) ∧
    scan "print \"a\nλ\" é1" = .error e ∧ ∃ before rest ts,
      "print \"a\nλ\" é1".toList = before ++ e.char :: rest ∧ e.pos = .counted before ∧
      (∀ r ∈ Rule.all, r.pattern.taken (e.char :: rest) = []) ∧
      Cut (e.char :: rest) [] before ts ∧ scan (String.ofList before) = .ok ⟨ts, e.pos⟩ := by
  intro s e
  have hscan : scan "print \"a\nλ\" " = .ok s := by decide +kernel
  have hfails : scan "print \"a\nλ\" é1" = .error e := by decide +kernel
  exact ⟨⟨hscan, (scan_lossless _).1 s hscan⟩, hfails, (scan_lossless _).2 e hfails⟩

end Token

end RangeScript
