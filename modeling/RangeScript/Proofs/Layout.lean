import Mathlib.Data.List.Induction
import RangeScript.Language
import RangeScript.Proofs.Equality
import RangeScript.Proofs.MovedTokens
import RangeScript.Proofs.Offending
import RangeScript.Proofs.Spacing

/-!
# Layout of source texts

A program may be laid out in any way that keeps its tokens apart.

* Two texts with blanks between them are read as their programs one after the other, where the second is
  moved behind the first text and the blanks (`parse_append`, `Position.behind`).
* The tokens of a text with other blanks between them are the same tokens, and they are read as the same
  program up to positions, or fail at the same token with the same expectations (`layout_irrelevant`).
-/

namespace RangeScript

open RangeScript.Token

/-! ## Positions behind a text -/

namespace Position

/-- Where a place of a text stands once the characters `before` come in front of the text: as many lines
further down as they have line breaks, and on the first line as many columns further right as they have
characters after the last break. -/
def behind (before : List Char) (p : Position) : Position :=
  ⟨p.line + before.count '\n',
    if p.line = 1 then p.column + (before.reverse.takeWhile (· != '\n')).length else p.column⟩

theorem line_next_ne_zero (p : Position) (c : Char) (h : p.line ≠ 0) : (p.next c).line ≠ 0 := by
  unfold next
  split
  · exact Nat.succ_ne_zero _
  · exact h

theorem line_after_ne_zero (cs : List Char) {p : Position} (h : p.line ≠ 0) : (p.after cs).line ≠ 0 := by
  induction cs generalizing p with
  | nil => exact h
  | cons c cs ih => exact ih (line_next_ne_zero p c h)

/-- The end of `before` is where a text behind it starts. -/
theorem behind_start (before : List Char) : start.behind before = start.after before := by
  induction before using List.reverseRecOn with
  | nil => rfl
  | append_singleton before c ih =>
    rw [after_append, ← ih, after_cons, after_nil]
    by_cases hc : c = '\n'
    · simp [behind, next, start, hc, Nat.add_assoc]
    · simp [behind, next, start, hc, Nat.add_assoc]

theorem next_behind (before : List Char) {p : Position} (h : p.line ≠ 0) (c : Char) :
    (p.next c).behind before = (p.behind before).next c := by
  unfold next
  split
  · have hline : p.line + 1 ≠ 1 := by omega
    simp [behind, h, Nat.add_right_comm]
  · unfold behind
    dsimp only
    split
    · simp [Nat.add_right_comm]
    · rfl

theorem after_behind (before cs : List Char) {p : Position} (h : p.line ≠ 0) :
    (p.after cs).behind before = (p.behind before).after cs := by
  induction cs generalizing p with
  | nil => rfl
  | cons c cs ih => rw [after_cons, after_cons, ih (line_next_ne_zero p c h), next_behind before h]

end Position

/-- A text that stands behind another has its tokens there. -/
theorem Token.Laid.behind (before : List Char) {pos : Position} {cs : List Char} {s : Stream}
    (h : Laid pos cs s) (hpos : pos.line ≠ 0) :
    Laid (pos.behind before) cs (s.relocate (Position.behind before)) := by
  induction h with
  | @nil pos w hw =>
    unfold Stream.relocate
    rw [List.map_nil, Position.after_behind before w hpos]
    exact .nil hw
  | @cons pos k w chars rest s hw htext hend _ ih =>
    have hafter := Position.line_after_ne_zero w hpos
    have hrest := ih (Position.line_after_ne_zero chars hafter)
    rw [Position.after_behind before chars hafter, Position.after_behind before w hpos] at hrest
    have hlaid := Laid.cons hw htext hend hrest
    unfold Stream.relocate at hlaid ⊢
    rw [List.map_cons, Token.relocate, Position.after_behind before w hpos]
    exact hlaid

/-! ## Reading -/

namespace Language

variable {lang : Language} {source : String} {s : Stream}

theorem parse_of_scan (h : scan source = .ok s) :
    lang.parse source = (Parse.program lang.precedence s).mapError .parse := by
  unfold parse
  rw [h]
  dsimp only
  rcases Parse.program lang.precedence s with e | p <;> rfl

theorem parse_eq_ok {p : Program} (h : lang.parse source = .ok p) :
    ∃ s, scan source = .ok s ∧ Parse.program lang.precedence s = .ok p := by
  unfold parse at h
  rcases hscan : scan source with e | s
  · rw [hscan] at h
    cases h
  · rw [hscan] at h
    rcases hprogram : Parse.program lang.precedence s with e | q
    · simp [hprogram] at h
    · simp only [hprogram] at h
      cases h
      exact ⟨s, rfl, hprogram⟩

end Language

/-! ## Concatenation -/

theorem Grammar.isProgram_append {prec : Precedence} {ts us : List Token} {p q : Program}
    (hp : IsProgram prec ts p) (hq : IsProgram prec us q) : IsProgram prec (ts ++ us) (p ++ q) := by
  induction hp with
  | nil => exact hq
  | cons hs _ ih =>
    rw [List.append_assoc]
    exact .cons hs ih

/-- A text, blanks and another text are read as the statements of the first and those of the second. The
statements of the second stand where the text in front has moved them. -/
theorem parse_append (lang : Language) {a w b : String} {p q : Program} (ha : lang.parse a = .ok p)
    (hb : lang.parse b = .ok q) (hw : Blank w.toList) (hne : w ≠ "") :
    lang.parse (a ++ w ++ b) = .ok (p ++ Program.relocate (Position.behind (a ++ w).toList) q) := by
  obtain ⟨s, hs, hp⟩ := Language.parse_eq_ok ha
  obtain ⟨t, ht, hq⟩ := Language.parse_eq_ok hb
  have hne' : w.toList ≠ [] := fun h => hne (String.toList_eq_nil_iff.1 h)
  generalize hbefore : (a ++ w).toList = before
  rw [String.toList_append] at hbefore
  have hbehind : Laid (Position.start.after (a.toList ++ w.toList)) b.toList
      (t.relocate (Position.behind before)) := by
    rw [hbefore, ← Position.behind_start]
    exact (scan_eq_ok_iff.1 ht).behind before (by decide)
  have hscan : scan (a ++ w ++ b) = .ok ⟨s.tokens ++ (t.relocate (Position.behind before)).tokens,
      (t.relocate (Position.behind before)).stop⟩ := by
    rw [scan_eq_ok_iff, String.toList_append, String.toList_append, List.append_assoc]
    exact (scan_eq_ok_iff.1 hs).append hw hne' hbehind
  have hmoved : Parse.program lang.precedence (t.relocate (Position.behind before)) =
      .ok (Program.relocate (Position.behind before) q) := by
    rw [Parse.program_relocate, hq]
    rfl
  rw [Language.parse_of_scan hscan, Parse.program_of_isProgram]
  · rfl
  · exact Grammar.isProgram_append (Parse.isProgram_of_program hp) (Parse.isProgram_of_program hmoved)

/-- The second text goes on in the line in which the first one ends, and starts a line of its own. -/
theorem parse_append_within_line :
    let a := "var xs = {1, 3}\nout xs"
    let b := "print \"sum\" out xs\nout -1"
    let p : Program := [.declare ⟨"xs", ⟨1, 5⟩⟩ (.range (.int ⟨"1", ⟨1, 11⟩⟩) (.int ⟨"3", ⟨1, 14⟩⟩)),
      .out (.var ⟨"xs", ⟨2, 5⟩⟩)]
    let q : Program := [.print "sum", .out (.var ⟨"xs", ⟨1, 17⟩⟩), .out (.int ⟨"-1", ⟨2, 6⟩⟩)]
    Language.standard.parse a = .ok p ∧ Language.standard.parse b = .ok q ∧
      Language.standard.parse (a ++ " " ++ b) =
        .ok (p ++ [.print "sum", .out (.var ⟨"xs", ⟨2, 24⟩⟩), .out (.int ⟨"-1", ⟨3, 6⟩⟩)]) := by
  intro a b p q
  have ha : Language.standard.parse a = .ok p := by decide +kernel
  have hb : Language.standard.parse b = .ok q := by decide +kernel
  refine ⟨ha, hb, (parse_append Language.standard ha hb (by decide) (by decide)).trans ?_⟩
  decide +kernel

/-! ## Other blanks -/

/-- The texts of the tokens, each with the text of its own after it. -/
def Token.spaced : List Token → List String → String
  | t :: ts, gap :: gaps => t.text ++ gap ++ spaced ts gaps
  | _, _ => ""

/-- Blanks between neighbours keep tokens apart; the last one may end the text. -/
theorem Token.spells_spaced {ts : List Token} {gaps : List String}
    (hts : ∀ t ∈ ts, IsText t.kind t.text.toList) (hlength : gaps.length = ts.length)
    (hgaps : ∀ gap ∈ gaps, Blank gap.toList) (hbetween : ∀ gap ∈ gaps.dropLast, gap ≠ "") :
    Spells (spaced ts gaps).toList (ts.map (Token.relocate Position.forget)) := by
  induction ts generalizing gaps with
  | nil => exact .nil
  | cons t ts ih =>
    obtain ⟨ht, hts⟩ := List.forall_mem_cons.1 hts
    cases gaps with
    | nil => cases hlength
    | cons gap gaps =>
      obtain ⟨hgap, hgaps⟩ := List.forall_mem_cons.1 hgaps
      have hlength : gaps.length = ts.length := Nat.succ.inj hlength
      have hrest : Spells (spaced ts gaps).toList (ts.map (Token.relocate Position.forget)) := by
        refine ih hts hlength hgaps fun gap' hgap' => hbetween gap' ?_
        cases gaps with
        | nil => cases hgap'
        | cons gap'' gaps => exact List.mem_cons_of_mem _ hgap'
      have hend : EndsBefore t.kind (gap.toList ++ (spaced ts gaps).toList) := by
        by_cases hne : gap = ""
        · -- only the last gap may be empty, and nothing comes after it
          have hlast : gaps = [] := by
            cases gaps with
            | nil => rfl
            | cons gap' gaps => exact absurd hne (hbetween gap List.mem_cons_self)
          rw [hne, hlast]
          cases ts <;> exact fun c hc => by cases hc
        · exact hgap.endsBefore (fun h => hne (String.toList_eq_nil_iff.1 h)) t.kind _
      have hspells := Spells.token ht hend (.blanks hgap hrest)
      rw [String.ofList_toList] at hspells
      rw [spaced, String.toList_append, String.toList_append, List.append_assoc]
      exact hspells

/-- The errors are at the same token of two streams, found the same there and expected the same. -/
structure Parse.ParseError.Corresponds (s s' : Stream) (e e' : ParseError) : Prop where
  index : e'.index = e.index
  expected : e'.expected = e.expected
  found : e'.found.map Token.shown = e.found.map Token.shown
  left : e.found = s.tokens[e.index]? ∧ e.pos = (e.found.map (·.pos)).getD s.stop
  right : e'.found = s'.tokens[e.index]? ∧ e'.pos = (e'.found.map (·.pos)).getD s'.stop

namespace Parse

theorem found_of_program_eq_error {prec : Precedence} {s : Stream} {e : ParseError}
    (h : program prec s = .error e) :
    e.found = s.tokens[e.index]? ∧ e.pos = (e.found.map (·.pos)).getD s.stop := by
  obtain ⟨-, rfl⟩ := run_eq_error h
  exact ⟨rfl, rfl⟩

/-- Streams with the same tokens up to positions are read alike. -/
theorem program_of_sameTokens (prec : Precedence) {s s' : Stream}
    (h : s'.tokens.map (Token.relocate Position.forget) = s.tokens.map (Token.relocate Position.forget)) :
    (∃ p p', program prec s = .ok p ∧ program prec s' = .ok p' ∧ Program.same p p' = true) ∨
      ∃ e e', program prec s = .error e ∧ program prec s' = .error e' ∧ e.Corresponds s s' e' := by
  have hstream : s'.relocate Position.forget = s.relocate Position.forget := by
    unfold Stream.relocate
    rw [h]
    rfl
  have hsame := program_relocate Position.forget prec s
  rw [← hstream, program_relocate] at hsame
  rcases hs : program prec s with e | p <;> rcases hs' : program prec s' with e' | p' <;>
    rw [hs, hs'] at hsame
  · right
    have herror : e'.relocate Position.forget = e.relocate Position.forget := Except.error.inj hsame
    obtain ⟨hindex, hfound, -, hexpected⟩ := (ParseError.mk.injEq ..).mp herror
    have hleft := found_of_program_eq_error hs
    have hright := found_of_program_eq_error hs'
    refine ⟨e, e', rfl, rfl, hindex, hexpected, ?_, hleft, ?_⟩
    · have hshown : ∀ found : Option Token, found.map Token.shown =
          (found.map (Token.relocate Position.forget)).map Token.shown := by
        intro found
        cases found <;> rfl
      rw [hshown e'.found, hshown e.found, hfound]
    · rw [← hindex]
      exact hright
  · cases hsame
  · cases hsame
  · left
    have hprogram : Program.relocate Position.forget p' = Program.relocate Position.forget p :=
      Except.ok.inj hsame
    exact ⟨p, p', rfl, rfl, (Program.same_iff p p').2 hprogram.symm⟩

end Parse

/-- The tokens of a text, written with any blanks between them and around them, are scanned as the same
tokens, and every language reads both texts as the same program up to positions or rejects both at the
same token, with the same found and expected there. -/
theorem layout_irrelevant {source : String} {s : Stream} (h : scan source = .ok s) {before : String}
    {gaps : List String} (hlength : gaps.length = s.tokens.length) (hbefore : Blank before.toList)
    (hgaps : ∀ gap ∈ gaps, Blank gap.toList) (hbetween : ∀ gap ∈ gaps.dropLast, gap ≠ "") :
    ∃ s', scan (before ++ spaced s.tokens gaps) = .ok s' ∧
      s'.tokens.map (fun t => (t.kind, t.text)) = s.tokens.map (fun t => (t.kind, t.text)) ∧
      ∀ lang : Language,
        (∃ p p', lang.parse source = .ok p ∧ lang.parse (before ++ spaced s.tokens gaps) = .ok p' ∧
          Program.same p p' = true) ∨
        ∃ e e', lang.parse source = .error (.parse e) ∧
          lang.parse (before ++ spaced s.tokens gaps) = .error (.parse e') ∧ e.Corresponds s s' e' := by
  have hspaced := spells_spaced (scan_eq_ok_iff.1 h).isText hlength hgaps hbetween
  have hspells := hspaced.blanks hbefore
  rw [← String.toList_append] at hspells
  obtain ⟨s', hs', htokens⟩ := hspells.scan
  refine ⟨s', hs', ?_, fun lang => ?_⟩
  · have hforget : ∀ ts : List Token, ts.map (fun t => (t.kind, t.text)) =
        (ts.map (Token.relocate Position.forget)).map fun t => (t.kind, t.text) := by
      intro ts
      rw [List.map_map]
      rfl
    rw [hforget, htokens, ← hforget]
  · rw [Language.parse_of_scan h, Language.parse_of_scan hs']
    rcases Parse.program_of_sameTokens lang.precedence htokens with
      ⟨p, p', hp, hp', hsame⟩ | ⟨e, e', he, he', hcorresponds⟩
    · left
      rw [hp, hp']
      exact ⟨p, p', rfl, rfl, hsame⟩
    · right
      rw [he, he']
      exact ⟨e, e', rfl, rfl, hcorresponds⟩

/-- Tokens that touch each other, a string with a blank in it, and the same with blanks of several kinds. One
language reads both texts as the same program; one without differences rejects both at the minus. -/
theorem layout_irrelevant_spread :
    let source := "out 2-\x7b1,2\x7dprint\"a b\""
    let s : Stream := ⟨[⟨.out, "out", ⟨1, 1⟩⟩, ⟨.int, "2", ⟨1, 5⟩⟩, ⟨.minus, "-", ⟨1, 6⟩⟩,
      ⟨.leftBrace, "\x7b", ⟨1, 7⟩⟩, ⟨.int, "1", ⟨1, 8⟩⟩, ⟨.comma, ",", ⟨1, 9⟩⟩, ⟨.int, "2", ⟨1, 10⟩⟩,
      ⟨.rightBrace, "\x7d", ⟨1, 11⟩⟩, ⟨.print, "print", ⟨1, 12⟩⟩, ⟨.string, "\"a b\"", ⟨1, 17⟩⟩], ⟨1, 22⟩⟩
    let p : Program := [.out (.binary (.int ⟨"2", ⟨1, 5⟩⟩) ⟨"-", ⟨1, 6⟩⟩
      (.range (.int ⟨"1", ⟨1, 8⟩⟩) (.int ⟨"2", ⟨1, 10⟩⟩))), .print "a b"]
    let e : Parse.ParseError := ⟨2, some ⟨.minus, "-", ⟨1, 6⟩⟩, ⟨1, 6⟩, [.operator, .statement]⟩
    let gaps := [" ", " ", "\n", "  ", "\t", " ", "\n\n", " ", "\u3000", ""]
    let text := "\nout 2 -\n\x7b  1\t, 2\n\n\x7d print\u3000\"a b\""
    let s' : Stream := ⟨[⟨.out, "out", ⟨2, 1⟩⟩, ⟨.int, "2", ⟨2, 5⟩⟩, ⟨.minus, "-", ⟨2, 7⟩⟩,
      ⟨.leftBrace, "\x7b", ⟨3, 1⟩⟩, ⟨.int, "1", ⟨3, 4⟩⟩, ⟨.comma, ",", ⟨3, 6⟩⟩, ⟨.int, "2", ⟨3, 8⟩⟩,
      ⟨.rightBrace, "\x7d", ⟨5, 1⟩⟩, ⟨.print, "print", ⟨5, 3⟩⟩, ⟨.string, "\"a b\"", ⟨5, 9⟩⟩], ⟨5, 14⟩⟩
    let p' : Program := [.out (.binary (.int ⟨"2", ⟨2, 5⟩⟩) ⟨"-", ⟨2, 7⟩⟩
      (.range (.int ⟨"1", ⟨3, 4⟩⟩) (.int ⟨"2", ⟨3, 8⟩⟩))), .print "a b"]
    let e' : Parse.ParseError := ⟨2, some ⟨.minus, "-", ⟨2, 7⟩⟩, ⟨2, 7⟩, [.operator, .statement]⟩
    let sums : Language := { Language.standard with precedence := ⟨[["+"]]⟩ }
    scan source = .ok s ∧ "\n" ++ spaced s.tokens gaps = text ∧ scan text = .ok s' ∧
      s'.tokens.map (fun t => (t.kind, t.text)) = s.tokens.map (fun t => (t.kind, t.text)) ∧
      (Language.standard.parse source = .ok p ∧ Language.standard.parse text = .ok p' ∧
        Program.same p p' = true) ∧
      sums.parse source = .error (.parse e) ∧ sums.parse text = .error (.parse e') ∧
        e.Corresponds s s' e' := by
  intro source s p e gaps text s' p' e' sums
  have hscan : scan source = .ok s := by decide +kernel
  have htext : "\n" ++ spaced s.tokens gaps = text := by decide +kernel
  have hscan' : scan text = .ok s' := by decide +kernel
  have hp : Language.standard.parse source = .ok p := by decide +kernel
  have hp' : Language.standard.parse text = .ok p' := by decide +kernel
  have he : sums.parse source = .error (.parse e) := by decide +kernel
  have he' : sums.parse text = .error (.parse e') := by decide +kernel
  obtain ⟨t, ht, htokens, hread⟩ :=
    layout_irrelevant hscan (by rfl : gaps.length = s.tokens.length) (by decide : Blank "\n".toList)
      (by decide) (by decide)
  rw [htext, hscan'] at ht
  cases ht
  rw [htext] at hread
  refine ⟨hscan, htext, hscan', htokens, ⟨hp, hp', ?_⟩, he, he', ?_⟩
  · rcases hread Language.standard with ⟨q, q', hq, hq', hsame⟩ | ⟨_, _, hq, -⟩
    · rw [hp] at hq
      rw [hp'] at hq'
      cases hq
      cases hq'
      exact hsame
    · cases hp.symm.trans hq
  · rcases hread sums with ⟨_, _, hq, -⟩ | ⟨_, _, hq, hq', hcorresponds⟩
    · cases he.symm.trans hq
    · rw [he] at hq
      rw [he'] at hq'
      cases hq
      cases hq'
      exact hcorresponds

end RangeScript
