import Mathlib.Data.List.MinMax
import RangeScript.Proofs.TokenPlaces

/-!
# The first rule that applies takes the most

* `firstRule? cs` : the first rule that takes something off the front of `cs`;
* `Pattern.apart p q` : no character can come first for both patterns;
* `Stands source t before rest` : the token `t` stands in the text between `before` and `rest`.

Any two rules are apart, with three exceptions (`pairwise_rules`): an arrow is longer than the minus sign
that it starts with, a real number is longer than its whole part, and a keyword is as long as the name that
it would be. So the first rule that applies takes at least as much as any other, and as much only if it is
the rule of a keyword and the other that of names (`length_taken_of_firstRule?`). Taking the first rule is
taking the longest match (`first_match_longest`).
-/

namespace RangeScript.Token

open RangeScript.Charset

/-! ## The first rule -/

/-- Whether the rule takes something off the front of `cs`. -/
def Rule.applies (cs : List Char) (r : Rule) : Bool := !(r.pattern.taken cs).isEmpty

theorem Rule.applies_iff {cs : List Char} {r : Rule} : r.applies cs = true ↔ r.pattern.taken cs ≠ [] := by
  simp [applies]

/-- The first rule that takes something off the front of `cs`. -/
def firstRule? (cs : List Char) : Option Rule := Rule.all.find? (Rule.applies cs)

/-- The rules before the first one take nothing. -/
theorem firstRule?_eq_some {cs : List Char} {r : Rule} (h : firstRule? cs = some r) :
    r.pattern.taken cs ≠ [] ∧ ∃ earlier later, Rule.all = earlier ++ r :: later ∧
      ∀ q ∈ earlier, q.pattern.taken cs = [] := by
  obtain ⟨happlies, earlier, later, hall, hearlier⟩ := List.find?_eq_some_iff_append.1 h
  refine ⟨Rule.applies_iff.1 happlies, earlier, later, hall, fun q hq => ?_⟩
  simpa [Rule.applies] using hearlier q hq

theorem firstPiece?_eq_find? (rules : List Rule) (cs : List Char) :
    firstPiece? rules cs =
      (rules.find? (Rule.applies cs)).map fun r => ⟨r.kind, r.pattern.taken cs⟩ := by
  induction rules with
  | nil => rfl
  | cons r rules ih =>
    cases htaken : r.pattern.taken cs with
    | nil =>
      have hnot : ¬ r.applies cs = true := by rw [Rule.applies_iff, not_not]; exact htaken
      rw [firstPiece?_cons_of_nil htaken, List.find?_cons_of_neg hnot, ih]
    | cons c ds =>
      have happlies : r.applies cs = true := by
        rw [Rule.applies_iff, htaken]
        exact List.cons_ne_nil c ds
      rw [firstPiece?_cons_of_cons htaken, List.find?_cons_of_pos happlies, Option.map_some, htaken]

/-! ## Patterns with different first characters -/

namespace Pattern

/-- No character can come first for both patterns. -/
def apart (p q : Pattern) : Bool :=
  match p.lead?, q.lead? with
  | some c, _ => !q.startsWith c
  | none, some c => !p.startsWith c
  | none, none => p != q && !(p.takesDigits && q.takesDigits)

theorem eq_of_startsWith {p : Pattern} {c d : Char} (hlead : p.lead? = some c)
    (h : p.startsWith d = true) : d = c := by
  cases p with
  | keyword word | exactly word =>
    have hd : (lead? _ == some d) = true := h
    rw [hlead, beq_iff_eq, Option.some.injEq] at hd
    exact hd.symm
  | string =>
    have hd : (lead? .string == some d) = true := h
    rw [hlead, beq_iff_eq, Option.some.injEq] at hd
    exact hd.symm
  | _ => cases hlead

/-- The patterns without a fixed first character have a class of first characters. -/
theorem class_of_startsWith {p : Pattern} {c : Char} (hlead : p.lead? = none)
    (h : p.startsWith c = true) :
    (p = .blanks ∧ isBlank c = true) ∨ (p = .name ∧ isNameStart c = true) ∨
      (p.takesDigits = true ∧ isDigit c = true) := by
  cases p with
  | blanks => exact .inl ⟨rfl, h⟩
  | name => exact .inr (.inl ⟨rfl, h⟩)
  | real | int => exact .inr (.inr ⟨rfl, h⟩)
  | keyword word | exactly word =>
    have hd : (lead? _ == some c) = true := h
    rw [hlead] at hd
    cases hd
  | string => cases hlead

/-- Blanks, letters that names start with and digits have nothing in common. -/
theorem not_startsWith_of_apart {p q : Pattern} {c : Char} (h : p.apart q = true)
    (hp : p.startsWith c = true) : q.startsWith c = false := by
  have hletter : isBlank c = true → ¬ isNameStart c = true := by
    intro hblank hname
    have hword := (isWord_of_isNameStart hname).1
    rw [isWord_of_isBlank hblank] at hword
    cases hword
  have hdigit : isBlank c = true → ¬ isDigit c = true := by
    intro hblank
    rw [isDigit_of_isBlank hblank]
    decide
  have hname : isNameStart c = true → ¬ isDigit c = true := by
    intro hname
    rw [(isWord_of_isNameStart hname).2]
    decide
  rw [Bool.eq_false_iff]
  intro hq
  unfold apart at h
  split at h
  · next d hlead =>
    rw [← eq_of_startsWith hlead hp, hq] at h
    cases h
  · next d _ hlead =>
    rw [← eq_of_startsWith hlead hq, hp] at h
    cases h
  · next hleadp hleadq =>
    rw [Bool.and_eq_true, bne_iff_ne] at h
    obtain ⟨hne, hdigits⟩ := h
    rcases class_of_startsWith hleadp hp with ⟨rfl, hc⟩ | ⟨rfl, hc⟩ | ⟨hdp, hc⟩ <;>
      rcases class_of_startsWith hleadq hq with ⟨rfl, hd⟩ | ⟨rfl, hd⟩ | ⟨hdq, hd⟩
    · exact hne rfl
    · exact hletter hc hd
    · exact hdigit hc hd
    · exact hletter hd hc
    · exact hne rfl
    · exact hname hc hd
    · exact hdigit hd hc
    · exact hname hd hc
    · rw [hdp, hdq] at hdigits
      cases hdigits

theorem taken_nil (p : Pattern) : p.taken [] = [] := by
  cases p with
  | keyword word | exactly word => cases word <;> rfl
  | _ => rfl

/-- Where one of two patterns that are apart applies, the other takes nothing. -/
theorem taken_of_apart {p q : Pattern} {cs : List Char} (h : p.apart q = true)
    (hp : p.taken cs ≠ []) : q.taken cs = [] := by
  cases cs with
  | nil => exact q.taken_nil
  | cons c cs =>
    apply taken_of_not_startsWith
    apply not_startsWith_of_apart h
    rw [← Bool.not_eq_false]
    intro hc
    exact hp (taken_of_not_startsWith hc cs)

/-! ## Patterns that start alike -/

/-- A name is the longest word at the front. -/
theorem length_taken_name_le (cs : List Char) : (name.taken cs).length ≤ (cs.takeWhile isWord).length := by
  cases cs with
  | nil => exact Nat.le_refl 0
  | cons c cs =>
    cases hc : isNameStart c with
    | false =>
      have hstart : name.startsWith c = false := hc
      rw [taken_of_not_startsWith hstart]
      exact Nat.zero_le _
    | true => simp [taken, hc, (isWord_of_isNameStart hc).1]

/-- A keyword is the longest word at the front, so that no name is longer. -/
theorem length_taken_name_le_keyword {word cs : List Char} (hword : word ∈ keywords)
    (h : (keyword word).taken cs ≠ []) : (name.taken cs).length ≤ ((keyword word).taken cs).length := by
  have hwords : ∀ word ∈ keywords, word.all isWord = true := by decide +kernel
  have htaken := taken_keyword (List.all_eq_true.1 (hwords word hword)) cs
  by_cases hlongest : cs.takeWhile isWord = word
  · rw [if_pos hlongest] at htaken
    rw [htaken, ← hlongest]
    exact length_taken_name_le cs
  · rw [if_neg hlongest] at htaken
    exact absurd htaken h

/-- A real number goes on after its whole part. -/
theorem length_taken_int_lt_real {cs : List Char} (h : real.taken cs ≠ []) :
    (int.taken cs).length < (real.taken cs).length := by
  revert h
  simp only [taken]
  split
  · intro _
    rw [List.length_append, List.length_cons]
    omega
  · intro h
    exact absurd rfl h

theorem length_taken_minus_lt_arrow {cs : List Char} (h : (exactly ['-', '>']).taken cs ≠ []) :
    ((exactly ['-']).taken cs).length < ((exactly ['-', '>']).taken cs).length := by
  have hle : ((exactly ['-']).taken cs).length ≤ 1 := by
    simp only [taken]
    split <;> decide
  have harrow : ((exactly ['-', '>']).taken cs).length = 2 := by
    revert h
    simp only [taken]
    split
    · intro _
      rfl
    · intro h
      exact absurd rfl h
  omega

/-- The patterns of keywords. -/
def isKeyword : Pattern → Bool
  | .keyword _ => true
  | _ => false

end Pattern

/-! ## Any two rules -/

/-- Of two rules in their order, the first and the second are apart, or they are an arrow and a minus sign, a
real and a whole number, or a keyword and a name. -/
theorem pairwise_rules : Rule.all.Pairwise fun r q =>
    r.pattern.apart q.pattern = true ∨
      (r.pattern = .exactly ['-', '>'] ∧ q.pattern = .exactly ['-']) ∨
      (r.pattern = .real ∧ q.pattern = .int) ∨
      ((∃ word ∈ keywords, r.pattern = .keyword word) ∧ q.pattern = .name) := by
  decide +kernel

/-- What the first rule that applies takes is longer than what any other rule takes, except that a keyword may
be as long as a name. -/
theorem length_taken_of_firstRule? {cs : List Char} {r q : Rule} (h : firstRule? cs = some r)
    (hq : q ∈ Rule.all) (hne : q ≠ r) :
    (q.pattern.taken cs).length < (r.pattern.taken cs).length ∨
      ((q.pattern.taken cs).length = (r.pattern.taken cs).length ∧
        q.pattern = .name ∧ r.pattern.isKeyword = true) := by
  obtain ⟨htaken, earlier, later, hall, hearlier⟩ := firstRule?_eq_some h
  have hpos := List.length_pos_iff.2 htaken
  have hpairs := pairwise_rules
  rw [hall] at hq hpairs
  rcases List.mem_append.1 hq with hq | hq
  · rw [hearlier q hq]
    exact .inl hpos
  · have hlater : q ∈ later := (List.mem_cons.1 hq).resolve_left hne
    have hpair := List.rel_of_pairwise_cons (List.pairwise_append.1 hpairs).2.1 hlater
    rcases hpair with hapart | ⟨hr, hq⟩ | ⟨hr, hq⟩ | ⟨⟨word, hword, hr⟩, hq⟩
    · rw [Pattern.taken_of_apart hapart htaken]
      exact .inl hpos
    · rw [hr] at htaken ⊢
      rw [hq]
      exact .inl (Pattern.length_taken_minus_lt_arrow htaken)
    · rw [hr] at htaken ⊢
      rw [hq]
      exact .inl (Pattern.length_taken_int_lt_real htaken)
    · rw [hr] at htaken ⊢
      rw [hq]
      rcases Nat.lt_or_eq_of_le (Pattern.length_taken_name_le_keyword hword htaken) with hlt | heq
      · exact .inl hlt
      · exact .inr ⟨heq, rfl, rfl⟩

/-- The first rule that applies is the first of those that take the most. -/
theorem argmax_of_firstRule? {cs : List Char} {r : Rule} (h : firstRule? cs = some r) :
    Rule.all.argmax (fun q => (q.pattern.taken cs).length) = some r := by
  have hmost : ∀ q ∈ Rule.all, (q.pattern.taken cs).length ≤ (r.pattern.taken cs).length := by
    intro q hq
    by_cases hqr : q = r
    · rw [hqr]
    · rcases length_taken_of_firstRule? h hq hqr with hlt | ⟨heq, -, -⟩ <;> omega
  obtain ⟨htaken, earlier, later, hall, hearlier⟩ := firstRule?_eq_some h
  have hpos := List.length_pos_iff.2 htaken
  have houtside : ∀ q : Rule, (r.pattern.taken cs).length ≤ (q.pattern.taken cs).length → q ∉ earlier := by
    intro q hle hq
    rw [hearlier q hq, List.length_nil] at hle
    omega
  rw [List.argmax_eq_some_iff]
  refine ⟨List.mem_of_find?_eq_some h, hmost, fun q _ hle => ?_⟩
  rw [hall, List.idxOf_append_of_notMem (houtside r (Nat.le_refl _)),
    List.idxOf_append_of_notMem (houtside q hle), List.idxOf_cons_self]
  omega

/-! ## Tokens at their places -/

/-- The token stands in the text between `before` and `rest`. -/
def Stands (source : String) (t : Token) (before rest : List Char) : Prop :=
  source.toList = before ++ t.text.toList ++ rest ∧ t.pos = .counted before

/-- A token stands at one place only. -/
theorem Stands.unique {source : String} {t : Token} {before rest before' rest' : List Char}
    (h : Stands source t before rest) (h' : Stands source t before' rest') :
    before = before' ∧ rest = rest' := by
  have htext : before ++ (t.text.toList ++ rest) = before' ++ (t.text.toList ++ rest') := by
    rw [← List.append_assoc, ← List.append_assoc, ← h.1, h'.1]
  have hpos : Position.start.after before = Position.start.after before' := by
    rw [← Position.counted_eq_after, ← Position.counted_eq_after, ← h.2, h'.2]
  obtain rfl := Position.eq_of_after_eq htext hpos
  exact ⟨rfl, List.append_cancel_left (List.append_cancel_left htext)⟩

/-- Each token of a stretch that is cut stands somewhere in it, where the rules take it. -/
theorem Cut.exists_place {after before cs : List Char} {ts : List Token} (h : Cut after before cs ts)
    {t : Token} (ht : t ∈ ts) :
    ∃ front rest, before ++ cs ++ after = front ++ t.text.toList ++ rest ∧ t.pos = .counted front ∧
      firstPiece? Rule.all (t.text.toList ++ rest) = some ⟨some t.kind, t.text.toList⟩ := by
  induction h with
  | nil _ => cases ht
  | @cons before w rest u ts _ _ hpos hpiece _ ih =>
    rcases List.mem_cons.1 ht with rfl | ht
    · rw [List.append_assoc t.text.toList] at hpiece
      exact ⟨before ++ w, rest ++ after, by simp only [List.append_assoc], hpos, hpiece⟩
    · obtain ⟨front, tail, htext, hplace⟩ := ih ht
      exact ⟨front, tail, by rw [← htext]; simp only [List.append_assoc], hplace⟩

/-- The kinds of keywords and names. -/
def Kind.isWord : Kind → Bool
  | .var | .out | .print | .name => true
  | _ => false

/-- A keyword or name starts with a word character. -/
theorem exists_cons_of_isText {k : Kind} {chars : List Char} (h : IsText k chars) (hk : k.isWord = true) :
    ∃ c cs, chars = c :: cs ∧ Charset.isWord c = true := by
  cases h with
  | fixed h => cases k <;> cases h <;> first | exact ⟨_, _, rfl, by decide +kernel⟩ | cases hk
  | name hc _ _ => exact ⟨_, _, rfl, (isWord_of_isNameStart hc).1⟩
  | _ => cases hk

theorem not_mem_keywords_of_isText {chars : List Char} (h : IsText .name chars) : chars ∉ keywords := by
  cases h with
  | fixed hfixed => cases hfixed
  | name _ _ hnot => exact hnot

/-- A keyword or name ends where no word character comes next. -/
theorem Kind.endsBefore_of_isWord {k : Kind} (hk : k.isWord = true) (c : Char) :
    k.endsBefore c = !Charset.isWord c := by
  cases k <;> first | rfl | cases hk

section Scanned
variable {source : String} {s : Stream} (h : scan source = .ok s)
include h

/-- Each token of a text stands somewhere, and the first rule that applies there takes it. -/
theorem exists_stands {t : Token} (ht : t ∈ s.tokens) :
    ∃ before rest r, Stands source t before rest ∧ firstRule? (t.text.toList ++ rest) = some r ∧
      r.kind = some t.kind ∧ r.pattern.taken (t.text.toList ++ rest) = t.text.toList := by
  obtain ⟨front, rest, htext, hpos, hpiece⟩ := (cut_of_scan h).1.exists_place ht
  rw [List.nil_append, List.append_nil] at htext
  rw [firstPiece?_eq_find?, Option.map_eq_some_iff] at hpiece
  obtain ⟨r, hr, hpiece⟩ := hpiece
  injection hpiece with hkind htaken
  exact ⟨front, rest, r, ⟨htext, hpos⟩, hr, hkind, htaken⟩

/-- A token of a text is a text of its kind, and it ends where it may. -/
theorem isText_of_stands {t : Token} (ht : t ∈ s.tokens) {before rest : List Char}
    (hplace : Stands source t before rest) :
    IsText t.kind t.text.toList ∧ EndsBefore t.kind rest := by
  obtain ⟨before', rest', r, hplace', hr, hkind, htaken⟩ := exists_stands h ht
  obtain ⟨-, rfl⟩ := hplace.unique hplace'
  have hpiece : firstPiece? Rule.all (t.text.toList ++ rest) = some ⟨some t.kind, t.text.toList⟩ := by
    rw [firstPiece?_eq_find?, Option.map_eq_some_iff]
    exact ⟨r, hr, by rw [hkind, htaken]⟩
  obtain ⟨rest'', hsplit, htext, hend⟩ := isText_of_firstPiece? hpiece
  rw [List.append_cancel_left hsplit]
  exact ⟨htext, hend⟩

theorem not_keyword_of_name {t : Token} (ht : t ∈ s.tokens) (hkind : t.kind = .name) :
    t.text ∉ ["var", "out", "print"] := by
  obtain ⟨before, rest, r, hplace, -⟩ := exists_stands h ht
  obtain ⟨htext, -⟩ := isText_of_stands h ht hplace
  rw [hkind] at htext
  intro hmem
  exact not_mem_keywords_of_isText htext (List.mem_map_of_mem (f := String.toList) hmem)

theorem no_point_after_int {t : Token} (ht : t ∈ s.tokens) (hkind : t.kind = .int)
    {before rest : List Char} (hplace : Stands source t before rest) : rest.head? ≠ some '.' := by
  obtain ⟨-, hend⟩ := isText_of_stands h ht hplace
  rw [hkind] at hend
  intro hpoint
  have hends := hend '.' hpoint
  simp [Kind.endsBefore] at hends

theorem ne_append_of_words {a b : Token} (ha : a ∈ s.tokens) (hb : b ∈ s.tokens)
    (hka : a.kind.isWord = true) (hkb : b.kind.isWord = true) {before rest before' rest' : List Char}
    (hplace : Stands source a before rest) (hplace' : Stands source b before' rest') :
    before' ≠ before ++ a.text.toList := by
  rintro rfl
  obtain ⟨-, hend⟩ := isText_of_stands h ha hplace
  obtain ⟨htext, -⟩ := isText_of_stands h hb hplace'
  have hsplit : before ++ a.text.toList ++ rest = before ++ a.text.toList ++ (b.text.toList ++ rest') := by
    rw [← hplace.1, hplace'.1, List.append_assoc _ b.text.toList]
  rw [List.append_cancel_left hsplit] at hend
  obtain ⟨c, cs, hcs, hc⟩ := exists_cons_of_isText htext hkb
  rw [hcs, List.cons_append] at hend
  have hends := hend c rfl
  rw [Kind.endsBefore_of_isWord hka, hc] at hends
  cases hends

end Scanned

/-- At every place of a text, the first rule that applies is the first of those that take the most: no other
rule takes more, and as much only that of names where a keyword stands. So in a text that is scanned no name
is a keyword, no whole number is followed by a point, and no two keywords or names stand next to each other
with nothing between them. -/
theorem first_match_longest (source : String) :
    (∀ before cs r, source.toList = before ++ cs → firstRule? cs = some r →
      firstPiece? Rule.all cs = some ⟨r.kind, r.pattern.taken cs⟩ ∧
      Rule.all.argmax (fun q => (q.pattern.taken cs).length) = some r ∧
      ∀ q ∈ Rule.all, q ≠ r →
        (q.pattern.taken cs).length ≤ (r.pattern.taken cs).length ∧
        ((q.pattern.taken cs).length = (r.pattern.taken cs).length →
          q.pattern = .name ∧ r.pattern.isKeyword = true)) ∧
    ∀ s, scan source = .ok s →
      (∀ t ∈ s.tokens, ∃ before rest r, Stands source t before rest ∧
        firstRule? (t.text.toList ++ rest) = some r ∧ r.kind = some t.kind ∧
        r.pattern.taken (t.text.toList ++ rest) = t.text.toList) ∧
      (∀ t ∈ s.tokens, t.kind = .name → t.text ∉ ["var", "out", "print"]) ∧
      (∀ t ∈ s.tokens, t.kind = .int → ∀ before rest, Stands source t before rest →
        rest.head? ≠ some '.') ∧
      ∀ a ∈ s.tokens, ∀ b ∈ s.tokens, a.kind.isWord = true → b.kind.isWord = true →
        ∀ before rest before' rest', Stands source a before rest → Stands source b before' rest' →
          before' ≠ before ++ a.text.toList := by
  refine ⟨fun _ cs r _ hr => ⟨?_, argmax_of_firstRule? hr, fun q hq hne => ?_⟩, fun s h => ?_⟩
  · rw [firstPiece?_eq_find?]
    exact congrArg (Option.map _) hr
  · rcases length_taken_of_firstRule? hr hq hne with hlt | ⟨heq, hties⟩
    · exact ⟨Nat.le_of_lt hlt, fun heq => absurd heq (Nat.ne_of_lt hlt)⟩
    · exact ⟨Nat.le_of_eq heq, fun _ => hties⟩
  · exact ⟨fun t => exists_stands h, fun t => not_keyword_of_name h,
      fun t ht hkind before rest => no_point_after_int h ht hkind,
      fun a ha b hb hka hkb _ _ _ _ => ne_append_of_words h ha hb hka hkb⟩

/-- `out` is as long as the name that it would be, `outer` is longer than the keyword in it and does not follow
the keyword at once, and a whole number stands before a sign. -/
theorem first_match_longest_keyword :
    let source := "out outer 1-2"
    let keyword : Rule := ⟨some .out, .keyword ['o', 'u', 't']⟩
    let name : Rule := ⟨some .name, .name⟩
    let out : Token := ⟨.out, "out", ⟨1, 1⟩⟩
    let outer : Token := ⟨.name, "outer", ⟨1, 5⟩⟩
    let one : Token := ⟨.int, "1", ⟨1, 11⟩⟩
    let s : Stream := ⟨[out, outer, one, ⟨.minus, "-", ⟨1, 12⟩⟩, ⟨.int, "2", ⟨1, 13⟩⟩], ⟨1, 14⟩⟩
    (firstRule? source.toList = some keyword ∧
      (name.pattern.taken source.toList).length = (keyword.pattern.taken source.toList).length ∧
      name.pattern = .name ∧ keyword.pattern.isKeyword = true) ∧
    scan source = .ok s ∧ outer.text ∉ ["var", "out", "print"] ∧
      (Stands source one "out outer ".toList "-2".toList ∧ "-2".toList.head? ≠ some '.') ∧
      Stands source out [] " outer 1-2".toList ∧ Stands source outer "out ".toList " 1-2".toList ∧
      "out ".toList ≠ [] ++ out.text.toList := by
  intro source keyword name out outer one s
  have hrule : firstRule? source.toList = some keyword := by decide +kernel
  have htie : (name.pattern.taken source.toList).length = (keyword.pattern.taken source.toList).length := by
    decide +kernel
  have hscan : scan source = .ok s := by decide +kernel
  have hone : Stands source one "out outer ".toList "-2".toList := ⟨by decide +kernel, by decide +kernel⟩
  have hout : Stands source out [] " outer 1-2".toList := ⟨by decide +kernel, by decide +kernel⟩
  have houter : Stands source outer "out ".toList " 1-2".toList := ⟨by decide +kernel, by decide +kernel⟩
  obtain ⟨hlongest, htokens⟩ := first_match_longest source
  obtain ⟨-, -, hothers⟩ := hlongest [] source.toList keyword rfl hrule
  obtain ⟨-, hnames, hints, hwords⟩ := htokens s hscan
  have hname := hnames outer (by simp [s]) rfl
  have hint := hints one (by simp [s]) rfl _ _ hone
  have hapart := hwords out (by simp [s]) outer (by simp [s]) rfl rfl _ _ _ _ hout houter
  exact ⟨⟨hrule, htie, (hothers name (by decide) (by decide)).2 htie⟩, hscan, hname, ⟨hone, hint⟩, hout, houter,
    hapart⟩

end RangeScript.Token
