import RangeScript.Token.Scan

/-!
# Texts of tokens

* `IsText k chars` : the characters are the text of a token of kind `k`;
* `Kind.endsBefore k c` : a token of kind `k` may end where the character `c` comes next;
* `EndsBefore k rest` : a token of kind `k` may end where `rest` comes next.

The rules are tried in order and the first that takes something wins. What wins does not depend on the
order: a token of kind `k` is taken off the front exactly where a text of this kind stands and ends
(`firstPiece?_of_isText`, `isText_of_firstPiece?`), and blanks are taken as far as they go
(`firstPiece?_of_isBlank`). Every kind of token ends before a blank (`endsBefore_of_isBlank`).
-/

namespace RangeScript

/-! ## Classes of characters -/

namespace Charset

/-- A blank is no word character. The blanks are few, so this is looked up for each. -/
theorem isWord_of_isBlank {c : Char} (h : isBlank c = true) : isWord c = false := by
  have hall : ∀ r ∈ blankRanges, ∀ n ∈ List.range' r.1 (r.2 + 1 - r.1),
      inRanges n digitRanges = false ∧ inRanges n letterRanges = false := by
    decide +kernel
  obtain ⟨r, hr, hlo, hhi⟩ := exists_range_of_inRanges h
  have hn : c.toNat ∈ List.range' r.1 (r.2 + 1 - r.1) := by
    rw [List.mem_range'_1]
    omega
  obtain ⟨hdigit, hletter⟩ := hall r hr _ hn
  unfold isWord isDigit
  rw [hdigit, hletter]
  rfl

theorem isDigit_of_isBlank {c : Char} (h : isBlank c = true) : isDigit c = false := by
  have hword := isWord_of_isBlank h
  unfold isWord at hword
  exact (Bool.or_eq_false_iff.1 hword).1

theorem lt_of_isNameStart {c : Char} (h : isNameStart c = true) : c.toNat < 128 := by
  have hle : ∀ d : Char, c ≤ d → c.toNat ≤ d.toNat := fun d hd => hd
  unfold isNameStart at h
  simp only [Bool.or_eq_true, Bool.and_eq_true, decide_eq_true_eq, beq_iff_eq] at h
  rcases h with (⟨-, h⟩ | ⟨-, h⟩) | rfl
  · exact Nat.lt_of_le_of_lt (hle _ h) (by decide)
  · exact Nat.lt_of_le_of_lt (hle _ h) (by decide)
  · decide

/-- The characters that names start with are word characters and no digits. -/
theorem isWord_of_isNameStart {c : Char} (h : isNameStart c = true) :
    isWord c = true ∧ isDigit c = false := by
  have hall : ∀ n < 128, isNameStart (Char.ofNat n) = true →
      isWord (Char.ofNat n) = true ∧ isDigit (Char.ofNat n) = false := by
    decide +kernel
  have hc := hall c.toNat (lt_of_isNameStart h)
  rw [Char.ofNat_toNat] at hc
  exact hc h

end Charset

namespace Token

open RangeScript.Charset

/-! ## Texts -/

/-- The text of a kind that has only one: keywords and symbols. -/
def Kind.fixed? : Kind → Option (List Char)
  | .var => some ['v', 'a', 'r']
  | .out => some ['o', 'u', 't']
  | .print => some ['p', 'r', 'i', 'n', 't']
  | .assign => some ['=']
  | .leftParen => some ['(']
  | .rightParen => some [')']
  | .leftBrace => some ['\x7b']
  | .rightBrace => some ['\x7d']
  | .comma => some [',']
  | .arrow => some ['-', '>']
  | .plus => some ['+']
  | .minus => some ['-']
  | .star => some ['*']
  | .slash => some ['/']
  | .caret => some ['^']
  | .name | .real | .int | .string => none

/-- The words that are no names. -/
def keywords : List (List Char) := [['v', 'a', 'r'], ['o', 'u', 't'], ['p', 'r', 'i', 'n', 't']]

/-- The characters are the text of a token of the kind. -/
inductive IsText : Kind → List Char → Prop
  | fixed {k : Kind} {chars : List Char} : k.fixed? = some chars → IsText k chars
  | name {c : Char} {cs : List Char} :
    isNameStart c = true → (∀ d ∈ cs, isWord d = true) → c :: cs ∉ keywords → IsText .name (c :: cs)
  | int {c : Char} {cs : List Char} :
    isDigit c = true → (∀ d ∈ cs, isDigitOrUnderscore d = true) → IsText .int (c :: cs)
  | real {c : Char} {cs ds : List Char} :
    isDigit c = true → (∀ d ∈ cs, isDigitOrUnderscore d = true) →
    (∀ d ∈ ds, isDigitOrUnderscore d = true) → IsText .real (c :: (cs ++ '.' :: ds))
  | string {cs : List Char} : '"' ∉ cs → IsText .string ('"' :: (cs ++ ['"']))

/-- A token of the kind may end where the character comes next: it would not have gone on with it. -/
def Kind.endsBefore (k : Kind) (c : Char) : Bool :=
  match k with
  | .var | .out | .print | .name => !isWord c
  | .real => !isDigitOrUnderscore c
  | .int => !isDigitOrUnderscore c && c != '.'
  | .minus => c != '>'
  | _ => true

/-- A token of the kind may end where `rest` comes next. -/
def EndsBefore (k : Kind) (rest : List Char) : Prop := ∀ c ∈ rest.head?, k.endsBefore c = true

theorem endsBefore_of_isBlank (k : Kind) {c : Char} (h : isBlank c = true) :
    k.endsBefore c = true := by
  have hne : ∀ d : Char, isBlank d = false → c ≠ d := by
    rintro d hd rfl
    rw [h] at hd
    cases hd
  have hword := isWord_of_isBlank h
  have hdigit := isDigit_of_isBlank h
  have hpoint : c ≠ '.' := hne '.' (by decide)
  have hangle : c ≠ '>' := hne '>' (by decide)
  have hunder : c ≠ '_' := hne '_' (by decide)
  cases k <;> simp [Kind.endsBefore, isDigitOrUnderscore, hword, hdigit, hpoint, hangle, hunder]

theorem isText_ne_nil {k : Kind} {chars : List Char} (h : IsText k chars) : chars ≠ [] := by
  cases h with
  | fixed h =>
    rintro rfl
    cases k <;> cases h
  | name _ _ _ => exact List.cons_ne_nil _ _
  | int _ _ => exact List.cons_ne_nil _ _
  | real _ _ _ => exact List.cons_ne_nil _ _
  | string _ => exact List.cons_ne_nil _ _

/-! ## Longest runs -/

section Runs
variable {p : Char → Bool} {cs rest : List Char}

theorem takeWhile_of_run (h : ∀ c ∈ cs, p c = true) (hrest : ∀ c ∈ rest.head?, p c = false) :
    (cs ++ rest).takeWhile p = cs := by
  rw [List.takeWhile_append_of_pos h]
  cases rest with
  | nil => simp
  | cons c rest =>
    have hc : p c = false := hrest c rfl
    simp [hc]

theorem head_dropWhile (cs : List Char) : ∀ c ∈ (cs.dropWhile p).head?, p c = false := by
  intro c hc
  have hnot := List.head?_dropWhile_not p cs
  rw [Option.mem_def.1 hc] at hnot
  simpa using hnot

theorem forall_takeWhile (cs : List Char) : ∀ c ∈ cs.takeWhile p, p c = true :=
  List.all_eq_true.1 (List.all_takeWhile ..)

end Runs

/-! ## What patterns take -/

/-- The character with which all texts of the pattern start, where there is one. -/
def Pattern.lead? : Pattern → Option Char
  | .keyword word | .exactly word => word.head?
  | .string => some '"'
  | _ => none

/-- The pattern can apply only where such a character comes first. -/
def Pattern.startsWith (p : Pattern) (c : Char) : Bool :=
  match p with
  | .blanks => isBlank c
  | .name => isNameStart c
  | .real | .int => isDigit c
  | p => p.lead? == some c

theorem Pattern.taken_of_not_startsWith {p : Pattern} {c : Char} (h : p.startsWith c = false)
    (cs : List Char) : p.taken (c :: cs) = [] := by
  cases p with
  | keyword word =>
    cases word with
    | nil => simp [taken]
    | cons w word =>
      have hw : (w == c) = false := by simpa [startsWith, lead?] using h
      simp [taken, List.isPrefixOf, hw]
  | exactly word =>
    cases word with
    | nil => simp [taken]
    | cons w word =>
      have hw : (w == c) = false := by simpa [startsWith, lead?] using h
      simp [taken, List.isPrefixOf, hw]
  | blanks =>
    have hc : isBlank c = false := h
    simp [taken, hc]
  | name =>
    have hc : isNameStart c = false := h
    simp [taken, hc]
  | real =>
    have hc : isDigit c = false := h
    simp [taken, takenDigits, hc]
  | int =>
    have hc : isDigit c = false := h
    simp [taken, takenDigits, hc]
  | string =>
    have hc : ¬ '"' = c := by simpa [startsWith, lead?] using h
    simp [taken, Ne.symm hc]

/-- A keyword is taken exactly if it is the longest word at the front. -/
theorem Pattern.taken_keyword {word : List Char} (hword : ∀ c ∈ word, isWord c = true)
    (cs : List Char) :
    (keyword word).taken cs = if cs.takeWhile isWord = word then word else [] := by
  have hiff : (word.isPrefixOf cs && !startsWithWord (cs.drop word.length)) = true ↔
      cs.takeWhile isWord = word := by
    rw [Bool.and_eq_true, List.isPrefixOf_iff_prefix]
    constructor
    · rintro ⟨⟨rest, rfl⟩, hrest⟩
      refine takeWhile_of_run hword fun c hc => ?_
      rw [List.drop_left] at hrest
      cases rest with
      | nil => cases hc
      | cons d rest =>
        cases hc
        simpa [startsWithWord] using hrest
    · intro h
      have hcs : word ++ cs.dropWhile isWord = cs := by
        rw [← h]
        exact List.takeWhile_append_dropWhile
      refine ⟨⟨_, hcs⟩, ?_⟩
      have hend := head_dropWhile (p := isWord) cs
      rw [← hcs, List.drop_left]
      cases hrest : cs.dropWhile isWord with
      | nil => rfl
      | cons d rest =>
        rw [hrest] at hend
        have hd : isWord d = false := hend d rfl
        simp [startsWithWord, hd]
  show (if (word.isPrefixOf cs && !startsWithWord (cs.drop word.length)) = true then word else []) = _
  by_cases h : cs.takeWhile isWord = word
  · rw [if_pos h, if_pos (hiff.2 h)]
  · rw [if_neg h, if_neg (fun hpre => h (hiff.1 hpre))]

theorem takenDigits_of_run {c : Char} {cs rest : List Char} (hc : isDigit c = true)
    (hcs : ∀ d ∈ cs, isDigitOrUnderscore d = true)
    (hrest : ∀ d ∈ rest.head?, isDigitOrUnderscore d = false) :
    takenDigits (c :: (cs ++ rest)) = c :: cs := by
  rw [takenDigits, if_pos hc, takeWhile_of_run hcs hrest]

/-! ## The first rule that applies -/

section Rules
variable {r : Rule} {rules : List Rule} {cs : List Char}

theorem firstPiece?_cons_of_nil (h : r.pattern.taken cs = []) :
    firstPiece? (r :: rules) cs = firstPiece? rules cs := by
  unfold firstPiece?
  rw [List.findSome?_cons]
  simp only [h]

theorem firstPiece?_cons_of_cons {c : Char} {ds : List Char} (h : r.pattern.taken cs = c :: ds) :
    firstPiece? (r :: rules) cs = some ⟨r.kind, c :: ds⟩ := by
  unfold firstPiece?
  rw [List.findSome?_cons]
  simp only [h]

/-- Rules that take nothing may be left out. -/
theorem firstPiece?_filter (keep : Rule → Bool)
    (h : ∀ r ∈ rules, keep r = false → r.pattern.taken cs = []) :
    firstPiece? rules cs = firstPiece? (rules.filter keep) cs := by
  induction rules with
  | nil => rfl
  | cons r rules ih =>
    obtain ⟨hr, hrules⟩ := List.forall_mem_cons.1 h
    cases hkeep : keep r with
    | true =>
      rw [List.filter_cons_of_pos hkeep]
      cases htaken : r.pattern.taken cs with
      | nil => rw [firstPiece?_cons_of_nil htaken, firstPiece?_cons_of_nil htaken, ih hrules]
      | cons c ds => rw [firstPiece?_cons_of_cons htaken, firstPiece?_cons_of_cons htaken]
    | false =>
      rw [List.filter_cons_of_neg (by rw [hkeep]; decide), firstPiece?_cons_of_nil (hr hkeep),
        ih hrules]

end Rules

/-! ## First characters -/

/-- The patterns of keywords and names. -/
def Pattern.takesWords : Pattern → Bool
  | .keyword _ | .name => true
  | _ => false

/-- The patterns of numbers. -/
def Pattern.takesDigits : Pattern → Bool
  | .real | .int => true
  | _ => false

/-- What can be decided for the first characters of all fixed texts, one by one. -/
theorem forall_lead {P : Pattern → Char → Bool}
    (h : (Rule.all.all fun r => r.pattern.lead?.all (P r.pattern)) = true) :
    ∀ r ∈ Rule.all, ∀ c ∈ r.pattern.lead?, P r.pattern c = true := by
  intro r hr c hc
  have hlead := List.all_eq_true.1 h r hr
  rw [Option.mem_def.1 hc] at hlead
  exact hlead

/-- Fixed texts and strings start with no blank and no digit, and of them only keywords with a character
that names start with. -/
theorem lead_classes : ∀ r ∈ Rule.all, ∀ c ∈ r.pattern.lead?,
    isBlank c = false ∧ isDigit c = false ∧ isNameStart c = r.pattern.takesWords := by
  let P (p : Pattern) (c : Char) : Bool :=
    !isBlank c && !isDigit c && isNameStart c == p.takesWords
  have hleads : ∀ r ∈ Rule.all, ∀ c ∈ r.pattern.lead?, P r.pattern c = true :=
    forall_lead (by decide +kernel)
  intro r hr c hc
  simpa [P, and_assoc] using hleads r hr c hc

section First
variable {c : Char} {cs rest : List Char}

theorem firstPiece?_eq_of_first (keep : Pattern → Bool)
    (h : ∀ r ∈ Rule.all, r.pattern.startsWith c = true → keep r.pattern = true) :
    firstPiece? Rule.all (c :: cs) = firstPiece? (Rule.all.filter fun r => keep r.pattern) (c :: cs) := by
  refine firstPiece?_filter _ fun r hr hkeep => Pattern.taken_of_not_startsWith ?_ cs
  cases hstarts : r.pattern.startsWith c with
  | false => rfl
  | true =>
    rw [h r hr hstarts] at hkeep
    cases hkeep

/-- Blanks are taken as far as they go. -/
theorem firstPiece?_blanks (hc : isBlank c = true) :
    firstPiece? Rule.all (c :: cs) = some ⟨none, c :: cs.takeWhile isBlank⟩ := by
  have hkeep : ∀ r ∈ Rule.all, r.pattern.startsWith c = true → (r.pattern == .blanks) = true := by
    intro r hr hstarts
    have hlead := lead_classes r hr c
    cases hp : r.pattern <;> rw [hp] at hstarts hlead
    case blanks => rfl
    case name =>
      have hword := (isWord_of_isNameStart hstarts).1
      rw [isWord_of_isBlank hc] at hword
      cases hword
    case real | int =>
      have hdigit : isDigit c = true := hstarts
      rw [isDigit_of_isBlank hc] at hdigit
      cases hdigit
    all_goals
      have hblank := (hlead (eq_of_beq hstarts)).1
      rw [hc] at hblank
      cases hblank
  rw [firstPiece?_eq_of_first (· == .blanks) hkeep]
  refine firstPiece?_cons_of_cons (r := ⟨none, .blanks⟩) ?_
  simp [Pattern.taken, hc]

/-! ### Words -/

/-- The kind of a word: a keyword or a name. -/
def wordKind (word : List Char) : Kind :=
  if word = ['v', 'a', 'r'] then .var
  else if word = ['o', 'u', 't'] then .out
  else if word = ['p', 'r', 'i', 'n', 't'] then .print
  else .name

theorem wordKind_of_not_mem {word : List Char} (h : word ∉ keywords) : wordKind word = .name := by
  simp only [keywords, List.mem_cons, List.not_mem_nil, or_false, not_or] at h
  unfold wordKind
  rw [if_neg h.1, if_neg h.2.1, if_neg h.2.2]

theorem isText_wordKind (hc : isNameStart c = true) (hcs : ∀ d ∈ cs, isWord d = true) :
    IsText (wordKind (c :: cs)) (c :: cs) := by
  by_cases hkey : c :: cs ∈ keywords
  · simp only [keywords, List.mem_cons, List.not_mem_nil, or_false] at hkey
    rcases hkey with h | h | h <;> rw [h] <;> exact .fixed rfl
  · rw [wordKind_of_not_mem hkey]
    exact .name hc hcs hkey

theorem endsBefore_wordKind (word : List Char) (d : Char) :
    (wordKind word).endsBefore d = !isWord d := by
  unfold wordKind
  split
  · rfl
  · split
    · rfl
    · split <;> rfl

/-- The rule of a keyword applies where the longest word is the keyword. -/
theorem firstPiece?_cons_keyword {k : Kind} {rules : List Rule} {word longest : List Char}
    (hword : word ∈ keywords) (hlongest : cs.takeWhile isWord = longest) :
    firstPiece? (⟨some k, .keyword word⟩ :: rules) cs =
      if longest = word then some ⟨some k, longest⟩ else firstPiece? rules cs := by
  have hwords : ∀ word ∈ keywords, word ≠ [] ∧ word.all isWord = true := by decide +kernel
  obtain ⟨hne, hletters⟩ := hwords word hword
  have htaken := Pattern.taken_keyword (List.all_eq_true.1 hletters) cs
  rw [hlongest] at htaken
  by_cases h : longest = word
  · rw [if_pos h] at htaken ⊢
    obtain ⟨d, ds, rfl⟩ := List.exists_cons_of_ne_nil hne
    rw [h]
    exact firstPiece?_cons_of_cons htaken
  · rw [if_neg h] at htaken ⊢
    exact firstPiece?_cons_of_nil htaken

theorem firstPiece?_word (hc : isNameStart c = true) (hcs : ∀ d ∈ cs, isWord d = true)
    (hrest : ∀ d ∈ rest.head?, isWord d = false) :
    firstPiece? Rule.all (c :: (cs ++ rest)) = some ⟨some (wordKind (c :: cs)), c :: cs⟩ := by
  have hkeep : ∀ r ∈ Rule.all, r.pattern.startsWith c = true → r.pattern.takesWords = true := by
    intro r hr hstarts
    have hlead := lead_classes r hr c
    cases hp : r.pattern <;> rw [hp] at hstarts hlead
    case keyword | name => rfl
    case blanks =>
      have hword := isWord_of_isBlank hstarts
      rw [(isWord_of_isNameStart hc).1] at hword
      cases hword
    case real | int =>
      have hdigit : isDigit c = true := hstarts
      rw [(isWord_of_isNameStart hc).2] at hdigit
      cases hdigit
    all_goals exact (hlead (eq_of_beq hstarts)).2.2.symm.trans hc
  have hfilter : (Rule.all.filter fun r => r.pattern.takesWords) =
      [⟨some .var, .keyword ['v', 'a', 'r']⟩, ⟨some .out, .keyword ['o', 'u', 't']⟩,
        ⟨some .print, .keyword ['p', 'r', 'i', 'n', 't']⟩, ⟨some .name, .name⟩] := by
    decide
  have hlongest : (c :: (cs ++ rest)).takeWhile isWord = c :: cs :=
    takeWhile_of_run (List.forall_mem_cons.2 ⟨(isWord_of_isNameStart hc).1, hcs⟩) hrest
  have hname : Pattern.name.taken (c :: (cs ++ rest)) = c :: cs := by
    simp only [Pattern.taken, hc, if_true, takeWhile_of_run hcs hrest]
  rw [firstPiece?_eq_of_first Pattern.takesWords hkeep, hfilter,
    firstPiece?_cons_keyword (by simp [keywords]) hlongest,
    firstPiece?_cons_keyword (by simp [keywords]) hlongest,
    firstPiece?_cons_keyword (by simp [keywords]) hlongest, firstPiece?_cons_of_cons hname]
  unfold wordKind
  split
  · rfl
  · split
    · rfl
    · split <;> rfl

/-! ### Numbers -/

theorem firstPiece?_eq_of_isDigit (hc : isDigit c = true) :
    firstPiece? Rule.all (c :: cs) =
      firstPiece? [⟨some .real, .real⟩, ⟨some .int, .int⟩] (c :: cs) := by
  have hkeep : ∀ r ∈ Rule.all, r.pattern.startsWith c = true → r.pattern.takesDigits = true := by
    intro r hr hstarts
    have hlead := lead_classes r hr c
    cases hp : r.pattern <;> rw [hp] at hstarts hlead
    case real | int => rfl
    case blanks =>
      have hdigit := isDigit_of_isBlank hstarts
      rw [hc] at hdigit
      cases hdigit
    case name =>
      have hdigit := (isWord_of_isNameStart hstarts).2
      rw [hc] at hdigit
      cases hdigit
    all_goals
      have hdigit := (hlead (eq_of_beq hstarts)).2.1
      rw [hc] at hdigit
      cases hdigit
  have hfilter : (Rule.all.filter fun r => r.pattern.takesDigits) =
      [⟨some .real, .real⟩, ⟨some .int, .int⟩] := by
    decide
  rw [firstPiece?_eq_of_first Pattern.takesDigits hkeep, hfilter]

theorem firstPiece?_int (hc : isDigit c = true) (hcs : ∀ d ∈ cs, isDigitOrUnderscore d = true)
    (hrest : EndsBefore .int rest) :
    firstPiece? Rule.all (c :: (cs ++ rest)) = some ⟨some .int, c :: cs⟩ := by
  have hend : ∀ d ∈ rest.head?, isDigitOrUnderscore d = false ∧ d ≠ '.' := by
    intro d hd
    simpa [Kind.endsBefore] using hrest d hd
  have hdigits := takenDigits_of_run hc hcs fun d hd => (hend d hd).1
  have hreal : Pattern.real.taken (c :: (cs ++ rest)) = [] := by
    simp only [Pattern.taken, hdigits]
    rw [← List.cons_append, List.drop_left]
    cases rest with
    | nil => rfl
    | cons d rest =>
      have hd : d ≠ '.' := (hend d rfl).2
      simp [hd]
  rw [firstPiece?_eq_of_isDigit hc, firstPiece?_cons_of_nil hreal]
  exact firstPiece?_cons_of_cons hdigits

theorem firstPiece?_real {ds : List Char} (hc : isDigit c = true)
    (hcs : ∀ d ∈ cs, isDigitOrUnderscore d = true) (hds : ∀ d ∈ ds, isDigitOrUnderscore d = true)
    (hrest : EndsBefore .real rest) :
    firstPiece? Rule.all (c :: (cs ++ '.' :: (ds ++ rest))) =
      some ⟨some .real, c :: (cs ++ '.' :: ds)⟩ := by
  have hend : ∀ d ∈ rest.head?, isDigitOrUnderscore d = false := by
    intro d hd
    simpa [Kind.endsBefore] using hrest d hd
  have hpoint : isDigitOrUnderscore '.' = false := by decide +kernel
  have hdigits : takenDigits (c :: (cs ++ '.' :: (ds ++ rest))) = c :: cs :=
    takenDigits_of_run hc hcs (by simpa using hpoint)
  have hreal : Pattern.real.taken (c :: (cs ++ '.' :: (ds ++ rest))) = c :: (cs ++ '.' :: ds) := by
    simp only [Pattern.taken, hdigits]
    rw [← List.cons_append, List.drop_left]
    simp only [takeWhile_of_run hds hend, List.cons_append]
  rw [firstPiece?_eq_of_isDigit hc]
  exact firstPiece?_cons_of_cons hreal

/-! ### Strings and symbols -/

theorem firstPiece?_eq_of_quote (cs : List Char) :
    firstPiece? Rule.all ('"' :: cs) = firstPiece? [⟨some .string, .string⟩] ('"' :: cs) := by
  have hkeep : ∀ r ∈ Rule.all, r.pattern.startsWith '"' = true → (r.pattern == .string) = true := by
    decide +kernel
  exact firstPiece?_eq_of_first (· == .string) hkeep

theorem firstPiece?_string (h : '"' ∉ cs) :
    firstPiece? Rule.all ('"' :: (cs ++ '"' :: rest)) =
      some ⟨some .string, '"' :: (cs ++ ['"'])⟩ := by
  have hcs : ∀ d ∈ cs, (d != '"') = true := by
    intro d hd
    simp only [bne_iff_ne]
    rintro rfl
    exact h hd
  have hbody : (cs ++ '"' :: rest).takeWhile (· != '"') = cs := takeWhile_of_run hcs (by simp)
  have htaken : Pattern.string.taken ('"' :: (cs ++ '"' :: rest)) = '"' :: (cs ++ ['"']) := by
    simp only [Pattern.taken, hbody, List.drop_left, List.cons_append]
  rw [firstPiece?_eq_of_quote]
  exact firstPiece?_cons_of_cons htaken

/-- A minus sign alone, where no arrow starts. -/
theorem firstPiece?_minus (hrest : EndsBefore .minus rest) :
    firstPiece? Rule.all ('-' :: rest) = some ⟨some .minus, ['-']⟩ := by
  cases rest with
  | nil => rfl
  | cons d rest =>
    have hd : ('>' == d) = false := by
      have hend : (d != '>') = true := hrest d rfl
      rw [bne_iff_ne] at hend
      exact beq_eq_false_iff_ne.2 hend.symm
    have harrow : (Pattern.exactly ['-', '>']).taken ('-' :: d :: rest) = [] := by
      simp [Pattern.taken, List.isPrefixOf, hd]
    have hkeep : ∀ r ∈ Rule.all, r.pattern.startsWith '-' = true →
        (r.pattern.lead? == some '-') = true := by
      decide +kernel
    have hfilter : (Rule.all.filter fun r => r.pattern.lead? == some '-') =
        [⟨some .arrow, .exactly ['-', '>']⟩, ⟨some .minus, .exactly ['-']⟩] := by
      decide
    rw [firstPiece?_eq_of_first (fun p => p.lead? == some '-') hkeep, hfilter,
      firstPiece?_cons_of_nil harrow]
    exact firstPiece?_cons_of_cons rfl

theorem firstPiece?_keyword {k : Kind} {chars : List Char} (h : k.fixed? = some chars)
    (hword : chars ∈ keywords) (hrest : EndsBefore k rest) :
    firstPiece? Rule.all (chars ++ rest) = some ⟨some k, chars⟩ := by
  have hk : wordKind chars = k := by
    simp only [keywords, List.mem_cons, List.not_mem_nil, or_false] at hword
    rcases hword with rfl | rfl | rfl <;> cases k <;> cases h <;> rfl
  have hletters : ∀ word ∈ keywords, word.all isNameStart = true := by decide +kernel
  cases chars with
  | nil => simp [keywords] at hword
  | cons c cs =>
    obtain ⟨hc, hcs⟩ := List.forall_mem_cons.1 (List.all_eq_true.1 (hletters _ hword))
    rw [List.cons_append, ← hk]
    refine firstPiece?_word hc (fun d hd => (isWord_of_isNameStart (hcs d hd)).1) fun d hd => ?_
    have hend := hrest d hd
    rw [← hk, endsBefore_wordKind] at hend
    simpa using hend

/-- The other fixed texts are symbols, and none but the minus sign starts a longer one. -/
theorem firstPiece?_symbol {k : Kind} {chars : List Char} (h : k.fixed? = some chars)
    (hword : chars ∉ keywords) (hminus : k ≠ .minus) :
    firstPiece? Rule.all (chars ++ rest) = some ⟨some k, chars⟩ := by
  cases k <;> cases h
  case var | out | print => exact absurd (by simp [keywords]) hword
  case minus => exact absurd rfl hminus
  all_goals rfl

/-- The kinds whose only text is one character that starts no other token. -/
def symbolKinds : List Kind :=
  [.assign, .leftParen, .rightParen, .leftBrace, .rightBrace, .comma, .plus, .star, .slash, .caret]

theorem endsBefore_of_mem_symbolKinds {k : Kind} (h : k ∈ symbolKinds) (d : Char) :
    k.endsBefore d = true := by
  simp only [symbolKinds, List.mem_cons, List.not_mem_nil, or_false] at h
  rcases h with rfl | rfl | rfl | rfl | rfl | rfl | rfl | rfl | rfl | rfl <;> rfl

/-- Characters of no class start no token. -/
theorem firstPiece?_eq_none (hblank : isBlank c = false) (hname : isNameStart c = false)
    (hdigit : isDigit c = false) (hquote : c ≠ '"') (hminus : c ≠ '-')
    (hsymbol : ∀ k ∈ symbolKinds, k.fixed? ≠ some [c]) :
    firstPiece? Rule.all (c :: cs) = none := by
  let P (_ : Pattern) (c : Char) : Bool :=
    isNameStart c || c == '"' || c == '-' || symbolKinds.any fun k => k.fixed? == some [c]
  have hleads : ∀ r ∈ Rule.all, ∀ c ∈ r.pattern.lead?, P r.pattern c = true :=
    forall_lead (by decide +kernel)
  have hkeep : ∀ r ∈ Rule.all, r.pattern.startsWith c = true → false = true := by
    intro r hr hstarts
    have hlead := hleads r hr c
    cases hp : r.pattern <;> rw [hp] at hstarts hlead
    case blanks => exact hblank.symm.trans hstarts
    case name => exact hname.symm.trans hstarts
    case real | int => exact hdigit.symm.trans hstarts
    all_goals
      have hclass := hlead (eq_of_beq hstarts)
      simp only [P, Bool.or_eq_true, beq_iff_eq, List.any_eq_true] at hclass
      rcases hclass with ((h | h) | h) | ⟨k, hk, h⟩
      · exact hname.symm.trans h
      · exact absurd h hquote
      · exact absurd h hminus
      · exact absurd h (hsymbol k hk)
  rw [firstPiece?_eq_of_first (fun _ => false) hkeep]
  rfl

end First

/-! ## Exactness -/

section Exactness
variable {k : Kind} {c : Char} {chars rest cs : List Char}

/-- Where a text of a kind stands and ends, it is taken as a token of this kind. -/
theorem firstPiece?_of_isText (h : IsText k chars) (hrest : EndsBefore k rest) :
    firstPiece? Rule.all (chars ++ rest) = some ⟨some k, chars⟩ := by
  cases h with
  | fixed h =>
    by_cases hword : chars ∈ keywords
    · exact firstPiece?_keyword h hword hrest
    · by_cases hminus : k = .minus
      · subst hminus
        cases h
        exact firstPiece?_minus hrest
      · exact firstPiece?_symbol h hword hminus
  | name hc hcs hkey =>
    rw [← wordKind_of_not_mem hkey]
    refine firstPiece?_word hc hcs fun d hd => ?_
    simpa [Kind.endsBefore] using hrest d hd
  | int hc hcs => exact firstPiece?_int hc hcs hrest
  | real hc hcs hds =>
    rw [List.cons_append, List.append_assoc, List.cons_append]
    exact firstPiece?_real hc hcs hds hrest
  | string h =>
    rw [List.cons_append, List.append_assoc]
    exact firstPiece?_string h

/-- The front of `cs` is a text of the kind, which ends there. -/
def Fronts (cs : List Char) (k : Kind) (chars : List Char) : Prop :=
  ∃ rest, cs = chars ++ rest ∧ IsText k chars ∧ EndsBefore k rest

theorem fronts_word (hc : isNameStart c = true) : ∃ k chars, Fronts (c :: cs) k chars := by
  refine ⟨wordKind (c :: cs.takeWhile isWord), c :: cs.takeWhile isWord, cs.dropWhile isWord, ?_, ?_, ?_⟩
  · rw [List.cons_append, List.takeWhile_append_dropWhile]
  · exact isText_wordKind hc (forall_takeWhile cs)
  · intro d hd
    rw [endsBefore_wordKind, head_dropWhile cs d hd]
    rfl

theorem fronts_digits (hc : isDigit c = true) : ∃ k chars, Fronts (c :: cs) k chars := by
  have hsplit : cs = cs.takeWhile isDigitOrUnderscore ++ cs.dropWhile isDigitOrUnderscore :=
    List.takeWhile_append_dropWhile.symm
  have hcs := forall_takeWhile (p := isDigitOrUnderscore) cs
  have hend := head_dropWhile (p := isDigitOrUnderscore) cs
  generalize cs.takeWhile isDigitOrUnderscore = ds at hsplit hcs
  generalize cs.dropWhile isDigitOrUnderscore = rest at hsplit hend
  subst hsplit
  by_cases hpoint : rest.head? = some '.'
  · obtain ⟨rest, rfl⟩ := List.head?_eq_some_iff.1 hpoint
    refine ⟨.real, c :: (ds ++ '.' :: rest.takeWhile isDigitOrUnderscore),
      rest.dropWhile isDigitOrUnderscore, ?_, .real hc hcs (forall_takeWhile rest), ?_⟩
    · rw [List.cons_append, List.append_assoc, List.cons_append, List.takeWhile_append_dropWhile]
    · intro d hd
      simp [Kind.endsBefore, head_dropWhile rest d hd]
  · refine ⟨.int, c :: ds, rest, rfl, .int hc hcs, fun d hd => ?_⟩
    have hd' : d ≠ '.' := by
      rintro rfl
      exact hpoint hd
    simp [Kind.endsBefore, hend d hd, hd']

/-- After a quote a string is taken, or nothing. -/
theorem fronts_quote {piece : Piece} (h : firstPiece? Rule.all ('"' :: cs) = some piece) :
    ∃ k chars, Fronts ('"' :: cs) k chars := by
  have hsplit : cs = cs.takeWhile (· != '"') ++ cs.dropWhile (· != '"') :=
    List.takeWhile_append_dropWhile.symm
  have hcs := forall_takeWhile (p := (· != '"')) cs
  have hend := head_dropWhile (p := (· != '"')) cs
  generalize cs.takeWhile (· != '"') = ds at hsplit hcs
  generalize cs.dropWhile (· != '"') = rest at hsplit hend
  subst hsplit
  have hquote : '"' ∉ ds := fun hmem => by simpa using hcs '"' hmem
  cases rest with
  | nil =>
    have htaken : Pattern.string.taken ('"' :: (ds ++ [])) = [] := by
      have hbody : (ds ++ []).takeWhile (· != '"') = ds := takeWhile_of_run hcs (by simp)
      simp only [Pattern.taken, hbody, List.drop_left]
    rw [firstPiece?_eq_of_quote, firstPiece?_cons_of_nil htaken] at h
    cases h
  | cons d rest =>
    have hd : d = '"' := by simpa using hend d rfl
    subst hd
    refine ⟨.string, '"' :: (ds ++ ['"']), rest, ?_, .string hquote, fun _ _ => rfl⟩
    rw [List.cons_append, List.append_assoc]
    rfl

theorem fronts_minus (cs : List Char) : ∃ k chars, Fronts ('-' :: cs) k chars := by
  by_cases hangle : cs.head? = some '>'
  · obtain ⟨rest, rfl⟩ := List.head?_eq_some_iff.1 hangle
    exact ⟨.arrow, ['-', '>'], rest, rfl, .fixed rfl, fun _ _ => rfl⟩
  · refine ⟨.minus, ['-'], cs, rfl, .fixed rfl, fun d hd => ?_⟩
    have hd' : d ≠ '>' := by
      rintro rfl
      exact hangle hd
    simp [Kind.endsBefore, hd']

/-- Where no blank comes first and a rule applies, a text of some kind stands and ends. The cases are
those of the first character. -/
theorem exists_fronts {piece : Piece} (hblank : isBlank c = false)
    (h : firstPiece? Rule.all (c :: cs) = some piece) : ∃ k chars, Fronts (c :: cs) k chars := by
  by_cases hname : isNameStart c = true
  · exact fronts_word hname
  by_cases hdigit : isDigit c = true
  · exact fronts_digits hdigit
  by_cases hquote : c = '"'
  · subst hquote
    exact fronts_quote h
  by_cases hminus : c = '-'
  · subst hminus
    exact fronts_minus cs
  by_cases hsymbol : ∃ k ∈ symbolKinds, k.fixed? = some [c]
  · obtain ⟨k, hk, hfixed⟩ := hsymbol
    exact ⟨k, [c], cs, rfl, .fixed hfixed, fun d _ => endsBefore_of_mem_symbolKinds hk d⟩
  · have hnone : firstPiece? Rule.all (c :: cs) = none :=
      firstPiece?_eq_none hblank (Bool.eq_false_iff.2 hname) (Bool.eq_false_iff.2 hdigit) hquote hminus
        fun k hk hfixed => hsymbol ⟨k, hk, hfixed⟩
    rw [hnone] at h
    cases h

/-- What is taken as a token is a text of its kind and ends where it may. -/
theorem isText_of_firstPiece? (h : firstPiece? Rule.all cs = some ⟨some k, chars⟩) :
    Fronts cs k chars := by
  cases cs with
  | nil => cases h
  | cons c cs =>
    cases hblank : isBlank c with
    | true =>
      rw [firstPiece?_blanks hblank] at h
      cases h
    | false =>
      obtain ⟨k', chars', rest, hsplit, htext, hrest⟩ := exists_fronts hblank h
      have htaken := firstPiece?_of_isText htext hrest
      rw [← hsplit, h] at htaken
      cases htaken
      exact ⟨rest, hsplit, htext, hrest⟩

/-- What is skipped are blanks. -/
theorem isBlank_of_firstPiece? (h : firstPiece? Rule.all cs = some ⟨none, chars⟩) :
    ∃ rest, cs = chars ++ rest ∧ chars ≠ [] ∧ ∀ d ∈ chars, isBlank d = true := by
  cases cs with
  | nil => cases h
  | cons c cs =>
    cases hblank : isBlank c with
    | true =>
      rw [firstPiece?_blanks hblank] at h
      cases h
      refine ⟨cs.dropWhile isBlank, ?_, List.cons_ne_nil _ _, ?_⟩
      · rw [List.cons_append, List.takeWhile_append_dropWhile]
      · exact List.forall_mem_cons.2 ⟨hblank, forall_takeWhile cs⟩
    | false =>
      obtain ⟨k, chars', rest, hsplit, htext, hrest⟩ := exists_fronts hblank h
      have htaken := firstPiece?_of_isText htext hrest
      rw [← hsplit, h] at htaken
      cases htaken

end Exactness

end Token

end RangeScript
