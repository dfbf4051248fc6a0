import RangeScript.Proofs.DecimalText
import RangeScript.Proofs.Homogeneity
import RangeScript.Proofs.TokenTexts

/-!
# Texts of values are unambiguous

A value has a text exactly if no lambda stands in it (`Value.render_eq_error_iff`). Numbers of any width stand in a
text with separators between them and brackets around them, so a text of whole numbers and sequences can be read in
one way only.

* `Value.isWhole v` : whole numbers and sequences of such;
* `Value.chars v` : the characters of the text of a value without lambdas;
* `Value.EndsNumber rest` : a number that stands before `rest` ends there.

Where two texts start in one place, they are of values that are the same, and they end in one place, provided that
a number in front would end there (`Value.same_of_chars`).
-/

namespace RangeScript

namespace Value

/-! ## Values that have no text -/

mutual

theorem exists_occurs_of_isData : (v : Value) → v.isData = false → ∃ c, (Value.lambda c).Occurs v
  | .int _, h => by cases h
  | .real _, h => by cases h
  | .seq elements _, h => by
    rw [isData] at h
    obtain ⟨c, v, hv, hocc⟩ := exists_occurs_of_areData elements h
    exact ⟨c, .inside hv hocc⟩
  | .lambda c, _ => ⟨c, .self⟩

theorem exists_occurs_of_areData :
    (vs : List Value) → areData vs = false → ∃ c, ∃ v ∈ vs, (Value.lambda c).Occurs v
  | [], h => by cases h
  | v :: vs, h => by
    rw [areData, Bool.and_eq_false_iff] at h
    rcases h with h | h
    · obtain ⟨c, hocc⟩ := exists_occurs_of_isData v h
      exact ⟨c, v, List.mem_cons_self, hocc⟩
    · obtain ⟨c, w, hw, hocc⟩ := exists_occurs_of_areData vs h
      exact ⟨c, w, List.mem_cons_of_mem v hw, hocc⟩

end

theorem isData_of_occurs {c : Closure Value} {v : Value} (h : (Value.lambda c).Occurs v) : v.isData = false := by
  induction h with
  | self => rfl
  | inside hmem _ ih =>
    rw [isData, Bool.eq_false_iff]
    intro hall
    rw [areData_iff.1 hall _ hmem] at ih
    cases ih

mutual

/-- The characters of the text of a value; a lambda has none. -/
def chars : Value → List Char
  | int n => (Whole.text n).toList
  | real x => (Real.text x).toList
  | seq elements _ => '[' :: charsAll [] elements
  | lambda _ => []

/-- The characters of the elements of a sequence with `separator` in front of the first, and the closing bracket. -/
def charsAll (separator : List Char) : List Value → List Char
  | [] => [']']
  | v :: vs => separator ++ (v.chars ++ charsAll [',', ' '] vs)

end

mutual

/-- Data are written behind what was written before. -/
theorem renderAfter_of_isData :
    (v : Value) → v.isData = true → ∀ before, v.renderAfter before = .ok (before ++ String.ofList v.chars)
  | .int n, _, before => by
    rw [renderAfter, chars, String.ofList_toList]
  | .real x, _, before => by
    rw [renderAfter, chars, String.ofList_toList]
  | .seq elements _, h, before => by
    rw [isData] at h
    rw [renderAfter, ← String.ofList_nil, renderAllAfter_of_areData elements h, chars, String.append_assoc,
      String.ofList_cons]
    rfl

theorem renderAllAfter_of_areData :
    (vs : List Value) → areData vs = true → ∀ (before : String) (separator : List Char),
    renderAllAfter before (String.ofList separator) vs =
      .ok (before ++ String.ofList (charsAll separator vs))
  | [], _, before, separator => by
    rw [renderAllAfter, charsAll]
  | v :: vs, h, before, separator => by
    rw [areData, Bool.and_eq_true] at h
    rw [renderAllAfter, renderAfter_of_isData v h.1]
    dsimp only
    rw [show ", " = String.ofList [',', ' '] from rfl, renderAllAfter_of_areData vs h.2, charsAll,
      String.ofList_append, String.ofList_append, String.append_assoc, String.append_assoc]

end

mutual

/-- Of the lambdas in a value the first to be reached stops its text. -/
theorem renderAfter_of_not_isData :
    (v : Value) → v.isData = false → ∀ before, v.renderAfter before = .error .lambdaOutput
  | .int _, h, _ => by cases h
  | .real _, h, _ => by cases h
  | .seq elements _, h, before => by
    rw [isData] at h
    exact renderAllAfter_of_not_areData elements h _ _
  | .lambda _, _, _ => rfl

theorem renderAllAfter_of_not_areData :
    (vs : List Value) → areData vs = false → ∀ before separator,
    renderAllAfter before separator vs = .error .lambdaOutput
  | [], h, _, _ => by cases h
  | v :: vs, h, before, separator => by
    rw [areData] at h
    rw [renderAllAfter]
    cases hv : v.isData with
    | false => rw [renderAfter_of_not_isData v hv]
    | true =>
      rw [hv, Bool.true_and] at h
      rw [renderAfter_of_isData v hv]
      exact renderAllAfter_of_not_areData vs h _ _

end

theorem render_of_isData {v : Value} (h : v.isData = true) : v.render = .ok (String.ofList v.chars) := by
  rw [render, renderAfter_of_isData v h, String.empty_append]

/-- Exactly the values that a lambda stands in have no text, and there is one reason for it. -/
theorem render_eq_error_iff {v : Value} {e : RunError} :
    v.render = .error e ↔ e = .lambdaOutput ∧ ∃ c, (Value.lambda c).Occurs v := by
  constructor
  · intro h
    cases hv : v.isData with
    | true =>
      rw [render_of_isData hv] at h
      cases h
    | false =>
      rw [render, renderAfter_of_not_isData v hv] at h
      cases h
      exact ⟨rfl, exists_occurs_of_isData v hv⟩
  · rintro ⟨rfl, c, hocc⟩
    exact renderAfter_of_not_isData v (isData_of_occurs hocc) _

/-! ## Where a text ends -/

/-- The characters that the text of a whole number has. -/
def isNumberChar (c : Char) : Bool := c.isDigit || c == '-'

theorem isNumberChar_of_mem {n : Int64} {c : Char} (h : c ∈ (Whole.text n).toList) : isNumberChar c = true := by
  rw [Whole.toList_text, List.mem_append] at h
  unfold isNumberChar
  rcases h with h | h
  · split at h
    · rw [List.mem_singleton.1 h]
      decide
    · cases h
  · rw [Whole.isDigit_of_mem_digits h, Bool.true_or]

/-- A number that stands before `rest` ends there. -/
def EndsNumber (rest : List Char) : Prop := ∀ c ∈ rest.head?, isNumberChar c = false

theorem endsNumber_nil : EndsNumber [] := by
  intro c hc
  cases hc

theorem endsNumber_cons {c : Char} {rest : List Char} (h : isNumberChar c = false) : EndsNumber (c :: rest) := by
  intro d hd
  cases hd
  exact h

/-- Behind an element of a sequence a separator or the closing bracket comes. -/
theorem endsNumber_charsAll (vs : List Value) (rest : List Char) :
    EndsNumber (charsAll [',', ' '] vs ++ rest) := by
  cases vs with
  | nil => exact endsNumber_cons (by decide)
  | cons v vs => exact endsNumber_cons (by decide)

/-- Of two numbers whose texts start in one place and end, both are the same and end in one place. -/
theorem text_append_inj {m n : Int64} {rest rest' : List Char} (hrest : EndsNumber rest)
    (hrest' : EndsNumber rest') (h : (Whole.text m).toList ++ rest = (Whole.text n).toList ++ rest') :
    m = n ∧ rest = rest' := by
  have hchars : (Whole.text m).toList = (Whole.text n).toList := by
    rw [← Token.takeWhile_of_run (fun _ => isNumberChar_of_mem) hrest, h,
      Token.takeWhile_of_run (fun _ => isNumberChar_of_mem) hrest']
  have hnumber : some m = some n := by
    rw [← Whole.ofText?_text m, String.toList_inj.1 hchars, Whole.ofText?_text]
  rw [hchars] at h
  exact ⟨Option.some.inj hnumber, List.append_cancel_left h⟩

/-- A number is not empty, and starts with nothing that a number does not have. -/
theorem text_append_ne {n : Int64} {c : Char} {rest cs : List Char} (hc : isNumberChar c = false) :
    (Whole.text n).toList ++ rest ≠ c :: cs := by
  intro h
  cases htext : (Whole.text n).toList with
  | nil =>
    rw [Whole.toList_text, List.append_eq_nil_iff] at htext
    exact Whole.digits_ne_nil n htext.2
  | cons d ds =>
    have hd : isNumberChar d = true := isNumberChar_of_mem (htext ▸ List.mem_cons_self)
    rw [htext, List.cons_append] at h
    rw [(List.cons.inj h).1, hc] at hd
    cases hd

/-! ## Values of whole numbers -/

mutual

/-- Whole numbers and sequences of such. -/
def isWhole : Value → Bool
  | int _ => true
  | seq elements _ => areWhole elements
  | _ => false

/-- All values are whole numbers or sequences of such. -/
def areWhole : List Value → Bool
  | [] => true
  | v :: vs => v.isWhole && areWhole vs

end

mutual

theorem isData_of_isWhole : (v : Value) → v.isWhole = true → v.isData = true
  | .int _, _ => rfl
  | .real _, h => by cases h
  | .seq elements _, h => by
    rw [isWhole] at h
    exact areData_of_areWhole elements h
  | .lambda _, h => by cases h

theorem areData_of_areWhole : (vs : List Value) → areWhole vs = true → areData vs = true
  | [], _ => rfl
  | v :: vs, h => by
    rw [areWhole, Bool.and_eq_true] at h
    rw [areData, isData_of_isWhole v h.1, areData_of_areWhole vs h.2, Bool.and_self]

end

/-- No text of a value starts with the bracket that closes a sequence. -/
theorem chars_append_ne {v : Value} (h : v.isWhole = true) (rest cs : List Char) : v.chars ++ rest ≠ ']' :: cs := by
  cases v with
  | int n => exact text_append_ne (by decide)
  | real x => cases h
  | seq elements noted =>
    intro heq
    exact absurd (List.cons.inj heq).1 (by decide)
  | lambda c => cases h

/-- An element of a sequence, with or without a separator in front of it, is no closing bracket. -/
theorem charsAll_cons_append_ne {v : Value} {vs : List Value} {separator rest cs : List Char} (h : v.isWhole = true)
    (hseparator : separator = [] ∨ separator = [',', ' ']) : charsAll separator (v :: vs) ++ rest ≠ ']' :: cs := by
  rcases hseparator with rfl | rfl
  · rw [charsAll, List.nil_append, List.append_assoc]
    exact chars_append_ne h _ cs
  · intro heq
    exact absurd (List.cons.inj heq).1 (by decide)

/-! ## Reading a text back -/

mutual

/-- Texts that start in one place are of values that are the same, and end in one place. -/
theorem same_of_chars (copies : Bool) :
    (v : Value) → v.isWhole = true → ∀ w : Value, w.isWhole = true → ∀ rest rest' : List Char,
    EndsNumber rest → EndsNumber rest' → v.chars ++ rest = w.chars ++ rest' →
    v.same copies w = true ∧ rest = rest'
  | .int m, _, .int n, _, rest, rest', hrest, hrest', h => by
    obtain ⟨rfl, hrests⟩ := text_append_inj hrest hrest' h
    exact ⟨beq_self_eq_true m, hrests⟩
  | .int m, _, .seq elements _, _, rest, rest', _, _, h => by
    exact absurd h (text_append_ne (by decide))
  | .seq elements _, _, .int n, _, rest, rest', _, _, h => by
    exact absurd h.symm (text_append_ne (by decide))
  | .seq vs _, hv, .seq ws _, hw, rest, rest', _, _, h => by
    rw [isWhole] at hv hw
    exact sameAll_of_charsAll copies vs hv ws hw [] rest rest' (.inl rfl) (List.cons.inj h).2
  | .int _, _, .real _, hw, _, _, _, _, _ => by cases hw
  | .int _, _, .lambda _, hw, _, _, _, _, _ => by cases hw
  | .seq _ _, _, .real _, hw, _, _, _, _, _ => by cases hw
  | .seq _ _, _, .lambda _, hw, _, _, _, _, _ => by cases hw
  | .real _, hv, _, _, _, _, _, _, _ => by cases hv
  | .lambda _, hv, _, _, _, _, _, _, _ => by cases hv

theorem sameAll_of_charsAll (copies : Bool) :
    (vs : List Value) → areWhole vs = true → ∀ ws : List Value, areWhole ws = true →
    ∀ separator rest rest' : List Char, separator = [] ∨ separator = [',', ' '] →
    charsAll separator vs ++ rest = charsAll separator ws ++ rest' →
    sameAll copies vs ws = true ∧ rest = rest'
  | [], _, [], _, _, rest, rest', _, h => by
    exact ⟨rfl, (List.cons.inj h).2⟩
  | [], _, w :: ws, hws, separator, rest, rest', hseparator, h => by
    rw [areWhole, Bool.and_eq_true] at hws
    exact absurd h.symm (charsAll_cons_append_ne hws.1 hseparator)
  | v :: vs, hvs, [], _, separator, rest, rest', hseparator, h => by
    rw [areWhole, Bool.and_eq_true] at hvs
    exact absurd h (charsAll_cons_append_ne hvs.1 hseparator)
  | v :: vs, hvs, w :: ws, hws, separator, rest, rest', _, h => by
    rw [areWhole, Bool.and_eq_true] at hvs hws
    rw [charsAll, charsAll, List.append_assoc, List.append_assoc, List.append_assoc, List.append_assoc] at h
    -- A separator or the closing bracket comes next, so the two first elements end in one place.
    obtain ⟨hsame, htail⟩ := same_of_chars copies v hvs.1 w hws.1 _ _ (endsNumber_charsAll vs rest)
      (endsNumber_charsAll ws rest') (List.append_cancel_left h)
    obtain ⟨hall, hrests⟩ :=
      sameAll_of_charsAll copies vs hvs.2 ws hws.2 _ rest rest' (.inr rfl) htail
    rw [sameAll, hsame, hall]
    exact ⟨rfl, hrests⟩

end

mutual

/-- Values that are the same have one text. -/
theorem chars_of_same (copies : Bool) :
    (v : Value) → v.isWhole = true → ∀ w : Value, v.same copies w = true → v.chars = w.chars
  | .int m, _, .int n, h => by
    rw [same, beq_iff_eq] at h
    rw [h]
  | .seq vs _, hv, .seq ws _, h => by
    rw [isWhole] at hv
    rw [same] at h
    rw [chars, chars, charsAll_of_sameAll copies vs hv ws h]
  | .int _, _, .real _, h => by cases h
  | .int _, _, .seq _ _, h => by cases h
  | .int _, _, .lambda _, h => by cases h
  | .seq _ _, _, .int _, h => by cases h
  | .seq _ _, _, .real _, h => by cases h
  | .seq _ _, _, .lambda _, h => by cases h
  | .real _, hv, _, _ => by cases hv
  | .lambda _, hv, _, _ => by cases hv

theorem charsAll_of_sameAll (copies : Bool) :
    (vs : List Value) → areWhole vs = true → ∀ ws : List Value, sameAll copies vs ws = true →
    ∀ separator, charsAll separator vs = charsAll separator ws
  | [], _, [], _, _ => rfl
  | [], _, _ :: _, h, _ => by cases h
  | _ :: _, _, [], h, _ => by cases h
  | v :: vs, hvs, w :: ws, h, separator => by
    rw [areWhole, Bool.and_eq_true] at hvs
    rw [sameAll, Bool.and_eq_true] at h
    rw [charsAll, charsAll, chars_of_same copies v hvs.1 w h.1, charsAll_of_sameAll copies vs hvs.2 ws h.2]

end

theorem render_eq_iff {v w : Value} (hv : v.isWhole = true) (hw : w.isWhole = true) (copies : Bool) :
    v.render = w.render ↔ v.same copies w = true := by
  rw [render_of_isData (isData_of_isWhole v hv), render_of_isData (isData_of_isWhole w hw)]
  constructor
  · intro h
    have hchars : v.chars ++ [] = w.chars ++ [] := by
      rw [String.ofList_injective (Except.ok.inj h)]
    exact (same_of_chars copies v hv w hw [] [] endsNumber_nil endsNumber_nil hchars).1
  · intro h
    rw [chars_of_same copies v hv w h]

end Value

/-- A value has no text exactly if a lambda stands in it, however deep, and then the reason is that lambdas have
none. Two values of whole numbers and sequences have one text exactly if they are the same, whatever their sequences
note. -/
theorem rendering_unambiguous :
    (∀ (v : Value) (e : RunError),
      v.render = .error e ↔ e = .lambdaOutput ∧ ∃ c, (Value.lambda c).Occurs v) ∧
    ∀ v w : Value, v.isWhole = true → w.isWhole = true → ∀ copies,
      (v.render = w.render ↔ v.same copies w = true) :=
  ⟨fun _ _ => Value.render_eq_error_iff, fun _ _ hv hw copies => Value.render_eq_iff hv hw copies⟩

/-- `[[1, -2], []]` is one text, whatever is noted with the sequences, and `[[1], [-2]]` is another. -/
theorem rendering_unambiguous_nested :
    (Value.seq [.seq [.int 1, .int (-2)] .int, .seq [] .nothing] (.seq .int)).render =
      (Value.seq [.seq [.int 1, .int (-2)] .nothing, .seq [] .int] .nothing).render ∧
    (Value.seq [.seq [.int 1, .int (-2)] .int, .seq [] .nothing] (.seq .int)).render ≠
      (Value.seq [.seq [.int 1] .int, .seq [.int (-2)] .int] (.seq .int)).render := by
  constructor
  · exact (rendering_unambiguous.2 _ _ (by decide) (by decide) false).2 (by decide)
  · intro h
    exact absurd ((rendering_unambiguous.2 _ _ (by decide) (by decide) false).1 h) (by decide)

end RangeScript
