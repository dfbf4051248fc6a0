import RangeScript.Number.Whole

/-!
# Decimal texts

The text of a whole number is a minus sign if it is negative, and the digits of its magnitude
(`Whole.toList_text`). It is read back as the number (`Whole.ofText?_text`).
-/

namespace RangeScript.Whole

/-- The digits of the magnitude of a whole number. -/
def digits (n : Int64) : List Char := Nat.toDigits 10 n.toInt.natAbs

theorem digits_ne_nil (n : Int64) : digits n ≠ [] := Nat.toDigits_ne_nil

theorem isDigit_of_mem_digits {n : Int64} {c : Char} (h : c ∈ digits n) : c.isDigit = true :=
  Nat.isDigit_of_mem_toDigits (by decide) (by decide) h

theorem natOfDigits?_digits (n : Int64) : natOfDigits? (digits n) = some n.toInt.natAbs := by
  have hany : (digits n).any (! ·.isDigit) = false := by
    rw [List.any_eq_false]
    intro c hc
    rw [isDigit_of_mem_digits hc]
    decide
  have hvalue : valueOf (digits n) = n.toInt.natAbs := by
    rw [valueOf, ← Nat.ofDigitChars_eq_foldl]
    exact Nat.ofDigitChars_ten_toDigits
  rw [natOfDigits?, hany, hvalue, if_neg]
  simpa using digits_ne_nil n

theorem toList_text (n : Int64) :
    (text n).toList = (if n.toInt < 0 then ['-'] else []) ++ digits n := by
  unfold text digits
  rw [Int.toString_eq_repr, Int.repr_eq_if]
  by_cases hneg : n.toInt < 0
  · have hmagnitude : (-n.toInt).toNat = n.toInt.natAbs := by omega
    rw [if_neg (by omega), if_pos hneg, String.toList_append, Nat.toList_repr, hmagnitude]
    rfl
  · have hmagnitude : n.toInt.toNat = n.toInt.natAbs := by omega
    rw [if_pos (by omega), if_neg hneg, Nat.toList_repr, hmagnitude]
    rfl

theorem ofInt?_toInt (n : Int64) : ofInt? n.toInt = some n := by
  have hlo := n.le_toInt
  have hhi := n.toInt_lt
  rw [ofInt?, if_pos (by omega), Int64.ofInt_toInt]

/-- A digit is no sign. -/
theorem splitSign_cons {c : Char} {cs : List Char} (h : c.isDigit = true) : splitSign (c :: cs) = (false, c :: cs) := by
  unfold splitSign
  split
  · next rest heq => exact absurd ((List.cons.inj heq).1 ▸ h) (by decide)
  · next rest heq => exact absurd ((List.cons.inj heq).1 ▸ h) (by decide)
  · rfl

theorem splitSign_digits (n : Int64) : splitSign (digits n) = (false, digits n) := by
  obtain ⟨c, cs, hcs⟩ := List.exists_cons_of_ne_nil (digits_ne_nil n)
  have hc : c.isDigit = true := isDigit_of_mem_digits (hcs ▸ List.mem_cons_self)
  rw [hcs, splitSign_cons hc]

/-- A whole number is read back from its text. -/
theorem ofText?_text (n : Int64) : ofText? (text n) = some n := by
  unfold ofText?
  rw [toList_text]
  by_cases hneg : n.toInt < 0
  · have hvalue : -((n.toInt.natAbs : Nat) : Int) = n.toInt := by omega
    rw [if_pos hneg, List.singleton_append, splitSign]
    dsimp only
    rw [natOfDigits?_digits]
    dsimp only
    rw [if_pos rfl, hvalue, ofInt?_toInt]
  · have hvalue : ((n.toInt.natAbs : Nat) : Int) = n.toInt := by omega
    rw [if_neg hneg, List.nil_append, splitSign_digits]
    dsimp only
    rw [natOfDigits?_digits]
    dsimp only
    rw [if_neg Bool.false_ne_true, hvalue, ofInt?_toInt]

end RangeScript.Whole
