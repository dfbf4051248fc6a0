import RangeScript.Token.Basic

/-!
# What was expected, and where

Reading tries alternatives, and each attempt that gives up notes what it expected at which token.
Of these notes only those at the furthest token count: they make the error if nothing can be read.
Notes are joined in the order in which they are made (`Notes.join`), and joining is associative.
-/

namespace RangeScript.Parse

/-- What an attempt may have expected. -/
inductive Expectation
  | token (kind : Token.Kind)
  | statement
  | expression
  | number
  | operator
  | rankedOperator
  | shallowerNesting
  | endOfInput
deriving DecidableEq, Repr

def Expectation.text : Expectation → String
  | .token kind => kind.describe
  | .statement => "statement"
  | .expression => "expression"
  | .number => "number"
  | .operator => "operator"
  | .rankedOperator => "operator with a known priority"
  | .shallowerNesting => "shallower nesting"
  | .endOfInput => Token.endOfInput

/-- What was expected at the furthest token where something was: the number of tokens before it,
and the expectations in the order in which they were first made. -/
structure Notes where
  index : Nat
  expected : List Expectation
deriving DecidableEq, Repr

namespace Notes

/-- Nothing was expected so far. -/
def none : Notes := ⟨0, []⟩

/-- The notes `a` and then the notes `b`. -/
def join (a b : Notes) : Notes :=
  if a.index < b.index then b
  else if b.index < a.index then a
  else ⟨a.index, a.expected ++ b.expected.filter (! a.expected.contains ·)⟩

@[simp] theorem none_join (a : Notes) : none.join a = a := by
  obtain ⟨i, es⟩ := a
  unfold join none
  by_cases h : 0 < i
  · simp [h]
  · have : i = 0 := by omega
    simp [this]

@[simp] theorem join_none (a : Notes) : a.join none = a := by
  obtain ⟨i, es⟩ := a
  unfold join none
  by_cases h : 0 < i
  · simp [h]
  · have : i = 0 := by omega
    simp [this]

theorem index_join (a b : Notes) : (a.join b).index = max a.index b.index := by
  unfold join
  split
  · omega
  · split
    · omega
    · simp only; omega

theorem join_of_lt {a b : Notes} (h : a.index < b.index) : a.join b = b := by
  simp [join, h]

theorem join_of_gt {a b : Notes} (h : b.index < a.index) : a.join b = a := by
  simp [join, h, Nat.lt_asymm h]

theorem join_of_eq {a b : Notes} (h : a.index = b.index) :
    a.join b = ⟨a.index, a.expected ++ b.expected.filter (! a.expected.contains ·)⟩ := by
  simp [join, h]

theorem join_assoc (a b c : Notes) : (a.join b).join c = a.join (b.join c) := by
  rcases Nat.lt_trichotomy a.index b.index with hab | hab | hab
  · have hbc : a.index < (b.join c).index := by
      rw [index_join]
      omega
    rw [join_of_lt hab, join_of_lt hbc]
  · rcases Nat.lt_trichotomy b.index c.index with hbc | hbc | hbc
    · have habc : (a.join b).index < c.index := by
        rw [index_join]
        omega
      rw [join_of_lt hbc, join_of_lt habc, join_of_lt (by omega)]
    · rw [join_of_eq hab, join_of_eq hbc, join_of_eq (by simpa using hab.trans hbc),
        join_of_eq (by simpa using hab)]
      simp only [List.filter_append, List.append_assoc, List.filter_filter]
      congr 3
      apply List.filter_congr
      intro e _
      by_cases ha : e ∈ a.expected <;> by_cases hb : e ∈ b.expected <;> simp [ha, hb]
    · rw [join_of_gt hbc, join_of_gt]
      rw [index_join]
      omega
  · rw [join_of_gt hab]
    rcases Nat.lt_trichotomy b.index c.index with hbc | hbc | hbc
    · rw [join_of_lt hbc]
    · have h : (b.join c).index < a.index := by
        rw [index_join]
        omega
      rw [join_of_gt h, join_of_gt (by omega)]
    · rw [join_of_gt hbc, join_of_gt hab, join_of_gt (by omega)]

end Notes

end RangeScript.Parse
