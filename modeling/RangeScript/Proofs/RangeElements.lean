import RangeScript.Proofs.History
import RangeScript.Proofs.Recursion

/-!
# The numbers of a range

A range is all whole numbers from its lower to its upper bound, each once and in order, also where a bound is the
least or the greatest whole number there is.

* `Value.rangeNumbers lo hi` : the numbers of the range; `Value.CountsUp lo hi ns` says what they are, and
  `Value.rangeNumbers_append` that a range may be cut anywhere;
* `Value.wide n` : the number in a word of 128 bits. In such words the length of a range is computed without
  overflow, though it may be too large for 64 bits (`Value.rangeLength_eq_wide`).

An expression for a range has these numbers for its value, or fails with their exact number and prints nothing
(`ranges_exact`).
-/

namespace RangeScript

namespace Value

/-! ## The length -/

theorem rangeLength_eq_max (lo hi : Int64) :
    (rangeLength lo hi : Int) = max 0 (hi.toInt - lo.toInt + 1) := by
  unfold rangeLength
  omega

/-- Less than 2⁶⁴ numbers lie above any number, so no range has more than 2⁶⁴. -/
theorem rangeLength_le (lo hi : Int64) : rangeLength lo hi ≤ 0x10000000000000000 := by
  have hlo := lo.le_toInt
  have hhi := hi.toInt_lt
  unfold rangeLength
  omega

/-- The number in a word of 128 bits. -/
def wide (n : Int64) : BitVec 128 := n.toBitVec.signExtend 128

theorem toInt_wide (n : Int64) : (wide n).toInt = n.toInt := by
  unfold wide
  rw [BitVec.toInt_signExtend_of_le (by decide), Int64.toInt_toBitVec]

theorem ssubOverflow_wide (lo hi : Int64) : (wide hi).ssubOverflow (wide lo) = false := by
  have hlo := lo.le_toInt
  have hlo' := lo.toInt_lt
  have hhi := hi.le_toInt
  have hhi' := hi.toInt_lt
  unfold BitVec.ssubOverflow
  rw [toInt_wide, toInt_wide, Bool.or_eq_false_iff, decide_eq_false_iff_not, decide_eq_false_iff_not]
  omega

theorem toInt_wide_sub (lo hi : Int64) : (wide hi - wide lo).toInt = hi.toInt - lo.toInt := by
  rw [BitVec.toInt_sub_of_not_ssubOverflow (by rw [ssubOverflow_wide]; decide), toInt_wide, toInt_wide]

theorem saddOverflow_wide (lo hi : Int64) : (wide hi - wide lo).saddOverflow 1#128 = false := by
  have hone : (1#128).toInt = 1 := by decide
  have hlo := lo.le_toInt
  have hlo' := lo.toInt_lt
  have hhi := hi.le_toInt
  have hhi' := hi.toInt_lt
  unfold BitVec.saddOverflow
  rw [toInt_wide_sub, hone, Bool.or_eq_false_iff, decide_eq_false_iff_not, decide_eq_false_iff_not]
  omega

theorem rangeLength_eq_wide (lo hi : Int64) :
    rangeLength lo hi = (wide hi - wide lo + 1#128).toInt.toNat := by
  have hone : (1#128).toInt = 1 := by decide
  rw [BitVec.toInt_add_of_not_saddOverflow (by rw [saddOverflow_wide]; decide), toInt_wide_sub, hone]
  rfl

/-- The length is the exact one, and in words of 128 bits it is computed without overflow. -/
structure ExactLength (lo hi : Int64) (length : Nat) : Prop where
  exact : (length : Int) = max 0 (hi.toInt - lo.toInt + 1)
  bound : length ≤ 0x10000000000000000
  difference : (wide hi).ssubOverflow (wide lo) = false
  successor : (wide hi - wide lo).saddOverflow 1#128 = false
  computed : length = (wide hi - wide lo + 1#128).toInt.toNat

theorem exactLength_rangeLength (lo hi : Int64) : ExactLength lo hi (rangeLength lo hi) where
  exact := rangeLength_eq_max lo hi
  bound := rangeLength_le lo hi
  difference := ssubOverflow_wide lo hi
  successor := saddOverflow_wide lo hi
  computed := rangeLength_eq_wide lo hi

/-! ## The numbers -/

/-- The whole numbers from `lo` to `hi`. -/
def rangeNumbers (lo hi : Int64) : List Int64 :=
  (List.range (rangeLength lo hi)).map fun (i : Nat) => Int64.ofInt (lo.toInt + i)

theorem range_eq_map (lo hi : Int64) : range lo hi = (rangeNumbers lo hi).map .int := by
  unfold range rangeNumbers
  rw [List.map_map]
  rfl

/-- The numbers count up by one, from the lower bound to the upper one. -/
structure CountsUp (lo hi : Int64) (ns : List Int64) : Prop where
  length : ns.length = rangeLength lo hi
  number : ∀ k (hk : k < ns.length), (ns.get ⟨k, hk⟩).toInt = lo.toInt + k
  increasing : ns.Pairwise (· < ·)
  first : lo ≤ hi → ns.head? = some lo
  last : lo ≤ hi → ns.getLast? = some hi
  mem : ∀ n, n ∈ ns ↔ lo ≤ n ∧ n ≤ hi

/-- No number of a range wraps around. -/
theorem toInt_ofInt_add {lo hi : Int64} {i : Nat} (h : i < rangeLength lo hi) :
    (Int64.ofInt (lo.toInt + i)).toInt = lo.toInt + i := by
  have hlo := lo.le_toInt
  have hhi := hi.toInt_lt
  unfold rangeLength at h
  apply Int64.toInt_ofInt_of_le
  · omega
  · omega

theorem ofInt_add_zero (n : Int64) : Int64.ofInt (n.toInt + (0 : Nat)) = n := by
  rw [Int.natCast_zero, Int.add_zero, Int64.ofInt_toInt]

section Numbers
variable (lo hi : Int64)

theorem length_rangeNumbers : (rangeNumbers lo hi).length = rangeLength lo hi := by
  simp [rangeNumbers]

theorem toInt_get_rangeNumbers (k : Nat) (hk : k < (rangeNumbers lo hi).length) :
    ((rangeNumbers lo hi).get ⟨k, hk⟩).toInt = lo.toInt + k := by
  rw [length_rangeNumbers] at hk
  simpa [rangeNumbers] using toInt_ofInt_add hk

theorem pairwise_rangeNumbers : (rangeNumbers lo hi).Pairwise (· < ·) := by
  unfold rangeNumbers
  rw [List.pairwise_map]
  refine List.pairwise_lt_range.imp_of_mem fun hi' hj' hij => ?_
  rw [Int64.lt_iff_toInt_lt, toInt_ofInt_add (List.mem_range.1 hi'), toInt_ofInt_add (List.mem_range.1 hj')]
  omega

theorem mem_rangeNumbers (n : Int64) : n ∈ rangeNumbers lo hi ↔ lo ≤ n ∧ n ≤ hi := by
  rw [rangeNumbers, List.mem_map, Int64.le_iff_toInt_le, Int64.le_iff_toInt_le]
  constructor
  · rintro ⟨i, hi', rfl⟩
    have hlt := List.mem_range.1 hi'
    rw [toInt_ofInt_add hlt]
    unfold rangeLength at hlt
    omega
  · rintro ⟨hlo, hhi⟩
    -- the number stands at the place of its distance from the lower bound
    have hplace : (n.toInt - lo.toInt).toNat < rangeLength lo hi := by
      unfold rangeLength
      omega
    refine ⟨_, List.mem_range.2 hplace, Int64.toInt_inj.1 ?_⟩
    rw [toInt_ofInt_add hplace]
    omega

variable {lo hi}

theorem head?_rangeNumbers (h : lo ≤ hi) : (rangeNumbers lo hi).head? = some lo := by
  rw [Int64.le_iff_toInt_le] at h
  have hne : rangeLength lo hi ≠ 0 := by
    unfold rangeLength
    omega
  rw [rangeNumbers, List.head?_map, List.head?_range, if_neg hne, Option.map_some, ofInt_add_zero]

theorem getLast?_rangeNumbers (h : lo ≤ hi) : (rangeNumbers lo hi).getLast? = some hi := by
  rw [Int64.le_iff_toInt_le] at h
  have hne : rangeLength lo hi ≠ 0 := by
    unfold rangeLength
    omega
  have hlt : rangeLength lo hi - 1 < rangeLength lo hi := by omega
  have hlast : Int64.ofInt (lo.toInt + (rangeLength lo hi - 1 : Nat)) = hi := by
    apply Int64.toInt_inj.1
    rw [toInt_ofInt_add hlt]
    unfold rangeLength
    omega
  rw [rangeNumbers, List.getLast?_map, List.getLast?_range, if_neg hne, Option.map_some, hlast]

theorem countsUp_rangeNumbers (lo hi : Int64) : CountsUp lo hi (rangeNumbers lo hi) where
  length := length_rangeNumbers lo hi
  number := toInt_get_rangeNumbers lo hi
  increasing := pairwise_rangeNumbers lo hi
  first := head?_rangeNumbers
  last := getLast?_rangeNumbers
  mem := mem_rangeNumbers lo hi

end Numbers

theorem toInt_add_one {n m : Int64} (h : n.toInt < m.toInt) : (n + 1).toInt = n.toInt + 1 := by
  have hn := n.le_toInt
  have hm := m.toInt_lt
  have hone : (1 : Int64).toInt = 1 := by decide
  rw [Int64.toInt_add, hone]
  exact Int.bmod_eq_of_le_mul_two (by omega) (by omega)

/-- A range is cut in two behind any of its numbers but the last. -/
theorem rangeNumbers_append {a b c : Int64} (hab : a.toInt ≤ b.toInt) (hbc : b.toInt < c.toInt) :
    rangeNumbers a c = rangeNumbers a b ++ rangeNumbers (b + 1) c := by
  have hnext : (b + 1).toInt = b.toInt + 1 := toInt_add_one hbc
  have hlength : rangeLength a c = rangeLength a b + rangeLength (b + 1) c := by
    unfold rangeLength
    omega
  have hplace : ∀ i : Nat, a.toInt + ((rangeLength a b + i : Nat) : Int) = (b + 1).toInt + i := by
    intro i
    unfold rangeLength
    omega
  unfold rangeNumbers
  rw [hlength, List.range_add, List.map_append, List.map_map]
  congr 1
  apply List.map_congr_left
  intro i _
  exact congrArg Int64.ofInt (hplace i)

theorem range_append {a b c : Int64} (hab : a.toInt ≤ b.toInt) (hbc : b.toInt < c.toInt) :
    range a c = range a b ++ range (b + 1) c := by
  rw [range_eq_map, range_eq_map, range_eq_map, rangeNumbers_append hab hbc, List.map_append]

end Value

/-! ## Evaluation -/

namespace Language

variable (lang : Language)

/-- There is room for the range from `lo` to `hi`. -/
def allocates (lo hi : Int64) : Prop := Value.rangeLength lo hi ≤ lang.rangeLimit

instance (lo hi : Int64) : Decidable (lang.allocates lo hi) :=
  inferInstanceAs (Decidable (Value.rangeLength lo hi ≤ lang.rangeLimit))

variable {lang} {depth : Nat} {scope : Scope Value} {left right : Expr} {lo hi : Int64}

/-- There is room for what lies in a range for which there is room. -/
theorem allocates.mono {lo' hi' : Int64} (h : lang.allocates lo hi) (hlo : lo.toInt ≤ lo'.toInt)
    (hhi : hi'.toInt ≤ hi.toInt) : lang.allocates lo' hi' := by
  unfold allocates Value.rangeLength at h ⊢
  omega

theorem evalWith_range {body : Scope Value → Expr → Outcome RunError Value}
    (hleft : lang.evalWith body scope left = .done (.int lo))
    (hright : lang.evalWith body scope right = .done (.int hi)) :
    lang.evalWith body scope (.range left right) =
      if Value.rangeLength lo hi ≤ lang.rangeLimit then .done (.seq (Value.range lo hi) .int)
      else .failed (.rangeTooLarge left.pos (Value.rangeLength lo hi)) := by
  rw [evalWith, hleft, Outcome.done_bind, hright]
  rfl

theorem evalAt_range (hleft : lang.evalAt depth scope left = .done (.int lo))
    (hright : lang.evalAt depth scope right = .done (.int hi)) :
    lang.evalAt depth scope (.range left right) =
      if Value.rangeLength lo hi ≤ lang.rangeLimit then .done (.seq (Value.range lo hi) .int)
      else .failed (.rangeTooLarge left.pos (Value.rangeLength lo hi)) := by
  obtain ⟨body, hbody⟩ := exists_recurseAt_eq lang.evalWith depth
  rw [evalAt_eq_recurseAt, hbody] at hleft hright ⊢
  exact evalWith_range hleft hright

theorem evalAt_range_of_allocates (h : lang.allocates lo hi)
    (hleft : lang.evalAt depth scope left = .done (.int lo))
    (hright : lang.evalAt depth scope right = .done (.int hi)) :
    lang.evalAt depth scope (.range left right) =
      .done (.seq ((Value.rangeNumbers lo hi).map .int) .int) := by
  unfold allocates at h
  rw [evalAt_range hleft hright, if_pos h, Value.range_eq_map]

theorem evalAt_range_of_not_allocates (h : ¬ lang.allocates lo hi)
    (hleft : lang.evalAt depth scope left = .done (.int lo))
    (hright : lang.evalAt depth scope right = .done (.int hi)) :
    lang.evalAt depth scope (.range left right) =
      .failed (.rangeTooLarge left.pos (Value.rangeLength lo hi)) := by
  unfold allocates at h
  rw [evalAt_range hleft hright, if_neg h]

end Language

open Session

/-- With room for ten million numbers, but not for 2⁶⁰: the length of a range is exact and computed without overflow;
a range for which there is room is a sequence of numbers that count up from bound to bound; any other fails with its
length at the place of its left bound, and then nothing is printed and the session is as it was. -/
theorem ranges_exact {lang : Language} (hsmall : 10000000 ≤ lang.rangeLimit)
    (hlarge : lang.rangeLimit < 0x1000000000000000) (lo hi : Int64) :
    Value.ExactLength lo hi (Value.rangeLength lo hi) ∧
    (Value.rangeLength lo hi ≤ 10000000 → lang.allocates lo hi) ∧
    (0x1000000000000000 ≤ Value.rangeLength lo hi → ¬ lang.allocates lo hi) ∧
    (∀ (depth : Nat) (scope : Scope Value) (left right : Expr),
      lang.evalAt depth scope left = .done (.int lo) → lang.evalAt depth scope right = .done (.int hi) →
      (lang.allocates lo hi → ∃ ns, Value.CountsUp lo hi ns ∧
        lang.evalAt depth scope (.range left right) = .done (.seq (ns.map .int) .int)) ∧
      (¬ lang.allocates lo hi → lang.evalAt depth scope (.range left right) =
        .failed (.rangeTooLarge left.pos (Value.rangeLength lo hi)))) ∧
    ∀ (s : Session) (left right : Expr) (rest : Program),
      lang.eval s.values left = .done (.int lo) → lang.eval s.values right = .done (.int hi) →
      ¬ lang.allocates lo hi →
      let e : Error := .run (.rangeTooLarge left.pos (Value.rangeLength lo hi))
      steps lang s (.out (.range left right) :: rest) = ⟨s, ⟨[], [e.message]⟩, .failed e⟩ := by
  refine ⟨Value.exactLength_rangeLength lo hi, fun h => ?_, fun h => ?_, ?_, ?_⟩
  · exact Nat.le_trans h hsmall
  · unfold Language.allocates
    omega
  · intro depth scope left right hleft hright
    refine ⟨fun hroom => ⟨_, Value.countsUp_rangeNumbers lo hi, ?_⟩, fun hroom => ?_⟩
    · exact Language.evalAt_range_of_allocates hroom hleft hright
    · exact Language.evalAt_range_of_not_allocates hroom hleft hright
  · intro s left right rest hleft hright hroom e
    have hexec : lang.exec s.values (.out (.range left right)) =
        .failed (.rangeTooLarge left.pos (Value.rangeLength lo hi)) := by
      rw [Language.exec, Language.eval, Language.evalAt_range_of_not_allocates hroom hleft hright]
      rfl
    exact steps_of_failed rest hexec

/-- The last two numbers there are make a range, and all numbers there are make none. -/
theorem ranges_exact_at_limits :
    let lang := Language.standard
    let greatest : Int64 := 9223372036854775807
    let least : Int64 := -9223372036854775808
    let left : Expr := .int ⟨"9223372036854775806", ⟨1, 2⟩⟩
    let right : Expr := .int ⟨"9223372036854775807", ⟨1, 23⟩⟩
    let start : Expr := .int ⟨"-9223372036854775808", ⟨1, 3⟩⟩
    Expr.parse "\x7b9223372036854775806, 9223372036854775807\x7d" = .ok (.range left right) ∧
      (∃ ns, Value.CountsUp (greatest - 1) greatest ns ∧
        lang.eval [] (.range left right) = .done (.seq (ns.map .int) .int)) ∧
      Value.rangeLength least greatest = 0x10000000000000000 ∧
      lang.eval [] (.range start right) = .failed (.rangeTooLarge ⟨1, 3⟩ 0x10000000000000000) := by
  intro lang greatest least left right start
  have hliteral : ∀ (l : Lexeme) (n : Int64), Whole.ofText? l.text = some n →
      lang.eval [] (.int l) = .done (.int n) := by
    intro l n h
    rw [lang.eval_int, Language.intLiteral, h]
    rfl
  have hleft : lang.eval [] left = .done (.int (greatest - 1)) := hliteral _ _ (by decide +kernel)
  have hright : lang.eval [] right = .done (.int greatest) := hliteral _ _ (by decide +kernel)
  have hstart : lang.eval [] start = .done (.int least) := hliteral _ _ (by decide +kernel)
  have hlength : Value.rangeLength least greatest = 0x10000000000000000 := by decide +kernel
  have hsmall : 10000000 ≤ lang.rangeLimit := by decide
  have hlarge : lang.rangeLimit < 0x1000000000000000 := by decide
  obtain ⟨-, hroom, -, hrange, -⟩ := ranges_exact hsmall hlarge (greatest - 1) greatest
  obtain ⟨-, -, hno, hall, -⟩ := ranges_exact hsmall hlarge least greatest
  refine ⟨by decide +kernel, ?_, hlength, ?_⟩
  · exact (hrange _ [] left right hleft hright).1 (hroom (by decide +kernel))
  · rw [← hlength]
    exact (hall _ [] start right hstart hright).2 (hno (by rw [hlength]; decide))

end RangeScript
