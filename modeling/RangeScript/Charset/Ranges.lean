/-!
# Classes of characters as ranges of code points

A class is a list of closed ranges in ascending order, and `inRanges` looks a code point up in it.
-/

namespace RangeScript.Charset

/-- Whether `n` lies in one of the ranges. They ascend, so the search ends at the first one
above `n`. -/
def inRanges (n : Nat) : List (Nat × Nat) → Bool
  | [] => false
  | (lo, hi) :: rest => if n < lo then false else if n ≤ hi then true else inRanges n rest

theorem exists_range_of_inRanges {n : Nat} :
    ∀ {rs : List (Nat × Nat)}, inRanges n rs = true → ∃ r ∈ rs, r.1 ≤ n ∧ n ≤ r.2
  | [], h => by simp [inRanges] at h
  | (lo, hi) :: rest, h => by
    unfold inRanges at h
    split at h
    · cases h
    · rename_i hlo
      split at h
      · rename_i hhi
        exact ⟨(lo, hi), by simp, Nat.not_lt.1 hlo, hhi⟩
      · obtain ⟨r, hr, hn⟩ := exists_range_of_inRanges h
        exact ⟨r, by simp [hr], hn⟩

end RangeScript.Charset
