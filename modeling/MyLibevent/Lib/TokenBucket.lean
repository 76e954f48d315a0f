import Mathlib

/-!
# Token buckets

A bucket that gains `rate` tokens in each tick and holds `maximum` of them at most. `fill` is the level after
a number of ticks.
-/

namespace TokenBucket

def fill (maximum rate : ℤ) (ticks : ℕ) (level : ℤ) : ℤ :=
  min (level + ticks * rate) maximum

variable {maximum rate level : ℤ}

lemma fill_zero (h : level ≤ maximum) : fill maximum rate 0 level = level := by
  unfold fill
  rw [Nat.cast_zero, zero_mul, add_zero, min_eq_left h]

lemma fill_le (ticks : ℕ) : fill maximum rate ticks level ≤ maximum := min_le_right _ _

lemma fill_le_add (ticks : ℕ) : fill maximum rate ticks level ≤ level + ticks * rate :=
  min_le_left _ _

lemma le_fill (hrate : 0 ≤ rate) (h : level ≤ maximum) (ticks : ℕ) : level ≤ fill maximum rate ticks level := by
  have hgain : 0 ≤ (ticks : ℤ) * rate := mul_nonneg (Int.natCast_nonneg ticks) hrate
  exact le_min (by omega) h

/-- Filling in two goes gives what filling at once gives. -/
lemma fill_fill (hrate : 0 ≤ rate) (m n : ℕ) :
    fill maximum rate n (fill maximum rate m level) = fill maximum rate (m + n) level := by
  have hgain : 0 ≤ (n : ℤ) * rate := mul_nonneg (Int.natCast_nonneg n) hrate
  have hsplit : ((m + n : ℕ) : ℤ) * rate = m * rate + n * rate := by
    push_cast
    ring
  unfold fill
  rw [hsplit]
  by_cases hm : level + m * rate ≤ maximum
  · rw [min_eq_left hm, add_assoc]
  · rw [min_eq_right (by omega : maximum ≤ level + m * rate),
      min_eq_right (by omega : maximum ≤ maximum + n * rate), min_eq_right (by omega)]

lemma fill_eq_fill_iff (hrate : 0 < rate) {m n : ℕ} :
    fill maximum rate m level = fill maximum rate n level ↔
      m = n ∨ maximum ≤ level + m * rate ∧ maximum ≤ level + n * rate := by
  unfold fill
  constructor
  · intro h
    by_cases hm : maximum ≤ level + m * rate
    · rw [min_eq_right hm] at h
      exact Or.inr ⟨hm, min_eq_right_iff.mp h.symm⟩
    · have heq : (m : ℤ) * rate = n * rate := by omega
      exact Or.inl (Int.natCast_inj.mp (mul_right_cancel₀ hrate.ne' heq))
  · rintro (rfl | ⟨hm, hn⟩)
    · rfl
    · rw [min_eq_right hm, min_eq_right hn]

end TokenBucket
