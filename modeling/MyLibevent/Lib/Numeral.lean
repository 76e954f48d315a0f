import Mathlib

/-!
# Numerals

The digits of a number from the highest on, and the number that a list of digits stands for.
-/

namespace Numeral

open List

variable {b : Nat}

/-- The digits of `n` from the highest on; zero has one digit. -/
def digits (b n : Nat) : List Nat := if n = 0 then [0] else (Nat.digits b n).reverse

/-- The number read from digits, the highest first, after a number already read. -/
def value (b acc : Nat) (ds : List Nat) : Nat := ds.foldl (fun n d => n * b + d) acc

lemma digits_lt {n : Nat} (hb : 1 < b) : ∀ d ∈ digits b n, d < b := by
  intro d hd
  unfold digits at hd
  split at hd
  · rw [mem_singleton] at hd
    omega
  · exact Nat.digits_lt_base hb (mem_reverse.1 hd)

lemma digits_ne_nil (b n : Nat) : digits b n ≠ [] := by
  unfold digits
  split
  · simp
  · rename_i h
    simpa [Nat.digits_eq_nil_iff_eq_zero] using h

lemma value_reverse (b : Nat) (ds : List Nat) : value b 0 ds.reverse = Nat.ofDigits b ds := by
  induction ds with
  | nil => rfl
  | cons d ds ih =>
    unfold value at ih ⊢
    rw [reverse_cons, foldl_append, ih, Nat.ofDigits_cons]
    simp only [foldl_cons, foldl_nil]
    ring

lemma value_digits (b n : Nat) : value b 0 (digits b n) = n := by
  unfold digits
  split_ifs with h
  · simp [value, h]
  · rw [value_reverse, Nat.ofDigits_digits]

lemma le_value (b : Nat) (hb : 1 ≤ b) (acc : Nat) (ds : List Nat) : acc ≤ value b acc ds := by
  induction ds generalizing acc with
  | nil => exact Nat.le_refl acc
  | cons d ds ih =>
    calc acc ≤ acc * b := Nat.le_mul_of_pos_right acc hb
      _ ≤ acc * b + d := Nat.le_add_right _ _
      _ ≤ value b (acc * b + d) ds := ih _

/-- Without a leading zero a list of digits is the numeral of its number. -/
lemma digits_value {d : Nat} {ds : List Nat} (hb : 1 < b) (hlt : ∀ e ∈ d :: ds, e < b)
    (hd : d ≠ 0) : digits b (value b 0 (d :: ds)) = d :: ds := by
  have hval : value b 0 (d :: ds) = Nat.ofDigits b (d :: ds).reverse := by
    rw [← value_reverse, reverse_reverse]
  have hdigits : Nat.digits b (value b 0 (d :: ds)) = (d :: ds).reverse := by
    rw [hval]
    refine Nat.digits_ofDigits b hb _ (fun e he => hlt e (mem_reverse.1 he)) ?_
    intro _
    rw [getLast_reverse]
    exact hd
  have hne : value b 0 (d :: ds) ≠ 0 := by
    intro hzero
    rw [hzero, Nat.digits_zero] at hdigits
    simp at hdigits
  rw [digits, if_neg hne, hdigits, reverse_reverse]

/-- A list of digits is the numeral of its number after leading zeros. -/
lemma eq_zeros_append_digits {ds : List Nat} (hb : 1 < b) (hlt : ∀ e ∈ ds, e < b) (hne : ds ≠ []) :
    ∃ k, ds = replicate k 0 ++ digits b (value b 0 ds) := by
  induction ds with
  | nil => exact absurd rfl hne
  | cons d ds ih =>
    by_cases hd : d = 0
    · subst hd
      by_cases hds : ds = []
      · subst hds
        exact ⟨0, by simp [value, digits]⟩
      · obtain ⟨k, hk⟩ := ih (fun e he => hlt e (mem_cons_of_mem _ he)) hds
        have hval : value b 0 (0 :: ds) = value b 0 ds := by simp [value]
        refine ⟨k + 1, ?_⟩
        rw [hval, replicate_succ, cons_append, ← hk]
    · exact ⟨0, by rw [digits_value hb hlt hd]; rfl⟩

end Numeral
