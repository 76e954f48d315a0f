import MyLibevent.Weakrand

/-!
# `evutil_weakrand_range_` ends and prefers no value

Of two seeds that are `2 ^ 30` turns of the generator apart one is below `2 ^ 30`, and such a seed is accepted
for every range.
-/

namespace MyLibevent.Proofs

open Finset

def weakrandStep (n : Nat) : Nat := (n * 1103515245 + 12345) % 2 ^ 31

lemma toNat_evutilWeakrand (seed : UInt32) : (evutilWeakrand seed).toNat = weakrandStep seed.toNat := by
  have hmask : (0x7fffffff : UInt32).toNat = 2 ^ 31 - 1 := rfl
  rw [evutilWeakrand, UInt32.toNat_and, hmask, Nat.and_two_pow_sub_one_eq_mod, UInt32.toNat_add,
    UInt32.toNat_mul, weakrandStep]
  simp only [UInt32.reduceToNat]
  omega

/-- Factor and addend of `2 ^ k` turns. -/
def turns : Nat → Nat × Nat
  | 0 => (1103515245, 12345)
  | k + 1 => ((turns k).1 * (turns k).1 % 2 ^ 31, ((turns k).2 * (turns k).1 + (turns k).2) % 2 ^ 31)

lemma iterate_weakrandStep (k n : Nat) : weakrandStep^[2 ^ k] n ≡ n * (turns k).1 + (turns k).2 [MOD 2 ^ 31] := by
  induction k generalizing n with
  | zero =>
    rw [pow_zero, Function.iterate_one, turns]
    exact Nat.mod_modEq _ _
  | succ k ih =>
    have hpow : 2 ^ (k + 1) = 2 ^ k + 2 ^ k := by omega
    rw [hpow, Function.iterate_add_apply]
    calc
      _ ≡ weakrandStep^[2 ^ k] n * (turns k).1 + (turns k).2 [MOD 2 ^ 31] := ih _
      _ ≡ (n * (turns k).1 + (turns k).2) * (turns k).1 + (turns k).2 [MOD 2 ^ 31] :=
        ((ih n).mul_right _).add_right _
      _ = n * ((turns k).1 * (turns k).1) + ((turns k).2 * (turns k).1 + (turns k).2) := by
        rw [add_mul, mul_assoc, add_assoc]
      _ ≡ n * (turns (k + 1)).1 + (turns (k + 1)).2 [MOD 2 ^ 31] :=
        ((Nat.mod_modEq _ _).symm.mul_left n).add (Nat.mod_modEq _ _).symm

lemma weakrandStep_lt (n : Nat) : weakrandStep n < 2 ^ 31 := Nat.mod_lt _ (by decide)

lemma exists_small {j : Nat} (hj : turns j = (1, 2 ^ 30)) (n : Nat) : ∃ k, weakrandStep^[k + 1] n < 2 ^ 30 := by
  have hlt := weakrandStep_lt n
  by_cases hsmall : weakrandStep n < 2 ^ 30
  · exact ⟨0, by rwa [zero_add, Function.iterate_one]⟩
  · have hlast : weakrandStep^[2 ^ j] (weakrandStep n) < 2 ^ 31 := by
      rw [← Function.iterate_succ_apply, Function.iterate_succ_apply']
      exact weakrandStep_lt _
    have hmod := iterate_weakrandStep j (weakrandStep n)
    rw [hj, mul_one, Nat.ModEq] at hmod
    refine ⟨2 ^ j, ?_⟩
    rw [Function.iterate_succ_apply]
    omega

section Range

variable {top : Nat} (htop : 1 ≤ top) (hmax : top ≤ evutilWeakrandMax)
include htop hmax

lemma mul_divisor_bounds : 2 ^ 30 ≤ top * (evutilWeakrandMax / top) ∧
    top * (evutilWeakrandMax / top) ≤ evutilWeakrandMax := by
  have hpos : 1 ≤ evutilWeakrandMax / top := (Nat.one_le_div_iff htop).mpr hmax
  have hmul : top ≤ top * (evutilWeakrandMax / top) := Nat.le_mul_of_pos_right top hpos
  have hmod := Nat.div_add_mod evutilWeakrandMax top
  have hlt := Nat.mod_lt evutilWeakrandMax htop
  have hval : evutilWeakrandMax = 2 ^ 31 - 1 := rfl
  omega

lemma candidate_lt {seed : UInt32} (hseed : seed.toNat < 2 ^ 30) : candidate top seed < top := by
  have hbounds := mul_divisor_bounds htop hmax
  apply Nat.div_lt_of_lt_mul
  rw [mul_comm]
  omega

/-- A small seed after `k + 1` turns ends the loop by then. -/
lemma evutilWeakrandRange_ends (k : Nat) (seed : UInt32) (hsmall : weakrandStep^[k + 1] seed.toNat < 2 ^ 30) :
    ∃ result seed', result < top ∧
      ∀ fuel, k + 1 ≤ fuel → evutilWeakrandRange top fuel seed = some (result, seed') := by
  have hnext := toNat_evutilWeakrand seed
  by_cases hdone : candidate top (evutilWeakrand seed) < top
  · refine ⟨_, evutilWeakrand seed, hdone, ?_⟩
    intro fuel hfuel
    obtain ⟨fuel, rfl⟩ := Nat.exists_eq_succ_of_ne_zero (by omega : fuel ≠ 0)
    rw [evutilWeakrandRange, if_neg (not_le.mpr hdone)]
  · cases k with
    | zero =>
      rw [zero_add, Function.iterate_one, ← hnext] at hsmall
      exact absurd (candidate_lt htop hmax hsmall) hdone
    | succ k =>
      rw [Function.iterate_succ_apply, ← hnext] at hsmall
      obtain ⟨result, seed', hlt, hrun⟩ := evutilWeakrandRange_ends k _ hsmall
      refine ⟨result, seed', hlt, ?_⟩
      intro fuel hfuel
      obtain ⟨fuel, rfl⟩ := Nat.exists_eq_succ_of_ne_zero (by omega : fuel ≠ 0)
      rw [evutilWeakrandRange, if_pos (not_lt.mp hdone)]
      exact hrun fuel (by omega)

end Range

lemma weakrandStep_injOn : Set.InjOn weakrandStep (range (2 ^ 31)) := by
  intro m hm n hn heq
  rw [mem_coe, mem_range] at hm hn
  have hmul : m * 1103515245 ≡ n * 1103515245 [MOD 2 ^ 31] := Nat.ModEq.add_right_cancel' 12345 heq
  exact (hmul.cancel_right_of_coprime (by decide)).eq_of_lt_of_lt hm hn

lemma image_weakrandStep : (range (2 ^ 31)).image weakrandStep = range (2 ^ 31) := by
  apply eq_of_subset_of_card_le
  · intro n hn
    obtain ⟨m, -, rfl⟩ := mem_image.mp hn
    exact mem_range.mpr (weakrandStep_lt m)
  · rw [card_image_of_injOn weakrandStep_injOn]

/-- The loop ends from every seed, with a value of the range; every value is the first candidate for
the same number of the seeds below `2 ^ 31`. -/
theorem evutilWeakrandRange_fair (seed : UInt32) (top : Nat) (htop : 1 ≤ top) (hmax : top ≤ 2 ^ 31 - 1) :
    (∃ result seed', result < top ∧
      ∃ n, ∀ fuel, n ≤ fuel → evutilWeakrandRange top fuel seed = some (result, seed')) ∧
    ∀ v < top, ((range (2 ^ 31)).filter fun n => candidate top (evutilWeakrand (.ofNat n)) = v).card =
      evutilWeakrandMax / top := by
  constructor
  · obtain ⟨k, hsmall⟩ := exists_small (j := 30) (by decide +kernel) seed.toNat
    obtain ⟨result, seed', hlt, hrun⟩ := evutilWeakrandRange_ends htop hmax k seed hsmall
    exact ⟨result, seed', hlt, k + 1, hrun⟩
  · intro v hv
    obtain ⟨d, hd⟩ : ∃ d, d = evutilWeakrandMax / top := ⟨_, rfl⟩
    have hbounds := mul_divisor_bounds htop hmax
    rw [← hd] at hbounds ⊢
    have hpos : 0 < d := by
      refine Nat.pos_of_ne_zero fun hzero => ?_
      rw [hzero] at hbounds
      omega
    have hcandidate : ∀ n ∈ range (2 ^ 31),
        candidate top (evutilWeakrand (.ofNat n)) = v ↔ weakrandStep n / d = v := by
      intro n hn
      have hsize : n < 2 ^ 32 := (mem_range.mp hn).trans (by decide)
      rw [candidate, toNat_evutilWeakrand, UInt32.toNat_ofNat_of_lt' hsize, hd]
    have hinterval : (range (2 ^ 31)).filter (fun n => n / d = v) = Ico (v * d) ((v + 1) * d) := by
      have hle : (v + 1) * d ≤ top * d := Nat.mul_le_mul_right d hv
      have hval : evutilWeakrandMax = 2 ^ 31 - 1 := rfl
      ext n
      rw [add_mul, one_mul] at hle ⊢
      rw [mem_filter, mem_range, mem_Ico, Nat.div_eq_iff hpos]
      omega
    calc
      _ = ((range (2 ^ 31)).filter fun n => weakrandStep n / d = v).card := by
        rw [filter_congr hcandidate]
      _ = (((range (2 ^ 31)).filter fun n => weakrandStep n / d = v).image weakrandStep).card :=
        (card_image_of_injOn (weakrandStep_injOn.mono (filter_subset _ _))).symm
      _ = (((range (2 ^ 31)).image weakrandStep).filter fun n => n / d = v).card := by
        rw [filter_image]
      _ = d := by
        rw [image_weakrandStep, hinterval, Nat.card_Ico, add_mul, one_mul, Nat.add_sub_cancel_left]

theorem evutilWeakrandRange_fair_ten :
    ∃ result seed', result < 10 ∧ ∃ n, ∀ fuel, n ≤ fuel → evutilWeakrandRange 10 fuel 7 = some (result, seed') :=
  (evutilWeakrandRange_fair 7 10 (by decide) (by decide)).1

open Function in
/-- A seed that the generator has left comes back after `2 ^ 31` calls and not before. -/
theorem evutilWeakrand_period (seed : UInt32) : minimalPeriod evutilWeakrand (evutilWeakrand seed) = 2 ^ 31 := by
  have hprime : Fact (Nat.Prime 2) := ⟨Nat.prime_two⟩
  have hlt (seed : UInt32) : (evutilWeakrand seed).toNat < 2 ^ 31 := by
    rw [toNat_evutilWeakrand]
    exact weakrandStep_lt _
  have hhalf := iterate_weakrandStep 30 (evutilWeakrand seed).toNat
  have hwhole := iterate_weakrandStep (30 + 1) (evutilWeakrand seed).toNat
  rw [show turns 30 = (1, 2 ^ 30) by decide +kernel, mul_one] at hhalf
  rw [show turns (30 + 1) = (1, 0) by decide +kernel, mul_one, add_zero] at hwhole
  apply minimalPeriod_eq_prime_pow (k := 30)
  · intro hback
    rw [hback.map toNat_evutilWeakrand, Nat.ModEq] at hhalf
    omega
  · rw [← Semiconj.iterate_right toNat_evutilWeakrand] at hwhole
    refine UInt32.toNat_inj.mp (hwhole.eq_of_lt_of_lt ?_ (hlt seed))
    rw [← iterate_succ_apply, iterate_succ_apply']
    exact hlt _

end MyLibevent.Proofs
