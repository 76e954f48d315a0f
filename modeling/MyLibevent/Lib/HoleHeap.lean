import Mathlib

/-!
# Binary heaps with a hole

A level-order binary tree of keys. Sifting leaves a hole where the key `x` that is being placed does not stand
yet. `UpHole` and `DownHole` say what is known of the keys around the hole; each has a rule for moving the
hole one level and a rule for filling it.
-/

namespace HoleHeap

open Function

variable {κ : Type*} [LinearOrder κ] {i c n hole : Nat} {key : Nat → κ} {x k : κ}

/-- The parent of a position. -/
def parent (i : Nat) : Nat := (i - 1) / 2

lemma parent_lt (h : 0 < i) : parent i < i := by
  unfold parent
  omega

/-- The positions below `i` in the tree. -/
lemma parent_eq_iff (hc : 0 < c) : parent c = i ↔ c = 2 * i + 1 ∨ c = 2 * i + 2 := by
  unfold parent
  omega

/-- No key is smaller than the key of its parent. -/
def Ordered (key : Nat → κ) (n : Nat) : Prop :=
  ∀ i, 0 < i → i < n → key (parent i) ≤ key i

lemma Ordered.mono {m : Nat} (h : Ordered key n) (hm : m ≤ n) : Ordered key m :=
  fun i hi him => h i hi (by omega)

lemma Ordered.congr {key' : Nat → κ} (h : Ordered key n) (hk : ∀ i, i < n → key' i = key i) : Ordered key' n := by
  intro i hi hin
  have hp := parent_lt hi
  rw [hk i hin, hk (parent i) (by omega)]
  exact h i hi hin

/-- The root carries a least key. -/
theorem Ordered.root_le (h : Ordered key n) (i : Nat) (hi : i < n) : key 0 ≤ key i := by
  induction i using Nat.strong_induction_on with
  | _ i ih =>
    by_cases h0 : i = 0
    · subst h0; exact le_rfl
    · have hp := parent_lt (Nat.pos_of_ne_zero h0)
      exact (ih (parent i) hp (by omega)).trans (h i (Nat.pos_of_ne_zero h0) hi)

/-- What is known while `x` moves towards the root: the edges off the hole are in order,
and the keys below the hole are above both `x` and the parent of the hole. -/
structure UpHole (key : Nat → κ) (n hole : Nat) (x : κ) : Prop where
  off : ∀ i, 0 < i → i < n → i ≠ hole → parent i ≠ hole → key (parent i) ≤ key i
  grand : 0 < hole → ∀ c, 0 < c → c < n → parent c = hole → key (parent hole) ≤ key c
  below : ∀ c, 0 < c → c < n → parent c = hole → x ≤ key c

/-- What is known while `x` moves away from the root: the edges off the hole are in order,
and the keys above the hole are below both `x` and the keys under the hole. -/
structure DownHole (key : Nat → κ) (n hole : Nat) (x : κ) : Prop where
  off : ∀ i, 0 < i → i < n → i ≠ hole → parent i ≠ hole → key (parent i) ≤ key i
  grand : 0 < hole → ∀ c, 0 < c → c < n → parent c = hole → key (parent hole) ≤ key c
  above : 0 < hole → key (parent hole) ≤ x

/-- Pulling the parent into the hole moves the hole one level up. -/
theorem UpHole.move (h : UpHole key n hole x) (h0 : 0 < hole) (hn : hole < n)
    (hx : x ≤ key (parent hole)) :
    UpHole (update key hole (key (parent hole))) n (parent hole) x := by
  have hp := parent_lt h0
  have hup : 0 < parent hole → key (parent (parent hole)) ≤ key (parent hole) := by
    intro hp0
    have hpp := parent_lt hp0
    exact h.off (parent hole) hp0 (by omega) (by omega) (by omega)
  constructor
  · intro i hi hin hip hpi
    have hih : i ≠ hole := fun he => hpi (by rw [he])
    rw [update_of_ne hih]
    by_cases hph : parent i = hole
    · rw [hph, update_self]
      exact h.grand h0 i hi hin hph
    · rw [update_of_ne hph]
      exact h.off i hi hin hih hph
  · intro hp0 c hc hcn hpc
    have hpp := parent_lt hp0
    rw [update_of_ne (by omega : parent (parent hole) ≠ hole)]
    by_cases hch : c = hole
    · rw [hch, update_self]
      exact hup hp0
    · rw [update_of_ne hch]
      have hc' := h.off c hc hcn hch (by omega)
      rw [hpc] at hc'
      exact (hup hp0).trans hc'
  · intro c hc hcn hpc
    by_cases hch : c = hole
    · rw [hch, update_self]
      exact hx
    · rw [update_of_ne hch]
      have hc' := h.off c hc hcn hch (by omega)
      rw [hpc] at hc'
      exact hx.trans hc'

/-- Filling the hole once the parent is not above `x`. -/
theorem UpHole.fill (h : UpHole key n hole x) (hx : 0 < hole → key (parent hole) ≤ x) :
    Ordered (update key hole x) n := by
  intro i hi hin
  have hp := parent_lt hi
  by_cases hih : i = hole
  · subst hih
    rw [update_self, update_of_ne (by omega : parent i ≠ i)]
    exact hx hi
  · rw [update_of_ne hih]
    by_cases hph : parent i = hole
    · rw [hph, update_self]
      exact h.below i hi hin hph
    · rw [update_of_ne hph]
      exact h.off i hi hin hih hph

/-- Pulling the smaller child into the hole moves the hole one level down. -/
theorem DownHole.move (h : DownHole key n hole x) (hc0 : 0 < c) (hcn : c < n)
    (hpc : parent c = hole) (hmin : ∀ d, 0 < d → d < n → parent d = hole → key c ≤ key d)
    (hx : key c ≤ x) : DownHole (update key hole (key c)) n c x := by
  have hlt : hole < c := hpc ▸ parent_lt hc0
  constructor
  · intro i hi hin hic hpi
    by_cases hih : i = hole
    · subst hih
      have hp := parent_lt hi
      rw [update_self, update_of_ne (by omega : parent i ≠ i)]
      exact h.grand hi c hc0 hcn hpc
    · rw [update_of_ne hih]
      by_cases hph : parent i = hole
      · rw [hph, update_self]
        exact hmin i hi hin hph
      · rw [update_of_ne hph]
        exact h.off i hi hin hih hph
  · intro _ d hd hdn hpd
    have hcd : c < d := hpd ▸ parent_lt hd
    rw [hpc, update_self, update_of_ne (by omega : d ≠ hole)]
    have hd' := h.off d hd hdn (by omega) (by omega)
    rwa [hpd] at hd'
  · intro _
    rw [hpc, update_self]
    exact hx

/-- Filling the hole once no child is below `x`. -/
theorem DownHole.fill (h : DownHole key n hole x)
    (hx : ∀ c, 0 < c → c < n → parent c = hole → x ≤ key c) : Ordered (update key hole x) n := by
  intro i hi hin
  have hp := parent_lt hi
  by_cases hih : i = hole
  · subst hih
    rw [update_self, update_of_ne (by omega : parent i ≠ i)]
    exact h.above hi
  · rw [update_of_ne hih]
    by_cases hph : parent i = hole
    · rw [hph, update_self]
      exact hx i hi hin hph
    · rw [update_of_ne hph]
      exact h.off i hi hin hih hph

/-- A hole behind the last key of an ordered tree. -/
lemma Ordered.upHole_last (h : Ordered key n) (x : κ) : UpHole key (n + 1) n x := by
  constructor
  · intro i hi hin hne _
    exact h i hi (by omega)
  · intro _ c hc hcn hpc
    have := parent_lt hc
    omega
  · intro c hc hcn hpc
    have := parent_lt hc
    omega

section

variable (h : Ordered (update key hole k) n)
include h

/-- The edges that do not touch the hole, whatever key `k` stood there. -/
lemma Ordered.off_hole (i : Nat) (hi : 0 < i) (hin : i < n)
    (hih : i ≠ hole) (hpi : parent i ≠ hole) : key (parent i) ≤ key i := by
  have hi' := h i hi hin
  rwa [update_of_ne hih, update_of_ne hpi] at hi'

/-- The edges through the hole join to edges around it, whatever key `k` stood there. -/
lemma Ordered.around_hole (h0 : 0 < hole) (c : Nat) (hc : 0 < c)
    (hcn : c < n) (hpc : parent c = hole) : key (parent hole) ≤ key c := by
  have hlt : hole < c := hpc ▸ parent_lt hc
  have hp := parent_lt h0
  have h1 := h c hc hcn
  have h2 := h hole h0 (by omega)
  rw [hpc, update_self, update_of_ne (by omega : c ≠ hole)] at h1
  rw [update_self, update_of_ne (by omega : parent hole ≠ hole)] at h2
  exact h2.trans h1

/-- A hole inside an ordered tree, for a key that belongs above it. -/
lemma Ordered.upHole (h0 : 0 < hole) (hx : x ≤ key (parent hole)) : UpHole key n hole x :=
  ⟨h.off_hole, h.around_hole, fun c hc hcn hpc => hx.trans (h.around_hole h0 c hc hcn hpc)⟩

/-- A hole inside an ordered tree, for a key that does not belong above it. -/
lemma Ordered.downHole (hx : 0 < hole → key (parent hole) ≤ x) : DownHole key n hole x :=
  ⟨h.off_hole, h.around_hole, hx⟩

end

end HoleHeap
