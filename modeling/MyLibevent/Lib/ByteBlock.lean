import Mathlib

/-!
Blocks of memory as functions from positions, read and written in runs.
-/

namespace ByteBlock

open List

variable {β : Type*} {k n q : ℕ}

def read (f : ℕ → β) (pos : ℕ) : ℕ → List β
  | 0 => []
  | n + 1 => f pos :: read f (pos + 1) n

def write (f : ℕ → β) (pos : ℕ) (data : List β) : ℕ → β := fun i =>
  if i < pos then f i else data.getD (i - pos) (f i)

variable (f : ℕ → β) (pos : ℕ)

@[simp] lemma read_zero : read f pos 0 = [] := rfl

@[simp] lemma length_read (n : ℕ) : (read f pos n).length = n := by
  induction n generalizing pos with
  | zero => rfl
  | succ n ih => simp [read, ih]

lemma read_add (a b : ℕ) : read f pos (a + b) = read f pos a ++ read f (pos + a) b := by
  induction a generalizing pos with
  | zero => simp
  | succ a ih =>
    rw [show a + 1 + b = (a + b) + 1 by ring, read, read, ih, cons_append, show pos + 1 + a = pos + (a + 1) by ring]

lemma take_read (h : k ≤ n) : (read f pos n).take k = read f pos k := by
  obtain ⟨d, rfl⟩ := Nat.exists_eq_add_of_le h
  rw [read_add]
  exact take_left' (length_read f pos k)

lemma drop_read (h : k ≤ n) : (read f pos n).drop k = read f (pos + k) (n - k) := by
  obtain ⟨d, rfl⟩ := Nat.exists_eq_add_of_le h
  rw [read_add, Nat.add_sub_cancel_left]
  exact drop_left' (length_read f pos k)

lemma read_congr {g : ℕ → β} (h : ∀ i, pos ≤ i → i < pos + n → g i = f i) : read g pos n = read f pos n := by
  induction n generalizing pos with
  | zero => rfl
  | succ n ih =>
    rw [read, read, h pos (by omega) (by omega), ih (pos + 1)]
    intro i hlow hhigh
    exact h i (by omega) (by omega)

lemma read_write_before (data : List β) (h : q + n ≤ pos) : read (write f pos data) q n = read f q n := by
  apply read_congr
  intro i _ hhigh
  simp [write, show i < pos by omega]

lemma read_write_after (data : List β) (h : pos + data.length ≤ q) : read (write f pos data) q n = read f q n := by
  apply read_congr
  intro i hlow _
  rw [write, if_neg (by omega), getD_eq_default _ _ (by omega)]

lemma read_write (data : List β) : read (write f pos data) pos data.length = data := by
  induction data generalizing f pos with
  | nil => rfl
  | cons x data ih =>
    have htail : read (write f pos (x :: data)) (pos + 1) data.length =
        read (write f (pos + 1) data) (pos + 1) data.length := by
      apply read_congr
      intro i hlow _
      have hsucc : i - pos = (i - (pos + 1)) + 1 := by omega
      rw [write, write, if_neg (by omega), if_neg (by omega), hsucc, getD_cons_succ]
    rw [length_cons, read, htail, ih]
    simp [write]

@[simp] lemma write_nil : write f pos [] = f := by
  funext i
  simp [write]

lemma write_append (a b : List β) : write (write f pos a) (pos + a.length) b = write f pos (a ++ b) := by
  funext i
  simp only [write]
  by_cases hlow : i < pos
  · rw [if_pos (by omega), if_pos hlow, if_pos hlow]
  by_cases hmid : i < pos + a.length
  · rw [if_pos hmid, if_neg hlow, if_neg hlow, getD_append _ _ _ _ (by omega)]
  · rw [if_neg hmid, if_neg hlow, if_neg hlow, getD_append_right _ _ _ _ (by omega),
      getD_eq_default a _ (by omega), Nat.sub_sub]

lemma write_behind (a b : List β) (hq : q = pos + a.length) : write (write f pos a) q b = write f pos (a ++ b) := by
  rw [hq, write_append]

/-- Writing right behind a run extends it. -/
lemma read_write_append (n : ℕ) (data : List β) :
    read (write f (pos + n) data) pos (n + data.length) = read f pos n ++ data := by
  rw [read_add, read_write, read_write_before f (pos + n) data (le_refl _)]

/-- Writing right before a run extends it to the front. -/
lemma read_write_prepend (n : ℕ) (data : List β) :
    read (write f pos data) pos (data.length + n) = data ++ read f (pos + data.length) n := by
  rw [read_add, read_write, read_write_after f pos data (le_refl _)]

end ByteBlock
