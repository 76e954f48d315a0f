import Mathlib

/-!
Words as the bytes that a machine stores for them, from the lowest byte on.
-/

namespace WordBytes

/-- The lowest `w` bytes of a number. -/
def bytes : ℕ → ℕ → List UInt8
  | 0, _ => []
  | w + 1, n => UInt8.ofNat n :: bytes w (n / 256)

/-- The number that the bytes stand for. -/
def value : List UInt8 → ℕ
  | [] => 0
  | b :: l => b.toNat + 256 * value l

@[simp] lemma length_bytes (w n : ℕ) : (bytes w n).length = w := by
  induction w generalizing n with
  | zero => rfl
  | succ w ih => rw [bytes, List.length_cons, ih]

lemma value_bytes (w n : ℕ) : value (bytes w n) = n % 256 ^ w := by
  induction w generalizing n with
  | zero => simp [bytes, value, Nat.mod_one]
  | succ w ih =>
    have hlow : (UInt8.ofNat n).toNat = n % 256 := UInt8.toNat_ofNat'
    rw [bytes, value, ih, hlow, pow_succ, mul_comm (256 ^ w), Nat.mod_mul]

lemma bytes_value (l : List UInt8) : bytes l.length (value l) = l := by
  induction l with
  | nil => rfl
  | cons b l ih =>
    have hb : b.toNat < 256 := b.toNat_lt
    have hlow : UInt8.ofNat (b.toNat + 256 * value l) = b := by
      apply UInt8.toNat_inj.mp
      rw [UInt8.toNat_ofNat']
      omega
    rw [List.length_cons, bytes, value, hlow, show (b.toNat + 256 * value l) / 256 = value l by omega, ih]

lemma value_lt (l : List UInt8) : value l < 256 ^ l.length := by
  have h := value_bytes l.length (value l)
  rw [bytes_value] at h
  rw [h]
  exact Nat.mod_lt _ (Nat.pow_pos (by decide))

/-- Of the numbers that fit, only the number itself is stored as its bytes. -/
lemma value_eq_iff {l : List UInt8} {n : ℕ} (hn : n < 256 ^ l.length) : value l = n ↔ l = bytes l.length n := by
  constructor
  · intro h
    rw [← h, bytes_value]
  · intro h
    rw [h, value_bytes, Nat.mod_eq_of_lt hn]

end WordBytes
