import Mathlib

/-!
The integer limits of `event2/util.h` on a platform with 64-bit `size_t`.
-/

namespace MyLibevent

def evSizeMax : Nat := 2 ^ 64 - 1

def evSsizeMax : Nat := 2 ^ 63 - 1

def toInt (n : Nat) : Int := (BitVec.ofNat 32 n).toInt

def cInt (n : Int) : Int := n.bmod (2 ^ 32)

lemma cInt_of_le {n : Int} (hlow : -2 ^ 31 ≤ n) (hhigh : n < 2 ^ 31) : cInt n = n := by
  unfold cInt
  apply Int.bmod_eq_of_le
  · omega
  · omega

lemma le_cInt (n : Int) : -2 ^ 31 ≤ cInt n := by
  have h : -(((2 ^ 32 : Nat) : Int) / 2) ≤ n.bmod (2 ^ 32) := Int.le_bmod (by decide)
  unfold cInt
  omega

lemma cInt_cInt_add (a b : Int) : cInt (cInt a + b) = cInt (a + b) := Int.bmod_add_bmod

end MyLibevent
