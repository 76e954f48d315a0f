import Mathlib

/-!
# Positions in a list that is cut into segments

The elements of all segments `cs` in a row are `cs.flatten`; `offset cs i` is where segment `i` begins.
-/

namespace Segments

open List

variable {α : Type*}

/-- The position of the first element of segment `i`. -/
def offset (cs : List (List α)) (i : Nat) : Nat := (cs.take i).flatten.length

/-- A segment, empty behind the last one. -/
def segment (cs : List (List α)) (i : Nat) : List α := cs.getD i []

variable {cs : List (List α)} {i j : Nat}

@[simp] lemma offset_zero : offset cs 0 = 0 := rfl

lemma drop_eq_cons (hi : i < cs.length) : cs.drop i = segment cs i :: cs.drop (i + 1) := by
  rw [segment, getD_eq_getElem _ _ hi]
  exact drop_eq_getElem_cons hi

lemma offset_succ (hi : i < cs.length) : offset cs (i + 1) = offset cs i + (segment cs i).length := by
  rw [offset, offset, segment, getD_eq_getElem _ _ hi, take_succ_eq_append_getElem hi,
    flatten_append, length_append, flatten_singleton]

lemma offset_of_length_le (hi : cs.length ≤ i) : offset cs i = cs.flatten.length := by
  rw [offset, take_of_length_le hi]

/-- What stands at a position of segment `i` and behind it. -/
lemma drop_offset_add (hi : i < cs.length) (hj : j ≤ (segment cs i).length) :
    cs.flatten.drop (offset cs i + j) = (segment cs i).drop j ++ (cs.drop (i + 1)).flatten := by
  have hcut : cs.flatten = (cs.take i).flatten ++ (segment cs i ++ (cs.drop (i + 1)).flatten) := by
    rw [← flatten_cons, ← drop_eq_cons hi, ← flatten_append, take_append_drop]
  rw [hcut, offset, drop_length_add_append, drop_append_of_le_length hj]

lemma offset_le (cs : List (List α)) (i : Nat) : offset cs i ≤ cs.flatten.length := by
  rw [offset]
  exact ((take_sublist i cs).flatten).length_le

lemma offset_add_le (hi : i < cs.length) (hj : j ≤ (segment cs i).length) :
    offset cs i + j ≤ cs.flatten.length := by
  have hnext := offset_le cs (i + 1)
  rw [offset_succ hi] at hnext
  omega

end Segments
