import Mathlib

/-!
# The weak random numbers of `evutil.c`
-/

namespace MyLibevent

/-- `EVUTIL_WEAKRAND_MAX`. -/
def evutilWeakrandMax : Nat := 2 ^ 31 - 1

/-- The seed that `evutil_weakrand_` leaves in the state and returns. -/
def evutilWeakrand (seed : UInt32) : UInt32 := (seed * 1103515245 + 12345) &&& 0x7fffffff

/-- The candidate of one turn of the loop of `evutil_weakrand_range_`, for the seed after the turn. -/
def candidate (top : Nat) (seed : UInt32) : Nat := seed.toNat / (evutilWeakrandMax / top)

/-- `evutil_weakrand_range_`: the result and the seed after it, or `none` if the loop has not ended
after the given number of turns. -/
def evutilWeakrandRange (top : Nat) : Nat → UInt32 → Option (Nat × UInt32)
  | 0, _ => none
  | fuel + 1, seed =>
    let seed := evutilWeakrand seed
    let result := candidate top seed
    if top ≤ result then evutilWeakrandRange top fuel seed else some (result, seed)

end MyLibevent
