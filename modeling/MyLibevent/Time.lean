import Mathlib

/-!
# Time values

`struct timeval` and the comparison and arithmetic macros of `event2/util.h`. `usec` is the
bit pattern of `tv_usec`: besides the microseconds it carries the common-timeout magic. The timer of
`evutil_time.c` is the one of a system without a monotonic clock.
-/

namespace MyLibevent

/-- `struct timeval`. -/
@[ext]
structure Timeval where
  sec : Int
  usec : Nat
deriving DecidableEq, Repr

namespace Timeval

def key (t : Timeval) : Int ×ₗ Nat := toLex (t.sec, t.usec)

lemma key_injective : Function.Injective key := by
  intro s t h
  have h' : (s.sec, s.usec) = (t.sec, t.usec) := h
  exact Timeval.ext (congrArg Prod.fst h') (congrArg Prod.snd h')

instance : LinearOrder Timeval := LinearOrder.lift' key key_injective

lemma le_iff (s t : Timeval) : s ≤ t ↔ s.sec < t.sec ∨ s.sec = t.sec ∧ s.usec ≤ t.usec := by
  change toLex (s.sec, s.usec) ≤ toLex (t.sec, t.usec) ↔ _
  rw [Prod.Lex.toLex_le_toLex]

lemma lt_iff (s t : Timeval) : s < t ↔ s.sec < t.sec ∨ s.sec = t.sec ∧ s.usec < t.usec := by
  change toLex (s.sec, s.usec) < toLex (t.sec, t.usec) ↔ _
  rw [Prod.Lex.toLex_lt_toLex]

end Timeval

def microsecondsMask : Nat := 0x000fffff

def Timeval.masked (tv : Timeval) : Timeval := { tv with usec := tv.usec &&& microsecondsMask }

def evutilTimercmpGt (tvp uvp : Timeval) : Bool :=
  if tvp.sec = uvp.sec then decide (tvp.usec > uvp.usec) else decide (tvp.sec > uvp.sec)

lemma evutilTimercmpGt_iff (s t : Timeval) : evutilTimercmpGt s t ↔ t < s := by
  rw [Timeval.lt_iff]
  unfold evutilTimercmpGt
  split <;> simp only [decide_eq_true_eq] <;> omega

def evutilTimercmpGe (tvp uvp : Timeval) : Bool :=
  if tvp.sec = uvp.sec then decide (tvp.usec ≥ uvp.usec) else decide (tvp.sec ≥ uvp.sec)

lemma evutilTimercmpGe_iff (s t : Timeval) : evutilTimercmpGe s t ↔ t ≤ s := by
  rw [Timeval.le_iff]
  unfold evutilTimercmpGe
  split <;> simp only [decide_eq_true_eq] <;> omega

def evutilTimeradd (tvp uvp : Timeval) : Timeval :=
  if tvp.usec + uvp.usec ≥ 1000000 then
    ⟨tvp.sec + uvp.sec + 1, tvp.usec + uvp.usec - 1000000⟩
  else ⟨tvp.sec + uvp.sec, tvp.usec + uvp.usec⟩

def evutilTimersub (tvp uvp : Timeval) : Timeval :=
  if tvp.usec < uvp.usec then ⟨tvp.sec - uvp.sec - 1, tvp.usec + 1000000 - uvp.usec⟩
  else ⟨tvp.sec - uvp.sec, tvp.usec - uvp.usec⟩

/-- `struct evutil_monotonic_timer`. -/
structure EvutilMonotonicTimer where
  adjustMonotonicClock : Timeval := ⟨0, 0⟩
  lastTime : Timeval := ⟨0, 0⟩

namespace EvutilMonotonicTimer

def adjustMonotonicTime (base : EvutilMonotonicTimer) (tv : Timeval) : Timeval × EvutilMonotonicTimer :=
  let tv := evutilTimeradd tv base.adjustMonotonicClock
  -- the source compares the other way round, with `<`
  if evutilTimercmpGt base.lastTime tv then
    let adjust := evutilTimersub base.lastTime tv
    (base.lastTime, { base with adjustMonotonicClock := evutilTimeradd adjust base.adjustMonotonicClock })
  else (tv, { base with lastTime := tv })

/-- The time is `none` if `evutil_gettimeofday` fails. -/
def evutilGettimeMonotonic (base : EvutilMonotonicTimer) : Option Timeval → Option Timeval × EvutilMonotonicTimer
  | none => (none, base)
  | some tv =>
    let (tp, base) := base.adjustMonotonicTime tv
    (some tp, base)

/-- The timer after the first `n` readings of the clock. -/
def afterReadings (readings : Nat → Timeval) : Nat → EvutilMonotonicTimer
  | 0 => {}
  | n + 1 => ((afterReadings readings n).evutilGettimeMonotonic (some (readings n))).2

def output (readings : Nat → Timeval) (n : Nat) : Option Timeval :=
  ((afterReadings readings n).evutilGettimeMonotonic (some (readings n))).1

end EvutilMonotonicTimer

end MyLibevent
