import MyLibevent.Time

/-!
# Microseconds

Times as numbers of microseconds, and the times that a clock which may be set back gives.
-/

namespace MyLibevent.Proofs

open EvutilMonotonicTimer

def micros (t : Timeval) : Int := t.sec * 1000000 + t.usec

variable {s t : Timeval}

lemma micros_timeradd (s t : Timeval) : micros (evutilTimeradd s t) = micros s + micros t := by
  unfold evutilTimeradd micros
  split
  · dsimp only
    omega
  · dsimp only
    omega

lemma lt_iff_micros (hs : s.usec ≤ 999999) (ht : t.usec ≤ 999999) : s < t ↔ micros s < micros t := by
  rw [Timeval.lt_iff]
  unfold micros
  omega

lemma evutilTimeradd_usec (hs : s.usec < 1000000) (ht : t.usec ≤ 1000000) : (evutilTimeradd s t).usec ≤ 999999 := by
  unfold evutilTimeradd
  split
  · dsimp only
    omega
  · dsimp only
    omega

lemma evutilTimersub_spec (hs : s.usec ≤ 999999) (ht : t.usec ≤ 999999) :
    micros (evutilTimersub s t) = micros s - micros t ∧ (evutilTimersub s t).usec ≤ 999999 := by
  unfold evutilTimersub micros
  split
  · dsimp only
    omega
  · dsimp only
    omega

/-- The last time is the last reading with the adjustment added. -/
structure Ratchet (base : EvutilMonotonicTimer) (reading : Int) : Prop where
  adjusted : micros base.lastTime = reading + micros base.adjustMonotonicClock
  lastTime : base.lastTime.usec ≤ 999999
  adjustment : base.adjustMonotonicClock.usec ≤ 999999

lemma Ratchet.step {base : EvutilMonotonicTimer} {reading : Int} (h : Ratchet base reading) {tv : Timeval}
    (htv : tv.usec < 1000000) : ∃ base', base.evutilGettimeMonotonic (some tv) = (some base'.lastTime, base') ∧
      micros base'.lastTime = micros base.lastTime + max 0 (micros tv - reading) ∧ Ratchet base' (micros tv) := by
  obtain ⟨hadjusted, hlast, hsmall⟩ := h
  have hsum := micros_timeradd tv base.adjustMonotonicClock
  have hbound := evutilTimeradd_usec htv (show base.adjustMonotonicClock.usec ≤ 1000000 by omega)
  unfold evutilGettimeMonotonic adjustMonotonicTime
  dsimp only
  generalize evutilTimeradd tv base.adjustMonotonicClock = now at hsum hbound ⊢
  split_ifs with hback
  · rw [evutilTimercmpGt_iff, lt_iff_micros hbound hlast] at hback
    obtain ⟨hdiff, husec⟩ := evutilTimersub_spec hlast hbound
    have hadjust := micros_timeradd (evutilTimersub base.lastTime now) base.adjustMonotonicClock
    exact ⟨⟨_, base.lastTime⟩, rfl, by dsimp only; omega, by dsimp only; omega, hlast,
      evutilTimeradd_usec (by omega) (by omega)⟩
  · rw [evutilTimercmpGt_iff, lt_iff_micros hbound hlast] at hback
    exact ⟨⟨_, now⟩, rfl, by dsimp only; omega, hsum, hbound, hsmall⟩

section Run

variable {readings : Nat → Timeval} (hnorm : ∀ n, (readings n).usec < 1000000)
include hnorm

/-- A timer starts as if the time 0 had been read. -/
lemma exists_ratchet (n : Nat) : ∃ reading, Ratchet (afterReadings readings n) reading := by
  induction n with
  | zero => exact ⟨0, rfl, Nat.zero_le _, Nat.zero_le _⟩
  | succ n ih =>
    obtain ⟨reading, h⟩ := ih
    obtain ⟨base', hstep, -, hbase'⟩ := h.step (hnorm n)
    rw [afterReadings, hstep]
    exact ⟨_, hbase'⟩

theorem monotonic_time_follows_clock (n : Nat) : ∃ tp tp', output readings n = some tp ∧
    output readings (n + 1) = some tp' ∧
    micros tp' = micros tp + max 0 (micros (readings (n + 1)) - micros (readings n)) ∧
    tp ≤ tp' ∧ tp.usec < 1000000 ∧ tp'.usec < 1000000 := by
  obtain ⟨reading, h⟩ := exists_ratchet hnorm n
  obtain ⟨base, hstep, -, hbase⟩ := h.step (hnorm n)
  obtain ⟨base', hstep', hmicros, hbase'⟩ := hbase.step (hnorm (n + 1))
  have hlast := hbase.lastTime
  have hlast' := hbase'.lastTime
  refine ⟨base.lastTime, base'.lastTime, ?_, ?_, hmicros, ?_, by omega, by omega⟩
  · rw [output, hstep]
  · rw [output, afterReadings, hstep, hstep']
  · rw [← not_lt, lt_iff_micros hlast' hlast]
    omega

end Run

/-- A clock that is set back by a second before each reading. -/
theorem monotonic_time_stands_still : ∃ tp tp', output (fun n => ⟨-n, 0⟩) 0 = some tp ∧
    output (fun n => ⟨-n, 0⟩) 1 = some tp' ∧ micros tp' = micros tp := by
  obtain ⟨tp, tp', hout, hout', hmicros, -⟩ :=
    @monotonic_time_follows_clock (fun n => ⟨-n, 0⟩) (fun _ => Nat.zero_lt_succ _) 0
  exact ⟨tp, tp', hout, hout', by simpa [micros] using hmicros⟩

end MyLibevent.Proofs
