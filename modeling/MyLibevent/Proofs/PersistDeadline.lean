import MyLibevent.Proofs.CommonTimeoutAdd

/-!
# The next deadline of a persistent event

The number of a common timeout list is taken out of the last deadline and the interval before they are added,
and is put back afterwards.
-/

namespace MyLibevent.Proofs

open EventBase FiledLists

section StaysListed

variable {ε β : Type*} {b b' b'' : EventBase ε β} {x y : EventRef ε}

structure StaysListed (y : EventRef ε) (b b' : EventBase ε β) : Prop where
  timeout : (b'.ev y).timeout = (b.ev y).timeout
  mem : ∀ i, y ∈ b.commonEvents i → y ∈ b'.commonEvents i

lemma StaysListed.refl : StaysListed y b b := ⟨rfl, fun _ => id⟩

lemma StaysListed.trans (h : StaysListed y b b') (h' : StaysListed y b' b'') : StaysListed y b b'' :=
  ⟨h'.timeout.trans h.timeout, fun i hi => h'.mem i (h.mem i hi)⟩

variable [DecidableEq ε]

omit [DecidableEq ε] in
lemma Touched.staysListed (ht : Touched x b b') (hne : y ≠ x) : StaysListed y b b' := by
  refine ⟨?_, fun i => ht.listed i y hne⟩
  rw [ht.ev y hne]

lemma staysListed_modifyEv (f : Event → Event) (hne : y ≠ x) : StaysListed y b (b.modifyEv x f) := by
  refine ⟨?_, fun _ => id⟩
  rw [ev_modifyEv, if_neg hne]

lemma eventQueueInsertTimeout_staysListed (grow : Bool) (hoff : (b.ev x).flags .timeout = false) :
    StaysListed y b (b.eventQueueInsertTimeout grow x) := by
  refine ⟨?_, ?_⟩
  · obtain ⟨heap, queues, abort, heq⟩ := eventQueueInsertTimeout_changes grow hoff
    rw [heq]
    exact congrFun (timeouts_of_setFlag (b := b) (x := x) (k := .timeout) (v := true) rfl) y
  · intro i hi
    rw [commonEvents_eventQueueInsertTimeout grow hoff]
    split
    · rw [Function.update_apply]
      split_ifs with hidx
      · rw [(inorder_perm b _ x).mem_iff, ← hidx]
        exact List.mem_cons_of_mem _ hi
      · exact hi
    · exact hi

/-- Moves of any event but `y`. -/
def Moving.except (y : EventRef ε) : Moving ε := ⟨fun x => y ≠ x, fun x => y ≠ x, fun _ => True⟩

lemma Moves.staysListed (hm : Moves (.except y) b b') : StaysListed y b b' := by
  refine hm.keeps StaysListed.refl fun c c' h hmove => h.trans ?_
  rcases hmove.touches with ⟨x, hx, ht⟩ | ⟨x, hx, ⟨tv, rfl⟩ | ⟨t, rfl⟩ | ⟨grow, hoff, rfl⟩⟩
  · exact ht.staysListed hx
  · exact staysListed_modifyEv _ hx
  · exact staysListed_modifyEv _ hx
  · exact eventQueueInsertTimeout_staysListed grow hoff

section Functions

variable (be : EventBackend β) {e : ε}

lemma eventAddTimeout_deadline (grow grow' : Bool) (now tv : Timeval) (hx : x = .event e)
    (b' : EventBase ε β)
    (hb' : b' = b.eventAddTimeout (commonTimeoutSchedule be grow' now) grow now x tv true) :
    (b'.ev x).timeout = tv ∧ (b.isCommonTimeout tv → x ∈ b'.commonEvents (commonTimeoutIdx tv)) := by
  obtain ⟨_, b2, rfl, htouched, -, hoff, b3, hb3, heq⟩ :=
    eventAddTimeout_steps (b := b) (x := x) (commonTimeoutSchedule be grow' now) grow now tv true
  rw [if_neg fun h => Bool.noConfusion h.2] at htouched
  have htimed : Timed x tv b2 b3 := hb3 ▸ timed_insert grow hoff _
  have hkept : StaysListed x b3 b' := by
    have hne (j : Nat) : x ≠ .timeoutEvent j := by
      rw [hx]
      nofun
    rw [hb', heq]
    split
    · exact Moves.staysListed (commonTimeoutSchedule_moves trivial (hne _) (hne _) now _)
    · exact StaysListed.refl
  refine ⟨hkept.timeout.trans htimed.timeout, fun hcommon => hkept.mem _ ?_⟩
  rw [← isCommonTimeout_congr htouched.length] at hcommon
  exact (htimed.listed hcommon).1.mem_iff.2 List.mem_cons_self

lemma eventAddNolock_deadline (alloc : EventAlloc) (now tv : Timeval)
    (hadded : (b.eventAddNolock be alloc now (.event e) (some tv) true).1 ≠ -1) (b' : EventBase ε β)
    (hb' : b' = (b.eventAddNolock be alloc now (.event e) (some tv) true).2) :
    (b'.ev (.event e)).timeout = tv ∧
      (b.isCommonTimeout tv → .event e ∈ b'.commonEvents (commonTimeoutIdx tv)) := by
  unfold eventAddNolock eventAddBody at hadded hb'
  split at hb'
  · rename_i hfin
    rw [if_pos hfin] at hadded
    exact absurd rfl hadded
  · rename_i hfin
    rw [if_neg hfin] at hadded
    split at hb'
    · rename_i hreserve
      rw [if_pos hreserve] at hadded
      exact absurd rfl hadded
    · rename_i hreserve
      rw [if_neg hreserve] at hadded
      revert hb' hadded
      extract_lets b1 r
      have hlen : r.2.commonTimeoutQueues.length = b.commonTimeoutQueues.length := by
        have h1 : b1.commonTimeoutQueues = b.commonTimeoutQueues := by
          unfold b1
          split <;> rfl
        have htouched : Touched (.event e) b1 r.2 := eventAddInserted_touched alloc.evmap
        rw [htouched.length, h1]
      split_ifs with hfailed
      · intro _ hb'
        rw [← isCommonTimeout_congr hlen]
        exact eventAddTimeout_deadline be alloc.push alloc.schedule now tv rfl b' hb'
      · intro hadded
        exact absurd (not_not.mp hfailed) hadded

end Functions

end StaysListed

section Bits

variable {ε β : Type*} {b : EventBase ε β} {t t' : Timeval}

lemma div_eq_of_isSame (h : isSameCommonTimeout t t') : t.usec / 2 ^ 20 = t'.usec / 2 ^ 20 := by
  have hbits : magicBits t.usec = magicBits t'.usec := beq_iff_eq.mp h
  rw [magicBits_eq, magicBits_eq] at hbits
  omega

lemma isCommonTimeout_of_isSame (h : isSameCommonTimeout t t') : b.isCommonTimeout t = b.isCommonTimeout t' := by
  have hdiv := div_eq_of_isSame h
  rw [Bool.eq_iff_iff, isCommonTimeout_iff, isCommonTimeout_iff, hdiv]
  omega

lemma restored_spec {run : Timeval} (hrun : run.usec ≤ 999999) (t : Timeval) (next : Timeval)
    (hnext : next = { run with usec := run.usec ||| magicBits t.usec % 2 ^ 32 }) :
    next.masked = run ∧ b.isCommonTimeout next = b.isCommonTimeout t ∧
      commonTimeoutIdx next = commonTimeoutIdx t := by
  have hmask : magicBits t.usec % 2 ^ 32 = 2 ^ 20 * (t.usec / 2 ^ 20 % 2 ^ 12) := by
    rw [magicBits_eq]
    omega
  have husec : next.usec = run.usec + 2 ^ 20 * (t.usec / 2 ^ 20 % 2 ^ 12) := by
    rw [hnext, hmask]
    exact or_magic (by omega) _
  refine ⟨?_, ?_, ?_⟩
  · ext
    · rw [hnext]
      rfl
    · rw [masked_usec, husec]
      omega
  · rw [Bool.eq_iff_iff, isCommonTimeout_iff, isCommonTimeout_iff, husec]
    omega
  · rw [commonTimeoutIdx_eq, commonTimeoutIdx_eq, husec]
    omega

end Bits

section Closure

variable {ε β : Type*} [DecidableEq ε] {b : EventBase ε β} {e : ε} {deadline delay now : Timeval}

/-- An event with an interval, which is plain or that of a common timeout list; the deadline is of the
same kind, as `event_persist_closure` asserts. -/
structure HasInterval (b : EventBase ε β) (ev : Event) : Prop where
  set : ev.ioTimeout ≠ ⟨0, 0⟩
  nonneg : 0 ≤ ev.ioTimeout.sec
  kind : ev.ioTimeout.usec < 1000000 ∨ b.isCommonTimeout ev.ioTimeout
  interval : ev.ioTimeout.masked.usec ≤ 1000000
  same : isSameCommonTimeout ev.timeout ev.ioTimeout
  deadline : ev.timeout.masked.usec < 1000000

def nextMicros (deadline interval now : Int) : Int :=
  if now ≤ deadline + interval then deadline + interval else now + interval

def runAt (deadline delay now : Timeval) : Timeval :=
  if evutilTimercmpGt now (evutilTimeradd deadline delay) then evutilTimeradd now delay
  else evutilTimeradd deadline delay

lemma runAt_usec (hdeadline : deadline.usec < 1000000) (hdelay : delay.usec ≤ 1000000)
    (hnow : now.usec < 1000000) : (runAt deadline delay now).usec ≤ 999999 := by
  unfold runAt
  split
  · exact evutilTimeradd_usec hnow hdelay
  · exact evutilTimeradd_usec hdeadline hdelay

lemma micros_runAt (hdeadline : deadline.usec < 1000000) (hdelay : delay.usec ≤ 1000000)
    (hnow : now.usec < 1000000) :
    micros (runAt deadline delay now) = nextMicros (micros deadline) (micros delay) (micros now) := by
  have hsum := evutilTimeradd_usec hdeadline hdelay
  have hpast : evutilTimercmpGt now (evutilTimeradd deadline delay) ↔
      micros deadline + micros delay < micros now := by
    rw [evutilTimercmpGt_iff, lt_iff_micros hsum (by omega), micros_timeradd]
  unfold runAt nextMicros
  by_cases hlate : micros deadline + micros delay < micros now
  · rw [if_pos (hpast.mpr hlate), if_neg (by omega), micros_timeradd]
  · rw [if_neg (fun hc => hlate (hpast.mp hc)), if_pos (by omega), micros_timeradd]

lemma eventPersistClosure_eq (be : EventBackend β) (alloc : EventAlloc) (now : Timeval)
    (h : HasInterval b (b.ev (.event e))) (hres : (b.ev (.event e)).res &&& evTimeout ≠ 0) :
    ∃ next, b.eventPersistClosure be alloc now (.event e) =
        (b.eventAddNolock be alloc now (.event e) (some next) true).2 ∧
      next = { runAt (b.ev (.event e)).timeout.masked (b.ev (.event e)).ioTimeout.masked now with
        usec := (runAt (b.ev (.event e)).timeout.masked (b.ev (.event e)).ioTimeout.masked
          now).usec ||| magicBits (b.ev (.event e)).timeout.usec % 2 ^ 32 } := by
  obtain ⟨hset, -, hkind, -, hsame, -⟩ := h
  have hdiv := div_eq_of_isSame hsame
  have hbits : magicBits (b.ev (.event e)).ioTimeout.usec = magicBits (b.ev (.event e)).timeout.usec := by
    rw [magicBits_eq, magicBits_eq, hdiv]
  have hnonzero : (b.ev (.event e)).ioTimeout.sec ≠ 0 ∨ (b.ev (.event e)).ioTimeout.usec ≠ 0 := by
    by_contra hzero
    rw [not_or, not_not, not_not] at hzero
    exact hset (Timeval.ext hzero.1 hzero.2)
  have hassert : b.evutilAssert (isSameCommonTimeout (b.ev (.event e)).timeout
      (b.ev (.event e)).ioTimeout) = b := by
    unfold evutilAssert
    rw [hsame, Bool.not_true, Bool.or_false]
  refine ⟨_, ?_, rfl⟩
  unfold eventPersistClosure
  dsimp only
  rw [if_pos hnonzero, hassert, if_pos hres]
  rcases hkind with hplain | hcommon
  · -- without a number of a list, masking changes nothing
    have hdeadline : (b.ev (.event e)).timeout.usec < 2 ^ 20 := by omega
    have hmagic : magicBits (b.ev (.event e)).timeout.usec % 2 ^ 32 = 0 := by
      rw [magicBits_eq]
      omega
    rw [isCommonTimeout_plain hdeadline, hmagic, masked_plain hdeadline, masked_plain (lt_trans hplain (by decide))]
    rfl
  · rw [isCommonTimeout_of_isSame hsame, hcommon, hbits]
    rfl

/-- The next deadline of a persistent event that runs because of its timeout is the last one plus the
interval, or the current time plus the interval if that has passed, and belongs to the same list. -/
theorem eventPersistClosure_next (be : EventBackend β) (alloc : EventAlloc) (now : Timeval)
    (hnow : now.usec < 1000000) (h : HasInterval b (b.ev (.event e)))
    (hres : (b.ev (.event e)).res &&& evTimeout ≠ 0) :
    ∃ next, b.eventPersistClosure be alloc now (.event e) =
        (b.eventAddNolock be alloc now (.event e) (some next) true).2 ∧
      micros next.masked = nextMicros (micros (b.ev (.event e)).timeout.masked)
        (micros (b.ev (.event e)).ioTimeout.masked) (micros now) ∧
      micros now ≤ micros next.masked ∧
      b.isCommonTimeout next = b.isCommonTimeout (b.ev (.event e)).timeout ∧
      commonTimeoutIdx next = commonTimeoutIdx (b.ev (.event e)).timeout ∧
      ((b.eventAddNolock be alloc now (.event e) (some next) true).1 ≠ -1 →
        ((b.eventPersistClosure be alloc now (.event e)).ev (.event e)).timeout = next ∧
        (b.isCommonTimeout (b.ev (.event e)).timeout → .event e ∈
          (b.eventPersistClosure be alloc now (.event e)).commonEvents
            (commonTimeoutIdx (b.ev (.event e)).timeout))) := by
  obtain ⟨next, hclosure, hnext⟩ := eventPersistClosure_eq be alloc now h hres
  obtain ⟨hmasked, hcommon, hidx⟩ := restored_spec (b := b)
    (runAt_usec h.deadline h.interval hnow) (b.ev (.event e)).timeout next hnext
  have hmicros := micros_runAt h.deadline h.interval hnow
  have hdelay : 0 ≤ micros (b.ev (.event e)).ioTimeout.masked := by
    have hnonneg : 0 ≤ (b.ev (.event e)).ioTimeout.masked.sec := h.nonneg
    unfold micros
    omega
  rw [← hmasked] at hmicros
  refine ⟨next, hclosure, hmicros, ?_, hcommon, hidx, ?_⟩
  · rw [hmicros]
    unfold nextMicros
    split
    · assumption
    · omega
  · intro hadded
    obtain ⟨htimeout, hmem⟩ := eventAddNolock_deadline be alloc now next hadded _ hclosure
    rw [hcommon, hidx] at hmem
    exact ⟨htimeout, hmem⟩

def overdueTimer : EventBase Unit Unit :=
  (EventRun.start (fun _ => ⟨-1, { persist := true }, false, ⟨0, 0⟩, nofun⟩) 1 ()
    (fun _ => .event ()) [⟨5, 0⟩]).base.modifyEv (.event ()) fun ev =>
      { ev with timeout := ⟨15, commonUsec 0 0⟩, ioTimeout := ⟨5, commonUsec 0 0⟩, res := evTimeout }

theorem eventPersistClosure_next_overdue :
    HasInterval overdueTimer (overdueTimer.ev (.event ())) ∧
      ∃ next, micros next.masked = 20000000 ∧ commonTimeoutIdx next = 0 ∧
        ((overdueTimer.eventAddNolock quietBackend {} ⟨16, 0⟩ (.event ()) (some next) true).1 ≠ -1 →
          .event () ∈ (overdueTimer.eventPersistClosure quietBackend {} ⟨16, 0⟩ (.event ())).commonEvents 0) := by
  have hinterval : HasInterval overdueTimer (overdueTimer.ev (.event ())) := by
    constructor <;> decide
  obtain ⟨next, -, hmicros, -, -, hidx, hadded⟩ :=
    eventPersistClosure_next quietBackend {} ⟨16, 0⟩ (by decide) hinterval (by decide)
  exact ⟨hinterval, next, hmicros, hidx, fun h => (hadded h).2 rfl⟩

end Closure

end MyLibevent.Proofs
