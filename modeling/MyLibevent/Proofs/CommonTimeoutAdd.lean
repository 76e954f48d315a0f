import MyLibevent.Proofs.CommonTimeout
import MyLibevent.Proofs.Time

/-!
# Adding events with common timeouts

`event_add_nolock_` puts an event into the list of its timeout and schedules the internal event of
the list when the event comes first in it.
-/

namespace MyLibevent.Proofs

open EventBase FiledLists

section Add

variable {ε β : Type*} {b b' : EventBase ε β} {x : EventRef ε}
  {exc exc' : Nat → Prop} {i : Nat} {tv t now : Timeval} {e : ε} {alloc : EventAlloc}

structure Rescheduled (i : Nat) (b b' : EventBase ε β) : Prop where
  ev : ∀ y, y ≠ .timeoutEvent i → b'.ev y = b.ev y
  lists : ∀ j, (b'.commonEvents j).Sublist (b.commonEvents j)
  length : b'.commonTimeoutQueues.length = b.commonTimeoutQueues.length
  current : b'.currentEvent = b.currentEvent

lemma IoInv.rescheduled (h : IoInv b) (hinv : TimerInv exc b') (hres : Rescheduled i b b') : IoInv b' := by
  intro y hy
  cases y with
  | event e =>
    rw [hres.ev (.event e) nofun] at hy ⊢
    rw [hres.length]
    exact h _ hy
  | timeoutEvent j =>
    rw [(hinv.plain j).1] at hy
    exact nomatch hy

lemma TimerInv.mono (h : TimerInv exc b) (hexc : ∀ i, exc i → exc' i) : TimerInv exc' b :=
  { h with sched := fun i => (h.sched i).imp_left (hexc i) }

/-- A time value that is asked for and the deadline that it gives are both plain, or belong to the
same list. -/
def SameKind (n : Nat) (tv t : Timeval) : Prop :=
  tv.usec ≤ 1000000 ∧ t.usec ≤ 999999 ∨ ∃ i < n, ∃ u ≤ 1000000, ∃ v ≤ 999999,
    tv.usec = commonUsec i u ∧ t.usec = commonUsec i v

lemma SameKind.usecOk {n : Nat} (h : SameKind n tv t) : UsecOk 999999 n t.usec := by
  rcases h with ⟨-, h⟩ | ⟨i, hi, -, -, v, hv, -, h⟩
  · exact .inl h
  · exact .inr ⟨i, hi, v, hv, h⟩

lemma SameKind.isCommonTimeout (hn : b.commonTimeoutQueues.length ≤ maxCommonTimeouts)
    (h : SameKind b.commonTimeoutQueues.length tv t) :
    b.isCommonTimeout tv = b.isCommonTimeout t := by
  have hmax : maxCommonTimeouts = 256 := rfl
  rcases h with ⟨htv, ht⟩ | ⟨i, hi, u, hu, v, hv, htv, ht⟩
  · rw [isCommonTimeout_plain (by omega), isCommonTimeout_plain (by omega)]
  · rw [(isCommonTimeout_common htv (by omega) (by omega)).2 hi,
      (isCommonTimeout_common ht (by omega) (by omega)).2 hi]

structure TimersOk (exc : Nat → Prop) (b : EventBase ε β) : Prop where
  inv : TimerInv exc b
  io : IoInv b

lemma TimersOk.touched (h : TimersOk exc b) (ht : Touched x b b') (hbase : BaseInv b')
    (hexc : ∀ i, exc i → exc' i)
    (hx : ∀ i, x = .timeoutEvent i → i < b.commonTimeoutQueues.length ∧ (exc' i ∨ (b'.ev x).flags .active)) :
    TimersOk exc' b' :=
  ⟨h.inv.untimed ht.toUntimed hbase hexc hx, h.io.touched ht⟩

def TvOk (b : EventBase ε β) (tv : Timeval) : Prop :=
  tv.usec < 1000000 ∨ tv ∈ b.commonTimeoutQueues.map CommonTimeoutList.duration

lemma newTimeout_sameKind (h : TimerInv exc b) (hnow : now.usec < 1000000) (htv : TvOk b tv) :
    SameKind b.commonTimeoutQueues.length tv (b.newTimeout now tv false) := by
  have hlen : b.commonTimeoutQueues.length ≤ 256 := h.length
  rcases htv with hplain | hdur
  · rw [newTimeout, if_neg Bool.false_ne_true, if_neg (Bool.eq_false_iff.1 (isCommonTimeout_plain (by omega)))]
    exact .inl ⟨by omega, evutilTimeradd_usec hnow (by omega)⟩
  · obtain ⟨i, hi⟩ := List.getElem?_of_mem hdur
    obtain ⟨u, hu, husec⟩ := h.durations i tv hi
    have hlt : i < b.commonTimeoutQueues.length := by
      obtain ⟨hlt, -⟩ := List.getElem?_eq_some_iff.1 hi
      rwa [List.length_map] at hlt
    have hmasked : tv.masked.usec = u := masked_common husec (by omega)
    have hadd : (evutilTimeradd now tv.masked).usec ≤ 999999 :=
      evutilTimeradd_usec hnow (by omega)
    rw [newTimeout, if_neg Bool.false_ne_true, if_pos ((isCommonTimeout_common husec (by omega) (by omega)).2 hlt)]
    refine .inr ⟨i, hlt, u, hu, _, hadd, husec, ?_⟩
    dsimp only
    have hmagic : magicBits tv.usec = 2 ^ 20 * (0x500 + i) := by
      rw [magicBits_eq, husec, commonUsec]
      omega
    rw [hmagic, or_magic (by omega)]
    rfl

variable [DecidableEq ε]

/-- The steps of `event_add_nolock_` for the timeout: remember the time value, take the event out of
its queues, give it the new deadline, and schedule the list if the event came first in it. -/
lemma eventAddTimeout_steps (schedule : EventBase ε β → Nat → EventRef ε → EventBase ε β)
    (grow : Bool) (now tv : Timeval) (tvIsAbsolute : Bool) : ∃ b1 b2, b1 =
      (if (b.ev x).closure = .persist ∧ tvIsAbsolute = false then
        b.modifyEv x fun ev => { ev with ioTimeout := tv } else b) ∧
      Touched x b1 b2 ∧ (BaseInv b → BaseInv b2) ∧ (b2.ev x).flags .timeout = false ∧
      ∃ b3, b3 = (b2.modifyEv x fun ev =>
        { ev with timeout := b.newTimeout now tv tvIsAbsolute }).eventQueueInsertTimeout grow x ∧
      b.eventAddTimeout schedule grow now x tv tvIsAbsolute =
        if b3.isCommonTimeout tv ∧
          (b3.commonEvents (commonTimeoutIdx (b3.ev x).timeout)).head? = some x then
          schedule b3 (commonTimeoutIdx (b3.ev x).timeout) x
        else b3 := by
  unfold eventAddTimeout
  extract_lets c1 c2 c3 c4 c5 i
  have h1 (h : BaseInv b) : BaseInv c1 := by
    unfold c1
    split
    · exact h.setIoTimeout tv
    · exact h
  have hmoves {p : Moving ε} (hx : p.about x) : Moves p c1 c3 :=
    (removeTimeoutIf_moves hx).trans (removeActiveIf_moves hx)
  have htouched : Touched x c1 c3 := Moves.touched (hmoves rfl)
  have hlen : c3.commonTimeoutQueues.length = b.commonTimeoutQueues.length := by
    rw [htouched.length]
    unfold c1
    split
    · rfl
    · rfl
  have hnew : c3.newTimeout now tv tvIsAbsolute = b.newTimeout now tv tvIsAbsolute := by
    rw [newTimeout, newTimeout, isCommonTimeout_congr hlen]
  refine ⟨c1, c3, rfl, htouched, fun h => (h1 h).moves (hmoves trivial),
    timeout_removeActiveIf.trans timeout_removeTimeoutIf, c5, ?_, ?_⟩
  · exact congrArg (fun t => (c3.modifyEv x fun ev => { ev with timeout := t }).eventQueueInsertTimeout grow x) hnew
  · rw [ite_and]

variable (be : EventBackend β)

lemma commonTimeoutSchedule_eq (h : TimerInv exc b) (now : Timeval) (i : Nat)
    (y : EventRef ε) : ∃ b1, Touched (.timeoutEvent i) b b1 ∧ BaseInv b1 ∧
      b.commonTimeoutSchedule be true now i y =
        b1.eventAddTimeout (fun b _ _ => b) true now (.timeoutEvent i) (b.ev y).timeout.masked true := by
  obtain ⟨-, hio, hsignal, -⟩ := h.plain i
  unfold commonTimeoutSchedule eventAddBody
  rw [if_neg (Bool.eq_false_iff.1 (h.base.setup.finalizing _)), if_neg (by simp)]
  extract_lets b1 r
  have hev : b1.ev = b.ev := by
    unfold b1
    split
    · rfl
    · rfl
  have htouched : Touched (.timeoutEvent i) b b1 := by
    unfold b1
    split
    · exact touched_of_ev_eq rfl rfl rfl
    · exact Touched.refl
  have hbase : BaseInv b1 := by
    unfold b1
    split
    · exact h.base.reserve _
    · exact h.base
  have hr : r = (0, b1) := by
    unfold r eventAddInserted
    rw [if_neg]
    rw [hev, hio, hsignal]
    simp
  refine ⟨b1, htouched, hbase, ?_⟩
  rw [hr]
  rfl

lemma commonTimeoutSchedule_timer {y : EventRef ε}
    (h : TimerInv (fun j => exc j ∨ j = i) b) (hhead : (b.commonEvents i).head? = some y)
    (now : Timeval) : TimerInv exc (b.commonTimeoutSchedule be true now i y) ∧
      Rescheduled i b (b.commonTimeoutSchedule be true now i y) := by
  have hy : y ∈ b.commonEvents i := List.mem_of_head? hhead
  obtain ⟨hi, ⟨u, hu, husec⟩, -⟩ := h.member hy
  have hmasked : (b.ev y).timeout.masked.usec ≤ 999999 := by
    rw [masked_common husec (by omega)]
    exact hu
  have hle := h.head_least hhead
  obtain ⟨b1, htouched, hbase, heq⟩ := commonTimeoutSchedule_eq be h now i y
  obtain ⟨c1, b2, rfl, htouched', hbase', hoff, b3, hb3, heq'⟩ :=
    eventAddTimeout_steps (b := b1) (x := .timeoutEvent i) (fun b _ _ => b) true now (b.ev y).timeout.masked true
  replace hbase' := hbase' hbase
  change b3 = insertTimed b2 _ _ at hb3
  rw [if_neg fun h => Bool.noConfusion h.2] at htouched'
  have hall := htouched.trans htouched'
  have htimed := insertTimed_timed hoff (b.ev y).timeout.masked
  have hnew : b1.newTimeout now (b.ev y).timeout.masked true = (b.ev y).timeout.masked := rfl
  rw [hnew] at hb3
  rw [← hb3] at htimed
  have hres : b.commonTimeoutSchedule be true now i y = b3 := by
    rw [heq, heq', if_neg]
    rw [isCommonTimeout_plain (by omega)]
    exact fun h => Bool.false_ne_true h.1
  rw [hres]
  have hsame : b3.commonEvents = b2.commonEvents := htimed.plain (isCommonTimeout_plain (by omega))
  constructor
  · have h2 : TimerInv (fun j => exc j ∨ j = i) b2 := by
      apply h.untimed hall.toUntimed hbase' fun _ => id
      intro j hj
      cases hj
      exact ⟨hi, .inl (.inr rfl)⟩
    apply h2.insertInternal hoff htimed _ hmasked
    · rw [hall.length]
      exact hi
    · intro z hz
      have hz' := (hall.lists i).subset hz
      have htimeout : (b2.ev z).timeout = (b.ev z).timeout := congrFun hall.timeouts z
      rw [htimeout]
      exact hle z hz'
    · have hset := hbase'.setTimeout hoff (b.ev y).timeout.masked
      rw [hb3]
      exact hset.insertTimeout ((congrFun (flags_setTimeout _) _).trans hoff)
  · constructor
    · intro z hz
      rw [htimed.ev z hz, hall.ev z hz]
    · intro j
      rw [hsame]
      exact hall.lists j
    · rw [htimed.length, hall.length]
    · rw [htimed.current, hall.current]

lemma eventAddTimeout_timer (h : TimerInv exc b) (hio : IoInv b)
    (now tv : Timeval) (tvIsAbsolute : Bool)
    (hkind : SameKind b.commonTimeoutQueues.length tv (b.newTimeout now tv tvIsAbsolute))
    (hpersist : (b.ev (.event e)).closure = .persist → IoTimeoutOk b.commonTimeoutQueues.length
      { b.ev (.event e) with
        ioTimeout := if tvIsAbsolute then (b.ev (.event e)).ioTimeout else tv
        timeout := b.newTimeout now tv tvIsAbsolute }) :
    TimerInv exc (b.eventAddTimeout (commonTimeoutSchedule be true now) true now (.event e) tv tvIsAbsolute) ∧
    IoInv (b.eventAddTimeout (commonTimeoutSchedule be true now) true now (.event e) tv tvIsAbsolute) ∧
    (b.eventAddTimeout (commonTimeoutSchedule be true now) true now (.event e) tv
      tvIsAbsolute).currentEvent = b.currentEvent := by
  obtain ⟨b1, b2, hb1, htouched, hbase, hoff, b3, hb3, heq⟩ :=
    eventAddTimeout_steps (b := b) (x := .event e) (commonTimeoutSchedule be true now) true now tv tvIsAbsolute
  replace hbase := hbase h.base
  change b3 = insertTimed b2 _ _ at hb3
  have h1 : TimerInv exc b1 := by
    rw [hb1]
    split
    · exact h.setIoTimeout tv
    · exact h
  have hchanged : Changed (.event e) b b1 := by
    rw [hb1]
    split
    · exact untimed_modifyEv.toChanged
    · exact Touched.refl.toChanged
  have hio1 : (b.ev (.event e)).closure = .persist → (b1.ev (.event e)).ioTimeout =
      if tvIsAbsolute then (b.ev (.event e)).ioTimeout else tv := by
    intro hp
    rw [hb1]
    cases tvIsAbsolute with
    | true => rw [if_neg (by simp), if_pos rfl]
    | false => rw [if_pos ⟨hp, rfl⟩, ev_modifyEv, if_pos rfl, if_neg Bool.false_ne_true]
  have h2 : TimerInv exc b2 := h1.untimed htouched.toUntimed hbase (fun _ => id) fun i hi => nomatch hi
  have htimed := insertTimed_timed hoff (b.newTimeout now tv tvIsAbsolute)
  rw [← hb3] at htimed
  have hbase3 : BaseInv b3 := by
    rw [hb3]
    exact (hbase.setTimeout hoff _).insertTimeout ((congrFun (flags_setTimeout _) _).trans hoff)
  have hlen2 : b2.commonTimeoutQueues.length = b.commonTimeoutQueues.length :=
    htouched.length.trans hchanged.length
  have hlen3 : b3.commonTimeoutQueues.length = b.commonTimeoutQueues.length :=
    htimed.length.trans hlen2
  have h3 := h2.insertEvent hoff htimed hbase3 (by rw [hlen2]; exact hkind.usecOk)
  have hcurrent3 : b3.currentEvent = b.currentEvent :=
    htimed.current.trans (htouched.current.trans hchanged.current)
  -- the event can come first in the list of its own timeout only
  have hhead : ∀ i, (b3.commonEvents i).head? = some (.event e) →
      b3.isCommonTimeout tv ∧ i = commonTimeoutIdx (b3.ev (.event e)).timeout := by
    intro i hi
    obtain ⟨⟨-, hcommon⟩, hidx⟩ :=
      (hbase3.timeouts.common.mem i (.event e)).1 (List.mem_of_head? hi)
    have hkind3 : SameKind b3.commonTimeoutQueues.length tv (b.newTimeout now tv tvIsAbsolute) := by
      rw [hlen3]
      exact hkind
    rw [htimed.timeout] at hcommon
    exact ⟨(hkind3.isCommonTimeout h3.length).trans hcommon, hidx.symm⟩
  have hev3 : ∀ y, y ≠ .event e → b3.ev y = b.ev y := fun y hy =>
    (htimed.ev y hy).trans ((htouched.ev y hy).trans (hchanged.ev y hy))
  have hio3 : IoInv b3 := by
    intro y hy
    rw [hlen3]
    by_cases hye : y = .event e
    · subst hye
      have hp : (b.ev (.event e)).closure = .persist := by
        rw [← hy, htimed.closure, htouched.closure, hchanged.closure]
      have hok := hpersist hp
      rw [IoTimeoutOk, htimed.ioTimeout, htouched.ioTimeout, hio1 hp, htimed.timeout]
      exact hok
    · rw [hev3 y hye] at hy ⊢
      exact hio y hy
  rw [heq]
  split_ifs with hcond
  · have h3' := h3.mono fun i hi => hi.imp_right fun hi => (hhead i hi).2
    obtain ⟨hinv, hres⟩ := commonTimeoutSchedule_timer be h3' hcond.2 now
    exact ⟨hinv, hio3.rescheduled hinv hres, hres.current.trans hcurrent3⟩
  · refine ⟨h3.mono ?_, hio3, hcurrent3⟩
    intro i hi
    rcases hi with hi | hi
    · exact hi
    · obtain ⟨hcommon, rfl⟩ := hhead i hi
      exact absurd ⟨hcommon, hi⟩ hcond

lemma eventAddNolock_timer (h : TimersOk exc b) (hpush : alloc.push)
    (hschedule : alloc.schedule) (now : Timeval) (tv : Option Timeval) (tvIsAbsolute : Bool)
    (hkind : ∀ t, tv = some t → SameKind b.commonTimeoutQueues.length t (b.newTimeout now t tvIsAbsolute))
    (hpersist : ∀ t, tv = some t → (b.ev (.event e)).closure = .persist →
      IoTimeoutOk b.commonTimeoutQueues.length
        { b.ev (.event e) with
          ioTimeout := if tvIsAbsolute then (b.ev (.event e)).ioTimeout else t
          timeout := b.newTimeout now t tvIsAbsolute }) :
    TimersOk exc (b.eventAddNolock be alloc now (.event e) tv tvIsAbsolute).2 ∧
    (b.eventAddNolock be alloc now (.event e) tv tvIsAbsolute).2.currentEvent = b.currentEvent := by
  unfold eventAddNolock eventAddBody
  rw [hpush, hschedule]
  split
  · exact ⟨h, rfl⟩
  split
  · exact ⟨h, rfl⟩
  extract_lets b1 r
  have htouched1 : Touched (.event e) b b1 := by
    unfold b1
    split
    · exact touched_of_ev_eq rfl rfl rfl
    · exact Touched.refl
  have hbase1 : BaseInv b1 := by
    unfold b1
    split
    · exact h.inv.base.reserve _
    · exact h.inv.base
  have htouched : Touched (.event e) b r.2 :=
    htouched1.trans (eventAddInserted_touched alloc.evmap)
  have hr : TimersOk exc r.2 := h.touched htouched (eventAddInserted_inv be hbase1 alloc.evmap)
    (fun _ => id) fun i hi => nomatch hi
  cases tv with
  | none => exact ⟨hr, htouched.current⟩
  | some t =>
  dsimp only
  split
  · have hnew : r.2.newTimeout now t tvIsAbsolute = b.newTimeout now t tvIsAbsolute := by
      rw [newTimeout, newTimeout, isCommonTimeout_congr htouched.length]
    have hkind' := hkind t rfl
    have hpersist' := hpersist t rfl
    rw [← hnew, ← htouched.length] at hkind'
    rw [← hnew, ← htouched.length, ← htouched.closure, ← htouched.ioTimeout] at hpersist'
    obtain ⟨hinv, hio, hcurrent⟩ :=
      eventAddTimeout_timer be hr.inv hr.io now t tvIsAbsolute hkind' hpersist'
    exact ⟨⟨hinv, hio⟩, hcurrent.trans htouched.current⟩
  · exact ⟨hr, htouched.current⟩

lemma eventAdd_timer (h : TimersOk exc b) (hpush : alloc.push)
    (hschedule : alloc.schedule) (hnow : now.usec < 1000000) {tv : Option Timeval}
    (htv : ∀ t, tv = some t → TvOk b t) :
    TimersOk exc (b.eventAddNolock be alloc now (.event e) tv false).2 ∧
    (b.eventAddNolock be alloc now (.event e) tv false).2.currentEvent = b.currentEvent := by
  have hkind : ∀ t, tv = some t → SameKind b.commonTimeoutQueues.length t (b.newTimeout now t false) :=
    fun t ht => newTimeout_sameKind h.inv hnow (htv t ht)
  apply eventAddNolock_timer be h hpush hschedule now tv false hkind
  intro t ht _
  rcases hkind t ht with hplain | ⟨i, hi, u, hu, v, hv, htu, htv'⟩
  · exact .inr (.inl hplain)
  · exact .inr (.inr ⟨⟨i, hi, u, hu, htu⟩, i, hi, v, hv, htv'⟩)

lemma eventPersistClosure_timer (h : TimersOk exc b)
    (hpush : alloc.push) (hschedule : alloc.schedule) (hnow : now.usec < 1000000)
    (hclosure : (b.ev (.event e)).closure = .persist) :
    TimersOk exc (b.eventPersistClosure be alloc now (.event e)) ∧
    (b.eventPersistClosure be alloc now (.event e)).currentEvent = b.currentEvent := by
  unfold eventPersistClosure
  extract_lets ev b1 common usecMask delay relativeTo runAt0 runAt
  split_ifs with hset
  · have h1 : TimersOk exc b1 := h.touched (x := .event e) (touched_of_ev_eq rfl rfl rfl)
      (h.inv.base.report _ _ _ _) (fun _ => id) fun i hi => nomatch hi
    have hlen : b.commonTimeoutQueues.length ≤ 256 := h.inv.length
    have hrunAt : delay.usec ≤ 1000000 → relativeTo.usec < 1000000 → runAt.usec ≤ 999999 := by
      intro hdelay hrel
      unfold runAt
      split
      · exact evutilTimeradd_usec hnow hdelay
      · exact evutilTimeradd_usec hrel hdelay
    have hrelative : ∀ t : Timeval, t.usec < 1000000 →
        (if ev.res &&& evTimeout ≠ 0 then t else now).usec < 1000000 := by
      intro t ht
      split
      · exact ht
      · exact hnow
    -- the deadline is of the kind of the time value that was asked for
    have hkind : ∃ tv : Timeval, tv = { runAt with usec := runAt.usec ||| usecMask } ∧
        SameKind b.commonTimeoutQueues.length tv tv ∧ IoTimeoutOk b.commonTimeoutQueues.length
          { b.ev (.event e) with ioTimeout := ev.ioTimeout, timeout := tv } := by
      refine ⟨_, rfl, ?_⟩
      have hcases : IoTimeoutOk b.commonTimeoutQueues.length ev := h.io (.event e) hclosure
      rcases hcases with hzero | ⟨hio, ht⟩ | ⟨⟨i, hi, u, hu, hio⟩, j, hj, v, hv, ht⟩
      · rw [hzero] at hset
        simp at hset
      · have hcommon : common = false :=
          isCommonTimeout_plain (lt_of_le_of_lt ht (by decide))
        have hrun : runAt.usec ≤ 999999 := by
          apply hrunAt
          · unfold delay
            rw [hcommon]
            exact hio
          · unfold relativeTo
            rw [hcommon]
            exact hrelative _ (Nat.lt_succ_of_le ht)
        have hmask : usecMask = 0 := by
          unfold usecMask
          rw [hcommon]
          rfl
        rw [hmask, Nat.or_zero]
        exact ⟨.inl ⟨hrun.trans (by decide), hrun⟩, .inr (.inl ⟨hio, hrun⟩)⟩
      · have hcommon : common :=
          (isCommonTimeout_common ht (by omega) (by omega)).2 hj
        have hrun : runAt.usec ≤ 999999 := by
          apply hrunAt
          · unfold delay
            rw [hcommon, if_pos rfl, masked_common hio (by omega)]
            exact hu
          · unfold relativeTo
            rw [hcommon]
            refine hrelative ev.timeout.masked ?_
            rw [masked_common ht (by omega)]
            omega
        have hmask : usecMask = 2 ^ 20 * (0x500 + i) := by
          unfold usecMask
          rw [hcommon, if_pos rfl, magicBits_eq, hio, commonUsec]
          omega
        rw [hmask, or_magic (by omega)]
        exact ⟨.inr ⟨i, hi, _, hrun.trans (by decide), _, hrun, rfl, rfl⟩,
          .inr (.inr ⟨⟨i, hi, u, hu, hio⟩, i, hi, _, hrun, rfl⟩)⟩
    obtain ⟨tv, htv, hsame, hok⟩ := hkind
    rw [← htv]
    apply eventAddNolock_timer be h1 hpush hschedule now (some tv) true
    · intro t ht
      cases ht
      exact hsame
    · intro t ht _
      cases ht
      exact hok
  · exact ⟨h, rfl⟩

end Add

end MyLibevent.Proofs
