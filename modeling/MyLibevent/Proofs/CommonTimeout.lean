import MyLibevent.Proofs.EventFrame

/-!
# Common timeouts

Events with a common timeout wait in a list, ordered by deadline, and one internal event in the heap stands
for the whole list, which is never left without it.
-/

namespace MyLibevent.Proofs

open EventBase FiledLists List

section Bits

def commonUsec (i u : Nat) : Nat := u + 2 ^ 20 * (0x500 + i)

lemma masked_usec (tv : Timeval) : tv.masked.usec = tv.usec % 2 ^ 20 :=
  Nat.and_two_pow_sub_one_eq_mod tv.usec 20

lemma magicBits_eq (usec : Nat) : magicBits usec = 2 ^ 20 * (usec / 2 ^ 20) := by
  have hlow : usec &&& microsecondsMask = usec % 2 ^ 20 := Nat.and_two_pow_sub_one_eq_mod usec 20
  rw [magicBits, hlow]
  omega

lemma commonTimeoutIdx_eq (tv : Timeval) : commonTimeoutIdx tv = tv.usec / 2 ^ 20 % 2 ^ 8 := by
  rw [commonTimeoutIdx, Nat.shiftRight_and_distrib, commonTimeoutIdxShift, Nat.shiftRight_eq_div_pow]
  exact Nat.and_two_pow_sub_one_eq_mod _ 8

lemma magic_iff (usec : Nat) : usec &&& commonTimeoutMask = commonTimeoutMagic ↔ usec / 2 ^ 28 % 2 ^ 4 = 5 := by
  have hhigh : (usec &&& commonTimeoutMask) / 2 ^ 28 = usec / 2 ^ 28 % 2 ^ 4 := by
    rw [← Nat.shiftRight_eq_div_pow, Nat.shiftRight_and_distrib, Nat.shiftRight_eq_div_pow]
    exact Nat.and_two_pow_sub_one_eq_mod _ 4
  have hlow : (usec &&& commonTimeoutMask) % 2 ^ 28 = 0 := by
    rw [Nat.and_mod_two_pow]
    exact Nat.and_zero _
  unfold commonTimeoutMagic
  omega

lemma or_magic {u : Nat} (hu : u < 2 ^ 20) (m : Nat) : u ||| 2 ^ 20 * m = u + 2 ^ 20 * m := by
  rw [Nat.or_comm, ← Nat.two_pow_add_eq_or_of_lt hu, Nat.add_comm]

lemma or_commonTimeoutMagic {u i : Nat} (hu : u < 2 ^ 20) (hi : i < 2 ^ 8) :
    u ||| commonTimeoutMagic ||| i <<< commonTimeoutIdxShift = commonUsec i u := by
  have hidx : commonTimeoutMagic ||| i <<< commonTimeoutIdxShift = 2 ^ 20 * (0x500 + i) := by
    have hmagic : commonTimeoutMagic = 2 ^ 28 * 5 := rfl
    rw [hmagic, commonTimeoutIdxShift, Nat.shiftLeft_eq, ← Nat.two_pow_add_eq_or_of_lt (by omega)]
    omega
  rw [Nat.or_assoc, hidx, or_magic hu]
  rfl

variable {ε β : Type*} {b : EventBase ε β} {tv : Timeval} {i u : Nat}

lemma isCommonTimeout_iff : b.isCommonTimeout tv ↔
    tv.usec / 2 ^ 28 % 2 ^ 4 = 5 ∧ tv.usec / 2 ^ 20 % 2 ^ 8 < b.commonTimeoutQueues.length := by
  rw [EventBase.isCommonTimeout, Bool.and_eq_true, beq_iff_eq, decide_eq_true_eq, magic_iff, commonTimeoutIdx_eq]

lemma isCommonTimeout_plain (h : tv.usec < 2 ^ 20) : b.isCommonTimeout tv = false := by
  rw [Bool.eq_false_iff, Ne, isCommonTimeout_iff]
  omega

lemma isCommonTimeout_common (h : tv.usec = commonUsec i u) (hu : u < 2 ^ 20) (hi : i < 2 ^ 8) :
    b.isCommonTimeout tv ↔ i < b.commonTimeoutQueues.length := by
  rw [isCommonTimeout_iff, h, commonUsec]
  omega

lemma commonTimeoutIdx_common (h : tv.usec = commonUsec i u) (hu : u < 2 ^ 20) (hi : i < 2 ^ 8) :
    commonTimeoutIdx tv = i := by
  rw [commonTimeoutIdx_eq, h, commonUsec]
  omega

lemma masked_common (h : tv.usec = commonUsec i u) (hu : u < 2 ^ 20) : tv.masked.usec = u := by
  rw [masked_usec, h, commonUsec]
  omega

lemma masked_plain (h : tv.usec < 2 ^ 20) : tv.masked = tv := by
  ext
  · rfl
  · rw [masked_usec]
    omega

end Bits

section Timers

variable {ε β : Type*} {b b' : EventBase ε β} {x y : EventRef ε} {exc exc' : Nat → Prop} {i : Nat}
  {t : Timeval}

def UsecOk (max n usec : Nat) : Prop :=
  usec ≤ max ∨ ∃ i < n, ∃ u ≤ max, usec = commonUsec i u

def IoTimeoutOk (n : Nat) (ev : Event) : Prop :=
  ev.ioTimeout = ⟨0, 0⟩ ∨ ev.ioTimeout.usec ≤ 1000000 ∧ ev.timeout.usec ≤ 999999 ∨
    (∃ i < n, ∃ u ≤ 1000000, ev.ioTimeout.usec = commonUsec i u) ∧
      ∃ i < n, ∃ u ≤ 999999, ev.timeout.usec = commonUsec i u

def IoInv (b : EventBase ε β) : Prop :=
  ∀ x, (b.ev x).closure = .persist → IoTimeoutOk b.commonTimeoutQueues.length (b.ev x)

def Scheduled (b : EventBase ε β) (i : Nat) : Prop :=
  b.commonEvents i = [] ∨ (b.ev (.timeoutEvent i)).flags .active ∨
    (b.ev (.timeoutEvent i)).flags .timeout ∧ ∀ x ∈ b.commonEvents i,
      (b.ev (.timeoutEvent i)).timeout ≤ (b.ev x).timeout.masked

structure ListsInv (b : EventBase ε β) : Prop where
  length : b.commonTimeoutQueues.length ≤ maxCommonTimeouts
  durations : ∀ i d, (b.commonTimeoutQueues.map CommonTimeoutList.duration)[i]? = some d →
    ∃ u ≤ 1000000, d.usec = commonUsec i u
  plain : ∀ i, (b.ev (.timeoutEvent i)).closure = .event ∧
    (b.ev (.timeoutEvent i)).events.io.any = false ∧
    (b.ev (.timeoutEvent i)).events.signal = false ∧
    (b.ev (.timeoutEvent i)).events.persist = false
  fresh : ∀ i, b.commonTimeoutQueues.length ≤ i → ∀ k, (b.ev (.timeoutEvent i)).flags k = false

/-- The invariant of common timeouts; the lists in `exc` may lack their internal event. -/
structure TimerInv (exc : Nat → Prop) (b : EventBase ε β) : Prop extends ListsInv b where
  base : BaseInv b
  sorted : ∀ i, (b.commonEvents i).Pairwise fun x y => (b.ev x).timeout ≤ (b.ev y).timeout
  deadline : ∀ x, (b.ev x).flags .timeout → UsecOk 999999 b.commonTimeoutQueues.length (b.ev x).timeout.usec
  internal : ∀ i, (b.ev (.timeoutEvent i)).flags .timeout → (b.ev (.timeoutEvent i)).timeout.usec ≤ 999999
  sched : ∀ i, exc i ∨ Scheduled b i

lemma ListsInv.changed (h : ListsInv b) (hc : Changed x b b')
    (hx : ∀ i, x = .timeoutEvent i → i < b.commonTimeoutQueues.length) : ListsInv b' where
  length := by
    rw [hc.length]
    exact h.length
  durations := by
    rw [hc.durations]
    exact h.durations
  plain i := by
    rw [hc.field Event.closure hc.closure, hc.field Event.events hc.events]
    exact h.plain i
  fresh i hi k := by
    rw [hc.length] at hi
    have hne : EventRef.timeoutEvent i ≠ x := by
      intro heq
      have hlt := hx i heq.symm
      omega
    rw [hc.ev _ hne]
    exact h.fresh i hi k

lemma TimerInv.untimed (h : TimerInv exc b) (ht : Untimed x b b') (hbase : BaseInv b')
    (hexc : ∀ i, exc i → exc' i)
    (hx : ∀ i, x = .timeoutEvent i → i < b.commonTimeoutQueues.length ∧
      (exc' i ∨ (b'.ev x).flags .active)) : TimerInv exc' b' := by
  have htimeout : ∀ y, (b'.ev y).timeout = (b.ev y).timeout := congrFun ht.timeouts
  refine ⟨h.changed ht.toChanged fun i hi => (hx i hi).1, hbase, ?_, ?_, ?_, ?_⟩
  · intro i
    simp only [htimeout]
    exact (h.sorted i).sublist (ht.lists i)
  · intro y hy
    rw [ht.length, htimeout]
    exact h.deadline y (ht.timeout_flag hy)
  · intro i hi
    rw [htimeout]
    exact h.internal i (ht.timeout_flag hi)
  · intro i
    rcases h.sched i with hi | hi
    · exact .inl (hexc i hi)
    · by_cases heq : x = .timeoutEvent i
      · rcases (hx i heq).2 with he | ha
        · exact .inl he
        · rw [heq] at ha
          exact .inr (.inr (.inl ha))
      · right
        have hev := ht.ev (.timeoutEvent i) (Ne.symm heq)
        rcases hi with hi | hi | ⟨hon, hle⟩
        · left
          exact sublist_nil.1 (hi ▸ ht.lists i)
        · right
          left
          rw [hev]
          exact hi
        · right
          right
          rw [hev]
          refine ⟨hon, ?_⟩
          intro y hy
          rw [htimeout]
          exact hle y ((ht.lists i).subset hy)

lemma Scheduled.congr (h : Scheduled b i) (hlist : b'.commonEvents i = b.commonEvents i)
    (hint : b'.ev (.timeoutEvent i) = b.ev (.timeoutEvent i))
    (htimeout : ∀ y ∈ b.commonEvents i, (b'.ev y).timeout = (b.ev y).timeout) : Scheduled b' i := by
  rw [Scheduled, hlist, hint]
  rcases h with h | h | ⟨hon, hle⟩
  · exact .inl h
  · exact .inr (.inl h)
  · refine .inr (.inr ⟨hon, ?_⟩)
    intro y hy
    rw [htimeout y hy]
    exact hle y hy

lemma IoInv.touched (h : IoInv b) (ht : Touched x b b') : IoInv b' := by
  intro y hy
  rw [ht.field Event.closure ht.closure] at hy
  rw [ht.length, IoTimeoutOk, ht.field Event.ioTimeout ht.ioTimeout, ht.field Event.timeout ht.timeout]
  exact h y hy

lemma TimerInv.member (h : TimerInv exc b) (hy : y ∈ b.commonEvents i) :
    i < b.commonTimeoutQueues.length ∧ (∃ u ≤ 999999, (b.ev y).timeout.usec = commonUsec i u) ∧
      (b.ev y).flags .timeout := by
  obtain ⟨⟨hon, hcommon⟩, hidx⟩ := (h.base.timeouts.common.mem i y).1 hy
  have hlen : b.commonTimeoutQueues.length ≤ 256 := h.length
  rcases h.deadline y hon with hplain | ⟨j, hj, u, hu, husec⟩
  · rw [isCommonTimeout_plain (by omega)] at hcommon
    exact absurd hcommon Bool.false_ne_true
  · rw [commonTimeoutIdx_common husec (by omega) (by omega)] at hidx
    subst hidx
    exact ⟨hj, ⟨u, hu, husec⟩, hon⟩

lemma masked_le_masked {t' : Timeval} {u u' : Nat} (hu : t.usec = commonUsec i u)
    (hu' : t'.usec = commonUsec i u') (hlt : u < 2 ^ 20) (hlt' : u' < 2 ^ 20) (h : t ≤ t') :
    t.masked ≤ t'.masked := by
  have hsec : t.masked.sec = t.sec := rfl
  have hsec' : t'.masked.sec = t'.sec := rfl
  rw [Timeval.le_iff] at h ⊢
  rw [masked_common hu hlt, masked_common hu' hlt', hsec, hsec']
  rw [hu, hu', commonUsec, commonUsec] at h
  omega

structure Timed (x : EventRef ε) (t : Timeval) (b b' : EventBase ε β) : Prop
    extends Changed x b b' where
  timeout : (b'.ev x).timeout = t
  ioTimeout : (b'.ev x).ioTimeout = (b.ev x).ioTimeout
  on : (b'.ev x).flags .timeout
  plain : b.isCommonTimeout t = false → b'.commonEvents = b.commonEvents
  listed : b.isCommonTimeout t →
    (b'.commonEvents (commonTimeoutIdx t)).Perm (x :: b.commonEvents (commonTimeoutIdx t)) ∧
    ((b.commonEvents (commonTimeoutIdx t)).Pairwise
      (fun x y => (b'.ev x).timeout ≤ (b'.ev y).timeout) →
      (b'.commonEvents (commonTimeoutIdx t)).Pairwise fun x y => (b'.ev x).timeout ≤ (b'.ev y).timeout) ∧
    ∀ i, i ≠ commonTimeoutIdx t → b'.commonEvents i = b.commonEvents i

lemma Timed.timeout_of_mem (h : TimerInv exc b) (hoff : (b.ev x).flags .timeout = false)
    (ht : Timed x t b b') (hy : y ∈ b.commonEvents i) :
    y ≠ x ∧ (b'.ev y).timeout = (b.ev y).timeout := by
  have hne : y ≠ x := by
    rintro rfl
    exact Bool.false_ne_true (hoff.symm.trans (h.member hy).2.2)
  exact ⟨hne, by rw [ht.ev y hne]⟩

lemma usec_of_isCommonTimeout {n : Nat} (hle : n ≤ maxCommonTimeouts)
    (husec : UsecOk 999999 n t.usec) (hcommon : b.isCommonTimeout t) :
    ∃ u ≤ 999999, t.usec = commonUsec (commonTimeoutIdx t) u := by
  have hmax : maxCommonTimeouts = 256 := rfl
  rcases husec with hplain | ⟨i, hi, u, hu, h⟩
  · rw [isCommonTimeout_plain (by omega)] at hcommon
    exact absurd hcommon Bool.false_ne_true
  · rw [commonTimeoutIdx_common h (by omega) (by omega)]
    exact ⟨u, hu, h⟩

lemma TimerInv.head_least (h : TimerInv exc b) (hhead : (b.commonEvents i).head? = some y) :
    ∀ z ∈ b.commonEvents i, (b.ev y).timeout.masked ≤ (b.ev z).timeout.masked := by
  intro z hz
  obtain ⟨-, ⟨u, hu, husec⟩, -⟩ := h.member (mem_of_head? hhead)
  obtain ⟨-, ⟨v, hv, hvsec⟩, -⟩ := h.member hz
  refine masked_le_masked husec hvsec (by omega) (by omega) ?_
  have hpair := h.sorted i
  obtain ⟨l, hl⟩ := head?_eq_some_iff.1 hhead
  rw [hl] at hpair hz
  rcases mem_cons.1 hz with rfl | hz
  · exact le_rfl
  · exact rel_of_pairwise_cons hpair hz

lemma TimerInv.timed (h : TimerInv exc b) (hoff : (b.ev x).flags .timeout = false)
    (ht : Timed x t b b') (hbase : BaseInv b')
    (husec : UsecOk 999999 b.commonTimeoutQueues.length t.usec)
    (hinternal : ∀ i, x = .timeoutEvent i → i < b.commonTimeoutQueues.length ∧ t.usec ≤ 999999)
    (hsched : ∀ i, exc' i ∨ Scheduled b' i) : TimerInv exc' b' := by
  have hsorted : ∀ i, (b.commonEvents i).Pairwise fun x y =>
      (b'.ev x).timeout ≤ (b'.ev y).timeout := by
    intro i
    refine (h.sorted i).imp_of_mem ?_
    intro y z hy hz hle
    rw [(Timed.timeout_of_mem h hoff ht hy).2, (Timed.timeout_of_mem h hoff ht hz).2]
    exact hle
  refine ⟨h.changed ht.toChanged fun i hi => (hinternal i hi).1, hbase, ?_, ?_, ?_, hsched⟩
  · intro i
    cases hcommon : b.isCommonTimeout t with
    | false =>
      rw [ht.plain hcommon]
      exact hsorted i
    | true =>
      obtain ⟨-, hins, hrest⟩ := ht.listed hcommon
      by_cases hi : i = commonTimeoutIdx t
      · rw [hi]
        exact hins (hsorted _)
      · rw [hrest i hi]
        exact hsorted i
  · intro y hy
    rw [ht.length]
    by_cases hyx : y = x
    · rw [hyx, ht.timeout]
      exact husec
    · rw [ht.ev y hyx] at hy ⊢
      exact h.deadline y hy
  · intro i hi
    by_cases hix : EventRef.timeoutEvent i = x
    · rw [hix, ht.timeout]
      exact (hinternal i hix.symm).2
    · rw [ht.ev _ hix] at hi ⊢
      exact h.internal i hi

/-- An event of the program gets a deadline. If it comes first in its list, the internal event has
to be scheduled again. -/
lemma TimerInv.insertEvent {e : ε} (h : TimerInv exc b)
    (hoff : (b.ev (.event e)).flags .timeout = false) (ht : Timed (.event e) t b b')
    (hbase : BaseInv b') (husec : UsecOk 999999 b.commonTimeoutQueues.length t.usec) :
    TimerInv (fun i => exc i ∨ (b'.commonEvents i).head? = some (.event e)) b' := by
  -- the scheduling is proved last, from the order of the new list
  have hrest : TimerInv (fun _ => True) b' :=
    h.timed hoff ht hbase husec (fun i hi => nomatch hi) fun _ => .inl trivial
  refine { hrest with sched := ?_ }
  intro i
  rcases h.sched i with hi | hi
  · exact .inl (.inl hi)
  by_cases hhead : (b'.commonEvents i).head? = some (.event e)
  · exact .inl (.inr hhead)
  right
  have hint : b'.ev (.timeoutEvent i) = b.ev (.timeoutEvent i) := ht.ev _ nofun
  have hold : ∀ y ∈ b.commonEvents i, (b'.ev y).timeout = (b.ev y).timeout :=
    fun y hy => (Timed.timeout_of_mem h hoff ht hy).2
  by_cases hins : b.isCommonTimeout t ∧ i = commonTimeoutIdx t
  · obtain ⟨hcommon, rfl⟩ := hins
    have hperm := (ht.listed hcommon).1
    cases hlist : b'.commonEvents (commonTimeoutIdx t) with
    | nil => exact .inl hlist
    | cons z zs =>
      have hzx : z ≠ .event e := by
        rintro rfl
        exact hhead (by rw [hlist]; rfl)
      have hmem : ∀ y ∈ b'.commonEvents (commonTimeoutIdx t), y ≠ .event e →
          y ∈ b.commonEvents (commonTimeoutIdx t) := by
        intro y hy hyx
        exact mem_of_ne_of_mem hyx (hperm.mem_iff.1 hy)
      have hz : z ∈ b.commonEvents (commonTimeoutIdx t) :=
        hmem z (hlist ▸ mem_cons_self) hzx
      rcases hi with hi | hi | ⟨hon, hle⟩
      · rw [hi] at hz
        exact absurd hz not_mem_nil
      · exact .inr (.inl (hint ▸ hi))
      · right
        right
        rw [hint]
        refine ⟨hon, ?_⟩
        intro y hy
        by_cases hyx : y = .event e
        · -- the new event is behind `z`, which the internal event does not miss
          subst hyx
          obtain ⟨u, hu, hzu⟩ := (h.member hz).2.1
          obtain ⟨u', hu', htu⟩ := usec_of_isCommonTimeout h.length husec hcommon
          have hzy : (b'.ev z).timeout ≤ (b'.ev (.event e)).timeout := by
            have hpair := hrest.sorted (commonTimeoutIdx t)
            rw [hlist] at hpair hy
            exact rel_of_pairwise_cons hpair (mem_of_ne_of_mem (Ne.symm hzx) hy)
          rw [hold z hz, ht.timeout] at hzy
          rw [ht.timeout]
          exact (hle z hz).trans (masked_le_masked hzu htu (by omega) (by omega) hzy)
        · have hyold := hmem y hy hyx
          rw [hold y hyold]
          exact hle y hyold
  · have hsame : b'.commonEvents i = b.commonEvents i := by
      cases hcommon : b.isCommonTimeout t with
      | false => rw [ht.plain hcommon]
      | true => exact (ht.listed hcommon).2.2 i fun h => hins ⟨hcommon, h⟩
    exact hi.congr hsame hint hold

lemma TimerInv.insertInternal (h : TimerInv (fun j => exc j ∨ j = i) b)
    (hoff : (b.ev (.timeoutEvent i)).flags .timeout = false) (ht : Timed (.timeoutEvent i) t b b')
    (hbase : BaseInv b') (husec : t.usec ≤ 999999) (hi : i < b.commonTimeoutQueues.length)
    (hle : ∀ y ∈ b.commonEvents i, t ≤ (b.ev y).timeout.masked) : TimerInv exc b' := by
  apply h.timed hoff ht hbase (.inl husec)
  · intro j hj
    cases hj
    exact ⟨hi, husec⟩
  · intro j
    have hlists : b'.commonEvents = b.commonEvents := ht.plain (isCommonTimeout_plain (by omega))
    have hold : ∀ y ∈ b.commonEvents j, (b'.ev y).timeout = (b.ev y).timeout :=
      fun y hy => (Timed.timeout_of_mem h hoff ht hy).2
    by_cases hji : j = i
    · subst hji
      refine .inr (.inr (.inr ⟨ht.on, ?_⟩))
      intro y hy
      rw [hlists] at hy
      rw [ht.timeout, hold y hy]
      exact hle y hy
    · have hint : b'.ev (.timeoutEvent j) = b.ev (.timeoutEvent j) :=
        ht.ev _ fun h => hji (EventRef.timeoutEvent.inj h)
      rcases h.sched j with (hj | hj) | hj
      · exact .inl hj
      · exact absurd hj hji
      · exact .inr (hj.congr (congrFun hlists j) hint hold)

variable [DecidableEq ε]

def insertTimed (b : EventBase ε β) (x : EventRef ε) (t : Timeval) : EventBase ε β :=
  (b.modifyEv x fun ev => { ev with timeout := t }).eventQueueInsertTimeout true x

lemma durations_eventQueueInsertTimeout (grow : Bool) (hoff : (b.ev x).flags .timeout = false) :
    (b.eventQueueInsertTimeout grow x).commonTimeoutQueues.map CommonTimeoutList.duration =
      b.commonTimeoutQueues.map CommonTimeoutList.duration := by
  rw [eventQueueInsertTimeout_eq grow hoff]
  split
  · exact durations_modifyCommon (b := ((b.incrEventCount x).setFlag x .timeout true).evutilAssert _) _ _
  · unfold minHeapPush
    split
    · rfl
    · rfl

lemma timed_insert (grow : Bool) (hoff : (b.ev x).flags .timeout = false) (t : Timeval) :
    Timed x t b ((b.modifyEv x fun ev => { ev with timeout := t }).eventQueueInsertTimeout grow x) := by
  obtain ⟨b1, hb1⟩ : ∃ b1, b1 = b.modifyEv x fun ev => { ev with timeout := t } := ⟨_, rfl⟩
  rw [← hb1]
  have hoff1 : (b1.ev x).flags .timeout = false := by
    rw [hb1, flags_setTimeout]
    exact hoff
  have hx1 : b1.ev x = { b.ev x with timeout := t } := by
    rw [hb1, ev_modifyEv, if_pos rfl]
  have hlists := commonEvents_eventQueueInsertTimeout grow hoff1
  have hdurations := durations_eventQueueInsertTimeout grow hoff1
  obtain ⟨heap, queues, abort, hchanges⟩ := eventQueueInsertTimeout_changes grow hoff1
  have hev : (b1.eventQueueInsertTimeout grow x).ev = (b1.setFlag x .timeout true).ev := by
    rw [hchanges]
    rfl
  have hx : (b1.eventQueueInsertTimeout grow x).ev x =
      { b.ev x with timeout := t, flags := Function.update (b.ev x).flags .timeout true } := by
    rw [hev, setFlag, ev_modifyEv, if_pos rfl, hx1]
  have htimeouts : ∀ y, ((b1.eventQueueInsertTimeout grow x).ev y).timeout = (b1.ev y).timeout := by
    intro y
    rw [hev]
    exact field_modifyEv Event.timeout fun _ => rfl
  have hcommon : b1.isCommonTimeout t = b.isCommonTimeout t := by
    rw [hb1]
    rfl
  have hold : b1.commonEvents = b.commonEvents := by
    rw [hb1]
    rfl
  rw [hx1, hcommon, hold] at hlists
  refine ⟨⟨?_, by rw [hx], by rw [hx], ?_, ?_⟩, by rw [hx], by rw [hx], by simp [hx], ?_, ?_⟩
  · intro y hy
    rw [hev, setFlag, ev_modifyEv, if_neg hy, hb1, ev_modifyEv, if_neg hy]
  · rw [hdurations, hb1]
    rfl
  · rw [hchanges, hb1]
    rfl
  · intro hplain
    rw [hlists, if_neg (Bool.eq_false_iff.1 hplain)]
  · intro hon
    rw [if_pos hon] at hlists
    refine ⟨?_, ?_, ?_⟩
    · rw [hlists, Function.update_self, ← hold]
      exact inorder_perm _ _ _
    · intro hsorted
      rw [hlists, Function.update_self]
      simp only [htimeouts, ← hold] at hsorted ⊢
      rw [inorder, insertInorder_eq, pairwise_reverse]
      exact (pairwise_reverse.2 hsorted).orderedInsert x _
    · intro i hi
      rw [hlists, Function.update_of_ne hi]

lemma insertTimed_timed (hoff : (b.ev x).flags .timeout = false) (t : Timeval) : Timed x t b (insertTimed b x t) :=
  timed_insert true hoff t

lemma TimerInv.setIoTimeout {e : ε} (h : TimerInv exc b) (tv : Timeval) :
    TimerInv exc (b.modifyEv (.event e) fun ev => { ev with ioTimeout := tv }) :=
  h.untimed untimed_modifyEv (h.base.setIoTimeout tv) (fun _ => id) fun _ hi => nomatch hi

end Timers

end MyLibevent.Proofs
