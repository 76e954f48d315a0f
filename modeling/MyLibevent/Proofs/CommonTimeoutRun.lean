import MyLibevent.Proofs.CommonTimeoutAdd
import MyLibevent.Proofs.EventFinalize

/-!
# No common timeout is missed

The loops of `timeout_process` and `common_timeout_callback`, and the invariant of common timeouts
over whole runs of the base.
-/

namespace MyLibevent.Proofs

open EventBase FiledLists List

section Loops

variable {ε β : Type*} (be : EventBackend β) {b b' : EventBase ε β}
  {x y : EventRef ε} {exc : Nat → Prop} {i n n' : Nat}

lemma TimerInv.lt_of_flag (h : TimerInv exc b) {k : EvList} (hon : (b.ev x).flags k) (i : Nat)
    (hx : x = .timeoutEvent i) : i < b.commonTimeoutQueues.length := by
  by_contra hge
  rw [hx, h.fresh i (not_lt.1 hge) k] at hon
  exact Bool.false_ne_true hon

lemma timeout_of_top (h : BaseInv b) (htop : b.timeheap.top = some x) : (b.ev x).flags .timeout := by
  obtain ⟨S, hheap, hS⟩ := h.timeouts.heap
  have hn : b.timeheap.n ≠ 0 := by
    intro hn
    simp [MinHeap.top, hn] at htop
  have hp : b.timeheap.p 0 = x := by simpa [MinHeap.top, hn] using htop
  exact ((hS x).1 (hp ▸ (hheap.top_least hn).1)).1

lemma TimerInv.event_of_mem (h : TimerInv exc b) (hx : x ∈ b.commonEvents i) : ∃ e, x = .event e := by
  cases x with
  | event e => exact ⟨e, rfl⟩
  | timeoutEvent j =>
    obtain ⟨-, ⟨u, hu, husec⟩, hon⟩ := h.member hx
    have hplain := h.internal j hon
    rw [husec, commonUsec] at hplain
    omega

lemma TimersOk.setCurrent (h : TimersOk exc b) (c : Option (EventRef ε)) :
    TimersOk exc { b with currentEvent := c } :=
  ⟨{ h.inv with base := h.inv.base.report _ _ c _ }, h.io⟩

lemma UsecOk.mono {max usec : Nat} (h : UsecOk max n usec) (hn : n ≤ n') : UsecOk max n' usec := by
  rcases h with h | ⟨i, hi, u, hu, h⟩
  · exact .inl h
  · exact .inr ⟨i, hi.trans_le hn, u, hu, h⟩

lemma IoTimeoutOk.mono {ev : Event} (h : IoTimeoutOk n ev) (hn : n ≤ n') : IoTimeoutOk n' ev := by
  rcases h with h | h | ⟨⟨i, hi, hio⟩, j, hj, ht⟩
  · exact .inl h
  · exact .inr (.inl h)
  · exact .inr (.inr ⟨⟨i, hi.trans_le hn, hio⟩, j, hj.trans_le hn, ht⟩)

lemma TimerInv.idx_lt (h : TimerInv exc b) (y : EventRef ε) (hy : (b.ev y).flags .timeout)
    (hmagic : (b.ev y).timeout.usec &&& commonTimeoutMask = commonTimeoutMagic) :
    commonTimeoutIdx (b.ev y).timeout < b.commonTimeoutQueues.length := by
  have hlen : b.commonTimeoutQueues.length ≤ 256 := h.length
  rw [magic_iff] at hmagic
  rcases h.deadline y hy with hplain | ⟨i, hi, u, hu, husec⟩
  · omega
  · rw [commonTimeoutIdx_common husec (by omega) (by omega)]
    exact hi

lemma TimerInv.internal_mem_heap (h : TimerInv exc b) {i : Nat}
    (hon : (b.ev (.timeoutEvent i)).flags .timeout) :
    .timeoutEvent i ∈ b.timeheap.events := by
  obtain ⟨S, hheap, hS⟩ := h.base.timeouts.heap
  have hplain := h.internal i hon
  have hmem := (hS _).2 ⟨hon, isCommonTimeout_plain (by omega)⟩
  obtain ⟨j, hj, hp⟩ := (hheap.stored _).1 hmem
  exact mem_map.2 ⟨j, mem_range.2 hj, hp⟩

variable [DecidableEq ε]

lemma expire_inv (h : BaseInv b) : BaseInv (expire be b x) := h.moves (expire_moves trivial)

lemma expire_touched : Touched x b (expire be b x) := Moves.touched (expire_moves rfl)

lemma expire_active (h : BaseInv b) : ((expire be b x).ev x).flags .active :=
  eventActiveNolock_active ((h.moves (eventDelNolock_moves trivial)).setup.finalizing x) _

lemma expire_timeout (h : BaseInv b) : ((expire be b x).ev x).flags .timeout = false := by
  rw [Bool.eq_false_iff]
  intro hon
  have hoff := (eventActiveNolock_touched (b := (b.eventDelNolock be x).2) (x := x) evTimeout).flag hon
  rw [eventDelNolock_timeout be (h.setup.finalizing x)] at hoff
  exact Bool.false_ne_true hoff

lemma expire_timer (h : TimersOk exc b) (hon : (b.ev x).flags .timeout) : TimersOk exc (expire be b x) :=
  h.touched (expire_touched be) (expire_inv be h.inv.base) (fun _ => id)
    fun i hi => ⟨h.inv.lt_of_flag hon i hi, .inr (expire_active be h.inv.base)⟩

lemma timeoutProcessLoop_timer (now : Timeval) (k : Nat) (h : TimersOk exc b) :
    TimersOk exc (timeoutProcessLoop be now k b) ∧
      (timeoutProcessLoop be now k b).currentEvent = b.currentEvent := by
  induction k generalizing b with
  | zero => exact ⟨h, rfl⟩
  | succ k ih =>
    unfold timeoutProcessLoop
    split
    · exact ⟨h, rfl⟩
    · rename_i x htop
      split
      · exact ⟨h, rfl⟩
      · obtain ⟨hinv, hcurrent⟩ := ih (expire_timer be h (timeout_of_top h.inv.base htop))
        exact ⟨hinv, hcurrent.trans (expire_touched be).current⟩

lemma timeoutProcess_done (now : Timeval) (h : BaseInv b)
    (hon : ((b.timeoutProcess be now).ev y).flags .timeout)
    (hplain : (b.timeoutProcess be now).isCommonTimeout ((b.timeoutProcess be now).ev y).timeout = false) :
    now < ((b.timeoutProcess be now).ev y).timeout := by
  have hinv : BaseInv (b.timeoutProcess be now) := h.moves (timeoutProcessLoop_moves (fun _ => trivial) now _)
  obtain ⟨S, hheap, hS⟩ := hinv.timeouts.heap
  obtain ⟨-, fired, hfired⟩ := timeoutProcessLoop_expires be now _ h.pending le_rfl
  have hlate := ((hfired.pending y).1 ((mem_events hheap y).2 ((hS y).2 ⟨hon, hplain⟩))).2
  have hout : y ∉ fired := by
    rw [hfired.mem]
    exact fun hdue => absurd hdue.2 (not_le.2 hlate)
  rwa [← hfired.others y hout] at hlate

lemma notYetDue_iff (tv now : Timeval) : notYetDue tv now ↔ now < tv.masked := by
  have hsec : tv.masked.sec = tv.sec := rfl
  have husec : tv.masked.usec = tv.usec &&& microsecondsMask := rfl
  rw [Timeval.lt_iff, hsec, husec, notYetDue, Bool.or_eq_true, Bool.and_eq_true, beq_iff_eq,
    decide_eq_true_eq, decide_eq_true_eq, eq_comm]

structure LoopDone (i : Nat) (now : Timeval) (b b' : EventBase ε β) : Prop where
  current : b'.currentEvent = b.currentEvent
  timeouts : b'.timeouts = b.timeouts
  lists : (b'.commonEvents i).Sublist (b.commonEvents i)
  head : ∀ x, (b'.commonEvents i).head? = some x → now < (b'.ev x).timeout.masked
  fired : ∀ y, y ∈ b.commonEvents i ∨ (b.ev y).flags .active → y ∈ b'.commonEvents i ∨ (b'.ev y).flags .active

lemma commonTimeoutLoop_timer (i : Nat) (now : Timeval) (k : Nat) (h : TimersOk exc b)
    (hk : (b.commonEvents i).length ≤ k) : TimersOk exc (commonTimeoutLoop be i now k b) ∧
      LoopDone i now b (commonTimeoutLoop be i now k b) := by
  have hstop : ∀ {b : EventBase ε β}, (∀ x, (b.commonEvents i).head? = some x →
      now < (b.ev x).timeout.masked) → LoopDone i now b b :=
    fun hhead => ⟨rfl, rfl, List.Sublist.refl _, hhead, fun _ => id⟩
  induction k generalizing b with
  | zero =>
    refine ⟨h, hstop ?_⟩
    intro x hx
    have hnil : b.commonEvents i = [] := length_eq_zero_iff.1 (by omega)
    rw [hnil] at hx
    exact nomatch hx
  | succ k ih =>
    unfold commonTimeoutLoop
    split
    · rename_i hnone
      refine ⟨h, hstop ?_⟩
      intro x hx
      rw [hnone] at hx
      exact nomatch hx
    · rename_i x hhead
      split_ifs with hdue
      · refine ⟨h, hstop ?_⟩
        intro y hy
        rw [hhead] at hy
        cases hy
        exact (notYetDue_iff _ _).1 hdue
      · have hx : x ∈ b.commonEvents i := mem_of_head? hhead
        have hbase := h.inv.base
        have hbase' : BaseInv (expire be b x) := expire_inv be hbase
        have ht : Touched x b (expire be b x) := expire_touched be
        have hgone : x ∉ (expire be b x).commonEvents i := by
          intro hmem
          have hon := ((hbase'.timeouts.common.mem i x).1 hmem).1.1
          exact Bool.false_ne_true ((expire_timeout be hbase).symm.trans hon)
        have hlt : ((expire be b x).commonEvents i).length < (b.commonEvents i).length := by
          apply lt_of_le_of_ne (ht.lists i).length_le
          intro hlen
          rw [(ht.lists i).eq_of_length hlen] at hgone
          exact hgone hx
        obtain ⟨hinv, hdone⟩ := ih (expire_timer be h (h.inv.member hx).2.2) (Nat.le_of_lt_succ (hlt.trans_le hk))
        refine ⟨hinv, hdone.current.trans ht.current, hdone.timeouts.trans ht.timeouts,
          hdone.lists.trans (ht.lists i), hdone.head, ?_⟩
        intro y hy
        apply hdone.fired
        by_cases hyx : y = x
        · rw [hyx]
          exact .inr (expire_active be hbase)
        · rw [hbase'.timeouts.common.mem, ht.ev y hyx, isCommonTimeout_congr ht.length, ← hbase.timeouts.common.mem]
          exact hy

lemma commonTimeoutCallback_timer (h : TimersOk (fun j => exc j ∨ j = i) b) (now : Timeval) :
    TimersOk exc (b.commonTimeoutCallback be true now i) ∧
      (b.commonTimeoutCallback be true now i).currentEvent = b.currentEvent ∧
      (∀ y ∈ (b.commonTimeoutCallback be true now i).commonEvents i,
        now < ((b.commonTimeoutCallback be true now i).ev y).timeout.masked) ∧
      ∀ y ∈ b.commonEvents i, (b.ev y).timeout.masked ≤ now →
        ((b.commonTimeoutCallback be true now i).ev y).flags .active := by
  obtain ⟨b1, hb1⟩ : ∃ b1, b1 = commonTimeoutLoop be i now (b.commonEvents i).length b := ⟨_, rfl⟩
  obtain ⟨h1, hdone⟩ := commonTimeoutLoop_timer be i now _ h le_rfl
  rw [← hb1] at h1 hdone
  have hlate : ∀ y ∈ b1.commonEvents i, now < (b1.ev y).timeout.masked := by
    intro y hy
    cases hhead : (b1.commonEvents i).head? with
    | none =>
      rw [head?_eq_none_iff.1 hhead] at hy
      exact absurd hy not_mem_nil
    | some x => exact (hdone.head x hhead).trans_le (h1.inv.head_least hhead y hy)
  have hfired : ∀ y ∈ b.commonEvents i, (b.ev y).timeout.masked ≤ now → (b1.ev y).flags .active := by
    intro y hy hdue
    rcases hdone.fired y (.inl hy) with hmem | hactive
    · have hlt := hlate y hmem
      have htimeout : (b1.ev y).timeout = (b.ev y).timeout := congrFun hdone.timeouts y
      rw [htimeout] at hlt
      exact absurd hdue (not_le.2 hlt)
    · exact hactive
  unfold commonTimeoutCallback
  rw [← hb1]
  dsimp only
  split
  · rename_i hnone
    have hnil : b1.commonEvents i = [] := head?_eq_none_iff.1 hnone
    refine ⟨⟨{ h1.inv with sched := ?_ }, h1.io⟩, hdone.current, hlate, hfired⟩
    intro j
    rcases h1.inv.sched j with (hj | rfl) | hj
    · exact .inl hj
    · exact .inr (.inl hnil)
    · exact .inr hj
  · rename_i x hhead
    obtain ⟨hinv, hres⟩ := commonTimeoutSchedule_timer be h1.inv hhead now
    refine ⟨⟨hinv, h1.io.rescheduled hinv hres⟩, hres.current.trans hdone.current, ?_, ?_⟩
    · intro y hy
      obtain ⟨e, rfl⟩ := hinv.event_of_mem hy
      rw [hres.ev (.event e) nofun]
      exact hlate _ ((hres.lists i).subset hy)
    · intro y hy hdue
      obtain ⟨e, rfl⟩ := h.inv.event_of_mem hy
      rw [hres.ev (.event e) nofun]
      exact hfired _ hy hdue

end Loops

section Run

variable {ε β : Type*} [DecidableEq ε] (be : EventBackend β) {r : EventRun ε β}
  {nactivequeues : Nat}

/-- Times are normalised, and a time value that is asked for is normalised or the duration of one of
the lists. -/
def TimesNormal (r : EventRun ε β) : EventCall ε → Prop
  | .add _ tv now _ => now.usec < 1000000 ∧ ∀ t, tv = some t → TvOk r.base t
  | .runActive _ now _ => now.usec < 1000000
  | _ => True

/-- The invariant of a run: the list whose internal event is being run needs no other. -/
structure RunInv (r : EventRun ε β) : Prop where
  timers : TimersOk (fun i => r.pending = some i) r.base
  current : ∀ i, r.pending = some i → r.base.currentEvent = some (.timeoutEvent i)

section Steps

variable {b : EventBase ε β} {exc : Nat → Prop}

lemma eventBaseInitCommonTimeout_timer (h : TimersOk exc b) (duration : Timeval) :
    TimersOk exc (b.eventBaseInitCommonTimeout duration).2 ∧
      (b.eventBaseInitCommonTimeout duration).2.currentEvent = b.currentEvent := by
  have hbase := eventBaseInitCommonTimeout_inv h.inv.base duration (h.inv.fresh _ le_rfl) h.inv.idx_lt
  rcases eventBaseInitCommonTimeout_cases b duration with heq | ⟨hmax, d, hd, hb'⟩
  · rw [heq]
    exact ⟨h, rfl⟩
  generalize (b.eventBaseInitCommonTimeout duration).2 = b' at hbase hb' ⊢
  refine ⟨?_, (congrArg currentEvent hb').trans rfl⟩
  obtain ⟨n, hn⟩ : ∃ n, n = b.commonTimeoutQueues.length := ⟨_, rfl⟩
  have hle : n ≤ 256 := hn ▸ h.inv.length
  have hlt : n < 256 := lt_of_le_of_ne hle (hn ▸ hmax)
  have hnew : b'.ev (.timeoutEvent n) = Event.assign (-1) {} 0 true ⟨0, 0⟩ := by
    rw [hb', hn]
    exact Function.update_self ..
  have hold : ∀ y, y ≠ .timeoutEvent n → b'.ev y = b.ev y := by
    intro y hy
    rw [hn] at hy
    rw [hb']
    exact Function.update_of_ne hy ..
  have hlists : ∀ i, b'.commonEvents i = b.commonEvents i := by
    intro i
    rw [hb']
    exact commonEvents_append _ i
  have hlen : b'.commonTimeoutQueues.length = n + 1 := by
    rw [hb', hn]
    exact length_append
  -- an event with a flag is not the new internal event
  have hne : ∀ {k y}, (b'.ev y).flags k → y ≠ .timeoutEvent n := by
    rintro k y hy rfl
    rw [hnew] at hy
    exact Bool.false_ne_true hy
  have hmem : ∀ {i y}, y ∈ b.commonEvents i → b'.ev y = b.ev y := by
    intro i y hy
    apply hold
    rintro rfl
    obtain ⟨e, he⟩ := h.inv.event_of_mem hy
    cases he
  refine ⟨⟨⟨?_, ?_, ?_, ?_⟩, hbase, ?_, ?_, ?_, ?_⟩, ?_⟩
  · rw [hlen]
    exact hlt
  · intro i d' hi
    rw [hb', map_append, getElem?_append, length_map] at hi
    split_ifs at hi with hge
    · exact h.inv.durations i d' hi
    · have hin : i = n := by
        obtain ⟨hlt', -⟩ := List.getElem?_eq_some_iff.1 hi
        simp only [map_cons, map_nil, length_singleton] at hlt'
        omega
      rw [← hn, hin, Nat.sub_self] at hi
      cases hi
      exact ⟨d.usec, hd, by rw [hin]; exact or_commonTimeoutMagic (by omega) hlt⟩
  · intro i
    by_cases hin : i = n
    · rw [hin, hnew]
      exact ⟨rfl, rfl, rfl, rfl⟩
    · rw [hold _ fun h => hin (EventRef.timeoutEvent.inj h)]
      exact h.inv.plain i
  · intro i hi k
    rw [hlen] at hi
    rw [hold _ fun h => by cases h; omega]
    exact h.inv.fresh i (by omega) k
  · intro i
    rw [hlists]
    refine (h.inv.sorted i).imp_of_mem ?_
    intro y z hy hz hyz
    rw [hmem hy, hmem hz]
    exact hyz
  · intro y hy
    have hyn := hne hy
    rw [hold y hyn] at hy ⊢
    rw [hlen]
    exact (h.inv.deadline y hy).mono (by omega)
  · intro i hi
    have hin := hne hi
    rw [hold _ hin] at hi ⊢
    exact h.inv.internal i hi
  · intro i
    rcases h.inv.sched i with hi | hi
    · exact .inl hi
    right
    by_cases hin : i = n
    · left
      rw [hlists, EventBase.commonEvents, getElem?_eq_none (by omega)]
      rfl
    · exact hi.congr (hlists i) (hold _ fun h => hin (EventRef.timeoutEvent.inj h)) fun y hy => by rw [hmem hy]
  · intro y hy
    have hyn : y ≠ .timeoutEvent n := by
      rintro rfl
      rw [hnew] at hy
      cases hy
    rw [hold y hyn] at hy ⊢
    rw [hlen]
    exact (h.io y hy).mono (by omega)

lemma eventQueueMakeLaterEventsActive_timer (h : TimersOk exc b) :
    TimersOk exc b.eventQueueMakeLaterEventsActive ∧
      b.eventQueueMakeLaterEventsActive.currentEvent = b.currentEvent := by
  unfold eventQueueMakeLaterEventsActive
  have hflags : ∀ y ∈ b.activeLaterQueue, (b.ev y).flags .activeLater :=
    fun y hy => ((h.inv.base.queues.later.mem () y).1 hy).1
  have hnodup : b.activeLaterQueue.Nodup := h.inv.base.queues.later.nodup ()
  -- the events still to be moved keep their flag
  generalize b.activeLaterQueue = l at hflags hnodup
  induction l generalizing b with
  | nil => exact ⟨h, rfl⟩
  | cons x l ih =>
    rw [nodup_cons] at hnodup
    have hx := hflags x mem_cons_self
    have ht : Touched x b (b.makeLaterEventActive x) := makeLaterEventActive_touched
    have hactive : ((b.makeLaterEventActive x).ev x).flags .active := by
      rw [makeLaterEventActive_eq]
      exact (flags_setFlag _ _ _).trans (if_pos ⟨rfl, rfl⟩)
    have h' : TimersOk exc (b.makeLaterEventActive x) :=
      h.touched ht (h.inv.base.makeLaterActive hx) (fun _ => id)
        fun i hi => ⟨h.inv.lt_of_flag hx i hi, .inr hactive⟩
    obtain ⟨hinv, hcurrent⟩ := ih h' (fun y hy => by
      have hyx : y ≠ x := ne_of_mem_of_not_mem hy hnodup.1
      rw [ht.ev y hyx]
      exact hflags y (mem_cons_of_mem x hy)) hnodup.2
    exact ⟨hinv, hcurrent.trans ht.current⟩

lemma eventRemoveTimerNolock_timer {e : ε} (h : TimersOk exc b) :
    TimersOk exc (b.eventRemoveTimerNolock (.event e)) ∧
      (b.eventRemoveTimerNolock (.event e)).currentEvent = b.currentEvent := by
  unfold eventRemoveTimerNolock
  split_ifs with hon
  · have ht : Touched (.event e) b (b.eventQueueRemoveTimeout (.event e)) :=
      eventQueueRemoveTimeout_touched hon
    have h' : TimersOk exc (b.eventQueueRemoveTimeout (.event e)) :=
      h.touched ht (h.inv.base.removeTimeout hon) (fun _ => id) fun i hi => nomatch hi
    refine ⟨⟨h'.inv.setIoTimeout _, ?_⟩, ht.current⟩
    intro y hy
    by_cases hye : y = .event e
    · rw [ev_modifyEv, if_pos hye]
      exact .inl rfl
    · rw [ev_modifyEv, if_neg hye] at hy ⊢
      exact h'.io y hy
  · exact ⟨h, rfl⟩

end Steps

lemma eventProcessActiveTurn_timer (h : RunInv r) (hcurrent : r.base.currentEvent = none) (i : Nat)
    {alloc : EventAlloc} (hpush : alloc.push) (hschedule : alloc.schedule)
    {now : Timeval} (hnow : now.usec < 1000000) : RunInv (r.step be (.runActive i now alloc)) := by
  have hpending : r.pending = none := by
    rw [Option.eq_none_iff_forall_ne_some]
    intro j hj
    cases hcurrent.symm.trans (h.current j hj)
  have hbase := h.timers.inv.base
  have hnone : TimersOk (fun j => (none : Option Nat) = some j) r.base := by
    have htimers := h.timers
    rw [hpending] at htimers
    exact htimers
  simp only [EventRun.step]
  unfold eventProcessActiveTurn
  split
  · rename_i hempty
    rw [hempty]
    exact ⟨hnone, fun k hk => by cases hk⟩
  rename_i x hhead
  rw [hhead]
  have hactive : (r.base.ev x).flags .active :=
    ((hbase.queues.active.mem i x).1 (mem_of_head? hhead)).1
  extract_lets b1 b2
  have ht1 : Touched x r.base b1 := by
    unfold b1
    split
    · exact eventQueueRemoveActive_touched hactive
    · exact eventDelNolock_touched be
  have hbase1 : BaseInv b1 := by
    unfold b1
    split
    · exact hbase.removeActive hactive
    · exact hbase.moves (eventDelNolock_moves trivial)
  cases x with
  | event e =>
    have h1 : TimersOk (fun j => (none : Option Nat) = some j) b1 :=
      hnone.touched ht1 hbase1 (fun _ => id) fun j hj => by cases hj
    have h2 : TimersOk (fun j => (none : Option Nat) = some j) b2 := h1.setCurrent _
    split_ifs with hclosure
    · exact ⟨(eventPersistClosure_timer be h2 hpush hschedule hnow hclosure).1, fun k hk => by cases hk⟩
    · exact ⟨h2, fun k hk => by cases hk⟩
  | timeoutEvent j =>
    -- the callback of the list is about to be entered
    have h1 : TimersOk (fun k => some j = some k) b1 := by
      apply hnone.touched ht1 hbase1 (by simp)
      intro k hk
      cases hk
      exact ⟨hnone.inv.lt_of_flag hactive j rfl, .inl rfl⟩
    have h2 : TimersOk (fun k => some j = some k) b2 := h1.setCurrent _
    have hclosure : (b2.ev (.timeoutEvent j)).closure ≠ .persist := by
      rw [(h2.inv.plain j).1]
      decide
    rw [if_neg hclosure]
    refine ⟨h2, ?_⟩
    intro k hk
    cases hk
    rfl

lemma runInv_step (h : RunInv r) (call : EventCall ε) (henabled : r.Enabled call)
    (hgrows : HeapGrows call) (htimes : TimesNormal r call) : RunInv (r.step be call) := by
  have hkept {b' : EventBase ε β} (h' : TimersOk (fun i => r.pending = some i) b' ∧
      b'.currentEvent = r.base.currentEvent) : RunInv { r with base := b' } :=
    ⟨h'.1, fun i hi => h'.2.trans (h.current i hi)⟩
  have htouched : ∀ (e : ε) (b' : EventBase ε β), Touched (.event e) r.base b' → BaseInv b' →
      RunInv { r with base := b' } := by
    intro e b' ht hbase
    exact hkept ⟨h.timers.touched ht hbase (fun _ => id) (fun i hi => by cases hi), ht.current⟩
  have hbase := h.timers.inv.base
  have hmoves (e : ε) (b' : EventBase ε β) (hm : ∀ {p : Moving ε}, p.about (.event e) → Moves p r.base b') :
      RunInv { r with base := b' } := htouched e b' (Moves.touched (hm rfl)) (hbase.moves (hm trivial))
  cases call with
  | add e tv now alloc =>
    exact hkept (eventAdd_timer be (e := e) h.timers hgrows.1 hgrows.2 htimes.1 htimes.2)
  | del e => exact hmoves e _ eventDelNolock_moves
  | active e res => exact hmoves e _ fun hx => eventActiveNolock_moves hx res
  | activeLater e res => exact hmoves e _ fun hx => eventActiveLaterNolock_moves hx res
  | removeTimer e => exact hkept (eventRemoveTimerNolock_timer (e := e) h.timers)
  | prioritySet e pri =>
    exact htouched e _ (eventPrioritySet_touched pri) (eventPrioritySet_inv hbase pri)
  | initCommonTimeout duration => exact hkept (eventBaseInitCommonTimeout_timer h.timers duration)
  | timeoutProcess now => exact hkept (timeoutProcessLoop_timer be now _ h.timers)
  | makeLaterEventsActive => exact hkept (eventQueueMakeLaterEventsActive_timer h.timers)
  | runActive i now alloc =>
    exact eventProcessActiveTurn_timer be h henabled i hgrows.1 hgrows.2 htimes
  | runCommonTimeout now grow =>
    cases hgrows
    simp only [EventRun.step]
    split
    · exact h
    · rename_i i hpending
      have hone : TimersOk (fun j => (none : Option Nat) = some j ∨ j = i) r.base :=
        ⟨h.timers.inv.mono fun j hj => .inr (Option.some.inj (hj.symm.trans hpending)), h.timers.io⟩
      exact ⟨(commonTimeoutCallback_timer be hone now).1, by simp⟩
  | callbackReturned =>
    refine ⟨h.timers.setCurrent none, ?_⟩
    intro i hi
    cases (show r.pending = none from henabled).symm.trans hi

omit [DecidableEq ε] in
lemma start_timers (setup : ε → EventSetup) (hn : 0 < nactivequeues) (evsel : β)
    (junk : Nat → EventRef ε) :
    TimersOk (fun _ => False) (EventBase.start setup nactivequeues evsel junk) := by
  have hoff : ∀ x k, ((EventBase.start setup nactivequeues evsel junk).ev x).flags k = false := by
    rintro (e | i) k
    · rfl
    · rfl
  refine ⟨⟨⟨Nat.zero_le _, nofun, fun _ => ⟨rfl, rfl, rfl, rfl⟩, fun _ _ k => hoff _ k⟩,
    start_inv setup hn evsel junk, fun _ => List.Pairwise.nil, ?_, ?_, fun _ => .inr (.inl rfl)⟩, ?_⟩
  · intro x hon
    exact absurd ((hoff x _).symm.trans hon) Bool.false_ne_true
  · intro i hon
    exact absurd ((hoff _ _).symm.trans hon) Bool.false_ne_true
  · rintro (e | i) _
    · exact .inl rfl
    · exact .inl rfl

lemma eventRun_start_runInv (setup : ε → EventSetup) (hn : 0 < nactivequeues) (evsel : β)
    (junk : Nat → EventRef ε) (durations : List Timeval) :
    RunInv (EventRun.start setup nactivequeues evsel junk durations) := by
  refine ⟨?_, nofun⟩
  have hstart := start_timers setup hn evsel junk
  unfold EventRun.start
  generalize EventBase.start setup nactivequeues evsel junk = b at hstart
  induction durations generalizing b with
  | nil => exact ⟨hstart.inv.mono nofun, hstart.io⟩
  | cons d ds ih => exact ih _ (eventBaseInitCommonTimeout_timer hstart d).1

lemma runInv_reachable {start : EventRun ε β} (hstart : RunInv start)
    (h : EventRun.Reachable be (fun r call => HeapGrows call ∧ TimesNormal r call) start r) :
    RunInv r := by
  refine h.invariant hstart ?_
  rintro r call _ hinv ⟨henabled, hgrows, htimes⟩ ⟨⟩
  exact runInv_step be hinv call henabled hgrows htimes

/-- In every state of a run in which the timeout heap can grow and times are normalised, each list of common
timeouts is sorted, and the internal event of a list with events is active, is being run, or is in the heap
with a deadline not after that of the head. After `timeout_process` a list with an event that is due has its
internal event active or being run, and after its callback everything in it that was due is active. -/
theorem common_timeouts_fire (setup : ε → EventSetup) {nactivequeues : Nat}
    (hn : 0 < nactivequeues) (evsel : β) (junk : Nat → EventRef ε) (durations : List Timeval)
    {r : EventRun ε β} (h : EventRun.Reachable be
      (fun r call => HeapGrows call ∧ TimesNormal r call)
      (EventRun.start setup nactivequeues evsel junk durations) r) :
    (∀ i, (r.base.commonEvents i).Pairwise fun x y =>
      (r.base.ev x).timeout.masked ≤ (r.base.ev y).timeout.masked) ∧
    (∀ i x, (r.base.commonEvents i).head? = some x →
      (r.base.ev (.timeoutEvent i)).flags .active ∨ r.pending = some i ∨
      .timeoutEvent i ∈ r.base.timeheap.events ∧
        (r.base.ev (.timeoutEvent i)).timeout ≤ (r.base.ev x).timeout.masked) ∧
    (∀ now i, ∀ x ∈ (r.base.timeoutProcess be now).commonEvents i,
      ((r.base.timeoutProcess be now).ev x).timeout.masked ≤ now →
      ((r.base.timeoutProcess be now).ev (.timeoutEvent i)).flags .active ∨ r.pending = some i) ∧
    (∀ now i, r.pending = some i →
      (∀ x ∈ (r.base.commonTimeoutCallback be true now i).commonEvents i,
        now < ((r.base.commonTimeoutCallback be true now i).ev x).timeout.masked) ∧
      ∀ x ∈ r.base.commonEvents i, (r.base.ev x).timeout.masked ≤ now →
        ((r.base.commonTimeoutCallback be true now i).ev x).flags .active) := by
  have hinv := runInv_reachable be (eventRun_start_runInv setup hn evsel junk durations) h
  have htimers := hinv.timers.inv
  refine ⟨?_, ?_, ?_, ?_⟩
  · intro i
    refine (htimers.sorted i).imp_of_mem ?_
    intro x y hx hy hle
    obtain ⟨-, ⟨u, hu, husec⟩, -⟩ := htimers.member hx
    obtain ⟨-, ⟨v, hv, hvsec⟩, -⟩ := htimers.member hy
    exact masked_le_masked husec hvsec (by omega) (by omega) hle
  · intro i x hhead
    rcases htimers.sched i with hp | hnil | hactive | ⟨hon, hle⟩
    · exact .inr (.inl hp)
    · rw [hnil] at hhead
      exact nomatch hhead
    · exact .inl hactive
    · exact .inr (.inr ⟨htimers.internal_mem_heap hon, hle x (mem_of_head? hhead)⟩)
  · intro now i x hx hdue
    have hafter : TimerInv _ (r.base.timeoutProcess be now) :=
      (timeoutProcessLoop_timer be now _ hinv.timers).1.inv
    rcases hafter.sched i with hp | hnil | hactive | ⟨hon, hle⟩
    · exact .inr hp
    · rw [hnil] at hx
      exact absurd hx not_mem_nil
    · exact .inl hactive
    · -- the internal event would be due, and nothing in the heap is
      have hplain := hafter.internal i hon
      have hlate := timeoutProcess_done be now htimers.base hon (isCommonTimeout_plain (by omega))
      exact absurd ((hle x hx).trans hdue) (not_le.2 hlate)
  · intro now i hp
    have hone : TimersOk (fun j => False ∨ j = i) r.base :=
      ⟨htimers.mono fun j hj => .inr (Option.some.inj (hj.symm.trans hp)), hinv.timers.io⟩
    exact (commonTimeoutCallback_timer be hone now).2.2

end Run

section Runs

def commonTimerRun : EventRun Bool Unit :=
  ((((twoTimers [⟨5, 0⟩]).step quietBackend
    (.add false (some ⟨5, commonUsec 0 0⟩) ⟨10, 0⟩ {})).step quietBackend
    (.timeoutProcess ⟨16, 0⟩)).step quietBackend (.runActive 0 ⟨16, 0⟩ {}))

theorem common_timeouts_fire_timer :
    commonTimerRun.pending = some 0 ∧
    ((commonTimerRun.base.commonTimeoutCallback quietBackend true ⟨16, 0⟩ 0).ev (.event false)).flags .active := by
  have hrun := common_timeouts_fire quietBackend (r := commonTimerRun)
    (fun _ : Bool => .evtimerNew) (show 0 < 2 by decide) ()
    (fun _ => .event false) [⟨5, 0⟩]
    (.step (.runActive 0 ⟨16, 0⟩ {}) (.step (.timeoutProcess ⟨16, 0⟩) (.step
      (.add false (some ⟨5, commonUsec 0 0⟩) ⟨10, 0⟩ {}) .start
      ⟨trivial, ⟨rfl, rfl⟩, by decide, fun t ht => by cases ht; exact .inr (by decide +kernel)⟩ rfl)
      ⟨trivial, trivial, trivial⟩ rfl)
      ⟨show _ = none by decide +kernel, ⟨rfl, rfl⟩, show 0 < 1000000 by decide⟩ rfl)
  have hpending : commonTimerRun.pending = some 0 := by decide +kernel
  refine ⟨hpending, (hrun.2.2.2 ⟨16, 0⟩ 0 hpending).2 _ ?_ ?_⟩
  · decide +kernel
  · decide +kernel

/-- Two common timeouts, and an event that waits for the first; with seven other timers and the
internal event of its list there are eight events in the heap, which has room for eight. -/
def fullHeap : EventRun (Fin 8) Unit :=
  ([1, 2, 3, 4, 5, 6, 7] : List (Fin 8)).foldl
    (fun r e => r.step quietBackend (.add e (some ⟨100, 0⟩) ⟨10, 0⟩ {}))
    ((EventRun.start (fun _ => .evtimerNew) 1 () (fun _ => .event 0)
      [⟨5, 0⟩, ⟨7, 0⟩]).step quietBackend (.add 0 (some ⟨5, commonUsec 0 0⟩) ⟨10, 0⟩ {}))

/-- The event asks for the other common timeout, and the heap cannot grow: the internal event of
the second list is not added, and nobody notices. -/
theorem common_timeout_unscheduled :
    let r := fullHeap.step quietBackend (.add 0 (some ⟨7, commonUsec 1 0⟩) ⟨11, 0⟩ { schedule := false })
    EventRun.Reachable quietBackend TimesNormal
      (EventRun.start (fun _ => .evtimerNew) 1 () (fun _ => .event 0) [⟨5, 0⟩, ⟨7, 0⟩]) r ∧
    (r.base.commonEvents 1).head? = some (.event 0) ∧
    (r.base.ev (.timeoutEvent 1)).flags .active = false ∧ r.pending = none ∧
    .timeoutEvent 1 ∉ r.base.timeheap.events := by
  have hadd : ∀ (r : EventRun (Fin 8) Unit) (e : Fin 8), TimesNormal r (.add e (some ⟨100, 0⟩) ⟨10, 0⟩ {}) := by
    intro r e
    refine ⟨show 0 < 1000000 by decide, ?_⟩
    rintro t ⟨⟩
    exact .inl (show 0 < 1000000 by decide)
  have hfold : ∀ (l : List (Fin 8)) (r : EventRun (Fin 8) Unit) {start : EventRun (Fin 8) Unit},
      EventRun.Reachable quietBackend TimesNormal start r →
      EventRun.Reachable quietBackend TimesNormal start
        (l.foldl (fun r e => r.step quietBackend (.add e (some ⟨100, 0⟩) ⟨10, 0⟩ {})) r) := by
    intro l
    induction l with
    | nil => exact fun _ _ h => h
    | cons e l ih => exact fun r _ h => ih _ (.step (.add e (some ⟨100, 0⟩) ⟨10, 0⟩ {}) h ⟨trivial, hadd r e⟩ rfl)
  refine ⟨?_, by decide +kernel, by decide +kernel, rfl, by decide +kernel⟩
  refine .step (.add 0 (some ⟨7, commonUsec 1 0⟩) ⟨11, 0⟩ { schedule := false }) ?_
    ⟨trivial, show 0 < 1000000 by decide, ?_⟩ rfl
  · refine hfold _ _ (.step (.add 0 (some ⟨5, commonUsec 0 0⟩) ⟨10, 0⟩ {}) .start
      ⟨trivial, show 0 < 1000000 by decide, ?_⟩ rfl)
    rintro t ⟨⟩
    exact .inr (by decide +kernel)
  · rintro t ⟨⟩
    exact .inr (by decide +kernel)

end Runs

end MyLibevent.Proofs
