import MyLibevent.Proofs.EventMoves

/-!
# Flags and queues of the event base

Every function of the base keeps the invariant of its queues, so that the flags of an event say where it is,
and the counters of the base count the flags.
-/

namespace MyLibevent.Proofs

open EventBase FiledLists List Function

section Base

variable {ε β : Type*} {b b' : EventBase ε β} {x : EventRef ε} {f : Event → Event} {v : Bool}

/-- What the events keep from when they are assigned. -/
structure SetupInv (b : EventBase ε β) : Prop where
  pri_lt : ∀ x, (b.ev x).pri < b.nactivequeues
  signal_nonneg : ∀ x, (b.ev x).events.signal → 0 ≤ (b.ev x).fd
  finalizing : ∀ x, (b.ev x).finalizing = false
  timeoutEvent_fd : ∀ i, (b.ev (.timeoutEvent i)).fd = -1

/-- The invariant of the base. The maps are in order as long as all fds fit. -/
structure BaseInv (b : EventBase ε β) : Prop where
  timeouts : TimeoutInv b
  queues : QueueInv b
  map : FdsFit b → MapInv b
  counted : EventCounted b
  setup : SetupInv b

lemma SetupInv.setFlag [DecidableEq ε] {k : EvList} (h : SetupInv b) : SetupInv (b.setFlag x k v) := by
  have hsame : SameSetup b (b.setFlag x k v) := sameSetup_of_setFlag rfl
  refine ⟨?_, ?_, ?_, fun i => (hsame.fd _).trans (h.timeoutEvent_fd i)⟩ <;> intro y
  · rw [hsame.pri]
    exact h.pri_lt y
  · rw [hsame.events, hsame.fd]
    exact h.signal_nonneg y
  · rw [hsame.finalizing]
    exact h.finalizing y

lemma BaseInv.of_evmap (h : BaseInv b) {evmap : EvmapBase (EventRef ε) β}
    (hkept : FdsFit b → evmap.ioListed = b.evmap.ioListed ∧ evmap.sigListed = b.evmap.sigListed) :
    BaseInv { b with evmap := evmap } where
  timeouts := { h.timeouts with }
  queues := { h.queues with }
  map hfit := ⟨(hkept hfit).1 ▸ (h.map hfit).io, (hkept hfit).2 ▸ (h.map hfit).sig, (h.map hfit).kind⟩
  counted := h.counted
  setup := { h.setup with }

lemma BaseInv.report (h : BaseInv b) (priority : Int) (goesOn : Bool) (current : Option (EventRef ε))
    (abort : Bool) : BaseInv { b with
      eventRunningPriority := priority
      eventContinue := goesOn
      currentEvent := current
      abort := abort } :=
  ⟨{ h.timeouts with }, { h.queues with }, fun hfit => { h.map hfit with }, h.counted, { h.setup with }⟩

variable [DecidableEq ε]

lemma BaseInv.modifyEv (h : BaseInv b) (hflags : (f (b.ev x)).flags = (b.ev x).flags)
    (htimeout : (b.ev x).flags .timeout → (f (b.ev x)).timeout = (b.ev x).timeout)
    (hpri : (b.ev x).flags .active → (f (b.ev x)).pri = (b.ev x).pri)
    (hfd : (f (b.ev x)).fd = (b.ev x).fd)
    (hevents : (b.ev x).flags .inserted → (f (b.ev x)).events = (b.ev x).events)
    (hinternal : ∀ k, (b.ev x).flags k → (f (b.ev x)).internal = (b.ev x).internal)
    (hpri_lt : (f (b.ev x)).pri < b.nactivequeues)
    (hsignal : (f (b.ev x)).events.signal → 0 ≤ (f (b.ev x)).fd)
    (hfinalizing : (f (b.ev x)).finalizing = false) : BaseInv (b.modifyEv x f) := by
  have hfds : ∀ y, ((b.modifyEv x f).ev y).fd = (b.ev y).fd :=
    rel_modifyEv (P := fun ev ev' => ev'.fd = ev.fd) (fun _ => rfl) hfd
  refine ⟨h.timeouts.modifyEv (congrFun hflags _) htimeout,
    h.queues.modifyEv (congrFun hflags _) (congrFun hflags _) hpri,
    fun hfit => (h.map (hfit.of_fd hfds)).modifyEv (congrFun hflags _) (fun _ => hfd) hevents,
    h.counted.modifyEv hflags hinternal, ?_⟩
  refine ⟨?_, ?_, ?_, fun i => (hfds _).trans (h.setup.timeoutEvent_fd i)⟩
  all_goals intro y
  all_goals rw [ev_modifyEv]
  all_goals split
  · exact hpri_lt
  · exact h.setup.pri_lt y
  · exact hsignal
  · exact h.setup.signal_nonneg y
  · exact hfinalizing
  · exact h.setup.finalizing y

lemma BaseInv.setRes (h : BaseInv b) (f : Nat → Nat) :
    BaseInv (b.modifyEv x fun ev => { ev with res := f ev.res }) :=
  h.modifyEv rfl (fun _ => rfl) (fun _ => rfl) rfl (fun _ => rfl) (fun _ _ => rfl)
    (h.setup.pri_lt x) (h.setup.signal_nonneg x) (h.setup.finalizing x)

lemma BaseInv.setIoTimeout (h : BaseInv b) (tv : Timeval) :
    BaseInv (b.modifyEv x fun ev => { ev with ioTimeout := tv }) :=
  h.modifyEv rfl (fun _ => rfl) (fun _ => rfl) rfl (fun _ => rfl) (fun _ _ => rfl)
    (h.setup.pri_lt x) (h.setup.signal_nonneg x) (h.setup.finalizing x)

lemma BaseInv.setTimeout (h : BaseInv b) (hoff : (b.ev x).flags .timeout = false) (t : Timeval) :
    BaseInv (b.modifyEv x fun ev => { ev with timeout := t }) :=
  h.modifyEv rfl (fun hon => absurd (hoff.symm.trans hon) Bool.false_ne_true) (fun _ => rfl)
    rfl (fun _ => rfl) (fun _ _ => rfl) (h.setup.pri_lt x) (h.setup.signal_nonneg x)
    (h.setup.finalizing x)

section Flag

variable {k : EvList} {heap : MinHeap (EventRef ε)} {common : List (CommonTimeoutList ε)}
  {evmap : EvmapBase (EventRef ε) β} {queues : Nat → List (EventRef ε)} {later : List (EventRef ε)}
  {n nmax nactive nactiveMax : Int} {abort : Bool}

lemma BaseInv.of_timeout (h : BaseInv b) (hb : b' = { b.setFlag x .timeout v with
      timeheap := heap, commonTimeoutQueues := common, eventCount := n, eventCountMax := nmax
      abort := abort })
    (htimeouts : TimeoutInv b') (hcounted : EventCounted b') : BaseInv b' where
  timeouts := htimeouts
  queues := hb ▸ { h.queues.setFlag (x := x) (k := .timeout) (v := v) nofun nofun with }
  map := hb ▸ fun hfit =>
    { (h.map (hfit.of_fd (sameSetup_of_setFlag rfl).fd)).setFlag (x := x) (k := .timeout) (v := v) nofun with }
  counted := hcounted
  setup := hb ▸ { h.setup.setFlag (x := x) (k := .timeout) (v := v) with }

lemma BaseInv.of_queues (h : BaseInv b) (hk : k ≠ .timeout) (hk' : k ≠ .inserted)
    (hb : b' = { b.setFlag x k v with
      activequeues := queues, activeLaterQueue := later, eventCount := n, eventCountMax := nmax
      eventCountActive := nactive, eventCountActiveMax := nactiveMax, abort := abort })
    (hqueues : QueueInv b') (hcounted : EventCounted b') : BaseInv b' where
  timeouts := hb ▸ { h.timeouts.setFlag (x := x) (v := v) hk with }
  queues := hqueues
  map := hb ▸ fun hfit =>
    { (h.map (hfit.of_fd (sameSetup_of_setFlag rfl).fd)).setFlag (x := x) (v := v) hk' with }
  counted := hcounted
  setup := hb ▸ { h.setup.setFlag (x := x) (k := k) (v := v) with }

lemma BaseInv.of_map (h : BaseInv b) (hb : b' = { b.setFlag x .inserted v with
      evmap := evmap, eventCount := n, eventCountMax := nmax })
    (hmap : FdsFit b → MapInv b') (hcounted : EventCounted b') : BaseInv b' where
  timeouts := hb ▸ { h.timeouts.setFlag (x := x) (k := .inserted) (v := v) nofun with }
  queues := hb ▸ { h.queues.setFlag (x := x) (k := .inserted) (v := v) nofun nofun with }
  map hfit := hmap (hfit.of_fd (sameSetup_of_setFlag (x := x) (k := .inserted) (v := v) (by rw [hb])).fd)
  counted := hcounted
  setup := hb ▸ { h.setup.setFlag (x := x) (k := .inserted) (v := v) with }

end Flag

section

variable (h : BaseInv b)
include h

lemma BaseInv.removeTimeout (hon : (b.ev x).flags .timeout) : BaseInv (b.eventQueueRemoveTimeout x) := by
  obtain ⟨heap, queues, heq⟩ := eventQueueRemoveTimeout_changes hon
  have htimeouts := eventQueueRemoveTimeout_inv h.timeouts hon
  rw [heq] at htimeouts ⊢
  exact h.of_timeout (x := x) rfl htimeouts (h.counted.setFlag hon rfl rfl)

lemma BaseInv.insertTimeout (hoff : (b.ev x).flags .timeout = false) :
    BaseInv (b.eventQueueInsertTimeout true x) := by
  obtain ⟨heap, queues, abort, heq⟩ := eventQueueInsertTimeout_changes true hoff
  have htimeouts := eventQueueInsertTimeout_inv h.timeouts hoff
  rw [heq] at htimeouts ⊢
  exact h.of_timeout (x := x) rfl htimeouts (h.counted.setFlag hoff rfl rfl)

lemma BaseInv.removeActive (hon : (b.ev x).flags .active) : BaseInv (b.eventQueueRemoveActive x) := by
  rw [eventQueueRemoveActive_eq hon]
  exact h.of_queues (x := x) (k := .active) (v := false) nofun nofun rfl
    (h.queues.moveActive (v := false) hon nofun (h.setup.pri_lt x) rfl rfl
      (perm_cons_erase (h.queues.active.mem_key.2 hon)) rfl rfl rfl) (h.counted.setFlag hon rfl rfl)

lemma BaseInv.removeLater (hon : (b.ev x).flags .activeLater) : BaseInv (b.eventQueueRemoveActiveLater x) := by
  rw [eventQueueRemoveActiveLater_eq hon]
  exact h.of_queues (x := x) (k := .activeLater) (v := false) nofun nofun rfl
    (h.queues.moveLater (v := false) hon nofun rfl
      (perm_cons_erase (h.queues.later.mem_key.2 hon)) rfl rfl rfl) (h.counted.setFlag hon rfl rfl)

lemma BaseInv.insertActive (hlater : (b.ev x).flags .activeLater = false) :
    BaseInv (b.eventQueueInsertActive x) := by
  cases hoff : (b.ev x).flags .active with
  | true =>
    rw [eventQueueInsertActive, if_pos hoff]
    exact h
  | false =>
    rw [eventQueueInsertActive_eq hoff]
    exact h.of_queues (x := x) (k := .active) (v := true) (by decide) (by decide) rfl
      (h.queues.moveActive hoff (fun _ => hlater) (h.setup.pri_lt x) rfl rfl
        (perm_append_singleton _ _) rfl rfl rfl)
      (h.counted.setFlag hoff rfl rfl)

lemma BaseInv.insertLater : BaseInv (b.eventQueueInsertActiveLater x) := by
  obtain heq | ⟨hoff, hactive, heq⟩ := eventQueueInsertActiveLater_cases (b := b) (x := x) <;> rw [heq]
  · exact h
  · exact h.of_queues (x := x) (k := .activeLater) (v := true) nofun nofun rfl
      (h.queues.moveLater hoff (fun _ => hactive) rfl (perm_append_singleton _ _) rfl rfl rfl)
      (h.counted.setFlag hoff rfl rfl)

end

/-- The counters go down and up again. -/
lemma makeLaterEventActive_eq_insert (hon : (b.ev x).flags .activeLater)
    (hoff : (b.ev x).flags .active = false) : b.makeLaterEventActive x =
      { (b.eventQueueRemoveActiveLater x).eventQueueInsertActive x with
        eventCountMax := b.eventCountMax
        eventCountActiveMax := b.eventCountActiveMax } := by
  have hev : (b.eventQueueRemoveActiveLater x).ev = (b.setFlag x .activeLater false).ev := by
    rw [eventQueueRemoveActiveLater_eq hon]
    rfl
  have hsame := sameSetup_of_setFlag hev
  have hidle : ((b.eventQueueRemoveActiveLater x).ev x).flags .active = false :=
    (flags_of_ne (by decide) hev x).trans hoff
  rw [makeLaterEventActive_eq, eventQueueInsertActive_eq hidle, hsame.pri]
  simp only [incrEventCount, incrCountActive, hsame.internal]
  rw [eventQueueRemoveActiveLater_eq hon]
  simp only [setFlag, modifyEv, decrEventCount, sub_add_cancel]
  rfl

lemma BaseInv.makeLaterActive (h : BaseInv b) (hon : (b.ev x).flags .activeLater) :
    BaseInv (b.makeLaterEventActive x) := by
  have hoff : (b.ev x).flags .active = false := by
    rw [Bool.eq_false_iff]
    exact fun hactive => h.queues.exclusive x ⟨hactive, hon⟩
  have hmoved : BaseInv ((b.eventQueueRemoveActiveLater x).eventQueueInsertActive x) := by
    apply (h.removeLater hon).insertActive
    rw [eventQueueRemoveActiveLater_eq hon]
    simp [flags_setFlag]
  rw [makeLaterEventActive_eq_insert hon hoff]
  exact ⟨{ hmoved.timeouts with }, { hmoved.queues with }, fun hfit => { hmoved.map hfit with },
    hmoved.counted, { hmoved.setup with }⟩

end Base

section Functions

variable {ε β : Type*} (be : EventBackend β) {b : EventBase ε β} {x : EventRef ε}
  {r : Int × EvmapBase (EventRef ε) β} {p : Prop}
  {schedule : EventBase ε β → Nat → EventRef ε → EventBase ε β} {alloc : EventAlloc}

lemma evmapAdd_listed (alloc : EvmapAlloc) (hfit : (b.ev x).fd < 2 ^ 28)
    (hr : r = if (b.ev x).events.io.any then
      b.evmap.evmapIoAdd be.evsel be.debugMode b.evEvents alloc (b.ev x).fd x
      else b.evmap.evmapSignalAdd be.evsigsel alloc (b.ev x).fd.toNat x) :
    (r.1 = -1 ∧ r.2.ioListed = b.evmap.ioListed ∧ r.2.sigListed = b.evmap.sigListed) ∨
    (r.1 ≠ -1 ∧
      Refiled true x ((b.ev x).events.io.any ∧ 0 ≤ (b.ev x).fd) (b.ev x).fd b.evmap.ioListed r.2.ioListed ∧
      Refiled true x ((b.ev x).events.io.any = false) (b.ev x).fd.toNat b.evmap.sigListed r.2.sigListed) := by
  subst hr
  cases hio : (b.ev x).events.io.any with
  | true =>
    rw [if_pos rfl, sigListed_congr (sigmap_evmapIoAdd ..)]
    by_cases hfd : 0 ≤ (b.ev x).fd
    · cases evmapIoAdd_listed be.evsel be.debugMode b.evEvents alloc b.evmap _ x hfd hfit with
      | inl hfail => exact .inl ⟨hfail.1, hfail.2, rfl⟩
      | inr hadded =>
        rw [hadded.2]
        exact .inr ⟨hadded.1, refiled_update ⟨rfl, hfd⟩ (.refl _), refiled_of_not (by simp)⟩
    · rw [EvmapBase.evmapIoAdd, if_pos (not_le.1 hfd)]
      exact .inr ⟨by simp, refiled_of_not fun h => hfd h.2, refiled_of_not (by simp)⟩
  | false =>
    rw [if_neg Bool.false_ne_true, ioListed_congr (io_evmapSignalAdd ..)]
    cases evmapSignalAdd_listed be.evsigsel alloc b.evmap (b.ev x).fd.toNat x (by omega) with
    | inl hfail => exact .inl ⟨hfail.1, rfl, hfail.2⟩
    | inr hadded =>
      rw [hadded.2]
      exact .inr ⟨hadded.1, refiled_of_not (by simp), refiled_update rfl (.refl _)⟩

lemma BaseInv.reserve (h : BaseInv b) (n : Nat) : BaseInv { b with timeheap := b.timeheap.reserve n } :=
  ⟨h.timeouts.reserve n, { h.queues with }, fun hfit => { h.map hfit with }, h.counted, { h.setup with }⟩

lemma commonEvents_append (duration : Timeval) (i : Nat) :
    ({ b with commonTimeoutQueues := b.commonTimeoutQueues ++ [⟨duration, []⟩] } :
      EventBase ε β).commonEvents i = b.commonEvents i := by
  simp only [commonEvents, getElem?_append]
  split_ifs with hi
  · rfl
  · have hnone : b.commonTimeoutQueues[i]? = none := getElem?_eq_none (not_lt.1 hi)
    cases hj : i - b.commonTimeoutQueues.length with
    | zero => simp [hnone]
    | succ j => simp [hnone]

lemma BaseInv.addCommon (h : BaseInv b) (duration : Timeval)
    (hplain : ∀ y, (b.ev y).flags .timeout →
      (b.ev y).timeout.usec &&& commonTimeoutMask = commonTimeoutMagic →
      commonTimeoutIdx (b.ev y).timeout < b.commonTimeoutQueues.length) :
    BaseInv { b with commonTimeoutQueues := b.commonTimeoutQueues ++ [⟨duration, []⟩] } := by
  have hfiled : ∀ y, (b.ev y).flags .timeout →
      ({ b with commonTimeoutQueues := b.commonTimeoutQueues ++ [⟨duration, []⟩] } :
        EventBase ε β).isCommonTimeout (b.ev y).timeout = b.isCommonTimeout (b.ev y).timeout := by
    intro y hy
    rw [isCommonTimeout, isCommonTimeout, Bool.eq_iff_iff]
    simp only [Bool.and_eq_true, beq_iff_eq, decide_eq_true_eq, length_append, length_singleton]
    apply and_congr_right
    intro hmagic
    have hlt := hplain y hy hmagic
    omega
  refine ⟨⟨?_, ?_⟩, { h.queues with }, fun hfit => { h.map hfit with }, h.counted, { h.setup with }⟩
  · obtain ⟨S, hheap, hS⟩ := h.timeouts.heap
    refine ⟨S, hheap, ?_⟩
    intro y
    rw [hS]
    apply and_congr_right
    intro hy
    rw [hfiled y hy]
  · apply h.timeouts.common.congr (commonEvents_append duration)
    · intro y
      apply and_congr_right
      intro hy
      rw [hfiled y hy]
    · intro y _
      rfl

variable [DecidableEq ε]

lemma eventAddInserted_inv (h : BaseInv b) (alloc : EvmapAlloc) : BaseInv (b.eventAddInserted be alloc x).2 := by
  unfold eventAddInserted
  extract_lets ev r b1
  split
  · rename_i hcond
    simp only [Bool.and_eq_true, Bool.or_eq_true, Bool.not_eq_true', Bool.or_eq_false_iff] at hcond
    obtain ⟨hkind, ⟨hoff, -⟩, -⟩ := hcond
    have hlisted := fun hfit : FdsFit b => evmapAdd_listed be alloc (hfit x) (r := r) rfl
    by_cases hadded : r.1 = -1
    · rw [if_neg (not_not.2 hadded)]
      exact h.of_evmap fun hfit => ((hlisted hfit).resolve_right fun h => h.1 hadded).2
    · have hinsert : ({ b with evmap := r.2 } : EventBase ε β).eventQueueInsertInserted x =
          ({ b with evmap := r.2 }.incrEventCount x).setFlag x .inserted true :=
        if_neg (Bool.eq_false_iff.1 hoff)
      rw [if_pos hadded, hinsert]
      refine h.of_map (x := x) (v := true) rfl (fun hfit => ?_) (h.counted.setFlag hoff rfl rfl)
      obtain ⟨-, hio, hsig⟩ := (hlisted hfit).resolve_left fun h => hadded h.1
      exact (h.map hfit).refile hoff (fun _ hio => hkind.resolve_left (Bool.eq_false_iff.1 hio)) rfl hio hsig
  · exact h

lemma evmapDel_listed (h : MapInv b) (hon : (b.ev x).flags .inserted)
    (hr : r = if (b.ev x).events.io.any then b.evmap.evmapIoDel be.evsel b.evEvents (b.ev x).fd x
      else b.evmap.evmapSignalDel be.evsigsel (b.ev x).fd.toNat x) :
    Refiled false x ((b.ev x).events.io.any ∧ 0 ≤ (b.ev x).fd) (b.ev x).fd b.evmap.ioListed r.2.ioListed ∧
    Refiled false x ((b.ev x).events.io.any = false) (b.ev x).fd.toNat b.evmap.sigListed r.2.sigListed := by
  subst hr
  cases hio : (b.ev x).events.io.any with
  | true =>
    rw [if_pos rfl, sigListed_congr (sigmap_evmapIoDel ..)]
    refine ⟨?_, refiled_of_not (by simp)⟩
    by_cases hfd : 0 ≤ (b.ev x).fd
    · have hmem := h.io.mem_key.2 ⟨hon, hio, hfd⟩
      rw [evmapIoDel_listed be.evsel b.evEvents b.evmap _ x hmem]
      exact refiled_update ⟨rfl, hfd⟩ (perm_cons_erase hmem)
    · rw [EvmapBase.evmapIoDel, if_pos (not_le.1 hfd)]
      exact refiled_of_not fun h => hfd h.2
  | false =>
    have hmem := h.sig.mem_key.2 ⟨hon, hio⟩
    rw [if_neg Bool.false_ne_true, ioListed_congr (io_evmapSignalDel ..),
      evmapSignalDel_listed be.evsigsel b.evmap _ x hmem]
    exact ⟨refiled_of_not (by simp), refiled_update rfl (perm_cons_erase hmem)⟩

lemma BaseInv.delInserted (h : BaseInv b) (hon : (b.ev x).flags .inserted) : BaseInv (delInserted be b x) := by
  unfold Proofs.delInserted
  extract_lets b1
  have heq : b1 = (b.decrEventCount x).setFlag x .inserted false :=
    if_neg fun hoff => Bool.false_ne_true (hoff.symm.trans hon)
  have hev : b1.ev = (b.setFlag x .inserted false).ev := by
    rw [heq]
    rfl
  have hsetup := sameSetup_of_setFlag hev
  have hevents : b1.evEvents = b.evEvents := funext hsetup.events
  have hmap : b1.evmap = b.evmap := by
    rw [heq]
    rfl
  rw [hsetup.events, hsetup.fd, hevents, hmap, heq]
  refine h.of_map (x := x) (v := false) rfl (fun hfit => ?_) (h.counted.setFlag hon rfl rfl)
  obtain ⟨hio, hsig⟩ := evmapDel_listed be (h.map hfit) hon rfl
  exact (h.map hfit).refile (v := false) hon nofun rfl hio hsig

/-- Moves while the heap can grow. -/
def Moving.grown : Moving ε := ⟨fun _ => True, fun _ => True, fun grow => grow⟩

lemma BaseInv.move (h : BaseInv b) (hm : Move .grown b b') : BaseInv b' := by
  cases hm with
  | report _ abort goesOn => exact h.report _ goesOn _ abort
  | reserve _ n => exact h.reserve n
  | setRes _ f => exact h.setRes f
  | setIoTimeout _ tv => exact h.setIoTimeout tv
  | setTimeout _ hoff t => exact h.setTimeout hoff t
  | removeTimeout _ hon => exact h.removeTimeout hon
  | insertTimeout _ hgrow hoff _ =>
    cases hgrow
    exact h.insertTimeout hoff
  | removeActive _ hon => exact h.removeActive hon
  | removeLater _ hon => exact h.removeLater hon
  | insertActive _ hlater => exact h.insertActive hlater
  | insertLater _ => exact h.insertLater
  | addInserted _ be alloc => exact eventAddInserted_inv be h alloc
  | delInserted _ be hon => exact h.delInserted be hon

section

variable (h : BaseInv b)
include h

lemma BaseInv.moves (hm : Moves .grown b b') : BaseInv b' :=
  hm.keeps h fun _ _ => BaseInv.move

lemma eventRemoveTimerNolock_inv : BaseInv (b.eventRemoveTimerNolock x) := by
  unfold eventRemoveTimerNolock
  split_ifs with hon
  · exact (h.removeTimeout hon).setIoTimeout _
  · exact h

lemma eventPrioritySet_inv (pri : Nat) : BaseInv (b.eventPrioritySet x pri) := by
  unfold eventPrioritySet
  split
  · exact h
  rename_i hcond
  rw [not_or, not_le] at hcond
  exact h.modifyEv rfl (fun _ => rfl) (fun hon => absurd hon hcond.1) rfl (fun _ => rfl)
    (fun _ _ => rfl) hcond.2 (h.setup.signal_nonneg x) (h.setup.finalizing x)

lemma eventQueueMakeLaterEventsActive_inv : BaseInv b.eventQueueMakeLaterEventsActive := by
  unfold eventQueueMakeLaterEventsActive
  have hflags : ∀ y ∈ b.activeLaterQueue, (b.ev y).flags .activeLater :=
    fun y hy => ((h.queues.later.mem () y).1 hy).1
  have hnodup : b.activeLaterQueue.Nodup := h.queues.later.nodup ()
  -- the events still to be moved keep their flag
  generalize b.activeLaterQueue = l at hflags hnodup
  induction l generalizing b with
  | nil => exact h
  | cons x l ih =>
    rw [nodup_cons] at hnodup
    refine ih (h.makeLaterActive (hflags x mem_cons_self)) ?_ hnodup.2
    intro y hy
    have hyx : y ≠ x := ne_of_mem_of_not_mem hy hnodup.1
    rw [makeLaterEventActive_eq]
    simp only [flags_setFlag, hyx, false_and, if_false]
    exact hflags y (mem_cons_of_mem x hy)

lemma eventProcessActiveTurn_inv (hpush : alloc.push)
    (hschedule : alloc.schedule) (now : Timeval) (i : Nat) :
    BaseInv (b.eventProcessActiveTurn be alloc now i) := by
  unfold eventProcessActiveTurn
  split
  · exact h
  rename_i y hy
  extract_lets b1 b2
  have hactive : (b.ev y).flags .active :=
    ((h.queues.active.mem i y).1 (mem_of_head? hy)).1
  have h1 : BaseInv b1 := by
    unfold b1
    split
    · exact h.removeActive hactive
    · exact h.moves (eventDelNolock_moves trivial)
  have h2 : BaseInv b2 := h1.report _ _ _ _
  split
  · exact h2.moves (eventPersistClosure_moves (fun _ => trivial) (fun _ => trivial) (fun _ => trivial) hpush
      hschedule now)
  · exact h2

lemma BaseInv.assign {i : Nat} (hoff : ∀ k, (b.ev (.timeoutEvent i)).flags k = false) :
    BaseInv (b.modifyEv (.timeoutEvent i) fun _ => Event.assign (-1) {} 0 true ⟨0, 0⟩) := by
  have hnever : ∀ k (p : Prop), (b.ev (.timeoutEvent i)).flags k → p := by
    intro k p hon
    exact absurd ((hoff k).symm.trans hon) Bool.false_ne_true
  exact h.modifyEv (funext fun k => (hoff k).symm) (hnever _ _) (hnever _ _)
    (h.setup.timeoutEvent_fd i).symm (hnever _ _) (fun k => hnever k _)
    ((Nat.zero_le _).trans_lt (h.setup.pri_lt (.timeoutEvent i))) (fun hs => absurd hs Bool.false_ne_true) rfl

end

lemma eventBaseInitCommonTimeout_cases (b : EventBase ε β) (duration : Timeval) :
    (b.eventBaseInitCommonTimeout duration).2 = b ∨
    b.commonTimeoutQueues.length ≠ maxCommonTimeouts ∧ ∃ d : Timeval, d.usec ≤ 1000000 ∧
      (b.eventBaseInitCommonTimeout duration).2 =
        { b.modifyEv (.timeoutEvent b.commonTimeoutQueues.length) fun _ =>
            Event.assign (-1) {} 0 true ⟨0, 0⟩ with
          timeheap := b.timeheap.clearIdx (.timeoutEvent b.commonTimeoutQueues.length)
          commonTimeoutQueues := b.commonTimeoutQueues ++ [⟨{ d with usec := d.usec |||
            commonTimeoutMagic ||| b.commonTimeoutQueues.length <<< commonTimeoutIdxShift }, []⟩] } := by
  unfold eventBaseInitCommonTimeout
  extract_lets tv d i ctl ev
  split
  · exact .inl rfl
  split_ifs with hmax
  · exact .inl rfl
  · refine .inr ⟨hmax, d, ?_, rfl⟩
    unfold d
    split
    · dsimp only
      omega
    · omega

lemma eventBaseInitCommonTimeout_inv (h : BaseInv b) (duration : Timeval)
    (hfresh : ∀ k, (b.ev (.timeoutEvent b.commonTimeoutQueues.length)).flags k = false)
    (hplain : ∀ y, (b.ev y).flags .timeout →
      (b.ev y).timeout.usec &&& commonTimeoutMask = commonTimeoutMagic →
      commonTimeoutIdx (b.ev y).timeout < b.commonTimeoutQueues.length) :
    BaseInv (b.eventBaseInitCommonTimeout duration).2 := by
  rcases eventBaseInitCommonTimeout_cases b duration with heq | ⟨-, d, -, heq⟩
  · rw [heq]
    exact h
  rw [heq]
  have hidx : b.timeheap.clearIdx (.timeoutEvent b.commonTimeoutQueues.length) = b.timeheap := by
    obtain ⟨S, hheap, hS⟩ := h.timeouts.heap
    have habsent : b.timeheap.idx (.timeoutEvent b.commonTimeoutQueues.length) = -1 := by
      apply hheap.absent
      rw [hS]
      exact fun hon => Bool.false_ne_true ((hfresh _).symm.trans hon.1)
    rw [MinHeap.clearIdx, ← habsent, update_eq_self]
  rw [hidx]
  refine (h.assign hfresh).addCommon _ ?_
  intro y
  rw [ev_modifyEv]
  split
  · intro hon
    exact absurd hon Bool.false_ne_true
  · exact hplain y

end Functions

section Run

variable {ε β : Type*} [DecidableEq ε] (be : EventBackend β) {b : EventBase ε β}
  {nactivequeues : Nat} {r : EventRun ε β}

omit [DecidableEq ε] in
lemma start_inv (setup : ε → EventSetup) (hn : 0 < nactivequeues) (evsel : β)
    (junk : Nat → EventRef ε) : BaseInv (start setup nactivequeues evsel junk) := by
  have hflag : ∀ x k, ((start setup nactivequeues evsel junk).ev x).flags k = false := by
    intro x k
    cases x with
    | event e => rfl
    | timeoutEvent i => rfl
  have hoff : ∀ x k, ¬((start setup nactivequeues evsel junk).ev x).flags k := by
    intro x k
    rw [hflag]
    exact Bool.false_ne_true
  constructor
  · constructor
    · refine ⟨∅, ctor_inv _ _, ?_⟩
      intro x
      exact iff_of_false (Finset.notMem_empty x) fun hx => hoff x _ hx.1
    · exact filed_of_empty (fun i => rfl) fun x hx => hoff x _ hx.1
  · constructor
    · exact filed_of_empty (fun i => rfl) fun x hx => hoff x _ hx
    · exact filed_of_empty (fun i => rfl) fun x hx => hoff x _ hx
    · exact fun x hx => hoff x _ hx.1
    · simp [start]
  · intro _
    constructor
    · refine filed_of_empty (fun fd => ?_) fun x hx => hoff x _ hx.1
      simp [start, EvmapBase.ioListed, EvmapBase.ioEntry, EventSignalMap.slot, EventSignalMap.initmap, EvmapIo.init]
    · refine filed_of_empty (fun fd => ?_) fun x hx => hoff x _ hx.1
      simp [start, EvmapBase.sigListed, EventSignalMap.slot, EventSignalMap.initmap]
    · exact fun x hx => absurd hx (hoff x _)
  · refine ⟨∅, ?_, rfl⟩
    intro x k
    exact iff_of_false (Finset.notMem_empty _) fun hx => hoff x k hx.1
  · constructor
    · rintro (e | i)
      · exact Nat.div_lt_self hn (by decide)
      · exact hn
    · rintro (e | i)
      · exact (setup e).signal_nonneg
      · exact fun hs => absurd hs Bool.false_ne_true
    · rintro (e | i)
      · rfl
      · rfl
    · exact fun _ => rfl

lemma eventRun_start_inv (setup : ε → EventSetup) (hn : 0 < nactivequeues) (evsel : β)
    (junk : Nat → EventRef ε) (durations : List Timeval) :
    BaseInv (EventRun.start setup nactivequeues evsel junk durations).base := by
  have hstart := start_inv setup hn evsel junk
  have hflags : ∀ x k, ((start setup nactivequeues evsel junk).ev x).flags k = false := by
    rintro (e | i) k
    · rfl
    · rfl
  unfold EventRun.start
  generalize start setup nactivequeues evsel junk = b at hstart hflags
  induction durations generalizing b with
  | nil => exact hstart
  | cons d ds ih =>
    apply ih
    · apply eventBaseInitCommonTimeout_inv hstart d (fun k => hflags _ k)
      intro y hy
      rw [hflags] at hy
      exact absurd hy Bool.false_ne_true
    · intro x k
      dsimp only
      rcases eventBaseInitCommonTimeout_cases b d with heq | ⟨-, d', -, heq⟩
      · rw [heq]
        exact hflags x k
      · rw [heq, ev_modifyEv]
        split
        · rfl
        · exact hflags x k

def HeapGrows : EventCall ε → Prop
  | .add _ _ _ alloc => alloc.push ∧ alloc.schedule
  | .runActive _ _ alloc => alloc.push ∧ alloc.schedule
  | .runCommonTimeout _ grow => grow
  | _ => True

def KeepsCommon : EventCall ε → Prop
  | .initCommonTimeout _ => False
  | _ => True

lemma eventRun_step_inv (h : BaseInv r.base) (call : EventCall ε) (hgrows : HeapGrows call)
    (hkeeps : KeepsCommon call) : BaseInv (r.step be call).base := by
  cases call with
  | add e tv now alloc =>
    exact h.moves (eventAddNolock_moves (fun _ => trivial) (fun _ => trivial) (fun _ => trivial) hgrows.1
      hgrows.2 now false)
  | del e => exact h.moves (eventDelNolock_moves trivial)
  | active e res => exact h.moves (eventActiveNolock_moves trivial res)
  | activeLater e res => exact h.moves (eventActiveLaterNolock_moves trivial res)
  | removeTimer e => exact eventRemoveTimerNolock_inv h
  | prioritySet e pri => exact eventPrioritySet_inv h pri
  | initCommonTimeout duration => exact hkeeps.elim
  | timeoutProcess now => exact h.moves (timeoutProcessLoop_moves (fun _ => trivial) now _)
  | makeLaterEventsActive => exact eventQueueMakeLaterEventsActive_inv h
  | runActive i now alloc => exact eventProcessActiveTurn_inv be h hgrows.1 hgrows.2 now i
  | runCommonTimeout now grow =>
    cases hgrows
    simp only [EventRun.step]
    split
    · exact h
    · exact h.moves (commonTimeoutCallback_moves (fun _ => trivial) (fun _ => trivial) rfl now _)
  | callbackReturned => exact h.report _ _ _ _

lemma eventRun_reachable_inv {start : EventRun ε β} (hstart : BaseInv start.base)
    (h : EventRun.Reachable be (fun _ call => HeapGrows call ∧ KeepsCommon call) start r) :
    BaseInv r.base := by
  refine h.invariant (P := fun r => BaseInv r.base) hstart ?_
  rintro r call _ hinv ⟨-, hgrows, hkeeps⟩ ⟨⟩
  exact eventRun_step_inv be hinv call hgrows hkeeps

lemma HeapInv.count {timeout : ε → Timeval} {s : MinHeap ε} {S : Finset ε}
    (h : HeapInv timeout s S) (x : ε) : s.events.count x = if x ∈ S then 1 else 0 := by
  have hmem : x ∈ s.events ↔ x ∈ S := by
    rw [h.stored, MinHeap.events, mem_map]
    simp only [mem_range, Stored]
  have hnodup : s.events.Nodup := by
    apply List.Nodup.map_on _ nodup_range
    intro i hi j hj hij
    exact h.indexed.injective (mem_range.1 hi) (mem_range.1 hj) hij
  split_ifs with hx
  · exact count_eq_one_of_mem hnodup (hmem.2 hx)
  · exact count_eq_zero_of_not_mem fun hin => hx (hmem.1 hin)

/-- Every flag of an event is set exactly if the event is in the structure that the flag names, and then it is
there once; in the maps if the fds fit and its fd is not negative. The counters count the queued events and
the flags of events that are not internal. -/
structure FlagsPlaced (b : EventBase ε β) : Prop where
  io : FdsFit b → ∀ x, ((b.ev x).events.io.any → 0 ≤ (b.ev x).fd) → ∀ fd,
    (b.evmap.ioListed fd).count x = if (b.ev x).flags .inserted ∧
      (b.ev x).events.io.any ∧ (b.ev x).fd = fd then 1 else 0
  signal : FdsFit b → ∀ x (sig : Nat), (b.evmap.sigListed sig).count x =
    if (b.ev x).flags .inserted ∧ (b.ev x).events.io.any = false ∧ (b.ev x).fd = sig then 1 else 0
  heap : ∀ x, b.timeheap.events.count x = if (b.ev x).flags .timeout ∧
    b.isCommonTimeout (b.ev x).timeout = false then 1 else 0
  common : ∀ x i, (b.commonEvents i).count x = if ((b.ev x).flags .timeout ∧
    b.isCommonTimeout (b.ev x).timeout) ∧ commonTimeoutIdx (b.ev x).timeout = i then 1 else 0
  active : ∀ x i, (b.activequeues i).count x = if (b.ev x).flags .active ∧ (b.ev x).pri = i then 1 else 0
  later : ∀ x, b.activeLaterQueue.count x = if (b.ev x).flags .activeLater then 1 else 0
  exclusive : ∀ x, ¬((b.ev x).flags .active ∧ (b.ev x).flags .activeLater)
  eventCountActive : b.eventCountActive = (∑ i ∈ Finset.range b.nactivequeues,
    (b.activequeues i).length + b.activeLaterQueue.length : Nat)
  eventCount : ∃ F : Finset (EventRef ε × EvList), (∀ x k, (x, k) ∈ F ↔
    (b.ev x).flags k ∧ (b.ev x).internal = false) ∧ b.eventCount = F.card

lemma BaseInv.flagsPlaced (h : BaseInv b) : FlagsPlaced b where
  io hfit x hfd fd := by
    rw [(h.map hfit).io.count]
    congr 1
    apply propext
    constructor
    · rintro ⟨⟨hon, hio, -⟩, hkey⟩
      exact ⟨hon, hio, hkey⟩
    · rintro ⟨hon, hio, hkey⟩
      exact ⟨⟨hon, hio, hfd hio⟩, hkey⟩
  signal hfit x sig := by
    rw [(h.map hfit).sig.count]
    congr 1
    apply propext
    rw [and_assoc]
    apply and_congr_right
    intro hon
    apply and_congr_right
    intro hio
    have hnonneg := h.setup.signal_nonneg x ((h.map hfit).kind x hon hio)
    omega
  heap x := by
    obtain ⟨S, hheap, hS⟩ := h.timeouts.heap
    rw [hheap.count]
    congr 1
    exact propext (hS x)
  common x i := h.timeouts.common.count i x
  active x i := h.queues.active.count i x
  later x := by
    have hcount := h.queues.later.count () x
    simpa only [and_true] using hcount
  exclusive := h.queues.exclusive
  eventCountActive := h.queues.counted
  eventCount := h.counted

/-- After any calls, runs of `timeout_process`, moves of later events and runs of active callbacks, as long as
the timeout heap can grow, flags and counters say where the events are. -/
theorem event_flags_placed (setup : ε → EventSetup) {nactivequeues : Nat} (hn : 0 < nactivequeues)
    (evsel : β) (junk : Nat → EventRef ε) (durations : List Timeval) {r : EventRun ε β}
    (h : EventRun.Reachable be (fun _ call => HeapGrows call ∧ KeepsCommon call)
      (EventRun.start setup nactivequeues evsel junk durations) r) : FlagsPlaced r.base :=
  (eventRun_reachable_inv be (eventRun_start_inv setup hn evsel junk durations) h).flagsPlaced

end Run

def quietBackend : EventBackend Unit where
  evsel := ⟨fun _ _ _ _ => (0, ()), fun _ _ _ _ => (0, ())⟩
  evsigsel := ⟨fun _ _ _ _ => (0, ()), fun _ _ _ _ => (0, ())⟩
  debugMode := false

def twoTimers (durations : List Timeval) : EventRun Bool Unit :=
  EventRun.start (fun _ => .evtimerNew) 2 () (fun _ => .event false) durations

/-- One timer expires and the other is made active later. -/
theorem event_flags_placed_timers :
    let r := ((((twoTimers [⟨5, 0⟩]).step quietBackend (.add false (some ⟨1, 0⟩) ⟨10, 0⟩ {})).step
      quietBackend (.timeoutProcess ⟨12, 0⟩)).step quietBackend (.activeLater true 2))
    (r.base.activequeues 1).count (.event false) = 1 ∧
      r.base.activeLaterQueue.count (.event true) = 1 ∧ r.base.eventCountActive = 2 := by
  have hrun := event_flags_placed quietBackend (fun _ : Bool => .evtimerNew)
    (show 0 < 2 by decide) () (fun _ => .event false) [⟨5, 0⟩]
    (.step (.activeLater true 2) (.step (.timeoutProcess ⟨12, 0⟩) (.step
      (.add false (some ⟨1, 0⟩) ⟨10, 0⟩ {}) .start ⟨trivial, ⟨rfl, rfl⟩, trivial⟩ rfl)
      ⟨trivial, trivial, trivial⟩ rfl) ⟨trivial, trivial, trivial⟩ rfl)
  refine ⟨(hrun.active (.event false) 1).trans ?_, (hrun.later (.event true)).trans ?_, ?_⟩
  · decide +kernel
  · decide +kernel
  · decide +kernel

def noFd : EventRun Unit Unit :=
  EventRun.start (fun _ => ⟨-1, { io := fun k => k == .read }, false, ⟨0, 0⟩, nofun⟩) 1 () (fun _ => .event ()) []

/-- `evmap_io_add_` returns without an error for a negative fd and lists nothing. -/
theorem inserted_but_not_listed :
    let r := noFd.step quietBackend (.add () none ⟨0, 0⟩ {})
    EventRun.Reachable quietBackend (fun _ call => HeapGrows call ∧ KeepsCommon call) noFd r ∧
      (r.base.ev (.event ())).flags .inserted ∧ (∀ fd, r.base.evmap.ioListed fd = []) ∧
      ∀ sig, r.base.evmap.sigListed sig = [] := by
  refine ⟨.step (.add () none ⟨0, 0⟩ {}) .start ⟨trivial, ⟨rfl, rfl⟩, trivial⟩ rfl, by decide +kernel, ?_, ?_⟩
  · intro fd
    have hslot : ∀ i, (noFd.step quietBackend (.add () none ⟨0, 0⟩ {})).base.evmap.io.slot i = none := fun i => rfl
    simp [EvmapBase.ioListed, EvmapBase.ioEntry, hslot, EvmapIo.init]
  · intro sig
    rfl

end MyLibevent.Proofs
