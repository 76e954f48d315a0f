import MyLibevent.EventFinalize
import MyLibevent.Lib.Runs
import MyLibevent.Proofs.EventFrame

/-!
# `timeout_process` and events that are being finalized

`event_del` ignores an event that is being finalized, so that the loop of `timeout_process` would not end at
one. No such event is in the heap, since `event_finalize` has deleted it.
-/

namespace MyLibevent.Proofs

open EventBase FiledLists Runs List Function

section Invariant

variable {ε β : Type*} {b b' : EventBase ε β} {x : EventRef ε} {S : Finset (EventRef ε)} {v : Bool}

structure HeapWaits (b : EventBase ε β) (S : Finset (EventRef ε)) : Prop where
  heap : HeapInv b.timeouts b.timeheap S
  flag (x : EventRef ε) : x ∈ S → (b.ev x).flags .timeout
  plain (x : EventRef ε) : x ∈ S → b.isCommonTimeout (b.ev x).timeout = false
  kept (x : EventRef ε) : x ∈ S → (b.ev x).finalizing = false

/-- The invariant of the heap and the active queues that holds also if allocations fail. -/
structure PendingInv (b : EventBase ε β) : Prop where
  waits : ∃ S, HeapWaits b S
  queues : QueueInv b
  pri_lt (x : EventRef ε) : (b.ev x).pri < b.nactivequeues

lemma BaseInv.pending (h : BaseInv b) : PendingInv b := by
  obtain ⟨S, hheap, hS⟩ := h.timeouts.heap
  exact ⟨⟨S, hheap, fun x hx => ((hS x).1 hx).1, fun x hx => ((hS x).1 hx).2,
    fun x _ => h.setup.finalizing x⟩, h.queues, h.setup.pri_lt⟩

lemma HeapWaits.notMem (h : HeapWaits b S) (hoff : (b.ev x).flags .timeout = false) : x ∉ S := by
  intro hx
  rw [h.flag x hx] at hoff
  cases hoff

lemma HeapWaits.of_common (h : HeapWaits b S) {common : List (CommonTimeoutList ε)}
    (hlen : common.length = b.commonTimeoutQueues.length) :
    HeapWaits { b with commonTimeoutQueues := common } S :=
  { h with plain := fun y hy => (isCommonTimeout_congr hlen _).trans (h.plain y hy) }

lemma PendingInv.report (h : PendingInv b) (evmap : EvmapBase (EventRef ε) β) (goesOn abort : Bool) :
    PendingInv { b with evmap := evmap, eventContinue := goesOn, abort := abort } := by
  obtain ⟨S, hS⟩ := h.waits
  exact ⟨⟨S, { hS with }⟩, { h.queues with }, h.pri_lt⟩

variable [DecidableEq ε]

lemma HeapWaits.modifyEv {f : Event → Event} (h : HeapWaits b S)
    (hsame : x ∈ S → (f (b.ev x)).flags .timeout = (b.ev x).flags .timeout ∧
      (f (b.ev x)).timeout = (b.ev x).timeout ∧ (f (b.ev x)).finalizing = (b.ev x).finalizing) :
    HeapWaits (b.modifyEv x f) S := by
  have hkept (y : EventRef ε) (hy : y ∈ S) :
      ((b.modifyEv x f).ev y).flags .timeout = (b.ev y).flags .timeout ∧
        ((b.modifyEv x f).ev y).timeout = (b.ev y).timeout ∧
        ((b.modifyEv x f).ev y).finalizing = (b.ev y).finalizing := by
    rw [ev_modifyEv]
    split_ifs with heq
    · subst heq
      exact hsame hy
    · exact ⟨rfl, rfl, rfl⟩
  refine ⟨h.heap.congr_timeout fun y hy => (hkept y hy).2.1, ?_, ?_, ?_⟩ <;> intro y hy
  · exact (hkept y hy).1.trans (h.flag y hy)
  · exact (congrArg b.isCommonTimeout (hkept y hy).2.1).trans (h.plain y hy)
  · exact (hkept y hy).2.2.trans (h.kept y hy)

section

variable (h : PendingInv b)
include h

lemma PendingInv.modifyEv {f : Event → Event}
    (hflags : ∀ ev, (f ev).flags = ev.flags) (hpri : ∀ ev, (f ev).pri = ev.pri)
    (hwaits : (b.ev x).flags .timeout →
      (f (b.ev x)).timeout = (b.ev x).timeout ∧ (f (b.ev x)).finalizing = (b.ev x).finalizing) :
    PendingInv (b.modifyEv x f) := by
  obtain ⟨S, hS⟩ := h.waits
  have hflag := congrFun (hflags (b.ev x))
  refine ⟨⟨S, hS.modifyEv fun hx => ⟨hflag _, hwaits (hS.flag x hx)⟩⟩,
    h.queues.modifyEv (hflag _) (hflag _) fun _ => hpri _, ?_⟩
  intro y
  exact (field_modifyEv Event.pri hpri).trans_lt (h.pri_lt y)

section Flag

variable {heap : MinHeap (EventRef ε)} {common : List (CommonTimeoutList ε)}
  {evmap : EvmapBase (EventRef ε) β} {queues : Nat → List (EventRef ε)} {later : List (EventRef ε)}
  {n nmax nactive nactiveMax : Int} {abort : Bool}

lemma PendingInv.of_flag {k : EvList} (hk : k ≠ .timeout) (hb : b' = { b.setFlag x k v with
      evmap := evmap, activequeues := queues, activeLaterQueue := later, eventCount := n
      eventCountMax := nmax, eventCountActive := nactive, eventCountActiveMax := nactiveMax
      abort := abort }) (hqueues : QueueInv b') : PendingInv b' := by
  subst hb
  obtain ⟨S, hS⟩ := h.waits
  have hflag : HeapWaits (b.setFlag x k v) S :=
    hS.modifyEv fun _ => ⟨update_of_ne hk.symm .., rfl, rfl⟩
  refine ⟨⟨S, { hflag with }⟩, hqueues, ?_⟩
  intro y
  exact ((sameSetup_of_setFlag rfl).pri y).trans_lt (h.pri_lt y)

lemma PendingInv.setInserted (hb : b' = { b.setFlag x .inserted v with
      eventCount := n, eventCountMax := nmax }) : PendingInv b' :=
  h.of_flag (x := x) (k := .inserted) (v := v) nofun hb
    (hb ▸ { h.queues.setFlag (x := x) (k := .inserted) (v := v) nofun nofun with })

lemma PendingInv.of_timeout (hb : b' = { b.setFlag x .timeout v with
      timeheap := heap, commonTimeoutQueues := common, eventCount := n, eventCountMax := nmax
      abort := abort }) (hS : HeapWaits b' S) : PendingInv b' := by
  subst hb
  refine ⟨⟨S, hS⟩, { h.queues.setFlag (x := x) (k := .timeout) (v := v) nofun nofun with }, ?_⟩
  intro y
  exact ((sameSetup_of_setFlag rfl).pri y).trans_lt (h.pri_lt y)

end Flag

lemma PendingInv.removeActive (hon : (b.ev x).flags .active) : PendingInv (b.eventQueueRemoveActive x) := by
  rw [eventQueueRemoveActive_eq hon]
  exact h.of_flag (x := x) (k := .active) (v := false) nofun rfl
    (h.queues.moveActive (v := false) hon nofun (h.pri_lt x) rfl rfl
      (List.perm_cons_erase (h.queues.active.mem_key.2 hon)) rfl rfl rfl)

lemma PendingInv.removeLater (hon : (b.ev x).flags .activeLater) :
    PendingInv (b.eventQueueRemoveActiveLater x) := by
  rw [eventQueueRemoveActiveLater_eq hon]
  exact h.of_flag (x := x) (k := .activeLater) (v := false) nofun rfl
    (h.queues.moveLater (v := false) hon nofun rfl
      (List.perm_cons_erase (h.queues.later.mem_key.2 hon)) rfl rfl rfl)

lemma PendingInv.insertActive (hlater : (b.ev x).flags .activeLater = false) :
    PendingInv (b.eventQueueInsertActive x) := by
  cases hoff : (b.ev x).flags .active with
  | true =>
    rw [eventQueueInsertActive, if_pos hoff]
    exact h
  | false =>
    rw [eventQueueInsertActive_eq hoff]
    exact h.of_flag (x := x) (k := .active) (v := true) (by decide) rfl
      (h.queues.moveActive hoff (fun _ => hlater) (h.pri_lt x) rfl rfl (List.perm_append_singleton _ _) rfl rfl rfl)

lemma PendingInv.insertInserted : PendingInv (b.eventQueueInsertInserted x) := by
  unfold eventQueueInsertInserted
  split
  · exact h.report _ _ true
  · exact h.setInserted (x := x) (v := true) rfl

lemma PendingInv.removeInserted : PendingInv (b.eventQueueRemoveInserted x) := by
  unfold eventQueueRemoveInserted
  split
  · exact h.report _ _ true
  · exact h.setInserted (x := x) (v := false) rfl

lemma PendingInv.removeTimeout (hon : (b.ev x).flags .timeout) : PendingInv (b.eventQueueRemoveTimeout x) := by
  obtain ⟨S, hS⟩ := h.waits
  rw [eventQueueRemoveTimeout_eq hon]
  split_ifs with hx
  · have hnot : x ∉ S := by
      intro hmem
      rw [hS.plain x hmem] at hx
      cases hx
    have hflag : HeapWaits (b.setFlag x .timeout false) S := hS.modifyEv fun hmem => absurd hmem hnot
    exact h.of_timeout (x := x) (v := false) rfl { hflag.of_common (length_modify ..) with }
  · have herased : HeapWaits { b with timeheap := (b.timeheap.erase b.timeouts x).1 } (S.erase x) :=
      ⟨erase_inv hS.heap x, fun y hy => hS.flag y (Finset.mem_of_mem_erase hy),
        fun y hy => hS.plain y (Finset.mem_of_mem_erase hy),
        fun y hy => hS.kept y (Finset.mem_of_mem_erase hy)⟩
    have hflag : HeapWaits ({ b with timeheap := (b.timeheap.erase b.timeouts x).1 }.setFlag x .timeout
        false) (S.erase x) := herased.modifyEv fun hmem => absurd hmem (Finset.notMem_erase x S)
    exact h.of_timeout (x := x) (v := false) rfl { hflag with }

lemma PendingInv.insertTimeout (hoff : (b.ev x).flags .timeout = false)
    (hkept : (b.ev x).finalizing = false) (grow : Bool) :
    PendingInv (b.eventQueueInsertTimeout grow x) := by
  obtain ⟨S, hS⟩ := h.waits
  have hnot := hS.notMem hoff
  have hflag : HeapWaits (b.setFlag x .timeout true) S := hS.modifyEv fun hx => absurd hx hnot
  have hx : ((b.setFlag x .timeout true).ev x) =
      { b.ev x with flags := update (b.ev x).flags .timeout true } :=
    (ev_modifyEv _).trans (if_pos rfl)
  rw [eventQueueInsertTimeout_eq grow hoff]
  split_ifs with hplain
  · exact h.of_timeout (x := x) (v := true) rfl { hflag.of_common (length_modify ..) with }
  · unfold minHeapPush
    split
    · exact h.of_timeout (x := x) (v := true) rfl { hflag with }
    · refine h.of_timeout (x := x) (v := true) rfl (S := insert x S)
        ⟨push_inv hflag.heap hnot, ?_, ?_, ?_⟩ <;> intro y hy <;>
        rcases Finset.mem_insert.1 hy with rfl | hy
      · exact (flags_setFlag (b := b) .timeout .timeout true).trans (if_pos ⟨rfl, rfl⟩)
      · exact hflag.flag y hy
      · exact (congrArg (fun ev => b.isCommonTimeout ev.timeout) hx).trans (Bool.eq_false_iff.2 hplain)
      · exact hflag.plain y hy
      · exact (congrArg Event.finalizing hx).trans hkept
      · exact hflag.kept y hy

/-- Moves with any allocations failing. -/
def Moving.any : Moving ε := ⟨fun _ => True, fun _ => True, fun _ => True⟩

lemma PendingInv.insertLater : PendingInv (b.eventQueueInsertActiveLater x) := by
  obtain heq | ⟨hoff, hactive, heq⟩ := eventQueueInsertActiveLater_cases (b := b) (x := x) <;> rw [heq]
  · exact h
  · exact h.of_flag (x := x) (k := .activeLater) (v := true) nofun rfl
      (h.queues.moveLater hoff (fun _ => hactive) rfl (List.perm_append_singleton _ _) rfl rfl rfl)

lemma PendingInv.addInserted (be : EventBackend β) (alloc : EvmapAlloc) :
    PendingInv (b.eventAddInserted be alloc x).2 := by
  unfold eventAddInserted
  extract_lets ev r b1
  have h1 : PendingInv b1 := h.report _ _ _
  split
  · split
    · exact h1.insertInserted
    · exact h1
  · exact h

lemma PendingInv.move (hm : Move .any b b') : PendingInv b' := by
  cases hm with
  | report _ abort goesOn => exact h.report _ goesOn abort
  | reserve _ n =>
    obtain ⟨S, hS⟩ := h.waits
    exact ⟨⟨S, hS.heap.reserve _, hS.flag, hS.plain, hS.kept⟩, { h.queues with }, h.pri_lt⟩
  | setRes _ f => exact h.modifyEv (fun _ => rfl) (fun _ => rfl) fun _ => ⟨rfl, rfl⟩
  | setIoTimeout _ tv => exact h.modifyEv (fun _ => rfl) (fun _ => rfl) fun _ => ⟨rfl, rfl⟩
  | setTimeout _ hoff t =>
    exact h.modifyEv (fun _ => rfl) (fun _ => rfl) fun hon =>
      absurd (hoff.symm.trans hon) Bool.false_ne_true
  | removeTimeout _ hon => exact h.removeTimeout hon
  | insertTimeout _ _ hoff hfin => exact h.insertTimeout hoff hfin _
  | removeActive _ hon => exact h.removeActive hon
  | removeLater _ hon => exact h.removeLater hon
  | insertActive _ hlater => exact h.insertActive hlater
  | insertLater _ => exact h.insertLater
  | addInserted _ be alloc => exact h.addInserted be alloc
  | delInserted _ be hon => exact h.removeInserted.report _ _ _

omit h in
lemma PendingInv.moves (h : PendingInv b) (hm : Moves .any b b') : PendingInv b' :=
  hm.keeps h fun _ _ => PendingInv.move

end

section Functions

variable (be : EventBackend β)

lemma PendingInv.finalize (h : PendingInv b) : PendingInv (b.eventFinalizeNolock be x) := by
  unfold eventFinalizeNolock
  have hmoves : Moves .any b ((b.eventDelNolock be x).2.eventActiveNolock x evFinalize) :=
    (eventDelNolock_moves trivial).trans (eventActiveNolock_moves trivial evFinalize)
  refine (h.moves hmoves).modifyEv (fun _ => rfl) (fun _ => rfl) fun hon => ⟨rfl, ?_⟩
  have hon' := (eventActiveNolock_touched evFinalize).flag hon
  cases hfin : (b.ev x).finalizing with
  | false =>
    rw [eventDelNolock_timeout be hfin] at hon'
    cases hon'
  | true =>
    have hdel : (b.eventDelNolock be x).2 = b := by
      unfold eventDelNolock
      rw [if_pos hfin]
    rw [(eventActiveNolock_touched evFinalize).finalizing, hdel]
    exact hfin.symm

lemma timerStep_inv (h : PendingInv b) (call : TimerCall ε) (hs : b.timerStep be call = some b') :
    PendingInv b' := by
  cases call with
  | add e tv now alloc =>
    obtain rfl := Option.some.inj (Option.ite_none_left_eq_some.1 hs).2
    exact h.moves (eventAddNolock_moves (fun _ => trivial) (fun _ => trivial) (fun _ => trivial) trivial
      trivial now false)
  | del e =>
    obtain rfl := Option.some.inj (Option.ite_none_left_eq_some.1 hs).2
    exact h.moves (eventDelNolock_moves trivial)
  | active e res =>
    cases hs
    exact h.moves (eventActiveNolock_moves trivial res)
  | finalize e =>
    obtain rfl := Option.some.inj (Option.ite_none_left_eq_some.1 hs).2
    exact h.finalize be
  | timeoutProcess now =>
    cases hs
    exact h.moves (timeoutProcessLoop_moves (fun _ => trivial) now _)

end Functions

end Invariant

section Expiry

variable {ε β : Type*} [DecidableEq ε] (be : EventBackend β) {b b' : EventBase ε β} {x : EventRef ε}
  {now : Timeval} {S : Finset (EventRef ε)} {fired : List (EventRef ε)}

lemma flag_cleared {k k' : EvList} (hoff : (b.ev x).flags k' = false) :
    ((b.setFlag x k false).ev x).flags k' = false := by
  rw [flags_setFlag]
  split
  · rfl
  · exact hoff

structure Unqueued (x : EventRef ε) (b b' : EventBase ε β) : Prop where
  heap : b'.timeheap = b.timeheap
  active : (b'.ev x).flags .active = false
  later : (b'.ev x).flags .activeLater = false
  pri : (b'.ev x).pri = (b.ev x).pri
  queues : b'.activequeues = update b.activequeues (b.ev x).pri ((b.activequeues (b.ev x).pri).erase x)

lemma removeQueued_unqueued (h : QueueInv b) : Unqueued x b
    (if (b.ev x).flags .active then b.eventQueueRemoveActive x
      else if (b.ev x).flags .activeLater then b.eventQueueRemoveActiveLater x else b) := by
  cases hactive : (b.ev x).flags .active with
  | true =>
    have hlater : (b.ev x).flags .activeLater = false := by
      rw [Bool.eq_false_iff]
      exact fun hlater => h.exclusive x ⟨hactive, hlater⟩
    rw [if_pos rfl, eventQueueRemoveActive_eq hactive]
    refine ⟨rfl, ?_, ?_, ?_, rfl⟩
    · exact (flags_setFlag (b := b.decrEventCount x) .active .active false).trans (if_pos ⟨rfl, rfl⟩)
    · exact flag_cleared (b := b.decrEventCount x) hlater
    · exact (sameSetup_of_setFlag (b := b.decrEventCount x) rfl).pri x
  | false =>
    have hout : update b.activequeues (b.ev x).pri ((b.activequeues (b.ev x).pri).erase x) = b.activequeues := by
      rw [erase_of_not_mem, update_eq_self]
      rw [h.active.mem_key, hactive]
      exact Bool.false_ne_true
    rw [if_neg Bool.false_ne_true]
    cases hlater : (b.ev x).flags .activeLater with
    | true =>
      rw [if_pos rfl, eventQueueRemoveActiveLater_eq hlater]
      refine ⟨rfl, ?_, ?_, ?_, hout.symm⟩
      · exact flag_cleared (b := b.decrEventCount x) hactive
      · exact (flags_setFlag (b := b.decrEventCount x) .activeLater .activeLater false).trans (if_pos ⟨rfl, rfl⟩)
      · exact (sameSetup_of_setFlag (b := b.decrEventCount x) rfl).pri x
    | false =>
      rw [if_neg Bool.false_ne_true]
      exact ⟨rfl, hactive, hlater, rfl, hout.symm⟩

lemma Unqueued.removeInserted (h : Unqueued x b b') : Unqueued x b (b'.eventQueueRemoveInserted x) := by
  unfold eventQueueRemoveInserted
  split
  · exact ⟨h.heap, h.active, h.later, h.pri, h.queues⟩
  · refine ⟨h.heap, ?_, ?_, ?_, h.queues⟩
    · exact flag_cleared (b := b'.decrEventCount x) h.active
    · exact flag_cleared (b := b'.decrEventCount x) h.later
    · exact ((sameSetup_of_setFlag (b := b'.decrEventCount x) rfl).pri x).trans h.pri

lemma eventDelNolock_unqueued (h : PendingInv b) (hS : HeapWaits b S) (hx : x ∈ S) :
    Unqueued x { b with timeheap := (b.timeheap.erase b.timeouts x).1 } (b.eventDelNolock be x).2 := by
  unfold eventDelNolock
  rw [if_neg (Bool.eq_false_iff.1 (hS.kept x hx))]
  extract_lets b1 b2 b3 r
  have h1 : b1 = { (b.decrEventCount x).setFlag x .timeout false with
      timeheap := (b.timeheap.erase b.timeouts x).1 } := by
    unfold b1
    rw [if_pos (hS.flag x hx), eventQueueRemoveTimeout_eq (hS.flag x hx),
      if_neg (Bool.eq_false_iff.1 (hS.plain x hx))]
  have hpri : (b1.ev x).pri = (b.ev x).pri := by
    rw [h1]
    exact (sameSetup_of_setFlag (b := b.decrEventCount x) rfl).pri x
  have hinv : PendingInv b1 := h.moves (removeTimeoutIf_moves trivial)
  have h2 : Unqueued x { b with timeheap := (b.timeheap.erase b.timeouts x).1 } b2 := by
    have hstep : Unqueued x b1 b2 := removeQueued_unqueued hinv.queues
    refine ⟨?_, hstep.active, hstep.later, hstep.pri.trans hpri, ?_⟩
    · rw [hstep.heap, h1]
    · rw [hstep.queues, hpri, h1]
      rfl
  have h3 : Unqueued x { b with timeheap := (b.timeheap.erase b.timeouts x).1 } b3 := h2.removeInserted
  split
  · exact ⟨h3.heap, h3.active, h3.later, h3.pri, h3.queues⟩
  · exact h2

structure Fired (x : EventRef ε) (b b' : EventBase ε β) : Prop where
  ev (y : EventRef ε) : y ≠ x → b'.ev y = b.ev y
  timeout : (b'.ev x).timeout = (b.ev x).timeout
  heap : b'.timeheap = (b.timeheap.erase b.timeouts x).1
  flag : (b'.ev x).flags .timeout = false
  active : (b'.ev x).flags .active
  res : (b'.ev x).res = evTimeout
  queues : b'.activequeues = update b.activequeues (b.ev x).pri ((b.activequeues (b.ev x).pri).erase x ++ [x])

lemma eventActiveNolock_idle (hfin : (b.ev x).finalizing = false)
    (hactive : (b.ev x).flags .active = false) (hlater : (b.ev x).flags .activeLater = false)
    (res : Nat) : (b.eventActiveNolock x res).timeheap = b.timeheap ∧
      ((b.eventActiveNolock x res).ev x).res = res ∧
      (b.eventActiveNolock x res).activequeues =
        update b.activequeues (b.ev x).pri (b.activequeues (b.ev x).pri ++ [x]) := by
  generalize hc : (b.modifyEv x fun ev => { ev with res := res }) = c
  have hev : c.ev x = { b.ev x with res := res } := by
    rw [← hc, ev_modifyEv, if_pos rfl]
  generalize hd : (if ((c.ev x).pri : Int) < c.eventRunningPriority then
      { c with eventContinue := true } else c) = d
  have hsame : d.ev = c.ev ∧ d.timeheap = b.timeheap ∧ d.activequeues = b.activequeues := by
    rw [← hd, ← hc]
    split <;> exact ⟨rfl, rfl, rfl⟩
  have hdev : d.ev x = { b.ev x with res := res } := by
    rw [hsame.1, hev]
  have hidle : b.eventActiveNolock x res = d.eventQueueInsertActive x := by
    unfold eventActiveNolock
    rw [if_neg (Bool.eq_false_iff.1 hfin), hactive, hlater]
    dsimp only
    rw [hc, hd]
    unfold eventCallbackActivateNolock
    rw [hdev, if_neg (Bool.eq_false_iff.1 hfin)]
    rw [hactive, hlater]
  have hoff : (d.ev x).flags .active = false := by
    rw [hdev]
    exact hactive
  rw [hidle, eventQueueInsertActive_eq hoff]
  refine ⟨hsame.2.1, ?_, ?_⟩
  · have hres : (((d.incrEventCount x).setFlag x .active true).ev x).res = (d.ev x).res :=
      field_modifyEv (b := d.incrEventCount x) Event.res fun _ => rfl
    exact hres.trans (congrArg Event.res hdev)
  · dsimp only
    rw [hdev, hsame.2.2]

lemma expire_fired (h : PendingInv b) (hS : HeapWaits b S) (hx : x ∈ S) : Fired x b (expire be b x) := by
  have hfin := hS.kept x hx
  have hdel := eventDelNolock_unqueued be h hS hx
  have ht : Touched x b (b.eventDelNolock be x).2 := eventDelNolock_touched be
  have ht' : Touched x (b.eventDelNolock be x).2 (expire be b x) := eventActiveNolock_touched evTimeout
  have hfin' : ((b.eventDelNolock be x).2.ev x).finalizing = false := ht.finalizing.trans hfin
  obtain ⟨hheap, hres, hqueues⟩ := eventActiveNolock_idle hfin' hdel.active hdel.later evTimeout
  refine ⟨(ht.trans ht').ev, (ht.trans ht').timeout, hheap.trans hdel.heap, ?_,
    eventActiveNolock_active hfin' evTimeout, hres, ?_⟩
  · rw [Bool.eq_false_iff]
    intro hon
    have hoff := ht'.flag hon
    rw [eventDelNolock_timeout be hfin] at hoff
    cases hoff
  · refine hqueues.trans ?_
    rw [hdel.pri, hdel.queues, update_idem, update_self]

omit [DecidableEq ε] in
lemma mem_events {s : MinHeap (EventRef ε)} {timeout : EventRef ε → Timeval}
    (h : HeapInv timeout s S) (y : EventRef ε) : y ∈ s.events ↔ y ∈ S := by
  rw [h.stored, MinHeap.events, mem_map, Stored]
  simp only [mem_range]

lemma filter_fired (h : QueueInv b) (hfired : Fired x b b') (hx : x ∉ fired) (i : Nat) :
    (b'.activequeues i).filter (· ∉ fired) =
      (b.activequeues i).filter (· ∉ x :: fired) ++ [x].filter fun y => (b.ev y).pri = i := by
  have hsplit : ∀ y, y ≠ x → (decide (y ∉ x :: fired)) = decide (y ∉ fired) := by
    intro y hy
    rw [decide_eq_decide, mem_cons, or_iff_right hy]
  have hnodup := h.active.nodup (b.ev x).pri
  rw [hfired.queues]
  by_cases hi : i = (b.ev x).pri
  · have herase : ((b.activequeues (b.ev x).pri).erase x).filter (· ∉ fired) =
        (b.activequeues (b.ev x).pri).filter (· ∉ x :: fired) := by
      rw [hnodup.erase_eq_filter, filter_filter]
      apply filter_congr
      intro y _
      by_cases hy : y = x
      · simp [hy]
      · rw [hsplit y hy, bne_iff_ne.2 hy, Bool.and_true]
    rw [hi, update_self, filter_append, herase]
    simp [hx]
  · have hout : x ∉ b.activequeues i := by
      rw [h.active.mem]
      exact fun hmem => hi hmem.2.symm
    rw [update_of_ne hi, filter_singleton, decide_eq_false (Ne.symm hi)]
    rw [Bool.cond_false, append_nil]
    apply filter_congr
    intro y hy
    rw [hsplit]
    rintro rfl
    exact hout hy

lemma Expires.cons {b'' : EventBase ε β} (h : PendingInv b) (hS : HeapWaits b S) (hx : x ∈ S)
    (hleast : ∀ y ∈ S, (b.ev x).timeout ≤ (b.ev y).timeout) (hdue : (b.ev x).timeout ≤ now)
    (hfired : Fired x b b') (hrest : Expires now b' b'' fired) :
    Expires now b b'' (x :: fired) := by
  have htimeout (y : EventRef ε) : (b'.ev y).timeout = (b.ev y).timeout := by
    by_cases hy : y = x
    · rw [hy, hfired.timeout]
    · rw [hfired.ev y hy]
  have hmem (y : EventRef ε) : y ∈ b'.timeheap.events ↔ y ≠ x ∧ y ∈ b.timeheap.events := by
    rw [hfired.heap, mem_events (erase_inv hS.heap x), mem_events hS.heap, Finset.mem_erase]
  have hxS : x ∈ b.timeheap.events := (mem_events hS.heap x).2 hx
  have hnew : x ∉ fired := by
    rw [hrest.mem, hmem]
    exact fun hmem => hmem.1.1 rfl
  have hne {y : EventRef ε} (hy : y ∈ fired) : y ≠ x := ne_of_mem_of_not_mem hy hnew
  refine ⟨nodup_cons.2 ⟨hnew, hrest.nodup⟩, ?_, ?_, ?_, ?_, ?_, ?_⟩
  · intro y
    rw [mem_cons, hrest.mem, hmem, htimeout]
    by_cases hy : y = x
    · subst hy
      exact iff_of_true (.inl rfl) ⟨hxS, hdue⟩
    · rw [or_iff_right hy, and_iff_right hy]
  · refine pairwise_cons.2 ⟨?_, ?_⟩
    · intro y hy
      rw [hrest.mem, hmem, mem_events hS.heap] at hy
      exact hleast y hy.1.2
    · refine hrest.sorted.imp ?_
      intro y z hyz
      rwa [htimeout, htimeout] at hyz
  · intro y hy
    rcases mem_cons.1 hy with rfl | hy
    · rw [hrest.others y hnew]
      exact ⟨hfired.active, hfired.flag, hfired.res⟩
    · exact hrest.active y hy
  · intro i
    have hpri : fired.filter (fun y => (b'.ev y).pri = i) = fired.filter fun y => (b.ev y).pri = i := by
      apply filter_congr
      intro y hy
      rw [hfired.ev y (hne hy)]
    rw [hrest.queues, filter_fired h.queues hfired hnew, hpri, append_assoc, ← filter_append, singleton_append]
  · intro y hy
    rw [mem_cons, not_or] at hy
    rw [hrest.others y hy.2, hfired.ev y hy.1]
  · intro y
    rw [hrest.pending, hmem, htimeout, and_assoc, and_iff_right_iff_imp]
    rintro ⟨-, hlate⟩ rfl
    exact absurd hdue (not_le.2 hlate)

lemma expires_nil (hS : HeapWaits b S) (hlate : ∀ y ∈ S, now < (b.ev y).timeout) : Expires now b b [] where
  nodup := nodup_nil
  mem y := by
    rw [mem_events hS.heap]
    refine iff_of_false not_mem_nil ?_
    rintro ⟨hy, hdue⟩
    exact absurd hdue (not_le.2 (hlate y hy))
  sorted := List.Pairwise.nil
  active y hy := absurd hy not_mem_nil
  queues i := by simp
  others _ _ := rfl
  pending y := by
    rw [iff_self_and, mem_events hS.heap]
    exact hlate y

lemma timeoutProcessLoop_cases (now : Timeval) (h : PendingInv b) :
    ((∀ k, timeoutProcessLoop be now k b = b) ∧ Expires now b b []) ∨
      ∃ x S, HeapWaits b S ∧ x ∈ S ∧ (∀ y ∈ S, (b.ev x).timeout ≤ (b.ev y).timeout) ∧
        (b.ev x).timeout ≤ now ∧
        ∀ k, timeoutProcessLoop be now (k + 1) b = timeoutProcessLoop be now k (expire be b x) := by
  obtain ⟨S, hS⟩ := h.waits
  by_cases hn : b.timeheap.n = 0
  · have htop : b.timeheap.top = none := if_neg (not_not.2 hn)
    refine .inl ⟨?_, expires_nil hS ?_⟩
    · intro k
      cases k with
      | zero => rfl
      | succ k =>
        unfold timeoutProcessLoop
        rw [htop]
    · intro y hy
      rw [hS.heap.empty_iff.1 hn] at hy
      exact absurd hy (Finset.notMem_empty y)
  obtain ⟨hmem, hleast⟩ := hS.heap.top_least hn
  have htop : b.timeheap.top = some (b.timeheap.p 0) := if_pos hn
  by_cases hlate : evutilTimercmpGt (b.ev (b.timeheap.p 0)).timeout now
  · refine .inl ⟨?_, expires_nil hS ?_⟩
    · intro k
      cases k with
      | zero => rfl
      | succ k =>
        unfold timeoutProcessLoop
        rw [htop]
        exact if_pos hlate
    · intro y hy
      exact ((evutilTimercmpGt_iff _ _).1 hlate).trans_le (hleast y hy)
  · refine .inr ⟨_, S, hS, hmem, hleast, ?_, ?_⟩
    · rw [evutilTimercmpGt_iff] at hlate
      exact not_lt.1 hlate
    · intro k
      rw [timeoutProcessLoop, htop]
      exact if_neg hlate

lemma Fired.heap_n (h : Fired x b b') (hS : HeapWaits b S) (hx : x ∈ S) : b.timeheap.n = b'.timeheap.n + 1 := by
  rw [h.heap, (erase_inv hS.heap x).card, hS.heap.card, Finset.card_erase_add_one hx]

lemma timeoutProcessLoop_expires (now : Timeval) (k : Nat) (h : PendingInv b)
    (hk : b.timeheap.n ≤ k) : timeoutProcessLoop be now k b = b.timeoutProcess be now ∧
      ∃ fired, Expires now b (timeoutProcessLoop be now k b) fired := by
  induction k generalizing b with
  | zero =>
    rcases timeoutProcessLoop_cases be now h with ⟨hloop, hnil⟩ | ⟨x, S, hS, hx, -⟩
    · rw [hloop]
      exact ⟨(hloop _).symm, [], hnil⟩
    · have hn := (expire_fired be h hS hx).heap_n hS hx
      omega
  | succ k ih =>
    rcases timeoutProcessLoop_cases be now h with ⟨hloop, hnil⟩ | ⟨x, S, hS, hx, hleast, hdue, hloop⟩
    · rw [hloop]
      exact ⟨(hloop _).symm, [], hnil⟩
    · have hfired := expire_fired be h hS hx
      have hn := hfired.heap_n hS hx
      have hinv : PendingInv (expire be b x) := h.moves (expire_moves trivial)
      obtain ⟨hsame, fired, hrest⟩ := ih hinv (by omega)
      refine ⟨?_, x :: fired, ?_⟩
      · rw [hloop, hsame, timeoutProcess, timeoutProcess, hn, hloop]
      · rw [hloop]
        exact Expires.cons h hS hx hleast hdue hfired hrest

end Expiry

section Runs

variable {ε β : Type*} [DecidableEq ε] (be : EventBackend β)

/-- From a base with any events and common timeouts, after any calls and with any allocations
failing, `timeout_process` ends and fires exactly the events of the heap that are due. -/
theorem reachedTimers_expires (setup : ε → EventSetup) {nactivequeues : Nat} (hn : 0 < nactivequeues)
    (evsel : β) (junk : Nat → EventRef ε) (durations : List Timeval) {b : EventBase ε β}
    (hb : Reached (timerStep be) (fun _ _ => True)
      (EventRun.start setup nactivequeues evsel junk durations).base b) (now : Timeval) :
    (∃ fired, Expires now b (b.timeoutProcess be now) fired) ∧
      ∀ k, b.timeheap.n ≤ k → timeoutProcessLoop be now k b = b.timeoutProcess be now := by
  have hinv : PendingInv b := hb.invariant (P := PendingInv)
    (eventRun_start_inv setup hn evsel junk durations).pending
    fun _ call _ h _ hs => timerStep_inv be h call hs
  constructor
  · exact (timeoutProcessLoop_expires be now _ hinv le_rfl).2
  · intro k hk
    exact (timeoutProcessLoop_expires be now k hinv hk).1

lemma timeoutProcess_loop {now now' : Timeval} (hle : now ≤ now') (k : Nat) {b : EventBase ε β}
    (h : PendingInv b) :
    (timeoutProcessLoop be now k b).timeoutProcess be now' = b.timeoutProcess be now' := by
  fun_induction timeoutProcessLoop be now k b with
  | case1 | case2 | case3 => rfl
  | case4 k b x htop hdue ih =>
    have hinv : PendingInv (expire be b x) := h.moves (expire_moves trivial)
    rw [evutilTimercmpGt_iff, not_lt] at hdue
    -- any number of turns will do that is enough for both bases
    obtain ⟨m, hm, hm'⟩ := exists_ge_ge b.timeheap.n (expire be b x).timeheap.n
    refine (ih hinv).trans ((timeoutProcessLoop_expires be now' m hinv hm').1.symm.trans ?_)
    rw [← (timeoutProcessLoop_expires be now' (m + 1) h (by omega)).1, timeoutProcessLoop.eq_2, htop]
    exact (if_neg (mt (evutilTimercmpGt_iff _ _).1 (not_lt.2 (hdue.trans hle)))).symm

/-- Once `timeout_process` runs at a later time, it does not matter that it has run before. -/
theorem reachedTimers_late (setup : ε → EventSetup) {nactivequeues : Nat} (hn : 0 < nactivequeues)
    (evsel : β) (junk : Nat → EventRef ε) (durations : List Timeval) {b : EventBase ε β}
    (hb : Reached (timerStep be) (fun _ _ => True)
      (EventRun.start setup nactivequeues evsel junk durations).base b) {now now' : Timeval} (hle : now ≤ now') :
    (b.timeoutProcess be now).timeoutProcess be now' = b.timeoutProcess be now' := by
  have hinv : PendingInv b := hb.invariant (P := PendingInv)
    (eventRun_start_inv setup hn evsel junk durations).pending
    fun _ call _ h _ hs => timerStep_inv be h call hs
  exact timeoutProcess_loop be hle _ hinv

end Runs

def threeTimers : Given (timerStep quietBackend) (fun _ _ => True)
    (EventRun.start (fun _ : Fin 3 => .evtimerNew) 2 () (fun _ => .event 0) [⟨5, 0⟩]).base
    fun b => b.timeheap.events == [.event 2, .event 0] && (b.ev (.event 1)).finalizing &&
      decide ((b.ev (.event 2)).timeout = ⟨11, 0⟩) where
  events := [.add 0 (some ⟨5, 0⟩) ⟨10, 0⟩ {}, .add 1 (some ⟨1, 0⟩) ⟨10, 0⟩ {},
    .add 2 (some ⟨1, 0⟩) ⟨10, 0⟩ {}, .finalize 1]
  leads := by decide +kernel

theorem reachedTimers_expires_finalized :
    ∃ (b : EventBase (Fin 3) Unit) (fired : List (EventRef (Fin 3))),
      (b.ev (.event 1)).finalizing ∧
        Expires ⟨12, 0⟩ b (b.timeoutProcess quietBackend ⟨12, 0⟩) fired ∧ .event 2 ∈ fired := by
  obtain ⟨b, hb, hp⟩ := threeTimers.reached
  simp only [Bool.and_eq_true, beq_iff_eq, decide_eq_true_eq] at hp
  obtain ⟨⟨hevents, hfin⟩, htimeout⟩ := hp
  obtain ⟨⟨fired, hexpires⟩, -⟩ := reachedTimers_expires quietBackend _ (by decide) () _ _ hb ⟨12, 0⟩
  refine ⟨b, fired, hfin, hexpires, ?_⟩
  rw [hexpires.mem, hevents, htimeout]
  decide

theorem reachedTimers_late_finalized : ∃ b : EventBase (Fin 3) Unit, (b.ev (.event 1)).finalizing ∧
    (b.timeoutProcess quietBackend ⟨12, 0⟩).timeoutProcess quietBackend ⟨16, 0⟩ =
      b.timeoutProcess quietBackend ⟨16, 0⟩ := by
  obtain ⟨b, hb, hp⟩ := threeTimers.reached
  simp only [Bool.and_eq_true] at hp
  exact ⟨b, hp.1.2, reachedTimers_late quietBackend _ (by decide) () _ _ hb (by decide)⟩

end MyLibevent.Proofs
