import MyLibevent.EventBase
import MyLibevent.Lib.FiledLists
import MyLibevent.Proofs.MinHeap
import MyLibevent.Proofs.Evmap

/-!
# The structures that events are queued in

The invariant of the flags is split by the structures that they name, since each queue function changes one of
them and keeps the others.
-/

namespace MyLibevent.Proofs

open EventBase FiledLists List Function

section Same

variable {ε β : Type*}

structure SameSetup (b b' : EventBase ε β) : Prop where
  fd : ∀ x, (b'.ev x).fd = (b.ev x).fd
  events : ∀ x, (b'.ev x).events = (b.ev x).events
  closure : ∀ x, (b'.ev x).closure = (b.ev x).closure
  internal : ∀ x, (b'.ev x).internal = (b.ev x).internal
  finalizing : ∀ x, (b'.ev x).finalizing = (b.ev x).finalizing
  pri : ∀ x, (b'.ev x).pri = (b.ev x).pri

end Same

section Fields

variable {ε β : Type*} [DecidableEq ε] {b b' : EventBase ε β} {x y : EventRef ε} {k k' : EvList}
  {v : Bool}

lemma ev_modifyEv (f : Event → Event) : (b.modifyEv x f).ev y = if y = x then f (b.ev x) else b.ev y :=
  update_apply b.ev x (f (b.ev x)) y

lemma field_modifyEv {γ : Type*} (g : Event → γ) {f : Event → Event}
    (hf : ∀ ev, g (f ev) = g ev) : g ((b.modifyEv x f).ev y) = g (b.ev y) := by
  rw [ev_modifyEv]
  split_ifs with hy
  · rw [hf, hy]
  · rfl

lemma flags_setTimeout (t : Timeval) :
    ((b.modifyEv x fun ev => { ev with timeout := t }).ev y).flags = (b.ev y).flags :=
  field_modifyEv Event.flags fun _ => rfl

lemma flags_setFlag (k k' : EvList) (v : Bool) :
    ((b.setFlag x k v).ev y).flags k' = if y = x ∧ k' = k then v else (b.ev y).flags k' := by
  rw [setFlag, ev_modifyEv]
  by_cases hy : y = x
  · subst hy
    by_cases hk : k' = k
    · subst hk
      simp
    · simp [hk]
  · simp [hy]

lemma flag_iff (hev : b'.ev = (b.setFlag x k v).ev) (y : EventRef ε) :
    (b'.ev y).flags k' ↔ if y = x ∧ k' = k then v = true else (b.ev y).flags k' := by
  rw [hev, flags_setFlag]
  split_ifs <;> rfl

lemma sameSetup_of_setFlag (hev : b'.ev = (b.setFlag x k v).ev) : SameSetup b b' := by
  constructor <;> intro y <;> rw [hev]
  · exact field_modifyEv Event.fd fun _ => rfl
  · exact field_modifyEv Event.events fun _ => rfl
  · exact field_modifyEv Event.closure fun _ => rfl
  · exact field_modifyEv Event.internal fun _ => rfl
  · exact field_modifyEv Event.finalizing fun _ => rfl
  · exact field_modifyEv Event.pri fun _ => rfl

lemma flags_of_ne (hk : k ≠ k') (hev : b'.ev = (b.setFlag x k v).ev) (y : EventRef ε) :
    (b'.ev y).flags k' = (b.ev y).flags k' := by
  rw [hev, flags_setFlag, if_neg fun h => hk h.2.symm]

lemma timeouts_of_setFlag (hev : b'.ev = (b.setFlag x k v).ev) : b'.timeouts = b.timeouts := by
  funext y
  rw [EventBase.timeouts, hev]
  exact field_modifyEv Event.timeout fun _ => rfl

lemma rel_modifyEv {f : Event → Event} {P : Event → Event → Prop} (hrefl : ∀ ev, P ev ev)
    (hx : P (b.ev x) (f (b.ev x))) (y : EventRef ε) : P (b.ev y) ((b.modifyEv x f).ev y) := by
  rw [ev_modifyEv]
  split_ifs with hy
  · rw [hy]
    exact hx
  · exact hrefl _

end Fields

section Count

variable {ε β : Type*} {b b' : EventBase ε β} {x : EventRef ε} {k : EvList} {f : Event → Event}

def EventCounted (b : EventBase ε β) : Prop :=
  ∃ F : Finset (EventRef ε × EvList), (∀ x k, (x, k) ∈ F ↔
    (b.ev x).flags k ∧ (b.ev x).internal = false) ∧ b.eventCount = F.card

variable [DecidableEq ε]

lemma EventCounted.modifyEv (h : EventCounted b) (hflags : (f (b.ev x)).flags = (b.ev x).flags)
    (hinternal : ∀ k, (b.ev x).flags k → (f (b.ev x)).internal = (b.ev x).internal) :
    EventCounted (b.modifyEv x f) := by
  obtain ⟨F, hF, hcount⟩ := h
  refine ⟨F, ?_, hcount⟩
  intro y k
  rw [hF]
  refine rel_modifyEv (P := fun ev ev' => ev.flags k ∧ ev.internal = false ↔
    ev'.flags k ∧ ev'.internal = false) (fun _ => Iff.rfl) ?_ y
  rw [hflags]
  apply and_congr_right
  intro hon
  rw [hinternal k hon]

lemma EventCounted.setFlag {v : Bool} (h : EventCounted b) (hx : (b.ev x).flags k = !v)
    (hev : b'.ev = (b.setFlag x k v).ev) (hcount : b'.eventCount =
      bif v then b.eventCount + (if (b.ev x).internal then 0 else 1)
      else b.eventCount - if (b.ev x).internal then 0 else 1) : EventCounted b' := by
  obtain ⟨F, hF, hcard⟩ := h
  have hflag : ∀ y k', ((b'.ev y).flags k' ∧ (b'.ev y).internal = false ↔
      if y = x ∧ k' = k then v = true ∧ (b.ev x).internal = false else (y, k') ∈ F) := by
    intro y k'
    rw [flag_iff hev, (sameSetup_of_setFlag hev).internal, hF]
    split_ifs with hy
    · rw [hy.1]
    · rfl
  have hmem := hF x k
  rw [hx] at hmem
  simp only [EventCounted, hflag, hcount, hcard]
  cases hi : (b.ev x).internal with
  | true =>
    refine ⟨F, fun y k' => ?_, by cases v <;> simp⟩
    split_ifs with hy
    · rw [hy.1, hy.2, hmem, hi]
      simp
    · rfl
  | false =>
    cases v with
    | true =>
      refine ⟨insert (x, k) F, fun y k' => ?_, by simp [hmem]⟩
      split_ifs with hy <;> simp [hy]
    | false =>
      have hpos := Finset.card_pos.2 ⟨_, hmem.2 ⟨rfl, hi⟩⟩
      refine ⟨F.erase (x, k), fun y k' => ?_, by simp [hmem, hi]; omega⟩
      split_ifs with hy <;> simp [hy]

end Count

section Timeouts

variable {ε β : Type*} {b b' : EventBase ε β} {x : EventRef ε} {timeout : EventRef ε → Timeval}
  {s : MinHeap (EventRef ε)} {S : Finset (EventRef ε)} {f : Event → Event} {k : EvList} {v : Bool}

/-- An event with `EVLIST_TIMEOUT` is in the heap or in its common timeout list. -/
structure TimeoutInv (b : EventBase ε β) : Prop where
  heap : ∃ S : Finset (EventRef ε), HeapInv b.timeouts b.timeheap S ∧ ∀ x, x ∈ S ↔
    (b.ev x).flags .timeout ∧ b.isCommonTimeout (b.ev x).timeout = false
  common : Filed b.commonEvents
    (fun x => (b.ev x).flags .timeout ∧ b.isCommonTimeout (b.ev x).timeout)
    (fun x => commonTimeoutIdx (b.ev x).timeout)

lemma isCommonTimeout_congr (h : b'.commonTimeoutQueues.length = b.commonTimeoutQueues.length)
    (tv : Timeval) : b'.isCommonTimeout tv = b.isCommonTimeout tv := by
  rw [EventBase.isCommonTimeout, EventBase.isCommonTimeout, h]

lemma idx_lt_of_isCommonTimeout {tv : Timeval} (h : b.isCommonTimeout tv) :
    commonTimeoutIdx tv < b.commonTimeoutQueues.length := by
  rw [EventBase.isCommonTimeout, Bool.and_eq_true] at h
  exact of_decide_eq_true h.2

lemma commonEvents_modifyCommon {i : Nat} (hi : i < b.commonTimeoutQueues.length)
    (f : List (EventRef ε) → List (EventRef ε)) :
    (b.modifyCommon i f).commonEvents = update b.commonEvents i (f (b.commonEvents i)) := by
  funext j
  by_cases hj : j = i
  · subst hj
    simp [EventBase.commonEvents, modifyCommon, hi]
  · simp [EventBase.commonEvents, modifyCommon, hj, Ne.symm hj]

lemma insertInorder_eq (timeout : EventRef ε → Timeval) (x : EventRef ε)
    (l : List (EventRef ε)) : (insertInorder timeout x l).2 =
      l.orderedInsert (fun x y => timeout y ≤ timeout x) x := by
  induction l with
  | nil => rfl
  | cons e es ih =>
    rw [insertInorder, orderedInsert_cons]
    simp only [← evutilTimercmpGe_iff]
    split
    · rfl
    · simp only [ih, evutilTimercmpGe_iff]

def inorder (b : EventBase ε β) (i : Nat) (x : EventRef ε) : List (EventRef ε) :=
  (insertInorder b.timeouts x (b.commonEvents i).reverse).2.reverse

lemma inorder_perm (b : EventBase ε β) (i : Nat) (x : EventRef ε) : (inorder b i x).Perm (x :: b.commonEvents i) :=
  (reverse_perm _).trans (by
    rw [insertInorder_eq]
    exact (perm_orderedInsert _ x _).trans ((reverse_perm _).cons x))

lemma HeapInv.reserve (h : HeapInv timeout s S) (n : Nat) : HeapInv timeout (s.reserve n) S := by
  obtain ⟨hp, hn, hidx, -, ha⟩ := reserve_spec s n
  refine ⟨?_, ?_, ?_, ?_, ?_⟩
  · rw [hp, hn]
    exact h.ordered
  · intro i hi
    rw [hn] at hi
    rw [hp, hidx]
    exact h.indexed i hi
  · intro x
    rw [h.stored, Stored, Stored, hp, hn]
  · intro x hx
    rw [hidx]
    exact h.absent x hx
  · rw [hn]
    exact h.room.trans ha

lemma HeapInv.card (h : HeapInv timeout s S) : s.n = S.card := by
  have hcard : (Finset.range s.n).card = S.card := by
    apply Finset.card_bij (fun i _ => s.p i)
    · intro i hi
      exact (h.stored _).2 ⟨i, Finset.mem_range.1 hi, rfl⟩
    · intro i hi j hj hij
      exact h.indexed.injective (Finset.mem_range.1 hi) (Finset.mem_range.1 hj) hij
    · intro x hx
      obtain ⟨i, hi, hix⟩ := (h.stored x).1 hx
      exact ⟨i, Finset.mem_range.2 hi, hix⟩
  rwa [Finset.card_range] at hcard

lemma TimeoutInv.reserve (h : TimeoutInv b) (n : Nat) : TimeoutInv { b with timeheap := b.timeheap.reserve n } := by
  obtain ⟨S, hheap, hS⟩ := h.heap
  exact ⟨⟨S, hheap.reserve n, hS⟩, h.common⟩

variable [DecidableEq ε]

lemma eventQueueRemoveTimeout_eq (hon : (b.ev x).flags .timeout) :
    b.eventQueueRemoveTimeout x =
      if b.isCommonTimeout (b.ev x).timeout then
        ((b.decrEventCount x).setFlag x .timeout false).modifyCommon
          (commonTimeoutIdx (b.ev x).timeout) fun events => events.erase x
      else { (b.decrEventCount x).setFlag x .timeout false with
        timeheap := (b.timeheap.erase b.timeouts x).1 } := by
  have htimeout : (((b.decrEventCount x).setFlag x .timeout false).ev x).timeout =
      (b.ev x).timeout := field_modifyEv Event.timeout fun _ => rfl
  have htimeouts : ((b.decrEventCount x).setFlag x .timeout false).timeouts = b.timeouts :=
    timeouts_of_setFlag rfl
  have hcommon : ((b.decrEventCount x).setFlag x .timeout false).isCommonTimeout
      (b.ev x).timeout = b.isCommonTimeout (b.ev x).timeout := isCommonTimeout_congr rfl _
  simp only [eventQueueRemoveTimeout, hon, htimeout, hcommon, htimeouts]
  rfl

lemma timeout_iff (hev : b'.ev = (b.setFlag x .timeout v).ev)
    (hlen : b'.commonTimeoutQueues.length = b.commonTimeoutQueues.length) (common : Bool)
    (y : EventRef ε) :
    ((b'.ev y).flags .timeout ∧ b'.isCommonTimeout (b'.timeouts y) = common) ↔
      if y = x ∧ b.isCommonTimeout (b.ev x).timeout = common then v = true
      else (b.ev y).flags .timeout ∧ b.isCommonTimeout (b.ev y).timeout = common := by
  rw [flag_iff hev, timeouts_of_setFlag hev, isCommonTimeout_congr hlen, EventBase.timeouts]
  grind

section

variable (h : TimeoutInv b)
include h

lemma TimeoutInv.modifyEv (hflag : (f (b.ev x)).flags .timeout = (b.ev x).flags .timeout)
    (htimeout : (b.ev x).flags .timeout → (f (b.ev x)).timeout = (b.ev x).timeout) :
    TimeoutInv (b.modifyEv x f) := by
  obtain ⟨S, hheap, hS⟩ := h.heap
  have hsame := rel_modifyEv (b := b) (P := fun ev ev' => ev.flags .timeout →
    ev'.timeout = ev.timeout) (fun _ _ => rfl) htimeout
  have hfiled (v : Bool) := rel_modifyEv (b := b) (x := x) (f := f) (P := fun ev ev' =>
    ev'.flags .timeout ∧ b.isCommonTimeout ev'.timeout = v ↔
      ev.flags .timeout ∧ b.isCommonTimeout ev.timeout = v) (fun _ => Iff.rfl) (by
    rw [hflag]
    apply and_congr_right
    intro hon
    rw [htimeout hon])
  constructor
  · refine ⟨S, hheap.congr_timeout fun y hy => hsame y ((hS y).1 hy).1, ?_⟩
    intro y
    exact (hS y).trans (hfiled false y).symm
  · refine h.common.congr (fun _ => rfl) (hfiled true) ?_
    intro y hy
    rw [hsame y hy.1]

lemma TimeoutInv.setFlag (hk : k ≠ .timeout) : TimeoutInv (b.setFlag x k v) :=
  h.modifyEv (update_of_ne hk.symm ..) fun _ => rfl

lemma TimeoutInv.refile (hx : (b.ev x).flags .timeout = !v)
    (hev : b'.ev = (b.setFlag x .timeout v).ev)
    (hlen : b'.commonTimeoutQueues.length = b.commonTimeoutQueues.length)
    (hheap : b'.timeheap = if b.isCommonTimeout (b.ev x).timeout then b.timeheap
      else bif v then b.timeheap.push b.timeouts x else (b.timeheap.erase b.timeouts x).1)
    (hlists : Refiled v x (b.isCommonTimeout (b.ev x).timeout)
      (commonTimeoutIdx (b.ev x).timeout) b.commonEvents b'.commonEvents) : TimeoutInv b' := by
  obtain ⟨S, hinv, hS⟩ := h.heap
  have htimeouts := timeouts_of_setFlag hev
  refine ⟨⟨if b.isCommonTimeout (b.ev x).timeout then S else bif v then insert x S else S.erase x,
    ?_, ?_⟩, h.common.refile (by simp +contextual [hx]) (timeout_iff hev hlen true)
      (fun y => congrArg commonTimeoutIdx (congrFun htimeouts y)) hlists⟩
  · rw [htimeouts, hheap]
    split
    · exact hinv
    · cases v
      · exact erase_inv hinv x
      · exact push_inv hinv (by simp [hS, hx])
  · intro y
    refine Iff.trans ?_ (timeout_iff hev hlen false y).symm
    rw [← hS]
    split_ifs with hcommon hy hy
    · exact absurd (hy.2.symm.trans hcommon) Bool.false_ne_true
    · rfl
    · cases v <;> simp [hy.1]
    · cases v <;> grind

lemma eventQueueRemoveTimeout_inv (hon : (b.ev x).flags .timeout) : TimeoutInv (b.eventQueueRemoveTimeout x) := by
  rw [eventQueueRemoveTimeout_eq hon]
  split_ifs with hx
  · refine h.refile (v := false) hon rfl (length_modify ..) (if_pos hx).symm ?_
    rw [commonEvents_modifyCommon (b := (b.decrEventCount x).setFlag x .timeout false)
      (idx_lt_of_isCommonTimeout hx)]
    exact refiled_update hx (perm_cons_erase (h.common.mem_key.2 ⟨hon, hx⟩))
  · exact h.refile (v := false) hon rfl rfl (if_neg hx).symm (refiled_of_not hx)

end

lemma eventQueueInsertTimeout_eq (grow : Bool) (hoff : (b.ev x).flags .timeout = false) :
    b.eventQueueInsertTimeout grow x =
      if b.isCommonTimeout (b.ev x).timeout then
        ((b.incrEventCount x).setFlag x .timeout true).insertCommonTimeoutInorder
          (commonTimeoutIdx (b.ev x).timeout) x
      else ((b.incrEventCount x).setFlag x .timeout true).minHeapPush grow x := by
  have htimeout : (((b.incrEventCount x).setFlag x .timeout true).ev x).timeout =
      (b.ev x).timeout := field_modifyEv Event.timeout fun _ => rfl
  have hcommon : ((b.incrEventCount x).setFlag x .timeout true).isCommonTimeout
      (b.ev x).timeout = b.isCommonTimeout (b.ev x).timeout := isCommonTimeout_congr rfl _
  simp only [eventQueueInsertTimeout, hoff, htimeout, hcommon]
  rfl

lemma commonEvents_eventQueueInsertTimeout (grow : Bool) (hoff : (b.ev x).flags .timeout = false) :
    (b.eventQueueInsertTimeout grow x).commonEvents =
      if b.isCommonTimeout (b.ev x).timeout then
        update b.commonEvents (commonTimeoutIdx (b.ev x).timeout) (inorder b (commonTimeoutIdx (b.ev x).timeout) x)
      else b.commonEvents := by
  have htimeouts : ((b.incrEventCount x).setFlag x .timeout true).timeouts = b.timeouts :=
    timeouts_of_setFlag rfl
  rw [eventQueueInsertTimeout_eq grow hoff]
  split_ifs with hx
  · rw [insertCommonTimeoutInorder, htimeouts]
    exact commonEvents_modifyCommon (b := ((b.incrEventCount x).setFlag x .timeout
      true).evutilAssert _) (idx_lt_of_isCommonTimeout hx) _
  · unfold minHeapPush
    split
    · rfl
    · rfl

lemma eventQueueInsertTimeout_inv (h : TimeoutInv b) (hoff : (b.ev x).flags .timeout = false) :
    TimeoutInv (b.eventQueueInsertTimeout true x) := by
  have hlists := commonEvents_eventQueueInsertTimeout true hoff
  have htimeouts : ((b.incrEventCount x).setFlag x .timeout true).timeouts = b.timeouts :=
    timeouts_of_setFlag rfl
  rw [eventQueueInsertTimeout_eq true hoff] at hlists ⊢
  split_ifs with hx
  · refine h.refile (v := true) hoff rfl (length_modify ..) (if_pos hx).symm ?_
    rw [if_pos hx] at hlists
    rw [hlists, if_pos hx]
    exact refiled_update (v := true) hx (inorder_perm _ _ _)
  · rw [minHeapPush, if_neg (fun h => Bool.false_ne_true h.2.symm), htimeouts]
    exact h.refile (v := true) hoff rfl rfl (if_neg hx).symm (refiled_of_not hx)

end Timeouts

section Queues

variable {ε β : Type*} {b b' : EventBase ε β} {x : EventRef ε} {f : Event → Event}

/-- Active events are in the queue of their priority, later ones in the other queue, and
`event_count_active` counts both. -/
structure QueueInv (b : EventBase ε β) : Prop where
  active : Filed b.activequeues (fun x => (b.ev x).flags .active) fun x => (b.ev x).pri
  later : Filed (fun _ : Unit => b.activeLaterQueue) (fun x => (b.ev x).flags .activeLater) fun _ => ()
  exclusive : ∀ x, ¬((b.ev x).flags .active ∧ (b.ev x).flags .activeLater)
  counted : b.eventCountActive = (∑ i ∈ Finset.range b.nactivequeues, (b.activequeues i).length +
    b.activeLaterQueue.length : Nat)

variable [DecidableEq ε]

lemma QueueInv.modifyEv (h : QueueInv b) (hactive : (f (b.ev x)).flags .active = (b.ev x).flags .active)
    (hlater : (f (b.ev x)).flags .activeLater = (b.ev x).flags .activeLater)
    (hpri : (b.ev x).flags .active → (f (b.ev x)).pri = (b.ev x).pri) :
    QueueInv (b.modifyEv x f) := by
  have hactive' := rel_modifyEv (b := b) (P := fun ev ev' => ev'.flags .active = ev.flags .active)
    (fun _ => rfl) hactive
  have hlater' := rel_modifyEv (b := b) (P := fun ev ev' =>
    ev'.flags .activeLater = ev.flags .activeLater) (fun _ => rfl) hlater
  refine ⟨h.active.congr (fun _ => rfl) (fun y => by rw [hactive']) (rel_modifyEv (P := fun ev ev' =>
    ev.flags .active → ev'.pri = ev.pri) (fun _ _ => rfl) hpri),
    h.later.congr (fun _ => rfl) (fun y => by rw [hlater']) fun _ _ => rfl, ?_, h.counted⟩
  intro y
  rw [hactive', hlater']
  exact h.exclusive y

lemma QueueInv.setFlag {k : EvList} {v : Bool} (h : QueueInv b) (hk : k ≠ .active)
    (hk' : k ≠ .activeLater) : QueueInv (b.setFlag x k v) :=
  h.modifyEv (update_of_ne hk.symm ..) (update_of_ne hk'.symm ..) fun _ => rfl

lemma QueueInv.moveActive {v : Bool} {l : List (EventRef ε)} (h : QueueInv b)
    (hx : (b.ev x).flags .active = !v) (hlater : v → (b.ev x).flags .activeLater = false)
    (hpri : (b.ev x).pri < b.nactivequeues) (hev : b'.ev = (b.setFlag x .active v).ev)
    (hqueues : b'.activequeues = update b.activequeues (b.ev x).pri l)
    (hl : Moved v x (b.activequeues (b.ev x).pri) l) (hn : b'.nactivequeues = b.nactivequeues)
    (hkept : b'.activeLaterQueue = b.activeLaterQueue)
    (hcount : b'.eventCountActive = b.eventCountActive + bif v then 1 else -1) : QueueInv b' where
  active := h.active.refile (by simp [hx]) (flag_iff hev) (sameSetup_of_setFlag hev).pri
    (hqueues ▸ refiled_update rfl hl)
  later := h.later.congr (fun _ => hkept) (fun y => by rw [flags_of_ne (by decide) hev]) fun _ _ => rfl
  exclusive y := by
    rw [flag_iff hev, flags_of_ne (by decide) hev]
    split_ifs with hy
    · rintro ⟨hv, hl⟩
      rw [hy.1, hlater hv] at hl
      exact Bool.false_ne_true hl
    · exact h.exclusive y
  counted := by
    have hsum := sum_length_update b.activequeues (Finset.mem_range.2 hpri) l
    have hlen := hl.length
    rw [hcount, hqueues, hn, hkept, h.counted]
    omega

lemma QueueInv.moveLater {v : Bool} (h : QueueInv b) (hx : (b.ev x).flags .activeLater = !v)
    (hactive : v → (b.ev x).flags .active = false)
    (hev : b'.ev = (b.setFlag x .activeLater v).ev)
    (hl : Moved v x b.activeLaterQueue b'.activeLaterQueue)
    (hn : b'.nactivequeues = b.nactivequeues) (hkept : b'.activequeues = b.activequeues)
    (hcount : b'.eventCountActive = b.eventCountActive + bif v then 1 else -1) : QueueInv b' where
  active := h.active.congr (fun i => by rw [hkept]) (fun y => by rw [flags_of_ne (by decide) hev])
    fun y _ => (sameSetup_of_setFlag hev).pri y
  later := h.later.refile (by simp [hx]) (flag_iff hev) (fun _ => rfl)
    ⟨fun _ hj => absurd ⟨rfl, rfl⟩ hj, fun _ => hl⟩
  exclusive y := by
    rw [flags_of_ne (by decide) hev, flag_iff hev]
    split_ifs with hy
    · rintro ⟨hl, hv⟩
      rw [hy.1, hactive hv] at hl
      exact Bool.false_ne_true hl
    · exact h.exclusive y
  counted := by
    have hlen := hl.length
    rw [hcount, hkept, hn, h.counted]
    omega

end Queues

section Map

variable {ε β : Type*} {b b' : EventBase ε β} {x : EventRef ε} {f : Event → Event}

/-- Every fd and every signal is one the maps can be extended to. -/
def FdsFit (b : EventBase ε β) : Prop := ∀ x, (b.ev x).fd < 2 ^ 28

lemma FdsFit.of_fd (h : FdsFit b') (hfd : ∀ x, (b'.ev x).fd = (b.ev x).fd) : FdsFit b :=
  fun x => hfd x ▸ h x

/-- An inserted event is in the list of its fd, unless that is negative, or of its signal. -/
structure MapInv (b : EventBase ε β) : Prop where
  io : Filed b.evmap.ioListed (fun x => (b.ev x).flags .inserted ∧
    (b.ev x).events.io.any ∧ 0 ≤ (b.ev x).fd) fun x => (b.ev x).fd
  sig : Filed b.evmap.sigListed (fun x => (b.ev x).flags .inserted ∧
    (b.ev x).events.io.any = false) fun x => (b.ev x).fd.toNat
  kind : ∀ x, (b.ev x).flags .inserted → (b.ev x).events.io.any = false → (b.ev x).events.signal

variable [DecidableEq ε]

lemma MapInv.modifyEv (h : MapInv b) (hflag : (f (b.ev x)).flags .inserted = (b.ev x).flags .inserted)
    (hfd : (b.ev x).flags .inserted → (f (b.ev x)).fd = (b.ev x).fd)
    (hevents : (b.ev x).flags .inserted → (f (b.ev x)).events = (b.ev x).events) :
    MapInv (b.modifyEv x f) := by
  have hsame := rel_modifyEv (b := b) (P := fun ev ev' => ev'.flags .inserted = ev.flags .inserted ∧
    (ev.flags .inserted → ev'.fd = ev.fd ∧ ev'.events = ev.events))
    (fun _ => ⟨rfl, fun _ => ⟨rfl, rfl⟩⟩) ⟨hflag, fun hon => ⟨hfd hon, hevents hon⟩⟩
  refine ⟨h.io.congr (fun _ => rfl) ?_ fun y hy => ((hsame y).2 hy.1).1,
    h.sig.congr (fun _ => rfl) ?_ fun y hy => congrArg Int.toNat ((hsame y).2 hy.1).1, ?_⟩
  all_goals intro y
  all_goals rw [(hsame y).1]
  · apply and_congr_right
    intro hon
    rw [((hsame y).2 hon).1, ((hsame y).2 hon).2]
  · apply and_congr_right
    intro hon
    rw [((hsame y).2 hon).2]
  · intro hon
    rw [((hsame y).2 hon).2]
    exact h.kind y hon

lemma MapInv.setFlag {k : EvList} {v : Bool} (h : MapInv b) (hk : k ≠ .inserted) : MapInv (b.setFlag x k v) :=
  h.modifyEv (update_of_ne hk.symm ..) (fun _ => rfl) fun _ => rfl

lemma MapInv.refile {v : Bool} (h : MapInv b) (hx : (b.ev x).flags .inserted = !v)
    (hkind : v → (b.ev x).events.io.any = false → (b.ev x).events.signal)
    (hev : b'.ev = (b.setFlag x .inserted v).ev)
    (hio : Refiled v x ((b.ev x).events.io.any ∧ 0 ≤ (b.ev x).fd) (b.ev x).fd b.evmap.ioListed b'.evmap.ioListed)
    (hsig : Refiled v x ((b.ev x).events.io.any = false) (b.ev x).fd.toNat
      b.evmap.sigListed b'.evmap.sigListed) : MapInv b' := by
  have hsetup := sameSetup_of_setFlag hev
  constructor
  · refine h.io.refile (by simp +contextual [hx]) (fun y => ?_) hsetup.fd hio
    rw [flag_iff hev, hsetup.events, hsetup.fd]
    grind
  · refine h.sig.refile (by simp +contextual [hx]) (fun y => ?_) (fun y => by rw [hsetup.fd]) hsig
    rw [flag_iff hev, hsetup.events]
    grind
  · intro y
    rw [flag_iff hev, hsetup.events]
    split_ifs with hy
    · rw [hy.1]
      exact hkind
    · exact h.kind y

end Map

end MyLibevent.Proofs
