import MyLibevent.Proofs.EventQueues

/-!
# The functions of the event base as chains of moves

Adding, deleting and activating events are chains of moves, each of which changes one event and one queue.
What the moves keep is kept by all these functions.
-/

namespace MyLibevent.Proofs

open EventBase FiledLists CommonTimeoutList Relation Function

section Touched

variable {ε β : Type*} {b b' b'' : EventBase ε β} {x : EventRef ε} {k : EvList} {v : Bool}

/-- No event but `x` has changed, nor what `x` waits for or the durations of the lists. -/
structure Changed (x : EventRef ε) (b b' : EventBase ε β) : Prop where
  ev : ∀ y, y ≠ x → b'.ev y = b.ev y
  closure : (b'.ev x).closure = (b.ev x).closure
  events : (b'.ev x).events = (b.ev x).events
  durations : b'.commonTimeoutQueues.map duration = b.commonTimeoutQueues.map duration
  current : b'.currentEvent = b.currentEvent

/-- Nor has `x` got another deadline, and nothing but `x` has left the lists. -/
structure Untimed (x : EventRef ε) (b b' : EventBase ε β) : Prop extends Changed x b b' where
  timeout : (b'.ev x).timeout = (b.ev x).timeout
  finalizing : (b'.ev x).finalizing = (b.ev x).finalizing
  flag : (b'.ev x).flags .timeout → (b.ev x).flags .timeout
  lists : ∀ i, (b'.commonEvents i).Sublist (b.commonEvents i)
  listed : ∀ i y, y ≠ x → y ∈ b.commonEvents i → y ∈ b'.commonEvents i

structure Touched (x : EventRef ε) (b b' : EventBase ε β) : Prop extends Untimed x b b' where
  ioTimeout : (b'.ev x).ioTimeout = (b.ev x).ioTimeout

lemma Changed.length (h : Changed x b b') : b'.commonTimeoutQueues.length = b.commonTimeoutQueues.length := by
  have hlen := congrArg List.length h.durations
  rwa [List.length_map, List.length_map] at hlen

lemma Changed.field {γ : Type*} (h : Changed x b b') (g : Event → γ) (hg : g (b'.ev x) = g (b.ev x))
    (y : EventRef ε) : g (b'.ev y) = g (b.ev y) := by
  by_cases hy : y = x
  · rw [hy, hg]
  · rw [h.ev y hy]

lemma Untimed.timeouts (h : Untimed x b b') : b'.timeouts = b.timeouts := by
  funext y
  exact h.field Event.timeout h.timeout y

lemma Untimed.timeout_flag (h : Untimed x b b') {y : EventRef ε}
    (hon : (b'.ev y).flags .timeout) : (b.ev y).flags .timeout := by
  by_cases hy : y = x
  · subst hy
    exact h.flag hon
  · rwa [h.ev y hy] at hon

lemma Touched.trans (h : Touched x b b') (h' : Touched x b' b'') : Touched x b b'' where
  ev y hy := (h'.ev y hy).trans (h.ev y hy)
  timeout := h'.timeout.trans h.timeout
  ioTimeout := h'.ioTimeout.trans h.ioTimeout
  closure := h'.closure.trans h.closure
  events := h'.events.trans h.events
  finalizing := h'.finalizing.trans h.finalizing
  flag hon := h.flag (h'.flag hon)
  lists i := (h'.lists i).trans (h.lists i)
  listed i y hy hi := h'.listed i y hy (h.listed i y hy hi)
  durations := h'.durations.trans h.durations
  current := h'.current.trans h.current

lemma touched_of_ev_eq (hev : b'.ev = b.ev) (hcommon : b'.commonTimeoutQueues = b.commonTimeoutQueues)
    (hcurrent : b'.currentEvent = b.currentEvent) : Touched x b b' where
  ev y _ := by rw [hev]
  timeout := by rw [hev]
  ioTimeout := by rw [hev]
  closure := by rw [hev]
  events := by rw [hev]
  finalizing := by rw [hev]
  flag hon := by rwa [hev] at hon
  lists i := by
    rw [EventBase.commonEvents, hcommon]
    exact List.Sublist.refl _
  listed i y _ hi := by
    rwa [EventBase.commonEvents, hcommon]
  durations := by rw [hcommon]
  current := hcurrent

lemma Touched.refl : Touched x b b := touched_of_ev_eq rfl rfl rfl

variable [DecidableEq ε]

lemma eventQueueRemoveTimeout_changes (hon : (b.ev x).flags .timeout) :
    ∃ heap queues, b.eventQueueRemoveTimeout x =
      { (b.decrEventCount x).setFlag x .timeout false with
        timeheap := heap
        commonTimeoutQueues := queues } := by
  rw [eventQueueRemoveTimeout_eq hon]
  split
  · exact ⟨_, _, rfl⟩
  · exact ⟨_, _, rfl⟩

lemma eventQueueInsertTimeout_changes (grow : Bool) (hoff : (b.ev x).flags .timeout = false) :
    ∃ heap queues abort, b.eventQueueInsertTimeout grow x =
      { (b.incrEventCount x).setFlag x .timeout true with
        timeheap := heap
        commonTimeoutQueues := queues
        abort := abort } := by
  rw [eventQueueInsertTimeout_eq grow hoff]
  split
  · exact ⟨_, _, _, rfl⟩
  · unfold minHeapPush
    split
    · exact ⟨_, _, _, rfl⟩
    · exact ⟨_, _, _, rfl⟩

lemma eventQueueRemoveActive_eq (hon : (b.ev x).flags .active) :
    b.eventQueueRemoveActive x = { (b.decrEventCount x).setFlag x .active false with
      eventCountActive := b.eventCountActive - 1
      activequeues := update b.activequeues (b.ev x).pri ((b.activequeues (b.ev x).pri).erase x) } := by
  have hpri : (((b.decrEventCount x).setFlag x .active false).ev x).pri = (b.ev x).pri :=
    field_modifyEv Event.pri fun _ => rfl
  simp only [eventQueueRemoveActive, hon, hpri]
  rfl

lemma eventQueueRemoveActiveLater_eq (hon : (b.ev x).flags .activeLater) :
    b.eventQueueRemoveActiveLater x = { (b.decrEventCount x).setFlag x .activeLater false with
      eventCountActive := b.eventCountActive - 1
      activeLaterQueue := b.activeLaterQueue.erase x } := by
  simp only [eventQueueRemoveActiveLater, hon]
  rfl

lemma eventQueueInsertActive_eq (hoff : (b.ev x).flags .active = false) :
    b.eventQueueInsertActive x =
      { ((b.incrEventCount x).setFlag x .active true).incrCountActive with
        activequeues := update b.activequeues (b.ev x).pri (b.activequeues (b.ev x).pri ++ [x])
        abort := b.abort || !decide ((b.ev x).pri < b.nactivequeues) } := by
  have hpri : (((b.incrEventCount x).setFlag x .active true).incrCountActive.ev x).pri =
      (b.ev x).pri := (sameSetup_of_setFlag (b := b) rfl).pri x
  simp only [eventQueueInsertActive, hoff, evutilAssert, hpri]
  rfl

lemma eventQueueInsertActiveLater_cases : b.eventQueueInsertActiveLater x = b ∨
    (b.ev x).flags .activeLater = false ∧ (b.ev x).flags .active = false ∧
      b.eventQueueInsertActiveLater x =
        { ((b.incrEventCount x).setFlag x .activeLater true).incrCountActive with
          activeLaterQueue := b.activeLaterQueue ++ [x]
          abort := b.abort || !decide ((b.ev x).pri < b.nactivequeues) } := by
  have hpri : (((b.incrEventCount x).setFlag x .activeLater true).incrCountActive.ev x).pri =
      (b.ev x).pri := (sameSetup_of_setFlag (b := b) rfl).pri x
  unfold eventQueueInsertActiveLater
  split_ifs with hon
  · exact .inl rfl
  · obtain ⟨hoff, hactive⟩ := Bool.or_eq_false_iff.1 (Bool.eq_false_iff.2 hon)
    simp only [evutilAssert, hpri]
    exact .inr ⟨hoff, hactive, rfl⟩

lemma makeLaterEventActive_eq : b.makeLaterEventActive x =
    { (b.setFlag x .activeLater false).setFlag x .active true with
      activeLaterQueue := b.activeLaterQueue.erase x
      activequeues := update b.activequeues (b.ev x).pri (b.activequeues (b.ev x).pri ++ [x])
      abort := b.abort || !decide ((b.ev x).pri < b.nactivequeues) } := by
  have hpri : (((b.setFlag x .activeLater false).setFlag x .active true).ev x).pri = (b.ev x).pri :=
    ((sameSetup_of_setFlag rfl).pri x).trans ((sameSetup_of_setFlag rfl).pri x)
  exact congrArg (fun p => ({ (b.setFlag x .activeLater false).setFlag x .active true with
      activeLaterQueue := b.activeLaterQueue.erase x
      activequeues := update b.activequeues p (b.activequeues p ++ [x])
      abort := b.abort || !decide (p < b.nactivequeues) } : EventBase ε β)) hpri

section Lists

variable (hlists : ∀ i, (b'.commonEvents i).Sublist (b.commonEvents i))
  (hlisted : ∀ i y, y ≠ x → y ∈ b.commonEvents i → y ∈ b'.commonEvents i)
  (hdurations : b'.commonTimeoutQueues.map duration = b.commonTimeoutQueues.map duration)
  (hcurrent : b'.currentEvent = b.currentEvent)
include hlists hlisted hdurations hcurrent

lemma untimed_of_modifyEv {f : Event → Event} (hev : b'.ev = (b.modifyEv x f).ev)
    (hf : ∀ ev, f ev = { ev with
      pri := (f ev).pri, flags := (f ev).flags, res := (f ev).res, ioTimeout := (f ev).ioTimeout })
    (hflag : ∀ ev, (f ev).flags .timeout → ev.flags .timeout) : Untimed x b b' := by
  have hx : b'.ev x = f (b.ev x) := by
    rw [hev, ev_modifyEv, if_pos rfl]
  refine ⟨⟨?_, ?_, ?_, hdurations, hcurrent⟩, ?_, ?_, ?_, hlists, hlisted⟩
  · intro y hy
    rw [hev, ev_modifyEv, if_neg hy]
  all_goals rw [hx]
  · rw [hf]
  · rw [hf]
  · rw [hf]
  · rw [hf]
  · exact hflag _

lemma touched_of_setFlag (hev : b'.ev = (b.setFlag x k v).ev) (hk : k = .timeout → v = false) : Touched x b b' := by
  refine ⟨untimed_of_modifyEv hlists hlisted hdurations hcurrent hev (fun _ => rfl) ?_,
    hev ▸ field_modifyEv Event.ioTimeout fun _ => rfl⟩
  intro ev hon
  by_cases hkt : k = .timeout
  · simp [hkt, hk hkt] at hon
  · simpa [Ne.symm hkt] using hon

end Lists

lemma untimed_modifyEv {pri res : Event → Nat} {tv : Event → Timeval} : Untimed x b
    (b.modifyEv x fun ev => { ev with pri := pri ev, res := res ev, ioTimeout := tv ev }) :=
  untimed_of_modifyEv (fun _ => List.Sublist.refl _) (fun _ _ _ => id) rfl rfl rfl (fun _ => rfl) fun _ => id

lemma touched_modifyEv {pri res : Event → Nat} :
    Touched x b (b.modifyEv x fun ev => { ev with pri := pri ev, res := res ev }) :=
  ⟨untimed_modifyEv, field_modifyEv Event.ioTimeout fun _ => rfl⟩

lemma touched_of_otherFlag (hev : b'.ev = (b.setFlag x k v).ev) (hk : k ≠ .timeout)
    (hcommon : b'.commonTimeoutQueues = b.commonTimeoutQueues)
    (hcurrent : b'.currentEvent = b.currentEvent) : Touched x b b' := by
  apply touched_of_setFlag _ _ (by rw [hcommon]) hcurrent hev (fun h => absurd h hk)
  · intro i
    rw [EventBase.commonEvents, hcommon]
    exact List.Sublist.refl _
  · intro i y _ hi
    rwa [EventBase.commonEvents, hcommon]

omit [DecidableEq ε] in
lemma durations_modifyCommon (i : Nat) (f : List (EventRef ε) → List (EventRef ε)) :
    (b.modifyCommon i f).commonTimeoutQueues.map duration = b.commonTimeoutQueues.map duration := by
  apply List.ext_getElem?
  intro j
  rw [List.getElem?_map, List.getElem?_map, modifyCommon, List.getElem?_modify]
  cases b.commonTimeoutQueues[j]? with
  | none => rfl
  | some ctl =>
    simp only [Option.map_some]
    split <;> rfl

lemma eventQueueRemoveTimeout_touched (hon : (b.ev x).flags .timeout) :
    Touched x b (b.eventQueueRemoveTimeout x) := by
  rw [eventQueueRemoveTimeout_eq hon]
  split_ifs with hx
  · have hlists := commonEvents_modifyCommon (b := (b.decrEventCount x).setFlag x .timeout false)
      (idx_lt_of_isCommonTimeout hx) fun events => events.erase x
    refine touched_of_setFlag (k := .timeout) (v := false) ?_ ?_ ?_ rfl rfl fun _ => rfl
    · intro i
      rw [hlists, update_apply]
      split_ifs with hi
      · rw [hi]
        exact List.erase_sublist
      · exact List.Sublist.refl _
    · intro i y hy hmem
      rw [hlists, update_apply]
      split_ifs with hi
      · rw [List.mem_erase_of_ne hy, ← hi]
        exact hmem
      · exact hmem
    · exact durations_modifyCommon (b := (b.decrEventCount x).setFlag x .timeout false) _ _
  · exact touched_of_setFlag (x := x) (k := .timeout) (v := false) (fun _ => List.Sublist.refl _)
      (fun _ _ _ => id) rfl rfl rfl fun _ => rfl

lemma eventQueueRemoveActive_touched (hon : (b.ev x).flags .active) : Touched x b (b.eventQueueRemoveActive x) := by
  rw [eventQueueRemoveActive_eq hon]
  exact touched_of_otherFlag (k := .active) (v := false) rfl (by decide) rfl rfl

lemma eventQueueRemoveActiveLater_touched (hon : (b.ev x).flags .activeLater) :
    Touched x b (b.eventQueueRemoveActiveLater x) := by
  rw [eventQueueRemoveActiveLater_eq hon]
  exact touched_of_otherFlag (k := .activeLater) (v := false) rfl (by decide) rfl rfl

lemma eventQueueInsertActive_touched : Touched x b (b.eventQueueInsertActive x) := by
  cases hoff : (b.ev x).flags .active with
  | true =>
    rw [eventQueueInsertActive, if_pos hoff]
    exact Touched.refl
  | false =>
    rw [eventQueueInsertActive_eq hoff]
    exact touched_of_otherFlag (k := .active) (v := true) rfl (by decide) rfl rfl

lemma eventQueueInsertActive_active : ((b.eventQueueInsertActive x).ev x).flags .active := by
  cases hoff : (b.ev x).flags .active with
  | true =>
    rw [eventQueueInsertActive, if_pos hoff]
    exact hoff
  | false =>
    rw [eventQueueInsertActive_eq hoff]
    exact (flags_setFlag (b := b.incrEventCount x) .active .active true).trans (if_pos ⟨rfl, rfl⟩)

lemma eventQueueInsertActiveLater_touched : Touched x b (b.eventQueueInsertActiveLater x) := by
  obtain heq | ⟨-, -, heq⟩ := eventQueueInsertActiveLater_cases (b := b) (x := x) <;> rw [heq]
  · exact Touched.refl
  · exact touched_of_otherFlag (k := .activeLater) (v := true) rfl (by decide) rfl rfl

lemma eventQueueInsertInserted_touched : Touched x b (b.eventQueueInsertInserted x) := by
  unfold eventQueueInsertInserted
  split
  · exact touched_of_ev_eq rfl rfl rfl
  · exact touched_of_otherFlag (k := .inserted) (v := true) rfl (by decide) rfl rfl

lemma eventQueueRemoveInserted_touched : Touched x b (b.eventQueueRemoveInserted x) := by
  unfold eventQueueRemoveInserted
  split
  · exact touched_of_ev_eq rfl rfl rfl
  · exact touched_of_otherFlag (k := .inserted) (v := false) rfl (by decide) rfl rfl

lemma makeLaterEventActive_touched : Touched x b (b.makeLaterEventActive x) := by
  have hlater : Touched x b (b.setFlag x .activeLater false) :=
    touched_of_otherFlag rfl (by decide) rfl rfl
  rw [makeLaterEventActive_eq]
  exact hlater.trans (touched_of_otherFlag (k := .active) (v := true) rfl (by decide) rfl rfl)

lemma eventPrioritySet_touched (pri : Nat) : Touched x b (b.eventPrioritySet x pri) := by
  unfold eventPrioritySet
  split
  · exact Touched.refl
  · exact touched_modifyEv

end Touched

section Moves

variable {ε β : Type*} [DecidableEq ε]

/-- The end of `event_del_nolock_` for an event that is in the maps. -/
def delInserted (be : EventBackend β) (b : EventBase ε β) (x : EventRef ε) : EventBase ε β :=
  let b := b.eventQueueRemoveInserted x
  { b with evmap :=
      (if (b.ev x).events.io.any then b.evmap.evmapIoDel be.evsel b.evEvents (b.ev x).fd x
        else b.evmap.evmapSignalDel be.evsigsel (b.ev x).fd.toNat x).2 }

/-- What a chain may do: the events it is about, those that it may give a timeout, and how an
allocation of the heap may end. -/
structure Moving (ε : Type*) where
  about : EventRef ε → Prop
  arms : EventRef ε → Prop
  grows : Bool → Prop

inductive Move (p : Moving ε) (b : EventBase ε β) : EventBase ε β → Prop
  | report (hx : p.about x) (abort goesOn : Bool) : Move p b { b with abort := abort, eventContinue := goesOn }
  | reserve (hx : p.about x) (n : Nat) : Move p b { b with timeheap := b.timeheap.reserve n }
  | setRes (hx : p.about x) (f : Nat → Nat) : Move p b (b.modifyEv x fun ev => { ev with res := f ev.res })
  | setIoTimeout (hx : p.arms x) (tv : Timeval) : Move p b (b.modifyEv x fun ev => { ev with ioTimeout := tv })
  | setTimeout (hx : p.arms x) (hoff : (b.ev x).flags .timeout = false) (t : Timeval) :
      Move p b (b.modifyEv x fun ev => { ev with timeout := t })
  | removeTimeout (hx : p.about x) (hon : (b.ev x).flags .timeout) : Move p b (b.eventQueueRemoveTimeout x)
  | insertTimeout {grow : Bool} (hx : p.arms x) (hgrow : p.grows grow)
      (hoff : (b.ev x).flags .timeout = false) (hfin : (b.ev x).finalizing = false) :
      Move p b (b.eventQueueInsertTimeout grow x)
  | removeActive (hx : p.about x) (hon : (b.ev x).flags .active) : Move p b (b.eventQueueRemoveActive x)
  | removeLater (hx : p.about x) (hon : (b.ev x).flags .activeLater) : Move p b (b.eventQueueRemoveActiveLater x)
  | insertActive (hx : p.about x) (hlater : (b.ev x).flags .activeLater = false) :
      Move p b (b.eventQueueInsertActive x)
  | insertLater (hx : p.about x) : Move p b (b.eventQueueInsertActiveLater x)
  | addInserted (hx : p.about x) (be : EventBackend β) (alloc : EvmapAlloc) :
      Move p b (b.eventAddInserted be alloc x).2
  | delInserted (hx : p.about x) (be : EventBackend β) (hon : (b.ev x).flags .inserted) :
      Move p b (delInserted be b x)

abbrev Moves (p : Moving ε) : EventBase ε β → EventBase ε β → Prop :=
  ReflTransGen (Move p)

variable {be : EventBackend β} {b b' : EventBase ε β} {x : EventRef ε}

/-- Moves of `x` that give it no timeout. -/
def Moving.only (x : EventRef ε) : Moving ε := ⟨fun y => y = x, fun _ => False, fun _ => True⟩

variable {p : Moving ε}

/-- What each move keeps holds at the end of a chain. -/
lemma Moves.keeps {P : EventBase ε β → Prop} (hm : Moves p b b') (h : P b)
    (hmove : ∀ b b', P b → Move p b b' → P b') : P b' := by
  induction hm with
  | refl => exact h
  | tail _ hm ih => exact hmove _ _ ih hm

lemma eventAddInserted_touched (alloc : EvmapAlloc) : Touched x b (b.eventAddInserted be alloc x).2 := by
  unfold eventAddInserted
  extract_lets ev r b1
  have h1 : Touched x b b1 := touched_of_ev_eq rfl rfl rfl
  split
  · split
    · exact h1.trans eventQueueInsertInserted_touched
    · exact h1
  · exact Touched.refl

/-- A move touches one event only, or is one of those that give it a timeout. -/
lemma Move.touches (hm : Move p b b') : (∃ x, p.about x ∧ Touched x b b') ∨ ∃ x, p.arms x ∧
    ((∃ tv, b' = b.modifyEv x fun ev => { ev with ioTimeout := tv }) ∨
      (∃ t, b' = b.modifyEv x fun ev => { ev with timeout := t }) ∨
      ∃ grow, (b.ev x).flags .timeout = false ∧ b' = b.eventQueueInsertTimeout grow x) := by
  cases hm with
  | report hx abort goesOn => exact .inl ⟨_, hx, touched_of_ev_eq rfl rfl rfl⟩
  | reserve hx n => exact .inl ⟨_, hx, touched_of_ev_eq rfl rfl rfl⟩
  | setRes hx f => exact .inl ⟨_, hx, touched_modifyEv⟩
  | setIoTimeout hx tv => exact .inr ⟨_, hx, .inl ⟨tv, rfl⟩⟩
  | setTimeout hx hoff t => exact .inr ⟨_, hx, .inr (.inl ⟨t, rfl⟩)⟩
  | removeTimeout hx hon => exact .inl ⟨_, hx, eventQueueRemoveTimeout_touched hon⟩
  | insertTimeout hx hgrow hoff hfin => exact .inr ⟨_, hx, .inr (.inr ⟨_, hoff, rfl⟩)⟩
  | removeActive hx hon => exact .inl ⟨_, hx, eventQueueRemoveActive_touched hon⟩
  | removeLater hx hon => exact .inl ⟨_, hx, eventQueueRemoveActiveLater_touched hon⟩
  | insertActive hx hlater => exact .inl ⟨_, hx, eventQueueInsertActive_touched⟩
  | insertLater hx => exact .inl ⟨_, hx, eventQueueInsertActiveLater_touched⟩
  | addInserted hx be alloc => exact .inl ⟨_, hx, eventAddInserted_touched alloc⟩
  | delInserted hx be hon =>
    exact .inl ⟨_, hx, eventQueueRemoveInserted_touched.trans (touched_of_ev_eq rfl rfl rfl)⟩

lemma Moves.touched (hm : Moves (.only x) b b') : Touched x b b' := by
  refine hm.keeps Touched.refl fun c c' h hmove => ?_
  rcases hmove.touches with ⟨y, rfl, htouched⟩ | ⟨y, hy, -⟩
  · exact h.trans htouched
  · exact hy.elim

section About

variable (hx : p.about x)
include hx

lemma removeTimeoutIf_moves : Moves p b (if (b.ev x).flags .timeout then b.eventQueueRemoveTimeout x else b) := by
  split_ifs with hon
  · exact .single (.removeTimeout hx hon)
  · exact .refl

lemma removeActiveIf_moves {q : Prop} [Decidable q] :
    Moves p b (if (b.ev x).flags .active ∧ q then b.eventQueueRemoveActive x else b) := by
  split_ifs with hon
  · exact .single (.removeActive hx hon.1)
  · exact .refl

lemma eventQueueRemoveActive_moves : Moves p b (b.eventQueueRemoveActive x) := by
  cases hon : (b.ev x).flags .active with
  | true => exact .single (.removeActive hx hon)
  | false =>
    rw [eventQueueRemoveActive, if_pos hon]
    exact .single (.report hx _ _)

lemma eventDelNolock_steps (hfin : (b.ev x).finalizing = false) :
    Moves p (if (b.ev x).flags .timeout then b.eventQueueRemoveTimeout x else b) (b.eventDelNolock be x).2 := by
  rw [eventDelNolock, if_neg (Bool.eq_false_iff.1 hfin)]
  extract_lets b1 b2 b3 r
  have h2 : Moves p b1 b2 := by
    unfold b2
    split_ifs with hactive hlater
    · exact .single (.removeActive hx hactive)
    · exact .single (.removeLater hx hlater)
    · exact .refl
  change Moves p b1 _
  split
  · rename_i hon
    exact h2.tail (.delInserted hx be hon)
  · exact h2

lemma eventDelNolock_moves : Moves p b (b.eventDelNolock be x).2 := by
  cases hfin : (b.ev x).finalizing with
  | true => rw [eventDelNolock, if_pos hfin]
  | false => exact (removeTimeoutIf_moves hx).trans (eventDelNolock_steps hx hfin)

lemma eventCallbackActivateNolock_moves : Moves p b (b.eventCallbackActivateNolock x) := by
  have hmove {c : EventBase ε β} (hlater : (c.ev x).flags .activeLater) :
      Moves p c ((c.eventQueueRemoveActiveLater x).eventQueueInsertActive x) := by
    refine ReflTransGen.tail (.single (.removeLater hx hlater)) (.insertActive hx ?_)
    rw [eventQueueRemoveActiveLater_eq hlater]
    simp [flags_setFlag]
  unfold eventCallbackActivateNolock
  split
  · exact .refl
  split
  · rename_i hlater
    exact .head (.report hx _ _) (hmove hlater)
  · rename_i hlater
    exact hmove hlater
  · exact .refl
  · rename_i hlater
    exact .single (.insertActive hx hlater)

lemma eventActiveNolock_moves (res : Nat) : Moves p b (b.eventActiveNolock x res) := by
  unfold eventActiveNolock
  split
  · exact .refl
  extract_lets orRes activate
  have hactivate (c : EventBase ε β) (hc : Moves p b c) : Moves p b (activate c) := by
    refine ReflTransGen.trans ?_ (eventCallbackActivateNolock_moves hx)
    split
    · exact hc.tail (.report hx _ _)
    · exact hc
  have hor : Moves p b orRes := .single (.setRes hx fun r => r ||| res)
  split
  · exact hactivate _ (.single (.report hx _ _))
  · exact hor
  · exact hactivate _ hor
  · exact hactivate _ (.single (.setRes hx fun _ => res))

lemma eventActiveLaterNolock_moves (res : Nat) : Moves p b (b.eventActiveLaterNolock x res) := by
  unfold eventActiveLaterNolock
  split
  · exact .single (.setRes hx fun r => r ||| res)
  · exact ReflTransGen.tail (.single (.setRes hx fun _ => res)) (.insertLater hx)

end About

lemma timeout_removeTimeoutIf :
    ((if (b.ev x).flags .timeout then b.eventQueueRemoveTimeout x else b).ev x).flags .timeout = false := by
  split_ifs with hon
  · obtain ⟨heap, queues, heq⟩ := eventQueueRemoveTimeout_changes hon
    rw [heq]
    simp [flags_setFlag]
  · exact Bool.eq_false_iff.2 hon

lemma timeout_removeActiveIf {q : Prop} [Decidable q] :
    ((if (b.ev x).flags .active ∧ q then b.eventQueueRemoveActive x else b).ev x).flags .timeout =
      (b.ev x).flags .timeout := by
  split_ifs with hon
  · rw [eventQueueRemoveActive_eq hon.1]
    simp [flags_setFlag, decrEventCount]
  · rfl

section Add

variable {schedule : EventBase ε β → Nat → EventRef ε → EventBase ε β} {grow : Bool}

lemma eventAddTimeout_moves (hschedule : ∀ b i, Moves p b (schedule b i x)) (hx : p.about x)
    (harms : p.arms x) (hgrow : p.grows grow) (hfin : (b.ev x).finalizing = false) (now tv : Timeval)
    (tvIsAbsolute : Bool) : Moves p b (b.eventAddTimeout schedule grow now x tv tvIsAbsolute) := by
  unfold eventAddTimeout
  extract_lets b1 b2 b3 b4 b5 i
  have h1 : Moves p b b1 ∧ (b1.ev x).finalizing = false := by
    unfold b1
    split
    · rw [ev_modifyEv, if_pos rfl]
      exact ⟨.single (.setIoTimeout harms tv), hfin⟩
    · exact ⟨.refl, hfin⟩
  have h3 : Moves p b b3 := (h1.1.trans (removeTimeoutIf_moves hx)).trans (removeActiveIf_moves hx)
  have htouched : Touched x b1 b3 :=
    Moves.touched ((removeTimeoutIf_moves rfl).trans (removeActiveIf_moves rfl))
  have hoff : (b3.ev x).flags .timeout = false := timeout_removeActiveIf.trans timeout_removeTimeoutIf
  have h5 : Moves p b b5 := by
    refine (h3.tail (.setTimeout harms hoff _)).tail (.insertTimeout harms hgrow ?_ ?_)
    · exact (congrFun (flags_setTimeout _) _).trans hoff
    · rw [ev_modifyEv, if_pos rfl]
      exact htouched.finalizing.trans h1.2
  split
  · split
    · exact h5.trans (hschedule _ _)
    · exact h5
  · exact h5

lemma eventAddBody_moves {alloc : EventAlloc} (hschedule : ∀ b i, Moves p b (schedule b i x))
    (hx : p.about x) {tv : Option Timeval} (harms : tv.isSome → p.arms x) (hgrow : p.grows alloc.push)
    (now : Timeval) (tvIsAbsolute : Bool) :
    Moves p b (b.eventAddBody be schedule alloc now x tv tvIsAbsolute).2 := by
  unfold eventAddBody
  split
  · exact .refl
  rename_i hfin
  split
  · exact .refl
  extract_lets b1 r
  have h1 : Moves p b b1 ∧ b1.ev = b.ev := by
    unfold b1
    split
    · exact ⟨.single (.reserve hx _), rfl⟩
    · exact ⟨.refl, rfl⟩
  have hr : Moves p b r.2 := h1.1.tail (.addInserted hx be alloc.evmap)
  have hfin' : (r.2.ev x).finalizing = false := by
    rw [(eventAddInserted_touched (b := b1) alloc.evmap).finalizing, h1.2]
    exact Bool.eq_false_iff.2 hfin
  cases tv with
  | none => exact hr
  | some tv =>
    dsimp only
    split
    · exact hr.trans (eventAddTimeout_moves hschedule hx (harms rfl) hgrow hfin' now tv tvIsAbsolute)
    · exact hr

lemma commonTimeoutSchedule_moves (hgrow : p.grows grow) {i : Nat} (hx : p.about (.timeoutEvent i))
    (harms : p.arms (.timeoutEvent i)) (now : Timeval) (head : EventRef ε) :
    Moves p b (b.commonTimeoutSchedule be grow now i head) :=
  eventAddBody_moves (fun _ _ => .refl) hx (fun _ => harms) hgrow now true

end Add

/-- A turn of the loops of `timeout_process` and `common_timeout_callback`: an event that is due
leaves its structure and becomes active. -/
def expire (be : EventBackend β) (b : EventBase ε β) (x : EventRef ε) : EventBase ε β :=
  (b.eventDelNolock be x).2.eventActiveNolock x evTimeout

lemma expire_moves (hx : p.about x) : Moves p b (expire be b x) :=
  (eventDelNolock_moves hx).trans (eventActiveNolock_moves hx _)

section All

variable {alloc : EventAlloc} (hall : ∀ y, p.about y)
include hall

lemma eventAddNolock_moves (hinternal : ∀ i, p.arms (.timeoutEvent i)) {tv : Option Timeval}
    (harms : tv.isSome → p.arms x) (hpush : p.grows alloc.push) (hschedule : p.grows alloc.schedule)
    (now : Timeval) (tvIsAbsolute : Bool) :
    Moves p b (b.eventAddNolock be alloc now x tv tvIsAbsolute).2 :=
  eventAddBody_moves (fun _ i => commonTimeoutSchedule_moves hschedule (hall _) (hinternal i) now x) (hall x) harms
    hpush now tvIsAbsolute

lemma timeoutProcessLoop_moves (now : Timeval) (k : Nat) : Moves p b (timeoutProcessLoop be now k b) := by
  induction k generalizing b with
  | zero => exact .refl
  | succ k ih =>
    unfold timeoutProcessLoop
    split
    · exact .refl
    · split
      · exact .refl
      · exact (expire_moves (hall _)).trans ih

lemma commonTimeoutLoop_moves (i : Nat) (now : Timeval) (k : Nat) : Moves p b (commonTimeoutLoop be i now k b) := by
  induction k generalizing b with
  | zero => exact .refl
  | succ k ih =>
    unfold commonTimeoutLoop
    split
    · exact .refl
    · split
      · exact .refl
      · exact (expire_moves (hall _)).trans ih

lemma commonTimeoutCallback_moves {grow : Bool} (hinternal : ∀ i, p.arms (.timeoutEvent i))
    (hgrow : p.grows grow) (now : Timeval) (i : Nat) :
    Moves p b (b.commonTimeoutCallback be grow now i) := by
  unfold commonTimeoutCallback
  extract_lets b1
  have h1 : Moves p b b1 := commonTimeoutLoop_moves hall i now _
  split
  · exact h1
  · exact h1.trans (commonTimeoutSchedule_moves hgrow (hall _) (hinternal i) now _)

lemma eventPersistClosure_moves (hinternal : ∀ i, p.arms (.timeoutEvent i))
    (harms : (b.ev x).ioTimeout ≠ ⟨0, 0⟩ → p.arms x) (hpush : p.grows alloc.push)
    (hschedule : p.grows alloc.schedule) (now : Timeval) :
    Moves p b (b.eventPersistClosure be alloc now x) := by
  unfold eventPersistClosure
  dsimp only
  split
  · rename_i hio
    refine .head (.report (hall x) _ _)
      (eventAddNolock_moves hall hinternal (fun _ => harms ?_) hpush hschedule now true)
    intro hzero
    rw [hzero] at hio
    simp at hio
  · exact .refl

end All
end Moves

end MyLibevent.Proofs
