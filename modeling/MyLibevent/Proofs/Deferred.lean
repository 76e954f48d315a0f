import MyLibevent.Deferred
import MyLibevent.Lib.Runs
import MyLibevent.Proofs.EventBase

/-!
# Queues of deferred callbacks

The function that sets the priority of a deferred callback does not look whether the callback is in a queue.
-/

namespace MyLibevent.Proofs

open EventBase DeferredRun Runs

section Calls

variable {ι β ε : Type*} [DecidableEq ι] (be : EventBackend β) {b : EventBase (ι × BevCallback) β}

lemma eventCallbackCancelNolock_inv [DecidableEq ε] {b : EventBase ε β} (h : BaseInv b)
    (x : EventRef ε) : BaseInv (b.eventCallbackCancelNolock x) := by
  unfold eventCallbackCancelNolock
  split
  · exact h
  split
  · exact h.report _ _ _ _
  · rename_i hactive _
    exact h.removeActive hactive
  · rename_i _ hlater
    exact h.removeLater hlater
  · exact h

/-- The call is refused, or the deferred callback is not active or has this priority already. -/
def PriorityKept (b : EventBase (ι × BevCallback) β) : DeferredCall ι → Prop
  | .prioritySet i priority => b.priorityRefused (.event (i, .evRead)) priority ∨
    b.priorityRefused (.event (i, .evWrite)) priority ∨
    ((b.ev (deferredRef i)).flags .active → (b.ev (deferredRef i)).pri = priority)
  | _ => True

lemma ev_eventPrioritySet [DecidableEq ε] {b : EventBase ε β} {x y : EventRef ε} (hne : y ≠ x)
    (pri : Nat) : (b.eventPrioritySet x pri).ev y = b.ev y := by
  unfold eventPrioritySet
  split
  · rfl
  · rw [ev_modifyEv, if_neg hne]

lemma nactivequeues_eventPrioritySet [DecidableEq ε] {b : EventBase ε β} (x : EventRef ε)
    (pri : Nat) : (b.eventPrioritySet x pri).nactivequeues = b.nactivequeues := by
  unfold eventPrioritySet
  split <;> rfl

lemma buffereventPrioritySet_inv (h : BaseInv b) {i : ι} {priority : Nat}
    (hkept : PriorityKept b (.prioritySet i priority)) : BaseInv (b.buffereventPrioritySet i priority) := by
  unfold buffereventPrioritySet
  split
  · exact h
  rename_i hread
  extract_lets b1
  have h1 : BaseInv b1 := eventPrioritySet_inv h priority
  have hwrite : b1.ev (.event (i, .evWrite)) = b.ev (.event (i, .evWrite)) := ev_eventPrioritySet (by simp) _
  have hn : b1.nactivequeues = b.nactivequeues := nactivequeues_eventPrioritySet _ priority
  split
  · exact h1
  rename_i hfree
  have hev : (b1.eventPrioritySet (.event (i, .evWrite)) priority).ev (deferredRef i) = b.ev (deferredRef i) :=
    (ev_eventPrioritySet (by simp [deferredRef]) _).trans (ev_eventPrioritySet (by simp [deferredRef]) _)
  have h2 := eventPrioritySet_inv (x := .event (i, .evWrite)) h1 priority
  have hsame : (b.ev (deferredRef i)).flags .active → (b.ev (deferredRef i)).pri = priority := by
    rcases hkept with hrefused | hrefused | hsame
    · exact absurd hrefused hread
    · refine absurd ?_ hfree
      rwa [priorityRefused, hwrite, hn]
    · exact hsame
  refine h2.modifyEv rfl (fun _ => rfl) (fun hon => ?_) rfl (fun _ => rfl) (fun _ _ => rfl) ?_
    (h2.setup.signal_nonneg _) (h2.setup.finalizing _)
  · rw [← deferredRef, hev] at hon ⊢
    exact (hsame hon).symm
  · rw [priorityRefused, Bool.or_eq_true, not_or, decide_eq_true_iff, not_le] at hread
    rw [nactivequeues_eventPrioritySet, hn]
    exact hread.2

lemma runFirst_inv (h : BaseInv b) (now : Timeval) (queue : Nat) : BaseInv (b.runFirst be now queue) := by
  unfold runFirst
  split
  · rename_i i hi
    exact h.removeActive ((h.queues.active.mem queue _).1 (List.mem_of_head? hi)).1
  · exact eventProcessActiveTurn_inv be h rfl rfl now queue

lemma deferredStep_inv {r r' : DeferredRun ι β} (h : BaseInv r.base) {call : DeferredCall ι}
    (hkept : PriorityKept r.base call) (hstep : r.step be call = some r') : BaseInv r'.base := by
  cases call <;> cases hstep
  case schedule i =>
    unfold eventDeferredCbSchedule
    split
    · exact h.insertLater
    · exact h.moves (eventCallbackActivateNolock_moves trivial)
  case cancel i => exact eventCallbackCancelNolock_inv h _
  case prioritySet i priority => exact buffereventPrioritySet_inv h hkept
  case active i write res => exact h.moves (eventActiveNolock_moves trivial res)
  case del i write => exact h.moves (eventDelNolock_moves trivial)
  case runFirst queue now => exact runFirst_inv be h now queue
  case makeLaterEventsActive => exact eventQueueMakeLaterEventsActive_inv h
  case loopTurn => exact h

/-- As long as no call gives another priority to a deferred callback that is active, every one of them
is in the queue of its priority. -/
theorem reachedDeferred_placed (setup : ι × BevCallback → EventSetup) {nactivequeues : Nat}
    (hn : 0 < nactivequeues) (evsel : β) (junk : Nat → EventRef (ι × BevCallback)) {r : DeferredRun ι β}
    (hr : Reached (DeferredRun.step be) (fun r call => PriorityKept r.base call)
      (DeferredRun.start setup nactivequeues evsel junk) r) : r.Placed := by
  have hinv : BaseInv r.base := hr.invariant (P := fun r => BaseInv r.base) (start_inv setup hn evsel junk)
    fun _ _ _ h hkept hstep => deferredStep_inv be h hkept hstep
  exact fun i queue => hinv.queues.active.count queue (deferredRef i)

end Calls

def oneBufferevent : DeferredRun Unit Unit :=
  DeferredRun.start (fun _ => .evtimerNew) 2 () fun _ => .timeoutEvent 0

theorem reachedDeferred_placed_later :
    let r := { oneBufferevent.eventDeferredCbSchedule () with nDeferredsQueued := 0 }
    (r.base.activequeues 1).count (deferredRef ()) = 1 ∧ r.Placed := by
  refine ⟨by decide +kernel, ?_⟩
  exact reachedDeferred_placed quietBackend _ (by decide) () _
    (.step .loopTurn (.step (.schedule ()) .start trivial rfl) trivial rfl)

/-- A deferred callback is scheduled and its bufferevent gets another priority: it stays in the old queue. -/
theorem prioritySet_misplaces : ∃ r, Reached (DeferredRun.step quietBackend) (fun _ _ => True) oneBufferevent r ∧
    ¬r.Placed := by
  refine ⟨_, .step (.prioritySet () 0) (.step (.schedule ()) .start trivial rfl) trivial rfl, ?_⟩
  intro h
  have hcount := h () 1
  revert hcount
  decide +kernel

end MyLibevent.Proofs
