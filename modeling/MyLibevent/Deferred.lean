import MyLibevent.EvbufferCallbacks
import MyLibevent.EventBase

/-!
# Deferred callbacks of bufferevents

A deferred callback is a `struct event_callback` that waits in the active queues of the base, as the
events of its bufferevent do; `evcb_pri` says in which one. The events become active at any time, as
the backend or a timeout makes them, and are not added with a timeout here.
-/

namespace MyLibevent

/-- The callbacks of a bufferevent that the base runs. -/
inductive BevCallback
  | evRead
  | evWrite
  | deferred
  deriving DecidableEq

namespace EventBase

section Callbacks

variable {ε β : Type*} [DecidableEq ε]
variable (b : EventBase ε β)

/-- `event_callback_cancel_nolock_` for a callback that is not an event. -/
def eventCallbackCancelNolock (x : EventRef ε) : EventBase ε β :=
  if (b.ev x).finalizing then b
  else
    match (b.ev x).flags .active, (b.ev x).flags .activeLater with
    | true, true => b.evutilAssert false
    | true, false => b.eventQueueRemoveActive x
    | false, true => b.eventQueueRemoveActiveLater x
    | false, false => b

def eventDeferredCbSetPriority (x : EventRef ε) (priority : Nat) : EventBase ε β :=
  b.modifyEv x fun ev => { ev with pri := priority }

/-- `event_priority_set` returns -1. -/
def priorityRefused (x : EventRef ε) (pri : Nat) : Bool :=
  (b.ev x).flags .active || decide (b.nactivequeues ≤ pri)

end Callbacks

variable {ι β : Type*} [DecidableEq ι]

def buffereventPrioritySet (b : EventBase (ι × BevCallback) β) (i : ι) (priority : Nat) :
    EventBase (ι × BevCallback) β :=
  if b.priorityRefused (.event (i, .evRead)) priority then b
  else
    let b := b.eventPrioritySet (.event (i, .evRead)) priority
    if b.priorityRefused (.event (i, .evWrite)) priority then b
    else
      (b.eventPrioritySet (.event (i, .evWrite)) priority).eventDeferredCbSetPriority
        (.event (i, .deferred)) priority

/-- A turn of the loop of `event_process_active_single_queue`. A deferred callback is not an event. -/
def runFirst (be : EventBackend β) (now : Timeval) (b : EventBase (ι × BevCallback) β) (queue : Nat) :
    EventBase (ι × BevCallback) β :=
  match (b.activequeues queue).head? with
  | some (.event (i, .deferred)) => b.eventQueueRemoveActive (.event (i, .deferred))
  | _ => b.eventProcessActiveTurn be {} now queue

end EventBase

/-- The base of the deferred callbacks, and its count of them. -/
structure DeferredRun (ι β : Type*) where
  base : EventBase (ι × BevCallback) β
  nDeferredsQueued : Nat

inductive DeferredCall (ι : Type*)
  | schedule (i : ι)
  | cancel (i : ι)
  | prioritySet (i : ι) (priority : Nat)
  | active (i : ι) (write : Bool) (res : Nat)
  | del (i : ι) (write : Bool)
  | runFirst (queue : Nat) (now : Timeval)
  | makeLaterEventsActive
  | loopTurn

namespace DeferredRun

variable {ι β : Type*} [DecidableEq ι] (be : EventBackend β)

def deferredRef (i : ι) : EventRef (ι × BevCallback) := .event (i, .deferred)

def eventRef (i : ι) (write : Bool) : EventRef (ι × BevCallback) := .event (i, if write then .evWrite else .evRead)

variable (r : DeferredRun ι β)

def eventDeferredCbSchedule (i : ι) : DeferredRun ι β :=
  if maxDeferredsQueued < r.nDeferredsQueued then
    { r with base := r.base.eventQueueInsertActiveLater (deferredRef i) }
  else
    let ev := r.base.ev (deferredRef i)
    -- the result is 1 if the callback was in no queue
    { base := r.base.eventCallbackActivateNolock (deferredRef i)
      nDeferredsQueued := r.nDeferredsQueued +
        if ev.finalizing || ev.flags .active || ev.flags .activeLater then 0 else 1 }

def isDeferred : EventRef (ι × BevCallback) → Bool
  | .event (_, .deferred) => true
  | _ => false

def step : DeferredCall ι → Option (DeferredRun ι β)
  | .schedule i => some (r.eventDeferredCbSchedule i)
  | .cancel i => some { r with base := r.base.eventCallbackCancelNolock (deferredRef i) }
  | .prioritySet i priority => some { r with base := r.base.buffereventPrioritySet i priority }
  | .active i write res => some { r with base := r.base.eventActiveNolock (eventRef i write) res }
  | .del i write => some { r with base := (r.base.eventDelNolock be (eventRef i write)).2 }
  | .runFirst queue now => some { r with base := r.base.runFirst be now queue }
  | .makeLaterEventsActive => some
    { base := r.base.eventQueueMakeLaterEventsActive
      nDeferredsQueued := r.nDeferredsQueued + r.base.activeLaterQueue.countP isDeferred }
  | .loopTurn => some { r with nDeferredsQueued := 0 }

def start (setup : ι × BevCallback → EventBase.EventSetup) (nactivequeues : Nat) (evsel : β)
    (junk : Nat → EventRef (ι × BevCallback)) : DeferredRun ι β where
  base := EventBase.start setup nactivequeues evsel junk
  nDeferredsQueued := 0

/-- A deferred callback is in the queue of its priority if it is active, and in no other one. -/
def Placed : Prop := ∀ i queue, (r.base.activequeues queue).count (deferredRef i) =
  if (r.base.ev (deferredRef i)).flags .active ∧ (r.base.ev (deferredRef i)).pri = queue then 1 else 0

end DeferredRun

end MyLibevent
