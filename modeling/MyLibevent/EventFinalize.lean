import MyLibevent.EventBase

/-!
# Finalizing events

`event_finalize` takes an event out of all queues and makes it active once more, for its finalizer;
from then on the other calls ignore it. `ev_closure`, which is read when the callback is run, and the
finalizer itself are left out.
-/

namespace MyLibevent

def evFinalize : Nat := 0x40

namespace EventBase

variable {ε β : Type*} [DecidableEq ε] (be : EventBackend β)

def eventFinalizeNolock (b : EventBase ε β) (x : EventRef ε) : EventBase ε β :=
  ((b.eventDelNolock be x).2.eventActiveNolock x evFinalize).modifyEv x fun ev =>
    { ev with finalizing := true }

end EventBase

inductive TimerCall (ε : Type*)
  | add (e : ε) (tv : Option Timeval) (now : Timeval) (alloc : EventAlloc)
  | del (e : ε)
  | active (e : ε) (res : Nat)
  | finalize (e : ε)
  | timeoutProcess (now : Timeval)

namespace EventBase

variable {ε β : Type*} [DecidableEq ε] (be : EventBackend β)

/-- The event has `EVLIST_TIMEOUT` for the heap, but the result -1 of `min_heap_push_` was ignored.
Its `min_heap_idx` shares its memory with the links of the lists of common timeouts, and is what is
left of them. -/
def staleIdx (b : EventBase ε β) (x : EventRef ε) : Bool :=
  (b.ev x).flags .timeout && !b.isCommonTimeout (b.ev x).timeout && b.timeheap.idx x == -1

/-- A call, unless it takes an event out of the heap that is not in it. -/
def timerStep (b : EventBase ε β) : TimerCall ε → Option (EventBase ε β)
  | .add e tv now alloc =>
    if tv.isSome ∧ b.staleIdx (.event e) then none
    else some (b.eventAddNolock be alloc now (.event e) tv false).2
  | .del e => if b.staleIdx (.event e) then none else some (b.eventDelNolock be (.event e)).2
  | .active e res => some (b.eventActiveNolock (.event e) res)
  | .finalize e => if b.staleIdx (.event e) then none else some (b.eventFinalizeNolock be (.event e))
  | .timeoutProcess now => some (b.timeoutProcess be now)

end EventBase

/-- What `timeout_process` does to `b` at the time `now`: the events of the heap that are due, and no
others, leave it and are put at the end of the active queues of their priorities, each once and in the
order of their deadlines. -/
structure Expires {ε β : Type*} [DecidableEq ε] (now : Timeval) (b b' : EventBase ε β)
    (fired : List (EventRef ε)) : Prop where
  nodup : fired.Nodup
  mem (x : EventRef ε) : x ∈ fired ↔ x ∈ b.timeheap.events ∧ (b.ev x).timeout ≤ now
  sorted : fired.Pairwise fun x y => (b.ev x).timeout ≤ (b.ev y).timeout
  active (x : EventRef ε) : x ∈ fired →
    (b'.ev x).flags .active ∧ (b'.ev x).flags .timeout = false ∧ (b'.ev x).res = evTimeout
  queues (i : Nat) : b'.activequeues i =
    (b.activequeues i).filter (· ∉ fired) ++ fired.filter fun x => (b.ev x).pri = i
  others (x : EventRef ε) : x ∉ fired → b'.ev x = b.ev x
  pending (x : EventRef ε) : x ∈ b'.timeheap.events ↔ x ∈ b.timeheap.events ∧ now < (b.ev x).timeout

end MyLibevent
