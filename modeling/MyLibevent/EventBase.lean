import MyLibevent.Evmap
import MyLibevent.MinHeap

/-!
# The event base

`event.c`: adding, deleting and activating events, timeouts in the heap and in the lists of common
timeouts, and the turns of the loop that runs callbacks. Every function runs under the lock of the
base. The base is used by one thread, so that nothing waits for a running callback and no other
thread is notified; `ev_ncalls` and `ev_pncalls`, which only count how often a signal callback is
repeated, and the debugging checks are absent. `min_heap_idx` and the links of a common timeout
list share memory in the source; only the one written last is ever read.
-/

namespace MyLibevent

open Function

def evTimeout : Nat := 0x01

def commonTimeoutIdxMask : Nat := 0x0ff00000

def commonTimeoutIdxShift : Nat := 20

def commonTimeoutMask : Nat := 0xf0000000

def commonTimeoutMagic : Nat := 0x50000000

def maxCommonTimeouts : Nat := 256

def commonTimeoutIdx (tv : Timeval) : Nat :=
  (tv.usec &&& commonTimeoutIdxMask) >>> commonTimeoutIdxShift

def magicBits (usec : Nat) : Nat := usec - (usec &&& microsecondsMask)

def isSameCommonTimeout (tv₁ tv₂ : Timeval) : Bool := magicBits tv₁.usec == magicBits tv₂.usec

/-- The flags of an event that say where it is: `EVLIST_TIMEOUT`, `EVLIST_INSERTED`,
`EVLIST_ACTIVE` and `EVLIST_ACTIVE_LATER`. -/
inductive EvList
  | timeout
  | inserted
  | active
  | activeLater
  deriving DecidableEq

/-- `ev_closure`. -/
inductive EvClosure
  | event
  | signal
  | persist
  deriving DecidableEq

/-- `struct event`, with a flag for each `EVLIST_*` queue. -/
structure Event where
  fd : Int
  events : EvEvents
  closure : EvClosure
  pri : Nat
  flags : EvList → Bool
  internal : Bool
  finalizing : Bool
  timeout : Timeval
  ioTimeout : Timeval
  res : Nat

def Event.assign (fd : Int) (events : EvEvents) (pri : Nat) (internal : Bool) (timeout : Timeval) : Event where
  fd := fd
  events := events
  closure := if events.signal then .signal else if events.persist then .persist else .event
  pri := pri
  flags _ := false
  internal := internal
  finalizing := false
  timeout := timeout
  ioTimeout := ⟨0, 0⟩
  res := 0

/-- An event: one of the user's, or the `timeout_event` of a list. -/
inductive EventRef (ε : Type*)
  | event (e : ε)
  | timeoutEvent (i : Nat)
  deriving DecidableEq

/-- `struct common_timeout_list` but for its `timeout_event`. -/
structure CommonTimeoutList (ε : Type*) where
  duration : Timeval
  events : List (EventRef ε)

/-- `struct event_base`, with the memory of its events. -/
structure EventBase (ε β : Type*) where
  ev : EventRef ε → Event
  evmap : EvmapBase (EventRef ε) β
  timeheap : MinHeap (EventRef ε)
  commonTimeoutQueues : List (CommonTimeoutList ε)
  activequeues : Nat → List (EventRef ε)
  nactivequeues : Nat
  activeLaterQueue : List (EventRef ε)
  eventCount : Int
  eventCountMax : Int
  eventCountActive : Int
  eventCountActiveMax : Int
  eventRunningPriority : Int
  eventContinue : Bool
  currentEvent : Option (EventRef ε)
  /-- An assertion has failed or `event_errx` has ended the program. -/
  abort : Bool

/-- The backends of a base, for fds and for signals. -/
structure EventBackend (β : Type*) where
  evsel : Eventop β
  evsigsel : Eventop β
  debugMode : Bool

/-- Which of the allocations of one `event_add_nolock_` succeed: `min_heap_reserve_` at its start
and in `min_heap_push_`, the same for the `timeout_event` of a list, and those of the maps. -/
structure EventAlloc where
  reserve : Bool := true
  push : Bool := true
  schedule : Bool := true
  evmap : EvmapAlloc := {}

namespace EventBase

variable {ε β : Type*} [DecidableEq ε]
variable (b : EventBase ε β)

def timeouts : EventRef ε → Timeval := fun x => (b.ev x).timeout

def evEvents : EventRef ε → EvEvents := fun x => (b.ev x).events

def modifyEv (x : EventRef ε) (f : Event → Event) : EventBase ε β :=
  { b with ev := update b.ev x (f (b.ev x)) }

def setFlag (x : EventRef ε) (k : EvList) (v : Bool) : EventBase ε β :=
  b.modifyEv x fun ev => { ev with flags := update ev.flags k v }

def evutilAssert (p : Bool) : EventBase ε β :=
  { b with abort := b.abort || !p }

def eventErrx : EventBase ε β := { b with abort := true }

def isCommonTimeout (tv : Timeval) : Bool :=
  tv.usec &&& commonTimeoutMask == commonTimeoutMagic && decide (commonTimeoutIdx tv < b.commonTimeoutQueues.length)

def commonEvents (i : Nat) : List (EventRef ε) :=
  (b.commonTimeoutQueues[i]?).elim [] CommonTimeoutList.events

def modifyCommon (i : Nat) (f : List (EventRef ε) → List (EventRef ε)) : EventBase ε β :=
  { b with commonTimeoutQueues :=
      b.commonTimeoutQueues.modify i fun ctl => { ctl with events := f ctl.events } }

def incrEventCount (x : EventRef ε) : EventBase ε β :=
  let n := b.eventCount + if (b.ev x).internal then 0 else 1
  { b with eventCount := n, eventCountMax := max b.eventCountMax n }

def decrEventCount (x : EventRef ε) : EventBase ε β :=
  { b with eventCount := b.eventCount - if (b.ev x).internal then 0 else 1 }

def incrCountActive : EventBase ε β :=
  let n := b.eventCountActive + 1
  { b with eventCountActive := n, eventCountActiveMax := max b.eventCountActiveMax n }

def eventQueueRemoveInserted (x : EventRef ε) : EventBase ε β :=
  if (b.ev x).flags .inserted = false then b.eventErrx
  else (b.decrEventCount x).setFlag x .inserted false

def eventQueueRemoveActive (x : EventRef ε) : EventBase ε β :=
  if (b.ev x).flags .active = false then b.eventErrx
  else
    let b := (b.decrEventCount x).setFlag x .active false
    { b with
      eventCountActive := b.eventCountActive - 1
      activequeues := update b.activequeues (b.ev x).pri ((b.activequeues (b.ev x).pri).erase x) }

def eventQueueRemoveActiveLater (x : EventRef ε) : EventBase ε β :=
  if (b.ev x).flags .activeLater = false then b.eventErrx
  else
    let b := (b.decrEventCount x).setFlag x .activeLater false
    { b with
      eventCountActive := b.eventCountActive - 1
      activeLaterQueue := b.activeLaterQueue.erase x }

def eventQueueRemoveTimeout (x : EventRef ε) : EventBase ε β :=
  if (b.ev x).flags .timeout = false then b.eventErrx
  else
    let b := (b.decrEventCount x).setFlag x .timeout false
    if b.isCommonTimeout (b.ev x).timeout then
      b.modifyCommon (commonTimeoutIdx (b.ev x).timeout) fun events => events.erase x
    else { b with timeheap := (b.timeheap.erase b.timeouts x).1 }

/-- The search of `insert_common_timeout_inorder`, which starts at the end of the list: the list
is reversed here. The first component says whether the assertion held at every event passed. -/
def insertInorder (timeout : EventRef ε → Timeval) (x : EventRef ε) : List (EventRef ε) → Bool × List (EventRef ε)
  | [] => (true, [x])
  | e :: es =>
    if evutilTimercmpGe (timeout x) (timeout e) then
      (isSameCommonTimeout (timeout e) (timeout x), x :: e :: es)
    else
      let r := insertInorder timeout x es
      (isSameCommonTimeout (timeout e) (timeout x) && r.1, e :: r.2)

def insertCommonTimeoutInorder (i : Nat) (x : EventRef ε) : EventBase ε β :=
  let r := insertInorder b.timeouts x (b.commonEvents i).reverse
  (b.evutilAssert r.1).modifyCommon i fun _ => r.2.reverse

def minHeapPush (grow : Bool) (b : EventBase ε β) (x : EventRef ε) : EventBase ε β :=
  if b.timeheap.a < b.timeheap.n + 1 ∧ grow = false then b
  else { b with timeheap := b.timeheap.push b.timeouts x }

def eventQueueInsertInserted (x : EventRef ε) : EventBase ε β :=
  if (b.ev x).flags .inserted then b.eventErrx
  else (b.incrEventCount x).setFlag x .inserted true

def eventQueueInsertActive (x : EventRef ε) : EventBase ε β :=
  if (b.ev x).flags .active then b
  else
    let b := ((b.incrEventCount x).setFlag x .active true).incrCountActive
    let b := b.evutilAssert (decide ((b.ev x).pri < b.nactivequeues))
    { b with
      activequeues := update b.activequeues (b.ev x).pri (b.activequeues (b.ev x).pri ++ [x]) }

def eventQueueInsertActiveLater (x : EventRef ε) : EventBase ε β :=
  if (b.ev x).flags .activeLater || (b.ev x).flags .active then b
  else
    let b := ((b.incrEventCount x).setFlag x .activeLater true).incrCountActive
    let b := b.evutilAssert (decide ((b.ev x).pri < b.nactivequeues))
    { b with activeLaterQueue := b.activeLaterQueue ++ [x] }

def eventQueueInsertTimeout (grow : Bool) (b : EventBase ε β) (x : EventRef ε) : EventBase ε β :=
  if (b.ev x).flags .timeout then b.eventErrx
  else
    let b := (b.incrEventCount x).setFlag x .timeout true
    if b.isCommonTimeout (b.ev x).timeout then
      b.insertCommonTimeoutInorder (commonTimeoutIdx (b.ev x).timeout) x
    else b.minHeapPush grow x

def makeLaterEventActive (x : EventRef ε) : EventBase ε β :=
  let b := { b with activeLaterQueue := b.activeLaterQueue.erase x }
  let b := (b.setFlag x .activeLater false).setFlag x .active true
  let b := b.evutilAssert (decide ((b.ev x).pri < b.nactivequeues))
  { b with
    activequeues := update b.activequeues (b.ev x).pri (b.activequeues (b.ev x).pri ++ [x]) }

def eventQueueMakeLaterEventsActive : EventBase ε β :=
  b.activeLaterQueue.foldl makeLaterEventActive b

section Functions

variable (be : EventBackend β)

def eventAddInserted (alloc : EvmapAlloc) (b : EventBase ε β) (x : EventRef ε) : Int × EventBase ε β :=
  let ev := b.ev x
  if (ev.events.io.any || ev.events.signal) &&
      !(ev.flags .inserted || ev.flags .active || ev.flags .activeLater) then
    let r :=
      if ev.events.io.any then
        b.evmap.evmapIoAdd be.evsel be.debugMode b.evEvents alloc ev.fd x
      else b.evmap.evmapSignalAdd be.evsigsel alloc ev.fd.toNat x
    let b := { b with evmap := r.2 }
    if r.1 ≠ -1 then (if r.1 = 1 then 0 else r.1, b.eventQueueInsertInserted x) else (-1, b)
  else (0, b)

variable (b : EventBase ε β)

def newTimeout (now tv : Timeval) (tvIsAbsolute : Bool) : Timeval :=
  if tvIsAbsolute then tv
  else if b.isCommonTimeout tv then
    let t := evutilTimeradd now tv.masked
    { t with usec := t.usec ||| magicBits tv.usec }
  else evutilTimeradd now tv

def eventAddTimeout (schedule : EventBase ε β → Nat → EventRef ε → EventBase ε β) (grow : Bool)
    (now : Timeval) (b : EventBase ε β) (x : EventRef ε) (tv : Timeval) (tvIsAbsolute : Bool) :
    EventBase ε β :=
  let b :=
    if (b.ev x).closure = .persist ∧ tvIsAbsolute = false then
      b.modifyEv x fun ev => { ev with ioTimeout := tv }
    else b
  let b := if (b.ev x).flags .timeout then b.eventQueueRemoveTimeout x else b
  -- rescheduling an event that is active because of its timeout takes it off the active list
  let b :=
    if (b.ev x).flags .active ∧ (b.ev x).res &&& evTimeout ≠ 0 then b.eventQueueRemoveActive x
    else b
  let b := b.modifyEv x fun ev => { ev with timeout := b.newTimeout now tv tvIsAbsolute }
  let b := b.eventQueueInsertTimeout grow x
  if b.isCommonTimeout tv then
    let i := commonTimeoutIdx (b.ev x).timeout
    if (b.commonEvents i).head? = some x then schedule b i x else b
  else b

def eventAddBody (schedule : EventBase ε β → Nat → EventRef ε → EventBase ε β)
    (alloc : EventAlloc) (now : Timeval) (b : EventBase ε β) (x : EventRef ε)
    (tv : Option Timeval) (tvIsAbsolute : Bool) : Int × EventBase ε β :=
  if (b.ev x).finalizing then (-1, b)
  else if (tv.isSome ∧ (b.ev x).flags .timeout = false) ∧
      b.timeheap.a < 1 + b.timeheap.n ∧ alloc.reserve = false then (-1, b)
  else
    let b :=
      if tv.isSome ∧ (b.ev x).flags .timeout = false then
        { b with timeheap := b.timeheap.reserve (1 + b.timeheap.n) }
      else b
    let r := b.eventAddInserted be alloc.evmap x
    match tv with
    | none => r
    | some tv =>
      if r.1 ≠ -1 then (r.1, r.2.eventAddTimeout schedule alloc.push now x tv tvIsAbsolute)
      else r

/-- `common_timeout_schedule`. The time value that it passes on is not a common timeout, so that
this `event_add_nolock_` does not schedule in turn. -/
def commonTimeoutSchedule (grow : Bool) (now : Timeval) (b : EventBase ε β) (i : Nat)
    (head : EventRef ε) : EventBase ε β :=
  (b.eventAddBody be (fun b _ _ => b) { reserve := grow, push := grow } now (.timeoutEvent i)
    (some (b.ev head).timeout.masked) true).2

variable (alloc : EventAlloc)

def eventAddNolock (now : Timeval) (b : EventBase ε β) (x : EventRef ε)
    (tv : Option Timeval) (tvIsAbsolute : Bool) : Int × EventBase ε β :=
  b.eventAddBody be (commonTimeoutSchedule be alloc.schedule now) alloc now x tv tvIsAbsolute

/-- `event_del_nolock_`, not called for an event that is being finalized. -/
def eventDelNolock (x : EventRef ε) : Int × EventBase ε β :=
  if (b.ev x).finalizing then (0, b)
  else
    let b := if (b.ev x).flags .timeout then b.eventQueueRemoveTimeout x else b
    let b :=
      if (b.ev x).flags .active then b.eventQueueRemoveActive x
      else if (b.ev x).flags .activeLater then b.eventQueueRemoveActiveLater x
      else b
    if (b.ev x).flags .inserted then
      let b := b.eventQueueRemoveInserted x
      let r :=
        if (b.ev x).events.io.any then b.evmap.evmapIoDel be.evsel b.evEvents (b.ev x).fd x
        else b.evmap.evmapSignalDel be.evsigsel (b.ev x).fd.toNat x
      (if r.1 = 1 then 0 else r.1, { b with evmap := r.2 })
    else (0, b)

def eventCallbackActivateNolock (x : EventRef ε) : EventBase ε β :=
  if (b.ev x).finalizing then b
  else
    match (b.ev x).flags .active, (b.ev x).flags .activeLater with
    | true, true => ((b.evutilAssert false).eventQueueRemoveActiveLater x).eventQueueInsertActive x
    | false, true => (b.eventQueueRemoveActiveLater x).eventQueueInsertActive x
    | true, false => b
    | false, false => b.eventQueueInsertActive x

def eventActiveNolock (x : EventRef ε) (res : Nat) : EventBase ε β :=
  if (b.ev x).finalizing then b
  else
    let orRes := b.modifyEv x fun ev => { ev with res := ev.res ||| res }
    let activate (b : EventBase ε β) : EventBase ε β :=
      let b :=
        if ((b.ev x).pri : Int) < b.eventRunningPriority then { b with eventContinue := true }
        else b
      b.eventCallbackActivateNolock x
    match (b.ev x).flags .active, (b.ev x).flags .activeLater with
    | true, true => activate (b.evutilAssert false)
    | true, false => orRes
    | false, true => activate orRes
    | false, false => activate (b.modifyEv x fun ev => { ev with res := res })

def eventActiveLaterNolock (x : EventRef ε) (res : Nat) : EventBase ε β :=
  if (b.ev x).flags .active || (b.ev x).flags .activeLater then
    b.modifyEv x fun ev => { ev with res := ev.res ||| res }
  else (b.modifyEv x fun ev => { ev with res := res }).eventQueueInsertActiveLater x

def eventRemoveTimerNolock (x : EventRef ε) : EventBase ε β :=
  if (b.ev x).flags .timeout then
    (b.eventQueueRemoveTimeout x).modifyEv x fun ev => { ev with ioTimeout := ⟨0, 0⟩ }
  else b

def eventPrioritySet (x : EventRef ε) (pri : Nat) : EventBase ε β :=
  if (b.ev x).flags .active ∨ b.nactivequeues ≤ pri then b
  else b.modifyEv x fun ev => { ev with pri := pri }

def timeoutProcessLoop (now : Timeval) : Nat → EventBase ε β → EventBase ε β
  | 0, b => b
  | k + 1, b =>
    match b.timeheap.top with
    | none => b
    | some x =>
      if evutilTimercmpGt (b.ev x).timeout now then b
      else timeoutProcessLoop now k ((b.eventDelNolock be x).2.eventActiveNolock x evTimeout)

def timeoutProcess (now : Timeval) (b : EventBase ε β) : EventBase ε β :=
  timeoutProcessLoop be now b.timeheap.n b

def notYetDue (tv now : Timeval) : Bool :=
  decide (now.sec < tv.sec) || tv.sec == now.sec && decide (now.usec < tv.usec &&& microsecondsMask)

def commonTimeoutLoop (i : Nat) (now : Timeval) : Nat → EventBase ε β → EventBase ε β
  | 0, b => b
  | k + 1, b =>
    match (b.commonEvents i).head? with
    | none => b
    | some x =>
      if notYetDue (b.ev x).timeout now then b
      else commonTimeoutLoop i now k ((b.eventDelNolock be x).2.eventActiveNolock x evTimeout)

def commonTimeoutCallback (grow : Bool) (now : Timeval) (b : EventBase ε β) (i : Nat) : EventBase ε β :=
  let b := commonTimeoutLoop be i now (b.commonEvents i).length b
  match (b.commonEvents i).head? with
  | none => b
  | some x => b.commonTimeoutSchedule be grow now i x

/-- `event_base_init_common_timeout`: the number of the list whose duration is returned. -/
def eventBaseInitCommonTimeout (duration : Timeval) : Option Nat × EventBase ε β :=
  let duration :=
    if 1000000 < duration.usec then
      let tv := if b.isCommonTimeout duration then duration.masked else duration
      ⟨tv.sec + (tv.usec / 1000000 : Nat), tv.usec % 1000000⟩
    else duration
  let i := b.commonTimeoutQueues.length
  match b.commonTimeoutQueues.findIdx? fun ctl => decide (duration = ctl.duration.masked) with
  | some j => (some j, b)
  | none =>
    if i = maxCommonTimeouts then (none, b)
    else
      let ctl : CommonTimeoutList ε :=
        { duration := { duration with
            usec := duration.usec ||| commonTimeoutMagic ||| i <<< commonTimeoutIdxShift }
          events := [] }
      let timeoutEvent := Event.assign (-1) {} 0 true ⟨0, 0⟩
      (some i, { b with
        commonTimeoutQueues := b.commonTimeoutQueues ++ [ctl]
        ev := update b.ev (.timeoutEvent i) timeoutEvent
        timeheap := b.timeheap.clearIdx (.timeoutEvent i) })

def eventPersistClosure (now : Timeval) (b : EventBase ε β) (x : EventRef ε) : EventBase ε β :=
  let ev := b.ev x
  if ev.ioTimeout.sec ≠ 0 ∨ ev.ioTimeout.usec ≠ 0 then
    let b := b.evutilAssert (isSameCommonTimeout ev.timeout ev.ioTimeout)
    let common := b.isCommonTimeout ev.timeout
    let usecMask := if common then magicBits ev.ioTimeout.usec % 2 ^ 32 else 0
    let delay := if common then ev.ioTimeout.masked else ev.ioTimeout
    let relativeTo :=
      if ev.res &&& evTimeout ≠ 0 then if common then ev.timeout.masked else ev.timeout else now
    let runAt := evutilTimeradd relativeTo delay
    let runAt := if evutilTimercmpGt now runAt then evutilTimeradd now delay else runAt
    (b.eventAddNolock be alloc now x (some { runAt with usec := runAt.usec ||| usecMask }) true).2
  else b

def eventProcessActiveTurn (now : Timeval) (b : EventBase ε β) (i : Nat) : EventBase ε β :=
  match (b.activequeues i).head? with
  | none => b
  | some x =>
    let b :=
      if (b.ev x).events.persist || (b.ev x).finalizing then b.eventQueueRemoveActive x
      else (b.eventDelNolock be x).2
    let b := { b with currentEvent := some x }
    if (b.ev x).closure = .persist then b.eventPersistClosure be alloc now x else b

end Functions

/-- What `event_new` is given for an event, `EVLIST_INTERNAL`, and the contents of the memory. A
signal number is not negative. -/
structure EventSetup where
  fd : Int
  events : EvEvents
  internal : Bool
  timeout : Timeval
  signal_nonneg : events.signal → 0 ≤ fd

def EventSetup.evtimerNew : EventSetup := ⟨-1, {}, false, ⟨0, 0⟩, nofun⟩

def start (setup : ε → EventSetup) (nactivequeues : Nat) (evsel : β) (junk : Nat → EventRef ε) : EventBase ε β where
  ev x :=
    match x with
    | .event e => Event.assign (setup e).fd (setup e).events (nactivequeues / 2)
        (setup e).internal (setup e).timeout
    | .timeoutEvent _ => Event.assign (-1) {} 0 true ⟨0, 0⟩
  evmap := ⟨.initmap fun _ => none, .initmap fun _ => none, evsel⟩
  timeheap := MinHeap.ctor junk
  commonTimeoutQueues := []
  activequeues _ := []
  nactivequeues := nactivequeues
  activeLaterQueue := []
  eventCount := 0
  eventCountMax := 0
  eventCountActive := 0
  eventCountActiveMax := 0
  eventRunningPriority := -1
  eventContinue := false
  currentEvent := none
  abort := false

end EventBase

/-- What can happen to a base: calls of the program, from anywhere, and the work of the loop. The
loop runs the first callback of a queue in two steps, of which the second is its return; the
callback of a `timeout_event` has a step of its own in between. Times are what `gettime` gives. -/
inductive EventCall (ε : Type*)
  | add (e : ε) (tv : Option Timeval) (now : Timeval) (alloc : EventAlloc)
  | del (e : ε)
  | active (e : ε) (res : Nat)
  | activeLater (e : ε) (res : Nat)
  | removeTimer (e : ε)
  | prioritySet (e : ε) (pri : Nat)
  | initCommonTimeout (duration : Timeval)
  | timeoutProcess (now : Timeval)
  | makeLaterEventsActive
  | runActive (i : Nat) (now : Timeval) (alloc : EventAlloc)
  | runCommonTimeout (now : Timeval) (grow : Bool)
  | callbackReturned

/-- A base, and the number of the list whose `timeout_event` is being run and has not yet entered
its callback. -/
structure EventRun (ε β : Type*) where
  base : EventBase ε β
  pending : Option Nat

namespace EventRun

variable {ε β : Type*} [DecidableEq ε] (be : EventBackend β)

/-- The loop runs one callback at a time, and a `timeout_event` does not return before its
callback has run. -/
def Enabled (r : EventRun ε β) : EventCall ε → Prop
  | .runActive _ _ _ => r.base.currentEvent = none
  | .callbackReturned => r.pending = none
  | _ => True

def pendingOf : Option (EventRef ε) → Option Nat
  | some (.timeoutEvent i) => some i
  | _ => none

def step (r : EventRun ε β) : EventCall ε → EventRun ε β
  | .add e tv now alloc =>
    { r with base := (r.base.eventAddNolock be alloc now (.event e) tv false).2 }
  | .del e => { r with base := (r.base.eventDelNolock be (.event e)).2 }
  | .active e res => { r with base := r.base.eventActiveNolock (.event e) res }
  | .activeLater e res => { r with base := r.base.eventActiveLaterNolock (.event e) res }
  | .removeTimer e => { r with base := r.base.eventRemoveTimerNolock (.event e) }
  | .prioritySet e pri => { r with base := r.base.eventPrioritySet (.event e) pri }
  | .initCommonTimeout duration =>
    { r with base := (r.base.eventBaseInitCommonTimeout duration).2 }
  | .timeoutProcess now => { r with base := r.base.timeoutProcess be now }
  | .makeLaterEventsActive => { r with base := r.base.eventQueueMakeLaterEventsActive }
  | .runActive i now alloc =>
    { base := r.base.eventProcessActiveTurn be alloc now i
      pending := pendingOf (r.base.activequeues i).head? }
  | .runCommonTimeout now grow =>
    match r.pending with
    | none => r
    | some i => { base := r.base.commonTimeoutCallback be grow now i, pending := none }
  | .callbackReturned => { r with base := { r.base with currentEvent := none } }

/-- The states that calls reach from `start`, each of them `allowed` in the state where it is
made. -/
def Reachable (allowed : EventRun ε β → EventCall ε → Prop) (start : EventRun ε β) : EventRun ε β → Prop :=
  Runs.Reached (fun r call => some (r.step be call)) (fun r call => r.Enabled call ∧ allowed r call) start

def start (setup : ε → EventBase.EventSetup) (nactivequeues : Nat) (evsel : β)
    (junk : Nat → EventRef ε) (durations : List Timeval) : EventRun ε β where
  base := durations.foldl (fun b duration => (b.eventBaseInitCommonTimeout duration).2)
    (EventBase.start setup nactivequeues evsel junk)
  pending := none

end EventRun

end MyLibevent
