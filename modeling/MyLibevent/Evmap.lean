import Mathlib

/-!
# The map from fds and signals to events

`evmap.c`: every fd has a list of the events waiting on it and one counter for each of
`EV_READ`, `EV_WRITE` and `EV_CLOSED`; every signal has a list. The backend (`struct eventop`)
is told only about the counters that leave or reach zero. The three conditions are treated
alike by the source, so the counters `nread`, `nwrite` and `nclose` are the values of one
function on `IoKind`. The model is generic in the type `ε` of events and the state `β` of the
backend. Pointers have 8 bytes and an `int` has 32 bits.
-/

namespace MyLibevent

/-- `EV_READ`, `EV_WRITE` and `EV_CLOSED`. -/
inductive IoKind where
  | read
  | write
  | closed
  deriving DecidableEq

/-- The bits `EV_READ`, `EV_WRITE` and `EV_CLOSED` of an event mask. -/
abbrev IoSet := IoKind → Bool

namespace IoSet

def empty : IoSet := fun _ => false

def union (a b : IoSet) : IoSet := fun k => a k || b k

def diff (a b : IoSet) : IoSet := fun k => a k && !b k

def any (a : IoSet) : Bool := a .read || a .write || a .closed

lemma any_eq_false_iff (a : IoSet) : a.any = false ↔ a = empty := by
  constructor
  · intro h
    funext k
    cases k <;> simp_all [any, empty]
  · intro h
    simp [h, any, empty]

lemma union_empty (a : IoSet) : a.union empty = a := by
  funext k
  simp [union, empty]

lemma diff_empty (a : IoSet) : a.diff empty = a := by
  funext k
  simp [diff, empty]

end IoSet

/-- A mask of `EV_*` bits. -/
structure EvEvents where
  io : IoSet := IoSet.empty
  signal : Bool := false
  persist : Bool := false
  et : Bool := false

/-- `add` and `del` of `struct eventop`; the arguments are the fd, the conditions enabled on
it before and the conditions to enable or disable. The first component is the return value. -/
structure Eventop (β : Type*) where
  add : β → Int → IoSet → EvEvents → Int × β
  del : β → Int → IoSet → EvEvents → Int × β

/-- `struct evmap_io`: the events of an fd, and how many want each kind. -/
structure EvmapIo (ε : Type*) where
  events : List ε
  n : IoKind → Nat

namespace EvmapIo

variable {ε : Type*}

def init : EvmapIo ε := ⟨[], fun _ => 0⟩

def nread (ctx : EvmapIo ε) : Nat := ctx.n .read

def nwrite (ctx : EvmapIo ε) : Nat := ctx.n .write

def nclose (ctx : EvmapIo ε) : Nat := ctx.n .closed

end EvmapIo

/-- `struct event_signal_map`, which is also the type of the fd map on this platform. Slots of
`entries` from `nentries` on do not exist. -/
structure EventSignalMap (α : Type*) where
  nentries : Nat
  entries : Nat → Option α

namespace EventSignalMap

variable {α : Type*}

def initmap (entries : Nat → Option α) : EventSignalMap α := ⟨0, entries⟩

/-- The doubling loop of `evmap_make_space`, in at most this many turns. -/
def grownNentries : Nat → Nat → Nat → Nat
  | 0, nentries, _ => nentries
  | turns + 1, nentries, slot =>
    if nentries ≤ slot then grownNentries turns (nentries * 2) slot else nentries

/-- `evmap_make_space`: the return value and the map. `space` tells whether `realloc` finds memory.
The number of bytes is an `int`: from 2^31 on it is negative, so that `realloc` fails, and where it is
a multiple of 2^32 `realloc` is asked for no bytes, gives the entries back and returns `NULL`. The
map then still points to them; here they are gone. For slots from 2^30 on `nentries` itself leaves
the `int` and the loop of the source does not end, which the model does not show. -/
def makeSpace (space : Bool) (map : EventSignalMap α) (slot : Nat) : Int × EventSignalMap α :=
  if map.nentries ≤ slot then
    let nentries := grownNentries 31 (if map.nentries ≠ 0 then map.nentries else 32) slot
    let bytes := nentries * 8 % 2 ^ 32
    if bytes = 0 then (-1, { map with entries := fun _ => none })
    else if 2 ^ 31 ≤ bytes ∨ space = false then (-1, map)
    else (0, { nentries := nentries
               entries := fun i => if map.nentries ≤ i ∧ i < nentries then none else map.entries i })
  else (0, map)

def slot (map : EventSignalMap α) (i : Nat) : Option α :=
  if i < map.nentries then map.entries i else none

def setSlot (map : EventSignalMap α) (i : Nat) (x : α) : EventSignalMap α :=
  { map with entries := Function.update map.entries i (some x) }

end EventSignalMap

/-- The two maps of a base and the state of its backend. -/
structure EvmapBase (ε β : Type*) where
  io : EventSignalMap (EvmapIo ε)
  sigmap : EventSignalMap (List ε)
  evsel : β

/-- Which allocations succeed: of a larger map, of an entry. -/
structure EvmapAlloc where
  space : Bool := true
  entry : Bool := true

namespace EvmapBase

variable {ε β : Type*} [DecidableEq ε] (op : Eventop β) (debugMode : Bool) (evEvents : ε → EvEvents)

variable (n : IoKind → Nat)

/-- `++n == 1` on each counter whose condition the event waits for: the new counters and the
conditions to enable. -/
def countUp (want : IoSet) : (IoKind → Nat) × IoSet :=
  (fun k => if want k then n k + 1 else n k, fun k => want k && n k + 1 == 1)

def countDown (want : IoSet) : (IoKind → Nat) × IoSet :=
  (fun k => if want k then n k - 1 else n k, fun k => want k && n k == 1)

def oldEvents : IoSet := fun k => n k != 0

/-- `LIST_FIRST(&ctx->events)` is edge-triggered and the event is not, or the other way. -/
def mixesEt (ctx : EvmapIo ε) (ev : ε) : Bool :=
  match ctx.events.head? with
  | none => false
  | some oldEv => (evEvents oldEv).et != (evEvents ev).et

variable (base : EvmapBase ε β)

def ioAddEntry (fd : Nat) (ctx : EvmapIo ε) (ev : ε) : Int × EvmapBase ε β :=
  let (n, res) := countUp ctx.n (evEvents ev).io
  let store (evsel : β) : EvmapBase ε β :=
    { base with io := base.io.setSlot fd ⟨ev :: ctx.events, n⟩, evsel := evsel }
  if IoSet.any (fun k => decide (0xffff < n k)) then (-1, base)
  else if debugMode && mixesEt evEvents ctx ev then (-1, base)
  else if res.any then
    let (r, evsel) :=
      op.add base.evsel fd (oldEvents ctx.n) { io := res, et := (evEvents ev).et }
    if r = -1 then (-1, { base with evsel := evsel }) else (1, store evsel)
  else (0, store base.evsel)

def evmapIoAdd (alloc : EvmapAlloc) (base : EvmapBase ε β) (fd : Int) (ev : ε) : Int × EvmapBase ε β :=
  if fd < 0 then (0, base)
  else
    let made := base.io.makeSpace alloc.space fd.toNat
    let base := { base with io := made.2 }
    if made.1 = -1 then (-1, base)
    else
      match base.io.slot fd.toNat with
      | some ctx => ioAddEntry op debugMode evEvents base fd.toNat ctx ev
      | none =>
        -- GET_IO_SLOT_AND_CTOR stores the constructed entry before the counters are computed
        if alloc.entry = false then (-1, base)
        else ioAddEntry op debugMode evEvents
          { base with io := base.io.setSlot fd.toNat EvmapIo.init } fd.toNat EvmapIo.init ev

/-- `evmap_io_del_`. The source follows the entry pointer without a test: a deleted event is a
listed one, so its entry is there. -/
def evmapIoDel (fd : Int) (ev : ε) : Int × EvmapBase ε β :=
  if fd < 0 then (0, base)
  else if base.io.nentries ≤ fd.toNat then (-1, base)
  else
    match base.io.slot fd.toNat with
    | none => (-1, base)
    | some ctx =>
      let (n, res) := countDown ctx.n (evEvents ev).io
      let store (evsel : β) : EvmapBase ε β :=
        { base with io := base.io.setSlot fd.toNat ⟨ctx.events.erase ev, n⟩, evsel := evsel }
      if res.any then
        let (r, evsel) := op.del base.evsel fd (oldEvents ctx.n) { io := res }
        (if r = -1 then -1 else 1, store evsel)
      else (0, store base.evsel)

def evmapSignalAdd (evsigsel : Eventop β) (alloc : EvmapAlloc) (base : EvmapBase ε β)
    (sig : Nat) (ev : ε) : Int × EvmapBase ε β :=
  let made := base.sigmap.makeSpace alloc.space sig
  let base := { base with sigmap := made.2 }
  if made.1 = -1 then (-1, base)
  else
    if base.sigmap.slot sig = none ∧ alloc.entry = false then (-1, base)
    else
      let events := (base.sigmap.slot sig).getD []
      let base := { base with sigmap := base.sigmap.setSlot sig events }
      let store (evsel : β) : EvmapBase ε β :=
        { base with sigmap := base.sigmap.setSlot sig (ev :: events), evsel := evsel }
      if events = [] then
        let (r, evsel) := evsigsel.add base.evsel sig IoSet.empty { signal := true }
        if r = -1 then (-1, { base with evsel := evsel }) else (1, store evsel)
      else (1, store base.evsel)

def evmapSignalDel (evsigsel : Eventop β) (base : EvmapBase ε β) (sig : Nat) (ev : ε) : Int × EvmapBase ε β :=
  if base.sigmap.nentries ≤ sig then (-1, base)
  else
    match base.sigmap.slot sig with
    | none => (-1, base)
    | some events =>
      let base := { base with sigmap := base.sigmap.setSlot sig (events.erase ev) }
      if events.erase ev = [] then
        let (r, evsel) := evsigsel.del base.evsel sig IoSet.empty { signal := true }
        (if r = -1 then -1 else 1, { base with evsel := evsel })
      else (1, base)

def ioEntry (fd : Int) : EvmapIo ε :=
  if fd < 0 then EvmapIo.init else (base.io.slot fd.toNat).getD EvmapIo.init

def ioListed (fd : Int) : List ε := (base.ioEntry fd).events

def sigListed (sig : Nat) : List ε :=
  (base.sigmap.slot sig).getD []

end EvmapBase

/-- The calls on the fd map. -/
inductive EvmapCall (ε : Type*)
  | ioAdd (alloc : EvmapAlloc) (ev : ε)
  | ioDel (ev : ε)

section Calls

variable {ε β : Type*} [DecidableEq ε] (op : Eventop β) (debugMode : Bool) (evFd : ε → Int)
  (evEvents : ε → EvEvents)

def EvmapBase.step (base : EvmapBase ε β) : EvmapCall ε → Option (EvmapBase ε β)
  | .ioAdd alloc ev => some (base.evmapIoAdd op debugMode evEvents alloc (evFd ev) ev).2
  | .ioDel ev => some (base.evmapIoDel op evEvents (evFd ev) ev).2

/-- Events are added when they are not listed and deleted when they are, as `event.c` does by
`EVLIST_INSERTED`. -/
def EvmapBase.MayCall (base : EvmapBase ε β) : EvmapCall ε → Prop
  | .ioAdd _ ev => ev ∉ base.ioListed (evFd ev)
  | .ioDel ev => evFd ev < 0 ∨ ev ∈ base.ioListed (evFd ev)

end Calls

end MyLibevent
