import MyLibevent.Evmap

/-!
# The poll backend

`poll_add` and `poll_del` of `poll.c`. The poll set has one entry for each fd that something is
waited for on, and the fd's own `struct pollidx` in the fd map says where. Removing an entry moves
the last one into its place.
-/

namespace MyLibevent

open Function

/-- `struct pollfd` without `revents`. `POLLIN` and `POLLOUT` of `events` are its reads and writes. -/
structure Pollfd where
  fd : Int
  events : IoSet

/-- `struct pollop`, the `idxplus1` of every fd, and whether all assertions held. Entries of
`eventSet` from `nfds` on are not in use. -/
structure Pollop where
  eventCount : Nat
  nfds : Nat
  eventSet : Nat → Pollfd
  idxplus1 : Int → Nat
  asserted : Bool

namespace Pollop

def init (eventSet : Nat → Pollfd) : Pollop := ⟨0, 0, eventSet, fun _ => 0, true⟩

/-- `events & (EV_READ|EV_WRITE)`. -/
def readsWrites (events : IoSet) : IoSet := fun k => events k && k != .closed

/-- The set has room for one more entry and a spare one, or `none` if it could not be enlarged. -/
def makeRoom (alloc : Bool) (pop : Pollop) : Option Pollop :=
  if pop.eventCount ≤ pop.nfds + 1 then
    if alloc then some { pop with eventCount := if pop.eventCount < 32 then 32 else pop.eventCount * 2 }
    else none
  else some pop

def setEvents (pop : Pollop) (i : Nat) (events : IoSet) : Pollop :=
  { pop with eventSet := update pop.eventSet i { pop.eventSet i with events := events } }

def newEntry (pop : Pollop) (fd : Int) : Pollop :=
  { pop with
    nfds := pop.nfds + 1
    eventSet := update pop.eventSet pop.nfds ⟨fd, IoSet.empty⟩
    idxplus1 := update pop.idxplus1 fd (pop.nfds + 1) }

def pollAdd (alloc : Bool) (pop : Pollop) (fd : Int) (events : IoSet) : Int × Pollop :=
  if (readsWrites events).any = false then (0, pop)
  else
    match pop.makeRoom alloc with
    | none => (-1, pop)
    | some pop =>
      let pop := if pop.idxplus1 fd = 0 then pop.newEntry fd else pop
      let i := pop.idxplus1 fd - 1
      (0, pop.setEvents i ((pop.eventSet i).events.union (readsWrites events)))

/-- The part of `poll_del` for an entry whose events are gone. -/
def removeEntry (pop : Pollop) (fd : Int) (i : Nat) : Pollop :=
  let pop := { pop with idxplus1 := update pop.idxplus1 fd 0, nfds := pop.nfds - 1 }
  if i = pop.nfds then pop
  else
    let moved := pop.eventSet pop.nfds
    { pop with
      eventSet := update pop.eventSet i moved
      asserted := pop.asserted && pop.idxplus1 moved.fd == pop.nfds + 1
      idxplus1 := update pop.idxplus1 moved.fd (i + 1) }

def pollDel (pop : Pollop) (fd : Int) (events : IoSet) : Int × Pollop :=
  if (readsWrites events).any = false then (0, pop)
  else if pop.idxplus1 fd = 0 then (-1, pop)
  else
    let i := pop.idxplus1 fd - 1
    let pop := pop.setEvents i ((pop.eventSet i).events.diff (readsWrites events))
    (0, if (pop.eventSet i).events.any then pop else pop.removeEntry fd i)

end Pollop

inductive PollCall
  | add (alloc : Bool) (fd : Int) (events : IoSet)
  | del (fd : Int) (events : IoSet)

/-- The backend, and what was added and not deleted for each fd. -/
structure PollRun where
  pop : Pollop
  added : Int → IoSet

namespace PollRun

def init (eventSet : Nat → Pollfd) : PollRun := ⟨.init eventSet, fun _ => IoSet.empty⟩

/-- A call that returns -1 counts as not made. -/
def step (r : PollRun) : PollCall → PollRun
  | .add alloc fd events =>
    let (res, pop) := r.pop.pollAdd alloc fd events
    ⟨pop, if res = -1 then r.added else update r.added fd ((r.added fd).union events)⟩
  | .del fd events =>
    let (res, pop) := r.pop.pollDel fd events
    ⟨pop, if res = -1 then r.added else update r.added fd ((r.added fd).diff events)⟩

def run (r : PollRun) (calls : List PollCall) : PollRun := calls.foldl step r

/-- The entries in use are of different fds, `idxplus1` leads to them and to nothing else, and they ask
for what was added, which is never nothing. -/
structure Exact (r : PollRun) : Prop where
  fds : ∀ i < r.pop.nfds, ∀ j < r.pop.nfds, (r.pop.eventSet i).fd = (r.pop.eventSet j).fd → i = j
  idxplus1 : ∀ fd i, r.pop.idxplus1 fd = i + 1 ↔ i < r.pop.nfds ∧ (r.pop.eventSet i).fd = fd
  events : ∀ i < r.pop.nfds, (r.pop.eventSet i).events = Pollop.readsWrites (r.added (r.pop.eventSet i).fd)
  nonempty : ∀ i < r.pop.nfds, (r.pop.eventSet i).events ≠ IoSet.empty
  all : ∀ fd, r.pop.idxplus1 fd = 0 → Pollop.readsWrites (r.added fd) = IoSet.empty
  asserted : r.pop.asserted

end PollRun

end MyLibevent
