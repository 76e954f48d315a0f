import Mathlib

/-!
# Handing connections to the thread pool

`libevent_pool/server.cc`: the thread that accepts connections stores each one in the slot of a worker
and writes a byte that wakes the worker. An event is what one thread does up to its next access to a
slot or to a wake-up socket, so a sequence of events is an interleaving of the threads.
-/

namespace MyLibevent

abbrev threadNum : Nat := 25

instance : NeZero threadNum := ⟨by decide⟩

/-- Where a worker is in `thread_libevent_process`: it is not running, it has read from its wake-up
socket, or it has read its slot. -/
inductive ProcessState where
  | idle
  | woken
  | loaded (fdconnect : Nat)
deriving DecidableEq, Repr

/-- A thread: its connection slot, unread wakeups and what it is doing. -/
structure PoolWorker where
  fConnect : Nat
  wakeups : Nat
  process : ProcessState
deriving DecidableEq, Repr

/-- The server: the worker that `accept_cb` has to wake, if it is running, and the connections that
have been accepted and registered so far. -/
structure PoolServer where
  lastThread : Fin threadNum
  waking : Option (Fin threadNum)
  threads : Fin threadNum → PoolWorker
  accepted : List Nat
  registered : List (Fin threadNum × Nat)

inductive PoolEvent where
  /-- `accept_cb` up to the store to the slot, where `accept` may fail. -/
  | accept (newFd : Option Nat)
  /-- `accept_cb` writes the byte. -/
  | wake
  /-- A worker reads bytes from its wake-up socket. -/
  | read (tid : Fin threadNum) (ret : Nat)
  /-- A worker reads its slot. -/
  | load (tid : Fin threadNum)
  /-- A worker adds the event of the connection. -/
  | add (tid : Fin threadNum)
deriving DecidableEq, Repr

namespace PoolServer

def start : PoolServer := ⟨0, none, fun _ => ⟨0, 0, .idle⟩, [], []⟩

variable (s : PoolServer)

def nextThread : Fin threadNum := Fin.ofNat threadNum (s.lastThread + 1)

def setThread (tid : Fin threadNum) (thread : PoolWorker) : PoolServer :=
  { s with threads := Function.update s.threads tid thread }

def step : PoolEvent → Option PoolServer
  | .accept newFd =>
    if s.waking = none then
      match newFd with
      | none => some s
      | some newFd =>
        let tid := s.nextThread
        some { s.setThread tid { s.threads tid with fConnect := newFd } with
          lastThread := tid
          waking := some tid
          accepted := s.accepted ++ [newFd] }
    else none
  | .wake =>
    match s.waking with
    | none => none
    | some tid =>
      some { s.setThread tid
        { s.threads tid with wakeups := (s.threads tid).wakeups + 1 } with waking := none }
  | .read tid ret =>
    let thread := s.threads tid
    if thread.process = .idle ∧ 0 < ret ∧ ret ≤ thread.wakeups ∧ ret ≤ 128 then
      some (s.setThread tid { thread with wakeups := thread.wakeups - ret, process := .woken })
    else none
  | .load tid =>
    let thread := s.threads tid
    if thread.process = .woken then
      some (s.setThread tid { thread with process := .loaded thread.fConnect })
    else none
  | .add tid =>
    let thread := s.threads tid
    match thread.process with
    | .loaded fdconnect =>
      some { s.setThread tid { thread with process := .idle } with
        registered := s.registered ++ [(tid, fdconnect)] }
    | _ => none

/-- All wake-up bytes have been written and read, and no callback is running. -/
def Quiet : Prop :=
  s.waking = none ∧ ∀ tid, (s.threads tid).wakeups = 0 ∧ (s.threads tid).process = .idle

instance (s : PoolServer) : Decidable s.Quiet := by
  unfold Quiet
  infer_instance

/-- Each accepted connection has been registered once, by one worker. -/
def HandedOver : Prop := (s.registered.map Prod.snd).Perm s.accepted

instance (s : PoolServer) : Decidable s.HandedOver := by
  unfold HandedOver
  infer_instance

/-- A connection is accepted only when the worker that is next in turn has no byte to read and has
read its slot since it read the last one. -/
def SlotFree : PoolEvent → Prop
  | .accept _ => (s.threads s.nextThread).wakeups = 0 ∧ (s.threads s.nextThread).process ≠ .woken
  | _ => True

instance (s : PoolServer) (e : PoolEvent) : Decidable (s.SlotFree e) := by
  cases e <;> unfold SlotFree <;> infer_instance

end PoolServer

end MyLibevent
