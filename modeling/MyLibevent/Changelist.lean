import MyLibevent.Evmap

/-!
# Change lists

The change list of `evmap.c`: a backend that uses one (epoll, kqueue) records what it was asked
to enable and disable since the last commit, with at most one entry for each fd, and applies
the entries together. Where the entry of an fd is in the list is kept in the fd's own
`event_changelist_fdinfo`.
-/

namespace MyLibevent

/-- `read_change`, `write_change` and `close_change`: 0, `EV_CHANGE_DEL`, or `EV_CHANGE_ADD`
with the bits `EV_CHANGE_ET`, `EV_CHANGE_PERSIST` and `EV_CHANGE_SIGNAL`. -/
inductive Change where
  | none
  | add (et persist signal : Bool)
  | del

def Change.isSignal : Change → Bool
  | .add _ _ signal => signal
  | _ => false

/-- `struct event_change`: what the backend does not know yet about `fd`. -/
structure EventChange where
  fd : Int
  oldEvents : EvEvents
  change : IoKind → Change

/-- The `event_changelist_fdinfo` of an fd or of a signal. -/
inductive Fdinfo where
  | io (fd : Int)
  | signal (sig : Int)
  deriving DecidableEq

/-- The change list of a base, with `n_changes` the length of `changes`, and the `idxplus1` of
every fd and signal. -/
structure EventChangelist where
  changes : List EventChange
  changesSize : Nat
  idxplus1 : Fdinfo → Nat

namespace EventChangelist

def init : EventChangelist := ⟨[], 0, fun _ => 0⟩

def getFdinfo (ch : EventChange) : Fdinfo :=
  if (ch.change .read).isSignal then .signal ch.fd else .io ch.fd

def clearIdxplus1 (changes : List EventChange) (idxplus1 : Fdinfo → Nat) : Fdinfo → Nat :=
  changes.foldl (fun idx ch => Function.update idx (getFdinfo ch) 0) idxplus1

def removeAll (cl : EventChangelist) : EventChangelist :=
  { cl with changes := [], idxplus1 := clearIdxplus1 cl.changes cl.idxplus1 }

def grow (changesSize : Nat) : Nat := if changesSize < 64 then 64 else changesSize * 2

variable (alloc : Bool)

/-- `event_changelist_get_or_construct`: the index of the entry, or `none` if the array had to
grow and could not. -/
def getOrConstruct (cl : EventChangelist) (fd : Int) (oldEvents : EvEvents)
    (fdinfo : Fdinfo) : Option (EventChangelist × Nat) :=
  if cl.idxplus1 fdinfo = 0 then
    if cl.changes.length = cl.changesSize ∧ alloc = false then none
    else
      let idx := cl.changes.length
      some (⟨cl.changes ++ [⟨fd, oldEvents, fun _ => .none⟩],
        if idx = cl.changesSize then grow cl.changesSize else cl.changesSize,
        Function.update cl.idxplus1 fdinfo (idx + 1)⟩, idx)
  else some (cl, cl.idxplus1 fdinfo - 1)

/-- The fd has no entry yet, the array is full and there is no memory. -/
def lacksRoom (cl : EventChangelist) (fdinfo : Fdinfo) : Bool :=
  cl.idxplus1 fdinfo = 0 ∧ cl.changes.length = cl.changesSize ∧ alloc = false

variable (events : EvEvents)

def touches : IoKind → Bool
  | .read => events.io .read || events.signal
  | .write => events.io .write
  | .closed => events.io .closed

def recordAdd (ch : EventChange) : EventChange :=
  { ch with change := fun k =>
      if touches events k then .add events.et events.persist events.signal else ch.change k }

def recordDel (ch : EventChange) : EventChange :=
  { ch with change := fun k =>
      if touches events k then if touches ch.oldEvents k then .del else .none else ch.change k }

def eventChangelistAdd (cl : EventChangelist) (fd : Int) (old events : EvEvents)
    (fdinfo : Fdinfo) : Int × EventChangelist :=
  match cl.getOrConstruct alloc fd old fdinfo with
  | none => (-1, cl)
  | some (cl, idx) => (0, { cl with changes := cl.changes.modify idx (recordAdd events) })

def eventChangelistDel (cl : EventChangelist) (fd : Int) (old events : EvEvents)
    (fdinfo : Fdinfo) : Int × EventChangelist :=
  match cl.getOrConstruct alloc fd old fdinfo with
  | none => (-1, cl)
  | some (cl, idx) => (0, { cl with changes := cl.changes.modify idx (recordDel events) })

end EventChangelist

def Change.apply : Change → Bool → Bool
  | .none, b => b
  | .add _ _ _, _ => true
  | .del, _ => false

def EventChange.apply (ch : EventChange) (held : Int → IoSet) : Int → IoSet :=
  Function.update held ch.fd fun k => (ch.change k).apply (held ch.fd k)

def applyChanges (changes : List EventChange) (held : Int → IoSet) : Int → IoSet :=
  changes.foldl (fun held ch => ch.apply held) held

/-- A base with a change list, the interest sets its backend had after the last commit, and
the interest sets it would have if every call had been applied at once. -/
structure ChangelistRun where
  cl : EventChangelist
  backend : Int → IoSet
  immediate : Int → IoSet

inductive ChangelistCall where
  | add (alloc : Bool) (fd : Int) (io : IoSet) (et persist : Bool)
  | del (alloc : Bool) (fd : Int) (io : IoSet)
  | commit

namespace ChangelistRun

def init (held : Int → IoSet) : ChangelistRun := ⟨EventChangelist.init, held, held⟩

/-- The `old` argument is what is enabled on the fd, as the contract of `struct eventop` asks. A call
counts as made unless it lacks the room for an entry. -/
def step (s : ChangelistRun) : ChangelistCall → ChangelistRun
  | .add alloc fd io et persist =>
    { s with
      cl := (s.cl.eventChangelistAdd alloc fd { io := s.immediate fd }
        { io := io, et := et, persist := persist } (.io fd)).2
      immediate := if s.cl.lacksRoom alloc (.io fd) then s.immediate
        else Function.update s.immediate fd ((s.immediate fd).union io) }
  | .del alloc fd io =>
    { s with
      cl := (s.cl.eventChangelistDel alloc fd { io := s.immediate fd } { io := io } (.io fd)).2
      immediate := if s.cl.lacksRoom alloc (.io fd) then s.immediate
        else Function.update s.immediate fd ((s.immediate fd).diff io) }
  | .commit => { s with cl := s.cl.removeAll, backend := applyChanges s.cl.changes s.backend }

def run (s : ChangelistRun) (calls : List ChangelistCall) : ChangelistRun := calls.foldl step s

end ChangelistRun

end MyLibevent
