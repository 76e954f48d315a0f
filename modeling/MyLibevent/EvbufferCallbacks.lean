import MyLibevent.Evbuffer

/-!
# Locks and deferred callbacks of evbuffers

The parts of `buffer.c` and `event.c` that take and release the lock of a buffer, count the references to
it and run its callbacks, at once or deferred to the loop of the base. What the functions do to the data is
left to the caller of the model: how many bytes are added and deleted, and whether a function gets as far
as `evbuffer_invoke_callbacks_`. A callback may call any of the functions. The buffers have no parent.
-/

namespace MyLibevent

abbrev LockId := Nat

/-- `struct evbuffer_cb_entry`; `cb` names the function. -/
structure CbEntry where
  cb : Nat
  enabled : Bool
  nodefer : Bool
  obsolete : Bool
  deriving DecidableEq

/-- A call of a callback with its arguments. -/
inductive CbCall
  | obsolete (cb origSize newSize : Nat)
  | func (cb origSize nAdded nDeleted : Nat)
  deriving DecidableEq

/-- A `struct evbuffer` without its data. `active` and `activeLater` are the flags of `deferred`. -/
structure CallbackBuffer where
  callbacks : List CbEntry
  totalLen : Nat
  nAddForCb : Nat
  nDelForCb : Nat
  lock : Option LockId
  deferredCbs : Bool
  refcnt : Int
  active : Bool
  activeLater : Bool

def CallbackBuffer.queued (buf : CallbackBuffer) : Bool := buf.active || buf.activeLater

/-- What the functions of `buffer.c` consist of here. `decrefAndUnlock` says who gives up the reference:
an owner or the deferred callback. -/
inductive BufferAction
  | lock (b : BufId)
  | unlock (b : BufId)
  | lock2 (b₁ b₂ : BufId)
  | unlock2 (b₁ b₂ : BufId)
  | changed (b : BufId) (added deleted : Nat)
  | invokeCallbacks (b : BufId)
  | runDeferred (b : BufId)
  | incref (b : BufId)
  | decrefAndUnlock (b : BufId) (owner : Bool)
  deriving DecidableEq

/-- A function that is running: what it has left to do, and the locks it found. -/
structure BufferCall where
  rest : List BufferAction
  found : LockId → Int

/-- Buffers with their locks and the part of the base that runs deferred callbacks. `owners` counts the
references that are not those of deferred callbacks, and `called` lists the calls of callbacks. -/
structure CallbackState where
  buf : BufId → CallbackBuffer
  depth : LockId → Int
  nDeferredsQueued : Nat
  calls : List BufferCall
  owners : BufId → Int
  called : List (BufId × CbCall)

def maxDeferredsQueued : Nat := 32

namespace CallbackState

variable (s : CallbackState)

def modifyBuf (b : BufId) (f : CallbackBuffer → CallbackBuffer) : CallbackState :=
  { s with buf := Function.update s.buf b (f (s.buf b)) }

def evlock (l : Option LockId) (n : Int) : CallbackState :=
  { s with
    depth := match l with
      | none => s.depth
      | some l => Function.update s.depth l (s.depth l + n) }

def evbufferLock (b : BufId) : CallbackState := s.evlock (s.buf b).lock 1

def evbufferUnlock (b : BufId) : CallbackState := s.evlock (s.buf b).lock (-1)

def evlock2 (l₁ l₂ : Option LockId) (n : Int) : CallbackState :=
  if l₁ = l₂ then s.evlock l₁ n else (s.evlock l₁ n).evlock l₂ n

def eventCallbackActivateLater (b : BufId) : Bool × CallbackState :=
  if (s.buf b).active || (s.buf b).activeLater then (false, s)
  else (true, s.modifyBuf b fun buf => { buf with activeLater := true })

def eventCallbackActivate (b : BufId) : Bool × CallbackState :=
  match (s.buf b).activeLater, (s.buf b).active with
  | true, _ => (false, s.modifyBuf b fun buf => { buf with activeLater := false, active := true })
  | false, true => (false, s)
  | false, false => (true, s.modifyBuf b fun buf => { buf with active := true })

def eventDeferredCbSchedule (b : BufId) : Bool × CallbackState :=
  if maxDeferredsQueued < s.nDeferredsQueued then s.eventCallbackActivateLater b
  else
    let r := s.eventCallbackActivate b
    (r.1, if r.1 then { r.2 with nDeferredsQueued := r.2.nDeferredsQueued + 1 } else r.2)

def dueCallbacks (buf : CallbackBuffer) (runningDeferred : Bool) : List CbEntry :=
  buf.callbacks.filter fun cbent =>
    if runningDeferred then cbent.enabled && !cbent.nodefer
    else if buf.deferredCbs then cbent.enabled && cbent.nodefer
    else cbent.enabled

def cbCall (buf : CallbackBuffer) (cbent : CbEntry) : CbCall :=
  let origSize := (buf.totalLen + buf.nDelForCb + (2 ^ 64 - buf.nAddForCb)) % 2 ^ 64
  if cbent.obsolete then .obsolete cbent.cb origSize buf.totalLen
  else .func cbent.cb origSize buf.nAddForCb buf.nDelForCb

def evbufferRunCallbacks (b : BufId) (runningDeferred : Bool) : CallbackState :=
  let buf := s.buf b
  let clear (s : CallbackState) := s.modifyBuf b fun buf => { buf with nAddForCb := 0, nDelForCb := 0 }
  if buf.callbacks = [] then clear s
  else if buf.nAddForCb = 0 ∧ buf.nDelForCb = 0 then s
  else
    let s := { s with
      called := s.called ++ (dueCallbacks buf runningDeferred).map fun cbent => (b, cbCall buf cbent) }
    if runningDeferred = false ∧ buf.deferredCbs then s else clear s

def evbufferIncrefAndLock (b : BufId) : CallbackState :=
  (s.evbufferLock b).modifyBuf b fun buf => { buf with refcnt := buf.refcnt + 1 }

def evbufferInvokeCallbacks (b : BufId) : CallbackState :=
  if (s.buf b).callbacks = [] then s.modifyBuf b fun buf => { buf with nAddForCb := 0, nDelForCb := 0 }
  else
    let s :=
      if (s.buf b).deferredCbs then
        let r := s.eventDeferredCbSchedule b
        let s := if r.1 then r.2.evbufferIncrefAndLock b else r.2
        s.evbufferUnlock b
      else s
    s.evbufferRunCallbacks b false

def evbufferDecrefAndUnlock (b : BufId) : CallbackState :=
  let s := s.modifyBuf b fun buf => { buf with refcnt := buf.refcnt - 1 }
  if 0 < (s.buf b).refcnt then s.evbufferUnlock b
  else
    let s := s.modifyBuf b fun buf =>
      { buf with
        callbacks := []
        active := buf.active && !buf.deferredCbs
        activeLater := buf.activeLater && !buf.deferredCbs }
    s.evbufferUnlock b

/-- An action; only a buffer with an owner is given up by an owner. -/
def act : BufferAction → Option CallbackState
  | .lock b => some (s.evbufferLock b)
  | .unlock b => some (s.evbufferUnlock b)
  | .lock2 b₁ b₂ => some (s.evlock2 (s.buf b₁).lock (s.buf b₂).lock 1)
  | .unlock2 b₁ b₂ => some (s.evlock2 (s.buf b₁).lock (s.buf b₂).lock (-1))
  | .changed b added deleted =>
    some (s.modifyBuf b fun buf =>
      { buf with
        totalLen := buf.totalLen + added - deleted
        nAddForCb := addSize buf.nAddForCb added
        nDelForCb := addSize buf.nDelForCb deleted })
  | .invokeCallbacks b => some (s.evbufferInvokeCallbacks b)
  | .runDeferred b => some (s.evbufferRunCallbacks b true)
  | .incref b =>
    some { s.modifyBuf b fun buf => { buf with refcnt := buf.refcnt + 1 } with
      owners := Function.update s.owners b (s.owners b + 1) }
  | .decrefAndUnlock b owner =>
    if owner then
      if 0 < s.owners b then
        some { s.evbufferDecrefAndUnlock b with owners := Function.update s.owners b (s.owners b - 1) }
      else none
    else some (s.evbufferDecrefAndUnlock b)

end CallbackState

section Mutators

variable (b : BufId)

/-- A function that changes one buffer under its lock, and calls `evbuffer_invoke_callbacks_` if it has
`reached` that point. -/
def changeLocked (added deleted : Nat) (reached : Bool) : List BufferAction :=
  [.lock b, .changed b added deleted] ++ (if reached then [.invokeCallbacks b] else []) ++ [.unlock b]

def evbufferAddActions (added : Nat) (reached : Bool) : List BufferAction :=
  changeLocked b added 0 reached

def evbufferPrependActions (added : Nat) (reached : Bool) : List BufferAction :=
  changeLocked b added 0 reached

def evbufferCommitSpaceActions (added : Nat) (reached : Bool) : List BufferAction :=
  changeLocked b added 0 reached

def evbufferReadActions (added : Nat) (reached : Bool) : List BufferAction :=
  changeLocked b added 0 reached

def evbufferAddVprintfActions (added : Nat) (reached : Bool) : List BufferAction :=
  changeLocked b added 0 reached

def evbufferAddReferenceActions (added : Nat) (reached : Bool) : List BufferAction :=
  changeLocked b added 0 reached

def evbufferAddFileSegmentActions (added : Nat) (reached : Bool) : List BufferAction :=
  changeLocked b added 0 reached

def evbufferDrainActions (deleted : Nat) (reached : Bool) : List BufferAction :=
  changeLocked b 0 deleted reached

/-- `evbuffer_copyout_from`, and the other functions that only look at a buffer. -/
def evbufferCopyoutActions : List BufferAction := [.lock b, .unlock b]

def evbufferRemoveActions (deleted : Nat) (reached : Bool) : List BufferAction :=
  [.lock b] ++ evbufferCopyoutActions b ++ (if 0 < deleted then evbufferDrainActions b deleted reached else []) ++
    [.unlock b]

def evbufferWriteActions (deleted : Nat) (reached : Bool) : List BufferAction :=
  [.lock b] ++ (if 0 < deleted then evbufferDrainActions b deleted reached else []) ++ [.unlock b]

def evbufferReadlnActions (found : Option (Nat × Nat)) (reached : Bool) : List BufferAction :=
  [.lock b] ++ (match found with
    | none => []
    | some (line, eol) => evbufferRemoveActions b line reached ++ evbufferDrainActions b eol reached) ++ [.unlock b]

def evbufferAddIovecActions (added : List Nat) : List BufferAction :=
  [.lock b] ++ added.flatMap (fun n => evbufferAddActions b n true) ++ [.unlock b]

def moveLocked (outbuf inbuf : BufId) (moved : Nat) (reached : Bool) : List BufferAction :=
  [.lock2 inbuf outbuf] ++
    (if reached then
      [.changed inbuf 0 moved, .changed outbuf moved 0, .invokeCallbacks inbuf, .invokeCallbacks outbuf]
    else []) ++ [.unlock2 inbuf outbuf]

def evbufferAddBufferActions (outbuf inbuf : BufId) (moved : Nat) (reached : Bool) : List BufferAction :=
  moveLocked outbuf inbuf moved reached

def evbufferPrependBufferActions (outbuf inbuf : BufId) (moved : Nat) (reached : Bool) : List BufferAction :=
  moveLocked outbuf inbuf moved reached

def evbufferAddBufferReferenceActions (outbuf inbuf : BufId) (chains added : Nat) (reached : Bool) :
    List BufferAction :=
  [.lock2 inbuf outbuf] ++
    (if reached then
      (List.replicate chains [.lock inbuf, .incref inbuf, .unlock inbuf]).flatten ++
        [.changed outbuf added 0, .invokeCallbacks outbuf]
    else []) ++ [.unlock2 inbuf outbuf]

/-- `evbuffer_remove_buffer` when some data stays behind: whole chains with `moved` bytes change hands,
`copied` bytes are added to the other buffer. -/
def evbufferRemoveBufferActions (src dst : BufId) (moved copied : Nat) (reached : Bool) : List BufferAction :=
  [.lock2 src dst, .changed dst moved 0] ++ evbufferAddActions dst copied reached ++
    [.changed src 0 (moved + copied)] ++
    (if moved + copied ≠ 0 then [.invokeCallbacks dst, .invokeCallbacks src] else []) ++ [.unlock2 src dst]

def evbufferRemoveWholeBufferActions (src dst : BufId) (moved : Nat) (reached : Bool) : List BufferAction :=
  [.lock2 src dst] ++ evbufferAddBufferActions dst src moved reached ++ [.unlock2 src dst]

def evbufferIncrefActions : List BufferAction := [.lock b, .incref b, .unlock b]

def evbufferFreeActions : List BufferAction := [.lock b, .decrefAndUnlock b true]

def evbufferDeferredCallbackActions : List BufferAction :=
  [.lock b, .runDeferred b, .decrefAndUnlock b false]

end Mutators

inductive BufferFunction
  | add (b : BufId) (added : Nat) (reached : Bool)
  | prepend (b : BufId) (added : Nat) (reached : Bool)
  | commitSpace (b : BufId) (added : Nat) (reached : Bool)
  | read (b : BufId) (added : Nat) (reached : Bool)
  | addVprintf (b : BufId) (added : Nat) (reached : Bool)
  | addReference (b : BufId) (added : Nat) (reached : Bool)
  | addFileSegment (b : BufId) (added : Nat) (reached : Bool)
  | drain (b : BufId) (deleted : Nat) (reached : Bool)
  | copyout (b : BufId)
  | remove (b : BufId) (deleted : Nat) (reached : Bool)
  | write (b : BufId) (deleted : Nat) (reached : Bool)
  | readln (b : BufId) (found : Option (Nat × Nat)) (reached : Bool)
  | addIovec (b : BufId) (added : List Nat)
  | addBuffer (outbuf inbuf : BufId) (moved : Nat) (reached : Bool)
  | prependBuffer (outbuf inbuf : BufId) (moved : Nat) (reached : Bool)
  | addBufferReference (outbuf inbuf : BufId) (chains added : Nat) (reached : Bool)
  | removeBuffer (src dst : BufId) (moved copied : Nat) (reached : Bool)
  | removeWholeBuffer (src dst : BufId) (moved : Nat) (reached : Bool)
  | incref (b : BufId)
  | free (b : BufId)

def BufferFunction.actions : BufferFunction → List BufferAction
  | .add b added reached => evbufferAddActions b added reached
  | .prepend b added reached => evbufferPrependActions b added reached
  | .commitSpace b added reached => evbufferCommitSpaceActions b added reached
  | .read b added reached => evbufferReadActions b added reached
  | .addVprintf b added reached => evbufferAddVprintfActions b added reached
  | .addReference b added reached => evbufferAddReferenceActions b added reached
  | .addFileSegment b added reached => evbufferAddFileSegmentActions b added reached
  | .drain b deleted reached => evbufferDrainActions b deleted reached
  | .copyout b => evbufferCopyoutActions b
  | .remove b deleted reached => evbufferRemoveActions b deleted reached
  | .write b deleted reached => evbufferWriteActions b deleted reached
  | .readln b found reached => evbufferReadlnActions b found reached
  | .addIovec b added => evbufferAddIovecActions b added
  | .addBuffer outbuf inbuf moved reached => evbufferAddBufferActions outbuf inbuf moved reached
  | .prependBuffer outbuf inbuf moved reached => evbufferPrependBufferActions outbuf inbuf moved reached
  | .addBufferReference outbuf inbuf chains added reached =>
    evbufferAddBufferReferenceActions outbuf inbuf chains added reached
  | .removeBuffer src dst moved copied reached => evbufferRemoveBufferActions src dst moved copied reached
  | .removeWholeBuffer src dst moved reached => evbufferRemoveWholeBufferActions src dst moved reached
  | .incref b => evbufferIncrefActions b
  | .free b => evbufferFreeActions b

/-- What can happen: the program or a callback calls a function, a function goes on or returns, the loop
runs a deferred callback or makes it active, the number of queued callbacks of the base changes in another
way, and callbacks are added and removed. -/
inductive BufferEvent
  | call (f : BufferFunction)
  | exec
  | fire (b : BufId)
  | makeLaterActive (b : BufId)
  | deferreds (n : Nat)
  | setCallbacks (b : BufId) (callbacks : List CbEntry)

namespace CallbackState

variable (s : CallbackState)

def enter (actions : List BufferAction) : CallbackState :=
  { s with calls := ⟨actions, s.depth⟩ :: s.calls }

def step : BufferEvent → Option CallbackState
  | .call f => some (s.enter f.actions)
  | .exec =>
    match s.calls with
    | [] => none
    | ⟨[], _⟩ :: calls => some { s with calls := calls }
    | ⟨action :: rest, found⟩ :: calls => { s with calls := ⟨rest, found⟩ :: calls }.act action
  | .fire b =>
    if (s.buf b).active then
      some ((s.modifyBuf b fun buf => { buf with active := false }).enter (evbufferDeferredCallbackActions b))
    else none
  | .makeLaterActive b =>
    if (s.buf b).activeLater then
      some { s.modifyBuf b fun buf => { buf with activeLater := false, active := true } with
        nDeferredsQueued := s.nDeferredsQueued + 1 }
    else none
  | .deferreds n => some { s with nDeferredsQueued := n }
  | .setCallbacks b callbacks => some (s.modifyBuf b fun buf => { buf with callbacks := callbacks })

/-- No function runs, no callback is deferred, and the references are the owners'. -/
structure Fresh (s : CallbackState) : Prop where
  calls : s.calls = []
  refcnt : ∀ b, (s.buf b).refcnt = s.owners b
  owners : ∀ b, 0 ≤ s.owners b
  idle : ∀ b, (s.buf b).queued = false

def running (b : BufId) : Nat :=
  (s.calls.map fun call => call.rest.count (.decrefAndUnlock b false)).sum

/-- A function that returns has left the locks as it found them, and a buffer is referred to by its owners
and by its deferred callback. -/
structure Balanced (s : CallbackState) : Prop where
  depth : ∀ call ∈ s.calls.head?, call.rest = [] → s.depth = call.found
  refcnt : ∀ b, (s.buf b).refcnt = s.owners b + (if (s.buf b).queued then 1 else 0) + s.running b

end CallbackState

end MyLibevent
