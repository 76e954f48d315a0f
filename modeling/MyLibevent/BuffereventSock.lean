import MyLibevent.Bufferevent
import MyLibevent.RateLimit

/-!
# Socket bufferevents

`bufferevent_sock.c`, where `event_add` succeeds. What the rate limits do to the suspension of a
direction while a callback asks for the maximum or pays for the bytes is a list of calls that the
callback is given, and so is what the system calls return. The callbacks of the user come last in
each function; what they do are operations of their own.
-/

namespace MyLibevent

/-- `ev_read` or `ev_write`: added to the base, with a timeout or not. -/
structure SocketEvent where
  pending : Bool
  timer : Bool
deriving DecidableEq, Repr

/-- A socket bufferevent with its two events. -/
structure SocketBev where
  bufev : Bufferevent
  evRead : SocketEvent
  evWrite : SocketEvent
  timeoutRead : Timeval
  timeoutWrite : Timeval
  connecting : Bool
  connectionRefused : Bool
  fd : Int
deriving DecidableEq, Repr

def timerIsset (tv : Timeval) : Bool := tv.sec != 0 || tv.usec != 0

def buffereventAddEvent (ev : SocketEvent) (tv : Timeval) : SocketEvent :=
  if timerIsset tv then ⟨true, true⟩ else { ev with pending := true }

def socketEventDel : SocketEvent := ⟨false, false⟩

def beSocketEnable (event : IoEvents) (s : SocketBev) : SocketBev :=
  { s with
    evRead := if event.read then buffereventAddEvent s.evRead s.timeoutRead else s.evRead
    evWrite := if event.write then buffereventAddEvent s.evWrite s.timeoutWrite else s.evWrite }

def beSocketDisable (event : IoEvents) (s : SocketBev) : SocketBev :=
  { s with
    evRead := if event.read then socketEventDel else s.evRead
    evWrite := if event.write && !s.connecting then socketEventDel else s.evWrite }

def buffereventOpsSocket : BeOps SocketBev where
  get := SocketBev.bufev
  set bufev s := { s with bufev := bufev }
  enable event s := some (beSocketEnable event s)
  disable event s := some (beSocketDisable event s)

def buffereventSocketNew (fd : Int) : SocketBev :=
  ⟨buffereventInitCommon, ⟨false, false⟩, ⟨false, false⟩, ⟨0, 0⟩, ⟨0, 0⟩, false, false, fd⟩

def buffereventSocketOutbufCb (nAdded : Nat) (s : SocketBev) : SocketBev :=
  if nAdded ≠ 0 ∧ s.bufev.enabled.write ∧ s.evWrite.pending = false ∧
      s.bufev.writeSuspended = 0 then
    { s with evWrite := buffereventAddEvent s.evWrite s.timeoutWrite }
  else s

def socketWrite (data : Bytes) (s : SocketBev) : SocketBev :=
  buffereventSocketOutbufCb data.length
    { s with bufev := { s.bufev with output := s.bufev.output ++ data } }

def changeInput (input : Bytes) (s : SocketBev) : Option SocketBev :=
  if input.length = s.bufev.input.length then some s
  else buffereventOpsSocket.runInputCallbacks { s with bufev := { s.bufev with input := input } }

def adjExistingTimeout (ev : SocketEvent) (tv : Timeval) : SocketEvent :=
  if ev.pending then
    if timerIsset tv then buffereventAddEvent ev tv else { ev with timer := false }
  else ev

def buffereventSetTimeouts (tvRead tvWrite : Option Timeval) (s : SocketBev) : SocketBev :=
  let timeoutRead := tvRead.getD ⟨0, 0⟩
  let timeoutWrite := tvWrite.getD ⟨0, 0⟩
  { s with
    timeoutRead := timeoutRead
    timeoutWrite := timeoutWrite
    evRead := adjExistingTimeout s.evRead timeoutRead
    evWrite := adjExistingTimeout s.evWrite timeoutWrite }

/-- What the rate limits ask for. -/
inductive LimitCall where
  | suspend (what : SuspendFlag)
  | unsuspend (what : SuspendFlag)
deriving DecidableEq, Repr

variable (s : SocketBev)

def readLimitCall : LimitCall → Option SocketBev
  | .suspend what => buffereventOpsSocket.suspendRead what s
  | .unsuspend what => buffereventOpsSocket.unsuspendRead what s

def writeLimitCall : LimitCall → Option SocketBev
  | .suspend what => buffereventOpsSocket.suspendWrite what s
  | .unsuspend what => buffereventOpsSocket.unsuspendWrite what s

/-- What `evbuffer_read` finds. -/
inductive SocketRead where
  | data (bytes : Bytes)
  | retriable
  | refused
  | error
deriving DecidableEq, Repr

def finishRead (res : SocketRead) (paid : List LimitCall) (s : SocketBev) : Option SocketBev :=
  match res with
  | .retriable => some s
  | .refused => some { s with connectionRefused := true }
  | .error => buffereventOpsSocket.buffereventDisable evRead s
  | .data [] => buffereventOpsSocket.buffereventDisable evRead s
  | .data bytes => do
    let s ← changeInput (s.bufev.input ++ bytes) s
    paid.foldlM readLimitCall s

/-- `bufferevent_readcb`; `timeout` tells whether the event is `EV_TIMEOUT` alone. -/
def buffereventReadcb (timeout : Bool) (asked : List LimitCall) (res : SocketRead)
    (paid : List LimitCall) (s : SocketBev) : Option SocketBev :=
  if timeout then buffereventOpsSocket.buffereventDisable evRead s
  else
    let howmuch := toSsize (s.bufev.wmRead.high - s.bufev.input.length)
    if s.bufev.wmRead.high ≠ 0 ∧ howmuch ≤ 0 then buffereventOpsSocket.suspendRead .wm s
    else do
      let s ← asked.foldlM readLimitCall s
      if s.bufev.readSuspended ≠ 0 then some s else finishRead res paid s

/-- What comes of `evbuffer_write_atmost`. -/
inductive SocketWrite where
  | wrote (n : Nat)
  | retriable
  | error
deriving DecidableEq, Repr

def stopIfDrained : SocketBev :=
  if s.bufev.output = [] then { s with evWrite := socketEventDel } else s

def finishWrite (res : SocketWrite) (paid : List LimitCall) (s : SocketBev) : Option SocketBev :=
  if s.bufev.output = [] then some (stopIfDrained s)
  else
    match res with
    | .retriable => some (stopIfDrained s)
    | .error => buffereventOpsSocket.buffereventDisable evWrite s
    | .wrote 0 => buffereventOpsSocket.buffereventDisable evWrite s
    | .wrote n => do
      let s := buffereventSocketOutbufCb 0
        { s with bufev := { s.bufev with output := s.bufev.output.drop n } }
      let s ← paid.foldlM writeLimitCall s
      some (stopIfDrained s)

/-- The part of `bufferevent_writecb` for a socket that is connecting: the state and whether to go
on. `finished` is what `evutil_socket_finished_connecting_` gives. -/
def finishConnecting (finished : Int) (s : SocketBev) : SocketBev × Bool :=
  if s.connecting then
    let c := if s.connectionRefused then -1 else finished
    let s := { s with connectionRefused := false }
    if c = 0 then (s, false)
    else
      let s := { s with connecting := false }
      if c < 0 then ({ s with evWrite := socketEventDel, evRead := socketEventDel }, false)
      else if s.bufev.enabled.write = false ∨ s.bufev.writeSuspended ≠ 0 then
        ({ s with evWrite := socketEventDel }, false)
      else (s, true)
  else (s, true)

def buffereventWritecb (timeout : Bool) (finished : Int) (asked : List LimitCall)
    (res : SocketWrite) (paid : List LimitCall) (s : SocketBev) : Option SocketBev :=
  if timeout then buffereventOpsSocket.buffereventDisable evWrite s
  else
    match finishConnecting finished s with
    | (s, false) => some s
    | (s, true) => do
      let s ← asked.foldlM writeLimitCall s
      if s.bufev.writeSuspended ≠ 0 then some s else finishWrite res paid s

def beSocketSetfd (fd : Int) (s : SocketBev) : Option SocketBev :=
  let s := { s with evRead := socketEventDel, evWrite := socketEventDel, fd := fd }
  if 0 ≤ fd then buffereventOpsSocket.buffereventEnable s.bufev.enabled s else some s

/-! ## Runs -/

inductive SocketOp where
  | enable (event : IoEvents)
  | disable (event : IoEvents)
  | suspendRead (what : SuspendFlag)
  | unsuspendRead (what : SuspendFlag)
  | suspendWrite (what : SuspendFlag)
  | unsuspendWrite (what : SuspendFlag)
  | setwatermark (events : IoEvents) (lowmark highmark : Nat)
  | setTimeouts (tvRead tvWrite : Option Timeval)
  | write (data : Bytes)
  | read (n : Nat)
  | readcb (timeout : Bool) (asked : List LimitCall) (res : SocketRead) (paid : List LimitCall)
  | writecb (timeout : Bool) (finished : Int) (asked : List LimitCall) (res : SocketWrite) (paid : List LimitCall)
  | setfd (fd : Nat)

/-- One operation. The callback of an event runs only while the event is pending. -/
def SocketBev.step : SocketOp → Option SocketBev
  | .enable event => buffereventOpsSocket.buffereventEnable event s
  | .disable event => buffereventOpsSocket.buffereventDisable event s
  | .suspendRead what => buffereventOpsSocket.suspendRead what s
  | .unsuspendRead what => buffereventOpsSocket.unsuspendRead what s
  | .suspendWrite what => buffereventOpsSocket.suspendWrite what s
  | .unsuspendWrite what => buffereventOpsSocket.unsuspendWrite what s
  | .setwatermark events lowmark highmark =>
    buffereventOpsSocket.buffereventSetwatermark events lowmark highmark s
  | .setTimeouts tvRead tvWrite => some (buffereventSetTimeouts tvRead tvWrite s)
  | .write data => some (socketWrite data s)
  | .read n => changeInput (s.bufev.input.drop n) s
  | .readcb timeout asked res paid =>
    if s.evRead.pending then buffereventReadcb timeout asked res paid s else none
  | .writecb timeout finished asked res paid =>
    if s.evWrite.pending then buffereventWritecb timeout finished asked res paid s else none
  | .setfd fd => beSocketSetfd fd s

/-- Reading is waited for if and only if it is enabled and not suspended, and output that may be
written is waited for. -/
def SocketBev.Waiting : Prop :=
  (s.evRead.pending ↔ s.bufev.enabled.read ∧ s.bufev.readSuspended = 0) ∧
    (s.bufev.output ≠ [] → s.bufev.enabled.write → s.bufev.writeSuspended = 0 → s.evWrite.pending)

/-! ## Reads and the read watermark -/

def evbufferMaxRead : Int := 4096

/-- The most that `evbuffer_read` reads; `readable` is what `get_n_bytes_readable_on_socket` gives. -/
def evbufferReadLimit (howmuch readable : Int) : Int :=
  let n := if readable ≤ 0 ∨ evbufferMaxRead < readable then evbufferMaxRead else readable
  if howmuch < 0 ∨ n < howmuch then n else howmuch

/-- The `howmuch` that `bufferevent_readcb` gives to `evbuffer_read`, which takes an `int`. -/
def readcbHowmuch (readmax : Nat) (bufev : Bufferevent) : Int :=
  let howmuch := if bufev.wmRead.high ≠ 0 then toSsize (bufev.wmRead.high - bufev.input.length) else -1
  cInt (if howmuch < 0 ∨ readmax < howmuch then readmax else howmuch)

def SocketRead.upTo (limit : Int) : SocketRead → SocketRead
  | .data bytes => .data (bytes.take limit.toNat)
  | res => res

/-- The rate limits suspend with flags of their own. -/
def LimitCall.bandwidth : LimitCall → Bool
  | .suspend what | .unsuspend what => what == .bw || what == .bwGroup

inductive WatermarkOp where
  | enable (event : IoEvents)
  | disable (event : IoEvents)
  | setwatermark (events : IoEvents) (lowmark highmark : Nat)
  | changeInput (input : Bytes)
  | readcb (timeout : Bool) (asked : List LimitCall) (readmax : Nat) (readable : Int) (res : SocketRead)
      (paid : List LimitCall)

def SocketBev.watermarkStep : WatermarkOp → Option SocketBev
  | .enable event => s.step (.enable event)
  | .disable event => s.step (.disable event)
  | .setwatermark events lowmark highmark => s.step (.setwatermark events lowmark highmark)
  | .changeInput input => MyLibevent.changeInput input s
  | .readcb timeout asked readmax readable res paid =>
    if (asked ++ paid).all LimitCall.bandwidth then
      s.step (.readcb timeout asked (res.upTo (evbufferReadLimit (readcbHowmuch readmax s.bufev) readable)) paid)
    else none

def SocketBev.WatermarkExact : Prop :=
  s.bufev.readSuspended &&& SuspendFlag.wm.bit ≠ 0 ↔
    s.bufev.wmRead.high ≠ 0 ∧ s.bufev.wmRead.high ≤ s.bufev.input.length

/-- Where the room below the watermark is a positive `ev_ssize_t`, or there is none. -/
def SocketBev.RoomFits : WatermarkOp → Prop
  | .readcb false .. => s.bufev.wmRead.high < s.bufev.input.length + 2 ^ 63
  | _ => True

end MyLibevent
