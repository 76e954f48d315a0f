import MyLibevent.Bytes

/-!
# Bufferevents

The functions of `bufferevent.c` that all kinds of bufferevents share. A buffer is the list of its
bytes. The functions work on a state `σ` that may hold more than the bufferevent, since an operation
can reach other objects through the functions of `be_ops`.
-/

namespace MyLibevent

/-- The `EV_READ` and `EV_WRITE` bits of a mask. -/
structure IoEvents where
  read : Bool
  write : Bool
deriving DecidableEq, Repr

def evRead : IoEvents := ⟨true, false⟩

def evWrite : IoEvents := ⟨false, true⟩

/-- `struct event_watermark`; a `high` of 0 sets no limit. -/
structure EventWatermark where
  low : Nat
  high : Nat
deriving DecidableEq, Repr

/-- The `BEV_SUSPEND_*` reasons. -/
inductive SuspendFlag where
  | wm
  | bw
  | bwGroup
  | lookup
  | filtRead
deriving DecidableEq, Repr

def SuspendFlag.bit : SuspendFlag → UInt16
  | .wm => 0x01
  | .bw => 0x02
  | .bwGroup => 0x04
  | .lookup => 0x08
  | .filtRead => 0x10

/-- `struct bufferevent` and the fields of `struct bufferevent_private` for suspending. Of the
callback for the read watermark it is known whether it is enabled, once there is one. -/
structure Bufferevent where
  enabled : IoEvents
  input : Bytes
  output : Bytes
  wmRead : EventWatermark
  wmWrite : EventWatermark
  readSuspended : UInt16
  writeSuspended : UInt16
  readWatermarksCb : Option Bool
deriving DecidableEq, Repr

def buffereventInitCommon : Bufferevent :=
  ⟨evWrite, [], [], ⟨0, 0⟩, ⟨0, 0⟩, 0, 0, none⟩

/-- A bufferevent in a state, with the functions of its `be_ops`. A call that does not return gives
nothing. -/
structure BeOps (σ : Type) where
  get : σ → Bufferevent
  set : Bufferevent → σ → σ
  enable : IoEvents → σ → Option σ
  disable : IoEvents → σ → Option σ

namespace BeOps

variable {σ : Type} (ops : BeOps σ)
variable (what : SuspendFlag)

def suspendRead (s : σ) : Option σ :=
  (if (ops.get s).readSuspended = 0 then ops.disable evRead s else some s).map fun s =>
    let bufev := ops.get s
    ops.set { bufev with readSuspended := bufev.readSuspended ||| what.bit } s

def unsuspendRead (s : σ) : Option σ :=
  let bufev := ops.get s
  let readSuspended := bufev.readSuspended &&& ~~~what.bit
  let s := ops.set { bufev with readSuspended := readSuspended } s
  if readSuspended = 0 ∧ bufev.enabled.read then ops.enable evRead s else some s

def suspendWrite (s : σ) : Option σ :=
  (if (ops.get s).writeSuspended = 0 then ops.disable evWrite s else some s).map fun s =>
    let bufev := ops.get s
    ops.set { bufev with writeSuspended := bufev.writeSuspended ||| what.bit } s

def unsuspendWrite (s : σ) : Option σ :=
  let bufev := ops.get s
  let writeSuspended := bufev.writeSuspended &&& ~~~what.bit
  let s := ops.set { bufev with writeSuspended := writeSuspended } s
  if writeSuspended = 0 ∧ bufev.enabled.write then ops.enable evWrite s else some s

def inbufWmCb (s : σ) : Option σ :=
  if (ops.get s).wmRead.high ≤ (ops.get s).input.length then ops.suspendRead .wm s
  else ops.unsuspendRead .wm s

def runInputCallbacks (s : σ) : Option σ :=
  if (ops.get s).readWatermarksCb = some true then ops.inbufWmCb s else some s

def buffereventEnable (event : IoEvents) (s : σ) : Option σ :=
  let bufev := ops.get s
  let implEvents : IoEvents :=
    ⟨event.read && bufev.readSuspended == 0, event.write && bufev.writeSuspended == 0⟩
  let s := ops.set
    { bufev with
      enabled := ⟨bufev.enabled.read || event.read, bufev.enabled.write || event.write⟩ } s
  if implEvents.read || implEvents.write then ops.enable implEvents s else some s

def buffereventDisable (event : IoEvents) (s : σ) : Option σ :=
  let bufev := ops.get s
  ops.disable event (ops.set
    { bufev with
      enabled := ⟨bufev.enabled.read && !event.read, bufev.enabled.write && !event.write⟩ } s)

def setReadWatermark (lowmark highmark : Nat) (s : σ) : Option σ :=
  let bufev := { ops.get s with wmRead := ⟨lowmark, highmark⟩ }
  if highmark ≠ 0 then
    -- the callback is there from now on, and enabled
    let s := ops.set { bufev with readWatermarksCb := some true } s
    if highmark ≤ bufev.input.length then ops.suspendRead .wm s else ops.unsuspendRead .wm s
  else
    ops.unsuspendRead .wm (ops.set { bufev with readWatermarksCb := bufev.readWatermarksCb.map fun _ => false } s)

def buffereventSetwatermark (events : IoEvents) (lowmark highmark : Nat) (s : σ) : Option σ :=
  let s := if events.write then ops.set { ops.get s with wmWrite := ⟨lowmark, highmark⟩ } s else s
  if events.read then ops.setReadWatermark lowmark highmark s else some s

end BeOps

end MyLibevent
