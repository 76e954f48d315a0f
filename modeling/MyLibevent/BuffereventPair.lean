import MyLibevent.Bufferevent

/-!
# Bufferevent pairs

`bufferevent_pair.c` for two ends that are linked. What is written at one end is handed over to the
input of the other, from inside the callbacks of the buffers, which can suspend and unsuspend the
receiver and so hand over more. The depth of these nested calls is bounded by `fuel`; a call that
goes deeper gives nothing. The callbacks of the user are deferred and the timeouts are left out.
-/

namespace MyLibevent

/-- One end: the bufferevent, and whether the end of its input and the front of its output are
frozen. -/
structure PairEnd where
  bufev : Bufferevent
  inputFreezeEnd : Bool
  outputFreezeStart : Bool
deriving DecidableEq, Repr

abbrev BuffereventPair := Bool → PairEnd

def buffereventPairNew : BuffereventPair := fun _ => ⟨buffereventInitCommon, true, true⟩

namespace BuffereventPair

def setBufev (e : Bool) (bufev : Bufferevent) (s : BuffereventPair) : BuffereventPair :=
  Function.update s e { s e with bufev := bufev }

def wantsToTalk (s : BuffereventPair) (src dst : Bool) : Bool :=
  (s src).bufev.enabled.write && (s dst).bufev.enabled.read && (s dst).bufev.readSuspended == 0 &&
    !(s src).bufev.output.isEmpty

section Nested

-- `be_pair_transfer` from the given end to the other one
variable (transfer : Bool → BuffereventPair → Option BuffereventPair)

def bePairEnable (e : Bool) (events : IoEvents) (s : BuffereventPair) : Option BuffereventPair :=
  (if events.read && s.wantsToTalk (!e) e then transfer (!e) s else some s).bind fun s =>
    if events.write && s.wantsToTalk e (!e) then transfer e s else some s

/-- `bufferevent_ops_pair` for the end `e`. `be_pair_disable` only stops the timeouts. -/
def ops (e : Bool) : BeOps BuffereventPair where
  get s := (s e).bufev
  set bufev s := s.setBufev e bufev
  enable := bePairEnable transfer e
  disable _ s := some s

def bePairOutbufCb (e : Bool) (nAdded nDeleted : Nat) (s : BuffereventPair) : Option BuffereventPair :=
  if nAdded > nDeleted ∧ s.wantsToTalk e (!e) then transfer e s else some s

def moveBytes (src : Bool) (n : Nat) (s : BuffereventPair) : BuffereventPair :=
  let s' := s.setBufev src { (s src).bufev with output := (s src).bufev.output.drop n }
  s'.setBufev (!src)
    { (s' (!src)).bufev with
      input := (s' (!src)).bufev.input ++ (s src).bufev.output.take n }

def addBuffer (src : Bool) (s : BuffereventPair) : Option BuffereventPair :=
  let n := (s src).bufev.output.length
  if n = 0 then some s
  else if (s (!src)).inputFreezeEnd || (s src).outputFreezeStart then some s
  else
    (bePairOutbufCb transfer src 0 n (s.moveBytes src n)).bind (ops transfer (!src)).runInputCallbacks

def removeBuffer (src : Bool) (datlen : Nat) (s : BuffereventPair) : Option BuffereventPair :=
  if datlen = 0 then some s
  else if (s (!src)).inputFreezeEnd || (s src).outputFreezeStart then some s
  else if (s src).bufev.output.length ≤ datlen then addBuffer transfer src s
  else
    ((ops transfer (!src)).runInputCallbacks (s.moveBytes src datlen)).bind (bePairOutbufCb transfer src 0 datlen)

end Nested

def freeze (src v : Bool) (s : BuffereventPair) : BuffereventPair :=
  let s := Function.update s src { s src with outputFreezeStart := v }
  Function.update s (!src) { s (!src) with inputFreezeEnd := v }

def bePairTransfer (fuel : Nat) (ignoreWm : Bool) (src : Bool) (s : BuffereventPair) : Option BuffereventPair :=
  match fuel with
  | 0 => none
  | fuel + 1 =>
    let nested := bePairTransfer fuel false
    let s := s.freeze src false
    let dst := (s (!src)).bufev
    (if dst.wmRead.high ≠ 0 then
      if dst.input.length < dst.wmRead.high then
        removeBuffer nested src (dst.wmRead.high - dst.input.length) s
      else if !ignoreWm then some s
      else addBuffer nested src s
    else addBuffer nested src s).map (freeze src true)

def buffereventWrite (fuel : Nat) (e : Bool) (data : Bytes) (s : BuffereventPair) : Option BuffereventPair :=
  let s := s.setBufev e { (s e).bufev with output := (s e).bufev.output ++ data }
  bePairOutbufCb (bePairTransfer fuel false) e data.length 0 s

def buffereventRead (fuel : Nat) (e : Bool) (size : Nat) (s : BuffereventPair) : Option BuffereventPair :=
  let input := (s e).bufev.input.drop size
  if input.length = (s e).bufev.input.length then some s
  else
    (ops (bePairTransfer fuel false) e).runInputCallbacks (s.setBufev e { (s e).bufev with input := input })

end BuffereventPair

/-! ## Runs -/

inductive PairOp where
  | write (e : Bool) (data : Bytes)
  | read (e : Bool) (size : Nat)
  | enable (e : Bool) (event : IoEvents)
  | disable (e : Bool) (event : IoEvents)
  | setwatermark (e : Bool) (events : IoEvents) (lowmark highmark : Nat)

/-- A pair and what each end has written and received so far. -/
structure PairRun where
  pair : BuffereventPair
  written : Bool → Bytes
  received : Bool → Bytes

namespace PairRun
open BuffereventPair

def start : PairRun := ⟨buffereventPairNew, fun _ => [], fun _ => []⟩

def next (fuel : Nat) (s : BuffereventPair) : PairOp → Option BuffereventPair
  | .write e data => buffereventWrite fuel e data s
  | .read e size => buffereventRead fuel e size s
  | .enable e event => (ops (bePairTransfer fuel false) e).buffereventEnable event s
  | .disable e event => (ops (bePairTransfer fuel false) e).buffereventDisable event s
  | .setwatermark e events lowmark highmark =>
    (ops (bePairTransfer fuel false) e).buffereventSetwatermark events lowmark highmark s

def step (fuel : Nat) (r : PairRun) (op : PairOp) : Option PairRun :=
  (next fuel r.pair op).map fun pair =>
    { pair := pair
      written := match op with
        | .write e data => Function.update r.written e (r.written e ++ data)
        | _ => r.written
      received := match op with
        | .read e size =>
          Function.update r.received e (r.received e ++ (r.pair e).bufev.input.take size)
        | _ => r.received }

/-- No byte is lost, repeated or overtaken on the way from the end `e` to the other end. -/
def Conserved (r : PairRun) (e : Bool) : Prop :=
  r.received (!e) ++ (r.pair (!e)).bufev.input ++ (r.pair e).bufev.output = r.written e

/-- Nothing that could be handed over from the end `e` to the other end is left. -/
def Settled (r : PairRun) (e : Bool) : Prop :=
  (r.pair e).bufev.output = [] ∨ (r.pair e).bufev.enabled.write = false ∨
    (r.pair (!e)).bufev.enabled.read = false ∨
    ((r.pair (!e)).bufev.wmRead.high ≠ 0 ∧ (r.pair (!e)).bufev.wmRead.high ≤ (r.pair (!e)).bufev.input.length)

end PairRun

end MyLibevent
