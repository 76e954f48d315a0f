import MyLibevent.Getaddrinfo
import MyLibevent.Lib.Runs
import MyLibevent.Lines

/-!
# The requests of a resolver

The part of `evdns.c` that moves requests between its lists: the requests in flight, filed in
`req_heads` by transaction id, the waiting queue, and the nameservers requests are assigned to.

A request is known by its handle (`struct evdns_request`); no two requests in the lists have the same
one. The circular lists are lists that begin at their head. The random number generator and the
sockets are given by what they will return; memory is always available except in `request_new`, where
`build` says for which names a request can be made. A nameserver that
`evdns_base_clear_nameservers_and_suspend` has freed keeps its value: requests
may still be assigned to it while the probes of the others are cancelled, and the scheduled callback
of its own probe may still run.
-/

namespace MyLibevent

open Function

/-- `struct search_state`. -/
structure SearchState where
  domains : List Bytes
  ndots : Int

/-- `struct evdns_request`: the caller's handle, with its search. -/
structure DnsHandle where
  currentReq : Bool
  pendingCb : Bool
  searchState : Option SearchState
  searchIndex : Int
  searchOrigname : Bytes

inductive QueryType where
  | a
  | aaaa
  | ptr
  deriving DecidableEq

/-- `struct request`, without its packet. A request with the callback `nameserver_probe_callback` has
the nameserver in `probeOf`. -/
structure PendingRequest where
  transId : UInt16
  ns : Option Nat
  txCount : Nat
  reissueCount : Nat
  transmitMe : Bool
  /-- `timeout_event` is pending. -/
  timer : Bool
  requestType : QueryType
  probeOf : Option Nat

/-- `struct nameserver`; its `state` is up or down. -/
structure Nameserver where
  state : Bool
  timedout : Nat
  choked : Bool
  probeRequest : Option Nat
  /-- `timeout_event`, for the next probe, is pending. -/
  probeTimer : Bool
  requestsInflight : Int

/-- What comes of sending a packet: it is sent, the socket is not ready or takes part of it, or
there is an error. -/
inductive SendResult where
  | sent
  | again
  | failed
  deriving DecidableEq

/-- The settings of `struct evdns_base`. -/
structure DnsConfig where
  globalMaxReissues : Nat
  globalMaxRetransmits : Nat
  globalMaxNameserverTimeout : Nat
  disableWhenInactive : Bool
  globalSearchState : Option SearchState

/-- What the code meets: random ids, results of sending, names that can be sent. -/
structure DnsWorld where
  rng : List UInt16
  sends : List SendResult
  build : Bytes → Bool

/-- `struct evdns_base` and the memory of its requests, handles and nameservers. The last field says
whether the base has been suspended and not yet resumed with a nameserver. -/
structure DnsBase where
  config : DnsConfig
  world : DnsWorld
  reqHeads : List (List Nat)
  reqWaiting : List Nat
  /-- The nameservers, from `server_head` on. -/
  servers : List Nat
  globalGoodNameservers : Int
  globalRequestsInflight : Int
  globalRequestsWaiting : Int
  globalMaxRequestsInflight : Int
  req : Nat → PendingRequest
  handle : Nat → DnsHandle
  ns : Nat → Nameserver
  nextHandle : Nat
  nextServer : Nat
  /-- The scheduled calls of `nameserver_probe_callback`. -/
  probeCallbacks : List (Nat × DnsErr)
  suspended : Bool

namespace DnsBase

section Fields

variable (base : DnsBase)

def updateReq (h : Nat) (f : PendingRequest → PendingRequest) : DnsBase :=
  { base with req := update base.req h (f (base.req h)) }

def updateHandle (h : Nat) (f : DnsHandle → DnsHandle) : DnsBase :=
  { base with handle := update base.handle h (f (base.handle h)) }

def updateNs (s : Nat) (f : Nameserver → Nameserver) : DnsBase :=
  { base with ns := update base.ns s (f (base.ns s)) }

def inflight : List Nat := base.reqHeads.flatten

def reqHead (transId : UInt16) : Nat := transId.toNat % base.reqHeads.length

def insertInflight (h : Nat) : DnsBase :=
  { base with
    reqHeads := base.reqHeads.modify (base.reqHead (base.req h).transId) (· ++ [h]) }

def removeInflight (h : Nat) : DnsBase :=
  { base with
    reqHeads := base.reqHeads.modify (base.reqHead (base.req h).transId) (·.erase h) }

end Fields

section Picks

def requestFindFromTransId (base : DnsBase) (transId : UInt16) : Option Nat :=
  (base.reqHeads.getD (base.reqHead transId) []).find? fun h => (base.req h).transId = transId

/-- The loop of `transaction_id_pick` over what the generator gives: the id, and what it gives next. -/
def pickFrom (base : DnsBase) : List UInt16 → Option (UInt16 × List UInt16)
  | [] => none
  | transId :: rest =>
    if transId = 0xffff then pickFrom base rest
    else if (base.requestFindFromTransId transId).isNone then some (transId, rest)
    else pickFrom base rest

/-- `transaction_id_pick`; it does not return if the generator gives no usable id. -/
def transactionIdPick (base : DnsBase) : Option (UInt16 × DnsBase) :=
  (base.pickFrom base.world.rng).map fun p =>
    (p.1, { base with world := { base.world with rng := p.2 } })

def nameserverPick (base : DnsBase) : Option Nat × DnsBase :=
  match base.servers with
  | [] => (none, base)
  | s :: rest =>
    if base.globalGoodNameservers = 0 then
      ((rest ++ [s]).head?, { base with servers := rest ++ [s] })
    else
      let down := base.servers.takeWhile fun s => !(base.ns s).state
      match base.servers.dropWhile fun s => !(base.ns s).state with
      | picked :: after => (some picked, { base with servers := after ++ down ++ [picked] })
      | [] => (some s, { base with servers := rest ++ [s] })

end Picks

section Nameservers

variable (base : DnsBase)

def requestSwapNs (h : Nat) (ns : Option Nat) : DnsBase :=
  match ns, (base.req h).ns with
  | some new, some old =>
    if old = new then base
    else
      ((base.updateNs old fun ns => { ns with requestsInflight := ns.requestsInflight - 1 }).updateNs
        new fun ns => { ns with requestsInflight := ns.requestsInflight + 1 }).updateReq
        h fun req => { req with ns := some new }
  | _, _ => base

/-- The step of `nameserver_failed` for one request: if it still waits to go out, it is moved to
another server. -/
def reassign (s : Nat) (base : DnsBase) (h : Nat) : DnsBase :=
  if (base.req h).txCount = 0 ∧ (base.req h).ns = some s then
    let (picked, base) := base.nameserverPick
    base.requestSwapNs h picked
  else base

def nameserverFailed (s : Nat) : DnsBase :=
  if (base.ns s).state = false then base
  else
    let base := { base with globalGoodNameservers := base.globalGoodNameservers - 1 }
    let base := base.updateNs s fun ns => { ns with state := false, probeTimer := true }
    if base.globalGoodNameservers = 0 then base
    else base.inflight.foldl (reassign s) base

def nextSend : SendResult × DnsBase :=
  match base.world.sends with
  | [] => (.sent, base)
  | r :: rest => (r, { base with world := { base.world with sends := rest } })

def evdnsRequestTransmit (h : Nat) : DnsBase :=
  let base := base.updateReq h fun req => { req with transmitMe := true }
  match (base.req h).ns with
  | none => base
  | some s =>
    if (base.ns s).choked then base
    else
      let (result, base) := base.nextSend
      match result with
      | .again => base.updateNs s fun ns => { ns with choked := true }
      | .failed =>
        (base.nameserverFailed s).updateReq h fun req =>
          { req with timer := true, txCount := req.txCount + 1, transmitMe := false }
      | .sent =>
        base.updateReq h fun req =>
          { req with timer := true, txCount := req.txCount + 1, transmitMe := false }

def evdnsTransmit : DnsBase :=
  base.inflight.foldl (fun base h => if (base.req h).transmitMe then base.evdnsRequestTransmit h else base) base

end Nameservers

section Queues

variable (base : DnsBase)

/-- One turn of the loop of `evdns_requests_pump_waiting_queue`, for the first of the waiting
requests and the nameserver that was picked for it. -/
def promote (h s : Nat) : Option DnsBase := do
  let base := base.updateReq h fun req => { req with ns := some s }
  let base := base.updateNs s fun ns => { ns with requestsInflight := ns.requestsInflight + 1 }
  let base := { base with
    reqWaiting := base.reqWaiting.erase h
    globalRequestsWaiting := base.globalRequestsWaiting - 1
    globalRequestsInflight := base.globalRequestsInflight + 1 }
  let (transId, base) ← base.transactionIdPick
  let base := base.updateReq h fun req => { req with transId := transId }
  let base := base.insertInflight h
  some (base.evdnsRequestTransmit h).evdnsTransmit

/-- The loop of `evdns_requests_pump_waiting_queue`, with as many turns as requests wait. It ends the
process if the count of the waiting requests and their list disagree. -/
def pumpLoop : Nat → DnsBase → Option DnsBase
  | turns, base =>
    if base.globalRequestsInflight < base.globalMaxRequestsInflight ∧ base.globalRequestsWaiting ≠ 0 then
      match turns, base.reqWaiting with
      | turns + 1, h :: _ =>
        match base.nameserverPick with
        | (none, base) => some base
        | (some s, base) => (base.promote h s).bind (pumpLoop turns)
      | _, _ => none
    else some base

def pumpWaitingQueue : Option DnsBase := pumpLoop base.reqWaiting.length base

def unlinkRequest (h : Nat) (wasInflight : Bool) : DnsBase :=
  if wasInflight then
    let base := (base.removeInflight h).updateReq h fun req => { req with timer := false }
    let base := { base with globalRequestsInflight := base.globalRequestsInflight - 1 }
    match (base.req h).ns with
    | none => base
    | some s => base.updateNs s fun ns => { ns with requestsInflight := ns.requestsInflight - 1 }
  else
    { base with
      reqWaiting := base.reqWaiting.erase h
      globalRequestsWaiting := base.globalRequestsWaiting - 1 }

/-- A nameserver without requests is not watched if the base is inactive then. -/
def watchNameserver (h : Nat) : DnsBase :=
  match (base.req h).ns with
  | none => base
  | some s =>
    if (base.ns s).requestsInflight = 0 ∧ base.config.disableWhenInactive then
      base.updateNs s fun ns => { ns with probeTimer := false }
    else base

def releaseHandle (h : Nat) (freeHandle : Bool) : DnsBase :=
  base.updateHandle h fun handle =>
    if freeHandle then
      { handle with currentReq := false, searchState := none, searchOrigname := [] }
    else { handle with currentReq := false }

def requestFinished (h : Nat) (wasInflight freeHandle : Bool) : Option DnsBase :=
  (((base.unlinkRequest h wasInflight).watchNameserver h).releaseHandle h freeHandle).pumpWaitingQueue

def replyScheduleCallback (h : Nat) (err : DnsErr) : DnsBase :=
  let base := base.updateHandle h fun handle => { handle with pendingCb := true }
  match (base.req h).probeOf with
  | none => base
  | some s => { base with probeCallbacks := base.probeCallbacks ++ [(s, err)] }

def evdnsCancelRequest (h : Nat) : Option DnsBase :=
  if (base.handle h).currentReq = false ∨ (base.handle h).pendingCb then some base
  else
    (base.replyScheduleCallback h .cancel).requestFinished h (base.req h).ns.isSome true

def cancelProbe (s : Nat) : Option DnsBase :=
  match (base.ns s).probeRequest with
  | none => some base
  | some probe => base.evdnsCancelRequest probe

def nameserverUp (s : Nat) : Option DnsBase :=
  if (base.ns s).state then some base
  else do
    let base := base.updateNs s fun ns => { ns with probeTimer := false }
    let base ← base.cancelProbe s
    let base := base.updateNs s fun ns =>
      { ns with probeRequest := none, state := true, timedout := 0 }
    some { base with globalGoodNameservers := base.globalGoodNameservers + 1 }

/-- `request_reissue`: whether the request is to go to another server. -/
def requestReissue (h : Nat) : Bool × DnsBase :=
  let lastNs := (base.req h).ns
  let (picked, base) := base.nameserverPick
  let base := base.requestSwapNs h picked
  if (base.req h).ns = lastNs then (false, base)
  else
    (true, base.updateReq h fun req =>
      { req with reissueCount := req.reissueCount + 1, txCount := 0, transmitMe := true })

end Queues

section Requests

variable (base : DnsBase)

def requestNew (type : QueryType) (name : Bytes) (probeOf : Option Nat) :
    Option (Option PendingRequest × DnsBase) :=
  let issuingNow := base.globalRequestsInflight < base.globalMaxRequestsInflight
  (if issuingNow then base.transactionIdPick else some (0xffff, base)).bind fun (transId, base) =>
  if base.world.build name = false then some (none, base)
  else
    let (ns, base) := if issuingNow then base.nameserverPick else (none, base)
    some (some {
      transId := transId
      ns := ns
      txCount := 0
      reissueCount := 0
      transmitMe := false
      timer := false
      requestType := type
      probeOf := probeOf }, base)

def requestSubmit (h : Nat) (req : PendingRequest) : DnsBase :=
  let base := { base with req := update base.req h req }
  match req.ns with
  | some s =>
    let base := base.insertInflight h
    let base := { base with globalRequestsInflight := base.globalRequestsInflight + 1 }
    let base := base.updateNs s fun ns => { ns with requestsInflight := ns.requestsInflight + 1 }
    base.evdnsRequestTransmit h
  | none =>
    { base with
      reqWaiting := base.reqWaiting ++ [h]
      globalRequestsWaiting := base.globalRequestsWaiting + 1 }

def stringNumDots (s : Bytes) : Int := s.count (byte '.')

variable (state : SearchState)

def searchMakeNew (n : Nat) (baseName : Bytes) : Option Bytes :=
  if baseName = [] then none
  else
    (state.domains[n]?).map fun postfix' =>
      baseName ++ (if baseName.getLast? = some (byte '.') then [] else [byte '.']) ++ postfix'

def newHandle : DnsHandle where
  currentReq := false
  pendingCb := false
  searchState := none
  searchIndex := 0
  searchOrigname := []

def allocHandle : Nat × DnsBase :=
  (base.nextHandle, { base with
    nextHandle := base.nextHandle + 1
    handle := update base.handle base.nextHandle newHandle })

def searchDomains (noSearch : Bool) : Option SearchState :=
  if noSearch then none
  else base.config.globalSearchState.filter fun state => state.domains ≠ []

def searchFirst (name : Bytes) : Option (Bytes × Int) :=
  if state.ndots ≤ stringNumDots name then some (name, -1)
  else (searchMakeNew state 0 name).map fun newName => (newName, 0)

/-- `evdns_base_resolve_ipv4`, `evdns_base_resolve_ipv6` and the reverse lookups, with
`search_request_new`. -/
def resolve (type : QueryType) (name : Bytes) (noSearch : Bool) : Option DnsBase := do
  let (h, base) := base.allocHandle
  match base.searchDomains (noSearch || type = .ptr) with
  | none =>
    let (req, base) ← base.requestNew type name none
    match req with
    | none => some base
    | some req =>
      some ((base.updateHandle h fun handle => { handle with currentReq := true }).requestSubmit h req)
  | some state =>
    match searchFirst state name with
    | none => some base
    | some (firstName, index) =>
      let (req, base) ← base.requestNew type firstName none
      match req with
      | none => some base
      | some req =>
        some ((base.updateHandle h fun handle => { handle with
          currentReq := true
          searchState := some state
          searchIndex := index
          searchOrigname := name }).requestSubmit h req)

def searchNext (index : Int) (origname : Bytes) : Option (Bytes × Bool) :=
  if state.domains.length ≤ index then
    if stringNumDots origname < state.ndots then some (origname, true) else none
  else (searchMakeNew state index.toNat origname).map fun newName => (newName, false)

def searchTryNext (h : Nat) : Option (Bool × DnsBase) :=
  match (base.handle h).searchState with
  | none => some (false, base)
  | some state =>
    let base := base.updateHandle h fun handle => { handle with searchIndex := handle.searchIndex + 1 }
    match searchNext state (base.handle h).searchIndex (base.handle h).searchOrigname with
    | none => some (false, base)
    | some (newName, last) => do
      let (newreq, base) ← base.requestNew (base.req h).requestType newName (base.req h).probeOf
      match newreq with
      | none => some (false, base)
      | some newreq =>
        let base := if last then
            base.updateHandle h fun handle => { handle with searchState := none, searchOrigname := [] }
          else base
        let base ← base.requestFinished h true false
        let base := base.updateHandle h fun handle => { handle with currentReq := true }
        some (true, base.requestSubmit h newreq)

end Requests

section Callbacks

variable (base : DnsBase)

def evdnsRequestTimeoutCallback (h : Nat) : Option DnsBase :=
  if base.config.globalMaxRetransmits ≤ (base.req h).txCount then do
    let ns := (base.req h).ns
    let base ← (base.replyScheduleCallback h .timeout).requestFinished h true true
    match ns with
    | none => some base
    | some s => some (base.nameserverFailed s)
  else
    let base := base.updateReq h fun req => { req with timer := false }
    let (picked, base) := base.nameserverPick
    let base := (base.requestSwapNs h picked).evdnsRequestTransmit h
    match (base.req h).ns with
    | none => some base
    | some s =>
      let base := base.updateNs s fun ns => { ns with timedout := ns.timedout + 1 }
      if base.config.globalMaxNameserverTimeout < (base.ns s).timedout then
        some ((base.updateNs s fun ns => { ns with timedout := 0 }).nameserverFailed s)
      else some base

/-- The error of a reply, from the flags and, if the packet was parsed, whether it has an answer. -/
def replyError (flags : UInt16) (reply : Option Bool) : Option DnsErr :=
  if flags &&& 0x020f ≠ 0 ∨ reply ≠ some true then
    some <|
      if flags &&& 0x0200 ≠ 0 then .truncated
      else if flags &&& 0x000f ≠ 0 then
        match (flags &&& 0x000f).toNat with
        | 1 => .format
        | 2 => .serverFailed
        | 3 => .notExist
        | 4 => .notImpl
        | 5 => .refused
        | _ => .unknown
      else if reply = some false then .noData
      else .unknown
  else none

/-- A good reply from the nameserver of a request: `probe_request` is forgotten if this was the
probe, and the nameserver is up. -/
def replyNameserverUp (h : Nat) : Option DnsBase :=
  match (base.req h).ns with
  | none => some base
  | some s =>
    let base := if (base.ns s).probeRequest = some h then
        base.updateNs s fun ns => { ns with probeRequest := none }
      else base
    base.nameserverUp s

def replyFailed (h : Nat) (err : DnsErr) : Option DnsBase :=
  if (base.handle h).searchState.isSome ∧ (base.req h).requestType ≠ .ptr then
    (base.searchTryNext h).bind fun (submitted, base) =>
      if submitted then some base else (base.replyScheduleCallback h err).requestFinished h true true
  else (base.replyScheduleCallback h err).requestFinished h true true

def replyHandle (h : Nat) (flags : UInt16) (reply : Option Bool) : Option DnsBase :=
  match replyError flags reply with
  | none => do
    let base ← (base.replyScheduleCallback h .none).replyNameserverUp h
    base.requestFinished h true true
  | some .serverFailed => base.evdnsRequestTimeoutCallback h
  | some err =>
    if err = .notImpl ∨ err = .refused then
      if (base.req h).reissueCount < base.config.globalMaxReissues then
        let base := match (base.req h).ns with
          | none => base
          | some s => base.nameserverFailed s
        let (reissued, base) := base.requestReissue h
        if reissued then some base else base.replyFailed h err
      else base.replyFailed h err
    else do
      let base ← base.replyNameserverUp h
      base.replyFailed h err

def nameserverProbeFailed (s : Nat) : DnsBase :=
  base.updateNs s fun ns => { ns with probeTimer := !ns.state }

def nameserverProbeCallback (s : Nat) (result : DnsErr) : Option DnsBase :=
  if result = .cancel then some base
  else
    let base := base.updateNs s fun ns => { ns with probeRequest := none }
    if result = .none ∨ result = .notExist then base.nameserverUp s
    else some (base.nameserverProbeFailed s)

def nameserverSendProbe (s : Nat) : Option DnsBase := do
  let base := base.updateNs s fun ns => { ns with probeTimer := false }
  let (h, base) := base.allocHandle
  let (req, base) ← base.requestNew .a (bytes "google.com") (some s)
  match req with
  | none => some base
  | some req =>
    let base := base.updateHandle h fun handle => { handle with currentReq := true }
    let base := base.updateNs s fun ns => { ns with probeRequest := some h }
    let (transId, base) ← base.transactionIdPick
    some (base.requestSubmit h { req with transId := transId, ns := some s })

end Callbacks

section Configuration

variable (base : DnsBase)

/-- `evdns_nameserver_add_impl_` for an address that is not there yet. -/
def nameserverAdd : DnsBase :=
  { base with
    nextServer := base.nextServer + 1
    ns := update base.ns base.nextServer {
      state := true
      timedout := 0
      choked := false
      probeRequest := none
      probeTimer := false
      requestsInflight := 0 }
    servers := match base.servers with
      | [] => [base.nextServer]
      | head :: rest => head :: base.nextServer :: rest
    globalGoodNameservers := base.globalGoodNameservers + 1 }

/-- What the first loop of `evdns_base_clear_nameservers_and_suspend` does before it frees a
nameserver. -/
def clearNameserver (s : Nat) : Option DnsBase := do
  let base := base.updateNs s fun ns => { ns with probeTimer := false }
  let base ← base.cancelProbe s
  some (base.updateNs s fun ns => { ns with probeRequest := none })

def suspendRequest (h : Nat) : DnsBase :=
  let base := base.updateReq h fun req => { req with
    txCount := 0
    reissueCount := 0
    ns := none
    timer := false
    transId := 0
    transmitMe := false }
  { base with
    globalRequestsWaiting := base.globalRequestsWaiting + 1
    reqWaiting := h :: base.reqWaiting }

def clearNameserversAndSuspend : Option DnsBase :=
  if base.servers = [] then some base
  else do
    let base ← base.servers.foldlM clearNameserver base
    let base := { base with servers := [], globalGoodNameservers := 0 }
    let base := base.inflight.foldl suspendRequest base
    some { base with
      reqHeads := base.reqHeads.map fun _ => []
      globalRequestsInflight := 0
      suspended := true }

/-- `evdns_base_resume`. The flag `suspended` is not in the source: it says that nothing can be sent yet. -/
def resume : Option DnsBase :=
  { base with suspended := base.suspended && base.servers.isEmpty }.pumpWaitingQueue

def setMaxRequestsInflight (maxinflight : Int) : DnsBase :=
  let maxinflight := if maxinflight < 1 then 1 else maxinflight
  let base' := { base with reqHeads := List.replicate ((maxinflight + 4) / 5).toNat [] }
  { base.inflight.foldl insertInflight base' with globalMaxRequestsInflight := maxinflight }

def evdnsBaseNew (config : DnsConfig) : DnsBase :=
  setMaxRequestsInflight {
    config := config
    world := ⟨[], [], fun _ => true⟩
    reqHeads := []
    reqWaiting := []
    servers := []
    globalGoodNameservers := 0
    globalRequestsInflight := 0
    globalRequestsWaiting := 0
    globalMaxRequestsInflight := 0
    req := fun _ => ⟨0, none, 0, 0, false, false, .a, none⟩
    handle := fun _ => newHandle
    ns := fun _ => ⟨false, 0, false, none, false, 0⟩
    nextHandle := 0
    nextServer := 0
    probeCallbacks := []
    suspended := false } 64

end Configuration

section Runs

/-- What can happen to a base: calls of its functions, packets and errors on the sockets of its
nameservers, timers, and the scheduled callbacks of probes. -/
inductive Op where
  | resolve (type : QueryType) (name : Bytes) (noSearch : Bool)
  | reply (s : Nat) (transId flags : UInt16) (reply : Option Bool)
  | readError (s : Nat)
  | writeReady (s : Nat)
  | timeout (h : Nat)
  | probeTimer (s : Nat)
  | probeCallback
  | cancel (h : Nat)
  | nameserverAdd
  | clearNameserversAndSuspend
  | resume
  | setMaxRequestsInflight (maxinflight : Int)

def Possible (base : DnsBase) : Op → Prop
  | .reply s .. | .readError s | .writeReady s => s ∈ base.servers
  | .timeout h => h ∈ base.inflight ∧ (base.req h).timer
  | .probeTimer s => s ∈ base.servers ∧ (base.ns s).probeTimer
  | .probeCallback => base.probeCallbacks ≠ []
  | .cancel h => h < base.nextHandle
  | .resolve .. | .nameserverAdd | .clearNameserversAndSuspend | .resume | .setMaxRequestsInflight _ => True

def run (base : DnsBase) : Op → Option DnsBase
  | .resolve type name noSearch => base.resolve type name noSearch
  | .reply s transId flags reply =>
    let base := base.updateNs s fun ns => { ns with timedout := 0 }
    match base.requestFindFromTransId transId with
    | none => some base
    | some h => base.replyHandle h flags reply
  | .readError s => some (base.nameserverFailed s)
  | .writeReady s => some (base.updateNs s fun ns => { ns with choked := false }).evdnsTransmit
  | .timeout h => base.evdnsRequestTimeoutCallback h
  | .probeTimer s => base.nameserverSendProbe s
  | .probeCallback =>
    match base.probeCallbacks with
    | [] => some base
    | (s, result) :: rest => { base with probeCallbacks := rest }.nameserverProbeCallback s result
  | .cancel h => base.evdnsCancelRequest h
  | .nameserverAdd => some base.nameserverAdd
  | .clearNameserversAndSuspend => base.clearNameserversAndSuspend
  | .resume => base.resume
  | .setMaxRequestsInflight maxinflight => some (base.setMaxRequestsInflight maxinflight)

def step (base : DnsBase) (e : DnsWorld × Op) : Option DnsBase := { base with world := e.1 }.run e.2

/-- The bases reached from a new one by operations that all meet a condition, with any behaviour of
the generator, the sockets and the memory in each of them. -/
def Reached (config : DnsConfig) (Cond : DnsBase → Op → Prop) : DnsBase → Prop :=
  Runs.Reached step (fun base e => base.Possible e.2 ∧ Cond base e.2) (evdnsBaseNew config)

end Runs

end DnsBase

end MyLibevent
