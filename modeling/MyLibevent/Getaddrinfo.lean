import MyLibevent.Bytes
import MyLibevent.Lib.Runs

/-!
# `evdns_getaddrinfo`

`evdns.c`: one request for the addresses of a name, made of a lookup of A records and a lookup of
AAAA records. A lookup is in flight until its result is known, then its callback is queued, and in
the end the callback runs. The statistics a base keeps of answers and timeouts are absent, as
nothing reads them.
-/

namespace MyLibevent

/-- The `DNS_ERR_*` codes. -/
inductive DnsErr where
  | none | format | serverFailed | notExist | notImpl | refused | truncated | unknown | timeout
  | shutdown | cancel | noData
deriving DecidableEq, Repr

/-- The `EVUTIL_EAI_*` codes that are used. -/
inductive EaiErr where
  | ok | again | cancel | fail | memory | nodata | noname
deriving DecidableEq, Repr

inductive DnsFamily where
  | ipv4 | ipv6
deriving DecidableEq, Repr

def DnsFamily.other : DnsFamily → DnsFamily
  | ipv4 => ipv6
  | ipv6 => ipv4

inductive HintFamily where
  | unspec | inet | inet6
deriving DecidableEq, Repr

/-- The fields of the hints that the code reads. -/
structure AddrinfoHints where
  family : HintFamily
  socktype : Nat
  protocol : Nat
  canonname : Bool
deriving DecidableEq, Repr

/-- One node of the list of results. -/
structure EvutilAddrinfo where
  family : DnsFamily
  socktype : Nat
  protocol : Nat
  port : Nat
  addr : Bytes
  canonname : Option Bytes
deriving DecidableEq, Repr

def sockStream : Nat := 1

def sockDgram : Nat := 2

def ipprotoTcp : Nat := 6

def ipprotoUdp : Nat := 17

def newAddrinfos (hints : AddrinfoHints) (port : Nat) (family : DnsFamily) (addr : Bytes) : List EvutilAddrinfo :=
  if hints.socktype = 0 ∧ hints.protocol = 0 then
    [⟨family, sockStream, ipprotoTcp, port, addr, none⟩, ⟨family, sockDgram, ipprotoUdp, port, addr, none⟩]
  else [⟨family, hints.socktype, hints.protocol, port, addr, none⟩]

def evutilNewAddrinfo (hints : AddrinfoHints) (port : Nat) (family : DnsFamily) (addr : Bytes)
    (alloc : Bool) : Option (List EvutilAddrinfo) :=
  if alloc then some (newAddrinfos hints port family addr) else none

/-- What a lookup reports to `evdns_getaddrinfo_gotresolve`. -/
structure LookupReport where
  result : DnsErr
  addresses : List Bytes
deriving DecidableEq, Repr

/-- How far the lookup of one family has come. -/
inductive Lookup where
  | absent
  | inflight
  | queued (report : LookupReport)
  | reported (report : LookupReport)
deriving DecidableEq, Repr

def Lookup.outstanding : Lookup → Bool
  | .inflight => true
  | .queued _ => true
  | _ => false

/-- `struct evdns_getaddrinfo_request`. `evdnsBase` tells whether the pointer to the base is set,
`r` whether the `r` of a subrequest is, and `userCb` whether the user's callback is. -/
structure EvdnsGetaddrinfoRequest where
  evdnsBase : Bool
  hints : AddrinfoHints
  userCb : Bool
  port : Nat
  r : DnsFamily → Bool
  cnameResult : Option Bytes
  pendingResult : List EvutilAddrinfo
  timeoutPending : Bool
  pendingError : EaiErr
  userCanceled : Bool
  requestDone : Bool

/-- A request, its lookups, the calls of the user's callback, and how often the request has been
freed. `timedOut` records that the timeout has fired and `baseFreed` that the base is gone. -/
structure GetaddrinfoState where
  data : EvdnsGetaddrinfoRequest
  lookup : DnsFamily → Lookup
  calls : List (EaiErr × List EvutilAddrinfo)
  frees : Nat
  timedOut : Bool
  baseFreed : Bool

def evdnsErrToGetaddrinfoErr : DnsErr → EaiErr
  | .none => .ok
  | .notExist => .noname
  | _ => .fail

def getaddrinfoMergeErr (e₁ e₂ : EaiErr) : EaiErr := if e₁ = .ok then e₂ else e₁

def setCanonname (cname : Option Bytes) : List EvutilAddrinfo → List EvutilAddrinfo
  | [] => []
  | ai :: rest => match cname with
    | none => ai :: rest
    | some name => { ai with canonname := some name } :: rest

namespace GetaddrinfoState

variable (s : GetaddrinfoState)

def freeGetaddrinfoRequest : GetaddrinfoState :=
  { s with data := { s.data with timeoutPending := false }, frees := s.frees + 1 }

def callUser (err : EaiErr) (res : List EvutilAddrinfo) : GetaddrinfoState :=
  { s with calls := s.calls ++ [(err, res)] }

/-- `add_cname_to_reply`, which hands the name over, and the call of the user's callback with the
list. -/
def callUserCname (res : List EvutilAddrinfo) : GetaddrinfoState :=
  let cnameResult := if res = [] then s.data.cnameResult else none
  { s with data := { s.data with cnameResult := cnameResult } }
    |>.callUser .ok (setCanonname s.data.cnameResult res)

def evdnsCancelRequest (f : DnsFamily) : GetaddrinfoState :=
  match s.lookup f with
  | .inflight => { s with lookup := Function.update s.lookup f (.queued ⟨.cancel, []⟩) }
  | _ => s

/-- `evdns_getaddrinfo_timeout_cb`; `none` where its assertion fails. -/
def evdnsGetaddrinfoTimeoutCb : Option GetaddrinfoState :=
  let v4TimedOut := s.data.r .ipv4
  let v6TimedOut := s.data.r .ipv6
  let s := if v4TimedOut then s.evdnsCancelRequest .ipv4 else s
  let s := if v6TimedOut then s.evdnsCancelRequest .ipv6 else s
  if v4TimedOut && v6TimedOut then none
  else
    let s :=
      if s.data.pendingResult ≠ [] then
        let s := s.callUserCname s.data.pendingResult
        { s with data := { s.data with pendingResult := [] } }
      else s.callUser (if s.data.pendingError = .ok then .again else s.data.pendingError) []
    let s := { s with data := { s.data with userCb := false } }
    if !v4TimedOut && !v6TimedOut then some s.freeGetaddrinfoRequest else some s

/-- The loop of `evdns_getaddrinfo_gotresolve` over the addresses; `alloc i` tells whether there is
memory for address `i`. -/
def addrinfoLoop (hints : AddrinfoHints) (port : Nat) (f : DnsFamily) (alloc : Nat → Bool) :
    Nat → List Bytes → List EvutilAddrinfo → Option (List EvutilAddrinfo)
  | _, [], res => some res
  | i, addr :: rest, res =>
    match evutilNewAddrinfo hints port f addr (alloc i) with
    | none => none
    | some ai => addrinfoLoop hints port f alloc (i + 1) rest (res ++ ai)

def gotError (f : DnsFamily) (result : DnsErr) (userCanceled : Bool) (err : EaiErr) : GetaddrinfoState :=
  if s.data.r f.other then
    -- the other lookup may still succeed
    { s with data := { s.data with
        timeoutPending := if result ≠ .shutdown then true else s.data.timeoutPending
        pendingError := err } }
  else if userCanceled then (s.callUser .cancel []).freeGetaddrinfoRequest
  else if s.data.pendingResult ≠ [] then
    let s := s.callUserCname s.data.pendingResult
    { s with data := { s.data with pendingResult := [] } }.freeGetaddrinfoRequest
  else
    let err := if s.data.pendingError ≠ .ok then getaddrinfoMergeErr err s.data.pendingError else err
    (s.callUser err []).freeGetaddrinfoRequest

/-- The part of `evdns_getaddrinfo_gotresolve` for a lookup that has found addresses, in a request
the user has not canceled. -/
def gotAddresses (f : DnsFamily) (addresses : List Bytes) (alloc : Nat → Bool) : GetaddrinfoState :=
  match addrinfoLoop s.data.hints s.data.port f alloc 0 addresses [] with
  | none =>
    let s := if s.data.r f.other then s.evdnsCancelRequest f.other else s
    let s := s.callUser .memory []
    if s.data.r f.other then s else s.freeGetaddrinfoRequest
  | some res =>
    if s.data.r f.other then
      { s with data := { s.data with timeoutPending := true, pendingResult := res } }
    else
      let res := match f with
        | .ipv4 => res ++ s.data.pendingResult
        | .ipv6 => s.data.pendingResult ++ res
      let s := { s with data := { s.data with pendingResult := [] } }
      (s.callUserCname res).freeGetaddrinfoRequest

def clearSubrequest (f : DnsFamily) (result : DnsErr) : GetaddrinfoState :=
  let data :=
    if result ≠ .shutdown then
      { s.data with requestDone := s.data.requestDone || !s.data.r f.other }
    else { s.data with evdnsBase := false }
  { s with data := { data with r := Function.update data.r f false } }

def evdnsGetaddrinfoGotresolve (f : DnsFamily) (report : LookupReport) (alloc : Nat → Bool) : GetaddrinfoState :=
  let userCanceled := s.data.userCanceled
  let s := s.clearSubrequest f report.result
  if report.result = .cancel ∧ userCanceled = false then
    -- canceled by the timeout: the user has been answered
    if s.data.r f.other then s else s.freeGetaddrinfoRequest
  else if s.data.userCb = false then s.freeGetaddrinfoRequest
  else
    let err :=
      if report.result = .none then if report.addresses = [] then EaiErr.nodata else .ok
      else evdnsErrToGetaddrinfoErr report.result
    if err ≠ .ok then s.gotError f report.result userCanceled err
    else if userCanceled then
      if s.data.r f.other then s else (s.callUser .cancel []).freeGetaddrinfoRequest
    else s.gotAddresses f report.addresses alloc

def evdnsGetaddrinfoCancel : GetaddrinfoState :=
  if s.data.requestDone then s
  else
    let s := { s with data := { s.data with timeoutPending := false, userCanceled := true } }
    let s := if s.data.r .ipv4 then s.evdnsCancelRequest .ipv4 else s
    if s.data.r .ipv6 then s.evdnsCancelRequest .ipv6 else s

/-- The end of `evdns_getaddrinfo`, where the name has to be looked up: `resolve f` tells whether
the lookup `f` can be started. -/
def evdnsGetaddrinfo (hints : AddrinfoHints) (port : Nat) (resolve : DnsFamily → Bool) : GetaddrinfoState :=
  let r : DnsFamily → Bool := fun
    | .ipv4 => hints.family ≠ .inet6 && resolve .ipv4
    | .ipv6 => hints.family ≠ .inet && resolve .ipv6
  let data : EvdnsGetaddrinfoRequest :=
    { evdnsBase := true, hints := hints, userCb := true, port := port, r := r, cnameResult := none
      pendingResult := [], timeoutPending := false, pendingError := .ok, userCanceled := false
      requestDone := false }
  let s : GetaddrinfoState :=
    { data := data, lookup := fun f => if r f then .inflight else .absent, calls := [], frees := 0
      timedOut := false, baseFreed := false }
  if r .ipv4 || r .ipv6 then s
  else { s with frees := 1 }.callUser .fail []

end GetaddrinfoState

/-! ## Runs -/

/-- What can happen to a request: a lookup learns the canonical name, the result of a lookup
becomes known, its callback runs, the timeout fires, the user cancels, or the base is freed and
fails the lookups in flight. -/
inductive GetaddrinfoStep where
  | cname (f : DnsFamily) (name : Bytes)
  | result (f : DnsFamily) (report : LookupReport)
  | report (f : DnsFamily)
  | timeout
  | cancel
  | freeBase

namespace GetaddrinfoState

def failLookup : Lookup → Lookup
  | .inflight => .queued ⟨.shutdown, []⟩
  | l => l

/-- One step; `none` where the step cannot be taken or an assertion fails. There is memory for
every address. -/
def step (s : GetaddrinfoState) : GetaddrinfoStep → Option GetaddrinfoState
  | .cname f name =>
    if s.lookup f = .inflight ∧ s.data.hints.canonname ∧ s.data.cnameResult = none then
      some { s with data := { s.data with cnameResult := some name } }
    else none
  | .result f report =>
    if s.lookup f = .inflight then
      some { s with lookup := Function.update s.lookup f (.queued report) }
    else none
  | .report f =>
    match s.lookup f with
    | .queued report =>
      some ({ s with lookup := Function.update s.lookup f (.reported report) }
        |>.evdnsGetaddrinfoGotresolve f report fun _ => true)
    | _ => none
  | .timeout =>
    if s.data.timeoutPending then
      { s with data := { s.data with timeoutPending := false }, timedOut := true }
        |>.evdnsGetaddrinfoTimeoutCb
    else none
  | .cancel => some s.evdnsGetaddrinfoCancel
  | .freeBase => some { s with lookup := fun f => failLookup (s.lookup f), baseFreed := true }

/-- When a step may happen. A lookup does not report a cancel or a shutdown by itself, the user
does not cancel after the callback, and once the base is freed nothing happens but that lookups
report the shutdown. -/
def Allowed (s : GetaddrinfoState) : GetaddrinfoStep → Prop
  | .cname _ _ => s.baseFreed = false
  | .result _ report =>
    report.result ≠ .cancel ∧ report.result ≠ .shutdown ∧ s.baseFreed = false
  | .report f => s.baseFreed → s.lookup f = .queued ⟨.shutdown, []⟩
  | .timeout => s.baseFreed = false
  | .cancel => s.calls = [] ∧ s.baseFreed = false
  | .freeBase => s.baseFreed = false

/-- The states of a request that a call of `evdns_getaddrinfo` has started. -/
abbrev Reached (start : GetaddrinfoState) : GetaddrinfoState → Prop := Runs.Reached step Allowed start

end GetaddrinfoState

end MyLibevent
