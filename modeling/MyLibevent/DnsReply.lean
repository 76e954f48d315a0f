import MyLibevent.DnsName
import MyLibevent.Lines

/-!
# Requests and replies

`evdns.c`: the packet `request_new` builds for a name, with the case of its letters randomised, and
`reply_parse`, which decides whether a packet from a nameserver answers a request.
-/

namespace MyLibevent

def typeA : Nat := 1

def typeCname : Nat := 5

def typeSoa : Nat := 6

def typePtr : Nat := 12

def typeAaaa : Nat := 28

def classInet : Nat := 1

/-! ## Requests -/

def randomizeCase (randbits : Bytes) (name : Bytes) : Bytes :=
  name.mapIdx fun i c =>
    if isAlpha c then
      if (randbits.getD (i / 8) 0 >>> UInt8.ofNat (i % 8)) &&& 1 ≠ 0 then c ||| 0x20
      else c &&& ~~~0x20
    else c

def append16 (bufLen : Nat) (p : Bytes × Nat) (x : Nat) : Option (Bytes × Nat) :=
  if p.2 + 2 > bufLen then none else some (writeAt p.1 p.2 (bytes16 x), p.2 + 2)

def evdnsRequestDataBuild (name : Bytes) (transId type class' : Nat) (buf : Bytes)
    (bufLen : Nat) : Option (Bytes × Nat) := do
  let p ← append16 bufLen (buf, 0) transId
  let p ← append16 bufLen p 0x0100
  let p ← append16 bufLen p 1
  let p ← append16 bufLen p 0
  let p ← append16 bufLen p 0
  let p ← append16 bufLen p 0
  let r := dnsnameToLabels bufLen (fun _ _ => true) p.1 p.2 name none
  if r.index < 0 then none
  else
    let p ← append16 bufLen (r.buf, r.index.toNat) type
    append16 bufLen p class'

def evdnsRequestLen (nameLen : Nat) : Nat := 96 + nameLen + 2 + 4

/-- What a reply is compared with of `struct request`: the packet that was sent, and where
`put_cname_in_ptr` points to, if it is set. -/
structure DnsRequest where
  request : Bytes
  requestType : Nat
  putCname : Option (Option Bytes)
deriving DecidableEq, Repr

variable (globalRandomizeCase : Bool)

def sentName (randbits name : Bytes) : Bytes :=
  if globalRandomizeCase then randomizeCase randbits name else name

def requestNew (randbits name fresh : Bytes) (transId type : Nat) : Option DnsRequest :=
  if name.length ≥ 256 then none
  else
    (evdnsRequestDataBuild (sentName globalRandomizeCase randbits name) transId type classInet
      fresh (evdnsRequestLen name.length)).map fun p => ⟨p.1.take p.2, type, none⟩

/-! ## Replies -/

variable (packet : Bytes)

def get16 (j : Nat) : Option Nat :=
  match packet[j]?, packet[j + 1]? with
  | some a, some b => some (a.toNat * 256 + b.toNat)
  | _, _ => none

def get32 (j : Nat) : Option Nat :=
  match get16 packet j, get16 packet (j + 2) with
  | some a, some b => some (a * 65536 + b)
  | _, _ => none

/-- `struct reply`: the addresses or the name that were found. -/
structure DnsReply where
  haveAnswer : Bool
  addresses : List Bytes
  ptrName : Bytes
deriving DecidableEq, Repr

/-- What stands between the name and the data of a resource record. -/
structure RecordHeader where
  type : Nat
  class' : Nat
  ttl : Nat
  datalength : Nat

def recordHeader (j : Nat) : Option (RecordHeader × Nat) := do
  let (_, j) ← nameParse packet j 256
  let type ← get16 packet j
  let class' ← get16 packet (j + 2)
  let ttl ← get32 packet (j + 4)
  let datalength ← get16 packet (j + 8)
  return (⟨type, class', ttl, datalength⟩, j + 10)

/-- The locals of `reply_parse` between two records. -/
structure ReplyState where
  j : Nat
  ttlR : Nat
  reply : DnsReply
  putCname : Option (Option Bytes)
deriving DecidableEq, Repr

def splitAddresses (size : Nat) (count : Nat) (data : Bytes) : List Bytes :=
  (List.range count).map fun i => (data.drop (i * size)).take size

/-- The record of an address, of `size` bytes: `reply_parse` keeps 32 of them. `none` on an error;
the Boolean tells that the loop is left. -/
def addressRecord (size : Nat) (h : RecordHeader) (st : ReplyState) : Option (ReplyState × Bool) :=
  if h.datalength % size ≠ 0 then none
  else
    let addrtocopy := min (32 - st.reply.addresses.length) (h.datalength / size)
    if st.j + size * addrtocopy > packet.length then none
    else
      let addresses :=
        st.reply.addresses ++ splitAddresses size addrtocopy (packet.drop st.j)
      some ({ st with
          j := st.j + size * addrtocopy
          ttlR := min st.ttlR h.ttl
          reply := { st.reply with addresses := addresses, haveAnswer := true } },
        decide (addresses.length = 32))

variable (hostNameMax : Nat)

def answerRecord (packet : Bytes) (requestType : Nat) (h : RecordHeader)
    (st : ReplyState) : Option (ReplyState × Bool) :=
  let skipped : ReplyState := { st with j := st.j + h.datalength }
  if h.type = typeA ∧ h.class' = classInet then
    if requestType ≠ typeA then some (skipped, false) else addressRecord packet 4 h st
  else if h.type = typePtr ∧ h.class' = classInet then
    if requestType ≠ typePtr then some (skipped, false)
    else
      (nameParse packet st.j hostNameMax).map fun p =>
        ({ st with
          j := p.2
          ttlR := min st.ttlR h.ttl
          reply := { st.reply with ptrName := p.1, haveAnswer := true } }, true)
  else if h.type = typeCname then
    match st.putCname with
    | some none =>
      (nameParse packet st.j hostNameMax).map fun p =>
        ({ st with j := p.2, putCname := some (some (cstring p.1)) }, false)
    | _ => some (skipped, false)
  else if h.type = typeAaaa ∧ h.class' = classInet then
    if requestType ≠ typeAaaa then some (skipped, false) else addressRecord packet 16 h st
  else some (skipped, false)

def answersLoop (hostNameMax : Nat) (packet : Bytes) (requestType : Nat) :
    Nat → ReplyState → Except (Option (Option Bytes)) ReplyState
  | 0, st => .ok st
  | n + 1, st =>
    match recordHeader packet st.j with
    | none => .error st.putCname
    | some (h, j) =>
      match answerRecord hostNameMax packet requestType h { st with j := j } with
      | none => .error st.putCname
      | some (st, true) => .ok st
      | some (st, false) => answersLoop hostNameMax packet requestType n st

def soaRecord (j : Nat) : Option (Nat × Nat) := do
  let (_, j) ← nameParse packet j 256
  let (_, j) ← nameParse packet j 256
  let _ ← get32 packet j
  let _ ← get32 packet (j + 4)
  let _ ← get32 packet (j + 8)
  let _ ← get32 packet (j + 12)
  let minimum ← get32 packet (j + 16)
  return (j + 20, minimum)

def authorityLoop (packet : Bytes) : Nat → ReplyState → Option ReplyState
  | 0, st => some st
  | n + 1, st =>
    match recordHeader packet st.j with
    | none => none
    | some (h, j) =>
      if h.type = typeSoa ∧ h.class' = classInet then
        match soaRecord packet j with
        | none => none
        | some (j, minimum) =>
          authorityLoop packet n { st with j := j, ttlR := min (min st.ttlR h.ttl) minimum }
      else authorityLoop packet n { st with j := j + h.datalength }

/-- What `reply_parse` reads after the questions: the reply, its ttl and what `put_cname_in_ptr`
points to then. -/
def replySections (packet : Bytes) (req : DnsRequest)
    (answers authority j : Nat) :
    Except (Option (Option Bytes)) (DnsReply × Nat × Option (Option Bytes)) :=
  match answersLoop hostNameMax packet req.requestType answers ⟨j, 0xffffffff, ⟨false, [], []⟩, req.putCname⟩ with
  | .error cname => .error cname
  | .ok st =>
    match if st.reply.haveAnswer then some st else authorityLoop packet authority st with
    | none => .error st.putCname
    | some st => .ok (st.reply, if st.ttlR = 0xffffffff then 0 else st.ttlR, st.putCname)

def nameMatches (tmpName cmpName : Bytes) : Bool :=
  if !globalRandomizeCase then cstring tmpName = cstring cmpName
  else asciiStrcaseeq tmpName cmpName

/-- The loop over questions: the index after them and whether a name has matched. A name is read
from the request at the index at which the question stands in the reply. -/
def questionsLoop (globalRandomizeCase : Bool) (packet request : Bytes) : Nat → Nat → Bool → Option (Nat × Bool)
  | 0, j, matched => some (j, matched)
  | n + 1, j, matched =>
    match nameParse packet j 256, nameParse request j 256 with
    | some (tmpName, j'), some (cmpName, _) =>
      if j' + 4 > packet.length then none
      else
        questionsLoop globalRandomizeCase packet request n (j' + 4)
          (matched || nameMatches globalRandomizeCase tmpName cmpName)
    | _, _ => none

/-- What becomes of a packet: it belongs to no request, or `reply_handle` is called with its flags
and without a reply, or with one. What `put_cname_in_ptr` points to is given along. -/
inductive ReplyOutcome where
  | ignored
  | failed (flags : Nat) (putCname : Option (Option Bytes))
  | answered (flags ttl : Nat) (reply : DnsReply) (putCname : Option (Option Bytes))
deriving DecidableEq, Repr

def replyParse (globalRandomizeCase : Bool) (find : Nat → Option DnsRequest) (packet : Bytes) : ReplyOutcome :=
  match get16 packet 0, get16 packet 2, get16 packet 4, get16 packet 6, get16 packet 8, get16 packet 10 with
  | some transId, some flags, some questions, some answers, some authority, some _ =>
    match find transId with
    | none => .ignored
    | some req =>
      if flags &&& 0x8000 = 0 then .ignored
      else if flags &&& 0x020f ≠ 0 ∧ flags &&& 0x020f ≠ 3 then .failed flags req.putCname
      else
        match questionsLoop globalRandomizeCase packet req.request questions 12 false with
        | some (j, true) =>
          match replySections hostNameMax packet req answers authority j with
          | .ok (reply, ttl, cname) => .answered flags ttl reply cname
          | .error cname => .failed flags cname
        | _ => .failed flags req.putCname
  | _, _, _, _, _, _ => .ignored

end MyLibevent
