import MyLibevent.Numbers
import MyLibevent.Util

/-!
# URIs

`evhttp_uri_parse_with_flags` and `evhttp_uri_join` of `http.c`. A string is the list of its bytes
before the terminator, and a pointer into it is the list of the bytes from there on; the range from
`s` to `eos` is the list of its bytes. What `evutil_inet_pton` makes of an IPv6 address is a
parameter.
-/

namespace MyLibevent

section Characters

def charIsUnreserved (c : UInt8) : Bool :=
  isAlnum c || c == byte '-' || c == byte '.' || c == byte '_' || c == byte '~'

def isSubdelim (c : UInt8) : Bool := c == 0 || (bytes "!$&'()*+,;=").contains c

def spanUntil (ok : UInt8 → Bool) (cp : Bytes) : Bytes × Bytes :=
  (cp.takeWhile ok, cp.dropWhile ok)

/-- The loop over characters and percent-encoded bytes that `userinfo_ok` and `end_of_path` have in
common: what it has passed, and where it stops. -/
def scanEscaped (ok : UInt8 → Bool) : Bytes → Bytes × Bytes
  | [] => ([], [])
  | c :: s =>
    if ok c then (c :: (scanEscaped ok s).1, (scanEscaped ok s).2)
    else if c == byte '%' && isXdigit (s.headD 0) && isXdigit ((s.drop 1).headD 0) then
      (c :: s.take 2 ++ (scanEscaped ok (s.drop 2)).1, (scanEscaped ok (s.drop 2)).2)
    else ([], c :: s)
termination_by s => s.length

end Characters

section Parsing

def schemeOk (s : Bytes) : Bool :=
  match s with
  | [] => false
  | c :: s =>
    isAlpha c && s.all fun c => isAlnum c || c == byte '+' || c == byte '-' || c == byte '.'

def userinfoOk (s : Bytes) : Bool :=
  (scanEscaped (fun c => charIsUnreserved c || isSubdelim c || c == byte ':') s).2.isEmpty

/-- `regname_ok`, given the number of characters before `eos`. A percent sign is not checked
against `eos`. -/
def regnameOk (n : Nat) (s : Bytes) : Bool :=
  if n = 0 then true
  else if charIsUnreserved (s.headD 0) || isSubdelim (s.headD 0) then regnameOk (n - 1) (s.drop 1)
  else if s.headD 0 == byte '%' && isXdigit ((s.drop 1).headD 0) && isXdigit ((s.drop 2).headD 0)
  then regnameOk (n - 3) (s.drop 3)
  else false
termination_by n

def parsePort (portnum : Nat) : Bytes → Option Nat
  | [] => some portnum
  | c :: s =>
    if !isDigit c then none
    else
      let portnum := portnum * 10 + (c.toNat - 48)
      if 65535 < portnum then none else parsePort portnum s

variable (inetPton6 : Bytes → Bool)

def bracketAddrOk (s : Bytes) : Nat :=
  if s.length < 3 ∨ s.head? ≠ some (byte '[') ∨ s.getLast? ≠ some (byte ']') then 0
  else if (s.drop 1).head? = some (byte 'v') then
    let s := (s.drop 2).dropLast
    if !isXdigit (s.headD (byte ']')) then 0
    else if !(s.takeWhile (· != byte '.')).all isXdigit then 0
    else
      match s.dropWhile (· != byte '.') with
      | [] => 0
      | _ :: s =>
        if s.all fun c => charIsUnreserved c || isSubdelim c || c == byte ':' then 2 else 0
  else
    let buf := (s.drop 1).dropLast
    if 64 ≤ buf.length then 0 else if inetPton6 buf then 1 else 0

/-- What `parse_authority` finds. -/
structure Authority where
  userinfo : Option Bytes
  host : Bytes
  port : Int
  deriving DecidableEq

def splitUserinfo (s : Bytes) : Option (Option Bytes × Bytes) :=
  match strsep (byte '@') s with
  | (_, none) => some (none, s)
  | (userinfo, some cp) => if userinfoOk userinfo then some (some userinfo, cp) else none

def splitPort (cp : Bytes) : Option (Bytes × Int) :=
  let front := cp.rdropWhile isDigit
  let digits := cp.rtakeWhile isDigit
  if front.getLast? = some (byte ':') then
    if digits = [] then some (front.dropLast, -1)
    else (parsePort 0 digits).map fun port : Nat => (front.dropLast, (port : Int))
  else some (cp, -1)

def hostOk (host after : Bytes) : Bool :=
  if host.head? = some (byte '[') ∧ 2 ≤ host.length ∧ host.getLast? = some (byte ']') then
    bracketAddrOk inetPton6 host != 0
  else regnameOk host.length (host ++ after)

def parseAuthority (s after : Bytes) : Option Authority :=
  if s = [] then some ⟨none, [], -1⟩
  else do
    let (userinfo, cp) ← splitUserinfo s
    let (host, port) ← splitPort cp
    if hostOk inetPton6 host (cp.drop host.length ++ after) then some ⟨userinfo, host, port⟩
    else none

inductive UriPart where
  | path
  | query
  | fragment
  deriving DecidableEq

def evhttpUriNonconformant : UInt32 := 1

def endOfPath (part : UriPart) (flags : UInt32) (cp : Bytes) : Bytes × Bytes :=
  if flags &&& evhttpUriNonconformant ≠ 0 then
    match part with
    | .path => spanUntil (fun c => c != byte '#' && c != byte '?') cp
    | .query => spanUntil (fun c => c != byte '#') cp
    | .fragment => (cp, [])
  else
    scanEscaped (fun c => charIsUnreserved c || isSubdelim c || c == byte ':' || c == byte '@' ||
      c == byte '/' || (c == byte '?' && part != .path)) cp

def pathMatchesNoscheme : Bytes → Bool
  | [] => true
  | c :: cp => if c == byte ':' then false else if c == byte '/' then true else pathMatchesNoscheme cp

/-- `struct evhttp_uri`. -/
structure EvhttpUri where
  flags : UInt32
  scheme : Option Bytes
  userinfo : Option Bytes
  host : Option Bytes
  port : Int
  path : Option Bytes
  query : Option Bytes
  fragment : Option Bytes
  deriving DecidableEq

def splitScheme (readp : Bytes) : Option Bytes × Bytes :=
  match strsep (byte ':') readp with
  | (_, none) => (none, readp)
  | (token, some rest) => if schemeOk token then (some token, rest) else (none, readp)

def inAuthority (c : UInt8) : Bool := c != byte '?' && c != byte '#' && c != byte '/'

def endOfAuthority (cp : Bytes) : Bytes × Bytes := spanUntil inAuthority cp

def splitAuthority (readp : Bytes) : Option (Option Authority × Bytes) :=
  if readp.take 2 = bytes "//" then
    let authority := endOfAuthority (readp.drop 2)
    (parseAuthority inetPton6 authority.1 authority.2).map fun a => (some a, authority.2)
  else some (none, readp)

def splitPart (mark : UInt8) (part : UriPart) (flags : UInt32) (readp : Bytes) : Option Bytes × Bytes :=
  if readp.head? = some mark then
    let text := endOfPath part flags (readp.drop 1)
    (some text.1, text.2)
  else (none, readp)

def splitPath (flags : UInt32) (readp : Bytes) : Option (Bytes × Option Bytes × Option Bytes) :=
  let path := endOfPath .path flags readp
  let query := splitPart (byte '?') .query flags path.2
  let fragment := splitPart (byte '#') .fragment flags query.2
  if fragment.2 ≠ [] then none else some (path.1, query.1, fragment.1)

def evhttpUriParseWithFlags (sourceUri : Bytes) (flags : UInt32) : Option EvhttpUri := do
  let scheme := splitScheme sourceUri
  let (authority, readp) ← splitAuthority inetPton6 scheme.2
  let (path, query, fragment) ← splitPath flags readp
  if authority = none ∧ path.take 2 = bytes "//" then none
  else if authority ≠ none ∧ path ≠ [] ∧ path.head? ≠ some (byte '/') then none
  else if scheme.1 = none ∧ pathMatchesNoscheme path = false then none
  else
    some {
      flags := flags
      scheme := scheme.1
      userinfo := authority.bind (·.userinfo)
      host := authority.map (·.host)
      port := (authority.map (·.port)).getD (-1)
      path := some path
      query := query
      fragment := fragment }

def evhttpUriParse (sourceUri : Bytes) : Option EvhttpUri :=
  evhttpUriParseWithFlags inetPton6 sourceUri 0

end Parsing

section Joining

def partText (before after : Bytes) : Option Bytes → Bytes
  | none => []
  | some text => before ++ text ++ after

/-- The parts of a URI one after the other, with the texts given for its userinfo and port. -/
def EvhttpUri.joined (uri : EvhttpUri) (userinfo port : Bytes) : Bytes :=
  partText [] (bytes ":") uri.scheme ++
  (match uri.host with
    | none => []
    | some host => bytes "//" ++ userinfo ++ host ++ port) ++
  uri.path.getD [] ++ partText (bytes "?") [] uri.query ++ partText (bytes "#") [] uri.fragment

def EvhttpUri.text (uri : EvhttpUri) (port : Bytes) : Bytes :=
  uri.joined (partText [] (bytes "@") uri.userinfo) port

def portText (port : Int) : Bytes :=
  if 0 ≤ port then bytes ":" ++ formatDecimal port.toNat else []

def evhttpUriJoin (uri : EvhttpUri) (limit : Nat) : Option Bytes :=
  let userinfo := evbufferAddPrintf (partText [] (bytes "@") uri.userinfo)
  let tmp := uri.joined userinfo (portText uri.port) ++ [0]
  if limit = 0 then none
  else if uri.host ≠ none ∧ uri.path.getD [] ≠ [] ∧ (uri.path.getD []).head? ≠ some (byte '/') then
    none
  else if limit < tmp.length then none
  else some tmp

end Joining

end MyLibevent
