import MyLibevent.HttpBody
import MyLibevent.Uri

/-!
# HTTP requests

What a server of `http.c` reads of a request before its body: the request line, the headers that
announce a body, and those that decide about the connection. The request is of the kind
`EVHTTP_REQUEST`; a string of the C library's `sscanf` is read as the standard says, with integers
that do not overflow.
-/

namespace MyLibevent

section RequestLine

/-- `enum evhttp_cmd_type`. -/
inductive CmdType where
  | get
  | post
  | head
  | put
  | delete
  | options
  | trace
  | connect
  | patch
  | unknown
  deriving DecidableEq

/-- The part of `struct evhttp_request` that a server uses; `type` is absent and `uri` is NULL until
the request line has been read. -/
structure HttpRequest extends BodyRequest where
  type : Option CmdType
  major : Int
  minor : Int
  uri : Option Bytes
  proxyRequest : Bool
  responseCode : Nat
  outputHeaders : List HttpHeader
  userdone : Bool

/-- The answers of `evutil_inet_pton` and of the search for a virtual host. -/
structure HttpNames where
  inetPton6 : Bytes → Bool
  findVhost : Bytes → Bool

def parseMethod (method : Bytes) : CmdType :=
  if method = bytes "GET" then .get
  else if method = bytes "PUT" then .put
  else if method = bytes "POST" then .post
  else if method = bytes "HEAD" then .head
  else if method = bytes "PATCH" then .patch
  else if method = bytes "TRACE" then .trace
  else if method = bytes "DELETE" then .delete
  else if method = bytes "OPTIONS" then .options
  else if method = bytes "CONNECT" then .connect
  else .unknown

def scanInt (s : Bytes) : Option (Int × Bytes) :=
  let (neg, s) := skipSign (s.dropWhile isSpace)
  if isDigit (s.headD 0) then
    let (n, rest) := readDigits 10 0 s
    some (if neg then -(n : Int) else n, rest)
  else none

def evhttpParseHttpVersion (version : Bytes) : Option (Int × Int) := do
  if version.take 5 ≠ bytes "HTTP/" then none
  let (major, s) ← scanInt (version.drop 5)
  if s.head? ≠ some (byte '.') then none
  let (minor, s) ← scanInt (s.drop 1)
  if s ≠ [] ∨ 1 < major then none
  some (major, minor)

variable (names : HttpNames)

def isProxyUri (uri : EvhttpUri) : Bool :=
  uri.scheme.any (fun s => asciiStrcaseeq s (bytes "http") || asciiStrcaseeq s (bytes "https")) &&
    uri.host.any fun host => !names.findVhost host

def evhttpParseRequestLine (req : HttpRequest) (line : Bytes) : Bool × HttpRequest :=
  match strsep (byte ' ') line with
  | (_, none) => (false, req)
  | (method, some line) =>
    match strsep (byte ' ') line with
    | (_, none) => (false, req)
    | (uri, some line) =>
      match strsep (byte ' ') line with
      | (_, some _) => (false, req)
      | (version, none) =>
        let req := { req with type := some (parseMethod method) }
        match evhttpParseHttpVersion version with
        | none => (false, req)
        | some (major, minor) =>
          let req := { req with major := major, minor := minor, uri := some uri }
          match evhttpUriParseWithFlags names.inetPton6 uri evhttpUriNonconformant with
          | none => (false, req)
          | some elems =>
            (true, { req with proxyRequest := req.proxyRequest || isProxyUri names elems })

def evhttpParseFirstline (maxHeadersSize : Nat) (req : HttpRequest)
    (buffer : Bytes) : MessageReadStatus × HttpRequest × Bytes :=
  match evbufferReadln buffer with
  | none => (if maxHeadersSize < buffer.length then .dataTooLong else .moreDataExpected, req, buffer)
  | some (line, rest) =>
    if maxHeadersSize < line.length then (.dataTooLong, req, rest)
    else
      let req := { req with headersSize := line.length }
      let (ok, req) := evhttpParseRequestLine names req (cstring line)
      (if ok then .allDataRead else .dataCorrupted, req, rest)

end RequestLine

section Headers

variable (headers : List HttpHeader)

def evhttpFindHeader (key : Bytes) : Option Bytes :=
  (headers.find? fun header => asciiStrcaseeq header.1 key).map (·.2)

def evhttpMethodMayHaveBody : Option CmdType → Bool
  | some .post | some .put | some .patch => true
  | _ => false

/-- `evhttp_get_body_length`: the new `ntoread`, or `none` for the return value −1. -/
def evhttpGetBodyLength : Option Int :=
  match evhttpFindHeader headers (bytes "Content-Length") with
  | some contentLength =>
    let (ntoread, endp) := strtoll 10 contentLength
    if contentLength = [] ∨ endp ≠ [] ∨ ntoread < 0 then none else some ntoread
  | none =>
    match evhttpFindHeader headers (bytes "Connection") with
    | none => some (-1)
    | some connection => if asciiStrcaseeq connection (bytes "Close") then some (-1) else none

def isChunked : Bool :=
  (evhttpFindHeader headers (bytes "Transfer-Encoding")).any fun value =>
    asciiStrcaseeq value (bytes "chunked")

variable (req : HttpRequest)

def HttpRequest.versionAtleast (major minor : Int) : Bool :=
  major < req.major || (req.major == major && minor ≤ req.minor)

def HttpRequest.versionBefore (major minor : Int) : Bool :=
  req.major < major || (req.major == major && req.minor < minor)

inductive Expect where
  | no
  | continue
  | other

def evhttpHaveExpect : Expect :=
  if !req.versionAtleast 1 1 then .no
  else
    match evhttpFindHeader req.inputHeaders (bytes "Expect") with
    | none => .no
    | some expect => if asciiStrcaseeq expect (bytes "100-continue") then .continue else .other

def evhttpIsConnectionClose (proxyRequest : Bool) (headers : List HttpHeader) : Bool :=
  if proxyRequest then
    match evhttpFindHeader headers (bytes "Proxy-Connection") with
    | none => true
    | some connection => !asciiStrcaseeq connection (bytes "keep-alive")
  else
    match evhttpFindHeader headers (bytes "Connection") with
    | none => false
    | some connection => asciiStrcaseeq connection (bytes "close")

def evhttpIsRequestConnectionClose : Bool :=
  evhttpIsConnectionClose req.proxyRequest req.inputHeaders ||
    evhttpIsConnectionClose req.proxyRequest req.outputHeaders

def evhttpIsConnectionKeepalive : Bool :=
  (evhttpFindHeader headers (bytes "Connection")).any fun connection =>
    ((cstring connection).take 10).map toLower = bytes "keep-alive"

def evhttpResponseNeedsBody : Bool :=
  req.responseCode != 204 && req.responseCode != 304 &&
    (req.responseCode < 100 || 200 ≤ req.responseCode) && req.type != some .head

end Headers

end MyLibevent
