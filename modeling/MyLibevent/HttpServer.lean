import MyLibevent.HttpRequest
import MyLibevent.Lib.Runs

/-!
# A server connection

The connection of an `evhttp` server on a socket, from the request line to the reply: what its
bufferevent has enabled, which callbacks are installed, the state in which bytes are read, and what
the request handler may do. Handler actions are steps of their own: nothing follows the call of the
handler in the functions that lead to it, so an immediate reply is one that comes next.

The text of a reply is not computed: a reply comes with the text that `evhttp_make_header` writes and
with the headers it leaves in the request. A connection that has been freed takes no steps.
-/

namespace MyLibevent

/-- `enum evhttp_connection_state`. -/
inductive EvconState where
  | disconnected
  | connecting
  | idle
  | readingFirstline
  | readingHeaders
  | readingBody
  | readingTrailer
  | writing
  deriving DecidableEq

/-- The `cb` of a connection. -/
inductive EvconCb where
  | none
  | sendContinueDone
  | sendDone
  | user
  deriving DecidableEq

/-- How far the user's handler has come with the request. -/
inductive HandlerState where
  | idle
  | called
  | started
  | finished
  deriving DecidableEq

/-- A request for which `evhttp_connection_done` has been reached, with all bytes that had arrived for
it since reading began, and those of them that were still in the input buffer. -/
structure CompletedRequest where
  req : HttpRequest
  received : Bytes
  input : Bytes

/-- `struct evhttp_connection` with its bufferevent and its only request. The last three fields keep
what has happened: the bytes that have arrived for the request, the requests that were completed, and
whether `evhttp_read_cb` has ended the process. -/
structure Evcon where
  state : EvconState
  readEnabled : Bool
  writeEnabled : Bool
  /-- `evhttp_read_cb` is the read callback of the bufferevent. -/
  readCbSet : Bool
  cb : EvconCb
  /-- `read_more_deferred_cb` is scheduled. -/
  deferredRead : Bool
  input : Bytes
  output : Bytes
  req : HttpRequest
  handler : HandlerState
  freed : Bool
  received : Bytes
  completed : List CompletedRequest
  illegalState : Bool

/-- The server and the limits of its connections. An error page is given by its text and headers. -/
structure HttpServer where
  names : HttpNames
  maxHeadersSize : Nat
  maxBodySize : Nat
  lingeringClose : Bool
  allowedMethods : CmdType → Bool
  findCallback : HttpRequest → Bool
  errorPage : HttpRequest → Nat → Bytes × List HttpHeader

/-- `enum evhttp_request_error`, as far as used. -/
inductive RequestError where
  | timeout
  | eof
  | invalidHeader
  | dataTooLong
  deriving DecidableEq

namespace Evcon

section Replies

def writeBuffer (evcon : Evcon) (cb : EvconCb) : Evcon :=
  { evcon with cb := cb, readCbSet := false, writeEnabled := true }

def send (evcon : Evcon) (code : Nat) (text : Bytes) (headers : List HttpHeader) : Evcon :=
  writeBuffer { evcon with
    req := { evcon.req with responseCode := code, outputHeaders := headers, userdone := true }
    output := evcon.output ++ text
    handler := .finished } .sendDone

/-- `evhttp_send_error`, by way of `evhttp_send_page_`, which replaces the version if one of its
numbers is zero. -/
def sendError (server : HttpServer) (evcon : Evcon) (error : Nat) : Evcon :=
  let req := evcon.req
  let req := if req.major = 0 ∨ req.minor = 0 then { req with major := 1, minor := 1 } else req
  let page := server.errorPage req error
  send { evcon with req := req } error page.1 page.2

def handleRequest (server : HttpServer) (evcon : Evcon) : Evcon :=
  let evcon := { evcon with req := { evcon.req with userdone := false } }
  match evcon.req.type, evcon.req.uri with
  | some type, some _ =>
    if !server.allowedMethods type then sendError server evcon 501
    else if server.findCallback evcon.req then { evcon with handler := .called }
    else sendError server evcon 404
  | _, _ => sendError server evcon evcon.req.responseCode

end Replies

section Reading

def free (evcon : Evcon) : Evcon := { evcon with freed := true, deferredRead := false }

variable (server : HttpServer)

def connectionFail (evcon : Evcon) (error : RequestError) : Evcon :=
  let evcon := { evcon with readEnabled := false, writeEnabled := false }
  let code := if error = .dataTooLong then 413 else 400
  let evcon := { evcon with req := { evcon.req with responseCode := code } }
  match error with
  | .timeout | .eof => evcon.free
  | .invalidHeader | .dataTooLong =>
    handleRequest server { evcon with req := { evcon.req with uri := none } }

def connectionDone (evcon : Evcon) : Evcon :=
  handleRequest server { evcon with
    state := .writing
    completed := evcon.completed ++ [⟨evcon.req, evcon.received, evcon.input⟩] }

def settleBody (evcon : Evcon) : BodyOutcome × BodyRequest × Bytes → Evcon
  | (outcome, req, input) =>
    let evcon := { evcon with req := { evcon.req with toBodyRequest := req }, input := input }
    match outcome with
    | .wait => evcon
    | .trailer => { evcon with state := .readingTrailer }
    | .done => connectionDone server { evcon with readEnabled := false }
    | .failDataTooLong => connectionFail server evcon .dataTooLong
    | .failInvalidHeader => connectionFail server evcon .invalidHeader
    | .canceled => evcon

def readTrailer (evcon : Evcon) : Evcon :=
  settleBody server evcon (evhttpReadTrailer (some server.maxHeadersSize) evcon.req.toBodyRequest evcon.input)

def readBody (evcon : Evcon) : Evcon :=
  let r := evhttpReadBody server.maxBodySize server.lingeringClose evcon.req.toBodyRequest evcon.input
  let evcon := settleBody server evcon r
  if r.1 = .trailer then readTrailer server evcon else evcon

def sendContinue (evcon : Evcon) (text : Bytes) : Evcon :=
  { evcon with
    writeEnabled := true
    output := evcon.output ++ text
    cb := .sendContinueDone
    readCbSet := true }

def continueText (req : HttpRequest) : Bytes :=
  let number := fun n : Int => (if n < 0 then bytes "-" else []) ++ formatDecimal n.natAbs
  bytes "HTTP/" ++ number req.major ++ bytes "." ++ number req.minor ++ bytes " 100 Continue\r\n\r\n"

def expectBody (evcon : Evcon) : Evcon :=
  match evhttpHaveExpect evcon.req with
  | .no => readBody server evcon
  | .other => sendError server evcon 417
  | .continue =>
    if 0 < evcon.req.ntoread ∧ server.maxBodySize ≤ 2 ^ 63 - 1 ∧
        server.maxBodySize < evcon.req.ntoread.toNat then
      settleBody server evcon (lingeringFail server.lingeringClose evcon.req.toBodyRequest evcon.input)
    else if evcon.input = [] then readBody server (evcon.sendContinue (continueText evcon.req))
    else readBody server evcon

def getBody (evcon : Evcon) : Evcon :=
  if !evhttpMethodMayHaveBody evcon.req.type then connectionDone server evcon
  else
    let evcon := { evcon with state := .readingBody }
    if isChunked evcon.req.inputHeaders then
      expectBody server { evcon with req := { evcon.req with chunked := true, ntoread := -1 } }
    else
      match evhttpGetBodyLength evcon.req.inputHeaders with
      | none => connectionFail server evcon .invalidHeader
      | some ntoread =>
        let evcon := { evcon with req := { evcon.req with ntoread := ntoread } }
        if ntoread < 1 then connectionDone server evcon else expectBody server evcon

def readHeader (evcon : Evcon) : Evcon :=
  let r := evhttpParseHeaders (some server.maxHeadersSize)
    ⟨evcon.req.inputHeaders, evcon.req.headersSize, evcon.input⟩
  let evcon := { evcon with
    req := { evcon.req with inputHeaders := r.2.inputHeaders, headersSize := r.2.headersSize }
    input := r.2.buffer }
  match r.1 with
  | .dataCorrupted | .dataTooLong => connectionFail server evcon .invalidHeader
  | .moreDataExpected | .requestCanceled => evcon
  | .allDataRead => getBody server evcon

def readFirstline (evcon : Evcon) : Evcon :=
  let r := evhttpParseFirstline server.names server.maxHeadersSize evcon.req evcon.input
  let evcon := { evcon with req := r.2.1, input := r.2.2 }
  match r.1 with
  | .dataCorrupted | .dataTooLong => connectionFail server evcon .invalidHeader
  | .moreDataExpected | .requestCanceled => evcon
  | .allDataRead => readHeader server { evcon with state := .readingHeaders }

def readCb (evcon : Evcon) : Evcon :=
  let evcon := { evcon with deferredRead := false }
  match evcon.state with
  | .readingFirstline => readFirstline server evcon
  | .readingHeaders => readHeader server evcon
  | .readingBody => readBody server evcon
  | .readingTrailer => readTrailer server evcon
  | .idle => { evcon with state := .disconnected, readEnabled := false, writeEnabled := false }
  | .disconnected | .connecting | .writing => { evcon with illegalState := true }

end Reading

section Requests

def newRequest : HttpRequest where
  chunked := false
  ntoread := 0
  bodySize := 0
  inputBuffer := []
  chunkCb := false
  delivered := []
  inputHeaders := []
  headersSize := 0
  type := none
  major := 0
  minor := 0
  uri := none
  proxyRequest := false
  responseCode := 0
  outputHeaders := []
  userdone := true

def associateNewRequest (evcon : Evcon) : Evcon :=
  { evcon with
    req := newRequest
    handler := .idle
    writeEnabled := false
    readEnabled := true
    state := .readingFirstline
    readCbSet := true
    deferredRead := evcon.deferredRead || !evcon.input.isEmpty
    received := evcon.input }

def start : Evcon :=
  associateNewRequest {
    state := .readingFirstline
    readEnabled := true
    writeEnabled := false
    readCbSet := false
    cb := .none
    deferredRead := false
    input := []
    output := []
    req := newRequest
    handler := .idle
    freed := false
    received := []
    completed := []
    illegalState := false }

def sendDone (evcon : Evcon) : Evcon :=
  let req := evcon.req
  if (req.versionBefore 1 1 && !evhttpIsConnectionKeepalive req.inputHeaders) ||
      evhttpIsRequestConnectionClose req then
    evcon.free
  else evcon.associateNewRequest

def writeCb (evcon : Evcon) : Evcon :=
  match evcon.cb with
  | .none | .user => evcon
  | .sendContinueDone => { evcon with writeEnabled := false }
  | .sendDone => evcon.sendDone

end Requests

section Events

variable (evcon : Evcon)

def replyStart (code : Nat) (text : Bytes) (headers : List HttpHeader) : Evcon :=
  let req := { evcon.req with responseCode := code }
  let chunked := (evhttpFindHeader headers (bytes "Content-Length")).isNone &&
    req.versionAtleast 1 1 && evhttpResponseNeedsBody req
  writeBuffer { evcon with
    req := { req with chunked := chunked, outputHeaders := headers }
    output := evcon.output ++ text
    handler := .started } .none

def replyChunk (databuf : Bytes) (cb : Bool) : Evcon :=
  if databuf = [] ∨ evhttpResponseNeedsBody evcon.req = false then evcon
  else
    writeBuffer { evcon with
      output := evcon.output ++ if evcon.req.chunked then sendReplyChunk databuf else databuf }
      (if cb then .user else .none)

def replyEnd : Evcon :=
  let evcon := { evcon with req := { evcon.req with userdone := true }, handler := .finished }
  if evcon.req.chunked then
    writeBuffer { evcon with
      req := { evcon.req with chunked := false }
      output := evcon.output ++ sendReplyEnd } .sendDone
  else if evcon.output = [] then evcon.sendDone
  else { evcon with cb := .sendDone }

/-- What can happen to the connection: its bufferevent reads or writes bytes or reports an error, the
scheduled callback runs, or the handler acts. -/
inductive Event where
  | recv (data : Bytes)
  | deferred
  | wrote (n : Nat)
  | timeout
  | readEof
  | readError
  | writeError
  | reply (code : Nat) (text : Bytes) (headers : List HttpHeader)
  | replyStart (code : Nat) (text : Bytes) (headers : List HttpHeader)
  | replyChunk (databuf : Bytes) (cb : Bool)
  | replyEnd

variable (server : HttpServer)

def readEof (evcon : Evcon) : Evcon :=
  if evcon.state = .readingBody ∧ evcon.req.chunked = false ∧ evcon.req.ntoread < 0 then
    connectionDone server evcon
  else connectionFail server evcon .eof

def Possible : Event → Prop
  | .recv data => evcon.readEnabled ∧ data ≠ []
  | .deferred => evcon.deferredRead
  | .wrote n => evcon.writeEnabled ∧ 0 < n ∧ n ≤ evcon.output.length
  | .timeout => evcon.readEnabled ∨ evcon.writeEnabled
  | .readEof | .readError => evcon.readEnabled
  | .writeError => evcon.writeEnabled
  | .reply _ text _ | .replyStart _ text _ => evcon.handler = .called ∧ text ≠ []
  | .replyChunk .. | .replyEnd => evcon.handler = .started

def handle (evcon : Evcon) : Event → Evcon
  | .recv data =>
    let evcon := { evcon with input := evcon.input ++ data, received := evcon.received ++ data }
    if evcon.readCbSet then readCb server evcon else evcon
  | .deferred => readCb server evcon
  | .wrote n =>
    let evcon := { evcon with output := evcon.output.drop n }
    if evcon.output = [] then evcon.writeCb else evcon
  | .timeout => connectionFail server evcon .timeout
  | .readEof => readEof server evcon
  | .readError => connectionFail server evcon .eof
  | .writeError => connectionFail server evcon .eof
  | .reply code text headers => send evcon code text headers
  | .replyStart code text headers => replyStart evcon code text headers
  | .replyChunk databuf cb => replyChunk evcon databuf cb
  | .replyEnd => replyEnd evcon

instance (evcon : Evcon) (event : Event) : Decidable (evcon.Possible event) := by
  cases event <;> unfold Possible <;> infer_instance

def step (evcon : Evcon) (event : Event) : Option Evcon :=
  if evcon.freed = false ∧ evcon.illegalState = false ∧ evcon.Possible event then
    some (handle server evcon event)
  else none

/-- The connections reached from the start by steps that all meet a condition. -/
abbrev Reached (server : HttpServer) (Cond : Evcon → Event → Prop) : Evcon → Prop :=
  Runs.Reached (step server) Cond start

end Events

end Evcon

end MyLibevent
