import MyLibevent.HttpHeaders
import MyLibevent.Numbers
import MyLibevent.Util

/-!
# HTTP bodies

Sending a reply in chunks and reading a body in `http.c`: chunked, of a given length, or up to
the end of the connection. Reading is resumed whenever bytes arrive; what is carried over is in
the request (`ntoread`, `body_size`) and in the unread bytes of the buffer.
-/

namespace MyLibevent

section Sending

def sendReplyChunk (databuf : Bytes) : Bytes :=
  if databuf.length = 0 then []
  else formatHex (databuf.length % 2 ^ 32) ++ bytes "\r\n" ++ databuf ++ bytes "\r\n"

def sendReplyEnd : Bytes := bytes "0\r\n\r\n"

/-- The body of a reply sent by `evhttp_send_reply_chunk` for each string and
`evhttp_send_reply_end`. -/
def chunkedReply (chunks : List Bytes) : Bytes :=
  chunks.flatMap sendReplyChunk ++ sendReplyEnd

end Sending

section Reading

/-- The part of `struct evhttp_request` and its connection that reading a body uses. With
`chunkCb` the contents of `input_buffer` go to the user, who has got `delivered` so far. -/
structure BodyRequest where
  chunked : Bool
  ntoread : Int
  bodySize : Nat
  inputBuffer : Bytes
  chunkCb : Bool
  delivered : Bytes
  inputHeaders : List HttpHeader
  headersSize : Nat

variable (req : BodyRequest)

/-- `(*req->chunk_cb)(req, req->cb_arg)` and the drain after it; the user keeps the request. -/
def BodyRequest.runChunkCb : BodyRequest :=
  { req with delivered := req.delivered ++ req.inputBuffer, inputBuffer := [] }

def BodyRequest.completeChunk (buf : Bytes) : BodyRequest :=
  let req' := { req with
    inputBuffer := req.inputBuffer ++ buf.take req.ntoread.toNat
    ntoread := -1 }
  if req.chunkCb then req'.runChunkCb else req'

/-- What a turn of the loop over chunks does. -/
inductive ChunkTurn where
  | stop (status : MessageReadStatus) (req : BodyRequest) (buf : Bytes)
  | again (req : BodyRequest) (buf : Bytes)

variable (maxBodySize : Nat)

def readChunkSize (req : BodyRequest) (p rest : Bytes) : ChunkTurn :=
  let (ntoread, endp) := strtoll 16 p
  if (endp ≠ [] ∧ endp.head? ≠ some (byte ' ')) ∨ ntoread < 0 then .stop .dataCorrupted req rest
  else if evSizeMax - req.bodySize < ntoread.toNat then .stop .dataCorrupted req rest
  else if maxBodySize < req.bodySize + ntoread.toNat then .stop .dataTooLong req rest
  else
    let req := { req with bodySize := req.bodySize + ntoread.toNat, ntoread := ntoread }
    if ntoread = 0 then .stop .allDataRead req rest else .again req rest

def chunkedReadTurn (req : BodyRequest) (buf : Bytes) : ChunkTurn :=
  if buf.length = 0 then .stop .moreDataExpected req buf
  else if evSsizeMax < buf.length then .stop .dataCorrupted req buf
  else if req.ntoread < 0 then
    match evbufferReadln buf with
    | none => .stop .moreDataExpected req buf
    | some (line, rest) =>
      if (cstring line).length = 0 then .again req rest
      else readChunkSize maxBodySize req (cstring line) rest
  else if (evSsizeMax : Int) < req.ntoread then .stop .dataCorrupted req buf
  else if 0 < req.ntoread ∧ buf.length < req.ntoread.toNat then .stop .moreDataExpected req buf
  else .again (req.completeChunk buf) (buf.drop req.ntoread.toNat)

def chunkMeasure (buf : Bytes) : Nat :=
  buf.length * 2 + (if req.ntoread < 0 then 0 else 1)

lemma completeChunk_ntoread (buf : Bytes) : (req.completeChunk buf).ntoread = -1 := by
  unfold BodyRequest.completeChunk
  split <;> rfl

lemma readChunkSize_again {maxBodySize : Nat} {req req' : BodyRequest} {p rest buf : Bytes}
    (h : readChunkSize maxBodySize req p rest = .again req' buf) : buf = rest := by
  unfold readChunkSize at h
  split at h
  repeat' split at h
  all_goals first
    | cases h; rfl
    | cases h

lemma chunkedReadTurn_decreases {maxBodySize : Nat} {req req' : BodyRequest}
    {buf buf' : Bytes} (h : chunkedReadTurn maxBodySize req buf = .again req' buf') :
    chunkMeasure req' buf' < chunkMeasure req buf := by
  have hle : ∀ r b, chunkMeasure r b ≤ b.length * 2 + 1 := by
    intro r b
    unfold chunkMeasure
    split <;> omega
  unfold chunkedReadTurn at h
  split at h
  · cases h
  split at h
  · cases h
  split at h
  · rename_i hneg
    split at h
    · cases h
    · rename_i line rest hread
      have hlen := length_evbufferReadln hread
      have hbuf : buf' = rest := by
        split at h
        · cases h
          rfl
        · exact readChunkSize_again h
      have hnew := hle req' buf'
      rw [hbuf] at hnew ⊢
      simp only [chunkMeasure, if_pos hneg]
      unfold chunkMeasure at hnew
      omega
  · rename_i hneg
    split at h
    · cases h
    split at h
    · cases h
    · cases h
      simp only [chunkMeasure, completeChunk_ntoread, if_neg hneg, List.length_drop]
      simp only [show (-1 : Int) < 0 by omega, if_true]
      omega

def handleChunkedRead (maxBodySize : Nat) (req : BodyRequest) (buf : Bytes) :
    MessageReadStatus × BodyRequest × Bytes :=
  match _h : chunkedReadTurn maxBodySize req buf with
  | .stop status req buf => (status, req, buf)
  | .again req buf => handleChunkedRead maxBodySize req buf
termination_by chunkMeasure req buf
decreasing_by exact chunkedReadTurn_decreases _h

/-- What becomes of the request after a read. -/
inductive BodyOutcome where
  | wait
  | trailer
  | done
  | failDataTooLong
  | failInvalidHeader
  | canceled
  deriving DecidableEq

def lingeringFail (lingering : Bool) (req : BodyRequest) (buf : Bytes) : BodyOutcome × BodyRequest × Bytes :=
  if lingering then
    -- a negative `ntoread` is a huge size_t
    let n := if req.ntoread < 0 then buf.length else min buf.length req.ntoread.toNat
    let req := { req with ntoread := req.ntoread - n, bodySize := req.bodySize + n }
    (if req.ntoread = 0 then .failDataTooLong else .wait, req, buf.drop n)
  else (.failDataTooLong, req, buf)

def readBodyChecks (lingering : Bool) (req : BodyRequest) (buf : Bytes) : BodyOutcome × BodyRequest × Bytes :=
  if maxBodySize < req.bodySize ∨
      (req.chunked = false ∧ 0 ≤ req.ntoread ∧ maxBodySize < req.ntoread.toNat) then
    lingeringFail lingering req buf
  else
    let req := if req.inputBuffer ≠ [] ∧ req.chunkCb then req.runChunkCb else req
    (if req.ntoread = 0 then .done else .wait, req, buf)

def evhttpReadBody (lingering : Bool) (req : BodyRequest) (buf : Bytes) : BodyOutcome × BodyRequest × Bytes :=
  if req.chunked then
    match handleChunkedRead maxBodySize req buf with
    | (.allDataRead, req, buf) => (.trailer, req, buf)
    | (.dataCorrupted, req, buf) => (.failDataTooLong, req, buf)
    | (.dataTooLong, req, buf) => (.failDataTooLong, req, buf)
    | (.requestCanceled, req, buf) => (.canceled, req, buf)
    | (.moreDataExpected, req, buf) => readBodyChecks maxBodySize lingering req buf
  else if req.ntoread < 0 then
    if evSizeMax < req.bodySize + buf.length then (.failInvalidHeader, req, buf)
    else
      readBodyChecks maxBodySize lingering { req with
        bodySize := req.bodySize + buf.length
        inputBuffer := req.inputBuffer ++ buf } []
  else if req.chunkCb ∨ req.ntoread.toNat ≤ buf.length then
    let n := min buf.length req.ntoread.toNat
    readBodyChecks maxBodySize lingering { req with
      ntoread := req.ntoread - n
      bodySize := req.bodySize + n
      inputBuffer := req.inputBuffer ++ buf.take n } (buf.drop n)
  else readBodyChecks maxBodySize lingering req buf

def evhttpReadTrailer (limit : Option Nat) (req : BodyRequest) (buf : Bytes) : BodyOutcome × BodyRequest × Bytes :=
  let (status, parse) := evhttpParseHeaders limit ⟨req.inputHeaders, req.headersSize, buf⟩
  let req := { req with inputHeaders := parse.inputHeaders, headersSize := parse.headersSize }
  match status with
  | .dataCorrupted | .dataTooLong => (.failDataTooLong, req, parse.buffer)
  | .allDataRead => (.done, req, parse.buffer)
  | .moreDataExpected | .requestCanceled => (.wait, req, parse.buffer)

inductive BodyState where
  | readingBody
  | readingTrailer
  | finished
  | failed
  deriving DecidableEq

/-- A request whose body is being read, and the bytes at hand. -/
structure BodyReader where
  state : BodyState
  req : BodyRequest
  input : Bytes

def BodyReader.settle (state : BodyState) : BodyOutcome × BodyRequest × Bytes → BodyReader
  | (.wait, req, buf) => ⟨state, req, buf⟩
  | (.trailer, req, buf) => ⟨.readingTrailer, req, buf⟩
  | (.done, req, buf) => ⟨.finished, req, buf⟩
  | (_, req, buf) => ⟨.failed, req, buf⟩

/-- Bytes arrive and `evhttp_read_cb` runs. Once the message is complete reading is disabled. -/
def BodyReader.feed (lingering : Bool) (limit : Option Nat) (s : BodyReader) (data : Bytes) : BodyReader :=
  let input := s.input ++ data
  match s.state with
  | .readingBody =>
    match evhttpReadBody maxBodySize lingering s.req input with
    | (.trailer, req, buf) => .settle .readingTrailer (evhttpReadTrailer limit req buf)
    | r => .settle .readingBody r
  | .readingTrailer => .settle .readingTrailer (evhttpReadTrailer limit s.req input)
  | _ => { s with input := input }

/-- A request whose headers announced a chunked body, as `evhttp_get_body` leaves it. -/
def BodyReader.start (chunkCb : Bool) (headers : List HttpHeader) (headersSize : Nat) : BodyReader :=
  ⟨.readingBody, ⟨true, -1, 0, [], chunkCb, [], headers, headersSize⟩, []⟩

/-- What the user gets of the body: what was delivered and what is left for the end. -/
def BodyRequest.body : Bytes := req.delivered ++ req.inputBuffer

end Reading

end MyLibevent
