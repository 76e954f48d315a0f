import MyLibevent.Proofs.HttpProgress

/-!
# Reads of a server connection

One read continues the request from where it was: it waits for more, the request is complete, the connection
fails, or the request is refused.
-/

namespace MyLibevent.Proofs

open Evcon

section Progress

structure HeaderProgress (server : HttpServer) (evcon : Evcon) (lines : List Bytes)
    (mid : Bytes) : Prop where
  takes : TakesLines evcon.received lines mid
  size : evcon.req.headersSize = totalLength lines
  limit : evcon.req.headersSize ≤ server.maxHeadersSize

structure FreshBody (req : BodyRequest) : Prop where
  chunked : req.chunked = false
  ntoread : req.ntoread = 0
  bodySize : req.bodySize = 0
  body : req.body = []

structure TrailerProgress (server : HttpServer) (evcon : Evcon) (lines chunks : List Bytes)
    (mid mid' : Bytes) (trailers : List Bytes) : Prop where
  takes : TakesLines evcon.received lines mid
  body : ChunkEnd server.maxBodySize mid evcon.req.toBodyRequest mid' chunks
  taken : TakesLines mid' trailers evcon.input
  size : evcon.req.headersSize = totalLength lines + totalLength trailers
  limit : evcon.req.headersSize ≤ server.maxHeadersSize

def ReadProgress (server : HttpServer) (evcon : Evcon) : Prop :=
  match evcon.state with
  | .readingFirstline => evcon.input = evcon.received ∧ FreshBody evcon.req.toBodyRequest
  | .readingHeaders => FreshBody evcon.req.toBodyRequest ∧ ∃ lines, HeaderProgress server evcon lines evcon.input
  | .readingBody => evhttpMethodMayHaveBody evcon.req.type ∧
      ∃ lines mid, HeaderProgress server evcon lines mid ∧
        BodyProgress server.maxBodySize mid evcon.req.toBodyRequest evcon.input
  | .readingTrailer => evhttpMethodMayHaveBody evcon.req.type ∧
      ∃ lines chunks mid mid' trailers, TrailerProgress server evcon lines chunks mid mid' trailers
  | _ => False

/-- The body of a request and the bytes from `mid` to `mid'` that it came in: none for a method without
body, chunks if it is chunked, and otherwise as many as were declared. -/
def BodyTaken (req : HttpRequest) (mid mid' : Bytes) (trailers : List Bytes) : Prop :=
  if evhttpMethodMayHaveBody req.type = false then mid' = mid ∧ trailers = [] ∧ req.body = []
  else if req.chunked then ∃ chunks, ChunkPending mid chunks 0 mid' ∧ req.body = chunks.flatten
  else trailers = [] ∧ mid = req.body ++ mid' ∧
    req.body.length = ((evhttpGetBodyLength req.inputHeaders).getD 0).toNat

/-- A completed request: lines, a body and trailer lines make up the bytes it has used, within the
limits of the server. -/
def WithinLimits (server : HttpServer) (c : CompletedRequest) : Prop :=
  ∃ lines mid mid' trailers, TakesLines c.received lines mid ∧ BodyTaken c.req mid mid' trailers ∧
    TakesLines mid' trailers c.input ∧
    totalLength lines + totalLength trailers ≤ server.maxHeadersSize ∧
    c.req.body.length ≤ server.maxBodySize

def requestHasBody (req : HttpRequest) : Bool :=
  evhttpMethodMayHaveBody req.type &&
    (isChunked req.inputHeaders || (evhttpGetBodyLength req.inputHeaders).any fun n => 1 ≤ n)

structure ReadKept (a b : Evcon) : Prop where
  deferredRead : b.deferredRead = a.deferredRead
  handler : b.handler = a.handler
  freed : b.freed = a.freed
  received : b.received = a.received
  completed : b.completed = a.completed
  illegalState : b.illegalState = a.illegalState

inductive ReadEnd (server : HttpServer) (a : Evcon) : Evcon → Prop
  | wait {b : Evcon} : ReadKept a b → ReadProgress server b → ReadEnd server a b
  | done {b : Evcon} : ReadKept a b → WithinLimits server ⟨b.req, b.received, b.input⟩ →
      (b.readEnabled = false ∨ requestHasBody b.req = false) →
      ReadEnd server a (connectionDone server b)
  | fail {b : Evcon} {error : RequestError} : ReadKept a b →
      (b.state = .readingBody → NotUntilClose b.req.toBodyRequest) →
      error = .invalidHeader ∨ error = .dataTooLong → ReadEnd server a (connectionFail server b error)
  | refuse {b : Evcon} {code : Nat} : ReadKept a b →
      (b.state = .readingBody → NotUntilClose b.req.toBodyRequest) →
      ReadEnd server a (sendError server b code)

variable {a b c : Evcon}

lemma ReadKept.trans (h : ReadKept a b) (h' : ReadKept b c) : ReadKept a c where
  deferredRead := h'.deferredRead.trans h.deferredRead
  handler := h'.handler.trans h.handler
  freed := h'.freed.trans h.freed
  received := h'.received.trans h.received
  completed := h'.completed.trans h.completed
  illegalState := h'.illegalState.trans h.illegalState

lemma ReadEnd.of_kept {server : HttpServer} (hab : ReadKept a b) (h : ReadEnd server b c) : ReadEnd server a c := by
  cases h with
  | wait hkept hp => exact .wait (hab.trans hkept) hp
  | done hkept hw hr => exact .done (hab.trans hkept) hw hr
  | fail hkept hb he => exact .fail (hab.trans hkept) hb he
  | refuse hkept hb => exact .refuse (hab.trans hkept) hb

end Progress

section Reads

variable {server : HttpServer} {evcon evcon' : Evcon} {lines : List Bytes} {mid : Bytes}

lemma progress_firstline_iff (hstate : evcon.state = .readingFirstline) : ReadProgress server evcon ↔
    evcon.input = evcon.received ∧ FreshBody evcon.req.toBodyRequest := by
  simp only [ReadProgress, hstate]

lemma progress_headers_iff (hstate : evcon.state = .readingHeaders) : ReadProgress server evcon ↔
    FreshBody evcon.req.toBodyRequest ∧ ∃ lines, HeaderProgress server evcon lines evcon.input := by
  simp only [ReadProgress, hstate]

lemma progress_body_iff (hstate : evcon.state = .readingBody) : ReadProgress server evcon ↔
    evhttpMethodMayHaveBody evcon.req.type ∧ ∃ lines mid, HeaderProgress server evcon lines mid ∧
      BodyProgress server.maxBodySize mid evcon.req.toBodyRequest evcon.input := by
  simp only [ReadProgress, hstate]

lemma progress_trailer_iff (hstate : evcon.state = .readingTrailer) : ReadProgress server evcon ↔
    evhttpMethodMayHaveBody evcon.req.type ∧ ∃ lines chunks mid mid' trailers,
      TrailerProgress server evcon lines chunks mid mid' trailers := by
  simp only [ReadProgress, hstate]

lemma ReadProgress.extend (h : ReadProgress server evcon) (data : Bytes)
    (hstate : evcon'.state = evcon.state) (hreq : evcon'.req = evcon.req)
    (hreceived : evcon'.received = evcon.received ++ data)
    (hinput : evcon'.input = evcon.input ++ data) : ReadProgress server evcon' := by
  have hheader {lines : List Bytes} {mid : Bytes} (hlines : HeaderProgress server evcon lines mid) :
      HeaderProgress server evcon' lines (mid ++ data) := by
    refine ⟨?_, hreq ▸ hlines.size, hreq ▸ hlines.limit⟩
    rw [hreceived]
    exact hlines.takes.extend data
  cases hs : evcon.state with
  | readingFirstline =>
    obtain ⟨hsame, hfresh⟩ := (progress_firstline_iff hs).mp h
    rw [progress_firstline_iff (hstate.trans hs), hreq, hreceived, hinput, hsame]
    exact ⟨rfl, hfresh⟩
  | readingHeaders =>
    obtain ⟨hfresh, lines, hlines⟩ := (progress_headers_iff hs).mp h
    rw [progress_headers_iff (hstate.trans hs), hreq, hinput]
    exact ⟨hfresh, lines, hheader hlines⟩
  | readingBody =>
    obtain ⟨hmay, lines, mid, hlines, hbody⟩ := (progress_body_iff hs).mp h
    rw [progress_body_iff (hstate.trans hs), hreq, hinput]
    exact ⟨hmay, lines, mid ++ data, hheader hlines, hbody.extend data⟩
  | readingTrailer =>
    obtain ⟨hmay, lines, chunks, mid, mid', trailers, htrailer⟩ := (progress_trailer_iff hs).mp h
    rw [progress_trailer_iff (hstate.trans hs), hreq]
    refine ⟨hmay, lines, chunks, mid ++ data, mid' ++ data, trailers, ?_, ?_, ?_, ?_, ?_⟩
    · rw [hreceived]
      exact htrailer.takes.extend data
    · rw [hreq]
      exact ⟨htrailer.body.chunked, htrailer.body.body, htrailer.body.size, htrailer.body.last.extend data⟩
    · rw [hinput]
      exact htrailer.taken.extend data
    · rw [hreq]
      exact htrailer.size
    · rw [hreq]
      exact htrailer.limit
  | _ => simp [ReadProgress, hs] at h

lemma ReadProgress.of_eq (h : ReadProgress server evcon) (hstate : evcon'.state = evcon.state)
    (hreq : evcon'.req = evcon.req) (hreceived : evcon'.received = evcon.received)
    (hinput : evcon'.input = evcon.input) : ReadProgress server evcon' :=
  h.extend [] hstate hreq (by rw [hreceived, List.append_nil]) (by rw [hinput, List.append_nil])

def withBody (evcon : Evcon) (req : BodyRequest) (input : Bytes) : Evcon :=
  { evcon with req := { evcon.req with toBodyRequest := req }, input := input }

lemma readKept_withBody (evcon : Evcon) (req : BodyRequest) (input : Bytes) :
    ReadKept evcon (withBody evcon req input) := ⟨rfl, rfl, rfl, rfl, rfl, rfl⟩

lemma settleBody_end {outcome : BodyOutcome} {req : BodyRequest} {input : Bytes}
    (hwait : outcome = .wait → ReadProgress server (withBody evcon req input))
    (htrailer : outcome = .trailer → ReadProgress server { withBody evcon req input with state := .readingTrailer })
    (hdone : outcome = .done → WithinLimits server ⟨{ evcon.req with toBodyRequest := req }, evcon.received, input⟩)
    (hcanceled : outcome ≠ .canceled) (hclose : evcon.state = .readingBody → NotUntilClose req) :
    ReadEnd server evcon (settleBody server evcon (outcome, req, input)) := by
  have hkept := readKept_withBody evcon req input
  cases outcome with
  | wait => exact .wait hkept (hwait rfl)
  | trailer => exact .wait ⟨rfl, rfl, rfl, rfl, rfl, rfl⟩ (htrailer rfl)
  | done =>
    exact .done (b := { withBody evcon req input with readEnabled := false })
      ⟨rfl, rfl, rfl, rfl, rfl, rfl⟩ (hdone rfl) (.inl rfl)
  | failDataTooLong => exact .fail hkept hclose (.inr rfl)
  | failInvalidHeader => exact .fail hkept hclose (.inl rfl)
  | canceled => exact absurd rfl hcanceled

lemma TrailerProgress.withinLimits {chunks trailers : List Bytes} {mid' : Bytes}
    (h : TrailerProgress server evcon lines chunks mid mid' trailers)
    (hmay : evhttpMethodMayHaveBody evcon.req.type) :
    WithinLimits server ⟨evcon.req, evcon.received, evcon.input⟩ := by
  refine ⟨lines, mid, mid', trailers, h.takes, ?_, h.taken, h.size ▸ h.limit, ?_⟩
  · have hmay' : ¬ evhttpMethodMayHaveBody evcon.req.type = false := by simp [hmay]
    simp only [BodyTaken]
    rw [if_neg hmay', if_pos h.body.chunked]
    exact ⟨chunks, h.body.last, h.body.body⟩
  · obtain ⟨hsize, hlimit⟩ := h.body.size
    rw [hsize] at hlimit
    simp only
    rw [h.body.body, List.length_flatten]
    exact hlimit

lemma readTrailer_end (hstate : evcon.state = .readingTrailer) (h : ReadProgress server evcon) :
    ReadEnd server evcon (readTrailer server evcon) := by
  obtain ⟨hmay, lines, chunks, mid, mid', trailers, h⟩ := (progress_trailer_iff hstate).mp h
  obtain ⟨status, parse, lines', hparse, htakes, hsize, hlimit⟩ :=
    evhttpParseHeaders_lines server.maxHeadersSize ⟨evcon.req.inputHeaders, evcon.req.headersSize, evcon.input⟩
  unfold readTrailer evhttpReadTrailer
  simp only [hparse]
  generalize hreq : { evcon.req.toBodyRequest with
    inputHeaders := parse.inputHeaders, headersSize := parse.headersSize } = req
  have hnext (hc : status ≠ .dataCorrupted) (hl : status ≠ .dataTooLong) :
      TrailerProgress server (withBody evcon req parse.buffer) lines chunks mid mid' (trailers ++ lines') := by
    subst hreq
    refine ⟨h.takes, ⟨h.body.chunked, h.body.body, h.body.size, h.body.last⟩, h.taken.trans htakes, ?_,
      hlimit hc hl⟩
    have hbefore := h.size
    rw [totalLength_append]
    simp only [withBody] at hsize ⊢
    omega
  have hwait (hc : status ≠ .dataCorrupted) (hl : status ≠ .dataTooLong) :
      ReadProgress server (withBody evcon req parse.buffer) := by
    have hstate' : (withBody evcon req parse.buffer).state = .readingTrailer := hstate
    rw [progress_trailer_iff hstate']
    exact ⟨hmay, lines, chunks, mid, mid', _, hnext hc hl⟩
  have hclose : evcon.state = .readingBody → NotUntilClose req := by
    simp [hstate]
  cases status with
  | dataCorrupted | dataTooLong =>
    exact settleBody_end (by simp) (by simp) (by simp) (by simp) hclose
  | moreDataExpected | requestCanceled =>
    exact settleBody_end (fun _ => hwait (by simp) (by simp)) (by simp) (by simp) (by simp) hclose
  | allDataRead =>
    refine settleBody_end (by simp) (by simp) (fun _ => ?_) (by simp) hclose
    exact (hnext (by simp) (by simp)).withinLimits hmay

lemma LengthEnd.withinLimits {total : Nat} (hlines : HeaderProgress server evcon lines mid)
    (h : LengthEnd server.maxBodySize total mid evcon.req.toBodyRequest evcon.input)
    (hdeclared : evhttpGetBodyLength evcon.req.inputHeaders = some total)
    (hmay : evhttpMethodMayHaveBody evcon.req.type) :
    WithinLimits server ⟨evcon.req, evcon.received, evcon.input⟩ := by
  refine ⟨lines, mid, evcon.input, [], hlines.takes, ?_, .nil, ?_, h.length.trans_le h.limit⟩
  · have hmay' : ¬ evhttpMethodMayHaveBody evcon.req.type = false := by simp [hmay]
    have hplain : ¬ evcon.req.chunked := by simp [h.chunked]
    unfold BodyTaken
    rw [if_neg hmay', if_neg hplain]
    refine ⟨rfl, h.bytes, ?_⟩
    rw [hdeclared]
    exact h.length
  · rw [totalLength_nil, Nat.add_zero, ← hlines.size]
    exact hlines.limit

section BodyResult

variable {lines : List Bytes} {mid buf : Bytes} {outcome : BodyOutcome} {req : BodyRequest}

section

variable (h : BodyResult server.maxBodySize mid evcon.req.toBodyRequest outcome req buf)
include h

section

variable (hlines : HeaderProgress server evcon lines mid)
include hlines

lemma BodyResult.headers : HeaderProgress server (withBody evcon req buf) lines mid :=
  ⟨hlines.takes, h.same.size.trans hlines.size, h.same.size.trans_le hlines.limit⟩

lemma BodyResult.trailer_progress
    (hmay : evhttpMethodMayHaveBody evcon.req.type) (hout : outcome = .trailer) :
    ReadProgress server { withBody evcon req buf with state := .readingTrailer } := by
  obtain ⟨chunks, hend⟩ := h.trailer hout
  have hlines' := h.headers hlines
  exact ⟨hmay, lines, chunks, mid, buf, [], hlines'.takes, hend, .nil, hlines'.size, hlines'.limit⟩

lemma BodyResult.settle_end
    (hmay : evhttpMethodMayHaveBody evcon.req.type) (hstate : evcon.state = .readingBody) :
    ReadEnd server evcon (settleBody server evcon (outcome, req, buf)) := by
  refine settleBody_end (fun hout => ?_) (h.trailer_progress hlines hmay) (fun hout => ?_)
    h.notCanceled (fun _ => h.notUntilClose)
  · have hstate' : (withBody evcon req buf).state = .readingBody := hstate
    rw [progress_body_iff hstate']
    exact ⟨hmay, lines, mid, h.headers hlines, h.wait hout⟩
  · obtain ⟨total, hdeclared, hlength⟩ := h.done hout
    exact hlength.withinLimits (h.headers hlines) hdeclared hmay

end

end

end BodyResult

lemma readBody_end (hstate : evcon.state = .readingBody) (h : ReadProgress server evcon) :
    ReadEnd server evcon (readBody server evcon) := by
  obtain ⟨hmay, lines, mid, hlines, h⟩ := (progress_body_iff hstate).mp h
  obtain ⟨outcome, req, buf, hread, hresult⟩ := evhttpReadBody_result h server.lingeringClose
  unfold readBody
  rw [hread]
  by_cases hout : outcome = .trailer
  · subst hout
    rw [if_pos rfl]
    have hkept : ReadKept evcon { withBody evcon req buf with state := .readingTrailer } :=
      ⟨rfl, rfl, rfl, rfl, rfl, rfl⟩
    exact (readTrailer_end rfl (hresult.trailer_progress hlines hmay rfl)).of_kept hkept
  · rw [if_neg hout]
    exact hresult.settle_end hlines hmay hstate

lemma expectBody_end (hstate : evcon.state = .readingBody) (h : ReadProgress server evcon)
    (hfresh : evcon.req.chunked → evcon.req.ntoread = -1) :
    ReadEnd server evcon (expectBody server evcon) := by
  obtain ⟨hmay, lines, mid, hlines, hbody⟩ := (progress_body_iff hstate).mp h
  have hclose : evcon.state = .readingBody → NotUntilClose evcon.req.toBodyRequest :=
    fun _ => hbody.notUntilClose
  unfold expectBody
  split
  · exact readBody_end hstate h
  · exact .refuse ⟨rfl, rfl, rfl, rfl, rfl, rfl⟩ hclose
  split
  · rename_i hlong
    obtain ⟨hpos, -, hlong⟩ := hlong
    obtain ⟨chunks, hchunks⟩ | ⟨total, hdeclared, hlength⟩ := hbody
    · have hnegative := hfresh hchunks.chunked
      omega
    · have hleft := hlength.left
      obtain ⟨outcome, req, buf, hfail, hresult⟩ :=
        lingeringFail_result hlength hdeclared (by omega) server.lingeringClose
      rw [hfail]
      exact hresult.settle_end hlines hmay hstate
  split
  · have hkept : ReadKept evcon (evcon.sendContinue (continueText evcon.req)) :=
      ⟨rfl, rfl, rfl, rfl, rfl, rfl⟩
    have hstate' : (evcon.sendContinue (continueText evcon.req)).state = .readingBody := hstate
    have hprogress : ReadProgress server (evcon.sendContinue (continueText evcon.req)) :=
      h.of_eq rfl rfl rfl rfl
    exact (readBody_end hstate' hprogress).of_kept hkept
  · exact readBody_end hstate h

section NewBody

variable {lines : List Bytes}

lemma HeaderProgress.withinLimits (h : HeaderProgress server evcon lines evcon.input)
    (hbody : evcon.req.body = [])
    (hnone : evhttpMethodMayHaveBody evcon.req.type → evcon.req.chunked = false ∧
      (evhttpGetBodyLength evcon.req.inputHeaders).getD 0 < 1) :
    WithinLimits server ⟨evcon.req, evcon.received, evcon.input⟩ := by
  refine ⟨lines, evcon.input, evcon.input, [], h.takes, ?_, .nil, ?_, ?_⟩
  · unfold BodyTaken
    by_cases hmay : evhttpMethodMayHaveBody evcon.req.type
    · obtain ⟨hplain, hdeclared⟩ := hnone hmay
      rw [if_neg (by simp [hmay]), if_neg (by simp [hplain]), hbody]
      refine ⟨rfl, rfl, ?_⟩
      dsimp only
      rw [List.length_nil]
      omega
    · rw [if_pos (Bool.eq_false_iff.mpr hmay)]
      exact ⟨rfl, rfl, hbody⟩
  · rw [totalLength_nil, Nat.add_zero, ← h.size]
    exact h.limit
  · simp [hbody]

lemma expectNew_end (hstate : evcon.state = .readingBody)
    (hmay : evhttpMethodMayHaveBody evcon.req.type)
    (hlines : HeaderProgress server evcon lines evcon.input)
    (hbody : BodyProgress server.maxBodySize evcon.input evcon.req.toBodyRequest evcon.input)
    (hfresh : evcon.req.chunked → evcon.req.ntoread = -1) :
    ReadEnd server evcon (expectBody server evcon) :=
  expectBody_end hstate ((progress_body_iff hstate).mpr ⟨hmay, lines, evcon.input, hlines, hbody⟩) hfresh

end NewBody

lemma getBody_end (hstate : evcon.state = .readingHeaders) (h : ReadProgress server evcon) :
    ReadEnd server evcon (getBody server evcon) := by
  obtain ⟨hfresh, lines, hlines⟩ := (progress_headers_iff hstate).mp h
  have hlines' (state : EvconState) (chunked : Bool) (ntoread : Int) : HeaderProgress server
      { evcon with state := state, req := { evcon.req with chunked := chunked, ntoread := ntoread } }
      lines evcon.input := ⟨hlines.takes, hlines.size, hlines.limit⟩
  unfold getBody
  by_cases hmay : evhttpMethodMayHaveBody evcon.req.type
  · rw [if_neg (by simp [hmay])]
    dsimp only
    split
    · have hsize := hfresh.bodySize
      have hnext : ChunkProgress server.maxBodySize evcon.input
          { evcon.req.toBodyRequest with chunked := true, ntoread := -1 } evcon.input [] :=
        ⟨rfl, hfresh.body, hsize.trans_le (Nat.zero_le _), .inl ⟨rfl, .nil, hsize⟩⟩
      refine .of_kept ?_ (expectNew_end rfl hmay (hlines' _ true (-1)) (.inl ⟨[], hnext⟩) fun _ => rfl)
      exact ⟨rfl, rfl, rfl, rfl, rfl, rfl⟩
    rename_i hplain
    cases hdeclared : evhttpGetBodyLength evcon.req.inputHeaders with
    | none =>
      refine .fail ⟨rfl, rfl, rfl, rfl, rfl, rfl⟩ (fun _ => .inr ?_) (.inl rfl)
      exact hfresh.ntoread.ge
    | some ntoread =>
      dsimp only
      split_ifs with hnone
      · refine .done ⟨rfl, rfl, rfl, rfl, rfl, rfl⟩ ?_ (.inr ?_)
        · refine (hlines' _ evcon.req.chunked ntoread).withinLimits hfresh.body fun _ => ⟨hfresh.chunked, ?_⟩
          simp only [hdeclared, Option.getD_some]
          exact hnone
        · have hnone' : ¬ 1 ≤ ntoread := Int.not_le.mpr hnone
          simp [requestHasBody, hplain, hdeclared, hnone']
      · obtain ⟨total, rfl⟩ : ∃ total : Nat, ntoread = total := ⟨ntoread.toNat, by omega⟩
        have hnext : LengthProgress server.maxBodySize total evcon.input
            { evcon.req.toBodyRequest with ntoread := total } evcon.input := by
          have hsize := hfresh.bodySize
          refine ⟨hfresh.chunked, by simp only; omega, by simp only; omega, fun _ => ?_⟩
          change _ = evcon.req.body ++ _ ∧ evcon.req.body.length = evcon.req.bodySize
          rw [hfresh.body, hsize]
          exact ⟨rfl, rfl⟩
        refine .of_kept ?_ (expectNew_end rfl hmay (hlines' _ evcon.req.chunked total)
          (.inr ⟨total, hdeclared, hnext⟩) fun htrue => ?_)
        · exact ⟨rfl, rfl, rfl, rfl, rfl, rfl⟩
        · cases hfresh.chunked.symm.trans htrue
  · rw [if_pos (by simp [hmay])]
    refine .done ⟨rfl, rfl, rfl, rfl, rfl, rfl⟩ ?_ (.inr (by simp [requestHasBody, hmay]))
    exact hlines.withinLimits hfresh.body fun htrue => absurd htrue hmay

lemma readHeader_end (hstate : evcon.state = .readingHeaders) (h : ReadProgress server evcon) :
    ReadEnd server evcon (readHeader server evcon) := by
  obtain ⟨hfresh, lines, hlines⟩ := (progress_headers_iff hstate).mp h
  obtain ⟨status, parse, lines', hparse, htakes, hsize, hlimit⟩ :=
    evhttpParseHeaders_lines server.maxHeadersSize ⟨evcon.req.inputHeaders, evcon.req.headersSize, evcon.input⟩
  unfold readHeader
  simp only [hparse]
  generalize hreq : { evcon.req.toBodyRequest with
    inputHeaders := parse.inputHeaders, headersSize := parse.headersSize } = req
  have hkept := readKept_withBody evcon req parse.buffer
  have hstate' : (withBody evcon req parse.buffer).state = .readingHeaders := hstate
  have hnext (hc : status ≠ .dataCorrupted) (hl : status ≠ .dataTooLong) :
      ReadProgress server (withBody evcon req parse.buffer) := by
    rw [progress_headers_iff hstate']
    subst hreq
    refine ⟨⟨hfresh.chunked, hfresh.ntoread, hfresh.bodySize, hfresh.body⟩, lines ++ lines',
      hlines.takes.trans htakes, ?_, hlimit hc hl⟩
    have hbefore := hlines.size
    rw [totalLength_append]
    simp only [withBody] at hsize ⊢
    omega
  have hclose : (withBody evcon req parse.buffer).state = .readingBody →
      NotUntilClose (withBody evcon req parse.buffer).req.toBodyRequest := by
    simp [hstate']
  cases status with
  | dataCorrupted | dataTooLong => exact .fail hkept hclose (.inl rfl)
  | moreDataExpected | requestCanceled => exact .wait hkept (hnext (by simp) (by simp))
  | allDataRead => exact (getBody_end hstate' (hnext (by simp) (by simp))).of_kept hkept

lemma evhttpParseRequestLine_body (names : HttpNames) (req : HttpRequest) (line : Bytes) :
    (evhttpParseRequestLine names req line).2.toBodyRequest = req.toBodyRequest := by
  unfold evhttpParseRequestLine
  split
  · rfl
  split
  · rfl
  split
  · rfl
  simp only
  split
  · rfl
  split
  · rfl
  · rfl

structure FirstlineResult (limit : Nat) (req : HttpRequest) (buffer : Bytes)
    (status : MessageReadStatus) (req' : HttpRequest) (rest : Bytes) : Prop where
  wait : status = .moreDataExpected → req' = req ∧ rest = buffer
  notCanceled : status ≠ .requestCanceled
  done : status = .allDataRead → ∃ line, evbufferReadln buffer = some (line, rest) ∧
    line.length ≤ limit ∧ req'.toBodyRequest = { req.toBodyRequest with headersSize := line.length }

lemma evhttpParseFirstline_result (names : HttpNames) (limit : Nat) (req : HttpRequest)
    (buffer : Bytes) : ∃ status req' rest,
      evhttpParseFirstline names limit req buffer = (status, req', rest) ∧
        FirstlineResult limit req buffer status req' rest := by
  unfold evhttpParseFirstline
  cases hread : evbufferReadln buffer with
  | none => exact ⟨_, _, _, rfl, fun _ => ⟨rfl, rfl⟩, by split <;> simp, by split <;> simp⟩
  | some r =>
    obtain ⟨line, rest⟩ := r
    dsimp only
    split
    · exact ⟨_, _, _, rfl, by simp, by simp, by simp⟩
    · rename_i hshort
      refine ⟨_, _, _, rfl, by split <;> simp, by split <;> simp, fun _ => ?_⟩
      refine ⟨line, hread, Nat.not_lt.mp hshort, ?_⟩
      rw [evhttpParseRequestLine_body]

lemma readFirstline_end (hstate : evcon.state = .readingFirstline) (h : ReadProgress server evcon) :
    ReadEnd server evcon (readFirstline server evcon) := by
  obtain ⟨hinput, hfresh⟩ := (progress_firstline_iff hstate).mp h
  obtain ⟨status, req, rest, hparse, hresult⟩ :=
    evhttpParseFirstline_result server.names server.maxHeadersSize evcon.req evcon.input
  have hclose : evcon.state = .readingBody → NotUntilClose req.toBodyRequest := by
    simp [hstate]
  unfold readFirstline
  rw [hparse]
  cases status with
  | dataCorrupted | dataTooLong => exact .fail ⟨rfl, rfl, rfl, rfl, rfl, rfl⟩ hclose (.inl rfl)
  | moreDataExpected =>
    obtain ⟨rfl, rfl⟩ := hresult.wait rfl
    exact .wait ⟨rfl, rfl, rfl, rfl, rfl, rfl⟩ h
  | requestCanceled => exact absurd rfl hresult.notCanceled
  | allDataRead =>
    obtain ⟨line, hread, hlimit, hreq⟩ := hresult.done rfl
    refine .of_kept ?_ (readHeader_end rfl ⟨?_, [line], ?_, ?_, ?_⟩)
    · exact ⟨rfl, rfl, rfl, rfl, rfl, rfl⟩
    · dsimp only
      rw [hreq]
      exact ⟨hfresh.chunked, hfresh.ntoread, hfresh.bodySize, hfresh.body⟩
    · rw [hinput] at hread
      exact TakesLines.nil.line hread
    · simp [hreq]
    · simp only [hreq]
      exact hlimit

lemma readCb_end (h : ReadProgress server evcon) :
    ReadEnd server { evcon with deferredRead := false } (readCb server evcon) := by
  have h' : ReadProgress server { evcon with deferredRead := false } := h.of_eq rfl rfl rfl rfl
  unfold readCb
  generalize { evcon with deferredRead := false } = evcon' at h' ⊢
  dsimp only
  cases hstate : evcon'.state with
  | readingFirstline => exact readFirstline_end hstate h'
  | readingHeaders => exact readHeader_end hstate h'
  | readingBody => exact readBody_end hstate h'
  | readingTrailer => exact readTrailer_end hstate h'
  | _ => simp [ReadProgress, hstate] at h'

end Reads

end MyLibevent.Proofs
