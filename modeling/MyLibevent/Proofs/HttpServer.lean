import MyLibevent.Proofs.HttpReads

/-!
# Runs of a server connection

What has been read makes up the request while reads are possible, and completed requests are within the
limits. A connection reads in the state `EVCON_WRITING` only while the handler of a request without body has
not replied.
-/

namespace MyLibevent.Proofs

open Evcon

section Invariant

structure ConnInv (server : HttpServer) (evcon : Evcon) : Prop where
  completed : ∀ c ∈ evcon.completed, WithinLimits server c
  reading : evcon.readEnabled → evcon.readCbSet → ReadProgress server evcon ∨
    (evcon.state = .writing ∧ evcon.handler = .called ∧ requestHasBody evcon.req = false)
  deferred : evcon.deferredRead → evcon.state = .readingFirstline ∧ ReadProgress server evcon
  close : evcon.state = .readingBody → NotUntilClose evcon.req.toBodyRequest
  handler : evcon.handler = .called ∨ evcon.handler = .started → evcon.state = .writing

structure Settled (server : HttpServer) (evcon : Evcon) : Prop where
  completed : ∀ c ∈ evcon.completed, WithinLimits server c
  notDeferred : evcon.deferredRead = false
  close : evcon.state = .readingBody → NotUntilClose evcon.req.toBodyRequest

variable {server : HttpServer} {evcon evcon' : Evcon}

section

variable (h : Settled server evcon)
include h

lemma Settled.writeBuffer (cb : EvconCb)
    (hhandler : evcon.handler = .called ∨ evcon.handler = .started → evcon.state = .writing) :
    ConnInv server (evcon.writeBuffer cb) where
  completed := h.completed
  reading := by simp [Evcon.writeBuffer]
  deferred := by simp [Evcon.writeBuffer, h.notDeferred]
  close := h.close
  handler := hhandler

lemma Settled.send (code : Nat) (text : Bytes)
    (headers : List HttpHeader) : ConnInv server (evcon.send code text headers) := by
  have hsettled : Settled server { evcon with
      req := { evcon.req with responseCode := code, outputHeaders := headers, userdone := true }
      output := evcon.output ++ text
      handler := .finished } := ⟨h.completed, h.notDeferred, h.close⟩
  exact hsettled.writeBuffer .sendDone (by simp)

lemma Settled.sendError (error : Nat) : ConnInv server (sendError server evcon error) := by
  have hreq : ∀ req : HttpRequest, req.toBodyRequest = evcon.req.toBodyRequest →
      Settled server { evcon with req := req } := by
    intro req hbody
    refine ⟨h.completed, h.notDeferred, fun hstate => ?_⟩
    rw [hbody]
    exact h.close hstate
  refine (hreq _ ?_).send ..
  split
  · rfl
  · rfl

lemma Settled.handleRequest (hstate : evcon.state = .writing ∨ evcon.req.uri = none)
    (hread : evcon.readEnabled = false ∨ requestHasBody evcon.req = false) :
    ConnInv server (handleRequest server evcon) := by
  have hsettled : Settled server { evcon with req := { evcon.req with userdone := false } } :=
    ⟨h.completed, h.notDeferred, h.close⟩
  unfold Evcon.handleRequest
  dsimp only
  split
  · rename_i type uri htype huri
    have hwriting : evcon.state = .writing := by
      obtain hwriting | hnone := hstate
      · exact hwriting
      · rw [hnone] at huri
        cases huri
    split
    · exact hsettled.sendError 501
    split
    · refine ⟨h.completed, fun henabled _ => .inr ⟨hwriting, rfl, ?_⟩, by simp [h.notDeferred], h.close,
        fun _ => hwriting⟩
      obtain hdisabled | hnone := hread
      · rw [hdisabled] at henabled
        cases henabled
      · exact hnone
    · exact hsettled.sendError 404
  · exact hsettled.sendError _

lemma Settled.connectionFail (error : RequestError)
    (hhandler : evcon.handler = .called ∨ evcon.handler = .started → evcon.state = .writing) :
    ConnInv server (connectionFail server evcon error) := by
  have hfree : ∀ code, ConnInv server ({ evcon with
      readEnabled := false, writeEnabled := false, req := { evcon.req with responseCode := code } }.free) :=
    fun code => ⟨h.completed, by simp [free], by simp [free], h.close, hhandler⟩
  have hreply : ∀ code, ConnInv server (Evcon.handleRequest server { evcon with
      readEnabled := false, writeEnabled := false
      req := { evcon.req with responseCode := code, uri := none } }) := by
    intro code
    refine Settled.handleRequest ⟨h.completed, h.notDeferred, h.close⟩ (.inr rfl) (.inl rfl)
  cases error with
  | timeout | eof => exact hfree _
  | invalidHeader | dataTooLong => exact hreply _

end

lemma connectionDone_inv (hcompleted : ∀ c ∈ evcon.completed, WithinLimits server c)
    (hdeferred : evcon.deferredRead = false)
    (hlimits : WithinLimits server ⟨evcon.req, evcon.received, evcon.input⟩)
    (hread : evcon.readEnabled = false ∨ requestHasBody evcon.req = false) :
    ConnInv server (connectionDone server evcon) := by
  refine Settled.handleRequest ⟨?_, hdeferred, by simp⟩ (.inl rfl) hread
  exact List.forall_mem_append.mpr ⟨hcompleted, List.forall_mem_singleton.mpr hlimits⟩

lemma ReadEnd.inv (h : ReadEnd server evcon evcon')
    (hcompleted : ∀ c ∈ evcon.completed, WithinLimits server c)
    (hdeferred : evcon.deferredRead = false)
    (hhandler : evcon.handler ≠ .called ∧ evcon.handler ≠ .started) : ConnInv server evcon' := by
  have hsettled {b : Evcon} (hkept : ReadKept evcon b)
      (hclose : b.state = .readingBody → NotUntilClose b.req.toBodyRequest) : Settled server b :=
    ⟨hkept.completed ▸ hcompleted, hkept.deferredRead.trans hdeferred, hclose⟩
  have hidle {b : Evcon} (hkept : ReadKept evcon b) : ¬ (b.handler = .called ∨ b.handler = .started) := by
    rw [hkept.handler]
    simp [hhandler]
  cases h with
  | wait hkept hprogress =>
    refine ⟨hkept.completed ▸ hcompleted, fun _ _ => .inl hprogress, ?_, ?_, fun hh => absurd hh (hidle hkept)⟩
    · intro htrue
      rw [hkept.deferredRead, hdeferred] at htrue
      cases htrue
    · intro hstate
      obtain ⟨-, lines, mid, -, hbody⟩ := (progress_body_iff hstate).mp hprogress
      exact hbody.notUntilClose
  | done hkept hlimits hread =>
    exact connectionDone_inv (hkept.completed ▸ hcompleted) (hkept.deferredRead.trans hdeferred) hlimits hread
  | fail hkept hclose herror =>
    exact (hsettled hkept hclose).connectionFail _ fun hh => absurd hh (hidle hkept)
  | refuse hkept hclose => exact (hsettled hkept hclose).sendError _

section

variable (h : ConnInv server evcon)
include h

lemma readCb_inv
    (hread : ReadProgress server evcon ∨
      (evcon.state = .writing ∧ evcon.handler = .called ∧ requestHasBody evcon.req = false)) :
    ConnInv server (readCb server evcon) := by
  obtain hprogress | ⟨hstate, hhandler, hnone⟩ := hread
  · refine (readCb_end hprogress).inv h.completed rfl ?_
    have hstate : evcon.state ≠ .writing := by
      intro hstate
      simp [ReadProgress, hstate] at hprogress
    exact ⟨fun hh => hstate (h.handler (.inl hh)), fun hh => hstate (h.handler (.inr hh))⟩
  · unfold readCb
    rw [hstate]
    exact ⟨h.completed, fun _ _ => .inr ⟨rfl, hhandler, hnone⟩, by simp, by simp, fun _ => rfl⟩

lemma recv_inv (hread : evcon.readEnabled) (data : Bytes) : ConnInv server (handle server evcon (.recv data)) := by
  have hextend (hprogress : ReadProgress server evcon) : ReadProgress server
      { evcon with input := evcon.input ++ data, received := evcon.received ++ data } :=
    hprogress.extend data rfl rfl rfl rfl
  have hinv : ConnInv server
      { evcon with input := evcon.input ++ data, received := evcon.received ++ data } := by
    refine ⟨h.completed, fun henabled hset => (h.reading henabled hset).imp_left hextend, ?_, h.close, h.handler⟩
    intro hdeferred
    obtain ⟨hstate, hprogress⟩ := h.deferred hdeferred
    exact ⟨hstate, hextend hprogress⟩
  unfold handle
  dsimp only
  split_ifs with hset
  · exact readCb_inv hinv ((h.reading hread hset).imp_left hextend)
  · exact hinv

lemma ConnInv.output (output : Bytes) (writeEnabled : Bool) (cb : EvconCb) :
    ConnInv server { evcon with output := output, writeEnabled := writeEnabled, cb := cb } where
  completed := h.completed
  reading := fun henabled hset =>
    (h.reading henabled hset).imp_left fun hprogress => hprogress.of_eq rfl rfl rfl rfl
  deferred := fun hdeferred =>
    (h.deferred hdeferred).imp_right fun hprogress => hprogress.of_eq rfl rfl rfl rfl
  close := h.close
  handler := h.handler

lemma ConnInv.free : ConnInv server evcon.free where
  completed := h.completed
  reading := fun henabled hset =>
    (h.reading henabled hset).imp_left fun hprogress => hprogress.of_eq rfl rfl rfl rfl
  deferred := by simp [Evcon.free]
  close := h.close
  handler := h.handler

end

lemma newRequest_fresh : FreshBody newRequest.toBodyRequest := ⟨rfl, rfl, rfl, rfl⟩

lemma associateNewRequest_inv (hcompleted : ∀ c ∈ evcon.completed, WithinLimits server c) :
    ConnInv server evcon.associateNewRequest := by
  have hprogress : ReadProgress server evcon.associateNewRequest := ⟨rfl, newRequest_fresh⟩
  exact ⟨hcompleted, fun _ _ => .inl hprogress, fun _ => ⟨rfl, hprogress⟩, by simp [associateNewRequest],
    by simp [associateNewRequest]⟩

section

variable (h : ConnInv server evcon)
include h

lemma sendDone_inv : ConnInv server evcon.sendDone := by
  unfold sendDone
  dsimp only
  split
  · exact h.free
  · exact associateNewRequest_inv h.completed

lemma wrote_inv (n : Nat) : ConnInv server (handle server evcon (.wrote n)) := by
  have hinv := h.output (evcon.output.drop n) evcon.writeEnabled evcon.cb
  unfold handle
  dsimp only
  split
  · unfold writeCb
    split
    · exact hinv
    · exact hinv
    · exact h.output (evcon.output.drop n) false evcon.cb
    · exact sendDone_inv hinv
  · exact hinv

lemma ConnInv.settled (hhandler : evcon.handler = .called ∨ evcon.handler = .started) : Settled server evcon := by
  refine ⟨h.completed, ?_, h.close⟩
  by_contra hdeferred
  have hwriting := h.handler hhandler
  obtain ⟨hfirst, -⟩ := h.deferred (Bool.eq_true_of_not_eq_false hdeferred)
  rw [hwriting] at hfirst
  cases hfirst

lemma connectionFail_inv (error : RequestError)
    (herror : error = .timeout ∨ error = .eof) : ConnInv server (connectionFail server evcon error) := by
  have hfree : ∀ code, ConnInv server ({ evcon with
      readEnabled := false, writeEnabled := false, req := { evcon.req with responseCode := code } }.free) :=
    fun code => ⟨h.completed, by simp [free], by simp [free], h.close, h.handler⟩
  obtain rfl | rfl := herror
  · exact hfree _
  · exact hfree _

lemma readEof_inv : ConnInv server (readEof server evcon) := by
  have hnot : ¬ (evcon.state = .readingBody ∧ evcon.req.chunked = false ∧ evcon.req.ntoread < 0) := by
    rintro ⟨hstate, hchunked, hnegative⟩
    obtain htrue | hnonneg := h.close hstate
    · rw [hchunked] at htrue
      cases htrue
    · omega
  unfold readEof
  rw [if_neg hnot]
  exact connectionFail_inv h .eof (.inr rfl)

lemma reply_inv (hhandler : evcon.handler = .called) (code : Nat)
    (text : Bytes) (headers : List HttpHeader) :
    ConnInv server (evcon.send code text headers) ∧ ConnInv server (evcon.replyStart code text headers) := by
  have hsettled := h.settled (.inl hhandler)
  have hwriting := h.handler (.inl hhandler)
  refine ⟨hsettled.send code text headers, ?_⟩
  refine Settled.writeBuffer ?_ .none fun _ => hwriting
  exact ⟨h.completed, hsettled.notDeferred, by simp [hwriting]⟩

lemma replyChunk_inv (hhandler : evcon.handler = .started)
    (databuf : Bytes) (cb : Bool) : ConnInv server (evcon.replyChunk databuf cb) := by
  have hsettled := h.settled (.inr hhandler)
  have hwriting := h.handler (.inr hhandler)
  unfold replyChunk
  split
  · exact h
  · refine Settled.writeBuffer ?_ _ fun _ => hwriting
    exact ⟨h.completed, hsettled.notDeferred, by simp [hwriting]⟩

lemma replyEnd_inv (hhandler : evcon.handler = .started) : ConnInv server evcon.replyEnd := by
  have hsettled := h.settled (.inr hhandler)
  have hwriting := h.handler (.inr hhandler)
  -- the handler has started, so the read callback is removed or reading is off
  have hinv : ConnInv server
      { evcon with req := { evcon.req with userdone := true }, handler := .finished } := by
    refine ⟨h.completed, fun henabled hset => ?_, by simp [hsettled.notDeferred], h.close, by simp⟩
    obtain hprogress | ⟨-, hcalled, -⟩ := h.reading henabled hset
    · simp [ReadProgress, hwriting] at hprogress
    · rw [hhandler] at hcalled
      cases hcalled
  unfold replyEnd
  dsimp only
  split
  · refine Settled.writeBuffer ?_ .sendDone (by simp)
    exact ⟨h.completed, hsettled.notDeferred, by simp [hwriting]⟩
  split
  · exact sendDone_inv hinv
  · exact hinv.output evcon.output evcon.writeEnabled .sendDone

lemma conn_step_inv {event : Evcon.Event}
    (hstep : step server evcon event = some evcon') : ConnInv server evcon' := by
  unfold step at hstep
  split at hstep
  case isFalse => cases hstep
  rename_i hpossible
  obtain ⟨-, -, hpossible⟩ := hpossible
  cases hstep
  cases event with
  | recv data => exact recv_inv h hpossible.1 data
  | deferred => exact readCb_inv h (.inl (h.deferred hpossible).2)
  | wrote n => exact wrote_inv h n
  | timeout => exact connectionFail_inv h .timeout (.inl rfl)
  | readEof => exact readEof_inv h
  | readError | writeError => exact connectionFail_inv h .eof (.inr rfl)
  | reply code text headers => exact (reply_inv h hpossible.1 code text headers).1
  | replyStart code text headers => exact (reply_inv h hpossible.1 code text headers).2
  | replyChunk databuf cb => exact replyChunk_inv h hpossible databuf cb
  | replyEnd => exact replyEnd_inv h hpossible

end

lemma reached_inv {Cond : Evcon → Evcon.Event → Prop} (h : Reached server Cond evcon) : ConnInv server evcon :=
  h.invariant (P := ConnInv server) (associateNewRequest_inv (by simp))
    fun _ _ _ hinv _ hstep => conn_step_inv hinv hstep

end Invariant

section IllegalState

variable {server : HttpServer} {evcon : Evcon}

@[simp]
lemma handleRequest_illegalState : (handleRequest server evcon).illegalState = evcon.illegalState := by
  unfold handleRequest
  dsimp only
  split
  · split
    · rfl
    split
    · rfl
    · rfl
  · rfl

@[simp]
lemma connectionFail_illegalState (error : RequestError) :
    (connectionFail server evcon error).illegalState = evcon.illegalState := by
  cases error with
  | timeout | eof => rfl
  | invalidHeader | dataTooLong => simp [connectionFail]

@[simp]
lemma connectionDone_illegalState : (connectionDone server evcon).illegalState = evcon.illegalState := by
  simp [connectionDone]

@[simp]
lemma sendDone_illegalState : evcon.sendDone.illegalState = evcon.illegalState := by
  unfold sendDone
  dsimp only
  split
  · rfl
  · rfl

lemma ReadEnd.illegalState {evcon' : Evcon} (h : ReadEnd server evcon evcon') :
    evcon'.illegalState = evcon.illegalState := by
  cases h with
  | wait hkept _ => exact hkept.illegalState
  | done hkept _ _ | fail hkept _ _ => simp [hkept.illegalState]
  | refuse hkept _ => exact hkept.illegalState

def Calm (evcon : Evcon) : Evcon.Event → Prop
  | .recv _ => ¬ (evcon.handler = .called ∧ requestHasBody evcon.req = false)
  | _ => True

lemma handle_illegalState {event : Evcon.Event} (h : ConnInv server evcon) (hpossible : evcon.Possible event)
    (hcalm : Calm evcon event) : (handle server evcon event).illegalState = evcon.illegalState := by
  cases event with
  | recv data =>
    dsimp only [handle]
    split_ifs with hset
    · obtain hprogress | ⟨-, hwaiting⟩ := h.reading hpossible.1 hset
      · have hextend : ReadProgress server
            { evcon with input := evcon.input ++ data, received := evcon.received ++ data } :=
          hprogress.extend data rfl rfl rfl rfl
        exact (readCb_end hextend).illegalState
      · exact absurd hwaiting hcalm
    · rfl
  | deferred => exact (readCb_end (h.deferred hpossible).2).illegalState
  | wrote n =>
    dsimp only [handle, writeCb]
    split
    · split
      · rfl
      · rfl
      · rfl
      · exact sendDone_illegalState
    · rfl
  | timeout | readError | writeError => exact connectionFail_illegalState _
  | readEof =>
    dsimp only [handle, readEof]
    split
    · exact connectionDone_illegalState
    · exact connectionFail_illegalState _
  | reply | replyStart => rfl
  | replyChunk databuf cb =>
    dsimp only [handle, replyChunk]
    split
    · rfl
    · rfl
  | replyEnd =>
    dsimp only [handle, replyEnd]
    split
    · rfl
    split
    · exact sendDone_illegalState
    · rfl

end IllegalState

section GivenEvents

instance (evcon : Evcon) : (event : Evcon.Event) → Decidable (Calm evcon event)
  | .recv _ => inferInstanceAs (Decidable (¬ (_ ∧ _)))
  | .deferred | .wrote _ | .timeout | .readEof | .readError | .writeError | .reply .. | .replyStart ..
  | .replyChunk .. | .replyEnd => inferInstanceAs (Decidable True)

def plainServer : HttpServer where
  names := ⟨fun _ => false, fun _ => true⟩
  maxHeadersSize := 100
  maxBodySize := 100
  lingeringClose := false
  allowedMethods := fun _ => true
  findCallback := fun _ => true
  errorPage := fun _ _ => (bytes "error", [])

def postRun : Runs.Given (step plainServer) Calm start (fun e => e.completed.length == 1) where
  events := [.recv (bytes "POST / HTTP/1.1\r\nContent-Length: 5\r\n\r\nhel"), .recv (bytes "lo"),
    .reply 200 (bytes "ok") [], .wrote 2, .recv (bytes "GET ")]
  leads := by decide +kernel

def earlyByteRun : Runs.Given (step plainServer) (fun _ _ => True) start (fun e => e.illegalState) where
  events := [.recv (bytes "GET / HTTP/1.1\r\n\r\n"), .recv (bytes "x")]
  leads := by decide +kernel

def chunksRun : Runs.Given (step plainServer) (fun _ _ => True) start (fun e => e.completed.length == 1) where
  events := [.recv (bytes "POST / HTTP/1.1\r\nTransfer-Encoding: chunked\r\n\r\n3\r\nab"),
    .recv (bytes "c\r\n0\r\nA: b\r\n\r\n")]
  leads := by decide +kernel

def getBodyRun : Runs.Given (step plainServer) (fun _ _ => True) start (fun e => e.completed.any fun c =>
    !c.req.chunked && evhttpGetBodyLength c.req.inputHeaders == some 5 && c.req.body.length != 5) where
  events := [.recv (bytes "GET / HTTP/1.1\r\nContent-Length: 5\r\n\r\nhello")]
  leads := by decide +kernel

end GivenEvents

/-- `evhttp_read_cb` is entered in a reading state only, in every run in which no bytes arrive while a
request without body waits for its reply. -/
theorem calm_run_not_illegal {server : HttpServer} {evcon : Evcon} (h : Reached server Calm evcon) :
    evcon.illegalState = false := by
  induction h with
  | start => rfl
  | step event hreached hcalm hstep ih =>
    have hinv := reached_inv hreached
    unfold step at hstep
    split at hstep
    case isFalse => cases hstep
    rename_i hpossible
    obtain ⟨-, -, hpossible⟩ := hpossible
    cases hstep
    rw [handle_illegalState hinv hpossible hcalm]
    exact ih

theorem calm_run_not_illegal_post : ∃ evcon, Reached plainServer Calm evcon ∧
    evcon.completed.length = 1 ∧ evcon.illegalState = false := by
  obtain ⟨evcon, hreached, hlength⟩ := postRun.reached
  exact ⟨evcon, hreached, beq_iff_eq.mp hlength, calm_run_not_illegal hreached⟩

/-- A byte that comes before the reply to a request without body is read in the state
`EVCON_WRITING`. -/
theorem early_byte_illegal : ∃ evcon, Reached plainServer (fun _ _ => True) evcon ∧
    evcon.illegalState := earlyByteRun.reached

/-- Every completed request is within the limits, and its body is as declared if its method may have
one. -/
theorem completed_within_limits {server : HttpServer} {evcon : Evcon}
    (h : Reached server (fun _ _ => True) evcon) : ∀ c ∈ evcon.completed, WithinLimits server c :=
  (reached_inv h).completed

theorem completed_within_limits_chunks : ∃ evcon, Reached plainServer (fun _ _ => True) evcon ∧
    evcon.completed.length = 1 ∧ ∀ c ∈ evcon.completed, WithinLimits plainServer c := by
  obtain ⟨evcon, hreached, hlength⟩ := chunksRun.reached
  exact ⟨evcon, hreached, beq_iff_eq.mp hlength, completed_within_limits hreached⟩

/-- The body that a GET request declares is not read. -/
theorem get_body_not_read : ∃ evcon c, Reached plainServer (fun _ _ => True) evcon ∧
    c ∈ evcon.completed ∧ c.req.chunked = false ∧
    evhttpGetBodyLength c.req.inputHeaders = some 5 ∧ c.req.body.length ≠ 5 := by
  obtain ⟨evcon, hreached, hany⟩ := getBodyRun.reached
  obtain ⟨c, hc, hbad⟩ := List.any_eq_true.mp hany
  simp only [Bool.and_eq_true, Bool.not_eq_true', beq_iff_eq, bne_iff_ne] at hbad
  exact ⟨evcon, c, hreached, hc, hbad.1.1, hbad.1.2, hbad.2⟩

end MyLibevent.Proofs
