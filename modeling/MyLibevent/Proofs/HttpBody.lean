import MyLibevent.HttpBody
import MyLibevent.Proofs.HttpHeaders
import MyLibevent.Proofs.Numbers

/-!
# Chunked bodies

The chunked reader does not depend on how its input is cut into reads, and reads from the stream
of a chunked reply the body that was sent.
-/

namespace MyLibevent.Proofs

open List BodyReader

section Resuming

variable {maxBodySize : Nat} {req req' : BodyRequest} {buf buf' : Bytes}

lemma handleChunkedRead_again (h : chunkedReadTurn maxBodySize req buf = .again req' buf') :
    handleChunkedRead maxBodySize req buf = handleChunkedRead maxBodySize req' buf' := by
  rw [handleChunkedRead]
  split <;> simp_all

lemma handleChunkedRead_stop {status : MessageReadStatus}
    (h : chunkedReadTurn maxBodySize req buf = .stop status req' buf') :
    handleChunkedRead maxBodySize req buf = (status, req', buf') := by
  rw [handleChunkedRead]
  split <;> simp_all

def ChunkTurn.extend (ext : Bytes) : ChunkTurn → ChunkTurn
  | .stop status req buf => .stop status req (buf ++ ext)
  | .again req buf => .again req (buf ++ ext)

lemma chunkedReadTurn_extend (maxBodySize : Nat) (req : BodyRequest) (buf ext : Bytes)
    (hlen : (buf ++ ext).length ≤ evSsizeMax) :
    chunkedReadTurn maxBodySize req buf = .stop .moreDataExpected req buf ∨
      chunkedReadTurn maxBodySize req (buf ++ ext) =
        ChunkTurn.extend ext (chunkedReadTurn maxBodySize req buf) := by
  rw [length_append] at hlen
  by_cases hempty : buf.length = 0
  · left
    simp [chunkedReadTurn, hempty]
  have hext : ¬(buf ++ ext).length = 0 := by
    rw [length_append]
    omega
  have hfit : ¬evSsizeMax < buf.length := by omega
  have hfit' : ¬evSsizeMax < (buf ++ ext).length := by
    rw [length_append]
    omega
  unfold chunkedReadTurn
  simp only [hempty, hext, hfit, hfit', if_false]
  by_cases hneg : req.ntoread < 0
  · simp only [hneg, if_true]
    cases hread : evbufferReadln buf with
    | none => exact Or.inl rfl
    | some r =>
      right
      rw [evbufferReadln_extend ext hread]
      dsimp only
      split
      · rfl
      · unfold readChunkSize
        split
        repeat' split
        all_goals rfl
  · simp only [hneg, if_false]
    by_cases hbig : (evSsizeMax : Int) < req.ntoread
    · right
      simp only [hbig, if_true]
      rfl
    · simp only [hbig, if_false]
      by_cases hwait : 0 < req.ntoread ∧ buf.length < req.ntoread.toNat
      · left
        simp only [hwait, and_self, if_true]
      · have henough : req.ntoread.toNat ≤ buf.length := by omega
        have hwait' : ¬(0 < req.ntoread ∧ (buf ++ ext).length < req.ntoread.toNat) := by
          rw [length_append]
          omega
        right
        simp only [hwait, hwait', if_false]
        unfold BodyRequest.completeChunk
        rw [take_append_of_le_length henough, drop_append_of_le_length henough]
        rfl

lemma length_chunkedReadTurn (h : chunkedReadTurn maxBodySize req buf = .again req' buf') :
    buf'.length ≤ buf.length := by
  have hdec := chunkedReadTurn_decreases h
  unfold chunkMeasure at hdec
  split at hdec <;> split at hdec <;> omega

lemma chunkedReadTurn_wait
    (h : chunkedReadTurn maxBodySize req buf = .stop .moreDataExpected req' buf') :
    req' = req ∧ buf' = buf := by
  have hsize : ∀ p rest, readChunkSize maxBodySize req p rest ≠ .stop .moreDataExpected req' buf' := by
    intro p rest
    unfold readChunkSize
    split
    repeat' split
    all_goals simp
  unfold chunkedReadTurn at h
  repeat' split at h
  all_goals first
    | cases h; exact ⟨rfl, rfl⟩
    | exact absurd h (hsize _ _)
    | cases h

lemma handleChunkedRead_extend (maxBodySize : Nat) (req : BodyRequest) (buf ext : Bytes)
    (hlen : (buf ++ ext).length ≤ evSsizeMax) :
    handleChunkedRead maxBodySize req (buf ++ ext) =
      match handleChunkedRead maxBodySize req buf with
      | (.moreDataExpected, req', buf') => handleChunkedRead maxBodySize req' (buf' ++ ext)
      | (status, req', buf') => (status, req', buf' ++ ext) := by
  fun_induction handleChunkedRead maxBodySize req buf with
  | case1 req buf status req' buf' h =>
    cases chunkedReadTurn_extend maxBodySize req buf ext hlen with
    | inl hwait =>
      rw [hwait] at h
      cases h
      rfl
    | inr hext =>
      rw [h] at hext
      cases status with
      | moreDataExpected =>
        obtain ⟨rfl, rfl⟩ := chunkedReadTurn_wait h
        rfl
      | _ => exact handleChunkedRead_stop hext
  | case2 req buf req' buf' h ih =>
    have hshort := length_chunkedReadTurn h
    rw [length_append] at hlen
    have hrest := ih (by rw [length_append]; omega)
    cases chunkedReadTurn_extend maxBodySize req buf ext (by rw [length_append]; omega) with
    | inl hwait =>
      rw [hwait] at h
      cases h
    | inr hext =>
      rw [h] at hext
      rw [handleChunkedRead_again hext]
      exact hrest

lemma evhttpParseHeaders_extend (req : HeaderParse) (ext : Bytes) :
    evhttpParseHeaders none ⟨req.inputHeaders, req.headersSize, req.buffer ++ ext⟩ =
      match evhttpParseHeaders none req with
      | (.moreDataExpected, req') =>
        evhttpParseHeaders none ⟨req'.inputHeaders, req'.headersSize, req'.buffer ++ ext⟩
      | (status, req') => (status, ⟨req'.inputHeaders, req'.headersSize, req'.buffer ++ ext⟩) := by
  generalize hlimit : (none : Option Nat) = limit
  fun_induction evhttpParseHeaders limit req with
  | case1 req hread htoo =>
    subst hlimit
    simp at htoo
  | case2 req hread htoo => rfl
  | case3 req line rest hread req' htoo =>
    subst hlimit
    simp at htoo
  | case4 req line rest hread req' htoo hline =>
    subst hlimit
    exact parseHeaders_done (evbufferReadln_extend ext hread) hline
  | case5 req line rest hread req' htoo c l hline added hadd =>
    subst hlimit
    have hadd' : addLine req.inputHeaders c l = none := hadd
    rw [parseHeaders_line (evbufferReadln_extend ext hread) hline, hadd']
  | case6 req line rest hread req' htoo c l hline added headers hadd ih =>
    subst hlimit
    have hadd' : addLine req.inputHeaders c l = some headers := hadd
    rw [parseHeaders_line (evbufferReadln_extend ext hread) hline, hadd']
    exact ih

structure ChunkedRequest (req : BodyRequest) : Prop where
  chunked : req.chunked
  drained : req.chunkCb → req.inputBuffer = []
  pending : req.ntoread ≠ 0
  bounded : req.bodySize ≤ evSizeMax

lemma completeChunk_chunked (h : ChunkedRequest req) (buf : Bytes) : ChunkedRequest (req.completeChunk buf) := by
  constructor
  · unfold BodyRequest.completeChunk
    split <;> exact h.chunked
  · intro hcb
    unfold BodyRequest.completeChunk at hcb ⊢
    split
    · rfl
    · rename_i hno
      simp [hno] at hcb
  · rw [completeChunk_ntoread]
    omega
  · unfold BodyRequest.completeChunk
    split <;> exact h.bounded

lemma chunkedReadTurn_chunked (hreq : ChunkedRequest req)
    (h : chunkedReadTurn maxBodySize req buf = .again req' buf') : ChunkedRequest req' := by
  unfold chunkedReadTurn at h
  split at h
  · cases h
  split at h
  · cases h
  split at h
  · split at h
    · cases h
    · split at h
      · cases h
        exact hreq
      · unfold readChunkSize at h
        dsimp only at h
        split at h
        · cases h
        split at h
        · cases h
        split at h
        · cases h
        split at h
        · cases h
        · rename_i hover _ hne
          cases h
          exact ⟨hreq.chunked, hreq.drained, hne, by dsimp only; omega⟩
  · split at h
    · cases h
    split at h
    · cases h
    · cases h
      exact completeChunk_chunked hreq buf

lemma handleChunkedRead_chunked (hreq : ChunkedRequest req)
    (h : handleChunkedRead maxBodySize req buf = (.moreDataExpected, req', buf')) :
    ChunkedRequest req' := by
  fun_induction handleChunkedRead maxBodySize req buf with
  | case1 req buf status req1 buf1 hturn =>
    cases h
    rw [(chunkedReadTurn_wait hturn).1]
    exact hreq
  | case2 req buf req1 buf1 hturn ih => exact ih (chunkedReadTurn_chunked hreq hturn) h

lemma readBodyChecks_chunked (h : ChunkedRequest req) (lingering : Bool) (buf : Bytes) :
    readBodyChecks evSizeMax lingering req buf = (.wait, req, buf) := by
  have hbound := h.bounded
  have hcb : ¬(req.inputBuffer ≠ [] ∧ req.chunkCb) := fun hc => hc.1 (h.drained hc.2)
  unfold readBodyChecks
  rw [if_neg (by simp [h.chunked]; omega), if_neg hcb]
  dsimp only
  rw [if_neg h.pending]

lemma evhttpReadBody_chunked (h : ChunkedRequest req) (lingering : Bool) (buf : Bytes) :
    evhttpReadBody evSizeMax lingering req buf =
      match handleChunkedRead evSizeMax req buf with
      | (.allDataRead, req, buf) => (.trailer, req, buf)
      | (.requestCanceled, req, buf) => (.canceled, req, buf)
      | (.moreDataExpected, req, buf) => (.wait, req, buf)
      | (_, req, buf) => (.failDataTooLong, req, buf) := by
  unfold evhttpReadBody
  rw [if_pos h.chunked]
  cases hr : handleChunkedRead evSizeMax req buf with
  | mk status r =>
    cases status with
    | moreDataExpected =>
      exact readBodyChecks_chunked (handleChunkedRead_chunked h hr) lingering r.2
    | _ => rfl

variable (lingering : Bool)

def MidBody (s : BodyReader) : Prop := s.state = .readingBody → ChunkedRequest s.req

lemma evhttpParseHeaders_not_canceled (limit : Option Nat) (req : HeaderParse) :
    (evhttpParseHeaders limit req).1 ≠ .requestCanceled := by
  fun_induction evhttpParseHeaders limit req with
  | case6 req line rest hread req' htoo c l hline added headers hadd ih => exact ih
  | _ => simp

lemma settle_trailer_extend (req : BodyRequest) (buf ext : Bytes) :
    (settle .readingTrailer (evhttpReadTrailer none req buf)).feed evSizeMax lingering
        none ext =
      .settle .readingTrailer (evhttpReadTrailer none req (buf ++ ext)) := by
  have hext := evhttpParseHeaders_extend ⟨req.inputHeaders, req.headersSize, buf⟩ ext
  unfold evhttpReadTrailer
  cases hr : evhttpParseHeaders none ⟨req.inputHeaders, req.headersSize, buf⟩ with
  | mk status r =>
    rw [hr] at hext
    cases status with
    | moreDataExpected =>
      rw [hext]
      rfl
    | requestCanceled => exact absurd (by rw [hr]) (evhttpParseHeaders_not_canceled none _)
    | _ =>
      rw [hext]
      rfl

lemma feed_readingBody (hreq : ChunkedRequest req) (input data : Bytes) :
    (⟨.readingBody, req, input⟩ : BodyReader).feed evSizeMax lingering none data =
      match handleChunkedRead evSizeMax req (input ++ data) with
      | (.allDataRead, req, buf) => .settle .readingTrailer (evhttpReadTrailer none req buf)
      | (.moreDataExpected, req, buf) => ⟨.readingBody, req, buf⟩
      | (_, req, buf) => ⟨.failed, req, buf⟩ := by
  unfold feed
  dsimp only
  rw [evhttpReadBody_chunked hreq]
  cases handleChunkedRead evSizeMax req (input ++ data) with
  | mk status r => cases status <;> rfl

lemma feed_append (s : BodyReader) (hs : MidBody s) (a b : Bytes)
    (hlen : (s.input ++ (a ++ b)).length ≤ evSsizeMax) :
    (s.feed evSizeMax lingering none a).feed evSizeMax lingering none b =
      s.feed evSizeMax lingering none (a ++ b) := by
  obtain ⟨state, req, input⟩ := s
  cases state with
  | readingBody =>
    have hreq : ChunkedRequest req := hs rfl
    rw [← append_assoc] at hlen
    have hext := handleChunkedRead_extend evSizeMax req (input ++ a) b hlen
    rw [feed_readingBody lingering hreq, feed_readingBody lingering hreq, ← append_assoc, hext]
    cases hr : handleChunkedRead evSizeMax req (input ++ a) with
    | mk status r =>
      cases status with
      | allDataRead => exact settle_trailer_extend lingering r.1 r.2 b
      | moreDataExpected =>
        exact feed_readingBody lingering (handleChunkedRead_chunked hreq hr) r.2 b
      | _ => rfl
  | readingTrailer =>
    have hext := settle_trailer_extend lingering req (input ++ a) b
    rw [append_assoc] at hext
    exact hext
  | finished | failed => simp [feed]

lemma foldl_feed (s : BodyReader) (hs : MidBody s) (hidle : s.feed evSizeMax lingering none [] = s)
    (pieces : List Bytes) (hlen : (s.input ++ pieces.flatten).length ≤ evSsizeMax) :
    pieces.foldl (feed evSizeMax lingering none) s = s.feed evSizeMax lingering none pieces.flatten := by
  induction pieces using List.reverseRecOn with
  | nil => exact hidle.symm
  | append_singleton pieces piece ih =>
    have hflat : (pieces ++ [piece]).flatten = pieces.flatten ++ piece := by simp
    rw [hflat] at hlen ⊢
    rw [foldl_append, ih, foldl_cons, foldl_nil, feed_append lingering s hs _ _ hlen]
    rw [← append_assoc, length_append] at hlen
    omega

end Resuming

section Stream

variable {req : BodyRequest}

def afterChunk (req : BodyRequest) (data : Bytes) : BodyRequest :=
  if req.chunkCb then
    { req with
      bodySize := req.bodySize + data.length, ntoread := -1
      delivered := req.delivered ++ (req.inputBuffer ++ data), inputBuffer := [] }
  else
    { req with
      bodySize := req.bodySize + data.length, ntoread := -1
      inputBuffer := req.inputBuffer ++ data }

lemma afterChunk_spec (req : BodyRequest) (data : Bytes) :
    (afterChunk req data).ntoread = -1 ∧
    (afterChunk req data).bodySize = req.bodySize + data.length ∧
    (afterChunk req data).body = req.body ++ data := by
  unfold afterChunk
  split <;> simp [BodyRequest.body]

lemma readChunkSize_formatHex (n : Nat) (h63 : n < 2 ^ 63)
    (hbound : req.bodySize + n ≤ evSizeMax) (rest : Bytes) :
    readChunkSize evSizeMax req (formatHex n) rest =
      if n = 0 then .stop .allDataRead { req with ntoread := 0 } rest
      else .again { req with bodySize := req.bodySize + n, ntoread := n } rest := by
  unfold readChunkSize
  rw [strtoll_formatHex n h63]
  dsimp only
  rw [if_neg (by simp), if_neg (by omega), if_neg (by omega)]
  by_cases hn : n = 0
  · subst hn
    simp
  · rw [if_neg (by omega), if_neg hn]
    rfl

lemma chunkedReadTurn_size (hneg : req.ntoread < 0) (n : Nat) (rest : Bytes)
    (hlen : (formatHex n ++ bytes "\r\n" ++ rest).length ≤ evSsizeMax) :
    chunkedReadTurn evSizeMax req (formatHex n ++ bytes "\r\n" ++ rest) =
      readChunkSize evSizeMax req (formatHex n) rest := by
  have hlf : byte '\n' ∉ formatHex n := notMem_formatHex (by decide) n
  have hnul : 0 ∉ formatHex n := notMem_formatHex (by decide) n
  have hread := evbufferReadln_append (formatHex n ++ [byte '\r']) rest
    (by simp only [mem_append, mem_singleton, not_or]; exact ⟨hlf, by decide⟩)
  rw [dropCr_concat] at hread
  have htext : formatHex n ++ bytes "\r\n" ++ rest = formatHex n ++ [byte '\r'] ++ byte '\n' :: rest := by
    simp [bytes]
  rw [htext] at hlen ⊢
  unfold chunkedReadTurn
  rw [if_neg (by simp), if_neg (by omega), if_pos hneg, hread]
  dsimp only
  rw [cstring_eq_self hnul, if_neg (by simpa using formatHex_ne_nil n)]

lemma chunkedReadTurn_blank (hneg : req.ntoread < 0) (rest : Bytes)
    (hlen : (bytes "\r\n" ++ rest).length ≤ evSsizeMax) :
    chunkedReadTurn evSizeMax req (bytes "\r\n" ++ rest) = .again req rest := by
  have hread : evbufferReadln (bytes "\r\n" ++ rest) = some ([], rest) :=
    evbufferReadln_append [byte '\r'] rest (by decide)
  unfold chunkedReadTurn
  rw [if_neg (by simp [bytes]), if_neg (by omega), if_pos hneg, hread]
  rfl

lemma chunkedReadTurn_data (data rest : Bytes) (hdata : data ≠ [])
    (hreq : req.ntoread = data.length) (hlen : (data ++ rest).length ≤ evSsizeMax) :
    chunkedReadTurn evSizeMax req (data ++ rest) = .again (req.completeChunk (data ++ rest)) rest := by
  have hpos : 0 < data.length := length_pos_iff.2 hdata
  rw [length_append] at hlen
  unfold chunkedReadTurn
  rw [length_append, if_neg (by omega), if_neg (by omega), if_neg (by omega),
    if_neg (by omega), if_neg (by omega), hreq, Int.toNat_natCast, drop_left]

lemma completeChunk_eq_afterChunk (data rest : Bytes) :
    ({ req with bodySize := req.bodySize + data.length, ntoread := data.length } :
      BodyRequest).completeChunk (data ++ rest) = afterChunk req data := by
  simp [BodyRequest.completeChunk, afterChunk, BodyRequest.runChunkCb]

lemma handleChunkedRead_chunk (hneg : req.ntoread = -1) (data rest : Bytes) (hdata : data ≠ [])
    (h32 : data.length < 2 ^ 32) (hbound : req.bodySize + data.length ≤ evSizeMax)
    (hlen : (sendReplyChunk data ++ rest).length ≤ evSsizeMax) :
    handleChunkedRead evSizeMax req (sendReplyChunk data ++ rest) =
      handleChunkedRead evSizeMax (afterChunk req data) rest := by
  have hpos : 0 < data.length := length_pos_iff.2 hdata
  have htext : sendReplyChunk data ++ rest =
      formatHex data.length ++ bytes "\r\n" ++ (data ++ (bytes "\r\n" ++ rest)) := by
    rw [sendReplyChunk, if_neg (by omega), Nat.mod_eq_of_lt h32]
    simp only [append_assoc]
  rw [htext] at hlen ⊢
  have hsize := chunkedReadTurn_size (show req.ntoread < 0 by omega) data.length
    (data ++ (bytes "\r\n" ++ rest)) hlen
  rw [readChunkSize_formatHex data.length (by omega) hbound, if_neg (by omega)] at hsize
  simp only [length_append] at hlen
  rw [handleChunkedRead_again hsize, handleChunkedRead_again (chunkedReadTurn_data data
      (bytes "\r\n" ++ rest) hdata rfl (by simp only [length_append]; omega)),
    completeChunk_eq_afterChunk]
  apply handleChunkedRead_again
  apply chunkedReadTurn_blank
  · rw [(afterChunk_spec req data).1]
    omega
  · simp only [length_append]
    omega

lemma handleChunkedRead_end (hneg : req.ntoread = -1) (hbound : req.bodySize ≤ evSizeMax)
    (rest : Bytes) (hlen : (sendReplyEnd ++ rest).length ≤ evSsizeMax) :
    handleChunkedRead evSizeMax req (sendReplyEnd ++ rest) =
      (.allDataRead, { req with ntoread := 0 }, bytes "\r\n" ++ rest) := by
  have hsize := chunkedReadTurn_size (show req.ntoread < 0 by omega) 0 (bytes "\r\n" ++ rest) hlen
  rw [readChunkSize_formatHex 0 (by omega) hbound, if_pos rfl] at hsize
  exact handleChunkedRead_stop hsize

lemma length_le_sendReplyChunk (data : Bytes) : data.length ≤ (sendReplyChunk data).length := by
  unfold sendReplyChunk
  split
  · omega
  · simp only [length_append]
    omega

lemma handleChunkedRead_reply (req : BodyRequest) (chunks : List Bytes)
    (further : Bytes)
    (hchunks : ∀ data ∈ chunks, data ≠ [] ∧ data.length < 2 ^ 32) (hneg : req.ntoread = -1)
    (hbound : req.bodySize + (chunkedReply chunks ++ further).length ≤ evSizeMax)
    (hlen : (chunkedReply chunks ++ further).length ≤ evSsizeMax) :
    ∃ req', handleChunkedRead evSizeMax req (chunkedReply chunks ++ further) =
        (.allDataRead, req', bytes "\r\n" ++ further) ∧
      req'.body = req.body ++ chunks.flatten := by
  induction chunks generalizing req with
  | nil =>
    have hend := handleChunkedRead_end hneg (by omega) further hlen
    exact ⟨_, hend, by simp [BodyRequest.body]⟩
  | cons data chunks ih =>
    obtain ⟨hdata, h32⟩ := hchunks data mem_cons_self
    obtain ⟨hneg', hsize', hbody'⟩ := afterChunk_spec req data
    have hle := length_le_sendReplyChunk data
    have htext : chunkedReply (data :: chunks) ++ further =
        sendReplyChunk data ++ (chunkedReply chunks ++ further) := by
      simp [chunkedReply]
    rw [htext, length_append] at hbound
    rw [htext] at hlen ⊢
    have hstep := handleChunkedRead_chunk hneg data (chunkedReply chunks ++ further) hdata h32 (by omega) hlen
    rw [length_append] at hlen
    obtain ⟨req', hrest, hbody⟩ := ih (afterChunk req data)
      (fun d hd => hchunks d (mem_cons_of_mem _ hd)) hneg' (by rw [hsize']; omega) (by omega)
    refine ⟨req', by rw [hstep, hrest], ?_⟩
    rw [hbody, hbody', flatten_cons, append_assoc]

lemma start_midBody (chunkCb : Bool) (headers : List HttpHeader) (headersSize : Nat) :
    MidBody (.start chunkCb headers headersSize) := by
  intro _
  constructor <;> simp [start]

lemma feed_start_nil (lingering chunkCb : Bool) (headers : List HttpHeader) (headersSize : Nat) :
    (start chunkCb headers headersSize).feed evSizeMax lingering none [] = .start chunkCb headers headersSize := by
  have hturn : chunkedReadTurn evSizeMax (start chunkCb headers headersSize).req [] =
      .stop .moreDataExpected (start chunkCb headers headersSize).req [] := rfl
  have hfeed := feed_readingBody lingering (start_midBody chunkCb headers headersSize rfl) [] []
  rw [nil_append, handleChunkedRead_stop hturn] at hfeed
  exact hfeed

lemma feed_reply (lingering chunkCb : Bool) (headers : List HttpHeader) (headersSize : Nat)
    (chunks : List Bytes) (further : Bytes)
    (hchunks : ∀ data ∈ chunks, data ≠ [] ∧ data.length < 2 ^ 32)
    (hlen : (chunkedReply chunks ++ further).length ≤ evSsizeMax) :
    ∃ req, (start chunkCb headers headersSize).feed evSizeMax lingering none
        (chunkedReply chunks ++ further) = ⟨.finished, req, further⟩ ∧
      req.body = chunks.flatten := by
  have hstart := start_midBody chunkCb headers headersSize rfl
  have hmax : evSsizeMax ≤ evSizeMax := by decide
  obtain ⟨req, hread, hbody⟩ := handleChunkedRead_reply
    (start chunkCb headers headersSize).req chunks further hchunks rfl
    (by simp only [start]; omega) hlen
  have hblank : evbufferReadln (bytes "\r\n" ++ further) = some ([], further) :=
    evbufferReadln_append [byte '\r'] further (by decide)
  have htrailer : evhttpParseHeaders none ⟨req.inputHeaders, req.headersSize,
      bytes "\r\n" ++ further⟩ = (.allDataRead, ⟨req.inputHeaders, req.headersSize, further⟩) :=
    parseHeaders_done hblank rfl
  have hfeed := feed_readingBody lingering hstart [] (chunkedReply chunks ++ further)
  rw [nil_append, hread] at hfeed
  have hsettle : settle .readingTrailer
      (evhttpReadTrailer none req (bytes "\r\n" ++ further)) = ⟨.finished, req, further⟩ := by
    simp only [evhttpReadTrailer, htrailer, settle]
  exact ⟨req, hfeed.trans hsettle, hbody⟩

/-- However the stream of a chunked reply and what follows it are cut into reads, the reader completes the
message with the read that brings its last byte, with the body that was sent, and leaves what follows in its
buffer. -/
theorem chunked_reply_read_back (lingering chunkCb : Bool) (headers : List HttpHeader)
    (headersSize : Nat) (chunks : List Bytes) (further : Bytes)
    (hchunks : ∀ data ∈ chunks, data ≠ [] ∧ data.length < 2 ^ 32)
    (hlen : (chunkedReply chunks ++ further).length ≤ evSsizeMax) (pieces : List Bytes)
    (hcut : pieces.flatten <+: chunkedReply chunks ++ further) :
    let s := pieces.foldl (feed evSizeMax lingering none) (.start chunkCb headers headersSize)
    s.state ≠ .failed ∧
    (s.state = .finished ↔ (chunkedReply chunks).length ≤ pieces.flatten.length) ∧
    (s.state = .finished → s.req.body = chunks.flatten ∧ pieces.flatten = chunkedReply chunks ++ s.input) := by
  intro s
  have hmid := start_midBody chunkCb headers headersSize
  obtain ⟨rest, hrest⟩ := hcut
  have hone : s = (start chunkCb headers headersSize).feed evSizeMax lingering none pieces.flatten := by
    apply foldl_feed lingering _ hmid (feed_start_nil lingering chunkCb headers headersSize)
    rw [← hrest, length_append] at hlen
    simp only [start, nil_append]
    omega
  obtain ⟨req, hall, hbody⟩ := feed_reply lingering chunkCb headers headersSize chunks further hchunks hlen
  have hresume : s.feed evSizeMax lingering none rest = ⟨.finished, req, further⟩ := by
    rw [hone, feed_append lingering _ hmid, hrest, hall]
    rw [hrest]
    exact hlen
  have hfinished : s.state = .finished →
      s.req.body = chunks.flatten ∧ pieces.flatten = chunkedReply chunks ++ s.input := by
    intro hstate
    have hkept : s.feed evSizeMax lingering none rest = ⟨s.state, s.req, s.input ++ rest⟩ := by
      simp only [feed, hstate]
    rw [hkept] at hresume
    injection hresume with _ hreq hinput
    refine ⟨by rw [hreq, hbody], ?_⟩
    rw [← hinput, ← append_assoc] at hrest
    exact append_cancel_right hrest
  refine ⟨?_, ⟨?_, ?_⟩, hfinished⟩
  · intro hstate
    have hkept : (s.feed evSizeMax lingering none rest).state = .failed := by
      simp only [feed, hstate]
    rw [hresume] at hkept
    cases hkept
  · intro hstate
    rw [(hfinished hstate).2, length_append]
    omega
  · intro hle
    have hprefix : chunkedReply chunks <+: pieces.flatten :=
      prefix_of_prefix_length_le (prefix_append _ _) ⟨rest, hrest⟩ hle
    obtain ⟨further', hfurther'⟩ := hprefix
    have hlen' : (chunkedReply chunks ++ further').length ≤ evSsizeMax := by
      rw [hfurther']
      rw [← hrest, length_append] at hlen
      omega
    obtain ⟨req', hall', -⟩ := feed_reply lingering chunkCb headers headersSize chunks further' hchunks hlen'
    rw [hone, ← hfurther', hall']

/-- Two strings, cut in the middle of the first size line and of the first string. -/
theorem chunked_reply_two_strings :
    let s := [bytes "3\r", bytes "\nab", bytes "c\r\n1\r\nd\r\n0\r\n\r\nGET"].foldl
      (feed evSizeMax false none) (.start false [] 0)
    s.state = .finished ∧ s.req.body = bytes "abcd" ∧ s.input = bytes "GET" := by
  intro s
  have h3 : formatHex 3 = bytes "3" := by
    rw [formatHex, if_neg (by omega), Nat.digits_of_lt 16 3 (by omega) (by omega)]
    rfl
  have h1 : formatHex 1 = bytes "1" := by
    rw [formatHex, if_neg (by omega), Nat.digits_of_lt 16 1 (by omega) (by omega)]
    rfl
  have hreply : chunkedReply [bytes "abc", bytes "d"] = bytes "3\r\nabc\r\n1\r\nd\r\n0\r\n\r\n" := by
    have habc : sendReplyChunk (bytes "abc") = formatHex 3 ++ bytes "\r\nabc\r\n" := rfl
    have hd : sendReplyChunk (bytes "d") = formatHex 1 ++ bytes "\r\nd\r\n" := rfl
    rw [chunkedReply, flatMap_cons, flatMap_cons, flatMap_nil, habc, hd, h3, h1]
    rfl
  have h := chunked_reply_read_back false false [] 0 [bytes "abc", bytes "d"] (bytes "GET")
    (by decide) (by rw [hreply]; decide)
    [bytes "3\r", bytes "\nab", bytes "c\r\n1\r\nd\r\n0\r\n\r\nGET"]
    (by rw [hreply]; exact prefix_rfl)
  have hdone : s.state = .finished := h.2.1.2 (by rw [hreply]; decide)
  obtain ⟨hbody, hinput⟩ := h.2.2 hdone
  have hflat : [bytes "3\r", bytes "\nab", bytes "c\r\n1\r\nd\r\n0\r\n\r\nGET"].flatten =
      bytes "3\r\nabc\r\n1\r\nd\r\n0\r\n\r\n" ++ bytes "GET" := rfl
  rw [hreply, hflat] at hinput
  exact ⟨hdone, hbody, (append_cancel_left hinput).symm⟩

/-- The guard `buflen > EV_SSIZE_MAX`: the message "a" followed by 2^63 further bytes, in one
read, is given up as corrupted. -/
theorem chunked_reply_huge_read :
    ∃ further : Bytes,
      ([chunkedReply [bytes "a"] ++ further].foldl (feed evSizeMax false none)
        (.start false [] 0)).state = .failed := by
  refine ⟨List.replicate (2 ^ 63) 0, ?_⟩
  generalize hbuf : chunkedReply [bytes "a"] ++ List.replicate (2 ^ 63) (0 : UInt8) = buf
  have hlen : evSsizeMax < buf.length := by
    rw [← hbuf, length_append, length_replicate, evSsizeMax]
    omega
  have hturn : chunkedReadTurn evSizeMax (start false [] 0).req buf =
      .stop .dataCorrupted (start false [] 0).req buf := by
    unfold chunkedReadTurn
    rw [if_neg (by omega), if_pos hlen]
  have hfeed := feed_readingBody false (start_midBody false [] 0 rfl) [] buf
  rw [nil_append, handleChunkedRead_stop hturn] at hfeed
  rw [foldl_cons, foldl_nil]
  exact congrArg state hfeed

end Stream

end MyLibevent.Proofs
