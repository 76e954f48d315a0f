import MyLibevent.HttpServer
import MyLibevent.Proofs.HttpBody

/-!
# What a request has taken from the stream

The bytes that a request has used up are lines, chunks or a stretch of given length. Each reader continues
such a decomposition, whatever the reads were.
-/

namespace MyLibevent.Proofs

open List

section TakenLines

inductive TakesLines (buf : Bytes) : List Bytes → Bytes → Prop
  | nil : TakesLines buf [] buf
  | line {lines : List Bytes} {mid line rest : Bytes} : TakesLines buf lines mid →
      evbufferReadln mid = some (line, rest) → TakesLines buf (lines ++ [line]) rest

def totalLength (parts : List Bytes) : Nat := (parts.map length).sum

@[simp]
lemma totalLength_nil : totalLength [] = 0 := rfl

@[simp]
lemma totalLength_cons (part : Bytes) (parts : List Bytes) :
    totalLength (part :: parts) = part.length + totalLength parts := by simp [totalLength]

@[simp]
lemma totalLength_append (a b : List Bytes) : totalLength (a ++ b) = totalLength a + totalLength b := by
  simp [totalLength]

variable {buf mid rest : Bytes} {lines lines' : List Bytes}

lemma TakesLines.trans (h : TakesLines buf lines mid) (h' : TakesLines mid lines' rest) :
    TakesLines buf (lines ++ lines') rest := by
  induction h' with
  | nil => rwa [append_nil]
  | line _ hread ih =>
    rw [← append_assoc]
    exact ih.line hread

lemma TakesLines.extend (h : TakesLines buf lines rest) (ext : Bytes) :
    TakesLines (buf ++ ext) lines (rest ++ ext) := by
  induction h with
  | nil => exact .nil
  | line _ hread ih => exact ih.line (evbufferReadln_extend ext hread)

lemma evhttpParseHeaders_lines (limit : Nat) (req : HeaderParse) :
    ∃ status parse lines, evhttpParseHeaders (some limit) req = (status, parse) ∧
      TakesLines req.buffer lines parse.buffer ∧ parse.headersSize = req.headersSize + totalLength lines ∧
      (status ≠ .dataCorrupted → status ≠ .dataTooLong → parse.headersSize ≤ limit) := by
  have hone {buf line rest : Bytes} (hread : evbufferReadln buf = some (line, rest)) :
      TakesLines buf [line] rest := TakesLines.nil.line hread
  fun_induction evhttpParseHeaders (some limit) req with
  | case1 req hread hlong => exact ⟨_, _, [], rfl, .nil, rfl, by simp⟩
  | case2 req hread hlong =>
    simp only [Option.any_some, decide_eq_true_eq] at hlong
    exact ⟨_, _, [], rfl, .nil, rfl, fun _ _ => by omega⟩
  | case3 req line rest hread req' hlong => exact ⟨_, _, [line], rfl, hone hread, rfl, by simp⟩
  | case4 req line rest hread req' hlong hline =>
    simp only [Option.any_some, decide_eq_true_eq] at hlong
    exact ⟨_, _, [line], rfl, hone hread, rfl, fun _ _ => Nat.not_lt.mp hlong⟩
  | case5 req line rest hread req' hlong c l hline added hadded =>
    exact ⟨_, _, [line], rfl, hone hread, rfl, by simp⟩
  | case6 req line rest hread req' hlong c l hline added headers hadded ih =>
    obtain ⟨status, parse, lines, hparse, htakes, hsize, hlimit⟩ := ih
    refine ⟨status, parse, [line] ++ lines, hparse, (hone hread).trans htakes, ?_, hlimit⟩
    rw [hsize, totalLength_append]
    simp only [req', totalLength_cons, totalLength_nil]
    omega

end TakenLines

section TakenChunks

def ChunkLine (line : Bytes) (n : Nat) : Prop :=
  ∃ endp, strtoll 16 (cstring line) = ((n : Int), endp) ∧ (endp = [] ∨ endp.head? = some (byte ' '))

inductive TakesChunks (buf : Bytes) : List Bytes → Bytes → Prop
  | nil : TakesChunks buf [] buf
  | blank {chunks : List Bytes} {mid line rest : Bytes} : TakesChunks buf chunks mid →
      evbufferReadln mid = some (line, rest) → cstring line = [] → TakesChunks buf chunks rest
  | chunk {chunks : List Bytes} {mid line data rest : Bytes} :
      TakesChunks buf chunks mid → evbufferReadln mid = some (line, data ++ rest) →
      ChunkLine line data.length → TakesChunks buf (chunks ++ [data]) rest

variable {buf mid rest : Bytes} {chunks : List Bytes} {n : Nat}

lemma TakesChunks.extend (h : TakesChunks buf chunks rest) (ext : Bytes) :
    TakesChunks (buf ++ ext) chunks (rest ++ ext) := by
  induction h with
  | nil => exact .nil
  | blank _ hread hline ih => exact ih.blank (evbufferReadln_extend ext hread) hline
  | chunk _ hread hline ih =>
    refine ih.chunk ?_ hline
    rw [← append_assoc]
    exact evbufferReadln_extend ext hread

def ChunkPending (mid : Bytes) (chunks : List Bytes) (n : Nat) (buf : Bytes) : Prop :=
  ∃ before line, TakesChunks mid chunks before ∧ evbufferReadln before = some (line, buf) ∧ ChunkLine line n

lemma ChunkPending.extend (h : ChunkPending mid chunks n buf) (ext : Bytes) :
    ChunkPending (mid ++ ext) chunks n (buf ++ ext) := by
  obtain ⟨before, line, htakes, hread, hline⟩ := h
  exact ⟨before ++ ext, line, htakes.extend ext, evbufferReadln_extend ext hread, hline⟩

structure ChunkProgress (maxBodySize : Nat) (mid : Bytes) (req : BodyRequest)
    (buf : Bytes) (chunks : List Bytes) : Prop where
  chunked : req.chunked
  body : req.body = chunks.flatten
  size : req.bodySize ≤ maxBodySize
  next : (req.ntoread = -1 ∧ TakesChunks mid chunks buf ∧ req.bodySize = totalLength chunks) ∨
    ∃ n : Nat, req.ntoread = n ∧ 0 < n ∧ ChunkPending mid chunks n buf ∧ req.bodySize = totalLength chunks + n

structure ChunkEnd (maxBodySize : Nat) (mid : Bytes) (req : BodyRequest)
    (buf : Bytes) (chunks : List Bytes) : Prop where
  chunked : req.chunked
  body : req.body = chunks.flatten
  size : req.bodySize = totalLength chunks ∧ req.bodySize ≤ maxBodySize
  last : ChunkPending mid chunks 0 buf

lemma completeChunk_fields (req : BodyRequest) (buf : Bytes) :
    (req.completeChunk buf).chunked = req.chunked ∧ (req.completeChunk buf).bodySize = req.bodySize ∧
      (req.completeChunk buf).body = req.body ++ buf.take req.ntoread.toNat ∧
      (req.completeChunk buf).headersSize = req.headersSize ∧
      (req.completeChunk buf).inputHeaders = req.inputHeaders := by
  unfold BodyRequest.completeChunk BodyRequest.body
  split
  · simp [BodyRequest.runChunkCb]
  · simp

structure SameHeaders (req req' : BodyRequest) : Prop where
  headers : req'.inputHeaders = req.inputHeaders
  size : req'.headersSize = req.headersSize
  chunked : req'.chunked = req.chunked

lemma SameHeaders.refl (req : BodyRequest) : SameHeaders req req := ⟨rfl, rfl, rfl⟩

lemma SameHeaders.trans {a b c : BodyRequest} (h : SameHeaders a b) (h' : SameHeaders b c) : SameHeaders a c :=
  ⟨h'.headers.trans h.headers, h'.size.trans h.size, h'.chunked.trans h.chunked⟩

def TurnProgress (maxBodySize : Nat) (mid : Bytes) (req : BodyRequest) : ChunkTurn → Prop
  | .again req' buf => SameHeaders req req' ∧ ∃ chunks, ChunkProgress maxBodySize mid req' buf chunks
  | .stop status req' buf => SameHeaders req req' ∧ status ≠ .requestCanceled ∧
      (status = .allDataRead → ∃ chunks, ChunkEnd maxBodySize mid req' buf chunks) ∧
      (status = .moreDataExpected → ∃ chunks, ChunkProgress maxBodySize mid req' buf chunks)

variable {maxBodySize : Nat} {req : BodyRequest}

lemma TurnProgress.corrupted (maxBodySize : Nat) (mid : Bytes) (req : BodyRequest)
    (buf : Bytes) : TurnProgress maxBodySize mid req (.stop .dataCorrupted req buf) :=
  ⟨.refl req, by simp, by simp, by simp⟩

lemma TurnProgress.wait (h : ChunkProgress maxBodySize mid req buf chunks) :
    TurnProgress maxBodySize mid req (.stop .moreDataExpected req buf) :=
  ⟨.refl req, by simp, by simp, fun _ => ⟨chunks, h⟩⟩

lemma readChunkSize_progress {before line : Bytes} (hbody : req.body = chunks.flatten)
    (hchunked : req.chunked) (htakes : TakesChunks mid chunks before)
    (hsize : req.bodySize = totalLength chunks) (hread : evbufferReadln before = some (line, rest)) :
    TurnProgress maxBodySize mid req (readChunkSize maxBodySize req (cstring line) rest) := by
  unfold readChunkSize
  cases hval : strtoll 16 (cstring line) with
  | mk ntoread endp =>
    simp only
    split
    · exact .corrupted ..
    rename_i hok
    split
    · exact .corrupted ..
    split
    · exact ⟨.refl req, by simp, by simp, by simp⟩
    rename_i hlong
    obtain ⟨n, rfl⟩ : ∃ n : Nat, ntoread = n := ⟨ntoread.toNat, by omega⟩
    have hline : ChunkLine line n := by
      refine ⟨endp, hval, ?_⟩
      by_contra hend
      exact hok (.inl ⟨fun h => hend (.inl h), fun h => hend (.inr h)⟩)
    rw [Int.toNat_natCast] at hlong
    split_ifs with hzero
    · obtain rfl : n = 0 := by omega
      refine ⟨⟨rfl, rfl, rfl⟩, by simp, fun _ => ⟨chunks, hchunked, hbody, ⟨hsize, ?_⟩, ?_⟩, by simp⟩
      · exact Nat.not_lt.mp hlong
      · exact ⟨before, line, htakes, hread, hline⟩
    · refine ⟨⟨rfl, rfl, rfl⟩, chunks, hchunked, hbody, Nat.not_lt.mp hlong, .inr ⟨n, rfl, by omega, ?_, ?_⟩⟩
      · exact ⟨before, line, htakes, hread, hline⟩
      · exact congrArg (· + n) hsize

section

variable (h : ChunkProgress maxBodySize mid req buf chunks)
include h

lemma completeChunk_progress (hn : req.ntoread = n) (hpending : ChunkPending mid chunks n buf)
    (hsize : req.bodySize = totalLength chunks + n) (hlen : n ≤ buf.length) :
    ChunkProgress maxBodySize mid (req.completeChunk buf) (buf.drop n) (chunks ++ [buf.take n]) := by
  obtain ⟨before, line, htakes, hread, hline⟩ := hpending
  obtain ⟨hchunked, hbody, hbytes, -, -⟩ := completeChunk_fields req buf
  have hdata : (buf.take n).length = n := length_take_of_le hlen
  refine ⟨hchunked.trans h.chunked, ?_, hbody.trans_le h.size, .inl ⟨?_, ?_, ?_⟩⟩
  · rw [hbytes, h.body, hn]
    simp
  · exact completeChunk_ntoread req buf
  · rw [← hdata] at hline
    refine htakes.chunk ?_ hline
    rw [take_append_drop]
    exact hread
  · rw [hbody, hsize, totalLength_append]
    simp [hdata]

lemma chunkedReadTurn_progress : TurnProgress maxBodySize mid req (chunkedReadTurn maxBodySize req buf) := by
  unfold chunkedReadTurn
  split
  · exact .wait h
  split
  · exact .corrupted ..
  obtain ⟨hneg, htakes, hsize⟩ | ⟨n, hn, hpos, hpending, hsize⟩ := h.next
  · rw [if_pos (by omega)]
    split
    · exact .wait h
    · rename_i line rest hread
      split_ifs with hblank
      · refine ⟨.refl req, chunks, h.chunked, h.body, h.size, .inl ⟨hneg, ?_, hsize⟩⟩
        exact htakes.blank hread (length_eq_zero_iff.mp hblank)
      · exact readChunkSize_progress h.body h.chunked htakes hsize hread
  · rw [if_neg (by omega)]
    split
    · exact .corrupted ..
    split_ifs with hlen
    · exact .wait h
    · obtain ⟨hchunked, -, -, hsize', hheaders⟩ := completeChunk_fields req buf
      have hcomplete := completeChunk_progress h hn hpending hsize (by omega)
      rw [hn, Int.toNat_natCast]
      exact ⟨⟨hheaders, hsize', hchunked⟩, _, hcomplete⟩

lemma handleChunkedRead_progress :
    ∃ status req' buf', handleChunkedRead maxBodySize req buf = (status, req', buf') ∧
      TurnProgress maxBodySize mid req (.stop status req' buf') := by
  fun_induction handleChunkedRead maxBodySize req buf generalizing chunks with
  | case1 req buf status req' buf' hturn =>
    have hnext := chunkedReadTurn_progress h
    rw [hturn] at hnext
    exact ⟨status, req', buf', rfl, hnext⟩
  | case2 req buf req' buf' hturn ih =>
    have hnext := chunkedReadTurn_progress h
    rw [hturn] at hnext
    obtain ⟨hsame, chunks', hprogress⟩ := hnext
    obtain ⟨status, req'', buf'', heq, hsame', hrest⟩ := ih hprogress
    exact ⟨status, req'', buf'', heq, hsame.trans hsame', hrest⟩

end

end TakenChunks

section Bodies

variable {maxBodySize total : Nat} {mid buf : Bytes} {req : BodyRequest}

/-- A body of `total` bytes, some of which are still to be read. A body that is too long may be
thrown away while it is read. -/
structure LengthProgress (maxBodySize total : Nat) (mid : Bytes) (req : BodyRequest)
    (buf : Bytes) : Prop where
  chunked : req.chunked = false
  nonneg : 0 ≤ req.ntoread
  left : req.bodySize + req.ntoread.toNat = total
  bytes : total ≤ maxBodySize → mid = req.body ++ buf ∧ req.body.length = req.bodySize

structure LengthEnd (maxBodySize total : Nat) (mid : Bytes) (req : BodyRequest)
    (buf : Bytes) : Prop where
  chunked : req.chunked = false
  bytes : mid = req.body ++ buf
  length : req.body.length = total
  limit : total ≤ maxBodySize

def BodyProgress (maxBodySize : Nat) (mid : Bytes) (req : BodyRequest) (buf : Bytes) : Prop :=
  (∃ chunks, ChunkProgress maxBodySize mid req buf chunks) ∨
    ∃ total : Nat, evhttpGetBodyLength req.inputHeaders = some total ∧ LengthProgress maxBodySize total mid req buf

def NotUntilClose (req : BodyRequest) : Prop := req.chunked ∨ 0 ≤ req.ntoread

lemma BodyProgress.notUntilClose (h : BodyProgress maxBodySize mid req buf) : NotUntilClose req := by
  obtain ⟨chunks, h⟩ | ⟨total, -, h⟩ := h
  · exact .inl h.chunked
  · exact .inr h.nonneg

structure BodyResult (maxBodySize : Nat) (mid : Bytes) (req : BodyRequest) (outcome : BodyOutcome)
    (req' : BodyRequest) (buf : Bytes) : Prop where
  same : SameHeaders req req'
  notUntilClose : NotUntilClose req'
  notCanceled : outcome ≠ .canceled
  wait : outcome = .wait → BodyProgress maxBodySize mid req' buf
  trailer : outcome = .trailer → ∃ chunks, ChunkEnd maxBodySize mid req' buf chunks
  done : outcome = .done → ∃ total : Nat, evhttpGetBodyLength req'.inputHeaders = some total ∧
    LengthEnd maxBodySize total mid req' buf

lemma lingeringFail_result (h : LengthProgress maxBodySize total mid req buf)
    (hheaders : evhttpGetBodyLength req.inputHeaders = some total) (hlong : maxBodySize < total)
    (lingering : Bool) :
    ∃ outcome req' buf', lingeringFail lingering req buf = (outcome, req', buf') ∧
      BodyResult maxBodySize mid req outcome req' buf' := by
  have hnonneg := h.nonneg
  have hleft := h.left
  unfold lingeringFail
  cases lingering with
  | false =>
    exact ⟨_, _, _, rfl, .refl req, .inr h.nonneg, by simp, by simp, by simp, by simp⟩
  | true =>
    simp only [if_true, if_neg (Int.not_lt.mpr hnonneg)]
    refine ⟨_, _, _, rfl, ⟨rfl, rfl, rfl⟩, .inr (by simp only; omega), by split <;> simp, ?_,
      by split <;> simp, by split <;> simp⟩
    intro _
    refine .inr ⟨total, hheaders, h.chunked, by simp only; omega, by simp only; omega, ?_⟩
    intro hle
    omega

lemma runChunkCb_body (req : BodyRequest) : req.runChunkCb.body = req.body := by
  simp [BodyRequest.runChunkCb, BodyRequest.body]

/-- What stays the same when the bytes read so far are handed to the chunk callback. -/
lemma handedOver (req : BodyRequest) : ∃ req',
    (if req.inputBuffer ≠ [] ∧ req.chunkCb then req.runChunkCb else req) = req' ∧ SameHeaders req req' ∧
      req'.body = req.body ∧ req'.bodySize = req.bodySize ∧ req'.ntoread = req.ntoread := by
  split
  · exact ⟨_, rfl, ⟨rfl, rfl, rfl⟩, runChunkCb_body req, rfl, rfl⟩
  · exact ⟨_, rfl, .refl req, rfl, rfl, rfl⟩

lemma readBodyChecks_length (h : LengthProgress maxBodySize total mid req buf)
    (hheaders : evhttpGetBodyLength req.inputHeaders = some total) (lingering : Bool) :
    ∃ outcome req' buf', readBodyChecks maxBodySize lingering req buf = (outcome, req', buf') ∧
      BodyResult maxBodySize mid req outcome req' buf' := by
  have hnonneg := h.nonneg
  have hleft := h.left
  unfold readBodyChecks
  split
  · rename_i hlong
    refine lingeringFail_result h hheaders ?_ lingering
    obtain hlong | ⟨-, -, hlong⟩ := hlong <;> omega
  · rename_i hshort
    obtain ⟨req', hreq', hsame, hbody, hsize, hntoread⟩ := handedOver req
    simp only [hreq']
    refine ⟨_, _, _, rfl, hsame, .inr (hntoread.symm ▸ hnonneg), by split <;> simp, ?_, by split <;> simp, ?_⟩
    · intro _
      refine .inr ⟨total, hsame.headers.symm ▸ hheaders, hsame.chunked.trans h.chunked,
        hntoread.symm ▸ hnonneg, by omega, ?_⟩
      rw [hbody, hsize]
      exact h.bytes
    · intro hdone
      have hzero : req'.ntoread = 0 := by
        by_contra hne
        rw [if_neg hne] at hdone
        cases hdone
      have hle : total ≤ maxBodySize := by
        by_contra hlong
        exact hshort (.inl (by omega))
      obtain ⟨hbytes, hlen⟩ := h.bytes hle
      refine ⟨total, hsame.headers.symm ▸ hheaders, hsame.chunked.trans h.chunked, ?_, ?_, hle⟩
      · rw [hbody]
        exact hbytes
      · rw [hbody]
        omega

lemma readBodyChecks_chunks {chunks : List Bytes}
    (h : ChunkProgress maxBodySize mid req buf chunks) (lingering : Bool) :
    ∃ outcome req' buf', readBodyChecks maxBodySize lingering req buf = (outcome, req', buf') ∧
      BodyResult maxBodySize mid req outcome req' buf' := by
  have hne : req.ntoread ≠ 0 := by
    obtain ⟨hneg, -⟩ | ⟨n, hn, hpos, -⟩ := h.next <;> omega
  have hshort : ¬ (maxBodySize < req.bodySize ∨
      (req.chunked = false ∧ 0 ≤ req.ntoread ∧ maxBodySize < req.ntoread.toNat)) := by
    rintro (hlong | ⟨hchunked, -⟩)
    · exact absurd h.size (Nat.not_le.mpr hlong)
    · rw [h.chunked] at hchunked
      cases hchunked
  obtain ⟨req', hreq', hsame, hbody, hsize, hntoread⟩ := handedOver req
  unfold readBodyChecks
  simp only [if_neg hshort, hreq', hntoread, if_neg hne]
  refine ⟨_, _, _, rfl, hsame, .inl (hsame.chunked.trans h.chunked), by simp, ?_, by simp, by simp⟩
  intro _
  refine .inl ⟨chunks, hsame.chunked.trans h.chunked, hbody.trans h.body, ?_, ?_⟩
  · rw [hsize]
    exact h.size
  · rw [hsize, hntoread]
    exact h.next

lemma evhttpReadBody_result (h : BodyProgress maxBodySize mid req buf) (lingering : Bool) :
    ∃ outcome req' buf', evhttpReadBody maxBodySize lingering req buf = (outcome, req', buf') ∧
      BodyResult maxBodySize mid req outcome req' buf' := by
  obtain ⟨chunks, h⟩ | ⟨total, hheaders, h⟩ := h
  · obtain ⟨status, req', buf', hread, hsame, hnot, hall, hmore⟩ := handleChunkedRead_progress h
    have hchunked : NotUntilClose req' := .inl (hsame.chunked.trans h.chunked)
    unfold evhttpReadBody
    rw [if_pos h.chunked, hread]
    cases status with
    | allDataRead =>
      exact ⟨_, _, _, rfl, hsame, hchunked, by simp, by simp, fun _ => hall rfl, by simp⟩
    | moreDataExpected =>
      obtain ⟨chunks', hprogress⟩ := hmore rfl
      obtain ⟨outcome, req'', buf'', heq, hresult⟩ := readBodyChecks_chunks hprogress lingering
      exact ⟨outcome, req'', buf'', heq, { hresult with same := hsame.trans hresult.same }⟩
    | requestCanceled => exact absurd rfl hnot
    | dataCorrupted | dataTooLong =>
      exact ⟨_, _, _, rfl, hsame, hchunked, by simp, by simp, by simp, by simp⟩
  · have hnonneg := h.nonneg
    have hleft := h.left
    have hplain : ¬ req.chunked := Bool.eq_false_iff.mp h.chunked
    unfold evhttpReadBody
    rw [if_neg hplain, if_neg (Int.not_lt.mpr hnonneg)]
    split
    · generalize hn : min buf.length req.ntoread.toNat = n
      have htaken : LengthProgress maxBodySize total mid { req with
          ntoread := req.ntoread - n
          bodySize := req.bodySize + n
          inputBuffer := req.inputBuffer ++ buf.take n } (buf.drop n) := by
        refine ⟨h.chunked, by simp only; omega, by simp only; omega, fun hle => ?_⟩
        obtain ⟨hbytes, hlen⟩ := h.bytes hle
        unfold BodyRequest.body at hbytes hlen ⊢
        refine ⟨?_, ?_⟩
        · rw [hbytes]
          simp
        · simp only [length_append, length_take] at hlen ⊢
          omega
      obtain ⟨outcome, req', buf', heq, hresult⟩ := readBodyChecks_length htaken hheaders lingering
      have hsame : SameHeaders req req' :=
        ⟨hresult.same.headers, hresult.same.size, hresult.same.chunked⟩
      exact ⟨outcome, req', buf', heq, { hresult with same := hsame }⟩
    · exact readBodyChecks_length h hheaders lingering

lemma BodyProgress.extend (h : BodyProgress maxBodySize mid req buf) (ext : Bytes) :
    BodyProgress maxBodySize (mid ++ ext) req (buf ++ ext) := by
  obtain ⟨chunks, h⟩ | ⟨total, hheaders, h⟩ := h
  · refine .inl ⟨chunks, h.chunked, h.body, h.size, ?_⟩
    obtain ⟨hneg, htakes, hsize⟩ | ⟨n, hn, hpos, hpending, hsize⟩ := h.next
    · exact .inl ⟨hneg, htakes.extend ext, hsize⟩
    · exact .inr ⟨n, hn, hpos, hpending.extend ext, hsize⟩
  · refine .inr ⟨total, hheaders, h.chunked, h.nonneg, h.left, fun hle => ?_⟩
    obtain ⟨hbytes, hlen⟩ := h.bytes hle
    rw [hbytes, append_assoc]
    exact ⟨rfl, hlen⟩

end Bodies

end MyLibevent.Proofs
