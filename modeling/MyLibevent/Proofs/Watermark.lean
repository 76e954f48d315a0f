import MyLibevent.Proofs.BuffereventSock

/-!
# Socket bufferevents: the read watermark

The flag for the watermark is kept by the callback of the input buffer and by a change of the watermark. A
read that finds no room sets it without looking at the input.
-/

namespace MyLibevent.Proofs

open Runs SuspendFlag

section Flag

variable (flags : UInt16) {what : SuspendFlag}

lemma wm_or (bit : UInt16) : (flags ||| bit) &&& wm.bit = (flags &&& wm.bit) ||| (bit &&& wm.bit) :=
  UInt16.toBitVec_inj.1 BitVec.and_or_distrib_right

lemma wm_or_wm : (flags ||| wm.bit) &&& wm.bit ≠ 0 := by
  rw [wm_or]
  exact or_bit_ne_zero _ .wm

lemma wm_and_not_wm : (flags &&& ~~~wm.bit) &&& wm.bit = 0 := by
  rw [UInt16.and_assoc, show ~~~wm.bit &&& wm.bit = 0 by decide, UInt16.and_zero]

lemma wm_or_bit (hne : what ≠ .wm) : (flags ||| what.bit) &&& wm.bit = flags &&& wm.bit := by
  have hbit : what.bit &&& wm.bit = 0 := by
    cases what <;> first | exact absurd rfl hne | decide
  rw [wm_or, hbit, UInt16.or_zero]

lemma wm_and_not_bit (hne : what ≠ .wm) : (flags &&& ~~~what.bit) &&& wm.bit = flags &&& wm.bit := by
  have hbit : ~~~what.bit &&& wm.bit = wm.bit := by
    cases what <;> first | exact absurd rfl hne | decide
  rw [UInt16.and_assoc, hbit]

end Flag

structure Marked (bufev : Bufferevent) : Prop where
  flag : bufev.readSuspended &&& wm.bit ≠ 0 ↔ bufev.wmRead.high ≠ 0 ∧ bufev.wmRead.high ≤ bufev.input.length
  callback : bufev.readWatermarksCb = some true ↔ bufev.wmRead.high ≠ 0

section Functions

variable {s s' : SocketBev} {what : SuspendFlag} {timeout : Bool} {asked paid : List LimitCall}
  {readmax lowmark highmark : Nat} {readable : Int} {res : SocketRead} {op : WatermarkOp}

lemma bufev_suspendRead (hs : buffereventOpsSocket.suspendRead what s = some s') :
    s'.bufev = { s.bufev with readSuspended := s.bufev.readSuspended ||| what.bit } := by
  unfold BeOps.suspendRead at hs
  split at hs <;> cases hs <;> rfl

lemma bufev_unsuspendRead (hs : buffereventOpsSocket.unsuspendRead what s = some s') :
    s'.bufev = { s.bufev with readSuspended := s.bufev.readSuspended &&& ~~~what.bit } := by
  unfold BeOps.unsuspendRead at hs
  dsimp only at hs
  split at hs <;> cases hs <;> rfl

lemma suspendRead_marked (hs : buffereventOpsSocket.suspendRead .wm s = some s')
    (hcb : s.bufev.readWatermarksCb = some true) (hset : s.bufev.wmRead.high ≠ 0)
    (hfull : s.bufev.wmRead.high ≤ s.bufev.input.length) : Marked s'.bufev := by
  rw [bufev_suspendRead hs]
  exact ⟨iff_of_true (wm_or_wm _) ⟨hset, hfull⟩, iff_of_true hcb hset⟩

lemma unsuspendRead_marked (hs : buffereventOpsSocket.unsuspendRead .wm s = some s')
    (hcb : s.bufev.readWatermarksCb = some true ↔ s.bufev.wmRead.high ≠ 0)
    (hroom : s.bufev.wmRead.high ≠ 0 → ¬s.bufev.wmRead.high ≤ s.bufev.input.length) : Marked s'.bufev := by
  rw [bufev_unsuspendRead hs]
  exact ⟨iff_of_false (not_not.2 (wm_and_not_wm _)) fun hfull => hroom hfull.1 hfull.2, hcb⟩

lemma changeInput_marked {input : Bytes} (h : Marked s.bufev) (hs : changeInput input s = some s') :
    Marked s'.bufev ∧ s'.bufev.input.length = input.length := by
  unfold changeInput at hs
  split_ifs at hs with hlen
  · cases hs
    exact ⟨h, hlen.symm⟩
  unfold BeOps.runInputCallbacks at hs
  split_ifs at hs with hcb
  · unfold BeOps.inbufWmCb at hs
    split_ifs at hs with hfull
    · refine ⟨suspendRead_marked hs hcb (h.callback.1 hcb) hfull, ?_⟩
      rw [bufev_suspendRead hs]
    · refine ⟨unsuspendRead_marked hs h.callback fun _ => hfull, ?_⟩
      rw [bufev_unsuspendRead hs]
  · cases hs
    have hunset : ¬s.bufev.wmRead.high ≠ 0 := fun hset => hcb (h.callback.2 hset)
    exact ⟨⟨iff_of_false (fun hflag => hunset (h.flag.1 hflag).1) fun hfull => hunset hfull.1, h.callback⟩, rfl⟩

lemma setReadWatermark_marked
    (hs : buffereventOpsSocket.setReadWatermark lowmark highmark s = some s') :
    Marked s'.bufev := by
  unfold BeOps.setReadWatermark at hs
  dsimp only at hs
  split at hs
  · rename_i hset
    split_ifs at hs with hfull
    · exact suspendRead_marked hs rfl hset hfull
    · exact unsuspendRead_marked hs (iff_of_true rfl hset) fun _ => hfull
  · rename_i hunset
    refine unsuspendRead_marked hs (iff_of_false ?_ hunset) fun hset => absurd hset hunset
    change Option.map _ s.bufev.readWatermarksCb ≠ some true
    cases s.bufev.readWatermarksCb <;> simp

lemma buffereventSetwatermark_marked {events : IoEvents} (h : Marked s.bufev)
    (hs : buffereventOpsSocket.buffereventSetwatermark events lowmark highmark s = some s') :
    Marked s'.bufev := by
  unfold BeOps.buffereventSetwatermark at hs
  dsimp only at hs
  split at hs
  · exact setReadWatermark_marked hs
  · cases hs
    split
    · exact ⟨h.flag, h.callback⟩
    · exact h

lemma buffereventDisable_marked {event : IoEvents} (h : Marked s.bufev)
    (hs : buffereventOpsSocket.buffereventDisable event s = some s') :
    Marked s'.bufev ∧ s'.bufev.input = s.bufev.input := by
  cases hs
  exact ⟨⟨h.flag, h.callback⟩, rfl⟩

lemma readLimitCalls_marked {calls : List LimitCall} (hcalls : ∀ call ∈ calls, call.bandwidth)
    (h : Marked s.bufev) (hs : calls.foldlM readLimitCall s = some s') :
    Marked s'.bufev ∧ s'.bufev.input = s.bufev.input := by
  refine invariant_foldlM (P := fun t => Marked t.bufev ∧ t.bufev.input = s.bufev.input) ⟨h, rfl⟩ hs ?_
  intro t call hcall t' ht hs
  have hbandwidth := hcalls call hcall
  cases call with
  | suspend what =>
    have hne : what ≠ .wm := by rintro rfl; cases hbandwidth
    rw [bufev_suspendRead hs]
    exact ⟨⟨(wm_or_bit _ hne).symm ▸ ht.1.flag, ht.1.callback⟩, ht.2⟩
  | unsuspend what =>
    have hne : what ≠ .wm := by rintro rfl; cases hbandwidth
    rw [bufev_unsuspendRead hs]
    exact ⟨⟨(wm_and_not_bit _ hne).symm ▸ ht.1.flag, ht.1.callback⟩, ht.2⟩

lemma evbufferReadLimit_le {m : Int} (hm : 0 ≤ m) (readable : Int) : evbufferReadLimit (cInt m) readable ≤ m := by
  have hbmod : cInt m ≤ m ∧ (cInt m < 0 → 2 ^ 31 ≤ m) := by
    unfold cInt
    rw [Int.bmod_def]
    omega
  unfold evbufferReadLimit evbufferMaxRead
  dsimp only
  split <;> split <;> omega

/-- A read takes no more than fits below the watermark. -/
lemma evbufferReadLimit_le_room (readmax : Nat) (readable : Int) {bufev : Bufferevent} (hset : bufev.wmRead.high ≠ 0)
    (hroom : bufev.input.length < bufev.wmRead.high)
    (hpos : 0 < toSsize (bufev.wmRead.high - bufev.input.length)) :
    evbufferReadLimit (readcbHowmuch readmax bufev) readable ≤ bufev.wmRead.high - bufev.input.length := by
  have hle : toSsize (bufev.wmRead.high - bufev.input.length) ≤ bufev.wmRead.high - bufev.input.length := by
    unfold toSsize
    rw [Int.bmod_def]
    omega
  unfold readcbHowmuch
  rw [if_pos hset]
  dsimp only
  split
  · exact (evbufferReadLimit_le (Int.natCast_nonneg readmax) readable).trans (by omega)
  · exact (evbufferReadLimit_le hpos.le readable).trans hle

lemma length_le_of_upTo {res : SocketRead} {limit : Int} {bytes : Bytes} (h : res.upTo limit = .data bytes) :
    bytes.length ≤ limit.toNat := by
  cases res with
  | data all =>
    cases h
    exact List.length_take_le _ _
  | _ => cases h

lemma finishRead_marked (hpaid : ∀ call ∈ paid, call.bandwidth) (h : Marked s.bufev)
    (hs : finishRead res paid s = some s') : Marked s'.bufev ∧ (s'.bufev.input = s.bufev.input ∨
      ∃ bytes, res = .data bytes ∧ s'.bufev.input.length = s.bufev.input.length + bytes.length) := by
  unfold finishRead at hs
  split at hs
  · cases hs
    exact ⟨h, .inl rfl⟩
  · cases hs
    exact ⟨h, .inl rfl⟩
  · exact (buffereventDisable_marked h hs).imp_right .inl
  · exact (buffereventDisable_marked h hs).imp_right .inl
  · rename_i bytes _
    obtain ⟨next, hnext, hrest⟩ := Option.bind_eq_some_iff.mp hs
    obtain ⟨hnext, hlen⟩ := changeInput_marked h hnext
    obtain ⟨hmarked, hinput⟩ := readLimitCalls_marked hpaid hnext hrest
    refine ⟨hmarked, .inr ⟨bytes, rfl, ?_⟩⟩
    rw [hinput, hlen, List.length_append]

lemma readcb_cases (hs : s.watermarkStep (.readcb timeout asked readmax readable res paid) = some s') :
    s.evRead.pending ∧ (∀ call ∈ asked ++ paid, call.bandwidth) ∧
      buffereventReadcb timeout asked
        (res.upTo (evbufferReadLimit (readcbHowmuch readmax s.bufev) readable)) paid s = some s' := by
  unfold SocketBev.watermarkStep SocketBev.step at hs
  dsimp only at hs
  split at hs
  · rename_i hbandwidth
    split at hs
    · rename_i hpending
      exact ⟨hpending, List.all_eq_true.1 hbandwidth, hs⟩
    · cases hs
  · cases hs

/-- A read of a socket that is waited for sets the flag only if the room is no `ev_ssize_t`. -/
lemma readcb_marked (ha : Attended s) (h : Marked s.bufev)
    (hs : s.watermarkStep (.readcb timeout asked readmax readable res paid) = some s') :
    (s.RoomFits (.readcb timeout asked readmax readable res paid) → Marked s'.bufev) ∧
      (s.bufev.wmRead.high ≠ 0 → s'.bufev.input.length ≤ s.bufev.wmRead.high) := by
  obtain ⟨hpending, hbandwidth, hcb⟩ := readcb_cases hs
  have hroom : s.bufev.wmRead.high ≠ 0 → s.bufev.input.length < s.bufev.wmRead.high := by
    intro hset
    by_contra hfull
    exact h.flag.2 ⟨hset, not_lt.1 hfull⟩ (by rw [(ha.waiting.1.1 hpending).2, UInt16.zero_and])
  unfold buffereventReadcb at hcb
  dsimp only at hcb
  split at hcb
  · obtain ⟨hmarked, hinput⟩ := buffereventDisable_marked h hcb
    exact ⟨fun _ => hmarked, fun hset => hinput ▸ (hroom hset).le⟩
  rename_i htimeout
  obtain rfl := Bool.eq_false_iff.2 htimeout
  split_ifs at hcb with hwm
  · rw [bufev_suspendRead hcb]
    refine ⟨fun hfits => ?_, fun hset => (hroom hset).le⟩
    have hlt := hroom hwm.1
    have hnone : toSsize (s.bufev.wmRead.high - s.bufev.input.length) ≤ 0 := hwm.2
    unfold toSsize at hnone
    unfold SocketBev.RoomFits at hfits
    rw [Int.bmod_def] at hnone
    omega
  obtain ⟨next, hnext, hrest⟩ := Option.bind_eq_some_iff.mp hcb
  obtain ⟨hnext, hinput⟩ :=
    readLimitCalls_marked (fun call hcall => hbandwidth call (List.mem_append_left _ hcall)) h hnext
  split at hrest
  · cases hrest
    exact ⟨fun _ => hnext, fun hset => hinput ▸ (hroom hset).le⟩
  obtain ⟨hmarked, hread⟩ :=
    finishRead_marked (fun call hcall => hbandwidth call (List.mem_append_right _ hcall)) hnext hrest
  refine ⟨fun _ => hmarked, fun hset => ?_⟩
  have hlt := hroom hset
  rw [hinput] at hread
  obtain hsame | ⟨bytes, hbytes, hlen⟩ := hread
  · rw [hsame]
    exact hlt.le
  · have hfew := length_le_of_upTo hbytes
    have hlimit := evbufferReadLimit_le_room readmax readable hset hlt (not_le.1 fun hle => hwm ⟨hset, hle⟩)
    omega

lemma watermarkStep_attended (h : Attended s) (hs : s.watermarkStep op = some s') : Attended s' := by
  cases op with
  | enable event => exact socketStep_attended h (show s.step (.enable event) = some s' from hs)
  | disable event => exact buffereventDisable_attended h hs
  | setwatermark events lowmark highmark => exact buffereventSetwatermark_attended h hs
  | changeInput input => exact changeInput_attended h hs
  | readcb timeout asked readmax readable res paid => exact buffereventReadcb_attended h (readcb_cases hs).2.2

lemma watermarkStep_marked (ha : Attended s) (h : Marked s.bufev) (hfits : s.RoomFits op)
    (hs : s.watermarkStep op = some s') : Marked s'.bufev := by
  cases op with
  | enable event =>
    unfold SocketBev.watermarkStep SocketBev.step BeOps.buffereventEnable at hs
    dsimp only at hs
    split at hs <;> cases hs <;> exact ⟨h.flag, h.callback⟩
  | disable event => exact (buffereventDisable_marked h hs).1
  | setwatermark events lowmark highmark => exact buffereventSetwatermark_marked h hs
  | changeInput input => exact (changeInput_marked h hs).1
  | readcb timeout asked readmax readable res paid => exact (readcb_marked ha h hs).1 hfits

end Functions

/-- As long as the room below the watermark is below `2 ^ 63` when the socket is read, the flag is exact, and
no read goes beyond the watermark. -/
theorem reachedWatermark_exact (fd : Nat) {s : SocketBev}
    (hr : Reached SocketBev.watermarkStep SocketBev.RoomFits (buffereventSocketNew fd) s) :
    s.WatermarkExact ∧ ∀ timeout asked readmax readable res paid s',
      s.watermarkStep (.readcb timeout asked readmax readable res paid) = some s' → s.bufev.wmRead.high ≠ 0 →
        s'.bufev.input.length ≤ s.bufev.wmRead.high := by
  have hinv : Attended s ∧ Marked s.bufev := by
    refine hr.invariant (P := fun s => Attended s ∧ Marked s.bufev) ⟨socketNew_attended fd, ?_⟩ ?_
    · exact ⟨⟨fun hflag => absurd UInt16.zero_and hflag, fun hfull => absurd rfl hfull.1⟩, nofun,
        fun hset => absurd rfl hset⟩
    · intro s op s' h hfits hs
      exact ⟨watermarkStep_attended h.1 hs, watermarkStep_marked h.1 h.2 hfits hs⟩
  refine ⟨hinv.2.flag, ?_⟩
  intro timeout asked readmax readable res paid s' hs
  exact (readcb_marked hinv.1 hinv.2 hs).2

theorem reachedWatermark_exact_full :
    ∃ s, Reached SocketBev.watermarkStep SocketBev.RoomFits (buffereventSocketNew 5) s ∧
    s.bufev.input = [7, 8] ∧ s.WatermarkExact := by
  have hr : Reached SocketBev.watermarkStep SocketBev.RoomFits (buffereventSocketNew 5) _ :=
    .step (.readcb false [] 16384 3 (.data [7, 8, 9]) []) (.step (.setwatermark ⟨true, false⟩ 0 2)
      (.step (.enable ⟨true, false⟩) .start trivial rfl) trivial rfl) (by unfold SocketBev.RoomFits; decide) rfl
  exact ⟨_, hr, rfl, (reachedWatermark_exact 5 hr).1⟩

/-- The watermark `SIZE_MAX`: the first read finds no room and suspends reading, though nothing is there. -/
theorem readcb_suspends_empty : ∃ s, Reached SocketBev.watermarkStep (fun _ _ => True) (buffereventSocketNew 5) s ∧
    s.bufev.input = [] ∧ ¬s.WatermarkExact := by
  have hr : Reached SocketBev.watermarkStep (fun _ _ => True) (buffereventSocketNew 5) _ :=
    .step (.readcb false [] 16384 3 (.data [7, 8, 9]) []) (.step (.setwatermark ⟨true, false⟩ 0 (2 ^ 64 - 1))
      (.step (.enable ⟨true, false⟩) .start trivial rfl) trivial rfl) trivial rfl
  refine ⟨_, hr, rfl, ?_⟩
  unfold SocketBev.WatermarkExact
  decide

end MyLibevent.Proofs
