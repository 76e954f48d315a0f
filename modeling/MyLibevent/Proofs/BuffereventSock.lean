import MyLibevent.BuffereventSock
import MyLibevent.Lib.Runs

/-!
# Socket bufferevents: what is enabled is waited for

Each function leaves the two events as the flags ask for them; the callbacks only drop `ev_write` once nothing
is left to write.
-/

namespace MyLibevent.Proofs
open Runs

section Flags

lemma or_bit_ne_zero (flags : UInt16) (what : SuspendFlag) : flags ||| what.bit ≠ 0 := by
  intro h
  have hbit : what.bit = 0 := (UInt16.or_eq_zero_iff.mp h).2
  cases what <;> exact absurd hbit (by decide)

end Flags

structure Attended (s : SocketBev) : Prop where
  connecting : s.connecting = false
  waiting : s.Waiting

section Functions

variable {s s' : SocketBev} {what : SuspendFlag} {event : IoEvents} {lowmark highmark : Nat}
  {calls paid asked : List LimitCall} {res : SocketWrite} {timeout : Bool}

lemma pending_addEvent (ev : SocketEvent) (tv : Timeval) : (buffereventAddEvent ev tv).pending := by
  unfold buffereventAddEvent
  split <;> rfl

section

variable (h : Attended s)
include h

lemma Attended.of_less (hconn : s'.connecting = s.connecting)
    (hread : s'.evRead.pending = s.evRead.pending) (hwrite : s'.evWrite.pending = s.evWrite.pending)
    (henabled : s'.bufev.enabled = s.bufev.enabled)
    (hrs : s'.bufev.readSuspended = s.bufev.readSuspended)
    (hws : s'.bufev.writeSuspended = s.bufev.writeSuspended)
    (hout : s'.bufev.output ≠ [] → s.bufev.output ≠ []) : Attended s' where
  connecting := hconn.trans h.connecting
  waiting := by
    obtain ⟨hr, hw⟩ := h.waiting
    unfold SocketBev.Waiting
    rw [hread, hwrite, henabled, hrs, hws]
    exact ⟨hr, fun hne => hw (hout hne)⟩

lemma suspendRead_attended (hs : buffereventOpsSocket.suspendRead what s = some s') : Attended s' := by
  obtain ⟨hconn, hr, hw⟩ := h
  have hflag := or_bit_ne_zero s.bufev.readSuspended what
  unfold BeOps.suspendRead at hs
  change Option.map _ (if s.bufev.readSuspended = 0 then _ else _) = _ at hs
  by_cases hzero : s.bufev.readSuspended = 0
  · rw [if_pos hzero] at hs
    cases hs
    refine ⟨hconn, ?_, hw⟩
    constructor
    · intro hp
      cases hp
    · intro hp
      exact absurd hp.2 hflag
  · rw [if_neg hzero] at hs
    cases hs
    refine ⟨hconn, ?_, hw⟩
    exact ⟨fun hp => absurd (hr.mp hp).2 hzero, fun hp => absurd hp.2 hflag⟩

lemma unsuspendRead_attended (hs : buffereventOpsSocket.unsuspendRead what s = some s') : Attended s' := by
  obtain ⟨hconn, hr, hw⟩ := h
  unfold BeOps.unsuspendRead at hs
  dsimp only at hs
  split_ifs at hs with hcond
  · cases hs
    refine ⟨hconn, ?_, hw⟩
    exact ⟨fun _ => ⟨hcond.2, hcond.1⟩, fun _ => pending_addEvent _ _⟩
  · cases hs
    refine ⟨hconn, ?_, hw⟩
    constructor
    · intro hp
      obtain ⟨henabled, hzero⟩ := hr.mp hp
      have hstill : s.bufev.readSuspended &&& ~~~what.bit = 0 := by
        rw [hzero, UInt16.zero_and]
      exact absurd ⟨hstill, henabled⟩ hcond
    · intro hp
      exact absurd ⟨hp.2, hp.1⟩ hcond

lemma suspendWrite_attended (hs : buffereventOpsSocket.suspendWrite what s = some s') : Attended s' := by
  obtain ⟨hconn, hr, hw⟩ := h
  have hflag := or_bit_ne_zero s.bufev.writeSuspended what
  unfold BeOps.suspendWrite at hs
  change Option.map _ (if s.bufev.writeSuspended = 0 then _ else _) = _ at hs
  split_ifs at hs <;> cases hs <;> exact ⟨hconn, hr, fun _ _ hzero => absurd hzero hflag⟩

lemma unsuspendWrite_attended (hs : buffereventOpsSocket.unsuspendWrite what s = some s') : Attended s' := by
  obtain ⟨hconn, hr, hw⟩ := h
  unfold BeOps.unsuspendWrite at hs
  dsimp only at hs
  split_ifs at hs with hcond
  · cases hs
    exact ⟨hconn, hr, fun _ _ _ => pending_addEvent _ _⟩
  · cases hs
    exact ⟨hconn, hr, fun _ henabled hzero => absurd ⟨hzero, henabled⟩ hcond⟩

lemma inbufWmCb_attended (hs : buffereventOpsSocket.inbufWmCb s = some s') : Attended s' := by
  unfold BeOps.inbufWmCb at hs
  split at hs
  · exact suspendRead_attended h hs
  · exact unsuspendRead_attended h hs

lemma changeInput_attended {input : Bytes} (hs : changeInput input s = some s') : Attended s' := by
  unfold changeInput at hs
  split at hs
  · cases hs
    exact h
  · have hnext : Attended { s with bufev := { s.bufev with input := input } } :=
      h.of_less rfl rfl rfl rfl rfl rfl id
    unfold BeOps.runInputCallbacks at hs
    split at hs
    · exact inbufWmCb_attended hnext hs
    · cases hs
      exact hnext

end

lemma buffereventEnable_attended (hconn : s.connecting = false)
    (hr : event.read = false → (s.evRead.pending ↔ s.bufev.enabled.read ∧ s.bufev.readSuspended = 0))
    (hsus : s.bufev.readSuspended ≠ 0 → s.evRead.pending = false)
    (hw : event.write = false → s.bufev.output ≠ [] → s.bufev.enabled.write →
      s.bufev.writeSuspended = 0 → s.evWrite.pending)
    (hs : buffereventOpsSocket.buffereventEnable event s = some s') : Attended s' := by
  have henable : s' = beSocketEnable
      ⟨event.read && s.bufev.readSuspended == 0, event.write && s.bufev.writeSuspended == 0⟩
      { s with bufev := { s.bufev with
        enabled := ⟨s.bufev.enabled.read || event.read, s.bufev.enabled.write || event.write⟩ } } := by
    unfold BeOps.buffereventEnable at hs
    dsimp only at hs
    split_ifs at hs with hnone
    · exact (Option.some.inj hs).symm
    · rw [Bool.or_eq_true, not_or, Bool.not_eq_true, Bool.not_eq_true] at hnone
      cases hs
      rw [show (event.read && s.bufev.readSuspended == 0) = false from hnone.1,
        show (event.write && s.bufev.writeSuspended == 0) = false from hnone.2]
      rfl
  rw [henable]
  refine ⟨hconn, ?_, ?_⟩
  · cases hread : event.read with
    | false => simpa [beSocketEnable, hread] using hr hread
    | true =>
      by_cases hzero : s.bufev.readSuspended = 0
      · simp [beSocketEnable, hzero, pending_addEvent]
      · simp [beSocketEnable, hzero, hsus hzero]
  · cases hwrite : event.write with
    | false => simpa [beSocketEnable, hwrite] using hw hwrite
    | true =>
      intro _ _ hzero
      change s.bufev.writeSuspended = 0 at hzero
      simp [beSocketEnable, hzero, pending_addEvent]

lemma buffereventDisable_attended (h : Attended s)
    (hs : buffereventOpsSocket.buffereventDisable event s = some s') : Attended s' := by
  obtain ⟨hconn, hr, hw⟩ := h
  cases hs
  refine ⟨hconn, ?_, ?_⟩
  · cases hread : event.read with
    | false => simpa [beSocketDisable, hread, buffereventOpsSocket] using hr
    | true => simp [beSocketDisable, hread, buffereventOpsSocket, socketEventDel]
  · cases hwrite : event.write with
    | false => simpa [beSocketDisable, hwrite, buffereventOpsSocket] using hw
    | true => simp [hwrite, buffereventOpsSocket, beSocketDisable]

lemma setReadWatermark_attended (h : Attended s)
    (hs : buffereventOpsSocket.setReadWatermark lowmark highmark s = some s') : Attended s' := by
  unfold BeOps.setReadWatermark at hs
  dsimp only at hs
  split at hs
  · split at hs
    · refine suspendRead_attended ?_ hs
      exact h.of_less rfl rfl rfl rfl rfl rfl id
    · refine unsuspendRead_attended ?_ hs
      exact h.of_less rfl rfl rfl rfl rfl rfl id
  · refine unsuspendRead_attended ?_ hs
    exact h.of_less rfl rfl rfl rfl rfl rfl id

lemma buffereventSetwatermark_attended (h : Attended s)
    (hs : buffereventOpsSocket.buffereventSetwatermark event lowmark highmark s = some s') :
    Attended s' := by
  have hwrite : Attended (if event.write then buffereventOpsSocket.set
      { buffereventOpsSocket.get s with wmWrite := ⟨lowmark, highmark⟩ } s else s) := by
    split
    · exact h.of_less rfl rfl rfl rfl rfl rfl id
    · exact h
  unfold BeOps.buffereventSetwatermark at hs
  dsimp only at hs
  split at hs
  · exact setReadWatermark_attended hwrite hs
  · cases hs
    exact hwrite

lemma pending_adjExistingTimeout (ev : SocketEvent) (tv : Timeval) :
    (adjExistingTimeout ev tv).pending = ev.pending := by
  unfold adjExistingTimeout
  cases hp : ev.pending with
  | false => simp [hp]
  | true =>
    rw [if_pos rfl]
    split
    · exact pending_addEvent ev tv
    · rfl

lemma socketWrite_attended (data : Bytes) (h : Attended s) : Attended (socketWrite data s) := by
  obtain ⟨hconn, hr, hw⟩ := h
  unfold socketWrite buffereventSocketOutbufCb
  split_ifs with hcond
  · exact ⟨hconn, hr, fun _ _ _ => pending_addEvent _ _⟩
  · refine ⟨hconn, hr, ?_⟩
    intro hne henabled hzero
    -- without new data the old output was there already
    by_cases hdata : data.length = 0
    · rw [List.length_eq_zero_iff] at hdata
      refine hw ?_ henabled hzero
      simpa [hdata] using hne
    · change s.evWrite.pending
      by_contra hp
      rw [Bool.not_eq_true] at hp
      exact hcond ⟨hdata, henabled, hp, hzero⟩

section

variable (h : Attended s)
include h

lemma readLimitCalls_attended (hs : calls.foldlM readLimitCall s = some s') : Attended s' := by
  refine invariant_foldlM h hs ?_
  intro s call _ s' h hs
  cases call with
  | suspend what => exact suspendRead_attended h hs
  | unsuspend what => exact unsuspendRead_attended h hs

lemma writeLimitCalls_attended (hs : calls.foldlM writeLimitCall s = some s') : Attended s' := by
  refine invariant_foldlM h hs ?_
  intro s call _ s' h hs
  cases call with
  | suspend what => exact suspendWrite_attended h hs
  | unsuspend what => exact unsuspendWrite_attended h hs

lemma finishRead_attended {res : SocketRead} (hs : finishRead res paid s = some s') : Attended s' := by
  unfold finishRead at hs
  split at hs
  · cases hs
    exact h
  · cases hs
    exact h.of_less rfl rfl rfl rfl rfl rfl id
  · exact buffereventDisable_attended h hs
  · exact buffereventDisable_attended h hs
  · obtain ⟨next, hnext, hrest⟩ := Option.bind_eq_some_iff.mp hs
    exact readLimitCalls_attended (changeInput_attended h hnext) hrest

lemma buffereventReadcb_attended {res : SocketRead}
    (hs : buffereventReadcb timeout asked res paid s = some s') : Attended s' := by
  unfold buffereventReadcb at hs
  dsimp only at hs
  split at hs
  · exact buffereventDisable_attended h hs
  · split at hs
    · exact suspendRead_attended h hs
    · obtain ⟨next, hnext, hrest⟩ := Option.bind_eq_some_iff.mp hs
      have hn := readLimitCalls_attended h hnext
      split at hrest
      · cases hrest
        exact hn
      · exact finishRead_attended hn hrest

lemma stopIfDrained_attended : Attended (stopIfDrained s) := by
  unfold stopIfDrained
  split_ifs with hempty
  · exact ⟨h.connecting, h.waiting.1, fun hne => absurd hempty hne⟩
  · exact h

lemma finishWrite_attended (hs : finishWrite res paid s = some s') : Attended s' := by
  unfold finishWrite at hs
  split at hs
  · cases hs
    exact stopIfDrained_attended h
  · split at hs
    · cases hs
      exact stopIfDrained_attended h
    · exact buffereventDisable_attended h hs
    · exact buffereventDisable_attended h hs
    · rename_i hne _ n _
      obtain ⟨next, hnext, hrest⟩ := Option.bind_eq_some_iff.mp hs
      cases hrest
      refine stopIfDrained_attended (writeLimitCalls_attended ?_ hnext)
      exact h.of_less rfl rfl rfl rfl rfl rfl (fun _ => hne)

lemma buffereventWritecb_attended {finished : Int}
    (hs : buffereventWritecb timeout finished asked res paid s = some s') : Attended s' := by
  have hgo : finishConnecting finished s = (s, true) := if_neg (by simp [h.connecting])
  unfold buffereventWritecb at hs
  split at hs
  · exact buffereventDisable_attended h hs
  · rw [hgo] at hs
    obtain ⟨next, hnext, hrest⟩ := Option.bind_eq_some_iff.mp hs
    have hn := writeLimitCalls_attended h hnext
    split at hrest
    · cases hrest
      exact hn
    · exact finishWrite_attended hn hrest

lemma beSocketSetfd_attended {fd : Nat} (hs : beSocketSetfd fd s = some s') : Attended s' := by
  unfold beSocketSetfd at hs
  dsimp only at hs
  rw [if_pos (Int.natCast_nonneg fd)] at hs
  refine buffereventEnable_attended ?_ ?_ ?_ ?_ hs
  · exact h.connecting
  · intro hread
    change false = true ↔ _
    simp [hread]
  · intro _
    rfl
  · intro hwrite _ henabled
    rw [hwrite] at henabled
    cases henabled

lemma socketStep_attended {op : SocketOp} (hs : s.step op = some s') : Attended s' := by
  cases op with
  | enable event =>
    refine buffereventEnable_attended h.connecting (fun _ => h.waiting.1) ?_ (fun _ => h.waiting.2) hs
    intro hsus
    rw [← Bool.not_eq_true]
    intro hp
    exact hsus (h.waiting.1.mp hp).2
  | disable event => exact buffereventDisable_attended h hs
  | suspendRead what => exact suspendRead_attended h hs
  | unsuspendRead what => exact unsuspendRead_attended h hs
  | suspendWrite what => exact suspendWrite_attended h hs
  | unsuspendWrite what => exact unsuspendWrite_attended h hs
  | setwatermark events lowmark highmark => exact buffereventSetwatermark_attended h hs
  | setTimeouts tvRead tvWrite =>
    cases hs
    exact h.of_less rfl (pending_adjExistingTimeout _ _) (pending_adjExistingTimeout _ _) rfl rfl rfl id
  | write data =>
    cases hs
    exact socketWrite_attended data h
  | read n => exact changeInput_attended h hs
  | readcb timeout asked res paid =>
    change (if s.evRead.pending then _ else none) = _ at hs
    split at hs
    · exact buffereventReadcb_attended h hs
    · cases hs
  | writecb timeout finished asked res paid =>
    change (if s.evWrite.pending then _ else none) = _ at hs
    split at hs
    · exact buffereventWritecb_attended h hs
    · cases hs
  | setfd fd => exact beSocketSetfd_attended h hs

end

end Functions

lemma socketNew_attended (fd : Int) : Attended (buffereventSocketNew fd) where
  connecting := rfl
  waiting := by
    constructor
    · constructor
      · intro hp
        cases hp
      · intro hp
        cases hp.1
    · intro hne
      exact absurd rfl hne

theorem reachedSocket_waiting (fd : Nat) (s : SocketBev)
    (hr : Reached SocketBev.step (fun _ _ => True) (buffereventSocketNew fd) s) : s.Waiting := by
  have hattended : Attended s :=
    hr.invariant (P := Attended) (socketNew_attended fd) (fun _ _ _ hs _ hstep => socketStep_attended hs hstep)
  exact hattended.waiting

def partlyWrittenRun : Given SocketBev.step (fun _ _ => True) (buffereventSocketNew 5)
    (fun s => s.evWrite.pending && !s.evRead.pending && s.bufev.output == [3]) where
  events := [.enable ⟨true, true⟩, .setwatermark ⟨true, false⟩ 0 2, .write [1, 2, 3],
    .readcb false [] (.data [7, 8]) [], .writecb false 0 [] (.wrote 2) [.suspend .bw], .setfd 6,
    .unsuspendWrite .bw]
  leads := by decide +kernel

theorem reachedSocket_waiting_partlyWritten : ∃ s,
    Reached SocketBev.step (fun _ _ => True) (buffereventSocketNew 5) s ∧
      (s.evWrite.pending && !s.evRead.pending && s.bufev.output == [3]) ∧ s.Waiting := by
  obtain ⟨s, hr, hp⟩ := partlyWrittenRun.reached
  exact ⟨s, hr, hp, reachedSocket_waiting 5 s hr⟩

end MyLibevent.Proofs
