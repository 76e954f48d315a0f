import MyLibevent.BuffereventPair
import MyLibevent.Lib.Runs

/-!
# Bufferevent pairs: bytes arrive in order, and none is left behind

A transfer empties the output of the sender, and the watermark callback then finds nothing more to hand over,
or it fills the input of the receiver, which is then suspended; so calls never nest deeper than one transfer.
-/

namespace MyLibevent.Proofs
open Runs BuffereventPair List Function SuspendFlag

section Ends

variable {s : BuffereventPair} {e : Bool} {b : Bufferevent}

@[simp] lemma setBufev_self : (s.setBufev e b) e = { s e with bufev := b } :=
  update_self ..

@[simp] lemma setBufev_not : (s.setBufev e b) (!e) = s (!e) :=
  update_of_ne (by simp) ..

@[simp] lemma setBufev_not_self : (s.setBufev (!e) b) e = s e :=
  update_of_ne (by simp) ..

@[simp] lemma freeze_self {v : Bool} : (s.freeze e v) e = { s e with outputFreezeStart := v } := by
  unfold freeze
  cases e <;> rfl

@[simp] lemma freeze_not {v : Bool} : (s.freeze e v) (!e) = { s (!e) with inputFreezeEnd := v } := by
  unfold freeze
  cases e <;> rfl

end Ends

def Full (b : Bufferevent) : Prop := b.wmRead.high ≠ 0 ∧ b.wmRead.high ≤ b.input.length

instance (b : Bufferevent) : Decidable (Full b) := inferInstanceAs (Decidable (_ ∧ _))

/-- The flag that the read watermark calls for. -/
def flagged (b : Bufferevent) : Bufferevent :=
  { b with readSuspended := if Full b then wm.bit else 0 }

/-- Only the watermark suspends, and only while it is reached; its callback is enabled as long as
there is a watermark. -/
structure WmFlags (b : Bufferevent) : Prop where
  full : Full b → b.readSuspended = wm.bit
  notFull : ¬ Full b → b.readSuspended = 0
  write : b.writeSuspended = 0
  callback : b.readWatermarksCb = some true ↔ b.wmRead.high ≠ 0

lemma WmFlags.read {b : Bufferevent} (h : WmFlags b) : b.readSuspended = if Full b then wm.bit else 0 := by
  split_ifs with hfull
  · exact h.full hfull
  · exact h.notFull hfull

lemma wmFlags_flagged {b : Bufferevent} (hw : b.writeSuspended = 0)
    (hcb : b.readWatermarksCb = some true ↔ b.wmRead.high ≠ 0) : WmFlags (flagged b) :=
  ⟨fun h => if_pos h, fun h => if_neg h, hw, hcb⟩

def PairSettled (s : BuffereventPair) (e : Bool) : Prop :=
  (s e).bufev.output = [] ∨ (s e).bufev.enabled.write = false ∨
    (s (!e)).bufev.enabled.read = false ∨ Full (s (!e)).bufev

structure Handed (e : Bool) (s s' : BuffereventPair) : Prop where
  bytes : (s' (!e)).bufev.input ++ (s' e).bufev.output = (s (!e)).bufev.input ++ (s e).bufev.output
  input : (s' e).bufev.input = (s e).bufev.input
  output : (s' (!e)).bufev.output = (s (!e)).bufev.output
  enabled (e' : Bool) : (s' e').bufev.enabled = (s e').bufev.enabled
  wmRead (e' : Bool) : (s' e').bufev.wmRead = (s e').bufev.wmRead
  flags (e' : Bool) : WmFlags (s' e').bufev

variable {s : BuffereventPair}

lemma handed_refl (e : Bool) (h : ∀ e', WmFlags (s e').bufev) : Handed e s s :=
  ⟨rfl, rfl, rfl, fun _ => rfl, fun _ => rfl, h⟩

lemma handed_of_bufev {s' : BuffereventPair} {src : Bool} {k : Nat} (h : ∀ e', WmFlags (s e').bufev)
    (hsrc : (s' src).bufev = { (s src).bufev with output := (s src).bufev.output.drop k })
    (hdst : (s' (!src)).bufev = flagged { (s (!src)).bufev with
      input := (s (!src)).bufev.input ++ (s src).bufev.output.take k }) : Handed src s s' where
  bytes := by
    rw [hsrc, hdst, flagged, append_assoc, take_append_drop]
  input := by rw [hsrc]
  output := by rw [hdst, flagged]
  enabled := Bool.forall_bool' src |>.mpr ⟨by rw [hsrc], by rw [hdst, flagged]⟩
  wmRead := Bool.forall_bool' src |>.mpr ⟨by rw [hsrc], by rw [hdst, flagged]⟩
  flags := by
    refine Bool.forall_bool' src |>.mpr ⟨?_, ?_⟩
    · rw [hsrc]
      exact { h src with }
    · rw [hdst]
      exact wmFlags_flagged (h (!src)).write (h (!src)).callback

section Transfer

variable {s s' : BuffereventPair} {src e : Bool}
  {transfer : Bool → BuffereventPair → Option BuffereventPair} {b : Bufferevent}

lemma bePairOutbufCb_deleted (n : Nat) : bePairOutbufCb transfer e 0 n s = some s :=
  if_neg (by omega)

def talkTo (transfer : Bool → BuffereventPair → Option BuffereventPair) (e : Bool)
    (s : BuffereventPair) : Option BuffereventPair :=
  if s.wantsToTalk (!e) e then transfer (!e) s else some s

lemma bePairEnable_read : bePairEnable transfer e evRead s = talkTo transfer e s := by
  unfold bePairEnable talkTo
  cases s.wantsToTalk (!e) e with
  | false => rfl
  | true =>
    change (transfer (!e) s).bind some = transfer (!e) s
    exact Option.bind_fun_some _

lemma talkTo_quiet (h : s.wantsToTalk (!e) e = false) : talkTo transfer e s = some s := by
  rw [talkTo, h]
  rfl

lemma talkTo_empty (h : (s (!e)).bufev.output = []) : talkTo transfer e s = some s :=
  talkTo_quiet (by simp [wantsToTalk, h])

lemma talkTo_full (h : Full b) :
    talkTo transfer e (s.setBufev e (flagged b)) = some (s.setBufev e (flagged b)) := by
  have hbit : (wm.bit == 0) = false := rfl
  exact talkTo_quiet (by simp [wantsToTalk, flagged, h, hbit])

def WmOnly (b : Bufferevent) : Prop :=
  b.readSuspended = 0 ∨ b.readSuspended = wm.bit

lemma WmFlags.wmOnly (h : WmFlags b) : WmOnly b := by
  rw [WmOnly, h.read]
  split
  · exact .inr rfl
  · exact .inl rfl

lemma WmOnly.or_bit (h : WmOnly b) : b.readSuspended ||| wm.bit = wm.bit := by
  rcases h with h | h <;> rw [h] <;> decide

lemma WmOnly.and_not_bit (h : WmOnly b) : b.readSuspended &&& ~~~wm.bit = 0 := by
  rcases h with h | h <;> rw [h] <;> decide

def setReadFlag (e : Bool) (flag : UInt16) (s : BuffereventPair) : BuffereventPair :=
  s.setBufev e { (s e).bufev with readSuspended := flag }

lemma suspendRead_wm (h : WmOnly (s e).bufev) (hfull : Full (s e).bufev) :
    (ops transfer e).suspendRead .wm s = talkTo transfer e (s.setBufev e (flagged (s e).bufev)) := by
  have hset : (ops transfer e).suspendRead .wm s =
      some (setReadFlag e ((s e).bufev.readSuspended ||| wm.bit) s) := by
    unfold BeOps.suspendRead
    split <;> rfl
  rw [hset, talkTo_full hfull, h.or_bit, setReadFlag, flagged, if_pos hfull]

lemma unsuspendRead_wm (h : WmOnly (s e).bufev) (hroom : ¬ Full (s e).bufev) :
    (ops transfer e).unsuspendRead .wm s = talkTo transfer e (s.setBufev e (flagged (s e).bufev)) := by
  have hset : s.setBufev e (flagged (s e).bufev) = setReadFlag e 0 s := by
    rw [setReadFlag, flagged, if_neg hroom]
  unfold BeOps.unsuspendRead
  dsimp only [ops]
  rw [h.and_not_bit, bePairEnable_read, hset]
  by_cases henabled : (s e).bufev.enabled.read
  · rw [if_pos ⟨rfl, henabled⟩]
    rfl
  · rw [if_neg (fun hc => henabled hc.2), talkTo_quiet (by simp [wantsToTalk, setReadFlag, henabled])]
    rfl

lemma inbufWmCb_eq (hhigh : (s e).bufev.wmRead.high ≠ 0) (h : WmOnly (s e).bufev) :
    (ops transfer e).inbufWmCb s = talkTo transfer e (s.setBufev e (flagged (s e).bufev)) := by
  unfold BeOps.inbufWmCb
  change (if (s e).bufev.wmRead.high ≤ (s e).bufev.input.length then _ else _) = _
  split_ifs with hlen
  · exact suspendRead_wm h ⟨hhigh, hlen⟩
  · exact unsuspendRead_wm h fun hf => hlen hf.2

lemma runInputCallbacks_eq (hcb : (s e).bufev.readWatermarksCb = some true ↔
    (s e).bufev.wmRead.high ≠ 0) (h : WmOnly (s e).bufev) :
    (ops transfer e).runInputCallbacks s = if (s e).bufev.wmRead.high = 0 then some s
      else talkTo transfer e (s.setBufev e (flagged (s e).bufev)) := by
  unfold BeOps.runInputCallbacks
  change (if (s e).bufev.readWatermarksCb = some true then _ else _) = _
  split_ifs with hset hhigh hhigh
  · exact absurd hhigh (hcb.mp hset)
  · exact inbufWmCb_eq hhigh h
  · rfl
  · exact absurd (hcb.mpr hhigh) hset

lemma setBufev_eta : s.setBufev e (s e).bufev = s :=
  update_eq_self e s

lemma setBufev_setBufev {b' : Bufferevent} : (s.setBufev e b).setBufev e b' = s.setBufev e b' := by
  unfold setBufev
  rw [update_idem, update_self]

section Moved

variable (src) (n : Nat) (s)

lemma moveBytes_self : ((s.moveBytes src n) src).bufev =
    { (s src).bufev with output := (s src).bufev.output.drop n } := by
  simp [moveBytes]

lemma moveBytes_not : ((s.moveBytes src n) (!src)).bufev =
    { (s (!src)).bufev with
      input := (s (!src)).bufev.input ++ (s src).bufev.output.take n } := by
  simp [moveBytes]

end Moved

/-- The callback of the receiver after bytes were moved that emptied the output or filled the input:
it sets the flag and hands over no more. -/
lemma runInputCallbacks_moved {n : Nat} (h : ∀ e', WmFlags (s e').bufev)
    (hdone : (s src).bufev.output.drop n = [] ∨ Full ((s.moveBytes src n) (!src)).bufev) :
    ∃ s', (ops transfer (!src)).runInputCallbacks (s.moveBytes src n) = some s' ∧
      Handed src s s' ∧ PairSettled s' src := by
  have hself := moveBytes_self s src n
  have hnot := moveBytes_not s src n
  generalize s.moveBytes src n = m at hself hnot hdone ⊢
  have hcb : (m (!src)).bufev.readWatermarksCb = some true ↔ (m (!src)).bufev.wmRead.high ≠ 0 := by
    rw [hnot]
    exact (h (!src)).callback
  have honly : WmOnly (m (!src)).bufev := by
    rw [hnot]
    exact (h (!src)).wmOnly
  have hflagged : (ops transfer (!src)).runInputCallbacks m =
      some (m.setBufev (!src) (flagged (m (!src)).bufev)) := by
    rw [runInputCallbacks_eq hcb honly]
    split_ifs with hhigh
    · -- without a watermark the flag was not set before
      have hnone {b : Bufferevent} (hb : b.wmRead.high = 0) : ¬ Full b := fun hf => hf.1 hb
      have hzero : (m (!src)).bufev.readSuspended = 0 := by
        rw [hnot] at hhigh ⊢
        exact (h (!src)).read.trans (if_neg (hnone (b := (s (!src)).bufev) hhigh))
      rw [flagged, if_neg (hnone hhigh), ← hzero, setBufev_eta]
    · rcases hdone with hempty | hfull
      · exact talkTo_empty (by simp [hself, hempty])
      · exact talkTo_full hfull
  refine ⟨_, hflagged, handed_of_bufev (k := n) h ?_ ?_, ?_⟩
  · simp [hself]
  · simp [hnot]
  · rcases hdone with hempty | hfull
    · left
      simp [hself, hempty]
    · right
      right
      right
      rw [setBufev_self]
      exact hfull

lemma addBuffer_spec (h : ∀ e', WmFlags (s e').bufev) (hin : (s (!src)).inputFreezeEnd = false)
    (hout : (s src).outputFreezeStart = false) :
    ∃ s', addBuffer transfer src s = some s' ∧ Handed src s s' ∧ PairSettled s' src := by
  unfold addBuffer
  by_cases hempty : (s src).bufev.output.length = 0
  · rw [if_pos hempty]
    exact ⟨s, rfl, handed_refl src h, .inl (length_eq_zero_iff.mp hempty)⟩
  · rw [if_neg hempty, hin, hout, Bool.or_self, if_neg Bool.false_ne_true, bePairOutbufCb_deleted, Option.bind_some]
    exact runInputCallbacks_moved h (.inl (drop_length ..))

lemma removeBuffer_spec (h : ∀ e', WmFlags (s e').bufev) (hin : (s (!src)).inputFreezeEnd = false)
    (hout : (s src).outputFreezeStart = false)
    (hroom : (s (!src)).bufev.input.length < (s (!src)).bufev.wmRead.high) :
    ∃ s', removeBuffer transfer src
        ((s (!src)).bufev.wmRead.high - (s (!src)).bufev.input.length) s = some s' ∧
      Handed src s s' ∧ PairSettled s' src := by
  unfold removeBuffer
  rw [if_neg (by omega), hin, hout, Bool.or_self, if_neg Bool.false_ne_true]
  by_cases hall : (s src).bufev.output.length ≤ (s (!src)).bufev.wmRead.high - (s (!src)).bufev.input.length
  · rw [if_pos hall]
    exact addBuffer_spec h hin hout
  · have hfull : Full ((s.moveBytes src
        ((s (!src)).bufev.wmRead.high - (s (!src)).bufev.input.length)) (!src)).bufev := by
      rw [moveBytes_not]
      constructor
      · change (s (!src)).bufev.wmRead.high ≠ 0
        omega
      · change (s (!src)).bufev.wmRead.high ≤ _
        rw [length_append, length_take]
        omega
    obtain ⟨s', hs', hhanded, hsettled⟩ :=
      @runInputCallbacks_moved s src transfer _ h (.inr hfull)
    rw [if_neg hall, hs', Option.bind_some, bePairOutbufCb_deleted]
    exact ⟨s', rfl, hhanded, hsettled⟩

lemma freeze_bufev (v : Bool) (e' : Bool) : ((s.freeze src v) e').bufev = (s e').bufev := by
  unfold freeze
  cases src <;> cases e' <;> rfl

lemma Handed.congr {s1 s2 : BuffereventPair} (h : Handed src s1 s2)
    (h1 : ∀ e', (s e').bufev = (s1 e').bufev) (h2 : ∀ e', (s' e').bufev = (s2 e').bufev) :
    Handed src s s' := by
  obtain ⟨hbytes, hinput, houtput, henabled, hwm, hflags⟩ := h
  constructor
  · simpa [h1, h2] using hbytes
  · simpa [h1, h2] using hinput
  · simpa [h1, h2] using houtput
  · simpa [h1, h2] using henabled
  · simpa [h1, h2] using hwm
  · simpa [h2] using hflags

lemma PairSettled.congr (h : PairSettled s e) (h' : ∀ e', (s' e').bufev = (s e').bufev) : PairSettled s' e := by
  unfold PairSettled
  rw [h', h']
  exact h

lemma handOver_spec (h : ∀ e', WmFlags (s e').bufev) (hin : (s (!src)).inputFreezeEnd = false)
    (hout : (s src).outputFreezeStart = false) :
    ∃ s', (if (s (!src)).bufev.wmRead.high ≠ 0 then
        if (s (!src)).bufev.input.length < (s (!src)).bufev.wmRead.high then
          removeBuffer transfer src ((s (!src)).bufev.wmRead.high - (s (!src)).bufev.input.length) s
        else if (!false) then some s
        else addBuffer transfer src s
      else addBuffer transfer src s) = some s' ∧ Handed src s s' ∧ PairSettled s' src := by
  by_cases hhigh : (s (!src)).bufev.wmRead.high ≠ 0
  · rw [if_pos hhigh]
    by_cases hroom : (s (!src)).bufev.input.length < (s (!src)).bufev.wmRead.high
    · rw [if_pos hroom]
      exact removeBuffer_spec h hin hout hroom
    · rw [if_neg hroom, if_pos Bool.not_false]
      exact ⟨s, rfl, handed_refl src h, .inr (.inr (.inr ⟨hhigh, by omega⟩))⟩
  · rw [if_neg hhigh]
    exact addBuffer_spec h hin hout

lemma bePairTransfer_spec (fuel : Nat) (src : Bool) (h : ∀ e', WmFlags (s e').bufev) :
    ∃ s', bePairTransfer (fuel + 1) false src s = some s' ∧ Handed src s s' ∧ PairSettled s' src := by
  have hflags : ∀ e', WmFlags ((s.freeze src false) e').bufev := by
    intro e'
    rw [freeze_bufev]
    exact h e'
  obtain ⟨s1, hs1, hhanded, hsettled⟩ :=
    @handOver_spec (s.freeze src false) src (bePairTransfer fuel false) hflags (by simp) (by simp)
  refine ⟨s1.freeze src true, ?_, ?_, ?_⟩
  · rw [bePairTransfer, hs1]
    rfl
  · exact hhanded.congr (fun e' => (freeze_bufev false e').symm) (freeze_bufev true)
  · exact hsettled.congr (freeze_bufev true)

end Transfer

section Operations

variable {s s' : BuffereventPair} {e : Bool}

def underway (s : BuffereventPair) (e : Bool) : Bytes :=
  (s (!e)).bufev.input ++ (s e).bufev.output

lemma Handed.underway_eq (h : Handed e s s') (e' : Bool) : underway s' e' = underway s e' := by
  unfold underway
  by_cases he : e' = e
  · rw [he]
    exact h.bytes
  · rw [Bool.eq_not.mpr he, Bool.not_not, h.input, h.output]

lemma Handed.settled_not (h : Handed e s s') (hs : PairSettled s (!e)) : PairSettled s' (!e) := by
  unfold PairSettled Full at hs ⊢
  rw [Bool.not_not] at hs ⊢
  rw [h.output, h.enabled, h.enabled, h.wmRead, h.input]
  exact hs

lemma settled_of_quiet (h : WmFlags (s (!e)).bufev) (hquiet : s.wantsToTalk e (!e) = false) : PairSettled s e := by
  unfold wantsToTalk at hquiet
  by_contra hnot
  unfold PairSettled at hnot
  simp only [not_or, Bool.not_eq_false] at hnot
  obtain ⟨hout, hwrite, hread, hfull⟩ := hnot
  rw [hwrite, hread, h.read, if_neg hfull] at hquiet
  simp [hout] at hquiet

variable (fuel : Nat)

lemma talk_spec (cond : Bool) (h : ∀ e', WmFlags (s e').bufev) :
    ∃ s', (if cond && s.wantsToTalk e (!e) then bePairTransfer (fuel + 1) false e s else some s) =
        some s' ∧ Handed e s s' ∧ (cond ∨ PairSettled s e → PairSettled s' e) := by
  cases hcond : cond && s.wantsToTalk e (!e) with
  | true =>
    obtain ⟨s', hs', hhanded, hsettled⟩ := bePairTransfer_spec fuel e h
    exact ⟨s', hs', hhanded, fun _ => hsettled⟩
  | false =>
    refine ⟨s, rfl, handed_refl e h, ?_⟩
    rintro (rfl | hsettled)
    · rw [Bool.true_and] at hcond
      exact settled_of_quiet (h (!e)) hcond
    · exact hsettled

structure AtRest (s : BuffereventPair) : Prop where
  flags (e : Bool) : WmFlags (s e).bufev
  settled (e : Bool) : PairSettled s e

def Gives (result : Option BuffereventPair) (bytes : Bool → Bytes) : Prop :=
  ∃ s', result = some s' ∧ AtRest s' ∧ ∀ e, underway s' e = bytes e

variable {b : Bufferevent}

lemma setBufev_flags (h : ∀ e', WmFlags (s e').bufev) (hb : WmFlags b) :
    ∀ e', WmFlags ((s.setBufev e b) e').bufev := by
  refine Bool.forall_bool' e |>.mpr ⟨?_, ?_⟩
  · rw [setBufev_self]
    exact hb
  · rw [setBufev_not]
    exact h (!e)

lemma underway_setBufev {b' : Bufferevent} (hin : b.input = b'.input)
    (hout : b.output = b'.output) : underway (s.setBufev e b) = underway (s.setBufev e b') := by
  funext e'
  revert e'
  refine Bool.forall_bool' e |>.mpr ⟨?_, ?_⟩
  · simp [underway, hout]
  · simp [underway, hin]

lemma settled_setBufev : PairSettled (s.setBufev e b) e ↔ b.output = [] ∨ b.enabled.write = false ∨
    (s (!e)).bufev.enabled.read = false ∨ Full (s (!e)).bufev := by
  rw [PairSettled, setBufev_self, setBufev_not]

lemma settled_setBufev_not : PairSettled (s.setBufev e b) (!e) ↔ (s (!e)).bufev.output = [] ∨
    (s (!e)).bufev.enabled.write = false ∨ b.enabled.read = false ∨ Full b := by
  rw [PairSettled, Bool.not_not, setBufev_self, setBufev_not]

lemma AtRest.settled_not (h : AtRest s) (e : Bool) : (s (!e)).bufev.output = [] ∨
    (s (!e)).bufev.enabled.write = false ∨ (s e).bufev.enabled.read = false ∨ Full (s e).bufev := by
  have hs := h.settled (!e)
  rwa [PairSettled, Bool.not_not] at hs

/-- The end `e` gets its flag and takes what the other end has for it. -/
lemma talkTo_gives (h : AtRest s) (hw : b.writeSuspended = 0)
    (hcb : b.readWatermarksCb = some true ↔ b.wmRead.high ≠ 0)
    (hout : b.output = (s e).bufev.output) (henabled : b.enabled = (s e).bufev.enabled) :
    Gives (talkTo (bePairTransfer (fuel + 1) false) e (s.setBufev e (flagged b))) (underway (s.setBufev e b)) := by
  have hflagged : WmFlags (flagged b) := wmFlags_flagged hw hcb
  have hback : PairSettled (s.setBufev e (flagged b)) (!!e) := by
    rw [Bool.not_not, settled_setBufev, flagged, hout, henabled]
    exact h.settled e
  obtain ⟨s', hs', hhanded, hsettled⟩ := talk_spec (e := !e) fuel true (setBufev_flags h.flags hflagged)
  rw [Bool.true_and, Bool.not_not] at hs'
  refine ⟨s', hs', ⟨hhanded.flags, ?_⟩, ?_⟩
  · exact Bool.forall_bool' (!e) |>.mpr ⟨hsettled (.inl rfl), hhanded.settled_not hback⟩
  · intro e'
    rw [hhanded.underway_eq, @underway_setBufev s e (flagged b) b rfl rfl]

lemma write_gives (h : AtRest s) (e : Bool) (data : Bytes) :
    Gives (buffereventWrite (fuel + 1) e data s)
      (underway (s.setBufev e
        { (s e).bufev with output := (s e).bufev.output ++ data })) := by
  unfold buffereventWrite bePairOutbufCb
  have hb : WmFlags { (s e).bufev with output := (s e).bufev.output ++ data } := { h.flags e with }
  obtain ⟨s', hs', hhanded, hsettled⟩ :=
    talk_spec (e := e) fuel (decide (data.length > 0)) (setBufev_flags h.flags hb)
  simp only [Bool.and_eq_true, decide_eq_true_iff] at hs'
  refine ⟨s', hs', ⟨hhanded.flags, ?_⟩, hhanded.underway_eq⟩
  refine Bool.forall_bool' e |>.mpr ⟨hsettled ?_, hhanded.settled_not ?_⟩
  · by_cases hlen : data.length > 0
    · exact .inl (decide_eq_true hlen)
    · right
      have hnil : data = [] := eq_nil_of_length_eq_zero (by omega)
      rw [settled_setBufev, hnil, append_nil]
      exact h.settled e
  · rw [settled_setBufev_not]
    exact h.settled_not e

lemma read_gives (h : AtRest s) (e : Bool) (size : Nat) :
    Gives (buffereventRead (fuel + 1) e size s)
      (underway (s.setBufev e
        { (s e).bufev with input := (s e).bufev.input.drop size })) := by
  have hflags := h.flags e
  unfold buffereventRead
  by_cases hlen : ((s e).bufev.input.drop size).length = (s e).bufev.input.length
  · rw [if_pos hlen, (drop_sublist ..).eq_of_length hlen]
    change Gives (some s) (underway (s.setBufev e (s e).bufev))
    rw [setBufev_eta]
    exact ⟨s, rfl, h, fun _ => rfl⟩
  rw [if_neg hlen, runInputCallbacks_eq (by rw [setBufev_self]; exact hflags.callback)
    (by rw [setBufev_self]; exact hflags.wmOnly), setBufev_setBufev, setBufev_self]
  dsimp only
  split_ifs with hhigh
  · -- without a watermark the receiver was not suspended, and nothing was left before
    have hnone {b : Bufferevent} (hb : b.wmRead.high = 0) : ¬ Full b := fun hf => hf.1 hb
    refine ⟨_, rfl, ⟨setBufev_flags h.flags ⟨?_, ?_, hflags.write, hflags.callback⟩, ?_⟩, fun _ => rfl⟩
    · exact fun hf => absurd hf (hnone hhigh)
    · exact fun _ => hflags.notFull (hnone hhigh)
    · refine Bool.forall_bool' e |>.mpr ⟨settled_setBufev.mpr (h.settled e), settled_setBufev_not.mpr ?_⟩
      rcases h.settled_not e with hs | hs | hs | hs
      · exact .inl hs
      · exact .inr (.inl hs)
      · exact .inr (.inr (.inl hs))
      · exact absurd hs (hnone hhigh)
  · exact talkTo_gives fuel h hflags.write hflags.callback rfl rfl

lemma underway_setBufev_self (hin : b.input = (s e).bufev.input)
    (hout : b.output = (s e).bufev.output) : underway (s.setBufev e b) = underway s := by
  rw [underway_setBufev hin hout, setBufev_eta]

lemma disable_gives (h : AtRest s) (e : Bool) (event : IoEvents) :
    Gives ((ops (bePairTransfer fuel false) e).buffereventDisable event s) (underway s) := by
  refine ⟨s.setBufev e _, rfl, ⟨setBufev_flags h.flags { h.flags e with }, ?_⟩, ?_⟩
  · -- fewer events are enabled, so what was settled stays settled
    refine Bool.forall_bool' e |>.mpr ⟨settled_setBufev.mpr ?_, settled_setBufev_not.mpr ?_⟩
    · rcases h.settled e with hs | hs | hs
      · exact .inl hs
      · exact .inr (.inl (by simp [ops, hs]))
      · exact .inr (.inr hs)
    · rcases h.settled_not e with hs | hs | hs | hs
      · exact .inl hs
      · exact .inr (.inl hs)
      · exact .inr (.inr (.inl (by simp [ops, hs])))
      · exact .inr (.inr (.inr hs))
  · intro e'
    rw [underway_setBufev_self]
    · rfl
    · rfl

lemma enable_gives (h : AtRest s) (e : Bool) (event : IoEvents) :
    Gives ((ops (bePairTransfer (fuel + 1) false) e).buffereventEnable event s) (underway s) := by
  generalize hb : { (s e).bufev with
    enabled := ⟨(s e).bufev.enabled.read || event.read, (s e).bufev.enabled.write || event.write⟩ } = b
  generalize himpl : (event.read && (s e).bufev.readSuspended == 0) = implRead
  have heq : (ops (bePairTransfer (fuel + 1) false) e).buffereventEnable event s =
      bePairEnable (bePairTransfer (fuel + 1) false) e ⟨implRead, event.write⟩ (s.setBufev e b) := by
    have hw : ((s e).bufev.writeSuspended == 0) := beq_iff_eq.mpr (h.flags e).write
    unfold BeOps.buffereventEnable
    dsimp only [ops]
    rw [hw, Bool.and_true, himpl, ← hb]
    cases implRead <;> cases event.write <;> rfl
  have hflags : WmFlags b := by
    rw [← hb]
    exact { h.flags e with }
  rw [heq, ← @underway_setBufev_self s e b (by rw [← hb]) (by rw [← hb])]
  obtain ⟨s1, hs1, hin, hinSettled⟩ :=
    talk_spec (e := !e) fuel implRead (setBufev_flags h.flags hflags)
  obtain ⟨s2, hs2, hout, houtSettled⟩ := talk_spec (e := e) fuel event.write hin.flags
  have hrun : bePairEnable (bePairTransfer (fuel + 1) false) e ⟨implRead, event.write⟩
      (s.setBufev e b) = some s2 := by
    rw [Bool.not_not] at hs1
    unfold bePairEnable
    rw [hs1]
    exact hs2
  have hreads : PairSettled s1 (!e) := by
    apply hinSettled
    rw [settled_setBufev_not, ← hb]
    by_cases hfull : Full (s e).bufev
    · exact .inr (.inr (.inr (.inr hfull)))
    · rw [(h.flags e).read, if_neg hfull] at himpl
      cases hread : event.read with
      | true =>
        left
        rw [← himpl, hread]
        rfl
      | false =>
        right
        rw [Bool.or_false]
        exact h.settled_not e
  have hwrites : event.write ∨ PairSettled s1 e := by
    cases hwrite : event.write with
    | true => exact .inl rfl
    | false =>
      have hback := hin.settled_not
      rw [Bool.not_not] at hback
      right
      apply hback
      rw [settled_setBufev, ← hb, hwrite, Bool.or_false]
      exact h.settled e
  refine ⟨s2, hrun, ⟨hout.flags, ?_⟩, ?_⟩
  · exact Bool.forall_bool' e |>.mpr ⟨houtSettled hwrites, hout.settled_not hreads⟩
  · intro e'
    rw [hout.underway_eq, hin.underway_eq]

section Watermark

variable (fuel : Nat) (h : AtRest s) (e : Bool)

include h

lemma setReadWatermark_gives (low high : Nat) :
    Gives ((ops (bePairTransfer (fuel + 1) false) e).setReadWatermark low high s) (underway s) := by
  have hflags := h.flags e
  have honly {b : Bufferevent} (hb : b.readSuspended = (s e).bufev.readSuspended) :
      WmOnly ((s.setBufev e b) e).bufev := by
    rw [setBufev_self, WmOnly, hb]
    exact hflags.wmOnly
  by_cases hhigh : high = 0
  · have heq : (ops (bePairTransfer (fuel + 1) false) e).setReadWatermark low high s =
        (ops (bePairTransfer (fuel + 1) false) e).unsuspendRead .wm (s.setBufev e { (s e).bufev with
          wmRead := ⟨low, high⟩
          readWatermarksCb := (s e).bufev.readWatermarksCb.map fun _ => false }) :=
      if_neg (not_not.mpr hhigh)
    rw [heq, unsuspendRead_wm, setBufev_setBufev, setBufev_self]
    · rw [← underway_setBufev_self (s := s) (e := e)]
      · exact talkTo_gives fuel h hflags.write (by simp [hhigh]) rfl rfl
      · rfl
      · rfl
    · exact honly rfl
    · rw [setBufev_self]
      exact fun hf => hf.1 hhigh
  · have heq : (ops (bePairTransfer (fuel + 1) false) e).setReadWatermark low high s =
        (ops (bePairTransfer (fuel + 1) false) e).inbufWmCb (s.setBufev e { (s e).bufev with
          wmRead := ⟨low, high⟩
          readWatermarksCb := some true }) := by
      rw [BeOps.setReadWatermark, if_pos hhigh, BeOps.inbufWmCb]
      simp only [ops, setBufev_self]
      rfl
    rw [heq, inbufWmCb_eq, setBufev_setBufev, setBufev_self]
    · rw [← underway_setBufev_self (s := s) (e := e)]
      · exact talkTo_gives fuel h hflags.write (by simp [hhigh]) rfl rfl
      · rfl
      · rfl
    · rw [setBufev_self]
      exact hhigh
    · exact honly rfl

lemma atRest_writeMark (mark : EventWatermark) : AtRest (s.setBufev e { (s e).bufev with wmWrite := mark }) := by
  refine ⟨setBufev_flags h.flags { h.flags e with }, ?_⟩
  exact Bool.forall_bool' e |>.mpr ⟨settled_setBufev.mpr (h.settled e), settled_setBufev_not.mpr (h.settled_not e)⟩

lemma setwatermark_gives (events : IoEvents) (low high : Nat) :
    Gives ((ops (bePairTransfer (fuel + 1) false) e).buffereventSetwatermark events low high s) (underway s) := by
  generalize hs1 : (if events.write then
    s.setBufev e { (s e).bufev with wmWrite := ⟨low, high⟩ } else s) = s1
  have hrest : AtRest s1 ∧ underway s1 = underway s := by
    rw [← hs1]
    split
    · exact ⟨atRest_writeMark h e _, underway_setBufev_self rfl rfl⟩
    · exact ⟨h, rfl⟩
  obtain ⟨hrest, hunder⟩ := hrest
  have heq : (ops (bePairTransfer (fuel + 1) false) e).buffereventSetwatermark events low high s =
      if events.read then
        (ops (bePairTransfer (fuel + 1) false) e).setReadWatermark low high s1
      else some s1 := by
    rw [← hs1]
    rfl
  rw [heq, ← hunder]
  split
  · exact setReadWatermark_gives fuel hrest e low high
  · exact ⟨s1, rfl, hrest, fun _ => rfl⟩

end Watermark

end Operations

section PairRuns

variable {r r' : PairRun} {op : PairOp} (fuel : Nat)

structure PairInv (r : PairRun) : Prop where
  rest : AtRest r.pair
  conserved (e : Bool) : r.Conserved e

lemma conserved_iff (e : Bool) : r.Conserved e ↔ r.received (!e) ++ underway r.pair e = r.written e := by
  unfold PairRun.Conserved underway
  rw [append_assoc]

def underwayAfter (s : BuffereventPair) : PairOp → Bool → Bytes
  | .write e data =>
    underway (s.setBufev e { (s e).bufev with output := (s e).bufev.output ++ data })
  | .read e size =>
    underway (s.setBufev e { (s e).bufev with input := (s e).bufev.input.drop size })
  | _ => underway s

lemma next_gives {s : BuffereventPair} (h : AtRest s) (op : PairOp) :
    Gives (PairRun.next (fuel + 1) s op) (underwayAfter s op) := by
  cases op with
  | write e data => exact write_gives fuel h e data
  | read e size => exact read_gives fuel h e size
  | enable e event => exact enable_gives fuel h e event
  | disable e event => exact disable_gives (fuel + 1) h e event
  | setwatermark e events low high => exact setwatermark_gives fuel h e events low high

lemma step_pairInv (h : PairInv r) (hs : r.step (fuel + 1) op = some r') : PairInv r' := by
  obtain ⟨s', hs', hrest, hunder⟩ := next_gives fuel h.rest op
  unfold PairRun.step at hs
  rw [hs'] at hs
  cases hs
  refine ⟨hrest, ?_⟩
  have hbefore (e : Bool) := conserved_iff e |>.mp (h.conserved e)
  cases op with
  | write e data =>
    refine Bool.forall_bool' e |>.mpr ⟨?_, ?_⟩ <;> rw [conserved_iff] <;> dsimp only <;> rw [hunder]
    · rw [update_self, ← hbefore e]
      simp [underwayAfter, underway]
    · rw [update_of_ne (by simp), ← hbefore (!e)]
      simp [underwayAfter, underway]
  | read e size =>
    refine Bool.forall_bool' e |>.mpr ⟨?_, ?_⟩ <;> rw [conserved_iff] <;> dsimp only <;> rw [hunder]
    · rw [update_of_ne (by simp), ← hbefore e]
      simp [underwayAfter, underway]
    · rw [Bool.not_not, update_self, ← hbefore (!e)]
      simp only [underwayAfter, underway, Bool.not_not, setBufev_self, setBufev_not]
      rw [append_assoc, ← append_assoc (List.take ..), take_append_drop]
  | enable | disable | setwatermark =>
    intro e
    rw [conserved_iff, ← hbefore e, hunder]
    rfl

lemma start_pairInv : PairInv PairRun.start where
  rest := by
    refine ⟨fun e => ⟨fun hfull => absurd rfl hfull.1, fun _ => rfl, rfl, ?_⟩, fun e => .inl rfl⟩
    decide +revert
  conserved _ := rfl

/-- Along every run of a pair no byte is lost, repeated or overtaken, nothing that could be handed
over is left, and every operation completes. -/
theorem reachedPair_conserved_settled (r : PairRun)
    (hr : Reached (PairRun.step (fuel + 1)) (fun _ _ => True) PairRun.start r) :
    (∀ e, r.Conserved e ∧ r.Settled e) ∧ ∀ op, (r.step (fuel + 1) op).isSome := by
  have hinv : PairInv r := by
    refine hr.invariant start_pairInv ?_
    intro r op r' h _ hs
    exact step_pairInv fuel h hs
  refine ⟨fun e => ⟨hinv.conserved e, hinv.rest.settled e⟩, ?_⟩
  intro op
  obtain ⟨s', hs', -⟩ := next_gives fuel hinv.rest op
  unfold PairRun.step
  rw [hs']
  rfl

def watermarkRun : Given (PairRun.step 1) (fun _ _ => True) PairRun.start
    (fun r => (r.pair true).bufev.input == [3, 4] && (r.pair false).bufev.output == [5] &&
      r.received true == [1, 2]) where
  events := [.setwatermark true ⟨true, false⟩ 0 2, .enable true ⟨true, false⟩,
    .write false [1, 2, 3, 4, 5], .read true 2]
  leads := by decide +kernel

theorem reachedPair_conserved_settled_watermark : ∃ r,
    Reached (PairRun.step 1) (fun _ _ => True) PairRun.start r ∧
      ((r.pair true).bufev.input == [3, 4] && (r.pair false).bufev.output == [5] && r.received true == [1, 2]) ∧
      (∀ e, r.Conserved e ∧ r.Settled e) ∧ ∀ op, (r.step 1 op).isSome := by
  obtain ⟨r, hr, hp⟩ := watermarkRun.reached
  exact ⟨r, hr, hp, reachedPair_conserved_settled 0 r hr⟩

end PairRuns

end MyLibevent.Proofs
