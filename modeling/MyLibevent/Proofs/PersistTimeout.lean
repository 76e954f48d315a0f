import MyLibevent.Lib.Runs
import MyLibevent.Proofs.EventFrame

/-!
# Timeouts of an event that was added again without one

`event_del` leaves `ev_io_timeout` as it is, so that an event that is added again without a timeout gets the
old one back as soon as its callback runs.
-/

namespace MyLibevent.Proofs

open EventBase

section Spared

variable {ε β : Type*} {b b' b'' : EventBase ε β} {x : EventRef ε} {e : ε} {armed : Prop}

structure Spared (e : ε) (armed : Prop) (b b' : EventBase ε β) : Prop where
  flag : (b'.ev (.event e)).flags .timeout → (b.ev (.event e)).flags .timeout ∨ armed
  finalizing : (b'.ev (.event e)).finalizing = (b.ev (.event e)).finalizing

lemma Spared.refl : Spared e armed b b := ⟨.inl, rfl⟩

lemma Spared.trans (h : Spared e armed b b') (h' : Spared e armed b' b'') : Spared e armed b b'' :=
  ⟨fun hon => (h'.flag hon).elim h.flag .inr, h'.finalizing.trans h.finalizing⟩

lemma Touched.spared (h : Touched x b b') : Spared e armed b b' :=
  ⟨fun hon => .inl (h.timeout_flag hon), h.field Event.finalizing h.finalizing _⟩

lemma spared_of_ev_eq (hev : b'.ev = b.ev) : Spared e armed b b' := by
  constructor
  · rw [hev]
    exact .inl
  · rw [hev]

variable [DecidableEq ε]

lemma spared_modifyEv {f : Event → Event} (hflags : ∀ ev, (f ev).flags = ev.flags)
    (hfinalizing : ∀ ev, (f ev).finalizing = ev.finalizing) : Spared e armed b (b.modifyEv x f) := by
  constructor
  · intro hon
    rw [field_modifyEv Event.flags hflags] at hon
    exact .inl hon
  · exact field_modifyEv Event.finalizing hfinalizing

lemma eventQueueInsertTimeout_spared (grow : Bool) (hoff : (b.ev x).flags .timeout = false)
    (hx : x = .event e → armed) : Spared e armed b (b.eventQueueInsertTimeout grow x) := by
  obtain ⟨heap, queues, abort, heq⟩ := eventQueueInsertTimeout_changes grow hoff
  have hev : (b.eventQueueInsertTimeout grow x).ev = ((b.incrEventCount x).setFlag x .timeout true).ev := by
    rw [heq]
  constructor
  · rw [hev, flags_setFlag]
    split_ifs with hset
    · exact fun _ => .inr (hx hset.1.symm)
    · exact .inl
  · rw [hev]
    exact (sameSetup_of_setFlag (b := b.incrEventCount x) rfl).finalizing _

/-- Moves that give `e` a timeout only if `armed` holds. -/
def Moving.sparing (e : ε) (armed : Prop) : Moving ε :=
  ⟨fun _ => True, fun x => x = .event e → armed, fun _ => True⟩

omit [DecidableEq ε] in
lemma sparing_internal (i : Nat) : (Moving.sparing e armed).arms (.timeoutEvent i) := by
  intro h
  cases h

lemma Moves.spared (hm : Moves (.sparing e armed) b b') : Spared e armed b b' := by
  refine hm.keeps Spared.refl fun c c' h hmove => h.trans ?_
  rcases hmove.touches with ⟨x, -, ht⟩ | ⟨x, hx, ⟨tv, rfl⟩ | ⟨t, rfl⟩ | ⟨grow, hoff, rfl⟩⟩
  · exact ht.spared
  · exact spared_modifyEv (fun _ => rfl) fun _ => rfl
  · exact spared_modifyEv (fun _ => rfl) fun _ => rfl
  · exact eventQueueInsertTimeout_spared grow hoff hx

section Functions

variable (be : EventBackend β)

lemma eventQueueMakeLaterEventsActive_spared : Spared e armed b b.eventQueueMakeLaterEventsActive := by
  unfold eventQueueMakeLaterEventsActive
  generalize b.activeLaterQueue = l
  induction l generalizing b with
  | nil => exact Spared.refl
  | cons x l ih => exact makeLaterEventActive_touched.spared.trans ih

lemma eventRemoveTimerNolock_spared : Spared e armed b (b.eventRemoveTimerNolock x) := by
  unfold eventRemoveTimerNolock
  split_ifs with hon
  · exact (eventQueueRemoveTimeout_touched hon).spared.trans (spared_modifyEv (fun _ => rfl) fun _ => rfl)
  · exact Spared.refl

lemma eventBaseInitCommonTimeout_spared (duration : Timeval) :
    Spared e armed b (b.eventBaseInitCommonTimeout duration).2 := by
  rcases eventBaseInitCommonTimeout_cases b duration with heq | ⟨-, d, -, heq⟩
  · rw [heq]
    exact Spared.refl
  · have hev : (b.eventBaseInitCommonTimeout duration).2.ev (.event e) = b.ev (.event e) := by
      rw [heq]
      rw [ev_modifyEv, if_neg nofun]
    constructor
    · rw [hev]
      exact .inl
    · rw [hev]

lemma eventProcessActiveTurn_spared (alloc : EventAlloc) (now : Timeval) (i : Nat)
    (he : (b.activequeues i).head? = some (.event e) ∧ (b.ev (.event e)).ioTimeout ≠ ⟨0, 0⟩ → armed) :
    Spared e armed b (b.eventProcessActiveTurn be alloc now i) := by
  unfold eventProcessActiveTurn
  split
  · exact Spared.refl
  rename_i x hx
  extract_lets b1 b2
  have ht : Touched x b b1 := by
    unfold b1
    split
    · exact Moves.touched (eventQueueRemoveActive_moves rfl)
    · exact eventDelNolock_touched be
  have h2 : Spared e armed b b2 := ht.spared.trans (spared_of_ev_eq rfl)
  split
  · refine h2.trans (Moves.spared
      (eventPersistClosure_moves (fun _ => trivial) sparing_internal ?_ trivial trivial now))
    rintro hio rfl
    have hsame : (b2.ev (.event e)).ioTimeout = (b.ev (.event e)).ioTimeout := ht.ioTimeout
    rw [hsame] at hio
    exact he ⟨hx, hio⟩
  · exact h2

end Functions

end Spared

section History

open Runs

variable {ε β : Type*} [DecidableEq ε]

structure Watched (ε β : Type*) where
  run : EventRun ε β
  untimed : Bool

def AddsTimed (e : ε) : EventCall ε → Prop
  | .add e' tv _ _ => e' = e ∧ tv.isSome
  | _ => False

instance (e : ε) (call : EventCall ε) : Decidable (AddsTimed e call) := by
  unfold AddsTimed
  split <;> infer_instance

def RunsWithInterval (e : ε) (r : EventRun ε β) : EventCall ε → Prop
  | .runActive i _ _ =>
    (r.base.activequeues i).head? = some (.event e) ∧ (r.base.ev (.event e)).ioTimeout ≠ ⟨0, 0⟩
  | _ => False

def Watched.step (be : EventBackend β) (e : ε) (w : Watched ε β) (call : EventCall ε) : Option (Watched ε β) :=
  some ⟨w.run.step be call, match call with
    | .del e' => if e' = e then true else w.untimed
    | call => if AddsTimed e call then false else w.untimed⟩

def NoTimeout (e : ε) (w : Watched ε β) : Prop :=
  w.untimed → (w.run.base.ev (.event e)).flags .timeout = false

variable (be : EventBackend β) {e : ε}

lemma eventRun_step_spared (r : EventRun ε β) (call : EventCall ε) :
    Spared e (AddsTimed e call ∨ RunsWithInterval e r call) r.base (r.step be call).base := by
  cases call with
  | add e' tv now alloc =>
    refine Moves.spared (eventAddNolock_moves (fun _ => trivial) sparing_internal ?_ trivial trivial now false)
    rintro hsome ⟨⟩
    exact .inl ⟨rfl, hsome⟩
  | del e' => exact (eventDelNolock_touched be).spared
  | active e' res => exact (eventActiveNolock_touched res).spared
  | activeLater e' res => exact Moves.spared (eventActiveLaterNolock_moves trivial res)
  | removeTimer e' => exact eventRemoveTimerNolock_spared
  | prioritySet e' pri => exact (eventPrioritySet_touched pri).spared
  | initCommonTimeout duration => exact eventBaseInitCommonTimeout_spared duration
  | timeoutProcess now => exact Moves.spared (timeoutProcessLoop_moves (fun _ => trivial) now _)
  | makeLaterEventsActive => exact eventQueueMakeLaterEventsActive_spared
  | runActive i now alloc => exact eventProcessActiveTurn_spared be alloc now i .inr
  | runCommonTimeout now grow =>
    unfold EventRun.step
    dsimp only
    split
    · exact Spared.refl
    · exact Moves.spared (commonTimeoutCallback_moves (fun _ => trivial) sparing_internal trivial now _)
  | callbackReturned => exact spared_of_ev_eq rfl

lemma NoTimeout.step {w w' : Watched ε β} (hno : NoTimeout e w)
    (hfin : (w.run.base.ev (.event e)).finalizing = false) (call : EventCall ε)
    (hruns : ¬(w.untimed ∧ RunsWithInterval e w.run call)) (hstep : w.step be e call = some w') :
    NoTimeout e w' := by
  cases hstep
  intro huntimed
  have hkept (hw : w.untimed) (hadd : ¬AddsTimed e call) :
      ((w.run.step be call).base.ev (.event e)).flags .timeout = false := by
    rw [Bool.eq_false_iff]
    intro hon
    cases (eventRun_step_spared be w.run call).flag hon with
    | inl hflag =>
      rw [hno hw] at hflag
      cases hflag
    | inr harmed => exact harmed.elim hadd fun h => hruns ⟨hw, h⟩
  split at huntimed
  · rename_i e'
    split_ifs at huntimed with he
    · subst he
      exact eventDelNolock_timeout be hfin
    · exact hkept huntimed id
  · split at huntimed
    · cases huntimed
    · rename_i hadd
      exact hkept huntimed hadd

lemma start_finalizing (setup : ε → EventSetup) (nactivequeues : Nat) (evsel : β) (junk : Nat → EventRef ε)
    (durations : List Timeval) :
    ((EventRun.start setup nactivequeues evsel junk durations).base.ev (.event e)).finalizing = false ∧
      ((EventRun.start setup nactivequeues evsel junk durations).base.ev (.event e)).flags .timeout = false := by
  have hspared (b : EventBase ε β) : Spared e False b
      (durations.foldl (fun b duration => (b.eventBaseInitCommonTimeout duration).2) b) := by
    induction durations generalizing b with
    | nil => exact Spared.refl
    | cons duration durations ih => exact (eventBaseInitCommonTimeout_spared duration).trans (ih _)
  have hstart := hspared (EventBase.start setup nactivequeues evsel junk)
  refine ⟨hstart.finalizing, ?_⟩
  rw [Bool.eq_false_iff]
  intro hon
  cases hstart.flag hon with
  | inl hflag => cases hflag
  | inr h => exact h

/-- While no `event_add` since the latest `event_del` has passed a timeout, none is pending, if the callback
never runs with an interval that is left in `ev_io_timeout`. -/
theorem reached_no_timeout (setup : ε → EventSetup) (nactivequeues : Nat) (evsel : β) (junk : Nat → EventRef ε)
    (durations : List Timeval) {w : Watched ε β}
    (hr : Reached (Watched.step be e)
      (fun w call => w.run.Enabled call ∧ ¬(w.untimed ∧ RunsWithInterval e w.run call))
      ⟨EventRun.start setup nactivequeues evsel junk durations, true⟩ w) : NoTimeout e w := by
  obtain ⟨hfin, hflag⟩ := start_finalizing (e := e) setup nactivequeues evsel junk durations
  have hinv : NoTimeout e w ∧ (w.run.base.ev (.event e)).finalizing = false := by
    apply hr.invariant (P := fun w => NoTimeout e w ∧ (w.run.base.ev (.event e)).finalizing = false)
    · exact ⟨fun _ => hflag, hfin⟩
    · rintro w call w' ⟨hno, hfin⟩ ⟨-, hruns⟩ hstep
      refine ⟨hno.step be hfin call hruns hstep, ?_⟩
      cases hstep
      exact (eventRun_step_spared be w.run call).finalizing.trans hfin
  exact hinv.1

instance (r : EventRun ε β) (call : EventCall ε) : Decidable (r.Enabled call) := by
  unfold EventRun.Enabled
  split <;> infer_instance

instance (r : EventRun ε β) (call : EventCall ε) : Decidable (RunsWithInterval e r call) := by
  unfold RunsWithInterval
  split <;> infer_instance

end History

section Reader

open Runs

def persistReader : EventRun Unit Unit :=
  EventRun.start (fun _ => ⟨5, { io := fun k => k == .read, persist := true }, false, ⟨0, 0⟩, nofun⟩) 1 ()
    (fun _ => .event ()) []

def readerWatch : Watched Unit Unit := ⟨persistReader, true⟩

def readerRuns : Given (Watched.step quietBackend ())
    (fun w call => w.run.Enabled call ∧ ¬(w.untimed ∧ RunsWithInterval () w.run call)) readerWatch
    (fun w => w.untimed && !w.run.base.abort && decide (w.run.base.currentEvent = some (.event ()))) where
  events := [.add () none ⟨1, 0⟩ {}, .active () 2, .runActive 0 ⟨2, 0⟩ {}, .callbackReturned, .active () 2,
    .runActive 0 ⟨3, 0⟩ {}]
  leads := by decide +kernel

theorem reached_no_timeout_reader :
    ∃ w, Reached (Watched.step quietBackend ())
      (fun w call => w.run.Enabled call ∧ ¬(w.untimed ∧ RunsWithInterval () w.run call)) readerWatch w ∧
      w.untimed ∧ NoTimeout () w := by
  obtain ⟨w, hr, hw⟩ := readerRuns.reached
  simp only [Bool.and_eq_true] at hw
  exact ⟨w, hr, hw.1.1, reached_no_timeout quietBackend _ _ _ _ _ hr⟩

def readerRearmed : Given (Watched.step quietBackend ()) (fun w call => w.run.Enabled call) readerWatch
    (fun w => w.untimed && !w.run.base.abort && (w.run.base.ev (.event ())).flags .timeout) where
  events := [.add () (some ⟨5, 0⟩) ⟨1, 0⟩ {}, .del (), .add () none ⟨1, 0⟩ {}, .active () 2, .runActive 0 ⟨2, 0⟩ {}]
  leads := by decide +kernel

theorem deleted_timeout_returns :
    ∃ w, Reached (Watched.step quietBackend ()) (fun w call => w.run.Enabled call) readerWatch w ∧
      w.run.base.abort = false ∧ ¬NoTimeout () w := by
  obtain ⟨w, hr, hw⟩ := readerRearmed.reached
  simp only [Bool.and_eq_true, Bool.not_eq_true'] at hw
  refine ⟨w, hr, hw.1.2, fun hno => ?_⟩
  rw [hno hw.1.1] at hw
  exact Bool.false_ne_true hw.2

end Reader

end MyLibevent.Proofs
