import MyLibevent.EvbufferCallbacks
import MyLibevent.Lib.Runs

/-!
# Lock depths and references of buffers with deferred callbacks

`evbuffer_invoke_callbacks_` releases the lock of the buffer also when it has not taken it, because the
deferred callback is already queued.
-/

namespace MyLibevent.Proofs

open CallbackState Function List CallbackBuffer

section Net

variable {lockOf : BufId → Option LockId} {l : LockId}

def lockNet (lockOf : BufId → Option LockId) (l : LockId) : BufferAction → Int
  | .lock b => if lockOf b = some l then 1 else 0
  | .unlock b => if lockOf b = some l then -1 else 0
  | .lock2 b₁ b₂ => if lockOf b₁ = some l ∨ lockOf b₂ = some l then 1 else 0
  | .unlock2 b₁ b₂ => if lockOf b₁ = some l ∨ lockOf b₂ = some l then -1 else 0
  | .decrefAndUnlock b _ => if lockOf b = some l then -1 else 0
  | _ => 0

def net (lockOf : BufId → Option LockId) (l : LockId) (actions : List BufferAction) : Int :=
  (actions.map (lockNet lockOf l)).sum

@[simp] lemma net_nil : net lockOf l [] = 0 := rfl

@[simp] lemma net_cons (a : BufferAction) (actions : List BufferAction) :
    net lockOf l (a :: actions) = lockNet lockOf l a + net lockOf l actions := by
  simp [net]

@[simp] lemma net_append (actions actions' : List BufferAction) :
    net lockOf l (actions ++ actions') = net lockOf l actions + net lockOf l actions' := by
  simp [net]

/-- Actions that leave every lock as it was and give up no reference of a deferred callback. -/
structure Quiet (actions : List BufferAction) : Prop where
  net : ∀ (lockOf : BufId → Option LockId) (l : LockId), net lockOf l actions = 0
  kept : ∀ b, .decrefAndUnlock b false ∉ actions

lemma quiet_nil : Quiet [] := ⟨fun _ _ => rfl, fun _ => not_mem_nil⟩

lemma Quiet.cons {a : BufferAction} {actions : List BufferAction} (hnet : ∀ lockOf l, lockNet lockOf l a = 0)
    (ha : ∀ b, .decrefAndUnlock b false ≠ a) (h : Quiet actions) : Quiet (a :: actions) where
  net lockOf l := by rw [net_cons, hnet, h.net, Int.add_zero]
  kept b := not_mem_cons_of_ne_of_not_mem (ha b) (h.kept b)

lemma Quiet.append {actions actions' : List BufferAction} (h : Quiet actions) (h' : Quiet actions') :
    Quiet (actions ++ actions') where
  net lockOf l := by rw [net_append, h.net, h'.net, Int.add_zero]
  kept b := by simp [h.kept, h'.kept]

lemma Quiet.ite {c : Prop} [Decidable c] {actions : List BufferAction} (h : Quiet actions) :
    Quiet (if c then actions else []) := by
  split
  · exact h
  · exact quiet_nil

lemma quiet_flatten {lists : List (List BufferAction)} (h : ∀ actions ∈ lists, Quiet actions) :
    Quiet lists.flatten := by
  induction lists with
  | nil => exact quiet_nil
  | cons actions lists ih =>
    exact (h actions mem_cons_self).append (ih fun a ha => h a (mem_cons_of_mem actions ha))

lemma Quiet.bracket {first last : BufferAction} {actions : List BufferAction} (h : Quiet actions)
    (hnet : ∀ lockOf l, lockNet lockOf l first + lockNet lockOf l last = 0)
    (hfirst : ∀ b, .decrefAndUnlock b false ≠ first) (hlast : ∀ b, .decrefAndUnlock b false ≠ last) :
    Quiet ([first] ++ actions ++ [last]) where
  net lockOf l := by
    have := hnet lockOf l
    simp only [net_append, net_cons, net_nil, h.net]
    omega
  kept b := by simp [h.kept, hfirst, hlast]

lemma Quiet.locked {actions : List BufferAction} (h : Quiet actions) (b : BufId) :
    Quiet ([.lock b] ++ actions ++ [.unlock b]) := by
  refine h.bracket (fun lockOf l => ?_) (by simp) (by simp)
  simp only [lockNet]
  split <;> rfl

lemma Quiet.locked2 {actions : List BufferAction} (h : Quiet actions) (b₁ b₂ : BufId) :
    Quiet ([.lock2 b₁ b₂] ++ actions ++ [.unlock2 b₁ b₂]) := by
  refine h.bracket (fun lockOf l => ?_) (by simp) (by simp)
  simp only [lockNet]
  split <;> rfl

lemma quiet_changed (b : BufId) (added deleted : Nat) : Quiet [.changed b added deleted] :=
  quiet_nil.cons (fun _ _ => rfl) (by simp)

lemma quiet_invoke (b : BufId) : Quiet [.invokeCallbacks b] := quiet_nil.cons (fun _ _ => rfl) (by simp)

lemma quiet_incref (b : BufId) : Quiet (evbufferIncrefActions b) :=
  (quiet_nil.cons (a := .incref b) (fun _ _ => rfl) (by simp)).locked b

lemma quiet_changeLocked (b : BufId) (added deleted : Nat) (reached : Bool) :
    Quiet (changeLocked b added deleted reached) :=
  ((quiet_changed b added deleted).append (quiet_invoke b).ite).locked b

lemma quiet_remove (b : BufId) (deleted : Nat) (reached : Bool) : Quiet (evbufferRemoveActions b deleted reached) :=
  ((quiet_nil.locked b).append (quiet_changeLocked b 0 deleted reached).ite).locked b

lemma quiet_moveLocked (outbuf inbuf : BufId) (moved : Nat) (reached : Bool) :
    Quiet (moveLocked outbuf inbuf moved reached) := by
  have hchanged := (quiet_changed inbuf 0 moved).append (quiet_changed outbuf moved 0)
  exact (hchanged.append ((quiet_invoke inbuf).append (quiet_invoke outbuf))).ite.locked2 inbuf outbuf

lemma quiet_actions (f : BufferFunction) : Quiet f.actions := by
  cases f with
  | add b added reached | prepend b added reached | commitSpace b added reached | read b added reached
  | addVprintf b added reached | addReference b added reached | addFileSegment b added reached =>
    exact quiet_changeLocked b added 0 reached
  | drain b deleted reached => exact quiet_changeLocked b 0 deleted reached
  | copyout b => exact quiet_nil.locked b
  | remove b deleted reached => exact quiet_remove b deleted reached
  | write b deleted reached => exact (quiet_changeLocked b 0 deleted reached).ite.locked b
  | readln b found reached =>
    apply Quiet.locked
    cases found with
    | none => exact quiet_nil
    | some lengths => exact (quiet_remove b lengths.1 reached).append (quiet_changeLocked b 0 lengths.2 reached)
  | addIovec b added =>
    apply Quiet.locked
    rw [flatMap_def]
    apply quiet_flatten
    intro actions hactions
    obtain ⟨n, -, rfl⟩ := mem_map.mp hactions
    exact quiet_changeLocked b n 0 true
  | addBuffer outbuf inbuf moved reached | prependBuffer outbuf inbuf moved reached =>
    exact quiet_moveLocked outbuf inbuf moved reached
  | addBufferReference outbuf inbuf chains added reached =>
    have hincref : Quiet (replicate chains (evbufferIncrefActions inbuf)).flatten := by
      apply quiet_flatten
      intro actions hactions
      rw [eq_of_mem_replicate hactions]
      exact quiet_incref inbuf
    exact (hincref.append ((quiet_changed outbuf added 0).append (quiet_invoke outbuf))).ite.locked2 inbuf outbuf
  | removeBuffer src dst moved copied reached =>
    have hadd := (quiet_changed dst moved 0).append (quiet_changeLocked dst copied 0 reached)
    have hinvoke := ((quiet_invoke dst).append (quiet_invoke src)).ite (c := moved + copied ≠ 0)
    exact ((hadd.append (quiet_changed src 0 (moved + copied))).append hinvoke).locked2 src dst
  | removeWholeBuffer src dst moved reached => exact (quiet_moveLocked dst src moved reached).locked2 src dst
  | incref b => exact quiet_incref b
  | free b =>
    refine ⟨fun lockOf l => ?_, fun b' => by simp [BufferFunction.actions, evbufferFreeActions]⟩
    simp only [BufferFunction.actions, evbufferFreeActions, net_cons, net_nil, lockNet]
    split <;> rfl

end Net

section Refs

variable {s s' s'' : CallbackState} {b : BufId} {buf buf' buf'' : CallbackBuffer} {d d' : Int}
  {f : CallbackBuffer → CallbackBuffer}

def otherRefs (buf : CallbackBuffer) : Int := buf.refcnt - if buf.queued then 1 else 0

def queuedTwice (buf : CallbackBuffer) : Bool := buf.active && buf.activeLater

/-- The buffer has `d` more references that are not the one of its queued callback. -/
structure Referred (d : Int) (buf buf' : CallbackBuffer) : Prop where
  lock : buf'.lock = buf.lock
  refs : otherRefs buf' = otherRefs buf + d
  once : queuedTwice buf = false → queuedTwice buf' = false

lemma Referred.refl : Referred 0 buf buf := ⟨rfl, (Int.add_zero _).symm, id⟩

lemma Referred.trans (h : Referred d buf buf') (h' : Referred d' buf' buf'') : Referred (d + d') buf buf'' where
  lock := h'.lock.trans h.lock
  refs := by rw [h'.refs, h.refs, Int.add_assoc]
  once hbuf := h'.once (h.once hbuf)

@[simp] lemma buf_modifyBuf (f : CallbackBuffer → CallbackBuffer) (b' : BufId) :
    (s.modifyBuf b f).buf b' = if b' = b then f (s.buf b) else s.buf b' :=
  update_apply s.buf b (f (s.buf b)) b'

lemma Referred.modifyBuf (h : Referred d (s.buf b) (f (s.buf b))) (b' : BufId) :
    Referred (if b' = b then d else 0) (s.buf b') ((s.modifyBuf b f).buf b') := by
  rw [buf_modifyBuf]
  split_ifs with hb
  · rw [hb]
    exact h
  · exact .refl

lemma referred_refcnt (s : CallbackState) (b : BufId) (d : Int) (b' : BufId) : Referred (if b' = b then d else 0)
    (s.buf b') ((s.modifyBuf b fun buf => { buf with refcnt := buf.refcnt + d }).buf b') := by
  refine Referred.modifyBuf ⟨rfl, ?_, id⟩ b'
  change (s.buf b).refcnt + d - (if (s.buf b).queued then 1 else 0) = _
  unfold otherRefs
  omega

structure SameRefs (s s' : CallbackState) : Prop where
  calls : s'.calls = s.calls
  owners : s'.owners = s.owners
  lock : ∀ b, (s'.buf b).lock = (s.buf b).lock
  refs : ∀ b, otherRefs (s'.buf b) = otherRefs (s.buf b)
  once : ∀ b, queuedTwice (s.buf b) = false → queuedTwice (s'.buf b) = false

lemma SameRefs.bufs (h : SameRefs s s') (b : BufId) : Referred 0 (s.buf b) (s'.buf b) :=
  ⟨h.lock b, (h.refs b).trans (Int.add_zero _).symm, h.once b⟩

lemma sameRefs_of_bufs (hcalls : s'.calls = s.calls) (howners : s'.owners = s.owners)
    (hbufs : ∀ b, Referred 0 (s.buf b) (s'.buf b)) : SameRefs s s' :=
  ⟨hcalls, howners, fun b => (hbufs b).lock, fun b => (hbufs b).refs.trans (Int.add_zero _), fun b => (hbufs b).once⟩

lemma SameRefs.trans (h : SameRefs s s') (h' : SameRefs s' s'') : SameRefs s s'' :=
  sameRefs_of_bufs (h'.calls.trans h.calls) (h'.owners.trans h.owners) fun b => (h.bufs b).trans (h'.bufs b)

lemma sameRefs_of_eq (hcalls : s'.calls = s.calls) (howners : s'.owners = s.owners) (hbuf : s'.buf = s.buf) :
    SameRefs s s' := sameRefs_of_bufs hcalls howners fun _ => hbuf ▸ .refl

lemma sameRefs_modifyBuf (h : Referred 0 (s.buf b) (f (s.buf b))) : SameRefs s (s.modifyBuf b f) := by
  refine sameRefs_of_bufs rfl rfl fun b' => ?_
  have hb := h.modifyBuf b'
  rwa [ite_self] at hb

lemma depth_evlock (l : Option LockId) (n : Int) (l' : LockId) :
    (s.evlock l n).depth l' = s.depth l' + if l = some l' then n else 0 := by
  cases l with
  | none => simp [evlock]
  | some l =>
    by_cases hl : l' = l
    · simp [evlock, hl]
    · simp [evlock, hl, Ne.symm hl]

lemma sameRefs_evlock (l : Option LockId) (n : Int) : SameRefs s (s.evlock l n) := sameRefs_of_eq rfl rfl rfl

lemma sameRefs_evlock2 (l1 l2 : Option LockId) (n : Int) : SameRefs s (s.evlock2 l1 l2 n) := by
  unfold evlock2
  split
  · exact sameRefs_evlock l1 n
  · exact (sameRefs_evlock l1 n).trans (sameRefs_evlock l2 n)

lemma depth_evlock2 (l1 l2 : Option LockId) (n : Int) (l : LockId) :
    (s.evlock2 l1 l2 n).depth l = s.depth l + if l1 = some l ∨ l2 = some l then n else 0 := by
  unfold evlock2
  split
  · rename_i hl
    simp [depth_evlock, hl]
  · rename_i hl
    rw [depth_evlock, depth_evlock]
    by_cases h1 : l1 = some l
    · have h2 : l2 ≠ some l := by
        rintro rfl
        exact hl h1
      simp [h1, h2]
    · simp [h1]

lemma sameRefs_runCallbacks (runningDeferred : Bool) : SameRefs s (s.evbufferRunCallbacks b runningDeferred) := by
  have hclear (s : CallbackState) :
      SameRefs s (s.modifyBuf b fun buf => { buf with nAddForCb := 0, nDelForCb := 0 }) :=
    sameRefs_modifyBuf ⟨rfl, (Int.add_zero _).symm, id⟩
  unfold evbufferRunCallbacks
  dsimp only
  split
  · exact hclear s
  split
  · exact sameRefs_of_eq rfl rfl rfl
  split
  · exact sameRefs_of_eq rfl rfl rfl
  · refine SameRefs.trans ?_ (hclear _)
    exact sameRefs_of_eq rfl rfl rfl

lemma depth_runCallbacks (runningDeferred : Bool) : (s.evbufferRunCallbacks b runningDeferred).depth = s.depth := by
  unfold evbufferRunCallbacks
  dsimp only
  split_ifs <;> rfl

structure ScheduledCb (b : BufId) (s : CallbackState) (r : Bool × CallbackState) : Prop where
  result : r.1 = !(s.buf b).queued
  queued : (r.2.buf b).queued
  once : queuedTwice (s.buf b) = false → queuedTwice (r.2.buf b) = false
  refcnt : (r.2.buf b).refcnt = (s.buf b).refcnt
  lock : (r.2.buf b).lock = (s.buf b).lock
  others : ∀ b', b' ≠ b → r.2.buf b' = s.buf b'
  depth : r.2.depth = s.depth
  calls : r.2.calls = s.calls
  owners : r.2.owners = s.owners

lemma ScheduledCb.bufs {r : Bool × CallbackState} (h : ScheduledCb b s r) (b' : BufId) :
    Referred (if b' = b then if r.1 then -1 else 0 else 0) (s.buf b') (r.2.buf b') := by
  by_cases hb : b' = b
  · subst hb
    refine ⟨h.lock, ?_, h.once⟩
    rw [if_pos rfl, otherRefs, otherRefs, h.queued, h.refcnt, h.result]
    cases (s.buf b').queued <;> simp [Int.sub_eq_add_neg]
  · rw [if_neg hb, h.others b' hb]
    exact .refl

lemma scheduledCb_queued (hq : (s.buf b).queued) : ScheduledCb b s (false, s) :=
  ⟨by rw [hq]; rfl, hq, id, rfl, rfl, fun _ _ => rfl, rfl, rfl, rfl⟩

lemma scheduledCb_modifyBuf {r : Bool} (hr : r = !(s.buf b).queued)
    (hqueued : (f (s.buf b)).queued) (honce : queuedTwice (f (s.buf b)) = false)
    (hrefcnt : (f (s.buf b)).refcnt = (s.buf b).refcnt)
    (hlock : (f (s.buf b)).lock = (s.buf b).lock) : ScheduledCb b s (r, s.modifyBuf b f) := by
  refine ⟨hr, ?_, fun _ => ?_, ?_, ?_, fun b' hb => ?_, rfl, rfl, rfl⟩
  · simpa using hqueued
  · simpa using honce
  · simpa using hrefcnt
  · simpa using hlock
  · simp [hb]

lemma eventCallbackActivateLater_scheduled : ScheduledCb b s (s.eventCallbackActivateLater b) := by
  unfold eventCallbackActivateLater
  split_ifs with hqueued
  · exact scheduledCb_queued hqueued
  · have hq : (s.buf b).queued = false := Bool.eq_false_iff.mpr hqueued
    have hactive : (s.buf b).active = false := (Bool.or_eq_false_iff.mp hq).1
    exact scheduledCb_modifyBuf (by rw [hq]; rfl) (by simp [queued]) (by simp [queuedTwice, hactive]) rfl rfl

lemma eventCallbackActivate_scheduled : ScheduledCb b s (s.eventCallbackActivate b) := by
  unfold eventCallbackActivate
  split
  · rename_i hlater
    exact scheduledCb_modifyBuf (by simp [queued, hlater]) rfl rfl rfl rfl
  · rename_i hlater hactive
    exact scheduledCb_queued (by simp [queued, hactive])
  · rename_i hlater hactive
    exact scheduledCb_modifyBuf (by simp [queued, hlater, hactive]) rfl (by simp [queuedTwice, hlater]) rfl rfl

lemma eventDeferredCbSchedule_scheduled : ScheduledCb b s (s.eventDeferredCbSchedule b) := by
  unfold eventDeferredCbSchedule
  split
  · exact eventCallbackActivateLater_scheduled
  · have h := eventCallbackActivate_scheduled (s := s) (b := b)
    dsimp only
    split
    · exact ⟨h.result, h.queued, h.once, h.refcnt, h.lock, h.others, h.depth, h.calls, h.owners⟩
    · exact h

/-- A callback that gets queued takes a reference. -/
lemma ScheduledCb.sameRefs {r : Bool × CallbackState} (h : ScheduledCb b s r) :
    SameRefs s (if r.1 then r.2.evbufferIncrefAndLock b else r.2) := by
  have hbufs := h.bufs
  split_ifs with hr
  · refine sameRefs_of_bufs h.calls h.owners fun b' => ?_
    have hb := (hbufs b').trans (referred_refcnt (r.2.evbufferLock b) b 1 b')
    rw [if_pos hr] at hb
    split_ifs at hb with hb'
    · exact hb' ▸ hb
    · exact hb
  · refine sameRefs_of_bufs h.calls h.owners fun b' => ?_
    have hb := hbufs b'
    rwa [if_neg hr, ite_self] at hb

lemma invokeCallbacks_sameRefs : SameRefs s (s.evbufferInvokeCallbacks b) := by
  unfold CallbackState.evbufferInvokeCallbacks
  split
  · exact sameRefs_modifyBuf ⟨rfl, (Int.add_zero _).symm, id⟩
  · dsimp only
    refine SameRefs.trans ?_ (sameRefs_runCallbacks false)
    split
    · exact eventDeferredCbSchedule_scheduled.sameRefs.trans (sameRefs_evlock _ _)
    · exact sameRefs_of_eq rfl rfl rfl

def Reinvoked (buf : CallbackBuffer) : Prop :=
  buf.callbacks ≠ [] ∧ buf.deferredCbs ∧ buf.queued

lemma depth_invokeCallbacks [Decidable (Reinvoked (s.buf b))] (l : LockId) :
    (s.evbufferInvokeCallbacks b).depth l =
      s.depth l + if Reinvoked (s.buf b) ∧ (s.buf b).lock = some l then -1 else 0 := by
  unfold CallbackState.evbufferInvokeCallbacks
  split
  · rename_i hempty
    simp [Reinvoked, hempty, modifyBuf]
  rename_i hcallbacks
  rw [depth_runCallbacks]
  split
  · rename_i hdeferred
    have h := eventDeferredCbSchedule_scheduled (s := s) (b := b)
    generalize s.eventDeferredCbSchedule b = r at h ⊢
    have hlock := h.sameRefs.lock b
    unfold evbufferUnlock
    rw [depth_evlock, hlock]
    cases hq : (s.buf b).queued with
    | true =>
      have hresult : r.1 = false := by rw [h.result, hq]; rfl
      simp [hresult, h.depth, Reinvoked, hcallbacks, hdeferred, hq]
    | false =>
      have hresult : r.1 := by rw [h.result, hq]; rfl
      simp [hresult, evbufferIncrefAndLock, evbufferLock, modifyBuf, depth_evlock, h.lock, h.depth, Reinvoked, hq]
      split <;> omega
  · rename_i hdeferred
    simp [Reinvoked, hdeferred]

lemma decrefAndUnlock_referred (hidle : (s.buf b).refcnt ≤ 1 → (s.buf b).queued = false) (b' : BufId) :
    Referred (if b' = b then -1 else 0) (s.buf b') ((s.evbufferDecrefAndUnlock b).buf b') := by
  have hdecref := referred_refcnt s b (-1) b'
  generalize (if b' = b then (-1 : Int) else 0) = d at hdecref ⊢
  unfold evbufferDecrefAndUnlock
  dsimp only
  split
  · exact hdecref
  · rename_i hlast
    have hactive : (s.buf b).active = false ∧ (s.buf b).activeLater = false := by
      simpa [queued] using hidle (by simpa using hlast)
    -- the reference that is given up is the last, and nothing is queued that could be cancelled
    have hcleared := Referred.modifyBuf (d := 0) (s := s.modifyBuf b fun buf => { buf with refcnt := buf.refcnt - 1 })
      (b := b) (f := fun buf =>
        { buf with
          callbacks := []
          active := buf.active && !buf.deferredCbs
          activeLater := buf.activeLater && !buf.deferredCbs })
      ⟨rfl, by simp [otherRefs, queued, hactive], by simp [queuedTwice, hactive]⟩ b'
    rw [ite_self] at hcleared
    have hb := hdecref.trans hcleared
    rwa [Int.add_zero] at hb

lemma decrefAndUnlock_kept : (s.evbufferDecrefAndUnlock b).calls = s.calls ∧
    (s.evbufferDecrefAndUnlock b).owners = s.owners := by
  unfold evbufferDecrefAndUnlock
  dsimp only
  split <;> exact ⟨rfl, rfl⟩

lemma depth_decrefAndUnlock (l : LockId) : (s.evbufferDecrefAndUnlock b).depth l =
    s.depth l + if (s.buf b).lock = some l then -1 else 0 := by
  unfold evbufferDecrefAndUnlock evbufferUnlock
  dsimp only
  split
  · rw [depth_evlock, buf_modifyBuf, if_pos rfl]
    rfl
  · rw [depth_evlock, buf_modifyBuf, if_pos rfl, buf_modifyBuf, if_pos rfl]
    rfl

end Refs

section Inv

variable {lockOf : BufId → Option LockId} {s s' : CallbackState} {a : BufferAction}

def LocksOwed (lockOf : BufId → Option LockId) : (LockId → Int) → List BufferCall → Prop
  | _, [] => True
  | depth, call :: calls =>
    (∀ l, depth l + net lockOf l call.rest = call.found l) ∧ LocksOwed lockOf call.found calls

structure CallbackInv (lockOf : BufId → Option LockId) (s : CallbackState) : Prop where
  lock : ∀ b, (s.buf b).lock = lockOf b
  owed : LocksOwed lockOf s.depth s.calls
  owners : ∀ b, 0 ≤ s.owners b
  refs : ∀ b, otherRefs (s.buf b) = s.owners b + s.running b
  once : ∀ b, queuedTwice (s.buf b) = false

structure Acted (lockOf : BufId → Option LockId) (a : BufferAction) (s s' : CallbackState) : Prop where
  calls : s'.calls = s.calls
  lock : ∀ b, (s'.buf b).lock = (s.buf b).lock
  depth : ∀ l, s'.depth l = s.depth l + lockNet lockOf l a
  owners : ∀ b, 0 ≤ s.owners b → 0 ≤ s'.owners b
  refs : ∀ b, otherRefs (s'.buf b) - s'.owners b =
    otherRefs (s.buf b) - s.owners b - if a = .decrefAndUnlock b false then 1 else 0
  once : ∀ b, queuedTwice (s.buf b) = false → queuedTwice (s'.buf b) = false

lemma acted_of_bufs (hcalls : s'.calls = s.calls) (hdepth : ∀ l, s'.depth l = s.depth l + lockNet lockOf l a)
    (howners : ∀ b, 0 ≤ s.owners b → 0 ≤ s'.owners b)
    (hbufs : ∀ b, Referred (s'.owners b - s.owners b - if a = .decrefAndUnlock b false then 1 else 0)
      (s.buf b) (s'.buf b)) : Acted lockOf a s s' := by
  refine ⟨hcalls, fun b => (hbufs b).lock, hdepth, howners, fun b => ?_, fun b => (hbufs b).once⟩
  rw [(hbufs b).refs]
  omega

lemma SameRefs.acted (h : SameRefs s s') (hdepth : ∀ l, s'.depth l = s.depth l + lockNet lockOf l a)
    (ha : ∀ b, a ≠ .decrefAndUnlock b false) : Acted lockOf a s s' := by
  refine acted_of_bufs h.calls hdepth (fun b hb => ?_) fun b => ?_
  · rw [h.owners]
    exact hb
  · rw [h.owners, if_neg (ha b), Int.sub_self]
    exact h.bufs b

/-- An owner takes or gives up a reference. -/
lemma acted_owner {b : BufId} {d : Int} (howners : s'.owners = update s.owners b (s.owners b + d))
    (hbufs : ∀ b', Referred (if b' = b then d else 0) (s.buf b') (s'.buf b'))
    (hcalls : s'.calls = s.calls) (hdepth : ∀ l, s'.depth l = s.depth l + lockNet lockOf l a)
    (hpos : 0 ≤ s.owners b → 0 ≤ s.owners b + d) (ha : ∀ b, a ≠ .decrefAndUnlock b false) :
    Acted lockOf a s s' := by
  refine acted_of_bufs hcalls hdepth (fun b' hb' => ?_) fun b' => ?_
  · rw [howners, update_apply]
    split_ifs with hb
    · exact hpos (hb ▸ hb')
    · exact hb'
  · have h := hbufs b'
    rw [howners, update_apply, if_neg (ha b'), Int.sub_zero]
    split_ifs at h ⊢ with hb
    · rwa [hb, Int.add_comm, Int.add_sub_cancel, ← hb]
    · rwa [Int.sub_self]

lemma act_acted (hlock : ∀ b, (s.buf b).lock = lockOf b) (hact : s.act a = some s')
    (hreinvoked : ∀ b, a = .invokeCallbacks b → ¬(Reinvoked (s.buf b) ∧ (s.buf b).lock ≠ none))
    (hidle : ∀ b owner, a = .decrefAndUnlock b owner → (owner → 0 < s.owners b) →
      (s.buf b).refcnt ≤ 1 → (s.buf b).queued = false) : Acted lockOf a s s' := by
  cases a with
  | lock b | unlock b =>
    cases hact
    refine (sameRefs_evlock _ _).acted (fun l => ?_) (by simp)
    rw [depth_evlock, hlock]
    rfl
  | lock2 b₁ b₂ | unlock2 b₁ b₂ =>
    cases hact
    refine (sameRefs_evlock2 _ _ _).acted (fun l => ?_) (by simp)
    rw [depth_evlock2, hlock, hlock]
    rfl
  | changed b added deleted =>
    cases hact
    exact (sameRefs_modifyBuf ⟨rfl, (Int.add_zero _).symm, id⟩).acted (fun l => (Int.add_zero _).symm) (by simp)
  | invokeCallbacks b =>
    cases hact
    refine invokeCallbacks_sameRefs.acted (fun l => ?_) (by simp)
    classical
    rw [depth_invokeCallbacks, if_neg]
    · rfl
    · rintro ⟨h, hl⟩
      exact hreinvoked b rfl ⟨h, by rw [hl]; simp⟩
  | runDeferred b =>
    cases hact
    refine (sameRefs_runCallbacks true).acted (fun l => ?_) (by simp)
    rw [depth_runCallbacks]
    exact (Int.add_zero _).symm
  | incref b =>
    cases hact
    refine acted_owner (d := 1) rfl (fun b' => ?_) rfl (fun l => (Int.add_zero _).symm) (by omega) (by simp)
    exact referred_refcnt s b 1 b'
  | decrefAndUnlock b owner =>
    have hdepth (l : LockId) : (s.evbufferDecrefAndUnlock b).depth l =
        s.depth l + lockNet lockOf l (.decrefAndUnlock b owner) := by
      rw [depth_decrefAndUnlock, hlock]
      rfl
    obtain ⟨hcalls, howners⟩ := decrefAndUnlock_kept (s := s) (b := b)
    cases owner with
    | true =>
      rw [act, if_pos rfl] at hact
      split at hact
      · rename_i hpos
        cases hact
        refine acted_owner (d := -1) rfl (fun b' => ?_) hcalls hdepth (by omega) (by simp)
        exact decrefAndUnlock_referred (hidle b true rfl fun _ => hpos) b'
      · cases hact
    | false =>
      cases hact
      refine acted_of_bufs hcalls hdepth (fun b' hb' => ?_) fun b' => ?_
      · rw [howners]
        exact hb'
      · have h := decrefAndUnlock_referred (hidle b false rfl (by simp)) b'
        rw [howners, Int.sub_self]
        by_cases hb : b' = b
        · subst hb
          rwa [if_pos rfl] at h ⊢
        · rw [if_neg hb] at h
          rwa [if_neg fun h => hb (by cases h; rfl)]

lemma CallbackInv.balanced (hinv : CallbackInv lockOf s) : s.Balanced := by
  constructor
  · intro call hcall hrest
    cases hcalls : s.calls with
    | nil =>
      rw [hcalls] at hcall
      cases hcall
    | cons call' calls =>
      rw [hcalls] at hcall
      cases hcall
      have howed := hinv.owed
      rw [hcalls] at howed
      funext l
      have hl := howed.1 l
      rw [hrest, net_nil, Int.add_zero] at hl
      exact hl
  · intro b
    have hrefs := hinv.refs b
    unfold otherRefs at hrefs
    omega

lemma CallbackInv.sameRefs (hinv : CallbackInv lockOf s) (h : SameRefs s s') (hdepth : s'.depth = s.depth) :
    CallbackInv lockOf s' := by
  refine ⟨fun b => (h.lock b).trans (hinv.lock b), ?_, ?_, fun b => ?_, fun b => h.once b (hinv.once b)⟩
  · rw [hdepth, h.calls]
    exact hinv.owed
  · rw [h.owners]
    exact hinv.owners
  · rw [h.refs, h.owners, hinv.refs, CallbackState.running, CallbackState.running, h.calls]

lemma CallbackInv.enter (hlock : ∀ b, (s.buf b).lock = lockOf b) (howed : LocksOwed lockOf s.depth s.calls)
    (howners : ∀ b, 0 ≤ s.owners b) (actions : List BufferAction) (hnet : ∀ l, net lockOf l actions = 0)
    (hrefs : ∀ b, otherRefs (s.buf b) = s.owners b + s.running b + actions.count (.decrefAndUnlock b false))
    (honce : ∀ b, queuedTwice (s.buf b) = false) : CallbackInv lockOf (s.enter actions) := by
  refine ⟨hlock, ⟨fun l => ?_, howed⟩, howners, fun b => ?_, honce⟩
  · dsimp only
    rw [hnet l, Int.add_zero]
    rfl
  · have hrunning : (s.enter actions).running b = actions.count (.decrefAndUnlock b false) + s.running b := by
      simp [CallbackState.running, CallbackState.enter]
    rw [hrunning]
    have h := hrefs b
    change otherRefs (s.buf b) = s.owners b + _
    omega

def ReinvokesNext (s : CallbackState) : BufferEvent → Prop
  | .exec =>
    match s.calls with
    | ⟨.invokeCallbacks b :: _, _⟩ :: _ => Reinvoked (s.buf b) ∧ (s.buf b).lock ≠ none
    | _ => False
  | _ => False

lemma CallbackInv.exec (hinv : CallbackInv lockOf s) {rest : List BufferAction} {found : LockId → Int}
    {calls : List BufferCall} (hcalls : s.calls = ⟨a :: rest, found⟩ :: calls)
    (hact : ({ s with calls := ⟨rest, found⟩ :: calls } : CallbackState).act a = some s')
    (hnext : ¬ReinvokesNext s .exec) : CallbackInv lockOf s' := by
  have howed := hinv.owed
  rw [hcalls] at howed
  -- the action was counted among the deferred callbacks that are being run
  have hrunning (b : BufId) : s.running b = ({ s with calls := ⟨rest, found⟩ :: calls } : CallbackState).running b +
      if a = .decrefAndUnlock b false then 1 else 0 := by
    simp only [CallbackState.running, hcalls, map_cons, sum_cons, count_cons, beq_iff_eq]
    omega
  have hacted : Acted lockOf a { s with calls := ⟨rest, found⟩ :: calls } s' := by
    refine act_acted (s := { s with calls := ⟨rest, found⟩ :: calls }) hinv.lock hact ?_ ?_
    · rintro b rfl h
      apply hnext
      unfold ReinvokesNext
      rw [hcalls]
      exact h
    · intro b owner ha howner hone
      have hrefs := hinv.refs b
      have hpos := hinv.owners b
      have hr := hrunning b
      rw [Bool.eq_false_iff]
      intro hq
      rw [otherRefs, if_pos hq] at hrefs
      dsimp only at howner hone
      cases owner with
      | true =>
        have := howner rfl
        omega
      | false =>
        rw [if_pos ha] at hr
        omega
  refine ⟨fun b => (hacted.lock b).trans (hinv.lock b), ?_, fun b => hacted.owners b (hinv.owners b), fun b => ?_,
    fun b => hacted.once b (hinv.once b)⟩
  · rw [hacted.calls]
    refine ⟨fun l => ?_, howed.2⟩
    have hl := howed.1 l
    rw [net_cons] at hl
    rw [hacted.depth]
    dsimp only at hl ⊢
    omega
  · have hrefs := hacted.refs b
    have hold := hinv.refs b
    have hr := hrunning b
    have hsame : s'.running b = ({ s with calls := ⟨rest, found⟩ :: calls } : CallbackState).running b := by
      rw [CallbackState.running, CallbackState.running, hacted.calls]
    dsimp only at hrefs
    split_ifs at hrefs hr <;> omega

lemma CallbackInv.step (hinv : CallbackInv lockOf s) (event : BufferEvent) (hnext : ¬ReinvokesNext s event)
    (hstep : s.step event = some s') : CallbackInv lockOf s' := by
  cases event with
  | call f =>
    cases hstep
    have hquiet := quiet_actions f
    refine .enter hinv.lock hinv.owed hinv.owners f.actions (hquiet.net lockOf) (fun b => ?_) hinv.once
    rw [count_eq_zero_of_not_mem (hquiet.kept b), hinv.refs b]
    simp
  | exec =>
    unfold CallbackState.step at hstep
    dsimp only at hstep
    split at hstep
    · cases hstep
    · rename_i found calls hcalls
      cases hstep
      have howed := hinv.owed
      rw [hcalls] at howed
      have hdepth : found = s.depth := by
        funext l
        have hl := howed.1 l
        rw [net_nil, Int.add_zero] at hl
        exact hl.symm
      refine ⟨hinv.lock, hdepth ▸ howed.2, hinv.owners, fun b => ?_, hinv.once⟩
      have hrefs := hinv.refs b
      have hrunning : s.running b = ({ s with calls := calls } : CallbackState).running b := by
        simp [CallbackState.running, hcalls]
      rw [hrunning] at hrefs
      exact hrefs
    · rename_i a rest found calls hcalls
      exact hinv.exec hcalls hstep hnext
  | fire b =>
    unfold CallbackState.step at hstep
    dsimp only at hstep
    split at hstep
    · rename_i hactive
      cases hstep
      have hlater : (s.buf b).activeLater = false := by
        have honce := hinv.once b
        simpa [queuedTwice, hactive] using honce
      have hfired := Referred.modifyBuf (s := s) (b := b) (d := 1) (f := fun buf => { buf with active := false })
        ⟨rfl, by simp [otherRefs, queued, hactive, hlater], fun _ => rfl⟩
      refine .enter (fun b' => (hfired b').lock.trans (hinv.lock b')) hinv.owed hinv.owners _ (fun l => ?_)
        (fun b' => ?_) fun b' => (hfired b').once (hinv.once b')
      · simp only [evbufferDeferredCallbackActions, net_cons, net_nil, lockNet]
        split <;> rfl
      · rw [(hfired b').refs, hinv.refs b']
        by_cases hb : b' = b
        · simp [hb, evbufferDeferredCallbackActions, CallbackState.running, modifyBuf]
        · simp [hb, evbufferDeferredCallbackActions, Ne.symm hb, CallbackState.running, modifyBuf]
    · cases hstep
  | makeLaterActive b =>
    unfold CallbackState.step at hstep
    dsimp only at hstep
    split at hstep
    · rename_i hlater
      cases hstep
      have hq : (s.buf b).queued := by simp [queued, hlater]
      have hsame : SameRefs s (s.modifyBuf b fun buf => { buf with activeLater := false, active := true }) :=
        sameRefs_modifyBuf ⟨rfl, by simp [otherRefs, hq]; simp [queued], fun _ => rfl⟩
      exact hinv.sameRefs (sameRefs_of_bufs hsame.calls hsame.owners hsame.bufs) rfl
    · cases hstep
  | deferreds n =>
    cases hstep
    exact ⟨hinv.lock, hinv.owed, hinv.owners, hinv.refs, hinv.once⟩
  | setCallbacks b callbacks =>
    cases hstep
    exact hinv.sameRefs (sameRefs_modifyBuf ⟨rfl, (Int.add_zero _).symm, id⟩) rfl

lemma fresh_inv (hfresh : s.Fresh) : CallbackInv (fun b => (s.buf b).lock) s := by
  refine ⟨fun _ => rfl, ?_, hfresh.owners, fun b => ?_, fun b => ?_⟩
  · rw [hfresh.calls]
    trivial
  · have hrunning : s.running b = 0 := by
      rw [CallbackState.running, hfresh.calls]
      rfl
    rw [hrunning, otherRefs, hfresh.idle, hfresh.refcnt]
    simp
  · have hidle := hfresh.idle b
    rw [queued, Bool.or_eq_false_iff] at hidle
    rw [queuedTwice, hidle.1, Bool.false_and]

/-- Every function leaves the locks as it has found them and references are counted, if no function invokes
callbacks of a buffer whose deferred callback is queued. -/
theorem reached_balanced {start : CallbackState} (hfresh : start.Fresh)
    (hr : Runs.Reached CallbackState.step (fun s event => ¬ReinvokesNext s event) start s) : s.Balanced := by
  have hinv : CallbackInv (fun b => (start.buf b).lock) s := by
    apply hr.invariant (P := CallbackInv fun b => (start.buf b).lock)
    · exact fresh_inv hfresh
    · intro s event s' hs hnext hstep
      exact hs.step event hnext hstep
  exact hinv.balanced

end Inv

section OneCallback

open Runs

instance (buf : CallbackBuffer) : Decidable (Reinvoked buf) :=
  inferInstanceAs (Decidable (buf.callbacks ≠ [] ∧ buf.deferredCbs ∧ buf.queued))

instance (s : CallbackState) (event : BufferEvent) : Decidable (ReinvokesNext s event) := by
  unfold ReinvokesNext
  split
  · split <;> infer_instance
  · infer_instance

def oneCallback : CallbackState where
  buf _ :=
    { callbacks := [⟨7, true, false, false⟩], totalLen := 0, nAddForCb := 0, nDelForCb := 0, lock := some 0
      deferredCbs := true, refcnt := 1, active := false, activeLater := false }
  depth _ := 0
  nDeferredsQueued := 0
  calls := []
  owners _ := 1
  called := []

lemma oneCallback_fresh : oneCallback.Fresh := ⟨rfl, fun _ => rfl, fun _ => by simp [oneCallback], fun _ => rfl⟩

def addThenDrain : Given CallbackState.step (fun s event => ¬ReinvokesNext s event) oneCallback
    fun s => s.called = [(0, .func 7 0 3 0)] ∧ (s.buf 0).queued ∧ s.calls.length = 1 where
  events := [.call (.add 0 3 true), .exec, .exec, .exec, .exec, .exec, .fire 0, .exec, .exec,
    .call (.drain 0 3 true), .exec, .exec, .exec, .exec, .exec, .exec]
  leads := by decide +kernel

theorem reached_balanced_drain :
    ∃ s, Reached CallbackState.step (fun s event => ¬ReinvokesNext s event) oneCallback s ∧
    s.called = [(0, .func 7 0 3 0)] ∧ oneCallback.Fresh ∧ s.Balanced := by
  obtain ⟨s, hr, hs⟩ := addThenDrain.reached
  exact ⟨s, hr, (of_decide_eq_true hs).1, oneCallback_fresh, reached_balanced oneCallback_fresh hr⟩

def addTwice : Given CallbackState.step (fun _ _ => True) oneCallback
    fun s => s.calls.head?.any fun call => call.rest = [] ∧ s.depth 0 ≠ call.found 0 where
  events := [.call (.add 0 3 true), .exec, .exec, .exec, .exec, .exec, .call (.add 0 3 true), .exec, .exec, .exec,
    .exec]
  leads := by decide +kernel

theorem second_add_unbalanced : ∃ s, Reached CallbackState.step (fun _ _ => True) oneCallback s ∧
    oneCallback.Fresh ∧ ¬s.Balanced := by
  obtain ⟨s, hr, hs⟩ := addTwice.reached
  refine ⟨s, hr, oneCallback_fresh, fun hbalanced => ?_⟩
  cases hcall : s.calls.head? with
  | none =>
    rw [hcall] at hs
    cases hs
  | some call =>
    rw [hcall] at hs
    have hcond := of_decide_eq_true hs
    have hdepth := hbalanced.depth call hcall hcond.1
    rw [hdepth] at hcond
    exact hcond.2 rfl

end OneCallback

end MyLibevent.Proofs
