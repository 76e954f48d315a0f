import MyLibevent.Proofs.EventBase

/-!
# What a call leaves alone

A call for one event changes no other event and takes nothing else out of the lists of common
timeouts.
-/

namespace MyLibevent.Proofs

open EventBase FiledLists CommonTimeoutList

section Touched

variable {ε β : Type*} [DecidableEq ε] {b : EventBase ε β} {x : EventRef ε}

lemma eventCallbackActivateNolock_active (hfin : (b.ev x).finalizing = false) :
    ((b.eventCallbackActivateNolock x).ev x).flags .active := by
  rw [eventCallbackActivateNolock, if_neg (Bool.eq_false_iff.1 hfin)]
  split
  · exact eventQueueInsertActive_active
  · exact eventQueueInsertActive_active
  · assumption
  · exact eventQueueInsertActive_active

section Functions

variable (be : EventBackend β)

lemma eventDelNolock_touched : Touched x b (b.eventDelNolock be x).2 :=
  Moves.touched (eventDelNolock_moves rfl)

lemma eventDelNolock_timeout (hfin : (b.ev x).finalizing = false) :
    ((b.eventDelNolock be x).2.ev x).flags .timeout = false := by
  rw [Bool.eq_false_iff]
  intro hon
  have hoff := (Moves.touched (eventDelNolock_steps rfl hfin)).flag hon
  rw [timeout_removeTimeoutIf] at hoff
  exact Bool.false_ne_true hoff

omit be in
lemma eventActiveNolock_touched (res : Nat) : Touched x b (b.eventActiveNolock x res) :=
  Moves.touched (eventActiveNolock_moves rfl res)

lemma eventActiveNolock_active (hfin : (b.ev x).finalizing = false) (res : Nat) :
    ((b.eventActiveNolock x res).ev x).flags .active := by
  rw [eventActiveNolock, if_neg (Bool.eq_false_iff.1 hfin)]
  extract_lets orRes activate
  have hactivate : ∀ b' : EventBase ε β, (b'.ev x).finalizing = false → ((activate b').ev x).flags .active := by
    intro b' h'
    apply eventCallbackActivateNolock_active
    split
    · exact h'
    · exact h'
  have hres : ∀ f : Nat → Nat, ((b.modifyEv x fun ev => { ev with res := f ev.res }).ev x).finalizing =
      false := fun f => (field_modifyEv (f := fun ev => { ev with res := f ev.res })
        Event.finalizing fun _ => rfl).trans hfin
  split
  · exact hactivate _ hfin
  · rename_i hactive hlater
    exact (field_modifyEv (f := fun ev => { ev with res := ev.res ||| res })
      (fun ev => ev.flags .active) fun _ => rfl).trans hactive
  · exact hactivate _ (hres fun r => r ||| res)
  · exact hactivate _ (hres fun _ => res)

end Functions

end Touched

section Failed

variable {ε β : Type*} {b b' : EventBase ε β} {x : EventRef ε}

/-- Nothing but room in the heap and empty entries of the maps has been made. -/
structure OnlyReserved (b b' : EventBase ε β) : Prop where
  rest : ∃ evmap a, b' = { b with evmap := evmap, timeheap := { b.timeheap with a := a } }
  io : b'.evmap.ioEntry = b.evmap.ioEntry
  signals : b'.evmap.sigListed = b.evmap.sigListed
  backend : b'.evmap.evsel = b.evmap.evsel

/-- A backend that cannot add a condition leaves itself unchanged. -/
def FailsUnchanged (op : Eventop β) : Prop :=
  ∀ s fd old ev, (op.add s fd old ev).1 = -1 → (op.add s fd old ev).2 = s

variable [DecidableEq ε] (be : EventBackend β)

omit [DecidableEq ε] in
lemma evmapAdd_failed (hio : FailsUnchanged be.evsel) (hsig : FailsUnchanged be.evsigsel) (alloc : EvmapAlloc)
    {r : Int × EvmapBase (EventRef ε) β} (hfit : (b.ev x).fd < 2 ^ 28)
    (hr : r = if (b.ev x).events.io.any then
      b.evmap.evmapIoAdd be.evsel be.debugMode b.evEvents alloc (b.ev x).fd x
      else b.evmap.evmapSignalAdd be.evsigsel alloc (b.ev x).fd.toNat x) (hfail : r.1 = -1) :
    r.2.ioEntry = b.evmap.ioEntry ∧ r.2.sigListed = b.evmap.sigListed ∧ r.2.evsel = b.evmap.evsel := by
  have hlisted : r.2.sigListed = b.evmap.sigListed := by
    rcases evmapAdd_listed be alloc hfit hr with h | h
    · exact h.2.2
    · exact absurd hfail h.1
  split at hr
  · subst hr
    by_cases hfd : 0 ≤ (b.ev x).fd
    · cases evmapIoAdd_outcome be.evsel be.debugMode b.evEvents alloc b.evmap _ x hfd hfit with
      | rejected _ hentry hevsel => exact ⟨hentry, hlisted, hevsel⟩
      | refused _ hentry old res _ hcall hevsel =>
        exact ⟨hentry, hlisted, hevsel.trans (hio _ _ _ _ hcall)⟩
      | listed h | enabled h => exact absurd (h.symm.trans hfail) (by decide)
    · rw [EvmapBase.evmapIoAdd, if_pos (not_le.1 hfd)] at hfail
      cases hfail
  · subst hr
    have hentry := ioEntry_congr b.evmap (b.evmap.evmapSignalAdd be.evsigsel alloc (b.ev x).fd.toNat x).2
      (by rw [io_evmapSignalAdd])
    refine ⟨hentry, hlisted, ?_⟩
    unfold EvmapBase.evmapSignalAdd at hfail ⊢
    dsimp only at hfail ⊢
    split_ifs at hfail ⊢ with hspace hnew hnil hcall
    · rfl
    · rfl
    · exact hsig _ _ _ _ hcall

lemma eventAddInserted_failed (hio : FailsUnchanged be.evsel) (hsig : FailsUnchanged be.evsigsel)
    (alloc : EvmapAlloc) (hfit : (b.ev x).fd < 2 ^ 28) (hfail : (b.eventAddInserted be alloc x).1 = -1) :
    OnlyReserved b (b.eventAddInserted be alloc x).2 := by
  unfold eventAddInserted at hfail ⊢
  extract_lets ev r b1
  extract_lets at hfail
  split at hfail
  · rename_i hcond
    rw [if_pos hcond]
    by_cases hadded : r.1 = -1
    · obtain ⟨hentry, hlisted, hevsel⟩ := evmapAdd_failed be hio hsig alloc hfit (r := r) rfl hadded
      rw [if_neg (not_not.2 hadded)]
      exact ⟨⟨r.2, b.timeheap.a, rfl⟩, hentry, hlisted, hevsel⟩
    · rw [if_pos hadded] at hfail
      split at hfail
      · cases hfail
      · exact absurd hfail hadded
  · cases hfail

omit [DecidableEq ε] in
lemma onlyReserved_reserve (n : Nat) (h : OnlyReserved { b with timeheap := b.timeheap.reserve n } b') :
    OnlyReserved b b' := by
  obtain ⟨⟨evmap, a, rfl⟩, hio, hsignals, hbackend⟩ := h
  refine ⟨⟨evmap, a, ?_⟩, hio, hsignals, hbackend⟩
  unfold MinHeap.reserve
  split <;> rfl

def refusingBackend : EventBackend Unit :=
  let op : Eventop Unit := ⟨fun s _ _ _ => (-1, s), fun s _ _ _ => (-1, s)⟩
  ⟨op, op, false⟩

def oneReader : EventBase Unit Unit :=
  .start (fun _ => ⟨3, { io := fun k => k = .read }, false, ⟨0, 0⟩, nofun⟩) 1 () fun _ => .event ()

def farReader : EventBase Bool Unit :=
  let b : EventBase Bool Unit := .start (fun e =>
    ⟨if e then 2 ^ 28 else 3, { io := fun k => k = .read }, false, ⟨0, 0⟩, nofun⟩) 1 () fun _ => .event false
  (b.eventAddNolock quietBackend {} ⟨1, 0⟩ (.event false) none false).2

end Failed

end MyLibevent.Proofs
