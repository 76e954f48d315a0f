import MyLibevent.Evmap
import MyLibevent.Lib.Runs

/-!
# Counters and backend interest of the fd map

Every counter of an fd is the number of its listed events that wait for the condition, and the backend holds
exactly the conditions some of them wait for, although it is told only about the first and the last such
event.
-/

namespace MyLibevent.Proofs

open EvmapBase Function List EventSignalMap

/-- What `evmap.c` expects of a backend that is called with the conditions it already has
enabled: `add` may fail and then enables nothing, `del` succeeds. -/
structure EventopContract {β : Type*} (op : Eventop β) (interest : β → Int → IoSet) : Prop where
  add_ok : ∀ b fd ev, (op.add b fd (interest b fd) ev).1 ≠ -1 →
    interest (op.add b fd (interest b fd) ev).2 = update (interest b) fd ((interest b fd).union ev.io)
  add_fail : ∀ b fd ev, (op.add b fd (interest b fd) ev).1 = -1 →
    interest (op.add b fd (interest b fd) ev).2 = interest b
  del_ok : ∀ b fd ev, (op.del b fd (interest b fd) ev).1 ≠ -1 ∧
    interest (op.del b fd (interest b fd) ev).2 = update (interest b) fd ((interest b fd).diff ev.io)

section Slots

variable {α : Type*}

lemma lt_grownNentries {turns nentries slot : Nat} (h : 0 < nentries) (hlt : slot < 2 ^ turns) :
    slot < grownNentries turns nentries slot := by
  suffices hmul : ∀ nentries, slot < nentries * 2 ^ turns → slot < grownNentries turns nentries slot from
    hmul _ (hlt.trans_le (Nat.le_mul_of_pos_left _ h))
  clear h hlt
  induction turns with
  | zero =>
    intro nentries hlt
    rwa [pow_zero, mul_one] at hlt
  | succ turns ih =>
    intro nentries hlt
    rw [grownNentries]
    split
    · exact ih _ (by rwa [pow_succ', ← mul_assoc] at hlt)
    · omega

lemma grownNentries_le {turns nentries slot : Nat} (h : nentries ≤ 2 * slot) :
    grownNentries turns nentries slot ≤ 2 * slot := by
  induction turns generalizing nentries with
  | zero => exact h
  | succ turns ih =>
    rw [grownNentries]
    split
    · exact ih (by omega)
    · exact h

lemma slot_grown (map : EventSignalMap α) {nentries : Nat} (hle : map.nentries ≤ nentries) :
    slot ⟨nentries, fun i => if map.nentries ≤ i ∧ i < nentries then none else map.entries i⟩ = map.slot := by
  funext j
  unfold slot
  dsimp only
  by_cases hj : j < map.nentries
  · rw [if_pos (by omega), if_neg (by omega), if_pos hj]
  · rw [if_neg hj, ite_eq_right_iff]
    intro hlt
    rw [if_pos ⟨by omega, hlt⟩]

/-- Extending a map to a slot below 2^28 fails and changes nothing, or makes room and keeps what the
slots hold. -/
lemma makeSpace_cases (space : Bool) (map : EventSignalMap α) {i : Nat} (hi : i < 2 ^ 28) :
    map.makeSpace space i = (-1, map) ∨ ∃ map', map.makeSpace space i = (0, map') ∧
      i < map'.nentries ∧ map'.slot = map.slot := by
  unfold makeSpace
  split
  · rename_i hle
    generalize hstart : (if map.nentries ≠ 0 then map.nentries else 32) = start
    have hpos : 0 < start := by
      split_ifs at hstart <;> omega
    have hgrow : i < grownNentries 31 start i := lt_grownNentries hpos (by omega)
    have hbytes : grownNentries 31 start i < 2 ^ 29 := by
      by_cases hstart' : start ≤ 2 * i
      · exact (grownNentries_le hstart').trans_lt (by omega)
      · rw [grownNentries, if_neg (by omega)]
        split_ifs at hstart <;> omega
    generalize grownNentries 31 start i = nentries at hgrow hbytes ⊢
    dsimp only
    rw [Nat.mod_eq_of_lt (by omega), if_neg (by omega)]
    split
    · exact .inl rfl
    · exact .inr ⟨_, rfl, hgrow, slot_grown map (hle.trans hgrow.le)⟩
  · exact .inr ⟨map, rfl, by omega, rfl⟩

lemma slot_setSlot (map : EventSignalMap α) (i : Nat) (x : α) (hi : i < map.nentries) :
    (map.setSlot i x).slot = update map.slot i (some x) := by
  funext j
  by_cases hj : j = i
  · subst j
    simp [setSlot, slot, hi]
  · simp [setSlot, slot, hj]

end Slots

section Entries

variable {ε β : Type*}

lemma ioEntry_of_neg (base : EvmapBase ε β) (fd : Int) (h : fd < 0) : base.ioEntry fd = EvmapIo.init := by
  simp [ioEntry, h]

@[simp]
lemma ioEntry_natCast (base : EvmapBase ε β) (fd : Nat) :
    base.ioEntry fd = (base.io.slot fd).getD EvmapIo.init := by
  simp only [ioEntry, Int.toNat_natCast, if_neg (show ¬(fd : Int) < 0 by omega)]

lemma ioEntry_congr (base base' : EvmapBase ε β) (h : base'.io.slot = base.io.slot) :
    base'.ioEntry = base.ioEntry := by
  funext fd
  simp [ioEntry, h]

lemma ioEntry_setSlot (base base' : EvmapBase ε β) (fd : Nat) (ctx : EvmapIo ε)
    (h : base'.io.slot = update base.io.slot fd (some ctx)) :
    base'.ioEntry = update base.ioEntry fd ctx := by
  funext fd'
  by_cases hneg : fd' < 0
  · have hne : fd' ≠ (fd : Int) := by omega
    simp [ioEntry, hneg, hne]
  · by_cases heq : fd' = (fd : Int)
    · subst fd'
      simp [h]
    · have hne : fd'.toNat ≠ fd := by omega
      simp [ioEntry, h, heq, hne]

end Entries

section Calls

variable {ε β : Type*} (op : Eventop β) (debugMode : Bool) (evEvents : ε → EvEvents)

/-- What a call of `evmap_io_add_` on an fd that is not negative can do to the map and the
backend. `old` and `res` are the masks of the source. -/
inductive IoAddOutcome (base : EvmapBase ε β) (fd : Int) (ev : ε) (r : Int × EvmapBase ε β) : Prop
  | rejected (hr : r.1 = -1) (hentry : r.2.ioEntry = base.ioEntry) (hevsel : r.2.evsel = base.evsel)
  | refused (hr : r.1 = -1) (hentry : r.2.ioEntry = base.ioEntry) (old res : IoSet)
      (hold : old = oldEvents (base.ioEntry fd).n)
      (hcall : (op.add base.evsel fd old { io := res, et := (evEvents ev).et }).1 = -1)
      (hevsel : r.2.evsel = (op.add base.evsel fd old { io := res, et := (evEvents ev).et }).2)
  | listed (hr : r.1 = 0)
      (hentry : r.2.ioEntry = update base.ioEntry fd
        ⟨ev :: (base.ioEntry fd).events, (countUp (base.ioEntry fd).n (evEvents ev).io).1⟩)
      (hres : (countUp (base.ioEntry fd).n (evEvents ev).io).2 = IoSet.empty)
      (hevsel : r.2.evsel = base.evsel)
  | enabled (hr : r.1 = 1)
      (hentry : r.2.ioEntry = update base.ioEntry fd
        ⟨ev :: (base.ioEntry fd).events, (countUp (base.ioEntry fd).n (evEvents ev).io).1⟩)
      (old res : IoSet) (hold : old = oldEvents (base.ioEntry fd).n)
      (hres : res = (countUp (base.ioEntry fd).n (evEvents ev).io).2)
      (hcall : (op.add base.evsel fd old { io := res, et := (evEvents ev).et }).1 ≠ -1)
      (hevsel : r.2.evsel = (op.add base.evsel fd old { io := res, et := (evEvents ev).et }).2)

variable (base : EvmapBase ε β)

lemma ioAddEntry_outcome (fd : Nat) (ev : ε) (hfd : fd < base.io.nentries) :
    IoAddOutcome op evEvents base fd ev (base.ioAddEntry op debugMode evEvents fd (base.ioEntry fd) ev) := by
  have hstore : ∀ (ctx : EvmapIo ε) (evsel : β), ({ base with
      io := base.io.setSlot fd ctx, evsel := evsel } : EvmapBase ε β).ioEntry = update base.ioEntry fd ctx := by
    intro ctx evsel
    apply ioEntry_setSlot
    exact slot_setSlot _ _ _ hfd
  unfold ioAddEntry
  dsimp only
  split
  · exact .rejected rfl rfl rfl
  · split
    · exact .rejected rfl rfl rfl
    · split
      · split_ifs with hcall
        · exact .refused rfl (ioEntry_congr _ _ rfl) _ _ rfl hcall rfl
        · exact .enabled rfl (hstore _ _) _ _ rfl rfl hcall rfl
      · rename_i hres
        have hempty : (countUp (base.ioEntry fd).n (evEvents ev).io).2 = IoSet.empty := by
          rw [← IoSet.any_eq_false_iff]
          simpa using hres
        exact .listed rfl (hstore _ _) hempty rfl

lemma IoAddOutcome.congr {op : Eventop β} {evEvents : ε → EvEvents} {base base' : EvmapBase ε β}
    {fd : Int} {ev : ε} {r : Int × EvmapBase ε β} (h : IoAddOutcome op evEvents base' fd ev r)
    (hentry : base'.ioEntry = base.ioEntry) (hevsel : base'.evsel = base.evsel) :
    IoAddOutcome op evEvents base fd ev r := by
  cases h with
  | rejected hr h1 h2 => exact .rejected hr (h1.trans hentry) (h2.trans hevsel)
  | refused hr h1 old res hold hcall h2 =>
    rw [hentry] at h1 hold
    rw [hevsel] at hcall h2
    exact .refused hr h1 old res hold hcall h2
  | listed hr h1 hres h2 =>
    rw [hentry] at h1 hres
    exact .listed hr h1 hres (h2.trans hevsel)
  | enabled hr h1 old res hold hres hcall h2 =>
    rw [hentry] at h1 hold hres
    rw [hevsel] at hcall h2
    exact .enabled hr h1 old res hold hres hcall h2

variable (alloc : EvmapAlloc)

lemma evmapIoAdd_outcome (base : EvmapBase ε β) (fd : Int) (ev : ε) (hfd : 0 ≤ fd) (hlt : fd < 2 ^ 28) :
    IoAddOutcome op evEvents base fd ev (base.evmapIoAdd op debugMode evEvents alloc fd ev) := by
  obtain ⟨m, rfl⟩ := Int.eq_ofNat_of_zero_le hfd
  unfold evmapIoAdd
  rw [if_neg (show ¬(m : Int) < 0 by omega), Int.toNat_natCast]
  rcases makeSpace_cases alloc.space base.io (i := m) (by omega) with hfail | ⟨io, hmade, hroom, hslots⟩
  · rw [hfail]
    exact .rejected rfl rfl rfl
  have hgrown : ({ base with io := io } : EvmapBase ε β).ioEntry = base.ioEntry := ioEntry_congr _ _ hslots
  have hfound := ioEntry_natCast { base with io := io } m
  rw [hmade]
  dsimp only
  rw [if_neg (by decide)]
  split
  · rename_i ctx hslot
    have h := ioAddEntry_outcome op debugMode evEvents { base with io := io } m ev hroom
    rw [hslot, Option.getD_some] at hfound
    rw [hfound] at h
    exact h.congr hgrown rfl
  · rename_i hslot
    split
    · exact .rejected rfl hgrown rfl
    · rw [hslot, Option.getD_none] at hfound
      have hset := slot_setSlot io m EvmapIo.init hroom
      have hentry : ({ base with io := io.setSlot m EvmapIo.init } : EvmapBase ε β).ioEntry = base.ioEntry := by
        rw [← hgrown, ioEntry_setSlot { base with io := io } _ m _ hset, ← hfound, update_eq_self]
      have hctx : EvmapIo.init = ({ base with io := io.setSlot m EvmapIo.init } : EvmapBase ε β).ioEntry m := by
        simp [hset]
      have h := ioAddEntry_outcome op debugMode evEvents
        { base with io := io.setSlot m EvmapIo.init } m ev hroom
      rw [← hctx] at h
      exact h.congr hentry rfl

lemma sigmap_evmapIoAdd (base : EvmapBase ε β) (fd : Int) (ev : ε) :
    (base.evmapIoAdd op debugMode evEvents alloc fd ev).2.sigmap = base.sigmap := by
  unfold evmapIoAdd ioAddEntry
  dsimp only
  repeat' split
  all_goals rfl

lemma io_evmapSignalAdd (base : EvmapBase ε β) (sig : Nat) (ev : ε) :
    (base.evmapSignalAdd op alloc sig ev).2.io = base.io := by
  unfold evmapSignalAdd
  dsimp only
  repeat' split
  all_goals rfl

lemma ioListed_congr {base base' : EvmapBase ε β} (h : base'.io = base.io) : base'.ioListed = base.ioListed := by
  funext fd
  simp only [ioListed, ioEntry, h]

lemma sigListed_congr {base base' : EvmapBase ε β} (h : base'.sigmap = base.sigmap) :
    base'.sigListed = base.sigListed := by
  funext sig
  simp only [sigListed, h]

lemma ioListed_update (base' : EvmapBase ε β) (fd : Int) (events : List ε) (n : IoKind → Nat)
    (h : base'.ioEntry = update base.ioEntry fd ⟨events, n⟩) :
    base'.ioListed = update base.ioListed fd events := by
  funext fd'
  by_cases hne : fd' = fd
  · subst hne
    simp [ioListed, h]
  · simp [ioListed, h, hne]

lemma evmapIoAdd_listed (base : EvmapBase ε β) (fd : Int) (ev : ε) (hfd : 0 ≤ fd) (hlt : fd < 2 ^ 28) :
    ((base.evmapIoAdd op debugMode evEvents alloc fd ev).1 = -1 ∧
      (base.evmapIoAdd op debugMode evEvents alloc fd ev).2.ioListed = base.ioListed) ∨
    ((base.evmapIoAdd op debugMode evEvents alloc fd ev).1 ≠ -1 ∧
      (base.evmapIoAdd op debugMode evEvents alloc fd ev).2.ioListed =
        update base.ioListed fd (ev :: base.ioListed fd)) := by
  cases evmapIoAdd_outcome op debugMode evEvents alloc base fd ev hfd hlt with
  | rejected hr hentry | refused hr hentry =>
    left
    refine ⟨hr, ?_⟩
    funext fd'
    simp [ioListed, hentry]
  | listed hr hentry | enabled hr hentry =>
    right
    exact ⟨by rw [hr]; decide, ioListed_update base _ fd _ _ hentry⟩

lemma sigListed_setSlot (base' : EvmapBase ε β) (sig : Nat) (events : List ε)
    (h : base'.sigmap.slot = update base.sigmap.slot sig (some events)) :
    base'.sigListed = update base.sigListed sig events := by
  funext sig'
  by_cases hne : sig' = sig
  · subst hne
    simp [sigListed, h]
  · simp [sigListed, h, hne]

lemma evmapSignalAdd_listed (base : EvmapBase ε β) (sig : Nat) (ev : ε) (hlt : sig < 2 ^ 28) :
    ((base.evmapSignalAdd op alloc sig ev).1 = -1 ∧
      (base.evmapSignalAdd op alloc sig ev).2.sigListed = base.sigListed) ∨
    ((base.evmapSignalAdd op alloc sig ev).1 ≠ -1 ∧
      (base.evmapSignalAdd op alloc sig ev).2.sigListed =
        update base.sigListed sig (ev :: base.sigListed sig)) := by
  unfold evmapSignalAdd
  rcases makeSpace_cases alloc.space base.sigmap hlt with hfail | ⟨map, hmade, hroom, hgrown⟩
  · rw [hfail]
    exact .inl ⟨rfl, rfl⟩
  have hkept : (map.setSlot sig (base.sigListed sig)).slot =
      update base.sigmap.slot sig (some (base.sigListed sig)) := by
    rw [slot_setSlot _ _ _ hroom, hgrown]
  have hstored : ((map.setSlot sig (base.sigListed sig)).setSlot sig (ev :: base.sigListed sig)).slot =
      update base.sigmap.slot sig (some (ev :: base.sigListed sig)) := by
    have hroom' : sig < (map.setSlot sig (base.sigListed sig)).nentries := hroom
    rw [slot_setSlot _ _ _ hroom', hkept, update_idem]
  have hlisted : (map.slot sig).getD [] = base.sigListed sig := by
    rw [hgrown, sigListed]
  simp only [hmade, hlisted]
  rw [if_neg (by decide)]
  split
  · left
    refine ⟨rfl, ?_⟩
    funext j
    simp only [sigListed, hgrown]
  split
  · split
    · left
      refine ⟨rfl, ?_⟩
      rw [sigListed_setSlot base _ sig _ hkept, update_eq_self]
    · exact .inr ⟨by simp, sigListed_setSlot base _ sig _ hstored⟩
  · exact .inr ⟨by simp, sigListed_setSlot base _ sig _ hstored⟩

variable [DecidableEq ε]

structure IoDelOutcome (base : EvmapBase ε β) (fd : Int) (ev : ε) (r : Int × EvmapBase ε β) :
    Prop where
  entry : r.2.ioEntry = update base.ioEntry fd
    ⟨(base.ioEntry fd).events.erase ev, (countDown (base.ioEntry fd).n (evEvents ev).io).1⟩
  evsel : ((countDown (base.ioEntry fd).n (evEvents ev).io).2 = IoSet.empty ∧
      r.2.evsel = base.evsel) ∨
    r.2.evsel = (op.del base.evsel fd (oldEvents (base.ioEntry fd).n)
      { io := (countDown (base.ioEntry fd).n (evEvents ev).io).2 }).2

lemma evmapIoDel_outcome (fd : Int) (ev : ε) (hmem : ev ∈ base.ioListed fd) :
    IoDelOutcome op evEvents base fd ev (base.evmapIoDel op evEvents fd ev) := by
  have hfd : 0 ≤ fd := by
    by_contra hneg
    simp [ioListed, ioEntry_of_neg base fd (by omega), EvmapIo.init] at hmem
  obtain ⟨m, rfl⟩ := Int.eq_ofNat_of_zero_le hfd
  have hnonneg : ¬(m : Int) < 0 := by omega
  cases hslot : base.io.slot m with
  | none => simp [ioListed, hslot, EvmapIo.init] at hmem
  | some ctx =>
    have hctx : base.ioEntry m = ctx := by simp [hslot]
    have hroom : m < base.io.nentries := by
      by_contra hge
      simp [slot, hge] at hslot
    unfold evmapIoDel
    simp only [Int.toNat_natCast, if_neg hnonneg, if_neg (show ¬base.io.nentries ≤ m by omega), hslot]
    rw [← hctx]
    split
    · constructor
      · apply ioEntry_setSlot
        exact slot_setSlot _ _ _ hroom
      · exact Or.inr rfl
    · rename_i hres
      constructor
      · apply ioEntry_setSlot
        exact slot_setSlot _ _ _ hroom
      · left
        constructor
        · rw [← IoSet.any_eq_false_iff]
          simpa using hres
        · rfl

lemma sigmap_evmapIoDel (fd : Int) (ev : ε) : (base.evmapIoDel op evEvents fd ev).2.sigmap = base.sigmap := by
  unfold evmapIoDel
  repeat' split
  all_goals rfl

lemma io_evmapSignalDel (sig : Nat) (ev : ε) : (base.evmapSignalDel op sig ev).2.io = base.io := by
  unfold evmapSignalDel
  repeat' split
  all_goals rfl

lemma evmapIoDel_listed (fd : Int) (ev : ε) (hmem : ev ∈ base.ioListed fd) :
    (base.evmapIoDel op evEvents fd ev).2.ioListed = update base.ioListed fd ((base.ioListed fd).erase ev) :=
  ioListed_update base _ fd _ _ (evmapIoDel_outcome op evEvents base fd ev hmem).entry

lemma evmapSignalDel_listed (sig : Nat) (ev : ε) (hmem : ev ∈ base.sigListed sig) :
    (base.evmapSignalDel op sig ev).2.sigListed = update base.sigListed sig ((base.sigListed sig).erase ev) := by
  cases hslot : base.sigmap.slot sig with
  | none => simp [sigListed, hslot] at hmem
  | some events =>
    have hlisted : base.sigListed sig = events := by simp [sigListed, hslot]
    have hroom : sig < base.sigmap.nentries := by
      by_contra hge
      simp [slot, hge] at hslot
    have hstored := slot_setSlot base.sigmap sig (events.erase ev) hroom
    unfold evmapSignalDel
    simp only [if_neg (show ¬base.sigmap.nentries ≤ sig by omega), hslot, hlisted]
    split <;> exact sigListed_setSlot base _ sig _ hstored

end Calls

section Invariant

variable {ε β : Type*} {op : Eventop β} {debugMode : Bool} {evFd : ε → Int}
  {evEvents : ε → EvEvents} {interest : β → Int → IoSet} {ctx : EvmapIo ε} {held : IoSet}
  {base base' start : EvmapBase ε β}

structure EntryOk (evEvents : ε → EvEvents) (ctx : EvmapIo ε) (held : IoSet) : Prop where
  counts : ∀ k, ctx.n k = ctx.events.countP (fun e => (evEvents e).io k)
  held : ∀ k, held k = ctx.events.any (fun e => (evEvents e).io k)

lemma EntryOk.held_eq (h : EntryOk evEvents ctx held) : held = oldEvents ctx.n := by
  funext k
  rw [h.held k]
  unfold oldEvents
  rw [h.counts k, Bool.eq_iff_iff]
  simp [countP_eq_zero]

lemma entryOk_init : EntryOk evEvents EvmapIo.init IoSet.empty := by
  constructor <;> intro k <;> simp [EvmapIo.init, IoSet.empty]

lemma EntryOk.add (h : EntryOk evEvents ctx held) (ev : ε) :
    EntryOk evEvents ⟨ev :: ctx.events, (countUp ctx.n (evEvents ev).io).1⟩
      (held.union (countUp ctx.n (evEvents ev).io).2) := by
  constructor
  · intro k
    simp only [countUp, countP_cons, h.counts k]
    split <;> simp
  · intro k
    rw [h.held_eq]
    simp only [IoSet.union, oldEvents, countUp, any_cons]
    rw [← h.held k, h.held_eq]
    simp only [oldEvents]
    cases (evEvents ev).io k <;> cases hn : ctx.n k <;> simp

def EvmapInv (evEvents : ε → EvEvents) (interest : β → Int → IoSet) (base : EvmapBase ε β) : Prop :=
  ∀ fd, EntryOk evEvents (base.ioEntry fd) (interest base.evsel fd)

lemma EvmapInv.update (h : EvmapInv evEvents interest base) (fd : Int) (ctx : EvmapIo ε)
    (held : IoSet) (hok : EntryOk evEvents ctx held)
    (hentry : base'.ioEntry = update base.ioEntry fd ctx)
    (hheld : interest base'.evsel = update (interest base.evsel) fd held) :
    EvmapInv evEvents interest base' := by
  intro fd'
  rw [hentry, hheld]
  by_cases heq : fd' = fd
  · subst fd'
    simpa using hok
  · simpa [heq] using h fd'

lemma EvmapInv.congr (h : EvmapInv evEvents interest base) (hentry : base'.ioEntry = base.ioEntry)
    (hheld : interest base'.evsel = interest base.evsel) : EvmapInv evEvents interest base' := by
  intro fd
  rw [hentry, hheld]
  exact h fd

lemma evmapIoAdd_inv (hop : EventopContract op interest) (h : EvmapInv evEvents interest base)
    (alloc : EvmapAlloc) (fd : Int) (ev : ε) (hlt : fd < 2 ^ 28) :
    EvmapInv evEvents interest (base.evmapIoAdd op debugMode evEvents alloc fd ev).2 := by
  by_cases hfd : 0 ≤ fd
  · have hold := (h fd).held_eq
    cases evmapIoAdd_outcome op debugMode evEvents alloc base fd ev hfd hlt with
    | rejected hr hentry hevsel =>
      apply h.congr hentry
      rw [hevsel]
    | refused hr hentry old res hold' hcall hevsel =>
      apply h.congr hentry
      rw [hevsel]
      rw [hold', ← hold] at hcall ⊢
      exact hop.add_fail _ _ _ hcall
    | listed hr hentry hres hevsel =>
      apply h.update fd _ _ ((h fd).add ev) hentry
      rw [hres, hevsel, IoSet.union_empty, update_eq_self]
    | enabled hr hentry old res hold' hres hcall hevsel =>
      apply h.update fd _ _ ((h fd).add ev) hentry
      rw [hevsel, ← hres]
      rw [hold', ← hold] at hcall ⊢
      exact hop.add_ok _ _ _ hcall
  · have hneg : fd < 0 := by omega
    simpa [evmapIoAdd, hneg] using h

structure EvmapFresh (interest : β → Int → IoSet) (start : EvmapBase ε β) : Prop where
  io : start.io.nentries = 0
  held : interest start.evsel = fun _ => IoSet.empty

lemma EvmapFresh.inv (h : EvmapFresh interest start) : EvmapInv evEvents interest start := by
  intro fd
  have hentry : start.ioEntry fd = EvmapIo.init := by
    by_cases hneg : fd < 0
    · exact ioEntry_of_neg _ _ hneg
    · simp [ioEntry, hneg, slot, h.io]
  rw [hentry, h.held]
  exact entryOk_init

variable [DecidableEq ε]

lemma EntryOk.del (h : EntryOk evEvents ctx held) (ev : ε) (hmem : ev ∈ ctx.events) :
    EntryOk evEvents ⟨ctx.events.erase ev, (countDown ctx.n (evEvents ev).io).1⟩
      (held.diff (countDown ctx.n (evEvents ev).io).2) := by
  have hcount : ∀ k, (countDown ctx.n (evEvents ev).io).1 k =
      (ctx.events.erase ev).countP (fun e => (evEvents e).io k) := by
    intro k
    rw [countP_erase]
    simp only [countDown, h.counts k, hmem, true_and]
    split <;> rfl
  constructor
  · exact hcount
  · intro k
    have hany : (ctx.events.erase ev).any (fun e => (evEvents e).io k) =
        ((countDown ctx.n (evEvents ev).io).1 k != 0) := by
      rw [hcount k, Bool.eq_iff_iff]
      simp [countP_eq_zero]
    rw [hany, h.held_eq]
    simp only [IoSet.diff, oldEvents, countDown]
    cases (evEvents ev).io k <;> rcases hn : ctx.n k with _ | _ | n <;> simp

lemma evmapIoDel_inv (hop : EventopContract op interest) (h : EvmapInv evEvents interest base)
    (fd : Int) (ev : ε) (hmem : fd < 0 ∨ ev ∈ base.ioListed fd) :
    EvmapInv evEvents interest (base.evmapIoDel op evEvents fd ev).2 := by
  cases hmem with
  | inl hneg => simpa [evmapIoDel, hneg] using h
  | inr hmem =>
    have hout := evmapIoDel_outcome op evEvents base fd ev hmem
    apply h.update fd _ _ ((h fd).del ev hmem) hout.entry
    cases hout.evsel with
    | inl hsame => rw [hsame.1, hsame.2, IoSet.diff_empty, update_eq_self]
    | inr hcall =>
      rw [hcall, ← (h fd).held_eq]
      exact (hop.del_ok _ _ _).2

lemma evmapStep_inv (hop : EventopContract op interest) (hfds : ∀ ev, evFd ev < 2 ^ 28)
    (h : EvmapInv evEvents interest base) {call : EvmapCall ε} (hcall : base.MayCall evFd call)
    (hstep : base.step op debugMode evFd evEvents call = some base') : EvmapInv evEvents interest base' := by
  cases call with
  | ioAdd alloc ev =>
    cases hstep
    exact evmapIoAdd_inv hop h alloc _ ev (hfds ev)
  | ioDel ev =>
    cases hstep
    exact evmapIoDel_inv hop h _ ev hcall

/-- After any calls for fds below 2^28, with failures of allocations and of the backend's `add` at any of
them, the counters of every fd count its listed events and the backend holds the union of what they wait for.
-/
theorem evmap_reachable_correct (hop : EventopContract op interest) (hfds : ∀ ev, evFd ev < 2 ^ 28)
    {start base : EvmapBase ε β} (hstart : EvmapFresh interest start)
    (h : Runs.Reached (EvmapBase.step op debugMode evFd evEvents) (EvmapBase.MayCall evFd) start base)
    (fd : Int) :
    (base.ioEntry fd).nread = ((base.ioListed fd).filter (fun e => (evEvents e).io .read)).length ∧
    (base.ioEntry fd).nwrite = ((base.ioListed fd).filter (fun e => (evEvents e).io .write)).length ∧
    (base.ioEntry fd).nclose = ((base.ioListed fd).filter (fun e => (evEvents e).io .closed)).length ∧
    ∀ k, interest base.evsel fd k ↔ ∃ e ∈ base.ioListed fd, (evEvents e).io k := by
  have hinv : EvmapInv evEvents interest base :=
    h.invariant hstart.inv fun _ _ _ h hcall hstep => evmapStep_inv hop hfds h hcall hstep
  have hok := hinv fd
  have hcounts : ∀ k, (base.ioEntry fd).n k = ((base.ioListed fd).filter (fun e => (evEvents e).io k)).length := by
    intro k
    rw [hok.counts k, countP_eq_length_filter]
    rfl
  refine ⟨hcounts .read, hcounts .write, hcounts .closed, ?_⟩
  intro k
  rw [hok.held k, any_eq_true]
  rfl

def levelEventop : Eventop (Int → IoSet) where
  add b fd _ ev :=
    if ev.et then (-1, b) else (0, update b fd ((b fd).union ev.io))
  del b fd _ ev := (0, update b fd ((b fd).diff ev.io))

lemma levelEventop_contract : EventopContract levelEventop (fun b => b) := by
  constructor <;> intro b fd ev <;> simp only [levelEventop]
  · split <;> simp
  · split <;> simp
  · simp

def twoReaders (e : Bool) : EvEvents := { io := fun k => k == .read, et := e }

instance (evFd : ε → Int) (base : EvmapBase ε β) (call : EvmapCall ε) : Decidable (base.MayCall evFd call) := by
  cases call <;> unfold EvmapBase.MayCall <;> infer_instance

def twoReadersStart : EvmapBase Bool (Int → IoSet) :=
  ⟨.initmap fun _ => none, .initmap fun _ => none, fun _ => IoSet.empty⟩

/-- Two readers of fd 3. The edge-triggered one comes second and is not reported to the backend;
when the first one leaves, reading stays enabled. -/
def twoReadersRun : Runs.Given (EvmapBase.step levelEventop false (fun _ => 3) twoReaders)
    (EvmapBase.MayCall fun _ => 3) twoReadersStart fun base => base.ioListed 3 == [true] where
  events := [.ioAdd {} false, .ioAdd {} true, .ioDel false]
  leads := by decide +kernel

theorem evmap_two_readers : ∃ base : EvmapBase Bool (Int → IoSet),
    base.ioListed 3 = [true] ∧ (base.ioEntry 3).nread = 1 ∧ base.evsel 3 .read := by
  obtain ⟨base, hr, hlist⟩ := twoReadersRun.reached
  have hleft : base.ioListed 3 = [true] := beq_iff_eq.mp hlist
  have h := evmap_reachable_correct levelEventop_contract (fun _ => by decide) ⟨rfl, rfl⟩ hr 3
  rw [hleft] at h
  exact ⟨base, hleft, h.1, (h.2.2.2 .read).2 ⟨true, by simp, rfl⟩⟩

def farFd (e : Bool) : Int := if e then 2 ^ 28 else 3

def farRun : Runs.Given (EvmapBase.step levelEventop false farFd twoReaders) (EvmapBase.MayCall farFd)
    twoReadersStart fun base => base.ioListed 3 == [] && base.evsel 3 .read where
  events := [.ioAdd {} false, .ioAdd {} true]
  leads := by decide +kernel

/-- The reader of fd 3 is lost when an event is added for fd 2^28, and the backend still waits. -/
theorem evmap_entries_lost : ∃ base : EvmapBase Bool (Int → IoSet),
    Runs.Reached (EvmapBase.step levelEventop false farFd twoReaders) (EvmapBase.MayCall farFd)
      twoReadersStart base ∧ base.ioListed 3 = [] ∧ base.evsel 3 .read := by
  obtain ⟨base, hr, hlost⟩ := farRun.reached
  rw [Bool.and_eq_true, beq_iff_eq] at hlost
  exact ⟨base, hr, hlost⟩

end Invariant

end MyLibevent.Proofs
