import MyLibevent.Changelist

/-!
# Coalesced changes are the changes

At every moment the pending entries, applied to what the backend held after the last commit,
give what it would hold had every call been applied at once.
-/

namespace MyLibevent.Proofs

open EventChangelist List Function

section Index

variable {α : Type*} {l : List α} {idx : α → Nat}

def IndexOf (l : List α) (idx : α → Nat) : Prop := ∀ a i, idx a = i + 1 ↔ l[i]? = some a

lemma IndexOf.nodup (h : IndexOf l idx) : l.Nodup := by
  rw [nodup_iff_getElem?_ne_getElem?]
  intro i j hij hj heq
  have hsome : l[j]? = some (l[j]) := getElem?_eq_getElem hj
  have hi := (h _ i).2 (heq.trans hsome)
  have hj := (h _ j).2 hsome
  omega

lemma IndexOf.pos_iff_mem (h : IndexOf l idx) (a : α) : idx a ≠ 0 ↔ a ∈ l := by
  rw [mem_iff_getElem?]
  constructor
  · intro hne
    refine ⟨idx a - 1, (h a _).1 ?_⟩
    omega
  · intro ⟨i, hi⟩
    rw [(h a i).2 hi]
    omega

lemma IndexOf.append [DecidableEq α] (h : IndexOf l idx) (a : α) (ha : idx a = 0) :
    IndexOf (l ++ [a]) (update idx a (l.length + 1)) := by
  intro b i
  by_cases hb : b = a
  · subst b
    rw [update_self, getElem?_append]
    have hnot : l[i]? ≠ some a := by
      intro hi
      rw [(h a i).2 hi] at ha
      omega
    split <;> grind
  · rw [update_of_ne hb, h b i, getElem?_append]
    split <;> grind

end Index

variable (changes : List EventChange)

lemma map_fd_modify (f : EventChange → EventChange) (hf : ∀ ch, (f ch).fd = ch.fd) (i : Nat) :
    (changes.modify i f).map EventChange.fd = changes.map EventChange.fd := by
  apply ext_getElem?
  intro j
  simp only [getElem?_map, getElem?_modify]
  cases changes[j]? with
  | none => simp
  | some ch =>
    by_cases hij : i = j
    · simp [hij, hf]
    · simp [hij]

/-- What relates a pending entry to the backend and to the interest sets it stands for: it
remembers what the backend holds, and its three changes lead from there to what is wanted. -/
structure EntryAgrees (held want : IoSet) (ch : EventChange) : Prop where
  old : ch.oldEvents = { io := held }
  io : (ch.change .read).isSignal = false
  agree : ∀ k, (ch.change k).apply (held k) = want k

variable {held want : IoSet} {ch : EventChange} {s : ChangelistRun}

lemma EntryAgrees.recordAdd (h : EntryAgrees held want ch) (io : IoSet) (et persist : Bool) :
    EntryAgrees held (want.union io) (recordAdd { io := io, et := et, persist := persist } ch) := by
  constructor
  · exact h.old
  · simp only [EventChangelist.recordAdd]
    split
    · rfl
    · exact h.io
  · intro k
    have htouch : touches { io := io, et := et, persist := persist } k = io k := by
      cases k <;> simp [touches]
    simp only [EventChangelist.recordAdd, htouch, IoSet.union, ← h.agree k]
    cases io k <;> simp [Change.apply]

lemma EntryAgrees.recordDel (h : EntryAgrees held want ch) (io : IoSet) :
    EntryAgrees held (want.diff io) (recordDel { io := io } ch) := by
  have htouch : ∀ a k, touches { io := a } k = a k := by
    intro a k
    cases k <;> simp [touches]
  constructor
  · exact h.old
  · simp only [EventChangelist.recordDel]
    split
    · split <;> rfl
    · exact h.io
  · intro k
    simp only [EventChangelist.recordDel, h.old, htouch, IoSet.diff, ← h.agree k]
    cases io k <;> cases hheld : held k <;> simp [Change.apply]

structure ChangelistInv (s : ChangelistRun) : Prop where
  index : IndexOf (s.cl.changes.map EventChange.fd) (fun fd => s.cl.idxplus1 (.io fd))
  entries : ∀ ch ∈ s.cl.changes, EntryAgrees (s.backend ch.fd) (s.immediate ch.fd) ch
  absent : ∀ fd, fd ∉ s.cl.changes.map EventChange.fd → s.immediate fd = s.backend fd

lemma changelistInit_inv (held : Int → IoSet) : ChangelistInv (.init held) := by
  constructor
  · intro fd i
    simp [ChangelistRun.init, EventChangelist.init]
  · simp [ChangelistRun.init, EventChangelist.init]
  · intro fd _
    rfl

lemma getOrConstruct_inv (h : ChangelistInv s) (alloc : Bool) (fd : Int) {cl : EventChangelist}
    {idx : Nat}
    (hget : s.cl.getOrConstruct alloc fd { io := s.immediate fd } (.io fd) = some (cl, idx)) :
    ChangelistInv { s with cl := cl } ∧ (cl.changes.map EventChange.fd)[idx]? = some fd := by
  unfold getOrConstruct at hget
  split at hget
  · rename_i hzero
    split at hget
    · cases hget
    · cases hget
      have hnew : fd ∉ s.cl.changes.map EventChange.fd := by
        rw [← h.index.pos_iff_mem fd]
        simpa using hzero
      refine ⟨⟨?_, ?_, ?_⟩, by simp⟩
      · have happ := h.index.append fd hzero
        have hupdate : (fun fd' => update s.cl.idxplus1 (.io fd)
            (s.cl.changes.length + 1) (.io fd')) =
            update (fun fd' => s.cl.idxplus1 (.io fd')) fd (s.cl.changes.length + 1) := by
          funext fd'
          by_cases heq : fd' = fd <;> simp [update, heq]
        simpa [hupdate] using happ
      · intro ch hch
        simp only [mem_append, mem_singleton] at hch
        cases hch with
        | inl hch => exact h.entries ch hch
        | inr hch =>
          subst hch
          have heq := h.absent fd hnew
          exact ⟨by simp [heq], rfl, by simp [Change.apply, heq]⟩
      · intro fd' hfd'
        apply h.absent
        intro hmem
        apply hfd'
        simp [hmem]
  · rename_i hne
    cases hget
    have hpos : s.cl.idxplus1 (.io fd) = s.cl.idxplus1 (.io fd) - 1 + 1 := by omega
    exact ⟨h, (h.index fd _).1 hpos⟩

lemma modify_inv (h : ChangelistInv s) (fd : Int) (idx : Nat)
    (hidx : (s.cl.changes.map EventChange.fd)[idx]? = some fd) (f : EventChange → EventChange)
    (hf : ∀ ch, (f ch).fd = ch.fd) (want : IoSet)
    (hwant : ∀ ch, EntryAgrees (s.backend fd) (s.immediate fd) ch → EntryAgrees (s.backend fd) want (f ch)) :
    ChangelistInv { s with
      cl := { s.cl with changes := s.cl.changes.modify idx f }
      immediate := update s.immediate fd want } := by
  have hmap := map_fd_modify s.cl.changes f hf idx
  constructor
  · simpa only [hmap] using h.index
  · intro ch hch
    obtain ⟨j, hj⟩ := mem_iff_getElem?.1 hch
    rw [getElem?_modify] at hj
    cases hjth : s.cl.changes[j]? with
    | none => simp [hjth] at hj
    | some ch0 =>
      have hmem : ch0 ∈ s.cl.changes := mem_of_getElem? hjth
      have hfd0 : (s.cl.changes.map EventChange.fd)[j]? = some ch0.fd := by simp [hjth]
      by_cases hij : idx = j
      · subst hij
        have hch : f ch0 = ch := by simpa [hjth] using hj
        have heq : ch0.fd = fd := by simpa [hfd0] using hidx
        subst hch
        dsimp only
        rw [hf, heq, update_self]
        apply hwant
        rw [← heq]
        exact h.entries ch0 hmem
      · have hch : ch0 = ch := by simpa [hjth, hij] using hj
        subst hch
        have hne : ch0.fd ≠ fd := by
          intro heq
          have h1 := (h.index fd idx).2 hidx
          have h2 := (h.index fd j).2 (heq ▸ hfd0)
          omega
        dsimp only
        rw [update_of_ne hne]
        exact h.entries ch0 hmem
  · intro fd' hfd'
    dsimp only at hfd' ⊢
    rw [hmap] at hfd'
    have hne : fd' ≠ fd := by
      intro heq
      exact hfd' (heq ▸ mem_of_getElem? hidx)
    rw [update_of_ne hne]
    exact h.absent fd' hfd'

lemma clearIdxplus1_of_mem (idxplus1 : Fdinfo → Nat) (f : Fdinfo)
    (hf : idxplus1 f = 0 ∨ f ∈ changes.map getFdinfo) : clearIdxplus1 changes idxplus1 f = 0 := by
  unfold clearIdxplus1
  induction changes generalizing idxplus1 with
  | nil => simpa using hf
  | cons ch changes ih =>
    rw [foldl_cons]
    apply ih
    by_cases heq : f = getFdinfo ch
    · left
      simp [heq]
    · simpa [update, heq] using hf

lemma applyChanges_of_notMem (held : Int → IoSet) (fd : Int)
    (hfd : fd ∉ changes.map EventChange.fd) : applyChanges changes held fd = held fd := by
  unfold applyChanges
  induction changes generalizing held with
  | nil => rfl
  | cons ch changes ih =>
    simp only [map_cons, mem_cons, not_or] at hfd
    rw [foldl_cons, ih _ hfd.2]
    simp [EventChange.apply, hfd.1]

lemma applyChanges_of_mem (held : Int → IoSet)
    (hnodup : (changes.map EventChange.fd).Nodup) (ch : EventChange) (hch : ch ∈ changes) :
    applyChanges changes held ch.fd = fun k => (ch.change k).apply (held ch.fd k) := by
  induction changes generalizing held with
  | nil => cases hch
  | cons ch' changes ih =>
    rw [map_cons, nodup_cons] at hnodup
    have hstep : applyChanges (ch' :: changes) held = applyChanges changes (ch'.apply held) := rfl
    rw [hstep]
    cases hch with
    | head =>
      rw [applyChanges_of_notMem _ _ _ hnodup.1]
      simp [EventChange.apply]
    | tail _ hch =>
      have hne : ch.fd ≠ ch'.fd := by
        intro heq
        exact hnodup.1 (heq ▸ mem_map_of_mem hch)
      rw [ih _ hnodup.2 hch]
      simp [EventChange.apply, hne]

lemma ChangelistInv.applyChanges_eq (h : ChangelistInv s) : applyChanges s.cl.changes s.backend = s.immediate := by
  funext fd k
  by_cases hmem : fd ∈ s.cl.changes.map EventChange.fd
  · obtain ⟨ch, hch, heq⟩ := mem_map.1 hmem
    subst heq
    rw [applyChanges_of_mem _ _ h.index.nodup ch hch]
    exact (h.entries ch hch).agree k
  · rw [applyChanges_of_notMem _ _ _ hmem, h.absent fd hmem]

lemma commit_inv (h : ChangelistInv s) : ChangelistInv (s.step .commit) := by
  have hclear : ∀ fd, clearIdxplus1 s.cl.changes s.cl.idxplus1 (.io fd) = 0 := by
    intro fd
    apply clearIdxplus1_of_mem
    by_cases hzero : s.cl.idxplus1 (.io fd) = 0
    · exact Or.inl hzero
    · right
      obtain ⟨ch, hch, heq⟩ := mem_map.1 ((h.index.pos_iff_mem fd).1 hzero)
      rw [mem_map]
      refine ⟨ch, hch, ?_⟩
      simp [getFdinfo, (h.entries ch hch).io, heq]
  constructor
  · intro fd i
    simp [ChangelistRun.step, EventChangelist.removeAll, hclear]
  · simp [ChangelistRun.step, EventChangelist.removeAll]
  · intro fd _
    exact (congrFun h.applyChanges_eq fd).symm

omit changes in
lemma lacksRoom_eq (alloc : Bool) (cl : EventChangelist) (fd : Int) (old : EvEvents) (fdinfo : Fdinfo) :
    cl.lacksRoom alloc fdinfo = (cl.getOrConstruct alloc fd old fdinfo).isNone := by
  rw [getOrConstruct, lacksRoom]
  split_ifs with hzero hfull
  · exact decide_eq_true ⟨hzero, hfull⟩
  · exact decide_eq_false fun h => hfull h.2
  · exact decide_eq_false fun h => hzero h.1

lemma changelistStep_inv (h : ChangelistInv s) (call : ChangelistCall) : ChangelistInv (s.step call) := by
  cases call with
  | add alloc fd io et persist =>
    have hroom := lacksRoom_eq alloc s.cl fd { io := s.immediate fd } (.io fd)
    cases hget : s.cl.getOrConstruct alloc fd { io := s.immediate fd } (.io fd) with
    | none => simpa [ChangelistRun.step, eventChangelistAdd, hget, hroom] using h
    | some r =>
      obtain ⟨hinv, hidx⟩ := getOrConstruct_inv h alloc fd hget
      have hrecord := modify_inv hinv fd r.2 hidx (recordAdd _) (fun _ => rfl) _
        (fun ch hch => hch.recordAdd io et persist)
      simpa [ChangelistRun.step, eventChangelistAdd, hget, hroom] using hrecord
  | del alloc fd io =>
    have hroom := lacksRoom_eq alloc s.cl fd { io := s.immediate fd } (.io fd)
    cases hget : s.cl.getOrConstruct alloc fd { io := s.immediate fd } (.io fd) with
    | none => simpa [ChangelistRun.step, eventChangelistDel, hget, hroom] using h
    | some r =>
      obtain ⟨hinv, hidx⟩ := getOrConstruct_inv h alloc fd hget
      have hrecord := modify_inv hinv fd r.2 hidx (recordDel _) (fun _ => rfl) _ (fun ch hch => hch.recordDel io)
      simpa [ChangelistRun.step, eventChangelistDel, hget, hroom] using hrecord
  | commit => exact commit_inv h

lemma changelistRun_inv (h : ChangelistInv s) (calls : List ChangelistCall) : ChangelistInv (s.run calls) := by
  induction calls generalizing s with
  | nil => exact h
  | cons call calls ih => exact ih (changelistStep_inv h call)

/-- After any calls and commits, committing the pending entries gives the interest sets of immediate
application, `idxplus1` of an fd leads to its one entry, if it has one, and a call fails exactly if it lacks
the room for an entry. -/
theorem changelist_run_correct (held : Int → IoSet) (calls : List ChangelistCall) :
    let s := (ChangelistRun.init held).run calls
    (s.step .commit).backend = s.immediate ∧
    ∀ fd, (s.cl.idxplus1 (.io fd) ≠ 0 ↔ (s.cl.changes.map EventChange.fd).count fd = 1) ∧
      (s.cl.idxplus1 (.io fd) ≠ 0 → (s.cl.changes.map EventChange.fd)[s.cl.idxplus1 (.io fd) - 1]? = some fd) ∧
      ∀ alloc old events,
        (s.cl.eventChangelistAdd alloc fd old events (.io fd)).1 =
          (if s.cl.lacksRoom alloc (.io fd) then -1 else 0) ∧
        (s.cl.eventChangelistDel alloc fd old events (.io fd)).1 =
          if s.cl.lacksRoom alloc (.io fd) then -1 else 0 := by
  intro s
  have h : ChangelistInv s := changelistRun_inv (changelistInit_inv held) calls
  refine ⟨h.applyChanges_eq, ?_⟩
  intro fd
  refine ⟨?_, ?_, ?_⟩
  · rw [h.index.pos_iff_mem fd]
    constructor
    · exact count_eq_one_of_mem h.index.nodup
    · intro hone
      apply count_pos_iff.1
      omega
  · intro hne
    have hpos : s.cl.idxplus1 (.io fd) = s.cl.idxplus1 (.io fd) - 1 + 1 := by omega
    exact (h.index fd _).1 hpos
  · intro alloc old events
    rw [lacksRoom_eq alloc s.cl fd old, eventChangelistAdd, eventChangelistDel]
    cases s.cl.getOrConstruct alloc fd old (.io fd) with
    | none => exact ⟨rfl, rfl⟩
    | some r => exact ⟨rfl, rfl⟩

/-- An `add` of two conditions and a `del` of one of them, committed together. -/
theorem changelist_run_add_del :
    let s := (ChangelistRun.init fun _ => IoSet.empty).run
      [.add true 3 (fun k => k != .closed) false true, .del true 3 fun k => k == .read]
    (s.step .commit).backend 3 .write ∧ (s.step .commit).backend 3 .read = false := by
  intro s
  rw [(changelist_run_correct (fun _ => IoSet.empty) _).1]
  decide

end MyLibevent.Proofs
