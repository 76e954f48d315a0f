import MyLibevent.Poll

/-!
# The poll set and its index

A call changes the entry of one fd, which may ask for nothing while it does. Taking an entry out moves
another one, whose index follows.
-/

namespace MyLibevent.Proofs

open Pollop Function

section Calls

variable {pop : Pollop} {asks added : Int → IoSet} {fd : Int} {i : Nat}

structure Asks (fd : Int) (pop : Pollop) (asks : Int → IoSet) : Prop where
  index : ∀ g i, pop.idxplus1 g = i + 1 ↔ i < pop.nfds ∧ (pop.eventSet i).fd = g
  events : ∀ i < pop.nfds, (pop.eventSet i).events = asks (pop.eventSet i).fd
  nonempty : ∀ i < pop.nfds, (pop.eventSet i).fd ≠ fd → (pop.eventSet i).events ≠ IoSet.empty
  all : ∀ g, pop.idxplus1 g = 0 → asks g = IoSet.empty
  asserted : pop.asserted

lemma Asks.exact (h : Asks fd pop fun g => readsWrites (added g))
    (hfd : pop.idxplus1 fd ≠ 0 → readsWrites (added fd) ≠ IoSet.empty) : PollRun.Exact ⟨pop, added⟩ where
  fds i hi j hj heq := by
    have h1 := (h.index (pop.eventSet i).fd i).2 ⟨hi, rfl⟩
    have h2 := (h.index (pop.eventSet i).fd j).2 ⟨hj, heq.symm⟩
    omega
  idxplus1 := h.index
  events := h.events
  nonempty i hi := by
    by_cases hself : (pop.eventSet i).fd = fd
    · rw [h.events i hi, hself]
      exact hfd (by rw [(h.index fd i).2 ⟨hi, hself⟩]; exact Nat.succ_ne_zero i)
    · exact h.nonempty i hi hself
  all := h.all
  asserted := h.asserted

lemma asks_of_exact (h : PollRun.Exact ⟨pop, added⟩) (fd : Int) : Asks fd pop fun g => readsWrites (added g) :=
  ⟨h.idxplus1, h.events, fun i hi _ => h.nonempty i hi, h.all, h.asserted⟩

section

variable (h : Asks fd pop asks)
include h

lemma Asks.events_eq (hidx : pop.idxplus1 fd = i + 1) : (pop.eventSet i).events = asks fd := by
  obtain ⟨hi, rfl⟩ := (h.index fd i).1 hidx
  exact h.events i hi

lemma Asks.makeRoom {alloc : Bool} {pop' : Pollop}
    (hroom : pop.makeRoom alloc = some pop') : Asks fd pop' asks := by
  unfold Pollop.makeRoom at hroom
  split at hroom
  · split at hroom <;> cases hroom
    exact ⟨h.index, h.events, h.nonempty, h.all, h.asserted⟩
  · cases hroom
    exact h

lemma Asks.newEntry (hnew : pop.idxplus1 fd = 0) : Asks fd (pop.newEntry fd) asks := by
  obtain ⟨hindex, hevents, hnonempty, hall, hasserted⟩ := h
  unfold Pollop.newEntry
  constructor
  · intro g j
    simp only [update_apply]
    grind
  all_goals
    simp only [update_apply]
    grind

lemma Asks.setEvents (hidx : pop.idxplus1 fd = i + 1) (events : IoSet) :
    Asks fd (pop.setEvents i events) (update asks fd events) := by
  obtain ⟨hi, hfd⟩ := (h.index fd i).1 hidx
  obtain ⟨hindex, hevents, hnonempty, hall, hasserted⟩ := h
  unfold Pollop.setEvents
  constructor
  all_goals
    simp only [update_apply]
    grind

/-- The last entry takes the place of the one that goes. -/
lemma Asks.removeEntry (hidx : pop.idxplus1 fd = i + 1) (hnone : asks fd = IoSet.empty) :
    Asks fd (pop.removeEntry fd i) asks ∧ (pop.removeEntry fd i).idxplus1 fd = 0 := by
  obtain ⟨hi, hfd⟩ := (h.index fd i).1 hidx
  obtain ⟨hindex, hevents, hnonempty, hall, hasserted⟩ := h
  unfold Pollop.removeEntry
  extract_lets pop1 moved
  split
  · refine ⟨?_, update_self ..⟩
    constructor
    · intro g j
      have hg := hindex g j
      simp only [pop1, update_apply]
      grind
    all_goals
      simp only [pop1, update_apply]
      grind
  · have hmoved : moved.fd ≠ fd := by grind
    constructor
    · constructor
      · intro g j
        simp only [pop1, update_apply]
        grind
      all_goals
        simp only [pop1, update_apply]
        grind
    · simp [pop1, update_of_ne hmoved.symm]

end

lemma readsWrites_update (want : IoSet) : (fun g => readsWrites (update added fd want g)) =
    update (fun g => readsWrites (added g)) fd (readsWrites want) :=
  funext fun g => apply_update (fun _ => readsWrites) added fd want g

lemma Asks.changed (h : Asks fd pop fun g => readsWrites (added g)) (hidx : pop.idxplus1 fd = i + 1) (want : IoSet) :
    Asks fd (pop.setEvents i (readsWrites want)) fun g => readsWrites (update added fd want g) := by
  rw [readsWrites_update]
  exact h.setEvents hidx _

/-- A call about neither reads nor writes leaves the set as it is. -/
lemma exact_of_readsWrites (h : PollRun.Exact ⟨pop, added⟩) {want : IoSet}
    (hsame : readsWrites want = readsWrites (added fd)) : PollRun.Exact ⟨pop, update added fd want⟩ := by
  have heq : (fun g => readsWrites (update added fd want g)) = fun g => readsWrites (added g) := by
    rw [readsWrites_update, hsame, update_eq_self fd fun g => readsWrites (added g)]
  have h1 := asks_of_exact h fd
  refine Asks.exact (heq ▸ h1) fun hne => ?_
  obtain ⟨i, hi⟩ := Nat.exists_eq_succ_of_ne_zero hne
  rw [update_self, hsame, ← h1.events_eq hi]
  exact h.nonempty i ((h.idxplus1 fd i).1 hi).1

lemma readsWrites_union (a b : IoSet) : readsWrites (a.union b) = (readsWrites a).union (readsWrites b) :=
  funext fun _ => Bool.and_or_distrib_right _ _ _

lemma readsWrites_diff (a b : IoSet) : readsWrites (a.diff b) = (readsWrites a).diff (readsWrites b) := by
  funext k
  unfold readsWrites IoSet.diff
  grind

lemma pollAdd_spec (h : PollRun.Exact ⟨pop, added⟩) (alloc : Bool) (fd : Int) (events : IoSet) :
    pop.pollAdd alloc fd events = (-1, pop) ∨ ∃ pop', pop.pollAdd alloc fd events = (0, pop') ∧
      PollRun.Exact ⟨pop', update added fd ((added fd).union events)⟩ := by
  unfold pollAdd
  split_ifs with hany
  · refine .inr ⟨pop, rfl, exact_of_readsWrites h ?_⟩
    rw [readsWrites_union, (IoSet.any_eq_false_iff _).1 hany, IoSet.union_empty]
  cases hroom : pop.makeRoom alloc with
  | none => exact .inl rfl
  | some pop1 =>
    refine .inr ⟨_, rfl, ?_⟩
    have h1 := (asks_of_exact h fd).makeRoom hroom
    obtain ⟨pop2, i, hpop2, h2, hi⟩ : ∃ pop2 i, (if pop1.idxplus1 fd = 0 then pop1.newEntry fd else pop1) = pop2 ∧
        Asks fd pop2 (fun g => readsWrites (added g)) ∧ pop2.idxplus1 fd = i + 1 := by
      by_cases hnew : pop1.idxplus1 fd = 0
      · exact ⟨_, pop1.nfds, if_pos hnew, h1.newEntry hnew, update_self ..⟩
      · obtain ⟨i, hi⟩ := Nat.exists_eq_succ_of_ne_zero hnew
        exact ⟨_, i, if_neg hnew, h1, hi⟩
    rw [hpop2, hi, Nat.add_sub_cancel, h2.events_eq hi, ← readsWrites_union]
    refine (h2.changed hi _).exact fun _ hempty => hany ((IoSet.any_eq_false_iff _).2 (funext fun k => ?_))
    have hk := congrFun hempty k
    rw [update_self, readsWrites_union] at hk
    exact (Bool.or_eq_false_iff.1 hk).2

lemma pollDel_spec (h : PollRun.Exact ⟨pop, added⟩) (fd : Int) (events : IoSet) :
    pop.pollDel fd events = (-1, pop) ∨ ∃ pop', pop.pollDel fd events = (0, pop') ∧
      PollRun.Exact ⟨pop', update added fd ((added fd).diff events)⟩ := by
  unfold pollDel
  split
  · rename_i hany
    refine .inr ⟨pop, rfl, exact_of_readsWrites h ?_⟩
    rw [readsWrites_diff, (IoSet.any_eq_false_iff _).1 hany, IoSet.diff_empty]
  split
  · exact .inl rfl
  rename_i hzero
  refine .inr ⟨_, rfl, ?_⟩
  obtain ⟨i, hi⟩ := Nat.exists_eq_succ_of_ne_zero hzero
  have h1 := asks_of_exact h fd
  rw [hi, Nat.succ_sub_one, h1.events_eq hi, ← readsWrites_diff]
  have h2 := h1.changed hi ((added fd).diff events)
  have hevents := h2.events_eq hi
  split_ifs with hleft
  · refine h2.exact fun _ hempty => ?_
    rw [hevents, (IoSet.any_eq_false_iff _).2 hempty] at hleft
    cases hleft
  · rw [hevents, Bool.not_eq_true, IoSet.any_eq_false_iff] at hleft
    obtain ⟨h3, hleft⟩ := h2.removeEntry hi hleft
    exact h3.exact fun hne => absurd hleft hne

lemma pollStep_exact {r : PollRun} (h : r.Exact) (call : PollCall) : (r.step call).Exact := by
  cases call with
  | add alloc fd events =>
    simp only [PollRun.step]
    obtain heq | ⟨pop', heq, h'⟩ := pollAdd_spec h alloc fd events
    · rw [heq]
      exact h
    · rw [heq]
      exact h'
  | del fd events =>
    simp only [PollRun.step]
    obtain heq | ⟨pop', heq, h'⟩ := pollDel_spec h fd events
    · rw [heq]
      exact h
    · rw [heq]
      exact h'

lemma pollRun_exact_of {r : PollRun} (h : r.Exact) (calls : List PollCall) : (r.run calls).Exact := by
  induction calls generalizing r with
  | nil => exact h
  | cons call calls ih => exact ih (pollStep_exact h call)

end Calls

lemma pollAdd_alloc (pop : Pollop) (fd : Int) (events : IoSet) : (pop.pollAdd true fd events).1 = 0 := by
  unfold pollAdd makeRoom
  simp only [if_true]
  split_ifs <;> rfl

/-- Whatever is added and deleted in whatever order, the poll set and its index stay exact. With memory
an fd can be added. -/
theorem pollRun_exact (eventSet : Nat → Pollfd) (calls : List PollCall) :
    ((PollRun.init eventSet).run calls).Exact ∧
      ∀ fd events, (((PollRun.init eventSet).run calls).pop.pollAdd true fd events).1 = 0 := by
  have hinit : (PollRun.init eventSet).Exact := ⟨nofun, fun _ _ => ⟨nofun, nofun⟩, nofun, nofun, fun _ _ => rfl, rfl⟩
  exact ⟨pollRun_exact_of hinit calls, pollAdd_alloc _⟩

/-- Of two fds the first is deleted, and the second has its place. -/
theorem pollRun_exact_two :
    let r := (PollRun.init fun _ => ⟨0, IoSet.empty⟩).run [.add true 3 fun k => k == .read,
      .add true 4 fun k => k == .write, .del 3 fun k => k == .read]
    r.Exact ∧ r.pop.nfds = 1 ∧ (r.pop.eventSet 0).fd = 4 :=
  ⟨(pollRun_exact _ _).1, by decide, by decide⟩

end MyLibevent.Proofs
