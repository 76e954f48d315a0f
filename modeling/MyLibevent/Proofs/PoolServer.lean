import MyLibevent.PoolServer
import MyLibevent.Lib.Runs

/-!
# Handing connections to the thread pool: slots that are stored to too early

A connection waits in the slot of its worker until the worker has read it. If the next one is stored only
after that, each worker registers the connections it is given; otherwise the one that waits is lost.
-/

namespace MyLibevent.Proofs
open Runs PoolServer Function List

def ofThread (tid : Fin threadNum) (l : List (Fin threadNum × Nat)) : List Nat :=
  (l.filter fun p => p.1 = tid).map Prod.snd

section OfThread

variable {tid tid' : Fin threadNum} {l l' : List (Fin threadNum × Nat)} {fd : Nat}

lemma ofThread_append_self : ofThread tid (l ++ [(tid, fd)]) = ofThread tid l ++ [fd] := by
  simp [ofThread]

lemma ofThread_append_of_ne (h : tid' ≠ tid) : ofThread tid' (l ++ [(tid, fd)]) = ofThread tid' l := by
  simp [ofThread, h.symm]

lemma count_ofThread : (ofThread tid l).count fd = l.count (tid, fd) := by
  induction l with
  | nil => rfl
  | cons p l ih =>
    obtain ⟨tid', fd'⟩ := p
    unfold ofThread at ih ⊢
    by_cases htid : tid' = tid
    · rw [filter_cons_of_pos (by simpa using htid), map_cons, count_cons, ih, count_cons]
      simp [htid]
    · rw [filter_cons_of_neg (by simpa using htid), ih, count_cons]
      simp [htid]

lemma perm_of_ofThread (h : ∀ tid, ofThread tid l = ofThread tid l') : l.Perm l' := by
  rw [perm_iff_count]
  rintro ⟨tid, fd⟩
  rw [← count_ofThread, h tid, count_ofThread]

end OfThread

def loadedFd : ProcessState → List Nat
  | .loaded fd => [fd]
  | _ => []

/-- A connection waits in the slot of a worker that `accept_cb` is about to wake, that has a byte to
read or that has read one. -/
def waitingFd (waking : Bool) (thread : PoolWorker) : List Nat :=
  if waking ∨ 0 < thread.wakeups ∨ thread.process = .woken then [thread.fConnect] else []

/-- The connections a worker was given are those it has registered, the one it has read from its
slot and the one that waits there; only one can wait. -/
structure ThreadInv (waking : Bool) (thread : PoolWorker) (given registered : List Nat) : Prop where
  stored : waking → thread.wakeups = 0 ∧ thread.process ≠ .woken
  wakeups : thread.wakeups ≤ 1
  woken : thread.process = .woken → thread.wakeups = 0
  handed : given = registered ++ loadedFd thread.process ++ waitingFd waking thread

section Thread

variable {thread : PoolWorker} {given registered : List Nat} {fd : Nat} {waking : Bool}

lemma ThreadInv.accept (h : ThreadInv false thread given registered) (hwakeups : thread.wakeups = 0)
    (hwoken : thread.process ≠ .woken) :
    ThreadInv true { thread with fConnect := fd } (given ++ [fd]) registered := by
  have hfree : waitingFd false thread = [] := by
    simp [waitingFd, hwakeups, hwoken]
  refine ⟨fun _ => ⟨hwakeups, hwoken⟩, h.wakeups, h.woken, ?_⟩
  rw [h.handed, hfree, append_nil]
  simp [waitingFd]

lemma ThreadInv.wake (h : ThreadInv true thread given registered) :
    ThreadInv false { thread with wakeups := thread.wakeups + 1 } given registered := by
  obtain ⟨hwakeups, hwoken⟩ := h.stored rfl
  refine ⟨nofun, ?_, fun hw => absurd hw hwoken, ?_⟩
  · change thread.wakeups + 1 ≤ 1
    omega
  · rw [h.handed]
    simp [waitingFd]

section

variable (h : ThreadInv waking thread given registered)
include h

lemma ThreadInv.read {ret : Nat}
    (hidle : thread.process = .idle) (hpos : 0 < ret) (hret : ret ≤ thread.wakeups) :
    ThreadInv waking { thread with wakeups := thread.wakeups - ret, process := .woken } given registered := by
  have hone := h.wakeups
  have hnone : waking = false := by
    rw [← Bool.not_eq_true]
    intro hwaking
    have := (h.stored hwaking).1
    omega
  have hleft : thread.wakeups - ret = 0 := by omega
  refine ⟨?_, ?_, fun _ => hleft, ?_⟩
  · rw [hnone]
    nofun
  · change thread.wakeups - ret ≤ 1
    omega
  · have hsome : 0 < thread.wakeups := by omega
    rw [h.handed, hidle]
    simp [waitingFd, loadedFd, hsome]

lemma ThreadInv.load (hwoken : thread.process = .woken) :
    ThreadInv waking { thread with process := .loaded thread.fConnect } given registered := by
  have hnone : waking = false := by
    rw [← Bool.not_eq_true]
    intro hwaking
    exact (h.stored hwaking).2 hwoken
  refine ⟨?_, h.wakeups, nofun, ?_⟩
  · rw [hnone]
    nofun
  · rw [h.handed, hwoken, hnone]
    simp [waitingFd, loadedFd, hwoken, h.woken hwoken]

lemma ThreadInv.add (hloaded : thread.process = .loaded fd) :
    ThreadInv waking { thread with process := .idle } given (registered ++ [fd]) := by
  refine ⟨?_, h.wakeups, nofun, ?_⟩
  · intro hwaking
    exact ⟨(h.stored hwaking).1, nofun⟩
  · rw [h.handed, hloaded]
    simp [waitingFd, loadedFd, hloaded]

end

end Thread

/-- The invariant of all workers. `given` pairs the accepted connections with their workers. -/
structure PoolInv (s : PoolServer) (given : List (Fin threadNum × Nat)) : Prop where
  accepted : given.map Prod.snd = s.accepted
  thread (tid : Fin threadNum) : ThreadInv (s.waking == some tid) (s.threads tid)
    (ofThread tid given) (ofThread tid s.registered)

section Pool

variable {s s' : PoolServer} {given given' : List (Fin threadNum × Nat)} {e : PoolEvent}

lemma PoolInv.update (h : PoolInv s given) (hthreads : s'.threads = update s.threads tid t)
    (haccepted : given'.map Prod.snd = s'.accepted)
    (hself : ThreadInv (s'.waking == some tid) t (ofThread tid given') (ofThread tid s'.registered))
    (hwaking : ∀ tid' ≠ tid, (s'.waking == some tid') = (s.waking == some tid'))
    (hgiven : ∀ tid' ≠ tid, ofThread tid' given' = ofThread tid' given)
    (hregistered : ∀ tid' ≠ tid, ofThread tid' s'.registered = ofThread tid' s.registered) :
    PoolInv s' given' := by
  refine ⟨haccepted, ?_⟩
  intro tid'
  rw [hthreads]
  by_cases htid : tid' = tid
  · rw [htid, update_self]
    exact hself
  · rw [update_of_ne htid, hwaking tid' htid, hgiven tid' htid, hregistered tid' htid]
    exact h.thread tid'

lemma step_poolInv (h : PoolInv s given) (hfree : s.SlotFree e) (hs : s.step e = some s') :
    ∃ given', PoolInv s' given' := by
  cases e with
  | accept newFd =>
    unfold step at hs
    dsimp only at hs
    split at hs
    · rename_i hidle
      cases newFd with
      | none =>
        cases hs
        exact ⟨given, h⟩
      | some newFd =>
        cases hs
        have hthread := h.thread s.nextThread
        rw [hidle] at hthread
        refine ⟨given ++ [(s.nextThread, newFd)], h.update rfl ?_ ?_ ?_ ?_ (fun _ _ => rfl)⟩
        · simp [h.accepted]
        · simpa [setThread, ofThread_append_self] using hthread.accept hfree.1 hfree.2
        · intro tid' htid
          simpa [hidle] using htid.symm
        · intro tid' htid
          exact ofThread_append_of_ne htid
    · cases hs
  | wake =>
    unfold step at hs
    dsimp only at hs
    split at hs
    · cases hs
    · rename_i tid hwaking
      cases hs
      have hthread := h.thread tid
      rw [hwaking, beq_self_eq_true] at hthread
      refine ⟨given, h.update rfl h.accepted ?_ ?_ (fun _ _ => rfl) (fun _ _ => rfl)⟩
      · simpa [setThread] using hthread.wake
      · intro tid' htid
        simpa [hwaking] using htid.symm
  | read tid ret =>
    unfold step at hs
    dsimp only at hs
    split at hs
    · rename_i hread
      cases hs
      refine ⟨given, h.update rfl h.accepted ?_ (fun _ _ => rfl) (fun _ _ => rfl) (fun _ _ => rfl)⟩
      · simpa [setThread] using (h.thread tid).read hread.1 hread.2.1 hread.2.2.1
    · cases hs
  | load tid =>
    unfold step at hs
    dsimp only at hs
    split at hs
    · rename_i hwoken
      cases hs
      refine ⟨given, h.update rfl h.accepted ?_ (fun _ _ => rfl) (fun _ _ => rfl) (fun _ _ => rfl)⟩
      · simpa [setThread] using (h.thread tid).load hwoken
    · cases hs
  | add tid =>
    unfold step at hs
    dsimp only at hs
    split at hs
    · rename_i fd hloaded
      cases hs
      refine ⟨given, h.update rfl h.accepted ?_ (fun _ _ => rfl) (fun _ _ => rfl) ?_⟩
      · simpa [setThread, ofThread_append_self] using (h.thread tid).add hloaded
      · intro tid' htid
        exact ofThread_append_of_ne htid
    · cases hs

lemma PoolInv.handedOver (h : PoolInv s given) (hquiet : s.Quiet) : s.HandedOver := by
  have hsame (tid : Fin threadNum) : ofThread tid s.registered = ofThread tid given := by
    obtain ⟨hwakeups, hidle⟩ := hquiet.2 tid
    rw [(h.thread tid).handed, hquiet.1]
    simp [waitingFd, loadedFd, hwakeups, hidle]
  unfold HandedOver
  rw [← h.accepted]
  exact (perm_of_ofThread hsame).map Prod.snd

/-- If a connection is stored to a slot only after the worker has read the one before, each accepted
connection is registered once, whatever the interleaving. -/
theorem reachedPool_handedOver (s : PoolServer)
    (hr : Reached step PoolServer.SlotFree start s) (hquiet : s.Quiet) :
    s.HandedOver := by
  have hinv : ∃ given, PoolInv s given := by
    refine hr.invariant (P := fun s => ∃ given, PoolInv s given) ⟨[], rfl, ?_⟩ ?_
    · intro tid
      exact ⟨nofun, Nat.zero_le _, nofun, rfl⟩
    · rintro s e s' ⟨given, h⟩ hfree hs
      exact step_poolInv h hfree hs
  obtain ⟨given, h⟩ := hinv
  exact h.handedOver hquiet

def twoHandedOver : Given step PoolServer.SlotFree start
    (fun s => decide s.Quiet && s.registered == [(1, 7), (2, 8)]) where
  events := [.accept (some 7), .wake, .read 1 1, .accept (some 8), .load 1, .wake, .add 1, .read 2 1,
    .load 2, .add 2]
  leads := by decide +kernel

theorem reachedPool_handedOver_two : ∃ s,
    Reached step PoolServer.SlotFree start s ∧ s.Quiet ∧ s.registered = [(1, 7), (2, 8)] ∧ s.HandedOver := by
  obtain ⟨s, hr, hp⟩ := twoHandedOver.reached
  rw [Bool.and_eq_true, decide_eq_true_iff, beq_iff_eq] at hp
  exact ⟨s, hr, hp.1, hp.2, reachedPool_handedOver s hr hp.1⟩

def busyEvents : List PoolEvent :=
  (range 26).flatMap (fun i => [.accept (some (100 + i)), .wake]) ++
    .read 1 2 :: .load 1 :: .add 1 ::
    ((finRange threadNum).filter (· ≠ 1)).flatMap fun tid => [.read tid 1, .load tid, .add tid]

def busyRun : Given step (fun _ _ => True) start
    (fun s => decide s.Quiet && !s.registered.any (fun p => p.2 == 100) && s.accepted.contains 100)
    where
  events := busyEvents
  leads := by decide +kernel

/-- The connection 100 has waited in the slot where 125 was stored: nobody registers it. -/
theorem exists_quiet_not_handedOver : ∃ s, Reached step (fun _ _ => True) start s ∧ s.Quiet ∧ ¬ s.HandedOver := by
  obtain ⟨s, hr, hp⟩ := busyRun.reached
  rw [Bool.and_eq_true, Bool.and_eq_true, decide_eq_true_iff] at hp
  obtain ⟨⟨hquiet, hlost⟩, haccepted⟩ := hp
  refine ⟨s, hr, hquiet, ?_⟩
  intro hperm
  have hmem : 100 ∈ s.registered.map Prod.snd :=
    hperm.mem_iff.mpr (contains_iff_mem.mp haccepted)
  obtain ⟨p, hp, heq⟩ := mem_map.mp hmem
  have hany : s.registered.any (fun p => p.2 == 100) :=
    any_eq_true.mpr ⟨p, hp, by rw [heq]; rfl⟩
  rw [hany] at hlost
  cases hlost

end Pool

end MyLibevent.Proofs
