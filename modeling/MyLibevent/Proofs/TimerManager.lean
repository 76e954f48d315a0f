import MyLibevent.TimerManager

/-!
# Lookups and expiry of timers

`CreateObject` does not put the new object into a map. A list of timers that expires is taken out of the
finder while the iterator of `CheckTimerQueue` stands on it.
-/

namespace MyLibevent.Proofs

open TimerManager List

section Lookups

variable {manager manager' : TimerManager} {op : TimerOp}

structure NoTimers (manager : TimerManager) : Prop where
  objects : manager.objects = []
  timerMap : manager.timerMap = []
  sessionMap : manager.sessionMap = []
  finder : manager.finder = []
  deleteList : manager.deleteList = []

lemma getObject_of_maps (htimers : manager.timerMap = []) (hsessions : manager.sessionMap = []) (id : ObjId) :
    manager.getObject id = none := by
  unfold getObject
  rw [htimers, hsessions]
  simp

lemma NoTimers.checkRounds (hm : NoTimers manager) (fuel rounds : Nat) (now : Int) :
    ∃ manager', checkRounds fuel rounds manager now = some manager' ∧ NoTimers manager' := by
  induction rounds generalizing manager with
  | zero => exact ⟨manager, rfl, hm⟩
  | succ rounds ih =>
    unfold checkRounds
    simp only [hm.deleteList, foldlM_nil, Option.pure_def, Option.bind_eq_bind, Option.bind_some,
      hm.finder, head?_nil, Option.map_none, scanFinder, Bool.false_eq_true, if_false]
    apply ih
    exact ⟨hm.objects, hm.timerMap, hm.sessionMap, rfl, rfl⟩

lemma NoTimers.step (hm : NoTimers manager) (hop : op.creates = false) :
    ∃ manager', manager.step op = some manager' ∧ NoTimers manager' := by
  have hget := getObject_of_maps hm.timerMap hm.sessionMap
  cases op with
  | createTimer clock mode millTime calledNum remainTime => cases hop
  | createSession clock millTime => cases hop
  | destroyObject id =>
    refine ⟨manager, ?_, hm⟩
    rw [TimerManager.step, destroyObject, hget]
  | forceTimeout clock id clear =>
    refine ⟨manager, ?_, hm⟩
    rw [TimerManager.step, forceTimeout, hget]
  | checkTimerQueue fuel now => exact hm.checkRounds fuel _ now
  | getObject id => exact ⟨manager, rfl, hm⟩

lemma NoTimers.run (hm : NoTimers manager) {ops : List TimerOp} (hops : ∀ op ∈ ops, op.creates = false) :
    ∃ manager', ops.foldlM TimerManager.step manager = some manager' ∧ NoTimers manager' := by
  induction ops generalizing manager with
  | nil => exact ⟨manager, rfl, hm⟩
  | cons op ops ih =>
    obtain ⟨next, hnext, hm'⟩ := hm.step (hops op mem_cons_self)
    rw [foldlM_cons, hnext]
    exact ih hm' (fun op' hop' => hops op' (mem_cons_of_mem _ hop'))

structure Created (manager manager' : TimerManager) (timer : Timer) : Prop where
  objects : manager'.objects = manager.objects ++ [timer]
  live : manager'.live = manager.live ++ [manager.objects.length]
  finder : manager'.finder = manager.finder.insert manager.objects.length (tick timer.timeout)
  timerMap : manager'.timerMap = manager.timerMap
  sessionMap : manager'.sessionMap = manager.sessionMap
  deleteList : manager'.deleteList = manager.deleteList
  fired : manager'.fired = manager.fired
  lastCheckTick : manager'.lastCheckTick = manager.lastCheckTick

structure OneShot (timer : Timer) : Prop where
  kept : timer.destroy = false
  calledNum : timer.timerType = .timer → timer.calledNum = 0 ∨ timer.calledNum = 1
  continues : timer.timerType = .session → timer.continues = false

lemma step_created (manager : TimerManager) (hop : op.creates) :
    ∃ manager' timer, manager.step op = some manager' ∧ Created manager manager' timer ∧
      (op.oneShot → OneShot timer) := by
  cases op with
  | createTimer clock mode millTime calledNum remainTime =>
    refine ⟨_, _, rfl, ⟨rfl, rfl, rfl, rfl, rfl, rfl, rfl, rfl⟩, ?_⟩
    intro hone
    have hcalled : calledNum = 1 := by simpa [TimerOp.oneShot] using hone
    subst hcalled
    cases mode <;> by_cases hremain : remainTime = 0 <;>
      simp only [hremain, ne_eq, not_true_eq_false, not_false_eq_true, if_true, if_false] <;>
      exact ⟨rfl, fun _ => .inr rfl, (fun h => nomatch h)⟩
  | createSession clock millTime =>
    refine ⟨_, _, rfl, ⟨rfl, rfl, rfl, rfl, rfl, rfl, rfl, rfl⟩, ?_⟩
    intro _
    exact ⟨rfl, (fun h => nomatch h), fun _ => rfl⟩
  | destroyObject id => cases hop
  | forceTimeout clock id clear => cases hop
  | checkTimerQueue fuel now => cases hop
  | getObject id => cases hop

lemma noTimers_new (clock : Int) : NoTimers (new clock) := ⟨rfl, rfl, rfl, rfl, rfl⟩

lemma NoTimers.found (hm : NoTimers manager) : manager.Found := by
  intro pTimer timer htimer
  rw [hm.objects] at htimer
  simp at htimer

lemma NoTimers.not_found (hm : NoTimers manager) {timer : Timer} (hcreated : Created manager manager' timer) :
    ¬manager'.Found := by
  intro hfound
  have hobjects : manager'.objects[0]? = some timer := by
    rw [hcreated.objects, hm.objects]
    rfl
  have hlive : 0 ∈ manager'.live := by
    rw [hcreated.live, hm.objects]
    simp
  have hget := ((hfound 0 timer hobjects).1 hlive).1
  rw [getObject_of_maps (hcreated.timerMap.trans hm.timerMap) (hcreated.sessionMap.trans hm.sessionMap)] at hget
  cases hget

end Lookups

/-- The timers are found by their ids in every state of a run if and only if the run creates none. -/
theorem timers_found_iff (clock : Int) (ops : List TimerOp) :
    (∀ n manager, (ops.take n).foldlM TimerManager.step (new clock) = some manager → manager.Found) ↔
      ∀ op ∈ ops, op.creates = false := by
  constructor
  · intro hfound
    by_contra hcreates
    push Not at hcreates
    have hfirst : (ops.find? TimerOp.creates).isSome := by
      rw [find?_isSome]
      simpa using hcreates
    obtain ⟨op, hfind⟩ := Option.isSome_iff_exists.mp hfirst
    -- the run up to the first creation
    obtain ⟨hop, before, after, hsplit, hbefore⟩ := find?_eq_some_iff_append.mp hfind
    subst hsplit
    obtain ⟨manager, hrun, hnone⟩ := (noTimers_new clock).run
      (fun op' hop' => by simpa using hbefore op' hop' : ∀ op' ∈ before, op'.creates = false)
    obtain ⟨manager', timer, hstep, hcreated, -⟩ := step_created manager hop
    apply hnone.not_found hcreated
    apply hfound (before.length + 1)
    rw [take_length_add_append, foldlM_append, hrun]
    simpa using hstep
  · intro hops n manager hrun
    obtain ⟨manager', hrun', hnone⟩ := (noTimers_new clock).run
      (fun op hop => hops op (mem_of_mem_take hop) : ∀ op ∈ ops.take n, op.creates = false)
    obtain rfl := Option.some.inj (hrun.symm.trans hrun')
    exact hnone.found

/-- A timer of one second is not found right after its creation. -/
theorem created_timer_not_found : ¬((new 0).createTimer 0 .game 1000 1 0).Found := by
  intro hfound
  have hget := ((hfound 0 _ rfl).1 (by decide)).1
  exact absurd hget (by decide)

section Expiry

variable {manager manager' : TimerManager} {timer : Timer} {now key : Int} {nodes : List TimerPtr}
  {rest : TimerFinder}

lemma OneShot.afterTimeout (htimer : OneShot timer) (now : Int) :
    OneShot (timer.afterTimeout now).1 ∧ (timer.afterTimeout now).1.timeout = timer.timeout ∧
      (timer.afterTimeout now).1.queuedAgain false = false := by
  unfold Timer.afterTimeout
  rw [htimer.kept]
  cases htype : timer.timerType with
  | timer =>
    have hnum : (if 0 < timer.calledNum then timer.calledNum - 1 else timer.calledNum) = 0 := by
      rcases htimer.calledNum htype with hzero | hone
      · rw [hzero]
        rfl
      · rw [hone]
        rfl
    simp only [Bool.false_eq_true, if_false, Timer.timeoutTimer, hnum, if_true]
    refine ⟨⟨htimer.kept, fun _ => .inl rfl, fun h => ?_⟩, trivial, ?_⟩
    · exact htimer.continues h
    · simp [Timer.queuedAgain, htype]
  | session =>
    have hcontinues := htimer.continues htype
    simp only [Bool.false_eq_true, if_false, Timer.timeoutSession, hcontinues]
    refine ⟨htimer, trivial, ?_⟩
    simp [Timer.queuedAgain, htype, hcontinues]

section Finder

variable {pTimer : TimerPtr} {key k : Int} {finder : TimerFinder} {entry : Int × List TimerPtr}

lemma nodes_cons : TimerFinder.nodes (entry :: finder) k = if k = entry.1 then entry.2 else finder.nodes k := by
  unfold TimerFinder.nodes
  rw [lookup_cons]
  split_ifs with hkey
  · rw [beq_iff_eq.mpr hkey]
    rfl
  · rw [beq_false_of_ne hkey]

lemma nodes_of_notMem (hk : k ∉ finder.map Prod.fst) : finder.nodes k = [] := by
  induction finder with
  | nil => rfl
  | cons first finder ih =>
    rw [map_cons, mem_cons, not_or] at hk
    rw [nodes_cons, if_neg hk.1, ih hk.2]

section

variable (hsorted : (finder.map Prod.fst).Pairwise (· < ·))
include hsorted

lemma nodes_insert :
    (finder.insert pTimer key).nodes k = if k = key then finder.nodes key ++ [pTimer] else finder.nodes k := by
  induction finder with
  | nil =>
    rw [TimerFinder.insert, nodes_cons]
    rfl
  | cons first finder ih =>
    obtain ⟨hfirst, hrest⟩ := pairwise_cons.mp hsorted
    have hnone (hlt : key ≤ first.1) : TimerFinder.nodes finder key = [] := by
      refine nodes_of_notMem fun hmem => ?_
      have hlt' := hfirst key hmem
      omega
    rw [TimerFinder.insert]
    grind [nodes_cons]

lemma mem_nodes_insert {q : TimerPtr} :
    q ∈ (finder.insert pTimer key).nodes k ↔ key = k ∧ q = pTimer ∨ q ∈ finder.nodes k := by
  rw [nodes_insert hsorted]
  split_ifs with hkey
  · simp [hkey, or_comm]
  · simp [Ne.symm hkey]

lemma mem_nodes_iff : q ∈ finder.nodes k ↔ ∃ entry ∈ finder, entry.1 = k ∧ q ∈ entry.2 := by
  induction finder with
  | nil => simp [TimerFinder.nodes]
  | cons first finder ih =>
    obtain ⟨hfirst, hrest⟩ := pairwise_cons.mp hsorted
    rw [nodes_cons]
    split_ifs with hkey
    · have hother : ∀ entry ∈ finder, entry.1 ≠ k := by
        intro entry hentry heq
        have hlt := hfirst _ (mem_map_of_mem hentry)
        omega
      grind
    · grind

end

lemma insert_nonempty (hne : ∀ entry ∈ finder, entry.2 ≠ []) : ∀ entry ∈ finder.insert pTimer key, entry.2 ≠ [] := by
  induction finder with
  | nil => simp [TimerFinder.insert]
  | cons first finder ih =>
    obtain ⟨hfirst, hrest⟩ := forall_mem_cons.mp hne
    rw [TimerFinder.insert]
    split_ifs with hlt heq
    · exact forall_mem_cons.mpr ⟨by simp, hne⟩
    · exact forall_mem_cons.mpr ⟨by simp, hrest⟩
    · exact forall_mem_cons.mpr ⟨hfirst, ih hrest⟩

lemma insert_keys (hk : k ∈ (finder.insert pTimer key).map Prod.fst) : k = key ∨ k ∈ finder.map Prod.fst := by
  induction finder with
  | nil => simpa [TimerFinder.insert] using hk
  | cons first finder ih =>
    obtain ⟨key', nodes⟩ := first
    rw [TimerFinder.insert] at hk
    split_ifs at hk with hlt heq
    · simpa using hk
    · right
      simpa using hk
    · rcases mem_cons.mp hk with rfl | hk
      · right
        exact mem_cons_self
      · rcases ih hk with hkey | hold
        · exact .inl hkey
        · exact .inr (mem_cons_of_mem _ hold)

lemma insert_sorted (hsorted : (finder.map Prod.fst).Pairwise (· < ·)) :
    ((finder.insert pTimer key).map Prod.fst).Pairwise (· < ·) := by
  induction finder with
  | nil => simp [TimerFinder.insert]
  | cons first finder ih =>
    obtain ⟨key', nodes⟩ := first
    obtain ⟨hfirst, hrest⟩ := pairwise_cons.mp hsorted
    rw [TimerFinder.insert]
    split_ifs with hlt heq
    · rw [map_cons, pairwise_cons]
      refine ⟨?_, hsorted⟩
      exact forall_mem_cons.mpr ⟨hlt, fun k hk => Int.lt_trans hlt (hfirst k hk)⟩
    · exact hsorted
    · rw [map_cons, pairwise_cons]
      refine ⟨?_, ih hrest⟩
      intro k hk
      rcases insert_keys hk with rfl | hk
      · dsimp only
        omega
      · exact hfirst k hk

end Finder

structure Armed (manager : TimerManager) : Prop where
  sorted : (manager.finder.map Prod.fst).Pairwise (· < ·)
  nonempty : ∀ entry ∈ manager.finder, entry.2 ≠ []
  filed : ∀ entry ∈ manager.finder, ∀ pTimer ∈ entry.2,
    ∃ timer, manager.objects[pTimer]? = some timer ∧ tick timer.timeout = entry.1
  queued : ∀ pTimer timer, manager.objects[pTimer]? = some timer →
    ∃ entry ∈ manager.finder, entry.1 = tick timer.timeout ∧ pTimer ∈ entry.2
  oneShot : ∀ timer ∈ manager.objects, OneShot timer
  fired : manager.fired = []
  deleteList : manager.deleteList = []

lemma listed_iff (hsorted : (manager.finder.map Prod.fst).Pairwise (· < ·)) :
    (∀ key pTimer, pTimer ∈ manager.finder.nodes key ↔
      ∃ timer, manager.objects[pTimer]? = some timer ∧ tick timer.timeout = key) ↔
    (∀ entry ∈ manager.finder, ∀ pTimer ∈ entry.2,
      ∃ timer, manager.objects[pTimer]? = some timer ∧ tick timer.timeout = entry.1) ∧
    ∀ pTimer timer, manager.objects[pTimer]? = some timer →
      ∃ entry ∈ manager.finder, entry.1 = tick timer.timeout ∧ pTimer ∈ entry.2 := by
  simp only [mem_nodes_iff hsorted]
  constructor
  · intro h
    exact ⟨fun entry hentry pTimer hp => (h entry.1 pTimer).mp ⟨entry, hentry, rfl, hp⟩,
      fun pTimer timer htimer => (h _ pTimer).mpr ⟨timer, htimer, rfl⟩⟩
  · rintro ⟨hfiled, hqueued⟩ key pTimer
    constructor
    · rintro ⟨entry, hentry, rfl, hp⟩
      exact hfiled entry hentry pTimer hp
    · rintro ⟨timer, htimer, rfl⟩
      exact hqueued pTimer timer htimer

lemma Armed.listed (hm : Armed manager) (key : Int) (pTimer : TimerPtr) : pTimer ∈ manager.finder.nodes key ↔
    ∃ timer, manager.objects[pTimer]? = some timer ∧ tick timer.timeout = key :=
  (listed_iff hm.sorted).mpr ⟨hm.filed, hm.queued⟩ key pTimer

lemma deleteObject_same (manager : TimerManager) (id : ObjId) :
    (manager.deleteObject id).objects = manager.objects ∧ (manager.deleteObject id).finder = manager.finder ∧
      (manager.deleteObject id).fired = manager.fired := by
  unfold deleteObject
  split_ifs <;> exact ⟨rfl, rfl, rfl⟩

structure Expiring (manager : TimerManager) (key : Int) (nodes : List TimerPtr) (rest : TimerFinder) : Prop where
  finder : manager.finder = if nodes = [] then rest else (key, nodes) :: rest
  oneShot : ∀ pTimer ∈ nodes, ∃ timer, manager.objects[pTimer]? = some timer ∧
    tick timer.timeout = key ∧ OneShot timer

lemma Expiring.timeout {pTimer : TimerPtr} (hexp : Expiring manager key (pTimer :: nodes) rest) :
    ∃ manager', manager.timeout pTimer now false = some (nodes.head?, manager') ∧
      Expiring manager' key nodes rest := by
  have hfinder := hexp.finder
  rw [if_neg (by simp)] at hfinder
  obtain ⟨timer, htimer, htick, hone⟩ := hexp.oneShot pTimer mem_cons_self
  obtain ⟨hone', htimeout, hagain⟩ := hone.afterTimeout now
  have hnodes : manager.finder.nodes key = pTimer :: nodes := by
    rw [hfinder]
    simp [TimerFinder.nodes]
  have herase : manager.finder.erase pTimer key = if nodes = [] then rest else (key, nodes) :: rest := by
    rw [hfinder]
    simp [TimerFinder.erase]
  have hnext : (((pTimer :: nodes).dropWhile (fun x => decide (x ≠ pTimer))).drop 1).head? = nodes.head? := by
    simp
  unfold TimerManager.timeout
  simp only [htimer, Option.bind_eq_bind, Option.bind_some, htick, hnodes, hagain, Bool.false_eq_true, if_false,
    hnext]
  refine ⟨_, rfl, ?_, ?_⟩
  · rw [markDeleted, (deleteObject_same _ _).2.1, eraseFromFinder, htick]
    exact herase
  · intro other hother
    obtain ⟨timer', htimer', htick', hone''⟩ := hexp.oneShot other (mem_cons_of_mem _ hother)
    rw [markDeleted, (deleteObject_same _ _).1, eraseFromFinder]
    by_cases hsame : other = pTimer
    · subst hsame
      have hlt : other < manager.objects.length := (List.getElem?_eq_some_iff.mp htimer).1
      exact ⟨_, getElem?_set_self hlt, by rw [htimeout, htick], hone'⟩
    · refine ⟨timer', ?_, htick', hone''⟩
      rw [getElem?_set_ne (Ne.symm hsame)]
      exact htimer'

lemma Expiring.timeoutList (hexp : Expiring manager key nodes rest) (fuel : Nat) (now : Int) :
    timeoutList fuel manager nodes.head? now = none ∨
      ∃ manager', timeoutList fuel manager nodes.head? now = some manager' ∧ manager'.finder = rest := by
  induction nodes generalizing manager fuel with
  | nil =>
    right
    exact ⟨manager, by cases fuel <;> rfl, hexp.finder⟩
  | cons pTimer nodes ih =>
    cases fuel with
    | zero =>
      left
      rfl
    | succ fuel =>
      obtain ⟨next, hnext, hexp'⟩ := @Expiring.timeout _ now _ _ _ _ hexp
      rw [head?_cons, timeoutList, hnext]
      exact ih hexp' fuel

lemma Armed.scanFinder_due (hm : Armed manager) (hfinder : manager.finder = (key, nodes) :: rest)
    (hdue : key ≤ cInt (tick now)) (fuel : Nat) :
    scanFinder fuel manager (some key) now = none := by
  cases fuel with
  | zero => rfl
  | succ fuel =>
    have hmem : (key, nodes) ∈ manager.finder := by
      rw [hfinder]
      exact mem_cons_self
    have hnodes : manager.finder.nodes key = nodes := by
      rw [hfinder, nodes_cons, if_pos rfl]
    have hexp : Expiring manager key nodes rest := by
      constructor
      · rw [if_neg (hm.nonempty _ hmem), hfinder]
      · intro pTimer hpTimer
        obtain ⟨timer, htimer, htick⟩ := (hm.listed key pTimer).mp (hnodes ▸ hpTimer)
        exact ⟨timer, htimer, htick, hm.oneShot timer (mem_of_getElem? htimer)⟩
    have hgone : ∀ entry ∈ rest, key ≠ entry.1 := by
      intro entry hentry
      have hsorted := hm.sorted
      rw [hfinder, map_cons, pairwise_cons] at hsorted
      exact Int.ne_of_lt (hsorted.1 _ (mem_map_of_mem hentry))
    have hnext : TimerFinder.next key rest = none := by
      clear hfinder hexp
      induction rest with
      | nil => rfl
      | cons entry rest ih =>
        rw [TimerFinder.next, if_neg (hgone entry mem_cons_self)]
        exact ih (fun entry' hentry' => hgone entry' (mem_cons_of_mem _ hentry'))
    rw [scanFinder, if_neg (by omega), hnodes]
    rcases hexp.timeoutList fuel now with hlist | ⟨next, hlist, hrest⟩
    · rw [hlist]
      rfl
    · rw [hlist, Option.bind_eq_bind, Option.bind_some, hrest, hnext]
      rfl

lemma armed_new (clock : Int) : Armed (new clock) := by
  constructor
  · exact List.Pairwise.nil
  · intro entry hentry
    cases hentry
  · intro entry hentry
    cases hentry
  · simp [new]
  · intro timer htimer
    cases htimer
  · rfl
  · rfl

lemma Armed.created (hm : Armed manager) (hcreated : Created manager manager' timer) (hone : OneShot timer) :
    Armed manager' := by
  have hsorted : (manager'.finder.map Prod.fst).Pairwise (· < ·) := by
    rw [hcreated.finder]
    exact insert_sorted hm.sorted
  obtain ⟨hfiled, hqueued⟩ := (listed_iff hsorted).mp (by
    intro key pTimer
    rw [hcreated.finder, hcreated.objects, mem_nodes_insert hm.sorted, hm.listed]
    rcases Nat.lt_trichotomy pTimer manager.objects.length with hlt | rfl | hgt
    · simp [getElem?_append_left hlt, Nat.ne_of_lt hlt]
    · simp
    · rw [getElem?_eq_none (Nat.le_of_lt hgt), getElem?_eq_none (by rw [length_append]; exact hgt)]
      simp [Nat.ne_of_gt hgt])
  refine ⟨hsorted, ?_, hfiled, hqueued, ?_, ?_, ?_⟩
  · rw [hcreated.finder]
    exact insert_nonempty hm.nonempty
  · intro timer' htimer'
    rw [hcreated.objects] at htimer'
    rcases mem_append.mp htimer' with hold | hnew
    · exact hm.oneShot timer' hold
    · rw [mem_singleton.mp hnew]
      exact hone
  · rw [hcreated.fired, hm.fired]
  · rw [hcreated.deleteList, hm.deleteList]

lemma TimerOp.creates_of_oneShot {op : TimerOp} (hone : op.oneShot) : op.creates := by
  cases op <;> first | rfl | cases hone

lemma armed_of_creations {creations : List TimerOp} (hone : ∀ op ∈ creations, op.oneShot)
    (hm : Armed manager) (hrun : creations.foldlM TimerManager.step manager = some manager') :
    Armed manager' ∧ manager'.lastCheckTick = manager.lastCheckTick ∧
      manager'.objects.length = manager.objects.length + creations.length := by
  induction creations generalizing manager with
  | nil =>
    cases hrun
    exact ⟨hm, rfl, rfl⟩
  | cons op creations ih =>
    have hop := hone op mem_cons_self
    obtain ⟨next, timer, hstep, hcreated, htimer⟩ := step_created manager (TimerOp.creates_of_oneShot hop)
    rw [foldlM_cons, hstep] at hrun
    obtain ⟨harmed, hlast, hlength⟩ := ih (fun op' hop' => hone op' (mem_cons_of_mem _ hop'))
      (hm.created hcreated (htimer hop)) hrun
    refine ⟨harmed, hlast.trans hcreated.lastCheckTick, ?_⟩
    rw [hlength, hcreated.objects, length_append, length_singleton, length_cons]
    omega

structure Unchanged (manager manager' : TimerManager) : Prop where
  objects : manager'.objects = manager.objects
  finder : manager'.finder = manager.finder
  fired : manager'.fired = manager.fired
  deleteList : manager'.deleteList = manager.deleteList

lemma Armed.unchanged (hm : Armed manager) (hsame : Unchanged manager manager') : Armed manager' := by
  obtain ⟨hobjects, hfinder, hfired, hdelete⟩ := hsame
  constructor
  · rw [hfinder]
    exact hm.sorted
  · rw [hfinder]
    exact hm.nonempty
  · rw [hfinder, hobjects]
    exact hm.filed
  · rw [hfinder, hobjects]
    exact hm.queued
  · rw [hobjects]
    exact hm.oneShot
  · rw [hfired, hm.fired]
  · rw [hdelete, hm.deleteList]

lemma Armed.first_later (hm : Armed manager) (hfinder : manager.finder = (key, nodes) :: rest)
    (nowTick : Int) : nowTick < key ↔ ∀ timer ∈ manager.objects, nowTick < tick timer.timeout := by
  constructor
  · intro hlt timer htimer
    obtain ⟨pTimer, htimer⟩ := mem_iff_getElem?.mp htimer
    have hqueued := (hm.listed _ pTimer).mpr ⟨timer, htimer, rfl⟩
    have hsorted := hm.sorted
    rw [hfinder] at hqueued hsorted
    rw [nodes_cons] at hqueued
    split_ifs at hqueued with hkey
    · rw [hkey]
      exact hlt
    · have hmem := not_imp_comm.mp nodes_of_notMem (ne_nil_of_mem hqueued)
      have hafter := (pairwise_cons.mp hsorted).1 _ hmem
      dsimp only at hafter
      omega
  · intro hlater
    have hmem : (key, nodes) ∈ manager.finder := by
      rw [hfinder]
      exact mem_cons_self
    obtain ⟨pTimer, others, hnodes⟩ := exists_cons_of_ne_nil (hm.nonempty _ hmem)
    obtain ⟨timer, htimer, htick⟩ := (hm.listed key pTimer).mp (by
      rw [hfinder, nodes_cons, if_pos rfl, hnodes]
      exact mem_cons_self)
    have hlt := hlater timer (mem_of_getElem? htimer)
    rw [htick] at hlt
    exact hlt

lemma Armed.firedUpTo_iff (hm : Armed manager) (nowTick : Int) :
    manager.FiredUpTo nowTick ↔ ∀ timer ∈ manager.objects, nowTick < tick timer.timeout := by
  constructor
  · intro hfired timer htimer
    obtain ⟨pTimer, htimer⟩ := mem_iff_getElem?.mp htimer
    by_contra hdue
    have hcount := hfired pTimer timer htimer
    rw [if_pos (by omega), hm.fired] at hcount
    simp at hcount
  · intro hlater pTimer timer htimer
    have hlt := hlater timer (mem_of_getElem? htimer)
    rw [if_neg (by omega), hm.fired]
    exact ⟨rfl, (hm.listed _ pTimer).mpr ⟨timer, htimer, rfl⟩⟩

lemma checkTimerQueue_early (hearly : cInt (tick now) ≤ manager.lastCheckTick) (fuel : Nat) :
    manager.checkTimerQueue fuel now = some manager := by
  rw [checkTimerQueue, show (cInt (tick now) - manager.lastCheckTick).toNat = 0 by omega]
  rfl

lemma Armed.checkRounds_succ (hm : Armed manager) (fuel rounds : Nat) :
    checkRounds fuel (rounds + 1) manager now =
      (scanFinder fuel manager (manager.finder.head?.map Prod.fst) now).bind (fun result =>
        if result.1 then some result.2
        else checkRounds fuel rounds
          { result.2 with lastCheckTick := result.2.lastCheckTick + 1 } now) := by
  have hclear : { manager with deleteList := [] } = manager := by
    rw [← hm.deleteList]
  rw [checkRounds, hm.deleteList]
  simp only [foldlM_nil, Option.pure_def, Option.bind_eq_bind, Option.bind_some, hclear]

lemma Armed.checkTimerQueue_scan (hm : Armed manager)
    (hscan : manager.lastCheckTick < cInt (tick now))
    (hfinder : manager.finder = (key, nodes) :: rest) (fuel : Nat) :
    manager.checkTimerQueue fuel now =
      if 0 < fuel ∧ cInt (tick now) < key then some { manager with lastCheckTick := manager.lastCheckTick + 1 }
      else none := by
  obtain ⟨rounds, hrounds⟩ : ∃ rounds, (cInt (tick now) - manager.lastCheckTick).toNat = rounds + 1 :=
    ⟨(cInt (tick now) - manager.lastCheckTick).toNat - 1, by omega⟩
  have hhead : manager.finder.head?.map Prod.fst = some key := by
    rw [hfinder]
    rfl
  rw [checkTimerQueue, hrounds, hm.checkRounds_succ, hhead]
  by_cases hlater : cInt (tick now) < key
  · cases fuel with
    | zero => rfl
    | succ fuel =>
      rw [if_pos ⟨fuel.succ_pos, hlater⟩, scanFinder, if_pos hlater]
      rfl
  · rw [if_neg fun h => hlater h.2, hm.scanFinder_due hfinder (by omega)]
    rfl

/-- No timer is due at the calls: at a call in a later tick than that of the call before, and at one that comes to
the finder, whose tick is an `int` there. -/
def QuietChecks (deadlines : List Int) : Int → Int → List Int → Prop
  | _, _, [] => True
  | lastCheckTick, lastTick, now :: times =>
    (lastTick < tick now → ∀ deadline ∈ deadlines, tick now < deadline) ∧
    (lastCheckTick < cInt (tick now) → ∀ deadline ∈ deadlines, cInt (tick now) < deadline) ∧
    QuietChecks deadlines (if lastCheckTick < cInt (tick now) then lastCheckTick + 1 else lastCheckTick)
      (tick now) times

lemma quietChecks_nil (lastCheckTick lastTick : Int) (times : List Int) :
    QuietChecks [] lastCheckTick lastTick times := by
  induction times generalizing lastCheckTick lastTick with
  | nil => trivial
  | cons now times ih => exact ⟨by simp, by simp, ih _ _⟩

lemma checksFire_of_noTimers (hm : NoTimers manager) (lastTick : Int) (times : List Int) :
    manager.ChecksFire lastTick times := by
  induction times generalizing manager lastTick with
  | nil => trivial
  | cons now times ih =>
    obtain ⟨manager', hcheck, hm'⟩ := hm.checkRounds 0 (cInt (tick now) - manager.lastCheckTick).toNat now
    refine ⟨0, manager', hcheck, ?_, ih hm' _⟩
    intro _ pTimer timer htimer
    rw [hm'.objects] at htimer
    simp at htimer

lemma Armed.checksFire_iff (hm : Armed manager) (hobjects : manager.objects ≠ []) (lastTick : Int)
    (times : List Int) :
    manager.ChecksFire lastTick times ↔
      QuietChecks (manager.objects.map (fun timer => tick timer.timeout)) manager.lastCheckTick lastTick times := by
  induction times generalizing manager lastTick with
  | nil => exact Iff.rfl
  | cons now times ih =>
    unfold ChecksFire QuietChecks
    rw [forall_mem_map, forall_mem_map]
    by_cases hscan : manager.lastCheckTick < cInt (tick now)
    · rw [if_pos hscan]
      have hne : manager.finder ≠ [] := by
        obtain ⟨timer, rest, htimer⟩ := exists_cons_of_ne_nil hobjects
        have hqueued := (hm.listed _ 0).mpr ⟨timer, by rw [htimer]; rfl, rfl⟩
        intro hnil
        rw [hnil] at hqueued
        cases hqueued
      obtain ⟨⟨key, nodes⟩, rest, hfinder⟩ := exists_cons_of_ne_nil hne
      have hfirst := hm.first_later hfinder (cInt (tick now))
      have hnext : Armed { manager with lastCheckTick := manager.lastCheckTick + 1 } :=
        hm.unchanged ⟨rfl, rfl, rfl, rfl⟩
      constructor
      · rintro ⟨fuel, manager', hcheck, hfired, hrest⟩
        rw [hm.checkTimerQueue_scan hscan hfinder] at hcheck
        split_ifs at hcheck with hlater
        cases hcheck
        refine ⟨fun hlt => (hnext.firedUpTo_iff _).mp (hfired hlt), fun _ => hfirst.mp hlater.2, ?_⟩
        exact (ih hnext hobjects _).mp hrest
      · rintro ⟨hlater, hquiet, hrest⟩
        refine ⟨1, { manager with lastCheckTick := manager.lastCheckTick + 1 }, ?_, ?_, ?_⟩
        · rw [hm.checkTimerQueue_scan hscan hfinder, if_pos ⟨Nat.one_pos, hfirst.mpr (hquiet hscan)⟩]
        · intro hlt
          exact (hnext.firedUpTo_iff _).mpr (hlater hlt)
        · exact (ih hnext hobjects _).mpr hrest
    · rw [if_neg hscan]
      have hcheck := @checkTimerQueue_early manager now (by omega)
      constructor
      · rintro ⟨fuel, manager', hcheck', hfired, hrest⟩
        rw [hcheck fuel] at hcheck'
        cases hcheck'
        refine ⟨fun hlt => (hm.firedUpTo_iff _).mp (hfired hlt), fun h => absurd h hscan, ?_⟩
        exact (ih hm hobjects _).mp hrest
      · rintro ⟨hlater, -, hrest⟩
        refine ⟨0, manager, hcheck 0, ?_, (ih hm hobjects _).mpr hrest⟩
        intro hlt
        exact (hm.firedUpTo_iff _).mpr (hlater hlt)

end Expiry

/-- The timers fire as they should in all the checks if and only if none is due at any of them. -/
theorem checksFire_iff_quiet {clock : Int} {creations : List TimerOp} {manager : TimerManager}
    (hone : ∀ op ∈ creations, op.oneShot)
    (hrun : creations.foldlM TimerManager.step (new clock) = some manager) (times : List Int) :
    manager.ChecksFire (tick clock) times ↔
      QuietChecks (manager.objects.map (fun timer => tick timer.timeout)) (tick clock) (tick clock) times := by
  obtain ⟨harmed, hlast, hlength⟩ := armed_of_creations hone (armed_new clock) hrun
  by_cases hobjects : manager.objects = []
  · have hnone : creations = [] := by
      rw [hobjects] at hlength
      apply eq_nil_of_length_eq_zero
      rw [length_nil] at hlength
      omega
    subst hnone
    cases hrun
    constructor
    · intro _
      rw [hobjects]
      exact quietChecks_nil _ _ times
    · intro _
      exact checksFire_of_noTimers (noTimers_new clock) _ times
  · have hiff := harmed.checksFire_iff hobjects (tick clock) times
    rw [hlast] at hiff
    exact hiff

/-- A timer for the second 1 and a session of five seconds, in checks before the second 1. -/
theorem checksFire_before_deadline :
    ∃ manager, [TimerOp.createTimer 0 .physical 0 1 1000, .createSession 0 5000].foldlM TimerManager.step
      (new 0) = some manager ∧ manager.ChecksFire 0 [500, 700] := by
  refine ⟨_, rfl, (@checksFire_iff_quiet 0 [.createTimer 0 .physical 0 1 1000, .createSession 0 5000] _
    (by decide) rfl [500, 700]).mpr ?_⟩
  exact ⟨by decide, by decide, by decide, by decide, trivial⟩

/-- A timer of one second is not fired five seconds later, when the tick does not fit an `int`. -/
theorem due_timer_not_fired :
    ¬((new 1700000000000).createTimer 1700000000000 .game 1000 1 0).ChecksFire
      (tick 1700000000000) [1700000005000] := by
  rintro ⟨fuel, manager, hcheck, hfired, -⟩
  rw [checkTimerQueue_early (by decide)] at hcheck
  cases hcheck
  have hcount := hfired (by decide) 0 _ rfl
  rw [if_pos (by decide)] at hcount
  exact absurd hcount.1 (by decide)

end MyLibevent.Proofs
