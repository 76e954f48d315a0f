import MyLibevent.ObjectManager

/-!
# Timers and sessions

`CTimerManager` of `framework/timer/timer.cpp`. A pointer to a timer is the number of the `new` that made it.
A `CDoubleLinkerInfo` is the list of its nodes: `InsertIntoFinder` is only called for a node that is in no
list, so the check of `insert` for neighbours passes. The callbacks of the timers only leave their trace in
`fired`, and they do not call the manager. Times are in milliseconds.
-/

namespace MyLibevent

inductive TimerType
  | session
  | timer
  deriving DecidableEq, Repr

def TimerType.code : TimerType → Int
  | session => 0xFD
  | timer => 0xFE

inductive RunTimeMode
  | game
  | physical
  deriving DecidableEq, Repr

def timeT (n : Int) : Int := n.bmod (2 ^ 64)

def timerPercision : Int := 100

def tick (time : Int) : Int := time.tdiv timerPercision

abbrev TimerPtr := Nat

/-- The part of `CTimer` that decides when it is called and destroyed. -/
structure Timer where
  id : ObjId
  timerType : TimerType
  timeout : Int
  millTime : Int
  calledNum : Int
  continues : Bool
  destroy : Bool

namespace Timer

variable (timer : Timer)

def setTimer (clock millTime calledNum : Int) : Timer :=
  { timer with millTime := millTime, timeout := timeT (clock + millTime), calledNum := calledNum }

def setRemainTime (mode : RunTimeMode) (clock time : Int) : Timer :=
  match mode with
  | .physical => { timer with timeout := time }
  | .game => { timer with timeout := timeT (time + clock) }

def setSession (clock millTime : Int) (continues : Bool) : Timer :=
  { timer with continues := continues, millTime := millTime, timeout := timeT (clock + millTime) }

def timeoutTimer (now : Int) : Timer :=
  let calledNum := if 0 < timer.calledNum then timer.calledNum - 1 else timer.calledNum
  if calledNum = 0 then { timer with calledNum := calledNum }
  else
    let compensation := if now - timer.timeout < 0 then 0 else now - timer.timeout
    { timer with calledNum := calledNum, timeout := timeT (now + timer.millTime - compensation) }

def timeoutSession : Timer :=
  if timer.continues then { timer with timeout := timeT (timer.timeout + timer.millTime) } else timer

def afterTimeout (now : Int) : Timer × Bool :=
  if timer.destroy then (timer, false)
  else match timer.timerType with
    | .timer => (timer.timeoutTimer now, true)
    | .session => (timer.timeoutSession, true)

def queuedAgain (clear : Bool) : Bool :=
  match timer.timerType with
  | .timer => !clear && timer.calledNum != 0
  | .session => timer.continues

end Timer

abbrev TimerFinder := List (Int × List TimerPtr)

namespace TimerFinder

def insert (pTimer : TimerPtr) (key : Int) : TimerFinder → TimerFinder
  | [] => [(key, [pTimer])]
  | (key', nodes) :: finder =>
    if key < key' then (key, [pTimer]) :: (key', nodes) :: finder
    else if key = key' then (key', nodes ++ [pTimer]) :: finder
    else (key', nodes) :: insert pTimer key finder

def erase (pTimer : TimerPtr) (key : Int) : TimerFinder → TimerFinder
  | [] => []
  | (key', nodes) :: finder =>
    if key = key' then
      if nodes = [pTimer] then finder else (key', nodes.erase pTimer) :: finder
    else (key', nodes) :: erase pTimer key finder

def nodes (finder : TimerFinder) (key : Int) : List TimerPtr := (List.lookup key finder).getD []

/-- `tIter++` for the iterator at a key, which is the next key or the end. The key has to be in the map still. -/
def next (key : Int) : TimerFinder → Option (Option Int)
  | [] => none
  | (key', _) :: finder => if key = key' then some (finder.head?.map Prod.fst) else next key finder

end TimerFinder

/-- `CTimerManager`. In `objects` are all timers that `new` made, in `live` those that have been created and
not deleted; `fired` are the runs of callbacks. -/
structure TimerManager where
  objects : List Timer
  timerManager : ObjectManager
  timerMap : List (ObjId × TimerPtr)
  sessionManager : ObjectManager
  sessionMap : List (ObjId × TimerPtr)
  finder : TimerFinder
  lastCheckTick : Int
  deleteList : List ObjId
  live : List TimerPtr
  fired : List TimerPtr

namespace TimerManager

def new (clock : Int) : TimerManager where
  objects := []
  timerManager := ObjectManager.new .gamerTimer (clock / 1000)
  timerMap := []
  sessionManager := ObjectManager.new .sessionTimer (clock / 1000)
  sessionMap := []
  finder := []
  lastCheckTick := tick clock
  deleteList := []
  live := []
  fired := []

variable (manager : TimerManager)

def insertIntoFinder (pTimer : TimerPtr) (timer : Timer) : TimerManager :=
  { manager with finder := manager.finder.insert pTimer (tick timer.timeout) }

def eraseFromFinder (pTimer : TimerPtr) (timer : Timer) : TimerManager :=
  { manager with finder := manager.finder.erase pTimer (tick timer.timeout) }

def createObject (timerType : TimerType) (clock : Int) : Timer × TimerManager :=
  match timerType with
  | .timer =>
    let (id, timerManager) := manager.timerManager.getValidId (clock / 1000)
    (⟨id, .timer, 0, 0, 0, false, false⟩, { manager with timerManager := timerManager })
  | .session =>
    let (id, sessionManager) := manager.sessionManager.getValidId (clock / 1000)
    (⟨id, .session, 0, 0, 0, false, false⟩, { manager with sessionManager := sessionManager })

def enqueue (timer : Timer) : TimerManager :=
  { manager with
    objects := manager.objects ++ [timer]
    live := manager.live ++ [manager.objects.length] }.insertIntoFinder manager.objects.length timer

def createTimer (clock : Int) (mode : RunTimeMode) (millTime calledNum remainTime : Int) : TimerManager :=
  let (timer, manager) := manager.createObject .timer clock
  let timer := timer.setTimer clock millTime calledNum
  let timer := if remainTime ≠ 0 then timer.setRemainTime mode clock remainTime else timer
  manager.enqueue timer

def createSession (clock millTime : Int) : TimerManager :=
  let (timer, manager) := manager.createObject .session clock
  manager.enqueue (timer.setSession clock millTime false)

def getObject (id : ObjId) : Option TimerPtr :=
  if id = invalidObjId then none
  else if id2Type id = TimerType.timer.code then List.lookup id manager.timerMap
  else if id2Type id = TimerType.session.code then List.lookup id manager.sessionMap
  else none

def deleteObject (id : ObjId) : TimerManager :=
  if id2Type id = TimerType.timer.code then
    { manager with timerMap := manager.timerMap.filter (·.1 ≠ id) }
  else if id2Type id = TimerType.session.code then
    { manager with timerMap := manager.timerMap.filter (·.1 ≠ id) }
  else manager

def markDeleted (pTimer : TimerPtr) : TimerManager :=
  { manager with live := manager.live.filter (· ≠ pTimer) }

def destroyObject (id : ObjId) : Option TimerManager :=
  match manager.getObject id with
  | none => some manager
  | some pTimer => do
    let timer ← manager.objects[pTimer]?
    let manager := { manager with
      objects := manager.objects.set pTimer { timer with destroy := true }
      deleteList := manager.deleteList ++ [id] }
    some (((manager.eraseFromFinder pTimer timer).deleteObject id).markDeleted pTimer)

def realDestroyTimer (id : ObjId) : Option TimerManager :=
  match manager.getObject id with
  | none => some manager
  | some pTimer => do
    let timer ← manager.objects[pTimer]?
    some (((manager.eraseFromFinder pTimer timer).deleteObject id).markDeleted pTimer)

def timeout (manager : TimerManager) (pTimer : TimerPtr) (now : Int) (clear : Bool) :
    Option (Option TimerPtr × TimerManager) := do
  let timer ← manager.objects[pTimer]?
  let next := (((manager.finder.nodes (tick timer.timeout)).dropWhile (· ≠ pTimer)).drop 1).head?
  let manager := manager.eraseFromFinder pTimer timer
  let (timer, called) := timer.afterTimeout now
  let manager := { manager with
    objects := manager.objects.set pTimer timer
    fired := if called then manager.fired ++ [pTimer] else manager.fired }
  if timer.queuedAgain clear then some (next, manager.insertIntoFinder pTimer timer)
  else some (next, (manager.deleteObject timer.id).markDeleted pTimer)

def forceTimeout (clock : Int) (id : ObjId) (clear : Bool) : Option TimerManager :=
  match manager.getObject id with
  | none => some manager
  | some pTimer => (manager.timeout pTimer clock clear).map Prod.snd

def timeoutList : Nat → TimerManager → Option TimerPtr → Int → Option TimerManager
  | _, manager, none, _ => some manager
  | 0, _, some _, _ => none
  | fuel + 1, manager, some pTimer, now => do
    let (next, manager) ← manager.timeout pTimer now false
    timeoutList fuel manager next now

/-- The loop of `CheckTimerQueue` over the finder, from the iterator `tIter` on. It tells whether the function
has returned. There is no result when an iterator is advanced whose key has been erased. -/
def scanFinder : Nat → TimerManager → Option Int → Int → Option (Bool × TimerManager)
  | _, manager, none, _ => some (false, manager)
  | 0, _, some _, _ => none
  | fuel + 1, manager, some key, now =>
    if cInt (tick now) < key then
      some (true, { manager with lastCheckTick := manager.lastCheckTick + 1 })
    else do
      let manager ← timeoutList fuel manager (manager.finder.nodes key).head? now
      let tIter ← manager.finder.next key
      scanFinder fuel manager tIter now

/-- `CheckTimerQueue`, where `rounds` are those that its outer loop can make. The entries of the list of timers
to destroy are converted to `int`. -/
def checkRounds (fuel : Nat) : Nat → TimerManager → Int → Option TimerManager
  | 0, manager, _ => some manager
  | rounds + 1, manager, now => do
    let manager ← manager.deleteList.foldlM
      (fun manager id => manager.realDestroyTimer (BitVec.ofInt 64 (cInt id.toNat))) manager
    let manager := { manager with deleteList := [] }
    let (returned, manager) ← scanFinder fuel manager (manager.finder.head?.map Prod.fst) now
    if returned then some manager
    else checkRounds fuel rounds { manager with lastCheckTick := manager.lastCheckTick + 1 } now

/-- `CheckTimerQueue`. The fuel bounds the timers and lists that one round handles. -/
def checkTimerQueue (fuel : Nat) (now : Int) : Option TimerManager :=
  checkRounds fuel (cInt (tick now) - manager.lastCheckTick).toNat manager now

end TimerManager

inductive TimerOp
  | createTimer (clock : Int) (mode : RunTimeMode) (millTime calledNum remainTime : Int)
  | createSession (clock millTime : Int)
  | destroyObject (id : ObjId)
  | forceTimeout (clock : Int) (id : ObjId) (clear : Bool)
  | checkTimerQueue (fuel : Nat) (now : Int)
  | getObject (id : ObjId)

def TimerOp.creates : TimerOp → Bool
  | .createTimer .. => true
  | .createSession .. => true
  | _ => false

variable (manager : TimerManager)

def TimerManager.step : TimerOp → Option TimerManager
  | .createTimer clock mode millTime calledNum remainTime =>
    some (manager.createTimer clock mode millTime calledNum remainTime)
  | .createSession clock millTime => some (manager.createSession clock millTime)
  | .destroyObject id => manager.destroyObject id
  | .forceTimeout clock id clear => manager.forceTimeout clock id clear
  | .checkTimerQueue fuel now => manager.checkTimerQueue fuel now
  | .getObject _ => some manager

/-- A timer that has been created and not destroyed is found under its id, which tells its type, and no other
is found. -/
def TimerManager.Found : Prop :=
  ∀ pTimer timer, manager.objects[pTimer]? = some timer →
    (pTimer ∈ manager.live → manager.getObject timer.id = some pTimer ∧ id2Type timer.id = timer.timerType.code) ∧
    (pTimer ∉ manager.live → manager.getObject timer.id ≠ some pTimer)

/-- The timers that fire once: timers that are to be called one time, and sessions as `CreateSession` makes them. -/
def TimerOp.oneShot : TimerOp → Bool
  | .createTimer _ _ _ calledNum _ => calledNum == 1
  | .createSession .. => true
  | _ => false

/-- Exactly the timers whose tick has come have fired, each one time; the others are queued. -/
def TimerManager.FiredUpTo (nowTick : Int) : Prop :=
  ∀ pTimer timer, manager.objects[pTimer]? = some timer →
    if tick timer.timeout ≤ nowTick then
      manager.fired.count pTimer = 1 ∧ ∀ key, pTimer ∉ manager.finder.nodes key
    else manager.fired.count pTimer = 0 ∧ pTimer ∈ manager.finder.nodes (tick timer.timeout)

/-- The queue is checked at each of the times, and after each call in a later tick than that of the call before
the right timers have fired. -/
def TimerManager.ChecksFire (manager : TimerManager) (lastTick : Int) : List Int → Prop
  | [] => True
  | now :: times => ∃ fuel manager', manager.checkTimerQueue fuel now = some manager' ∧
      (lastTick < tick now → manager'.FiredUpTo (tick now)) ∧ manager'.ChecksFire (tick now) times

end MyLibevent
