import MyLibevent.Util

/-!
# Ids of objects

`framework/base/object.h` and `framework/base/object_manager.cpp`. An id is built of the second in which it
is made, the type of the object and a counter that starts again in each second. `int` has 32 bits,
`unsigned long` and `time_t` have 64.
-/

namespace MyLibevent

/-- `EnObjType`. `OBJ_INVALID` has no value of its own in the source, so it follows `OBJ_PLAYER_ENTRY`. -/
inductive ObjType
  | sessionTimer
  | gamerTimer
  | playerEntry
  | invalid
  deriving DecidableEq, Repr

def ObjType.code : ObjType → Int
  | sessionTimer => 0xFE
  | gamerTimer => 0xFD
  | playerEntry => 0xFC
  | invalid => 0xFD

def objIdBits : Nat := 24

abbrev ObjId := BitVec 64

def invalidObjId : ObjId := 0

def objIdStart (objType : ObjType) : Int := cInt (cInt (objType.code * 2 ^ objIdBits) + 1)

def objIdEnd (objType : ObjType) : Int := cInt (cInt ((objType.code + 1) * 2 ^ objIdBits) - 10)

def id2Type (id : ObjId) : Int := ((id >>> objIdBits) &&& 0xFF#64).toNat

/-- `CObjectManager`: the time and the count of the last id. -/
structure ObjectManager where
  lastGetTime : Int
  lastUsedId : Int
  objType : ObjType

namespace ObjectManager

def new (objType : ObjType) (clock : Int) : ObjectManager where
  lastGetTime := cInt clock
  lastUsedId := objIdStart objType
  objType := objType

def advance (manager : ObjectManager) (timeNow : Int) : ObjectManager :=
  if manager.lastGetTime = timeNow then { manager with lastUsedId := cInt (manager.lastUsedId + 1) }
  else { manager with lastGetTime := timeNow, lastUsedId := objIdStart manager.objType }

def pack (timeNow lastUsedId : Int) : ObjId := BitVec.ofInt 64 timeNow <<< 32 ||| BitVec.ofInt 64 lastUsedId

def getValidId (manager : ObjectManager) (clock : Int) : ObjId × ObjectManager :=
  let timeNow := cInt clock
  let manager := manager.advance timeNow
  if objIdEnd manager.objType < manager.lastUsedId then (invalidObjId, manager)
  else (pack timeNow manager.lastUsedId, manager)

variable {ι : Type} [DecidableEq ι]

/-- The ids that calls on several managers return, each with its manager. A call is a manager and what the
clock shows. -/
def serve (managers : ι → ObjectManager) : List (ι × Int) → List (ι × ObjId)
  | [] => []
  | (i, clock) :: calls =>
    let (id, manager) := (managers i).getValidId clock
    (i, id) :: serve (Function.update managers i manager) calls

/-- The ids other than `INVALID_OBJ_ID` are pairwise distinct and tell the types of their managers. -/
def DistinctIds (objType : ι → ObjType) (ids : List (ι × ObjId)) : Prop :=
  ((ids.map Prod.snd).filter (· ≠ invalidObjId)).Nodup ∧
    ∀ x ∈ ids, x.2 ≠ invalidObjId → id2Type x.2 = (objType x.1).code

end ObjectManager

end MyLibevent
