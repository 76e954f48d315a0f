import MyLibevent.Util

/-!
# A pool of objects in blocks

`CMemoryPool` of `framework/mem/mem_pool.h`. An element is the number of its block, in the order in which the
blocks were made, and its index in the block. The memory of the elements is a function; the values in the
elements are left out.
-/

namespace MyLibevent

abbrev ElementPtr := Nat × Nat

/-- `TagElement`: the links of an element, and whether it is in use. -/
structure TagElement where
  next : Option ElementPtr
  before : Option ElementPtr
  alloc : Bool

abbrev Elements := ElementPtr → TagElement

namespace Elements

variable (elements : Elements)

def setNext (p : ElementPtr) (next : Option ElementPtr) : Elements := fun x =>
  if x = p then { elements x with next := next } else elements x

def setBefore (p : ElementPtr) (before : Option ElementPtr) : Elements := fun x =>
  if x = p then { elements x with before := before } else elements x

def setAlloc (p : ElementPtr) (alloc : Bool) : Elements := fun x =>
  if x = p then { elements x with alloc := alloc } else elements x

def setHeadBefore (head before : Option ElementPtr) : Elements :=
  match head with
  | none => elements
  | some p => elements.setBefore p before

def linkStep (block : Nat) (elements : Elements) (i : Nat) : Elements :=
  let elements :=
    if 0 < i then
      (elements.setBefore (block, i) (some (block, i - 1))).setNext (block, i - 1) (some (block, i))
    else elements
  elements.setAlloc (block, i) false

def linkBlock (block n : Nat) : Elements :=
  (((List.range n).foldl (linkStep block) elements).setBefore (block, 0) none).setNext (block, n - 1) none

end Elements

/-- `CMemoryPool`: its elements, by block and index, and its counts. -/
structure MemPool where
  elements : Elements
  elementsSetList : List Nat
  numOfAlloc : Int
  unusedElementsList : Option ElementPtr
  numOfElements : Nat
  numOfElementsSet : Int

namespace MemPool

/-- `Create`. The number of elements becomes an `int`: `new` fails for a negative one, and with no elements the
links are set outside of the block. -/
def create (memory : Elements) (nNumOfElements : Nat) : Option MemPool :=
  if 0 < nNumOfElements ∧ nNumOfElements < 2 ^ 31 then
    some {
      elements := memory.linkBlock 0 nNumOfElements
      elementsSetList := [0]
      numOfAlloc := 0
      unusedElementsList := some (0, 0)
      numOfElements := nNumOfElements
      numOfElementsSet := 1 }
  else none

variable (pool : MemPool)

def grow : MemPool :=
  { pool with
    elements := pool.elements.linkBlock pool.elementsSetList.length pool.numOfElements
    elementsSetList := pool.elementsSetList.length :: pool.elementsSetList
    unusedElementsList := some (pool.elementsSetList.length, 0)
    numOfElementsSet := cInt (pool.numOfElementsSet + 1) }

def take : Option (ElementPtr × MemPool) :=
  match pool.unusedElementsList with
  | none => none
  | some p =>
    let next := (pool.elements p).next
    some (p, { pool with
      elements := (pool.elements.setHeadBefore next none).setAlloc p true
      unusedElementsList := next
      numOfAlloc := cInt (pool.numOfAlloc + 1) })

/-- `Alloc`. There is no result if the pointer to the unused elements is NULL when it is read. -/
def alloc : Option (ElementPtr × MemPool) :=
  if pool.unusedElementsList = none then pool.grow.take else pool.take

def free (p : ElementPtr) : MemPool :=
  { pool with
    elements := ((((pool.elements.setNext p pool.unusedElementsList).setBefore p none).setHeadBefore
      pool.unusedElementsList (some p)).setAlloc p false)
    unusedElementsList := some p
    numOfAlloc := cInt (pool.numOfAlloc - 1) }

end MemPool

/-- A pool and the elements that its caller holds. -/
structure MemPoolRun where
  pool : MemPool
  held : List ElementPtr

inductive MemPoolCall
  | alloc
  | free (p : ElementPtr)

namespace MemPoolRun

def step (s : MemPoolRun) : MemPoolCall → Option MemPoolRun
  | .alloc => s.pool.alloc.map (fun result => ⟨result.2, result.1 :: s.held⟩)
  | .free p => some ⟨s.pool.free p, s.held.erase p⟩

def Allowed (s : MemPoolRun) : MemPoolCall → Prop
  | .alloc => True
  | .free p => p ∈ s.held

instance (s : MemPoolRun) (call : MemPoolCall) : Decidable (s.Allowed call) := by
  cases call <;> unfold Allowed <;> infer_instance

end MemPoolRun

end MyLibevent
