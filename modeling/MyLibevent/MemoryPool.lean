import Mathlib

/-!
# The memory pool of fixed size

`array_list_node_base`, `fixed_size_array_list` and `fixed_size_memory_pool` of
`framework/mem/array_list.h`. A pointer to a node is the index of the node in `node_`; `NULL` is `none`.
Of a node only its links and its place are kept: the values, which are constructed and
destroyed in place, and `other_link_` have no effect on the lists. A failed `MY_ASSERT` leaves the function.
-/

namespace MyLibevent

def offsetType (x : Int) : Int := x.bmod (2 ^ 32)

/-- `array_list_node_base`: the links of a node, and its place. -/
structure ListNode where
  next : Int
  prev : Int
  startOff : Int

abbrev Nodes : Type := Int → ListNode

namespace Nodes

variable (node : Nodes)

def setNext (i off : Int) : Nodes := fun x => if x = i then { node i with next := off } else node x

def setPrev (i off : Int) : Nodes := fun x => if x = i then { node i with prev := off } else node x

def setStart (i off : Int) : Nodes := fun x => if x = i then { node i with startOff := off } else node x

def next (node : Nodes) (i : Int) : Option Int :=
  if (node i).next ≠ 0 then some (i + (node i).next) else none

def prev (node : Nodes) (i : Int) : Option Int :=
  if (node i).prev ≠ 0 then some (i + (node i).prev) else none

def aloneList (i : Int) : Nodes := (node.setNext i 0).setPrev i 0

def attachHead (i : Int) : Option Int → Nodes
  | none => node.aloneList i
  | some head =>
    let off := (node head).startOff - (node i).startOff
    ((node.setPrev head (-off)).setNext i off).setPrev i 0

def attach (i : Int) : Option Int → Nodes
  | some j =>
    let off := (node j).startOff - (node i).startOff
    (node.setPrev j (-off)).setNext i off
  | none => node.setNext i 0

def clearPrev : Option Int → Nodes
  | some j => node.setPrev j 0
  | none => node

def deleteHead (i : Int) : Option Int × Nodes :=
  let newHead := node.next i
  (newHead, (node.aloneList i).clearPrev newHead)

def deleteNode (i : Int) : Nodes :=
  let prevNode := node.prev i
  let nextNode := node.next i
  let off := match prevNode, nextNode with
    | some p, some n => n - p
    | _, _ => 0
  let node := match prevNode with
    | some p => node.setNext p off
    | none => node
  let node := match nextNode with
    | some n => node.setPrev n (-off)
    | none => node
  node.aloneList i

end Nodes

/-- `fixed_size_array_list`: the nodes, of which the free ones form a list. -/
structure ArrayList where
  maxCount : Nat
  head : Int
  tail : Int
  size : Nat
  node : Nodes

def stackBottom : Int := -1

def nodeOffset : Option Int → Int
  | some i => offsetType i
  | none => stackBottom

namespace ArrayList

variable (list : ArrayList)

def validRange (i : Int) : Bool := decide (0 ≤ i ∧ i < offsetType list.maxCount)

def segregateStep (node : Nodes) (i : Nat) : Nodes :=
  (node.setStart (i + 1) (i + 1)).attach i (some (i + 1))

def segregate (maxCount : Nat) (memory : Nodes) : ArrayList :=
  let tail := offsetType ((maxCount : Int) - 1)
  let node := (List.range tail.toNat).foldl segregateStep (memory.setStart 0 0)
  { maxCount := maxCount
    head := 0
    tail := tail
    size := maxCount
    node := (node.setNext tail 0).setPrev 0 0 }

def allocate : Option Int × ArrayList :=
  if list.size = 0 then (none, list)
  else
    let p := list.head
    let list := { list with size := list.size - 1 }
    if list.size ≠ 0 then
      if list.validRange list.head = false then (none, list)
      else
        let head := offsetType (list.head + (list.node list.head).next)
        (some p, { list with head := head, node := list.node.setPrev head 0 })
    else (some p, list)

def deallocate (x : Int) : ArrayList :=
  let off := offsetType x
  if list.validRange off = false then list
  else if list.size = 0 then
    { list with head := off, tail := off, node := list.node.aloneList off, size := list.size + 1 }
  else if list.validRange list.tail = false then list
  else
    { list with
      tail := off
      node := (list.node.attach list.tail (some off)).setNext off 0
      size := list.size + 1 }

/-- The loop of `deallocate` for a range: the last node before `last` and the number of nodes. At
most `fuel` further nodes are looked at. -/
def walk (node : Nodes) (last : Option Int) : Nat → Int → Nat → Option (Int × Nat)
  | fuel, cur, count =>
    if node.next cur = last then some (cur, count)
    else
      match fuel, node.next cur with
      | fuel + 1, some next => walk node last fuel next (count + 1)
      | _, _ => none

/-- The end of `deallocate` for a range: `count` nodes from `first` to `last` are linked behind the tail. -/
def appendRange (first last : Int) (count : Nat) : ArrayList :=
  let firstOff := offsetType first
  let lastOff := offsetType last
  if list.validRange firstOff = false ∨ list.validRange lastOff = false then list
  else if list.size = 0 then
    { list with
      head := firstOff
      tail := lastOff
      node := (list.node.setNext lastOff 0).setPrev firstOff 0
      size := list.size + count }
  else if list.validRange list.tail = false then list
  else
    { list with
      tail := lastOff
      node := (list.node.attach list.tail (some firstOff)).setNext lastOff 0
      size := list.size + count }

/-- `deallocate` for the nodes from `first` up to `last`, which is not included. -/
def deallocateRange (first : Int) (last : Option Int) : Option ArrayList :=
  if some first = last then some list
  else (walk list.node last list.maxCount first 1).map fun (cur, count) => list.appendRange first cur count

def get (i : Int) : Option Int := if list.validRange i then some i else none

end ArrayList

/-- `fixed_size_memory_pool`: the list, and the first allocated node. -/
structure MemoryPool where
  list : ArrayList
  allocatedStart : Int

namespace MemoryPool

def initailizePool (maxCount : Nat) (memory : Nodes) : MemoryPool :=
  ⟨ArrayList.segregate maxCount memory, stackBottom⟩

def attachHeadNode (pool : MemoryPool) (x : Int) : MemoryPool :=
  let node := if stackBottom ≠ pool.allocatedStart then
      pool.list.node.attachHead x (pool.list.get pool.allocatedStart)
    else pool.list.node.aloneList x
  ⟨{ pool.list with node := node }, nodeOffset (some x)⟩

def allocate (pool : MemoryPool) : Option Int × MemoryPool :=
  match pool.list.allocate with
  | (some p, list) => (some p, attachHeadNode { pool with list := list } p)
  | (none, list) => (none, { pool with list := list })

/-- `none` if the head is not valid, so that `delete_head` is called for `NULL`. -/
def insertHeadBefore (pool : MemoryPool) : Option Int → Option (Bool × MemoryPool)
  | none => some (false, pool)
  | some dst =>
    if ¬0 ≤ pool.allocatedStart then some (false, pool)
    else (pool.list.get pool.allocatedStart).map fun head =>
      let (newHead, node) := pool.list.node.deleteHead head
      let start := nodeOffset newHead
      if start = nodeOffset (some dst) then (true, attachHeadNode ⟨{ pool.list with node := node }, start⟩ head)
      else
        let prev := node.prev dst
        let node := node.attach head (some dst)
        match prev with
        | some prev => (true, ⟨{ pool.list with node := node.attach prev (some head) }, start⟩)
        | none => (false, ⟨{ pool.list with node := node }, start⟩)

def deallocate (pool : MemoryPool) (item : Int) : MemoryPool :=
  let off := nodeOffset (some item)
  if off < 0 ∨ off ≥ offsetType pool.list.maxCount then pool
  else if pool.allocatedStart = off then
    let (head, node) := pool.list.node.deleteHead item
    ⟨{ pool.list with node := node }.deallocate item, nodeOffset head⟩
  else { pool with list := { pool.list with node := pool.list.node.deleteNode item }.deallocate item }

def deallocateRange (pool : MemoryPool) (first : Int) (last : Option Int) : Option MemoryPool :=
  match pool.list.node.prev first with
  | none =>
    ({ pool.list with node := pool.list.node.clearPrev last }.deallocateRange first last).map fun list =>
      ⟨list, nodeOffset last⟩
  | some p =>
    ({ pool.list with node := pool.list.node.attach p last }.deallocateRange first last).map fun list =>
      ⟨list, pool.allocatedStart⟩

inductive Op where
  | allocate
  | deallocate (x : Int)
  | deallocateRange (first : Int) (last : Option Int)

/-- A pool and the nodes that are allocated, in the order of the list. -/
structure History where
  pool : MemoryPool
  allocated : List Int

def withoutRange (allocated : List Int) (first : Int) (last : Option Int) : List Int :=
  allocated.takeWhile (· ≠ first) ++ (allocated.dropWhile (· ≠ first)).dropWhile (some · ≠ last)

/-- Which calls are allowed: the nodes are allocated, and those of a range follow each other. -/
def History.Allowed (h : History) : Op → Prop
  | .allocate => True
  | .deallocate x => x ∈ h.allocated
  | .deallocateRange first last => first ∈ h.allocated ∧ ∀ x ∈ last, x ∈ h.allocated.dropWhile (· ≠ first)

instance (h : History) : (op : Op) → Decidable (h.Allowed op)
  | .allocate => inferInstanceAs (Decidable True)
  | .deallocate x => inferInstanceAs (Decidable (x ∈ h.allocated))
  | .deallocateRange first last => inferInstanceAs (Decidable (first ∈ h.allocated ∧
      ∀ x ∈ last, x ∈ h.allocated.dropWhile (· ≠ first)))

def History.step (h : History) : Op → Option History
  | .allocate =>
    match h.pool.allocate with
    | (some p, pool) => some ⟨pool, p :: h.allocated⟩
    | (none, pool) => some ⟨pool, h.allocated⟩
  | .deallocate x => some ⟨h.pool.deallocate x, h.allocated.erase x⟩
  | .deallocateRange first last =>
    (h.pool.deallocateRange first last).map fun pool => ⟨pool, withoutRange h.allocated first last⟩

end MemoryPool

end MyLibevent
