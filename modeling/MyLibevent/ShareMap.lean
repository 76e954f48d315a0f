import MyLibevent.MemoryPool

/-!
# Maps in shared memory

`sharemem::map` and `sharemem::unordered_map` of `framework/mem`, which have the same functions over a
`std::map` and a `std::unordered_map`. The entries are kept in no particular order, and a range of iterators is
the list of its keys, so that the order of either container is covered. An iterator is the key of its entry;
what dereferences `end()` has no result.
-/

namespace MyLibevent

/-- The pool of the entries, and the node of each key. -/
structure ShareMap (κ : Type) where
  pool : MemoryPool
  map : List (κ × Int)

inductive ShareMapOp (κ : Type)
  | insert (key : κ)
  | eraseKey (key : κ)
  | eraseIterator (key : κ)
  | eraseRange (keys : List κ) (last : κ)
  | clear

namespace ShareMap

variable {κ : Type}

def initialized (capacity : Nat) (memory : Nodes) : ShareMap κ := ⟨MemoryPool.initailizePool capacity memory, []⟩

def clear (m : ShareMap κ) : ShareMap κ := ⟨MemoryPool.initailizePool m.pool.list.maxCount m.pool.list.node, []⟩

variable [DecidableEq κ]

def insert (m : ShareMap κ) (key : κ) : Bool × ShareMap κ :=
  match m.pool.allocate with
  | (none, pool) => (false, { m with pool := pool })
  | (some node, pool) =>
    if (m.map.lookup key).isSome then (false, { m with pool := pool })
    else (true, ⟨pool, (key, node) :: m.map⟩)

def eraseEntry (m : ShareMap κ) (key : κ) (node : Int) : ShareMap κ :=
  ⟨m.pool.deallocate node, m.map.filter fun entry => entry.1 ≠ key⟩

def eraseKey (m : ShareMap κ) (key : κ) : Nat × ShareMap κ :=
  match m.map.lookup key with
  | none => (0, m)
  | some node => (1, m.eraseEntry key node)

def eraseIterator (m : ShareMap κ) (key : κ) : Option (ShareMap κ) := do
  let node ← m.map.lookup key
  return m.eraseEntry key node

/-- `erase` of the entries from the first of the keys up to `last`. The range is empty if there is no key. -/
def eraseRange (m : ShareMap κ) (keys : List κ) (last : κ) : Option (ShareMap κ) := do
  let first ← m.map.lookup (keys.headD last)
  let lastNode ← m.map.lookup last
  let pool ← m.pool.deallocateRange first (some lastNode)
  return ⟨pool, m.map.filter fun entry => entry.1 ∉ keys⟩

def step (m : ShareMap κ) : ShareMapOp κ → Option (ShareMap κ)
  | .insert key => some (m.insert key).2
  | .eraseKey key => some (m.eraseKey key).2
  | .eraseIterator key => m.eraseIterator key
  | .eraseRange keys last => m.eraseRange keys last
  | .clear => some m.clear

def chainFrom (node : Nodes) : Nat → Int → List Int
  | 0, _ => []
  | n + 1, first => first :: match node.next first with
    | some next => chainFrom node n next
    | none => []

def nodesOf (m : ShareMap κ) (keys : List κ) : List Int := (m.map.filter fun entry => entry.1 ∈ keys).map Prod.snd

/-- The nodes of the entries with one of the keys are those from `first` on, with `lastNode` behind them. -/
def Chained (m : ShareMap κ) (keys : List κ) (first lastNode : Int) : Prop :=
  (chainFrom m.pool.list.node ((m.nodesOf keys).length + 1) first).dropLast.Perm (m.nodesOf keys) ∧
    (chainFrom m.pool.list.node ((m.nodesOf keys).length + 1) first).getLast? = some lastNode

/-- No key is inserted twice while a node is free, and the nodes of a range that is erased follow each other in the
pool, with the node of the last entry behind them. -/
def Suitable (m : ShareMap κ) : ShareMapOp κ → Prop
  | .insert key => m.pool.list.size = 0 ∨ m.map.lookup key = none
  | .eraseRange keys last => ∀ first ∈ m.map.lookup (keys.headD last), ∀ lastNode ∈ m.map.lookup last,
    m.Chained keys first lastNode
  | _ => True

instance (m : ShareMap κ) (keys : List κ) (first lastNode : Int) : Decidable (m.Chained keys first lastNode) :=
  inferInstanceAs (Decidable (_ ∧ _))

instance (m : ShareMap κ) (op : ShareMapOp κ) : Decidable (m.Suitable op) := by
  cases op <;> unfold Suitable <;> infer_instance

end ShareMap

end MyLibevent
