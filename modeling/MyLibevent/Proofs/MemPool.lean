import MyLibevent.Lib.LinkedCells
import MyLibevent.Lib.Runs
import MyLibevent.MemPool

/-!
# The elements of a pool that grows

The unused elements are one list through all the blocks. A call takes the first element of the list, which is
that of a new block where it was empty, or puts an element before it.
-/

namespace MyLibevent.Proofs

open LinkedCells MemPoolRun List

section Links

variable {elements : Elements} {p x : ElementPtr} {q : Option ElementPtr} {b : Bool}

@[simp] lemma setNext_next : (elements.setNext p q x).next = if x = p then q else (elements x).next := by
  unfold Elements.setNext
  split_ifs <;> rfl

@[simp] lemma setBefore_next : (elements.setBefore p q x).next = (elements x).next := by
  unfold Elements.setBefore
  split_ifs <;> rfl

@[simp] lemma setAlloc_next : (elements.setAlloc p b x).next = (elements x).next := by
  unfold Elements.setAlloc
  split_ifs <;> rfl

@[simp] lemma setHeadBefore_next {q' : Option ElementPtr} :
    (elements.setHeadBefore q q' x).next = (elements x).next := by
  cases q
  · rfl
  · exact setBefore_next

lemma linkStep_next {block i : Nat} : (elements.linkStep block i x).next =
    if 0 < i ∧ x = (block, i - 1) then some (block, i) else (elements x).next := by
  unfold Elements.linkStep
  by_cases hi : 0 < i
  · simp [hi]
  · simp [hi]

lemma foldl_linkStep_next (block n : Nat) : (((List.range n).foldl (Elements.linkStep block) elements) x).next =
    if x.1 = block ∧ x.2 + 1 < n then some (block, x.2 + 1) else (elements x).next := by
  induction n with
  | zero => simp
  | succ n ih =>
    rw [range_succ, foldl_append, foldl_cons, foldl_nil, linkStep_next, ih]
    obtain ⟨b, i⟩ := x
    by_cases hb : b = block
    · subst hb
      by_cases hlast : 0 < n ∧ i + 1 = n
      · obtain ⟨hpos, rfl⟩ := hlast
        simp
      · have hne : ¬(0 < n ∧ (b, i) = (b, n - 1)) := by
          rintro ⟨hpos, heq⟩
          simp only [Prod.mk.injEq, true_and] at heq
          omega
        have hiff : (i + 1 < n) ↔ i + 1 < n + 1 := by omega
        rw [if_neg hne]
        simp only [true_and, hiff]
    · simp [hb]

lemma linkBlock_next (block n : Nat) : (elements.linkBlock block n x).next =
    if x = (block, n - 1) then none
    else if x.1 = block ∧ x.2 + 1 < n then some (block, x.2 + 1) else (elements x).next := by
  unfold Elements.linkBlock
  rw [setNext_next, setBefore_next, foldl_linkStep_next]

lemma linkBlock_walk (block : Nat) {n i : Nat} (hi : i < n) :
    Walk id (fun x => (elements.linkBlock block n x).next) (some (block, i))
      ((List.range' i (n - i)).map (fun k => (block, k))) none := by
  obtain ⟨d, hd⟩ : ∃ d, n - i = d + 1 := ⟨n - i - 1, by omega⟩
  induction d generalizing i with
  | zero =>
    obtain rfl : i = n - 1 := by omega
    rw [hd]
    refine ⟨rfl, ?_⟩
    simp [linkBlock_next]
  | succ d ih =>
    have hne : ¬(block, i) = (block, n - 1) := by
      simp only [Prod.mk.injEq, true_and]
      omega
    rw [hd, List.range'_succ, map_cons]
    refine ⟨rfl, ?_⟩
    have hnext : (elements.linkBlock block n (block, i)).next = some (block, i + 1) := by
      rw [linkBlock_next, if_neg hne, if_pos ⟨rfl, by dsimp only; omega⟩]
    have hwalk := ih (show i + 1 < n by omega) (by omega)
    rw [show n - (i + 1) = d + 1 by omega] at hwalk
    simpa only [id, hnext] using hwalk

end Links

def blockElements (n block : Nat) : List ElementPtr := (List.range' 0 n).map (fun k => (block, k))

structure PoolLists (n : Nat) (s : MemPoolRun) (unused : List ElementPtr) : Prop where
  size : s.pool.numOfElements = n
  pos : 0 < n
  blocks : ∀ block, block ∈ s.pool.elementsSetList ↔ block < s.pool.elementsSetList.length
  walk : Walk id (fun x => (s.pool.elements x).next) s.pool.unusedElementsList unused none
  nodup : (unused ++ s.held).Nodup
  all : ∀ x, x ∈ unused ++ s.held ↔ x.1 ∈ s.pool.elementsSetList ∧ x.2 < n
  count : s.pool.numOfAlloc = cInt s.held.length

section Lists

variable {n : Nat} {s : MemPoolRun} {unused : List ElementPtr} {p : ElementPtr}

lemma mem_blockElements {block : Nat} {x : ElementPtr} : x ∈ blockElements n block ↔ x.1 = block ∧ x.2 < n := by
  obtain ⟨b, i⟩ := x
  simp only [blockElements, mem_map, mem_range'_1, Prod.mk.injEq]
  constructor
  · rintro ⟨k, hk, rfl, rfl⟩
    exact ⟨rfl, by omega⟩
  · rintro ⟨rfl, hi⟩
    exact ⟨i, by omega, rfl, rfl⟩

lemma nodup_blockElements (block : Nat) : (blockElements n block).Nodup := by
  apply List.Nodup.map
  · intro i j hij
    exact (Prod.mk.inj hij).2
  · exact nodup_range'

lemma walk_blockElements (elements : Elements) (block : Nat) (hn : 0 < n) :
    Walk id (fun x => (elements.linkBlock block n x).next) (some (block, 0)) (blockElements n block) none :=
  linkBlock_walk block hn

lemma create_lists {memory : Elements} {pool : MemPool} (hcreate : MemPool.create memory n = some pool) :
    PoolLists n ⟨pool, []⟩ (blockElements n 0) := by
  unfold MemPool.create at hcreate
  split_ifs at hcreate with hsize
  cases hcreate
  constructor
  · rfl
  · exact hsize.1
  · intro block
    simp
  · exact walk_blockElements memory 0 hsize.1
  · rw [append_nil]
    exact nodup_blockElements 0
  · intro x
    rw [append_nil, mem_blockElements, mem_singleton]
  · exact (show cInt 0 = 0 by decide).symm

lemma PoolLists.grow (hs : PoolLists n s []) :
    PoolLists n ⟨s.pool.grow, s.held⟩ (blockElements n s.pool.elementsSetList.length) := by
  have hnew : s.pool.elementsSetList.length ∉ s.pool.elementsSetList := by
    rw [hs.blocks]
    omega
  have hheld : ∀ x ∈ s.held, x.1 ∈ s.pool.elementsSetList ∧ x.2 < n := by
    intro x hx
    exact (hs.all x).mp hx
  constructor
  · exact hs.size
  · exact hs.pos
  · intro block
    simp only [MemPool.grow, mem_cons, length_cons, hs.blocks]
    omega
  · have hwalk := walk_blockElements s.pool.elements s.pool.elementsSetList.length hs.pos
    simpa only [MemPool.grow, hs.size] using hwalk
  · apply List.Nodup.append (nodup_blockElements _) hs.nodup
    intro x hx hx'
    rw [mem_blockElements] at hx
    exact hnew (hx.1 ▸ (hheld x hx').1)
  · intro x
    rw [mem_append, mem_blockElements]
    simp only [MemPool.grow, mem_cons]
    constructor
    · rintro (⟨hblock, hlt⟩ | hx)
      · exact ⟨.inl hblock, hlt⟩
      · exact ⟨.inr (hheld x hx).1, (hheld x hx).2⟩
    · rintro ⟨hblock | hblock, hlt⟩
      · exact .inl ⟨hblock, hlt⟩
      · exact .inr ((hs.all x).mpr ⟨hblock, hlt⟩)
  · exact hs.count

lemma PoolLists.take (hs : PoolLists n s (p :: unused)) :
    ∃ pool, s.pool.take = some (p, pool) ∧ p ∉ s.held ∧ PoolLists n ⟨pool, p :: s.held⟩ unused ∧
      pool.elementsSetList = s.pool.elementsSetList := by
  obtain ⟨hhead, hrest⟩ := hs.walk
  have hmiddle : (unused ++ p :: s.held).Perm (p :: unused ++ s.held) := perm_middle
  unfold MemPool.take
  rw [hhead]
  refine ⟨_, rfl, ?_, ?_, rfl⟩
  · intro hp
    exact (nodup_cons.mp hs.nodup).1 (mem_append_right _ hp)
  constructor
  · exact hs.size
  · exact hs.pos
  · exact hs.blocks
  · simpa using hrest
  · exact hmiddle.nodup_iff.mpr hs.nodup
  · intro x
    rw [hmiddle.mem_iff]
    exact hs.all x
  · rw [hs.count, cInt_cInt_add, length_cons]
    push_cast
    rfl

lemma PoolLists.alloc (hs : PoolLists n s unused) :
    ∃ p pool rest, s.pool.alloc = some (p, pool) ∧ p ∉ s.held ∧ PoolLists n ⟨pool, p :: s.held⟩ rest ∧
      pool.elementsSetList.length = s.pool.elementsSetList.length + (if unused = [] then 1 else 0) := by
  have hhead := hs.walk.head
  unfold MemPool.alloc
  cases unused with
  | nil =>
    rw [hhead, head?_nil, if_pos rfl, if_pos rfl]
    have hgrow := hs.grow
    obtain ⟨first, rest, hfirst⟩ : ∃ first rest, blockElements n s.pool.elementsSetList.length = first :: rest := by
      apply exists_cons_of_ne_nil
      have hmem : (s.pool.elementsSetList.length, 0) ∈ blockElements n s.pool.elementsSetList.length :=
        mem_blockElements.mpr ⟨rfl, hs.pos⟩
      exact ne_nil_of_mem hmem
    rw [hfirst] at hgrow
    obtain ⟨pool, htake, hnew, hlists, hblocks⟩ := hgrow.take
    refine ⟨first, pool, rest, htake, hnew, hlists, ?_⟩
    rw [hblocks]
    rfl
  | cons first rest =>
    rw [hhead, head?_cons, if_neg (by simp), if_neg (by simp)]
    obtain ⟨pool, htake, hnew, hlists, hblocks⟩ := hs.take
    refine ⟨first, pool, rest, htake, hnew, hlists, ?_⟩
    rw [hblocks]
    rfl

lemma PoolLists.free (hs : PoolLists n s unused) (hp : p ∈ s.held) :
    PoolLists n ⟨s.pool.free p, s.held.erase p⟩ (p :: unused) := by
  have hmiddle : (p :: unused ++ s.held.erase p).Perm (unused ++ s.held) := by
    have hperm : (unused ++ p :: s.held.erase p).Perm (unused ++ s.held) :=
      (perm_cons_erase hp).symm.append_left unused
    exact perm_middle.symm.trans hperm
  have hpu : p ∉ unused := fun hmem => (nodup_append.mp hs.nodup).2.2 p hmem p hp rfl
  constructor
  · exact hs.size
  · exact hs.pos
  · exact hs.blocks
  · refine ⟨rfl, ?_⟩
    have hnext : ((s.pool.free p).elements p).next = s.pool.unusedElementsList := by
      simp [MemPool.free]
    change Walk id _ ((s.pool.free p).elements p).next unused none
    rw [hnext]
    apply hs.walk.congr
    intro x hx
    have hne : x ≠ p := fun heq => hpu (heq ▸ hx)
    simp [MemPool.free, hne]
  · exact hmiddle.nodup_iff.mpr hs.nodup
  · intro x
    rw [hmiddle.mem_iff]
    exact hs.all x
  · have hpos : 0 < s.held.length := length_pos_of_mem hp
    simp only [MemPool.free, hs.count, length_erase_of_mem hp, Int.sub_eq_add_neg, cInt_cInt_add]
    congr 1
    omega

lemma PoolLists.step {s' : MemPoolRun} {call : MemPoolCall} (hs : PoolLists n s unused) (hcall : s.Allowed call)
    (hstep : s.step call = some s') : ∃ unused', PoolLists n s' unused' := by
  cases call with
  | alloc =>
    obtain ⟨p, pool, rest, halloc, -, hlists, -⟩ := hs.alloc
    rw [MemPoolRun.step, halloc] at hstep
    cases hstep
    exact ⟨rest, hlists⟩
  | free p =>
    cases hstep
    exact ⟨p :: unused, hs.free hcall⟩

end Lists

/-- In every state of a created pool its elements are the unused ones and those held, each once. `Alloc` hands
out one that is not held, from a new block if none is unused. The count is right while it fits an `int`. -/
theorem reachedMemPool_lists {n : Nat} {memory : Elements} {pool : MemPool} {s : MemPoolRun}
    (hcreate : MemPool.create memory n = some pool) (hr : Runs.Reached step Allowed ⟨pool, []⟩ s) :
    ∃ unused, Walk id (fun x => (s.pool.elements x).next) s.pool.unusedElementsList unused none ∧
      (unused ++ s.held).Nodup ∧
      (∀ x, x ∈ unused ++ s.held ↔ x.1 ∈ s.pool.elementsSetList ∧ x.2 < n) ∧
      (s.held.length < 2 ^ 31 → s.pool.numOfAlloc = s.held.length) ∧
      ∃ p pool', s.pool.alloc = some (p, pool') ∧ p ∉ s.held ∧
        pool'.elementsSetList.length = s.pool.elementsSetList.length + (if unused = [] then 1 else 0) := by
  obtain ⟨unused, hs⟩ : ∃ unused, PoolLists n s unused := by
    apply hr.invariant (P := fun s => ∃ unused, PoolLists n s unused)
    · exact ⟨_, create_lists hcreate⟩
    · rintro s call s' ⟨unused, hs⟩ hcall hstep
      exact hs.step hcall hstep
  obtain ⟨p, pool', rest, halloc, hnew, -, hblocks⟩ := hs.alloc
  refine ⟨unused, hs.walk, hs.nodup, hs.all, ?_, p, pool', halloc, hnew, hblocks⟩
  intro hlt
  rw [hs.count]
  exact cInt_of_le (by omega) (by omega)

def threeAllocated : Runs.Given step Allowed
    ⟨((MemPool.create (fun _ => ⟨none, none, true⟩) 2).get rfl), []⟩
    (fun s => decide (s.held = [(1, 0), (0, 1)] ∧ s.pool.elementsSetList = [1, 0])) where
  events := [.alloc, .alloc, .alloc, .free (0, 0)]
  leads := by decide +kernel

theorem reachedMemPool_lists_two : ∃ s : MemPoolRun, s.held = [(1, 0), (0, 1)] ∧ s.pool.numOfAlloc = 2 := by
  obtain ⟨s, hr, hs⟩ := threeAllocated.reached
  obtain ⟨hheld, -⟩ := of_decide_eq_true hs
  obtain ⟨-, -, -, -, hcount, -⟩ := reachedMemPool_lists (Option.some_get rfl).symm hr
  refine ⟨s, hheld, ?_⟩
  rw [hcount (by rw [hheld]; decide), hheld]
  rfl

section Overflow

variable {n : Nat} {memory : Elements} {pool : MemPool}

lemma reached_allocs (hcreate : MemPool.create memory n = some pool) (k : Nat) :
    ∃ s unused, Runs.Reached step Allowed ⟨pool, []⟩ s ∧ PoolLists n s unused ∧ s.held.length = k := by
  induction k with
  | zero => exact ⟨_, _, .start, create_lists hcreate, rfl⟩
  | succ k ih =>
    obtain ⟨s, unused, hr, hs, hlength⟩ := ih
    obtain ⟨p, pool', rest, halloc, -, hlists, -⟩ := hs.alloc
    have hstep : s.step .alloc = some ⟨pool', p :: s.held⟩ := by
      rw [MemPoolRun.step, halloc]
      rfl
    refine ⟨_, rest, hr.step .alloc trivial hstep, hlists, ?_⟩
    rw [length_cons, hlength]

end Overflow

/-- After 2 ^ 31 calls of `Alloc` on a pool in blocks of one the count is negative. -/
theorem memPool_count_overflow :
    ∃ (pool : MemPool) (s : MemPoolRun), MemPool.create (fun _ => ⟨none, none, true⟩) 1 = some pool ∧
      Runs.Reached step Allowed ⟨pool, []⟩ s ∧ s.held.length = 2 ^ 31 ∧ s.pool.numOfAlloc = -2 ^ 31 := by
  have hcreate : MemPool.create (fun _ => ⟨none, none, true⟩) 1 =
      some ((MemPool.create (fun _ => ⟨none, none, true⟩) 1).get rfl) := rfl
  obtain ⟨s, unused, hr, hs, hlength⟩ := reached_allocs hcreate (2 ^ 31)
  refine ⟨_, s, hcreate, hr, hlength, ?_⟩
  rw [hs.count, hlength]
  decide

end MyLibevent.Proofs
