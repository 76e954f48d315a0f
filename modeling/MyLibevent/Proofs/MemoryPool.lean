import MyLibevent.Lib.DoubleLinks
import MyLibevent.Lib.Runs
import MyLibevent.MemoryPool

/-!
# The free and the allocated nodes of a pool

The free nodes and the allocated nodes are two doubly linked lists in one array. Each call takes nodes out of
one list and links them into the other.
-/

namespace MyLibevent.Proofs

open DoubleLinks ArrayList MemoryPool List

lemma offsetType_eq {x : Int} (hlow : -2 ^ 31 ≤ x) (hhigh : x < 2 ^ 31) : offsetType x = x := by
  unfold offsetType
  rw [Int.bmod_def]
  omega

section Links

variable {node : Nodes} {i j x off : Int}

@[simp] lemma next_setNext : (node.setNext i off).next x =
    if x = i then if off = 0 then none else some (i + off) else node.next x := by
  by_cases hx : x = i <;> simp [Nodes.next, Nodes.setNext, hx]

@[simp] lemma prev_setNext : (node.setNext i off).prev x = node.prev x := by
  by_cases hx : x = i <;> simp [Nodes.prev, Nodes.setNext, hx]

@[simp] lemma next_setPrev : (node.setPrev i off).next x = node.next x := by
  by_cases hx : x = i <;> simp [Nodes.next, Nodes.setPrev, hx]

@[simp] lemma prev_setPrev : (node.setPrev i off).prev x =
    if x = i then if off = 0 then none else some (i + off) else node.prev x := by
  by_cases hx : x = i <;> simp [Nodes.prev, Nodes.setPrev, hx]

@[simp] lemma next_setStart : (node.setStart i off).next x = node.next x := by
  by_cases hx : x = i <;> simp [Nodes.next, Nodes.setStart, hx]

@[simp] lemma prev_setStart : (node.setStart i off).prev x = node.prev x := by
  by_cases hx : x = i <;> simp [Nodes.prev, Nodes.setStart, hx]

@[simp] lemma startOff_setNext : (node.setNext i off x).startOff = (node x).startOff := by
  by_cases hx : x = i <;> simp [Nodes.setNext, hx]

@[simp] lemma startOff_setPrev : (node.setPrev i off x).startOff = (node x).startOff := by
  by_cases hx : x = i <;> simp [Nodes.setPrev, hx]

@[simp] lemma startOff_setStart : (node.setStart i off x).startOff = if x = i then off else (node x).startOff := by
  by_cases hx : x = i <;> simp [Nodes.setStart, hx]

@[simp] lemma next_aloneList : (node.aloneList i).next x = if x = i then none else node.next x := by
  simp [Nodes.aloneList]

@[simp] lemma prev_aloneList : (node.aloneList i).prev x = if x = i then none else node.prev x := by
  simp [Nodes.aloneList]

@[simp] lemma startOff_aloneList : (node.aloneList i x).startOff = (node x).startOff := by
  simp [Nodes.aloneList]

@[simp] lemma next_clearPrev {j : Option Int} : (node.clearPrev j).next x = node.next x := by
  cases j <;> simp [Nodes.clearPrev]

@[simp] lemma prev_clearPrev {j : Option Int} : (node.clearPrev j).prev x =
    if j = some x then none else node.prev x := by
  cases j <;> simp [Nodes.clearPrev, eq_comm]

@[simp] lemma startOff_clearPrev {j : Option Int} : (node.clearPrev j x).startOff = (node x).startOff := by
  cases j <;> simp [Nodes.clearPrev]

@[simp] lemma startOff_attach {j : Option Int} : (node.attach i j x).startOff = (node x).startOff := by
  cases j <;> simp [Nodes.attach]

lemma next_attach (hi : (node i).startOff = i) (hj : (node j).startOff = j) (hne : i ≠ j) :
    (node.attach i (some j)).next x = if x = i then some j else node.next x := by
  have hoff : j - i ≠ 0 := by omega
  simp [Nodes.attach, hi, hj, hoff]

lemma prev_attach (hi : (node i).startOff = i) (hj : (node j).startOff = j) (hne : i ≠ j) :
    (node.attach i (some j)).prev x = if x = j then some i else node.prev x := by
  have hoff : i - j ≠ 0 := by omega
  simp [Nodes.attach, hi, hj, hoff]

end Links

structure FreeNodes (capacity : Nat) (list : ArrayList) (free : List Int) : Prop where
  maxCount : list.maxCount = capacity
  start : ∀ i : Int, 0 ≤ i → i < capacity → (list.node i).startOff = i
  bounds : ∀ i ∈ free, 0 ≤ i ∧ i < capacity
  nodup : free.Nodup
  links : Seg list.node.next list.node.prev none free none
  head : ∀ x ∈ free.head?, list.head = x
  tail : ∀ x ∈ free.getLast?, list.tail = x
  size : list.size = free.length

section Lists

variable {capacity : Nat} {list : ArrayList} {free rest l : List Int} {x first last : Int}
  {p n : Option Int} {node : Nodes}

lemma validRange_iff (hcap : capacity < 2 ^ 31) (hmax : list.maxCount = capacity) :
    list.validRange x ↔ 0 ≤ x ∧ x < capacity := by
  unfold ArrayList.validRange
  rw [hmax, offsetType_eq (by omega) (by omega), decide_eq_true_eq]

lemma FreeNodes.allocate (hf : FreeNodes capacity list (x :: rest)) (hcap : capacity < 2 ^ 31) :
    ∃ list', list.allocate = (some x, list') ∧ FreeNodes capacity list' rest ∧
      ∀ z ∉ rest, list'.node.next z = list.node.next z ∧ list'.node.prev z = list.node.prev z := by
  have hhead : list.head = x := hf.head x rfl
  have hsize : list.size = rest.length + 1 := by simpa using hf.size
  have hnodup := nodup_cons.mp hf.nodup
  have hbounds {i : Int} (hi : i ∈ rest) := hf.bounds i (mem_cons_of_mem x hi)
  unfold ArrayList.allocate
  cases rest with
  | nil =>
    rw [if_neg (by omega), if_neg (by simp [hsize]), hhead]
    refine ⟨_, rfl, ⟨hf.maxCount, hf.start, by simp, nodup_nil, trivial, by simp, by simp, by simp [hsize]⟩, ?_⟩
    simp
  | cons y rest =>
    have hvalid : ({ list with size := list.size - 1 } : ArrayList).validRange list.head :=
      (validRange_iff hcap hf.maxCount).mpr (by rw [hhead]; exact hf.bounds x mem_cons_self)
    have hnext : list.node.next x = some y := hf.links.2.1
    have hoff : x + (list.node x).next = y := by
      unfold Nodes.next at hnext
      split at hnext
      · exact Option.some.inj hnext
      · cases hnext
    have hy := hbounds (mem_cons_self)
    rw [if_neg (by omega), if_pos (by simp [hsize]), hvalid, if_neg (by simp), hhead, hoff,
      offsetType_eq (by omega) (by omega)]
    refine ⟨_, rfl, ⟨hf.maxCount, by simpa using hf.start, fun i hi => hbounds hi, hnodup.2, ?_, by simp, ?_,
      by simp [hsize]⟩, ?_⟩
    · apply hf.links.2.2.reseat hnodup.2
      · intro z _
        simp [eq_comm]
      · intro z _
        split_ifs with hlast
        · simpa using hf.links.2.2.next_last hlast
        · simp
    · intro z hz
      exact hf.tail z (by rw [getLast?_cons_cons]; exact hz)
    · intro z hz
      have hzy : z ≠ y := (ne_of_mem_of_not_mem mem_cons_self hz).symm
      simp [hzy]

lemma allocate_empty (hf : FreeNodes capacity list []) : list.allocate = (none, list) := by
  unfold ArrayList.allocate
  rw [if_pos (by simpa using hf.size)]

lemma FreeNodes.relink (hf : FreeNodes capacity list free)
    (hstart : ∀ i, (node i).startOff = (list.node i).startOff)
    (hlinks : ∀ z ∈ free, node.next z = list.node.next z ∧ node.prev z = list.node.prev z) :
    FreeNodes capacity { list with node := node } free where
  maxCount := hf.maxCount
  start i hlow hhigh := (hstart i).trans (hf.start i hlow hhigh)
  bounds := hf.bounds
  nodup := hf.nodup
  links := hf.links.congr hf.nodup (fun z hz => (hlinks z hz).2) fun z hz => (hlinks z hz).1
  head := hf.head
  tail := hf.tail
  size := hf.size

lemma FreeNodes.appendRange (hf : FreeNodes capacity list free) (hcap : capacity < 2 ^ 31)
    (hbounds : ∀ i ∈ l, 0 ≤ i ∧ i < capacity) (hnodup : l.Nodup) (hdisj : free.Disjoint l)
    (hlinks : Seg list.node.next list.node.prev p l n) (hfirst : l.head? = some first)
    (hlast : l.getLast? = some last) :
    FreeNodes capacity (list.appendRange first last l.length) (free ++ l) ∧
      ∀ z ∉ free ++ l, (list.appendRange first last l.length).node.next z = list.node.next z ∧
        (list.appendRange first last l.length).node.prev z = list.node.prev z := by
  have hfb := hbounds first (mem_of_head? hfirst)
  have hlb := hbounds last (mem_of_getLast? hlast)
  have hbounds' : ∀ i ∈ free ++ l, 0 ≤ i ∧ i < capacity := forall_mem_append.mpr ⟨hf.bounds, hbounds⟩
  have hnodup' : (free ++ l).Nodup := nodup_append'.mpr ⟨hf.nodup, hnodup, hdisj⟩
  have hvalid {i : Int} (hi : 0 ≤ i ∧ i < capacity) : list.validRange i :=
    (validRange_iff hcap hf.maxCount).mpr hi
  have htail' : (free ++ l).getLast? = some last := by
    rw [getLast?_append, hlast, Option.some_or]
  unfold ArrayList.appendRange
  dsimp only
  rw [offsetType_eq (by omega) (by omega), offsetType_eq (by omega) (by omega), hvalid hfb, hvalid hlb,
    if_neg (by simp)]
  cases hlastFree : free.getLast? with
  | none =>
    obtain rfl := getLast?_eq_none_iff.mp hlastFree
    rw [if_pos (by simpa using hf.size)]
    refine ⟨⟨hf.maxCount, by simpa using hf.start, hbounds', hnodup', ?_, by simp [hfirst], by simp [hlast], ?_⟩, ?_⟩
    · apply hf.links.join hlinks hf.nodup hnodup hdisj
      · intro z _
        simp [hfirst, eq_comm]
      · intro z _
        simp [hlast, eq_comm]
    · simp [hf.size]
    · intro z hz
      have hzf : z ≠ first := (ne_of_mem_of_not_mem (mem_of_head? hfirst) hz).symm
      have hzl : z ≠ last := (ne_of_mem_of_not_mem (mem_of_getLast? hlast) hz).symm
      simp [hzf, hzl]
  | some t =>
    have htfree : t ∈ free := mem_of_getLast? hlastFree
    have ht : list.tail = t := hf.tail t hlastFree
    have hlen : 0 < free.length := length_pos_of_mem htfree
    have htb := hf.bounds t htfree
    have htf : t ≠ first := by
      rintro rfl
      exact hdisj htfree (mem_of_head? hfirst)
    have hnext {z : Int} := next_attach (x := z) (hf.start t htb.1 htb.2) (hf.start first hfb.1 hfb.2) htf
    have hprev {z : Int} := prev_attach (x := z) (hf.start t htb.1 htb.2) (hf.start first hfb.1 hfb.2) htf
    have hheadFree : ∀ z, (free ++ l).head? = some z → free.head? = some z := by
      intro z hz
      cases free with
      | nil => cases hlastFree
      | cons y free => exact hz
    rw [if_neg (by rw [hf.size]; omega), ht, hvalid htb, if_neg (by simp)]
    refine ⟨⟨hf.maxCount, by simpa using hf.start, hbounds', hnodup', ?_, ?_, by simp [htail'], ?_⟩, ?_⟩
    · apply hf.links.join hlinks hf.nodup hnodup hdisj
      · intro z _
        simp [hprev, hfirst, hlastFree, eq_comm]
      · intro z hz
        simp only [next_setNext, hnext, hfirst, hlast, hlastFree, Option.some.injEq, if_true]
        have htl : t ≠ last := by
          rintro rfl
          exact hdisj htfree (mem_of_getLast? hlast)
        by_cases hzl : z = last
        · rw [if_pos hzl, if_neg (by rw [hzl]; exact htl), if_pos hzl.symm]
        · simp [hzl, eq_comm, Ne.symm hzl]
    · intro z hz
      exact hf.head z (hheadFree z hz)
    · simp [hf.size]
    · intro z hz
      rw [mem_append, not_or] at hz
      have hzf : z ≠ first := (ne_of_mem_of_not_mem (mem_of_head? hfirst) hz.2).symm
      have hzl : z ≠ last := (ne_of_mem_of_not_mem (mem_of_getLast? hlast) hz.2).symm
      have hzt : z ≠ t := (ne_of_mem_of_not_mem htfree hz.1).symm
      simp [hnext, hprev, hzf, hzl, hzt]

lemma deallocate_eq_appendRange : list.deallocate x = list.appendRange x x 1 := by
  unfold ArrayList.deallocate ArrayList.appendRange
  simp only [or_self]
  rfl

lemma walk_links (hlinks : Seg node.next node.prev p (x :: l) n) (hn : ∀ y ∈ n, y ∉ x :: l)
    (fuel count : Nat) (hfuel : l.length ≤ fuel) (hlast : (x :: l).getLast? = some last) :
    walk node n fuel x count = some (last, count + l.length) := by
  induction l generalizing p x fuel count with
  | nil =>
    obtain rfl : x = last := Option.some.inj hlast
    have hnext : node.next x = n := hlinks.2.1
    unfold walk
    rw [if_pos hnext]
    rfl
  | cons y l ih =>
    have hnext : node.next x = some y := hlinks.2.1
    unfold walk
    rw [hnext, if_neg (fun h => hn y h.symm (mem_cons_of_mem x mem_cons_self))]
    cases fuel with
    | zero => simp at hfuel
    | succ fuel =>
      have hrec := ih hlinks.2.2 (fun z hz hmem => hn z hz (mem_cons_of_mem x hmem))
        fuel (count + 1) (by simpa using hfuel) hlast
      simpa [Nat.add_assoc, Nat.add_comm 1] using hrec

end Lists

structure PoolOk (capacity : Nat) (pool : MemoryPool) (free allocated : List Int) : Prop where
  freeNodes : FreeNodes capacity pool.list free
  links : Seg pool.list.node.next pool.list.node.prev none allocated none
  partition : (free ++ allocated).Perm ((List.range capacity).map Int.ofNat)
  start : pool.allocatedStart = allocated.head?.getD stackBottom

section Pool

variable {capacity : Nat} {pool : MemoryPool} {free rest allocated l l1 l2 : List Int}
  {x first start z prevNode : Int} {node : Nodes} {nextNode : Option Int}

section

variable (hc : PoolOk capacity pool free allocated)
include hc

lemma PoolOk.nodup : (free ++ allocated).Nodup := by
  rw [hc.partition.nodup_iff]
  exact nodup_range.map Int.ofNat_injective

lemma PoolOk.bounds (hx : x ∈ allocated) : 0 ≤ x ∧ x < capacity := by
  have hmem := hc.partition.mem_iff.mp (mem_append_right free hx)
  obtain ⟨i, hi, rfl⟩ := mem_map.mp hmem
  rw [mem_range] at hi
  exact ⟨Int.natCast_nonneg i, Int.ofNat_lt.mpr hi⟩

lemma PoolOk.nodup_allocated : allocated.Nodup :=
  (nodup_append'.mp hc.nodup).2.1

lemma PoolOk.disjoint : free.Disjoint allocated :=
  (nodup_append'.mp hc.nodup).2.2

end

lemma nodeOffset_head (hcap : capacity < 2 ^ 31) (hbounds : ∀ x ∈ l, 0 ≤ x ∧ x < capacity) :
    nodeOffset l.head? = l.head?.getD stackBottom := by
  cases l with
  | nil => rfl
  | cons x l =>
    have hx := hbounds x mem_cons_self
    exact offsetType_eq (by omega) (by omega)

lemma PoolOk.attachHeadNode {list : ArrayList} (hc : PoolOk capacity pool (x :: free) allocated)
    (hcap : capacity < 2 ^ 31) (hf : FreeNodes capacity list free)
    (hlinks : Seg list.node.next list.node.prev none allocated none) :
    PoolOk capacity (MemoryPool.attachHeadNode ⟨list, pool.allocatedStart⟩ x) free (x :: allocated) := by
  have hx := hc.freeNodes.bounds x mem_cons_self
  obtain ⟨hxfree, -⟩ := nodup_cons.mp hc.freeNodes.nodup
  have hxalloc : x ∉ allocated := fun hmem => hc.disjoint mem_cons_self hmem
  have hdisj : free.Disjoint allocated := fun y hy => hc.disjoint (mem_cons_of_mem x hy)
  have hpartition : (free ++ x :: allocated).Perm ((List.range capacity).map Int.ofNat) :=
    perm_middle.trans hc.partition
  have hnefree {z : Int} (hz : z ∈ free) : z ≠ x := ne_of_mem_of_not_mem hz hxfree
  have hnealloc {z : Int} (hz : z ∈ allocated) : z ≠ x := ne_of_mem_of_not_mem hz hxalloc
  have hoff : nodeOffset (some x) = x := offsetType_eq (by omega) (by omega)
  unfold MemoryPool.attachHeadNode
  rw [hc.start, hoff]
  cases allocated with
  | nil =>
    rw [head?_nil, Option.getD_none, if_neg (by simp)]
    refine ⟨hf.relink (fun i => startOff_aloneList) fun z hz => ?_, ?_, hpartition, rfl⟩
    · simp [hnefree hz]
    · exact ⟨by simp, by simp, trivial⟩
  | cons a allocated =>
    have ha := hc.bounds mem_cons_self
    have hax := hnealloc mem_cons_self
    have hbottom : stackBottom ≠ a := by
      unfold stackBottom
      omega
    have hget : list.get a = some a := if_pos ((validRange_iff hcap hf.maxCount).mpr ha)
    have hstart : (list.node a).startOff - (list.node x).startOff = a - x := by
      rw [hf.start a ha.1 ha.2, hf.start x hx.1 hx.2]
    rw [head?_cons, Option.getD_some, if_pos hbottom, hget]
    unfold Nodes.attachHead
    dsimp only
    rw [hstart]
    refine ⟨hf.relink (fun i => by simp) fun z hz => ?_, ?_, hpartition, rfl⟩
    · have hza : z ≠ a := by
        rintro rfl
        exact hdisj hz mem_cons_self
      simp [hnefree hz, hza]
    · apply hlinks.insert hc.nodup_allocated
      · simp
      · have hne : a - x ≠ 0 := by omega
        simp [hne]
      · intro z hz
        have hne : x - a ≠ 0 := by omega
        simp [hnealloc hz, hne, eq_comm]
      · intro z hz
        simp [hnealloc hz]

lemma PoolOk.allocate (hc : PoolOk capacity pool (x :: rest) allocated) (hcap : capacity < 2 ^ 31) :
    ∃ pool', pool.allocate = (some x, pool') ∧ PoolOk capacity pool' rest (x :: allocated) := by
  obtain ⟨list, hlist, hfree, hframe⟩ := hc.freeNodes.allocate hcap
  have hlinks : Seg list.node.next list.node.prev none allocated none := by
    have hout {z : Int} (hz : z ∈ allocated) : z ∉ rest :=
      fun hmem => hc.disjoint (mem_cons_of_mem x hmem) hz
    exact hc.links.congr hc.nodup_allocated (fun z hz => (hframe z (hout hz)).2) fun z hz => (hframe z (hout hz)).1
  unfold MemoryPool.allocate
  rw [hlist]
  exact ⟨_, rfl, hc.attachHeadNode hcap hfree hlinks⟩

lemma PoolOk.allocate_fails (hc : PoolOk capacity pool [] allocated) : pool.allocate = (none, pool) := by
  unfold MemoryPool.allocate
  rw [allocate_empty hc.freeNodes]

lemma PoolOk.freed {first last : Int} {p n : Option Int}
    (hc : PoolOk capacity pool free (l1 ++ (l ++ l2))) (hcap : capacity < 2 ^ 31)
    (hstart : ∀ i, (node i).startOff = (pool.list.node i).startOff)
    (hframe : ∀ z ∈ free, node.next z = pool.list.node.next z ∧ node.prev z = pool.list.node.prev z)
    (hkept : Seg node.next node.prev none (l1 ++ l2) none) (hfreed : Seg node.next node.prev p l n)
    (hfirst : l.head? = some first) (hlast : l.getLast? = some last)
    (hhead : start = (l1 ++ l2).head?.getD stackBottom) :
    PoolOk capacity ⟨{ pool.list with node := node }.appendRange first last l.length, start⟩ (free ++ l)
      (l1 ++ l2) := by
  have hperm : (l1 ++ (l ++ l2)).Perm (l ++ (l1 ++ l2)) := by
    rw [← append_assoc, ← append_assoc]
    exact perm_append_comm.append_right l2
  have hnodup := hperm.nodup_iff.mp hc.nodup_allocated
  obtain ⟨hnl, hnk, hdl⟩ := nodup_append'.mp hnodup
  have hmem {z : Int} (hz : z ∈ l) : z ∈ l1 ++ (l ++ l2) := hperm.mem_iff.mpr (mem_append_left _ hz)
  have hmem' {z : Int} (hz : z ∈ l1 ++ l2) : z ∈ l1 ++ (l ++ l2) := hperm.mem_iff.mpr (mem_append_right _ hz)
  obtain ⟨hfree, hrest⟩ := (hc.freeNodes.relink hstart hframe).appendRange hcap (fun i hi => hc.bounds (hmem hi)) hnl
    (fun z hz hzl => hc.disjoint hz (hmem hzl)) hfreed hfirst hlast
  have hout {z : Int} (hz : z ∈ l1 ++ l2) : z ∉ free ++ l := by
    intro hz'
    cases mem_append.mp hz' with
    | inl hz' => exact hc.disjoint hz' (hmem' hz)
    | inr hz' => exact hdl hz' hz
  refine ⟨hfree, ?_, ?_, hhead⟩
  · exact hkept.congr hnk (fun z hz => (hrest z (hout hz)).2) fun z hz => (hrest z (hout hz)).1
  · rw [append_assoc]
    exact (hperm.symm.append_left free).trans hc.partition

section

variable (hprev : node.prev x = some prevNode) (hnext : node.next x = nextNode) (hne : ∀ y ∈ nextNode, y ≠ prevNode)

include hprev hnext hne

lemma next_deleteNode : (node.deleteNode x).next z =
    if z = x then none else if z = prevNode then nextNode else node.next z := by
  unfold Nodes.deleteNode
  rw [hprev, hnext]
  cases nextNode with
  | none => simp
  | some y =>
    have hoff : y - prevNode ≠ 0 := by
      have hy := hne y rfl
      omega
    simp [hoff]

lemma prev_deleteNode : (node.deleteNode x).prev z =
    if z = x then none else if nextNode = some z then some prevNode else node.prev z := by
  unfold Nodes.deleteNode
  rw [hprev, hnext]
  cases nextNode with
  | none => simp
  | some y =>
    have hoff : prevNode - y ≠ 0 := by
      have hy := hne y rfl
      omega
    simp [hoff, eq_comm]

end

lemma startOff_deleteNode : (node.deleteNode x z).startOff = (node z).startOff := by
  unfold Nodes.deleteNode
  cases node.prev x <;> cases node.next x <;> simp

lemma PoolOk.outside (hc : PoolOk capacity pool free (l1 ++ (l ++ l2)))
    (hz : z ∈ free) : l1.getLast? ≠ some z ∧ l2.head? ≠ some z := by
  have hout : z ∉ l1 ++ (l ++ l2) := fun hmem => hc.disjoint hz hmem
  simp only [mem_append, not_or] at hout
  exact ⟨fun h => hout.1 (mem_of_getLast? h), fun h => hout.2.2 (mem_of_head? h)⟩

lemma PoolOk.unlinked (hc : PoolOk capacity pool free (l1 ++ x :: l2))
    (hcap : capacity < 2 ^ 31) (hstart : ∀ i, (node i).startOff = (pool.list.node i).startOff)
    (hprev : ∀ y, node.prev y =
      if y = x then none else if l2.head? = some y then l1.getLast? else pool.list.node.prev y)
    (hnext : ∀ y, node.next y =
      if y = x then none else if l1.getLast? = some y then l2.head? else pool.list.node.next y)
    (hhead : start = (l1 ++ l2).head?.getD stackBottom) :
    PoolOk capacity ⟨{ pool.list with node := node }.deallocate x, start⟩ (free ++ [x]) (l1 ++ l2) := by
  obtain ⟨hkept, halone⟩ := hc.links.unlink hc.nodup_allocated hprev hnext
  rw [deallocate_eq_appendRange]
  refine PoolOk.freed (l := [x]) hc hcap hstart (fun z hz => ?_) hkept halone rfl rfl hhead
  have hzx : z ≠ x := by
    rintro rfl
    exact hc.disjoint hz (mem_append_right l1 mem_cons_self)
  obtain ⟨hlast, hhead⟩ := PoolOk.outside (l := [x]) hc hz
  rw [hprev, hnext, if_neg hzx, if_neg hzx, if_neg hlast, if_neg hhead]
  exact ⟨rfl, rfl⟩

lemma PoolOk.deallocate (hc : PoolOk capacity pool free (l1 ++ x :: l2)) (hcap : capacity < 2 ^ 31) :
    PoolOk capacity (pool.deallocate x) (free ++ [x]) (l1 ++ l2) := by
  have hx := hc.bounds (mem_append_right l1 mem_cons_self)
  have hoff : nodeOffset (some x) = x := offsetType_eq (by omega) (by omega)
  have hmax : offsetType pool.list.maxCount = capacity := by
    rw [hc.freeNodes.maxCount]
    exact offsetType_eq (by omega) (by omega)
  have hsplit := seg_append.mp hc.links
  have hnext : pool.list.node.next x = l2.head? := by simpa using hsplit.2.2.1
  have hprev : pool.list.node.prev x = l1.getLast? := by simpa using hsplit.2.1
  obtain ⟨-, -, hdisj⟩ := nodup_append'.mp hc.nodup_allocated
  unfold MemoryPool.deallocate
  rw [hoff, hmax, if_neg (by omega), hc.start]
  cases hlast : l1.getLast? with
  | none =>
    -- the node is the latest one
    obtain rfl := getLast?_eq_none_iff.mp hlast
    rw [nil_append, head?_cons, Option.getD_some, if_pos rfl]
    unfold Nodes.deleteHead
    rw [hnext]
    apply hc.unlinked hcap
    · intro i
      simp
    · intro y
      by_cases hy : y = x <;> simp [hy]
    · intro y
      simp
    · apply nodeOffset_head hcap
      intro y hy
      exact hc.bounds (mem_cons_of_mem x hy)
  | some p =>
    have hp : p ∈ l1 := mem_of_getLast? hlast
    rw [hlast] at hprev
    have hne : ∀ y ∈ l2.head?, y ≠ p := by
      rintro y hy rfl
      exact hdisj hp (mem_cons_of_mem x (mem_of_head? hy))
    have hhead : (l1 ++ x :: l2).head? = (l1 ++ l2).head? := by
      cases l1 with
      | nil => cases hp
      | cons a l1 => rfl
    have hstart : (l1 ++ l2).head?.getD stackBottom ≠ x := by
      cases l1 with
      | nil => cases hp
      | cons a l1 =>
        rintro rfl
        exact hdisj mem_cons_self mem_cons_self
    rw [hhead, if_neg hstart]
    apply hc.unlinked hcap
    · intro i
      exact startOff_deleteNode
    · intro y
      rw [prev_deleteNode hprev hnext hne, hlast]
    · intro y
      rw [next_deleteNode hprev hnext hne, hlast]
      simp [eq_comm]
    · rfl

lemma PoolOk.length (hc : PoolOk capacity pool free allocated) : free.length + allocated.length = capacity := by
  have hlength := hc.partition.length_eq
  simpa using hlength

structure CutLinks (node node' : Nodes) (l1 l2 : List Int) : Prop where
  start : ∀ i, (node' i).startOff = (node i).startOff
  prev : ∀ y, node'.prev y = if l2.head? = some y then l1.getLast? else node.prev y
  next : ∀ y, node'.next y = if l1.getLast? = some y then l2.head? else node.next y

lemma PoolOk.cut (hc : PoolOk capacity pool free (l1 ++ (l ++ l2))) (node : Nodes)
    (start : Int) (hcap : capacity < 2 ^ 31) (hcut : CutLinks pool.list.node node l1 l2)
    (hfirst : (l ++ l2).head? = some first) (hhead : start = (l1 ++ l2).head?.getD stackBottom) :
    ∃ list, { pool.list with node := node }.deallocateRange first l2.head? = some list ∧
      PoolOk capacity ⟨list, start⟩ (free ++ l) (l1 ++ l2) := by
  obtain ⟨hkept, hfreed⟩ := hc.links.cut hc.nodup_allocated hcut.prev hcut.next
  have hframe : ∀ z ∈ free, node.next z = pool.list.node.next z ∧ node.prev z = pool.list.node.prev z := by
    intro z hz
    obtain ⟨hlast, hhead⟩ := hc.outside hz
    rw [hcut.next, hcut.prev, if_neg hlast, if_neg hhead]
    exact ⟨rfl, rfl⟩
  obtain ⟨-, hnodup, -⟩ := nodup_append'.mp hc.nodup_allocated
  obtain ⟨hnl, -, hdisj⟩ := nodup_append'.mp hnodup
  unfold ArrayList.deallocateRange
  cases l with
  | nil =>
    have hsame : some first = l2.head? := hfirst.symm
    rw [if_pos hsame, append_nil]
    exact ⟨_, rfl, hc.freeNodes.relink hcut.start hframe, hkept, hc.partition, hhead⟩
  | cons x l =>
    obtain rfl := Option.some.inj hfirst
    obtain ⟨last, hlast⟩ : ∃ last, (x :: l).getLast? = some last := ⟨_, getLast?_cons⟩
    have hout : ∀ y ∈ l2.head?, y ∉ x :: l := fun y hy hmem => hdisj hmem (mem_of_head? hy)
    have hlength := hc.length
    have hfuel : l.length ≤ pool.list.maxCount := by
      rw [hc.freeNodes.maxCount]
      simp only [length_append, length_cons] at hlength
      omega
    rw [if_neg (fun h => hout x h.symm mem_cons_self), walk_links hfreed hout _ 1 hfuel hlast, Nat.add_comm 1]
    exact ⟨_, rfl, hc.freed hcap hcut.start hframe hkept hfreed rfl hlast hhead⟩

lemma PoolOk.deallocateRange (hc : PoolOk capacity pool free (l1 ++ (l ++ l2)))
    (hcap : capacity < 2 ^ 31) (hfirst : (l ++ l2).head? = some first) :
    ∃ pool', pool.deallocateRange first l2.head? = some pool' ∧ PoolOk capacity pool' (free ++ l) (l1 ++ l2) := by
  obtain ⟨-, -, hdisj⟩ := nodup_append'.mp hc.nodup_allocated
  have hprev : pool.list.node.prev first = l1.getLast? := by
    simpa using (seg_append.mp hc.links).2.prev_head hfirst
  have hbounds : ∀ y ∈ l1 ++ (l ++ l2), 0 ≤ y ∧ y < capacity := fun y hy => hc.bounds hy
  unfold MemoryPool.deallocateRange
  rw [hprev]
  cases hlast : l1.getLast? with
  | none =>
    obtain rfl := getLast?_eq_none_iff.mp hlast
    have hcut : CutLinks pool.list.node (pool.list.node.clearPrev l2.head?) [] l2 :=
      ⟨fun _ => startOff_clearPrev, fun _ => prev_clearPrev, fun _ => by simp⟩
    have hhead : nodeOffset l2.head? = l2.head?.getD stackBottom :=
      nodeOffset_head hcap fun y hy => hbounds y (mem_append_right l hy)
    obtain ⟨list, hlist, hpool⟩ := hc.cut _ _ hcap hcut hfirst hhead
    rw [hlist]
    exact ⟨_, rfl, hpool⟩
  | some p =>
    have hp : p ∈ l1 := mem_of_getLast? hlast
    have hcut : CutLinks pool.list.node (pool.list.node.attach p l2.head?) l1 l2 := by
      cases hhead : l2.head? with
      | none =>
        refine ⟨fun _ => startOff_attach, fun _ => ?_, fun _ => ?_⟩
        · simp [Nodes.attach, hhead]
        · simp [Nodes.attach, hlast, hhead, eq_comm]
      | some j =>
        have hj : j ∈ l ++ l2 := mem_append_right l (mem_of_head? hhead)
        have hpb := hbounds p (mem_append_left _ hp)
        have hjb := hbounds j (mem_append_right _ hj)
        have hne : p ≠ j := by
          rintro rfl
          exact hdisj hp hj
        have hps := hc.freeNodes.start p hpb.1 hpb.2
        have hjs := hc.freeNodes.start j hjb.1 hjb.2
        refine ⟨fun _ => startOff_attach, fun _ => ?_, fun _ => ?_⟩
        · simp [prev_attach hps hjs hne, hlast, hhead, eq_comm]
        · simp [next_attach hps hjs hne, hlast, hhead, eq_comm]
    have hhead : pool.allocatedStart = (l1 ++ l2).head?.getD stackBottom := by
      rw [hc.start]
      cases l1 with
      | nil => cases hp
      | cons a l1 => rfl
    obtain ⟨list, hlist, hpool⟩ := hc.cut _ _ hcap hcut hfirst hhead
    dsimp only at hlist ⊢
    rw [hlist]
    exact ⟨_, rfl, hpool⟩

lemma PoolOk.moved (hc : PoolOk capacity pool free (first :: (l1 ++ x :: l2)))
    (hstart : ∀ i, (node i).startOff = (pool.list.node i).startOff)
    (hprev : ∀ y, node.prev y = if y = first then l1.getLast? else if y = x then some first else
      if l1.head? = some y then none else pool.list.node.prev y)
    (hnext : ∀ y, node.next y = if y = first then some x else if l1.getLast? = some y then some first else
      pool.list.node.next y) (hhead : start = (l1 ++ first :: x :: l2).head?.getD stackBottom) :
    PoolOk capacity ⟨{ pool.list with node := node }, start⟩ free (l1 ++ first :: x :: l2) := by
  have hperm : (l1 ++ first :: x :: l2).Perm (first :: (l1 ++ x :: l2)) := perm_middle
  refine ⟨hc.freeNodes.relink hstart fun z hz => ?_, hc.links.moveHead hc.nodup_allocated (fun y => ?_) fun y => ?_,
    (hperm.append_left free).trans hc.partition, hhead⟩
  · have hout : z ∉ first :: (l1 ++ x :: l2) := fun hmem => hc.disjoint hz hmem
    simp only [mem_cons, mem_append, not_or] at hout
    rw [hnext, hprev, if_neg hout.1, if_neg hout.1, if_neg hout.2.2.1, if_neg fun h => hout.2.1 (mem_of_getLast? h),
      if_neg fun h => hout.2.1 (mem_of_head? h)]
    exact ⟨rfl, rfl⟩
  · rw [hprev]
    simp [eq_comm]
  · rw [hnext]
    simp

/-- The result of `insert_head_before` for the node `dst`: the head has come before it, or nothing has
changed. -/
def HeadInserted (capacity : Nat) (pool : MemoryPool) (free allocated : List Int) (dst : Int) : Prop :=
  ∃ r pool', pool.insertHeadBefore (some dst) = some (r, pool') ∧
    if r then ∃ head l1 l2, allocated = head :: (l1 ++ dst :: l2) ∧
      PoolOk capacity pool' free (l1 ++ head :: dst :: l2)
    else pool' = pool

lemma PoolOk.insertHeadBefore_eq (hc : PoolOk capacity pool free (first :: l))
    (hcap : capacity < 2 ^ 31) (hx : x ∈ first :: l) (hstart : start = l.head?.getD stackBottom)
    (hnode : node = (pool.list.node.aloneList first).clearPrev l.head?) :
    pool.insertHeadBefore (some x) = some (if start = x then
        (true, MemoryPool.attachHeadNode ⟨{ pool.list with node := node }, start⟩ first)
      else match node.prev x with
        | some p => (true, ⟨{ pool.list with node := (node.attach first (some x)).attach p (some first) }, start⟩)
        | none => (false, ⟨{ pool.list with node := node.attach first (some x) }, start⟩)) := by
  have hbounds := hc.bounds hx
  have hfirst := hc.bounds mem_cons_self
  have hget : pool.list.get first = some first := if_pos ((validRange_iff hcap hc.freeNodes.maxCount).mpr hfirst)
  have hnext : pool.list.node.next first = l.head? := by simpa using hc.links.2.1
  have hhead := nodeOffset_head hcap fun y hy => hc.bounds (mem_cons_of_mem first hy)
  have hoff : nodeOffset (some x) = x := offsetType_eq (by omega) (by omega)
  have hfirst' : pool.allocatedStart = first := hc.start
  unfold insertHeadBefore Nodes.deleteHead
  dsimp only
  rw [hfirst', if_neg (not_not.mpr hfirst.1), hget, Option.map_some, hnext, hhead, hoff, ← hnode]
  subst hstart
  rfl

lemma PoolOk.insertHeadBefore_head (hc : PoolOk capacity pool free (x :: l)) (hcap : capacity < 2 ^ 31) :
    ¬HeadInserted capacity pool free (x :: l) x := by
  have hstart : l.head?.getD stackBottom ≠ x := by
    cases l with
    | nil =>
      have hx := hc.bounds mem_cons_self
      simp only [head?_nil, Option.getD_none, stackBottom]
      omega
    | cons a l =>
      rintro rfl
      exact (nodup_cons.mp hc.nodup_allocated).1 mem_cons_self
  rintro ⟨r, pool', heq, hr⟩
  rw [hc.insertHeadBefore_eq hcap mem_cons_self rfl rfl, if_neg hstart] at heq
  simp only [prev_clearPrev, prev_aloneList, if_true, ite_self, Option.some.injEq, Prod.mk.injEq] at heq
  obtain ⟨rfl, rfl⟩ := heq
  exact hstart ((congrArg MemoryPool.allocatedStart hr).trans hc.start)

lemma PoolOk.insertHeadBefore (hc : PoolOk capacity pool free (first :: (l1 ++ x :: l2)))
    (hcap : capacity < 2 ^ 31) : HeadInserted capacity pool free (first :: (l1 ++ x :: l2)) x := by
  have hmem : x ∈ l1 ++ x :: l2 := mem_append_right l1 mem_cons_self
  obtain ⟨hnotin, hnodup⟩ := nodup_cons.mp hc.nodup_allocated
  have hne : first ≠ x := (ne_of_mem_of_not_mem hmem hnotin).symm
  have hstart {y : Int} (hy : y ∈ first :: (l1 ++ x :: l2)) : (pool.list.node y).startOff = y :=
    hc.freeNodes.start y (hc.bounds hy).1 (hc.bounds hy).2
  have hxs := hstart (mem_cons_of_mem first hmem)
  have hfs := hstart mem_cons_self
  unfold HeadInserted
  cases l1 with
  | nil =>
    have hx := hc.bounds (mem_cons_of_mem first hmem)
    have hfirst := hc.bounds mem_cons_self
    have hbottom : stackBottom ≠ x := by
      unfold stackBottom
      omega
    have hget (node : Nodes) : ({ pool.list with node := node } : ArrayList).get x = some x :=
      if_pos ((validRange_iff hcap hc.freeNodes.maxCount).mpr hx)
    rw [hc.insertHeadBefore_eq hcap (mem_cons_of_mem first hmem) (show x = _ from rfl) rfl, if_pos rfl]
    refine ⟨_, _, rfl, first, [], l2, rfl, ?_⟩
    unfold MemoryPool.attachHeadNode
    dsimp only
    rw [if_pos hbottom, hget]
    refine hc.moved (fun y => ?_) (fun y => ?_) (fun y => ?_) (offsetType_eq (by omega) (by omega))
    · simp [Nodes.attachHead]
    · simp [Nodes.attachHead, hfs, hxs]
      grind
    · simp [Nodes.attachHead, hfs, hxs]
      grind
  | cons a l1 =>
    have hax : a ≠ x :=
      (ne_of_mem_of_not_mem (mem_append_right l1 mem_cons_self) (nodup_cons.mp hnodup).1).symm
    obtain ⟨p, hp⟩ : ∃ p, (a :: l1).getLast? = some p := ⟨_, getLast?_cons⟩
    have hpmem : p ∈ a :: l1 := mem_of_getLast? hp
    have hpfirst : p ≠ first := ne_of_mem_of_not_mem (mem_append_left _ hpmem) hnotin
    have hps := hstart (mem_cons_of_mem first (mem_append_left (x :: l2) hpmem))
    obtain ⟨node, hnode⟩ : ∃ node, node = (pool.list.node.aloneList first).clearPrev (some a) := ⟨_, rfl⟩
    have hprev : node.prev x = some p := by
      have hx := (seg_append.mp hc.links.2.2).2.1
      rw [hp] at hx
      simpa [hnode, hax, hne.symm] using hx
    rw [hc.insertHeadBefore_eq hcap (mem_cons_of_mem first hmem) (show a = _ from rfl) hnode, if_neg hax, hprev]
    refine ⟨_, _, rfl, first, a :: l1, l2, rfl, hc.moved (by simp [hnode]) (fun y => ?_) (fun y => ?_) rfl⟩
    · simp [Nodes.attach, hp, hnode, hps, hfs, hxs]
      grind
    · simp [Nodes.attach, hp, hnode, hps, hfs, hxs]
      grind

/-- The head comes before any node but itself. -/
theorem headInserted_iff (hcap : capacity < 2 ^ 31) (hc : PoolOk capacity pool free allocated)
    (hx : x ∈ allocated) : HeadInserted capacity pool free allocated x ↔ allocated.head? ≠ some x := by
  cases allocated with
  | nil => cases hx
  | cons first l =>
    by_cases hfirst : first = x
    · subst hfirst
      exact iff_of_false (hc.insertHeadBefore_head hcap) (not_not.mpr rfl)
    · obtain ⟨l1, l2, rfl⟩ := append_of_mem (mem_of_ne_of_mem (Ne.symm hfirst) hx)
      exact iff_of_true (hc.insertHeadBefore hcap) fun h => hfirst (Option.some.inj h)

end Pool

section Initialization

variable {capacity : Nat} {memory : Nodes}

structure Segregated (node : Nodes) (k : Nat) : Prop where
  start : ∀ i : Int, 0 ≤ i → i ≤ k → (node i).startOff = i
  next : ∀ i : Int, 0 ≤ i → i < k → node.next i = some (i + 1)
  prev : ∀ i : Int, 0 ≤ i → i < k → node.prev (i + 1) = some i

lemma Segregated.step {node : Nodes} {k : Nat} (hs : Segregated node k) :
    Segregated (segregateStep node k) (k + 1) := by
  have hstart : ∀ i : Int, 0 ≤ i → i ≤ k + 1 → (node.setStart (k + 1) (k + 1) i).startOff = i := by
    intro i hlow hhigh
    rw [startOff_setStart]
    split_ifs with hi
    · exact hi.symm
    · exact hs.start i hlow (by omega)
  have hk := hstart k (by omega) (by omega)
  have hk' := hstart (k + 1) (by omega) (by omega)
  have hne : (k : Int) ≠ k + 1 := by omega
  refine ⟨fun i hlow hhigh => ?_, fun i hlow hhigh => ?_, fun i hlow hhigh => ?_⟩
  · unfold segregateStep
    rw [startOff_attach]
    exact hstart i hlow (by omega)
  · unfold segregateStep
    rw [next_attach hk hk' hne, next_setStart]
    split_ifs with hi
    · rw [hi]
    · exact hs.next i hlow (by omega)
  · unfold segregateStep
    rw [prev_attach hk hk' hne, prev_setStart]
    split_ifs with hi
    · congr 1
      omega
    · exact hs.prev i hlow (by omega)

lemma segregated_foldl (memory : Nodes) (k : Nat) :
    Segregated ((List.range k).foldl segregateStep (memory.setStart 0 0)) k := by
  induction k with
  | zero =>
    refine ⟨fun i hlow hhigh => ?_, fun i hlow hhigh => by omega, fun i hlow hhigh => by omega⟩
    have hi : i = 0 := by omega
    simp [hi]
  | succ k ih =>
    rw [range_succ, foldl_append, foldl_cons, foldl_nil]
    exact ih.step

lemma seg_range {next prev : Int → Option Int} (hnext : ∀ i : Nat, i + 1 < capacity → next i = some (i + 1))
    (hprev : ∀ i : Nat, i + 1 < capacity → prev (i + 1) = some (i : Int))
    (hlast : ∀ i : Nat, i + 1 = capacity → next i = none) (i n : Nat) (hn : i + n = capacity) {p : Option Int}
    (hp : n ≠ 0 → prev i = p) : Seg next prev p ((List.range' i n).map Int.ofNat) none := by
  induction n generalizing i p with
  | zero => trivial
  | succ n ih =>
    refine ⟨hp (by simp), ?_, ih (i + 1) (by omega) fun hne => ?_⟩
    · cases n with
      | zero => exact hlast i hn
      | succ n => exact hnext i (by omega)
    · exact hprev i (by omega)

lemma initailizePool_consistent (hlow : 0 < capacity) (hcap : capacity < 2 ^ 31) :
    PoolOk capacity (initailizePool capacity memory) ((List.range capacity).map Int.ofNat) [] := by
  have htail : offsetType ((capacity : Int) - 1) = ((capacity - 1 : Nat) : Int) := by
    rw [offsetType_eq (by omega) (by omega)]
    omega
  have hs := segregated_foldl memory (capacity - 1)
  have hrange : (List.range capacity).map Int.ofNat = (List.range' 0 capacity).map Int.ofNat := by
    rw [range_eq_range']
  unfold initailizePool segregate
  dsimp only
  rw [htail, Int.toNat_natCast]
  refine ⟨⟨rfl, ?_, ?_, nodup_range.map Int.ofNat_injective, ?_, ?_, ?_, by simp⟩, trivial, by simp, rfl⟩
  · intro i hi hi'
    rw [startOff_setPrev, startOff_setNext]
    exact hs.start i hi (by omega)
  · intro i hi
    obtain ⟨j, hj, rfl⟩ := mem_map.mp hi
    exact ⟨Int.natCast_nonneg j, Int.ofNat_lt.mpr (mem_range.mp hj)⟩
  · rw [hrange]
    refine seg_range ?_ ?_ ?_ 0 capacity (Nat.zero_add capacity) ?_
    · intro i hi
      rw [next_setPrev, next_setNext, if_neg (by omega)]
      exact hs.next i (by omega) (by omega)
    · intro i hi
      rw [prev_setPrev, prev_setNext, if_neg (by omega)]
      exact hs.prev i (by omega) (by omega)
    · intro i hi
      rw [next_setPrev, next_setNext, if_pos (by omega), if_pos rfl]
    · intro _
      rw [prev_setPrev, Int.natCast_zero, if_pos rfl, if_pos rfl]
  · intro x hx
    obtain ⟨c, rfl⟩ : ∃ c, capacity = c + 1 := ⟨capacity - 1, by omega⟩
    rw [range_succ_eq_map] at hx
    exact Option.some.inj hx
  · intro x hx
    obtain ⟨c, rfl⟩ : ∃ c, capacity = c + 1 := ⟨capacity - 1, by omega⟩
    simpa [range_succ] using hx

end Initialization

section Runs

open Runs

variable {capacity : Nat} {memory : Nodes} {h h' : History} {free : List Int}

lemma head?_dropWhile {l : List Int} {x : Int} {q : Int → Bool} (hq : ∀ y, q y = false ↔ y = x) (hx : x ∈ l) :
    (l.dropWhile q).head? = some x := by
  induction l with
  | nil => cases hx
  | cons y l ih =>
    cases hy : q y with
    | false =>
      rw [dropWhile_cons_of_neg (by simp [hy]), head?_cons, (hq y).mp hy]
    | true =>
      rw [dropWhile_cons_of_pos hy]
      apply ih
      cases hx with
      | head => simp [(hq x).mpr rfl] at hy
      | tail _ hx => exact hx

lemma withoutRange_split {allocated : List Int} {first : Int} {last : Option Int} (hfirst : first ∈ allocated)
    (hlast : ∀ x ∈ last, x ∈ allocated.dropWhile (· ≠ first)) :
    ∃ l1 l l2, allocated = l1 ++ (l ++ l2) ∧ withoutRange allocated first last = l1 ++ l2 ∧ l2.head? = last ∧
      (l ++ l2).head? = some first := by
  generalize hrest : allocated.dropWhile (· ≠ first) = rest at hlast
  refine ⟨allocated.takeWhile (· ≠ first), rest.takeWhile (some · ≠ last), rest.dropWhile (some · ≠ last),
    ?_, ?_, ?_, ?_⟩
  · rw [takeWhile_append_dropWhile, ← hrest, takeWhile_append_dropWhile]
  · unfold withoutRange
    rw [hrest]
  · cases last with
    | none => simp [dropWhile_eq_nil_iff]
    | some y => exact head?_dropWhile (by simp) (hlast y rfl)
  · rw [takeWhile_append_dropWhile, ← hrest]
    exact head?_dropWhile (by simp) hfirst

lemma PoolOk.step (hc : PoolOk capacity h.pool free h.allocated) (hcap : capacity < 2 ^ 31) (op : Op)
    (hallowed : h.Allowed op) :
    ∃ h' free', h.step op = some h' ∧ PoolOk capacity h'.pool free' h'.allocated := by
  cases op with
  | allocate =>
    unfold History.step
    cases free with
    | nil =>
      rw [hc.allocate_fails]
      exact ⟨_, [], rfl, hc⟩
    | cons x rest =>
      obtain ⟨pool, hpool, hc'⟩ := hc.allocate hcap
      rw [hpool]
      exact ⟨_, rest, rfl, hc'⟩
  | deallocate x =>
    obtain ⟨l1, l2, hsplit⟩ := append_of_mem hallowed
    have hnodup := hc.nodup_allocated
    have hx : x ∉ l1 := by
      rw [hsplit] at hnodup
      exact fun hmem => (nodup_append'.mp hnodup).2.2 hmem mem_cons_self
    have herase : h.allocated.erase x = l1 ++ l2 := by
      rw [hsplit, erase_append_right _ hx, erase_cons_head]
    refine ⟨_, free ++ [x], rfl, ?_⟩
    rw [herase]
    rw [hsplit] at hc
    exact hc.deallocate hcap
  | deallocateRange first last =>
    obtain ⟨l1, l, l2, hsplit, hwithout, hlast, hfirst⟩ := withoutRange_split hallowed.1 hallowed.2
    rw [hsplit] at hc
    obtain ⟨pool, hpool, hc'⟩ := hc.deallocateRange hcap hfirst
    unfold History.step
    dsimp only
    rw [hwithout, ← hlast, hpool]
    exact ⟨_, free ++ l, rfl, hc'⟩

/-- The states of a pool of the given capacity after any allowed calls. -/
abbrev ReachedPool (capacity : Nat) (memory : Nodes) : History → Prop :=
  Reached History.step History.Allowed ⟨initailizePool capacity memory, []⟩

lemma reachedPool_consistent (hlow : 2 ≤ capacity) (hcap : capacity < 2 ^ 31)
    (hr : ReachedPool capacity memory h) : ∃ free, PoolOk capacity h.pool free h.allocated := by
  apply hr.invariant (P := fun h => ∃ free, PoolOk capacity h.pool free h.allocated)
  · exact ⟨_, initailizePool_consistent (by omega) hcap⟩
  · rintro s op s' ⟨free, hc⟩ hallowed hstep
    obtain ⟨next, free', hnext, hc'⟩ := hc.step hcap op hallowed
    rw [hnext] at hstep
    cases hstep
    exact ⟨free', hc'⟩

/-- The free and the allocated nodes partition the nodes of the pool, each in a doubly linked list, and an
allocation fails only if no node is free. -/
theorem reachedPool_partition (hlow : 2 ≤ capacity) (hcap : capacity < 2 ^ 31)
    (hr : ReachedPool capacity memory h) :
    (∃ free, PoolOk capacity h.pool free h.allocated ∧ (h.pool.allocate.1 = none ↔ free = [])) ∧
      ∀ op, h.Allowed op → ∃ h', h.step op = some h' := by
  obtain ⟨free, hc⟩ := reachedPool_consistent hlow hcap hr
  refine ⟨⟨free, hc, ?_⟩, fun op hallowed => ?_⟩
  · cases free with
    | nil => simp [hc.allocate_fails]
    | cons x rest =>
      obtain ⟨pool, hpool, -⟩ := hc.allocate hcap
      simp [hpool]
  · obtain ⟨next, -, hnext, -⟩ := hc.step hcap op hallowed
    exact ⟨next, hnext⟩

def threeNodes : Given History.step History.Allowed ⟨initailizePool 3 fun _ => ⟨0, 0, 0⟩, []⟩
    fun h => h.allocated = [2, 0] where
  events := [.allocate, .allocate, .allocate, .deallocate 1]
  leads := by decide +kernel

theorem reachedPool_partition_three : ∃ h, ReachedPool 3 (fun _ => ⟨0, 0, 0⟩) h ∧ h.allocated = [2, 0] ∧
    (∃ free, PoolOk 3 h.pool free h.allocated ∧ (h.pool.allocate.1 = none ↔ free = [])) ∧
      ∀ op, h.Allowed op → ∃ h', h.step op = some h' := by
  obtain ⟨h, hr, hallocated⟩ := threeNodes.reached
  exact ⟨h, hr, of_decide_eq_true hallocated, reachedPool_partition (by simp) (by simp) hr⟩

theorem headInserted_iff_three : ∃ h free, ReachedPool 3 (fun _ => ⟨0, 0, 0⟩) h ∧
    HeadInserted 3 h.pool free [2, 0] 0 := by
  obtain ⟨h, hr, hallocated⟩ := threeNodes.reached
  obtain ⟨free, hc⟩ := reachedPool_consistent (by simp) (by simp) hr
  rw [of_decide_eq_true hallocated] at hc
  exact ⟨h, free, hr, (headInserted_iff (by simp) hc (by decide)).mpr (by decide)⟩

/-- Put before itself the head is in neither list. -/
theorem head_lost : ∃ h free, ReachedPool 3 (fun _ => ⟨0, 0, 0⟩) h ∧ PoolOk 3 h.pool free [2, 0] ∧
    ¬HeadInserted 3 h.pool free [2, 0] 2 := by
  obtain ⟨h, hr, hallocated⟩ := threeNodes.reached
  obtain ⟨free, hc⟩ := reachedPool_consistent (by simp) (by simp) hr
  rw [of_decide_eq_true hallocated] at hc
  exact ⟨h, free, hr, hc, hc.insertHeadBefore_head (by simp)⟩

/-- The capacity is compared as a signed number of 32 bits: in a pool of `2 ^ 31` nodes no node can be
allocated. -/
theorem allocate_fails_large : ∃ h, ReachedPool (2 ^ 31) (fun _ => ⟨0, 0, 0⟩) h ∧
    ¬∃ free, PoolOk (2 ^ 31) h.pool free h.allocated ∧ (h.pool.allocate.1 = none ↔ free = []) := by
  refine ⟨_, .start, ?_⟩
  rintro ⟨free, hc, hfails⟩
  have hmax : offsetType ((2 ^ 31 : Nat) : Int) = -2 ^ 31 := by decide
  have hfail : (initailizePool (2 ^ 31) fun _ => ⟨0, 0, 0⟩).allocate.1 = none := by
    unfold MemoryPool.allocate ArrayList.allocate ArrayList.validRange initailizePool segregate
    dsimp only
    rw [hmax, if_neg (by simp), if_pos (by simp), if_pos (by simp)]
  have hfree : free = [] := hfails.mp hfail
  have hlength := hc.length
  rw [hfree] at hlength
  simp at hlength

end Runs

end MyLibevent.Proofs
