import MyLibevent.Proofs.MemoryPool
import MyLibevent.ShareMap

/-!
# The entries of a map and the nodes of its pool

An insert of a key that is there takes a node that no entry has, and a range that is erased has to be a chain
of nodes.
-/

namespace MyLibevent.Proofs

open ShareMap DoubleLinks List Prod

variable {κ : Type} [DecidableEq κ] {capacity : Nat} {m m' : ShareMap κ} {free allocated : List Int}
  {node : Int} {map : List (κ × Int)} {key : κ} {keys : List κ}

lemma chainFrom_links {node : Nodes} {p : Option Int} {l : List Int} {x : Int}
    (hlinks : Seg node.next node.prev p (x :: l) none) (n : Nat) : chainFrom node n x = (x :: l).take n := by
  induction n generalizing p l x with
  | zero => rfl
  | succ n ih =>
    rw [chainFrom, take_succ_cons, hlinks.2.1]
    cases l with
    | nil => simp
    | cons y l => exact congrArg (x :: ·) (ih hlinks.2.2)

lemma mem_of_lookup (h : map.lookup key = some node) : (key, node) ∈ map := by
  rw [lookup_eq_some_iff] at h
  obtain ⟨before, behind, rfl, -⟩ := h
  simp

lemma perm_erase (hnodup : (map.map fst).Nodup) (h : map.lookup key = some node) :
    map.Perm ((key, node) :: map.filter fun entry => entry.1 ≠ key) := by
  induction map with
  | nil => cases h
  | cons entry map ih =>
    rw [map_cons, nodup_cons] at hnodup
    by_cases hkey : entry.1 = key
    · have hother : map.filter (fun entry => entry.1 ≠ key) = map := by
        apply filter_eq_self.mpr
        intro other hother
        have hne : other.1 ≠ key := by
          intro heq
          apply hnodup.1
          rw [hkey, ← heq]
          exact mem_map_of_mem hother
        simpa using hne
      have hnode : entry.2 = node := by
        rw [lookup_cons, hkey, beq_self_eq_true] at h
        exact Option.some.inj h
      rw [filter_cons_of_neg (by simpa using hkey), hother, ← hkey, ← hnode]
    · have hrest : map.lookup key = some node := by
        rw [lookup_cons, beq_eq_false_iff_ne.mpr (Ne.symm hkey)] at h
        exact h
      rw [filter_cons_of_pos (by simpa using hkey)]
      exact ((ih hnodup.2 hrest).cons entry).trans (List.Perm.swap _ _ _)

omit [DecidableEq κ] in
lemma nodup_filter (hnodup : (map.map fst).Nodup) (q : κ × Int → Bool) : ((map.filter q).map fst).Nodup :=
  hnodup.sublist (filter_sublist.map fst)

structure Corresponding (capacity : Nat) (m : ShareMap κ) (free allocated : List Int) : Prop where
  consistent : PoolOk capacity m.pool free allocated
  keys : (m.map.map fst).Nodup
  nodes : allocated.Perm (m.map.map snd)

lemma Corresponding.insert (hc : Corresponding capacity m free allocated) (hcap : capacity < 2 ^ 31)
    (hnew : m.pool.list.size = 0 ∨ m.map.lookup key = none) :
    ∃ free' allocated', Corresponding capacity (m.insert key).2 free' allocated' := by
  unfold ShareMap.insert
  cases free with
  | nil =>
    rw [hc.consistent.allocate_fails]
    exact ⟨[], allocated, hc⟩
  | cons x rest =>
    obtain ⟨pool, hpool, hpool'⟩ := hc.consistent.allocate hcap
    have hkey : m.map.lookup key = none := by
      rcases hnew with hfull | hkey
      · rw [hc.consistent.freeNodes.size] at hfull
        cases hfull
      · exact hkey
    rw [hpool]
    dsimp only
    rw [hkey, if_neg (by simp)]
    refine ⟨rest, x :: allocated, hpool', ?_, hc.nodes.cons x⟩
    rw [map_cons, nodup_cons]
    refine ⟨?_, hc.keys⟩
    intro hmem
    obtain ⟨entry, hentry, rfl⟩ := mem_map.mp hmem
    rw [lookup_eq_none_iff] at hkey
    exact absurd (hkey entry hentry) (by simp)

lemma Corresponding.eraseEntry (hc : Corresponding capacity m free allocated)
    (hcap : capacity < 2 ^ 31) (hkey : m.map.lookup key = some node) :
    ∃ free' allocated', Corresponding capacity (m.eraseEntry key node) free' allocated' := by
  have hperm := hc.nodes.trans ((perm_erase hc.keys hkey).map snd)
  rw [map_cons] at hperm
  have hmem : node ∈ allocated := hperm.mem_iff.mpr mem_cons_self
  obtain ⟨l1, l2, rfl⟩ := append_of_mem hmem
  refine ⟨free ++ [node], l1 ++ l2, hc.consistent.deallocate hcap, nodup_filter hc.keys _, ?_⟩
  exact (perm_middle.symm.trans hperm).cons_inv

lemma perm_nodesOf (m : ShareMap κ) (keys : List κ) :
    (m.nodesOf keys ++ (m.map.filter fun entry => entry.1 ∉ keys).map snd).Perm (m.map.map snd) := by
  unfold nodesOf
  rw [← map_append]
  have hsplit := (filter_append_perm (fun entry : κ × Int => decide (entry.1 ∈ keys)) m.map).map snd
  simpa using hsplit

/-- The nodes of a range are a piece of the allocated nodes, which starts with the first one and ends before the
last one. -/
lemma Corresponding.chain (hc : Corresponding capacity m free allocated) {first lastNode : Int}
    (hfirst : m.map.lookup key = some first) (hchain : m.Chained keys first lastNode) :
    ∃ l1 l rest, allocated = l1 ++ (l ++ lastNode :: rest) ∧ (l ++ lastNode :: rest).head? = some first ∧
      l.Perm (m.nodesOf keys) := by
  have hmem : first ∈ allocated := hc.nodes.mem_iff.mpr (mem_map_of_mem (mem_of_lookup hfirst))
  obtain ⟨l1, tail, hsplit⟩ := append_of_mem hmem
  have hlinks := (seg_append.mp (hsplit ▸ hc.consistent.links)).2
  unfold Chained at hchain
  rw [chainFrom_links hlinks] at hchain
  generalize htaken : (first :: tail).take ((m.nodesOf keys).length + 1) = taken at hchain
  obtain ⟨hperm, hlast⟩ := hchain
  have hdrop := take_append_drop ((m.nodesOf keys).length + 1) (first :: tail)
  have hend : taken.dropLast ++ [lastNode] = taken := dropLast_append_getLast? lastNode hlast
  have hwhole : taken.dropLast ++ lastNode :: (first :: tail).drop ((m.nodesOf keys).length + 1) = first :: tail := by
    rw [← singleton_append, ← append_assoc, hend, ← htaken, hdrop]
  refine ⟨l1, taken.dropLast, (first :: tail).drop ((m.nodesOf keys).length + 1), ?_, ?_, hperm⟩
  · rw [hwhole, hsplit]
  · rw [hwhole]
    rfl

lemma Corresponding.eraseRange (hc : Corresponding capacity m free allocated)
    (hcap : capacity < 2 ^ 31) {last : κ} (hsuitable : m.Suitable (.eraseRange keys last))
    (hstep : m.eraseRange keys last = some m') :
    ∃ free' allocated', Corresponding capacity m' free' allocated' := by
  unfold ShareMap.eraseRange at hstep
  obtain ⟨first, hfirst, hstep⟩ := Option.bind_eq_some_iff.mp hstep
  obtain ⟨lastNode, hlast, hstep⟩ := Option.bind_eq_some_iff.mp hstep
  obtain ⟨pool, hpool, hstep⟩ := Option.bind_eq_some_iff.mp hstep
  cases hstep
  obtain ⟨l1, l, rest, hallocated, hhead, hperm⟩ := hc.chain hfirst (hsuitable first hfirst lastNode hlast)
  have hconsistent := hc.consistent
  rw [hallocated] at hconsistent
  obtain ⟨pool', hpool', hc'⟩ := hconsistent.deallocateRange hcap hhead
  rw [head?_cons, hpool] at hpool'
  cases hpool'
  refine ⟨_, _, hc', nodup_filter hc.keys _, ?_⟩
  have hnodes : (l ++ (l1 ++ lastNode :: rest)).Perm
      (m.nodesOf keys ++ (m.map.filter fun entry => entry.1 ∉ keys).map snd) := by
    refine List.Perm.trans ?_ ((hallocated ▸ hc.nodes).trans (perm_nodesOf m keys).symm)
    rw [← append_assoc, ← append_assoc]
    exact perm_append_comm.append_right _
  exact (perm_append_left_iff _).mp ((hperm.symm.append_right _).trans hnodes)

omit [DecidableEq κ] in
lemma Corresponding.clear (hc : Corresponding capacity m free allocated) (hlow : 0 < capacity)
    (hcap : capacity < 2 ^ 31) : ∃ free' allocated', Corresponding capacity m.clear free' allocated' := by
  unfold ShareMap.clear
  rw [hc.consistent.freeNodes.maxCount]
  exact ⟨_, _, initailizePool_consistent hlow hcap, nodup_nil, List.Perm.nil⟩

lemma Corresponding.step (hc : Corresponding capacity m free allocated) (hlow : 0 < capacity)
    (hcap : capacity < 2 ^ 31) {op : ShareMapOp κ} (hsuitable : m.Suitable op) (hstep : m.step op = some m') :
    ∃ free' allocated', Corresponding capacity m' free' allocated' := by
  cases op with
  | insert key =>
    cases hstep
    exact hc.insert hcap hsuitable
  | eraseKey key =>
    cases hstep
    unfold ShareMap.eraseKey
    cases hkey : m.map.lookup key with
    | none => exact ⟨free, allocated, hc⟩
    | some node => exact hc.eraseEntry hcap hkey
  | eraseIterator key =>
    obtain ⟨node, hkey, hnext⟩ := Option.bind_eq_some_iff.mp hstep
    cases hnext
    exact hc.eraseEntry hcap hkey
  | eraseRange keys last => exact hc.eraseRange hcap hsuitable hstep
  | clear =>
    cases hstep
    exact hc.clear hlow hcap

abbrev ReachedShareMap (κ : Type) [DecidableEq κ] (capacity : Nat) (memory : Nodes) : ShareMap κ → Prop :=
  Runs.Reached ShareMap.step ShareMap.Suitable (ShareMap.initialized capacity memory)

/-- The allocated nodes of the pool are those of the entries, one for each, and the other nodes are free. -/
theorem reachedShareMap_nodes {memory : Nodes} (hlow : 0 < capacity) (hcap : capacity < 2 ^ 31)
    (hr : ReachedShareMap κ capacity memory m) :
    (∃ free allocated, PoolOk capacity m.pool free allocated ∧ allocated.Perm (m.map.map snd)) ∧
      m.pool.list.size + m.map.length = capacity := by
  have hall : ∃ free allocated, Corresponding capacity m free allocated := by
    apply hr.invariant (P := fun m => ∃ free allocated, Corresponding capacity m free allocated)
    · exact ⟨_, _, initailizePool_consistent hlow hcap, nodup_nil, List.Perm.nil⟩
    · rintro m op m' ⟨free, allocated, hc⟩ hsuitable hstep
      exact hc.step hlow hcap hsuitable hstep
  obtain ⟨free, allocated, hc⟩ := hall
  refine ⟨⟨free, allocated, hc.consistent, hc.nodes⟩, ?_⟩
  have hlength := hc.consistent.length
  have hnodes := hc.nodes.length_eq
  rw [length_map] at hnodes
  rw [hc.consistent.freeNodes.size, ← hnodes, hlength]

def oneErased : Runs.Given ShareMap.step ShareMap.Suitable
    (ShareMap.initialized 3 fun _ => ⟨0, 0, 0⟩ : ShareMap Nat) (fun m => m.map.map fst == [2]) where
  events := [.insert 2, .insert 1, .eraseRange [1] 2]
  leads := by decide +kernel

theorem reachedShareMap_nodes_one : ∃ m, ReachedShareMap Nat 3 (fun _ => ⟨0, 0, 0⟩) m ∧ m.map.map fst = [2] ∧
    (∃ free allocated, PoolOk 3 m.pool free allocated ∧ allocated.Perm (m.map.map snd)) ∧
      m.pool.list.size + m.map.length = 3 := by
  obtain ⟨m, hr, hkeys⟩ := oneErased.reached
  exact ⟨m, hr, eq_of_beq hkeys, reachedShareMap_nodes (by decide) (by decide) hr⟩

def insertedTwice : Runs.Given ShareMap.step (fun _ _ => True)
    (ShareMap.initialized 3 fun _ => ⟨0, 0, 0⟩ : ShareMap Nat)
    (fun m => m.map.length == 1 && m.pool.list.size == 1) where
  events := [.insert 1, .insert 1]
  leads := by decide +kernel

/-- The second insert of a key takes a node that no entry has: of three nodes only one is free. -/
theorem duplicate_insert_leaks : ∃ m, Runs.Reached ShareMap.step (fun _ _ => True)
    (ShareMap.initialized 3 fun _ => ⟨0, 0, 0⟩ : ShareMap Nat) m ∧ m.pool.list.size + m.map.length ≠ 3 := by
  obtain ⟨m, hr, hsizes⟩ := insertedTwice.reached
  refine ⟨m, hr, ?_⟩
  simp only [Bool.and_eq_true, beq_iff_eq] at hsizes
  omega

end MyLibevent.Proofs
