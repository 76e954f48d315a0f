import MyLibevent.Evbuffer
import MyLibevent.Lib.LinkedCells

/-!
The chains of a buffer in memory, and what the helper functions of `buffer.c` do to them.
-/

namespace MyLibevent.Proofs

open LinkedCells ByteBlock List Function Memory

/-- An allocated chain that owns its block and is not shared, pinned or read-only. -/
structure ChainOk (m : Memory) (c : ChainId) : Prop where
  live : c ∈ m.live
  buffer : (m.chain c).buffer = c
  flags : (m.chain c).flags = {}
  refcnt : (m.chain c).refcnt = 1
  bound : (m.chain c).misalign + (m.chain c).off ≤ (m.chain c).bufferLen
  pos : 0 < (m.chain c).bufferLen
  size : (m.chain c).bufferLen + evbufferChainSize ≤ m.size c

/-- From the pointer `p` on, the chains `l` are linked and hold the bytes `bs`. -/
structure Chains (m : Memory) (p : Option ChainId) (l : List ChainId) (bs : Bytes) :
    Prop where
  walk : Walk ChainPtr.next m.cell p l none
  nodup : l.Nodup
  ok : ∀ c ∈ l, ChainOk m c
  data : l.flatMap m.data = bs

/-- The buffer `b` consists of the chains `l` and holds the bytes `bs`. An empty chain is the
only one, so that `last_with_datap` designates the last chain. -/
structure Holds (m : Memory) (b : BufId) (l : List ChainId) (bs : Bytes) : Prop
    extends Chains m (m.cell (.first b)) l bs where
  last : (m.buf b).last = l.getLast?
  datap : (m.buf b).lastWithDatap = after ChainPtr.next (.first b) l.dropLast
  total : (m.buf b).totalLen = bs.length
  tidy : ∀ c ∈ l, (m.chain c).off = 0 → l = [c]
  freezeStart : (m.buf b).freezeStart = false
  freezeEnd : (m.buf b).freezeEnd = false

structure HeapOk (m : Memory) : Prop where
  nodup : m.live.Nodup
  fresh : ∀ c ∈ m.live, c < m.fresh
  used : m.used ≤ evSsizeMax
  fault : m.fault = false

/-- The memory `m'` differs from `m` in the buffers `B` and the chains `C` only. -/
structure Frame (B : Set BufId) (C : Set ChainId) (m m' : Memory) : Prop where
  buf : ∀ b, b ∉ B → m'.buf b = m.buf b
  first : ∀ b, b ∉ B → m'.cell (.first b) = m.cell (.first b)
  next : ∀ c, c ∉ C → m'.cell (.next c) = m.cell (.next c)
  chain : ∀ c, c ∉ C → m'.chain c = m.chain c
  block : ∀ c, c ∉ C → m'.block c = m.block c
  size : ∀ c, c ∉ C → m'.size c = m.size c
  live : ∀ c, c ∉ C → (c ∈ m'.live ↔ c ∈ m.live)

lemma next_injective : Injective ChainPtr.next := fun _ _ h => ChainPtr.next.inj h

lemma next_ne_first (b : BufId) (l : List ChainId) : ∀ c ∈ l, ChainPtr.next c ≠ .first b :=
  fun _ _ h => ChainPtr.noConfusion h

lemma after_moved (b : BufId) (s : ChainPtr) (l : List ChainId) :
    (if after ChainPtr.next (.first b) l = .first b then s else after ChainPtr.next (.first b) l) =
      after ChainPtr.next s l := by
  by_cases hl : l = []
  · subst hl
    simp
  · rw [after_congr hl (ChainPtr.first b) s, after_eq_of_ne_nil hl, if_neg (by simp)]

attribute [local simp] setCell modifyBuf modifyChain memcpy

section Primitives

variable {B : Set BufId} {C : Set ChainId} {m m' m'' : Memory} {b : BufId} {c : ChainId}
  {l : List ChainId} {size : Nat}

lemma Frame.refl : Frame B C m m := by
  constructor <;> intros <;> rfl

section

variable (h : Frame B C m m')
include h

lemma Frame.trans (h' : Frame B C m' m'') : Frame B C m m'' where
  buf b hb := (h'.buf b hb).trans (h.buf b hb)
  first b hb := (h'.first b hb).trans (h.first b hb)
  next c hc := (h'.next c hc).trans (h.next c hc)
  chain c hc := (h'.chain c hc).trans (h.chain c hc)
  block c hc := (h'.block c hc).trans (h.block c hc)
  size c hc := (h'.size c hc).trans (h.size c hc)
  live c hc := (h'.live c hc).trans (h.live c hc)

lemma Frame.mono {B' : Set BufId} {C' : Set ChainId} (hB : B ⊆ B') (hC : C ⊆ C') : Frame B' C' m m' where
  buf b hb := h.buf b fun hb' => hb (hB hb')
  first b hb := h.first b fun hb' => hb (hB hb')
  next c hc := h.next c fun hc' => hc (hC hc')
  chain c hc := h.chain c fun hc' => hc (hC hc')
  block c hc := h.block c fun hc' => hc (hC hc')
  size c hc := h.size c fun hc' => hc (hC hc')
  live c hc := h.live c fun hc' => hc (hC hc')

lemma Frame.modifyBuf (hb : b ∈ B) (f : Evbuffer → Evbuffer) : Frame B C m (m'.modifyBuf b f) := by
  refine ⟨?_, h.first, h.next, h.chain, h.block, h.size, h.live⟩
  intro b' hb'
  have hne := (ne_of_mem_of_not_mem hb hb').symm
  simp [hne, h.buf b' hb']

lemma Frame.setFirst (hb : b ∈ B) (v : Option ChainId) : Frame B C m (m'.setCell (.first b) v) := by
  refine ⟨h.buf, ?_, ?_, h.chain, h.block, h.size, h.live⟩
  · intro b' hb'
    have hne := (ne_of_mem_of_not_mem hb hb').symm
    simp [hne, h.first b' hb']
  · intro c hc
    simp [h.next c hc]

lemma Frame.setNext (hc : c ∈ C) (v : Option ChainId) : Frame B C m (m'.setCell (.next c) v) := by
  refine ⟨h.buf, ?_, ?_, h.chain, h.block, h.size, h.live⟩
  · intro b hb
    simp [h.first b hb]
  · intro c' hc'
    have hne := (ne_of_mem_of_not_mem hc hc').symm
    simp [hne, h.next c' hc']

lemma Frame.setAfter (hb : b ∈ B) (hl : ∀ c ∈ l, c ∈ C) (v : Option ChainId) :
    Frame B C m (m'.setCell (after ChainPtr.next (.first b) l) v) := by
  by_cases hnil : l = []
  · subst hnil
    exact h.setFirst hb v
  · rw [after_eq_of_ne_nil hnil]
    exact h.setNext (hl _ (getLast_mem hnil)) v

lemma Frame.modifyChain (hc : c ∈ C) (f : EvbufferChain → EvbufferChain) : Frame B C m (m'.modifyChain c f) := by
  refine ⟨h.buf, h.first, h.next, ?_, h.block, h.size, h.live⟩
  intro c' hc'
  have hne := (ne_of_mem_of_not_mem hc hc').symm
  simp [hne, h.chain c' hc']

lemma Frame.memcpy (hc : c ∈ C) (pos : Nat) (data : Bytes) : Frame B C m (m'.memcpy c pos data) := by
  refine ⟨h.buf, h.first, h.next, h.chain, ?_, h.size, h.live⟩
  intro c' hc'
  have hne := (ne_of_mem_of_not_mem hc hc').symm
  simp [hne, h.block c' hc']

lemma Frame.free (hc : c ∈ C) : Frame B C m (mmFree m' c) := by
  have hne : ∀ c', c' ∉ C → c' ≠ c := fun c' hc' => (ne_of_mem_of_not_mem hc hc').symm
  refine ⟨h.buf, ?_, ?_, ?_, h.block, h.size, ?_⟩
  · intro b hb
    simp [mmFree, h.first b hb]
  · intro c' hc'
    simp [mmFree, hne c' hc', h.next c' hc']
  · intro c' hc'
    simp [mmFree, hne c' hc', h.chain c' hc']
  · intro c' hc'
    simp [mmFree, mem_erase_of_ne (hne c' hc'), h.live c' hc']

end

lemma HeapOk.congr (h : HeapOk m)
    (hsame : (m'.live, m'.fresh, m'.size, m'.fault) = (m.live, m.fresh, m.size, m.fault)) : HeapOk m' := by
  simp only [Prod.mk.injEq] at hsame
  obtain ⟨hlive, hfresh, hsize, hfault⟩ := hsame
  refine ⟨?_, ?_, ?_, ?_⟩
  · rw [hlive]
    exact h.nodup
  · rw [hlive, hfresh]
    exact h.fresh
  · rw [Memory.used, hlive, hsize]
    exact h.used
  · rw [hfault]
    exact h.fault

lemma HeapOk.free (h : HeapOk m) : HeapOk (mmFree m c) := by
  refine ⟨h.nodup.erase c, ?_, ?_, h.fault⟩
  · intro d hd
    exact h.fresh d (mem_of_mem_erase hd)
  · have hsub : ((m.live.erase c).map m.size).sum ≤ (m.live.map m.size).sum :=
      (erase_sublist.map m.size).sum_le_sum fun _ _ => Nat.zero_le _
    exact hsub.trans h.used

lemma HeapOk.sum_size_le (h : HeapOk m) (hnodup : l.Nodup) (hlive : ∀ c ∈ l, c ∈ m.live) :
    (l.map m.size).sum ≤ evSsizeMax := by
  obtain ⟨l', hperm, hsub⟩ := hnodup.subperm hlive
  have hle : (l'.map m.size).sum ≤ (m.live.map m.size).sum :=
    (hsub.map m.size).sum_le_sum fun _ _ => Nat.zero_le _
  rw [← (hperm.map m.size).sum_eq]
  exact hle.trans h.used

lemma length_lt_fuel (hnodup : l.Nodup) (hlive : ∀ c ∈ l, c ∈ m.live) : l.length < m.fuel := by
  have hle := (hnodup.subperm hlive).length_le
  unfold fuel
  omega

lemma HeapOk.bufferLen_le (h : HeapOk m) (hc : ChainOk m c) :
    (m.chain c).bufferLen + evbufferChainSize ≤ evSsizeMax := by
  have hsum := h.sum_size_le (nodup_singleton c) (by simpa using hc.live)
  have hsize := hc.size
  simp only [map_cons, map_nil, sum_cons, sum_nil] at hsum
  omega

lemma le_growToAlloc {k toAlloc : Nat} (h : size ≤ toAlloc * 2 ^ k) : size ≤ growToAlloc size k toAlloc := by
  induction k generalizing toAlloc with
  | zero => simpa [growToAlloc] using h
  | succ k ih =>
    unfold growToAlloc
    split
    · apply ih
      calc size ≤ toAlloc * 2 ^ (k + 1) := h
        _ = 2 * toAlloc * 2 ^ k := by ring
    · omega

lemma le_growToAlloc_self (size k toAlloc : Nat) : toAlloc ≤ growToAlloc size k toAlloc := by
  induction k generalizing toAlloc with
  | zero => exact le_refl _
  | succ k ih =>
    unfold growToAlloc
    split
    · have hnext := ih (2 * toAlloc)
      omega
    · exact le_refl _

lemma le_chainAlloc (size : Nat) : size ≤ chainAlloc size ∧ minBufferSize ≤ chainAlloc size := by
  unfold chainAlloc
  split_ifs with hsmall
  · refine ⟨?_, le_growToAlloc_self _ _ _⟩
    apply le_growToAlloc
    simp only [evbufferChainMax, evSsizeMax, minBufferSize] at *
    omega
  · refine ⟨le_refl _, ?_⟩
    simp only [evbufferChainMax, evSsizeMax, minBufferSize] at *
    omega

structure NewChain (m m' : Memory) (t : ChainId) (size : Nat) : Prop where
  dead : t ∉ m.live
  ok : ChainOk m' t
  misalign : (m'.chain t).misalign = 0
  off : (m'.chain t).off = 0
  room : size ≤ (m'.chain t).bufferLen
  next : m'.cell (.next t) = none
  buf : m'.buf = m.buf
  frame : Frame ∅ {t} m m'
  heap : HeapOk m'

lemma evbufferChainNew_cases (hheap : HeapOk m) (size : Nat) :
    (∃ m', evbufferChainNew m size = (none, m') ∧ m'.oom) ∨
      ∃ t m', evbufferChainNew m size = (some t, m') ∧ NewChain m m' t size := by
  obtain ⟨hle, hmin⟩ := le_chainAlloc (size + evbufferChainSize)
  simp only [minBufferSize] at hmin
  have hdead : m.fresh ∉ m.live := fun h => absurd (hheap.fresh _ h) (lt_irrefl _)
  simp only [evbufferChainNew]
  split
  · exact .inl ⟨_, rfl, rfl⟩
  · split_ifs with hgrant
    · have hroom : m.used + chainAlloc (size + evbufferChainSize) ≤ evSsizeMax := by
        simp only [mmMalloc, Bool.and_eq_true, decide_eq_true_eq] at hgrant
        exact hgrant.2
      refine .inr ⟨_, _, rfl, hdead, ⟨?_, ?_, ?_, ?_, ?_, ?_, ?_⟩, ?_, ?_, ?_, ?_, rfl, ?_, ?_⟩
      · simp
      · simp
      · simp
      · simp
      · simp
      · simp only [update_self, evbufferChainSize] at *
        omega
      · simp only [update_self]
        omega
      · simp
      · simp
      · simp only [update_self]
        omega
      · simp
      · refine ⟨?_, ?_, ?_, ?_, ?_, ?_, ?_⟩ <;> intro x hx <;> simp_all
      · refine ⟨?_, ?_, ?_, hheap.fault⟩
        · simpa using ⟨hdead, hheap.nodup⟩
        · exact forall_mem_cons.2 ⟨Nat.lt_succ_self _, fun c hc => Nat.lt_succ_of_lt (hheap.fresh c hc)⟩
        · have hold : (m.live.map (update m.size m.fresh
              (chainAlloc (size + evbufferChainSize)))) = m.live.map m.size := by
            apply map_congr_left
            intro c hc
            have hne : c ≠ m.fresh := ne_of_mem_of_not_mem hc hdead
            simp [hne]
          simp only [Memory.used, map_cons, sum_cons, update_self, hold]
          simp only [Memory.used] at hroom
          omega
    · exact .inl ⟨_, rfl, rfl⟩

end Primitives

section ChainLists

variable {B : Set BufId} {C : Set ChainId} {m m' : Memory} {b : BufId} {c : ChainId}
  {p : Option ChainId} {l l1 l2 : List ChainId} {bs bs1 bs2 : Bytes}

section

variable (h : ChainOk m c)
include h

lemma ChainOk.congr (hchain : m'.chain c = m.chain c)
    (hsize : m'.size c = m.size c) (hlive : c ∈ m'.live) : ChainOk m' c := by
  refine ⟨hlive, ?_, ?_, ?_, ?_, ?_, ?_⟩
  · rw [hchain]
    exact h.buffer
  · rw [hchain]
    exact h.flags
  · rw [hchain]
    exact h.refcnt
  · rw [hchain]
    exact h.bound
  · rw [hchain]
    exact h.pos
  · rw [hchain, hsize]
    exact h.size

lemma ChainOk.modifyBuf (f : Evbuffer → Evbuffer) : ChainOk (m.modifyBuf b f) c := h.congr rfl rfl h.live

lemma ChainOk.modify (hlive : m'.live = m.live) (hsize : m'.size = m.size)
    (hbuffer : (m'.chain c).buffer = (m.chain c).buffer)
    (hflags : (m'.chain c).flags = (m.chain c).flags)
    (hrefcnt : (m'.chain c).refcnt = (m.chain c).refcnt)
    (hlen : (m'.chain c).bufferLen = (m.chain c).bufferLen)
    (hbound : (m'.chain c).misalign + (m'.chain c).off ≤ (m.chain c).bufferLen) : ChainOk m' c := by
  refine ⟨hlive ▸ h.live, hbuffer.trans h.buffer, hflags.trans h.flags, hrefcnt.trans h.refcnt, ?_, ?_, ?_⟩
  · rw [hlen]
    exact hbound
  · rw [hlen]
    exact h.pos
  · rw [hlen, hsize]
    exact h.size

lemma ChainOk.frame (hf : Frame B C m m') (hc : c ∉ C) : ChainOk m' c :=
  h.congr (hf.chain c hc) (hf.size c hc) ((hf.live c hc).2 h.live)

lemma ChainOk.data_frame (hf : Frame B C m m') (hc : c ∉ C) : m'.data c = m.data c := by
  rw [Memory.data, Memory.data, hf.chain c hc, h.buffer, hf.block c hc]

lemma ChainOk.not_pinned : m.chainPinned c = false := by
  rw [chainPinned, h.flags]
  rfl

end

@[simp] lemma length_data (m : Memory) (c : ChainId) : (m.data c).length = (m.chain c).off :=
  length_read _ _ _

lemma data_eq_nil (h : (m.chain c).off = 0) : m.data c = [] := by
  rw [Memory.data, h, read_zero]

lemma Chains.flatMap_data {k : List ChainId} (h : Chains m p l bs) (hf : Frame B C m m')
    (hk : ∀ c ∈ k, c ∈ l ∧ c ∉ C) : k.flatMap m'.data = k.flatMap m.data := by
  apply flatMap_congr
  intro c hc
  exact (h.ok c (hk c hc).1).data_frame hf (hk c hc).2

lemma Chains.frame (h : Chains m p l bs) (hf : Frame B C m m') (hl : ∀ c ∈ l, c ∉ C) : Chains m' p l bs := by
  refine ⟨h.walk.congr fun c hc => hf.next c (hl c hc), h.nodup, ?_, ?_⟩
  · intro c hc
    exact (h.ok c hc).frame hf (hl c hc)
  · rw [← h.data]
    exact h.flatMap_data hf fun c hc => ⟨hc, hl c hc⟩

lemma Chains.live (h : Chains m p l bs) : ∀ c ∈ l, c ∈ m.live := fun c hc => (h.ok c hc).live

lemma Chains.length_eq (h : Chains m p l bs) : bs.length = (l.map fun c => (m.chain c).off).sum := by
  rw [← h.data, length_flatMap]
  simp

lemma Chains.nil (m : Memory) : Chains m none [] [] :=
  ⟨rfl, nodup_nil, by simp, rfl⟩

lemma Chains.tail (h : Chains m p (c :: l) bs) : Chains m (m.cell (.next c)) l (l.flatMap m.data) :=
  ⟨h.walk.2, h.nodup.of_cons, fun d hd => h.ok d (by simp [hd]), rfl⟩

lemma Chains.split (h : Chains m p (l1 ++ l2) bs) :
    ∃ r, Walk ChainPtr.next m.cell p l1 r ∧ Chains m r l2 (l2.flatMap m.data) := by
  obtain ⟨r, h1, h2⟩ := h.walk.split
  refine ⟨r, h1, h2, h.nodup.of_append_right, ?_, rfl⟩
  intro c hc
  exact h.ok c (by simp [hc])

lemma Chains.cons (h : Chains m p l bs) (hok : ChainOk m c) (hc : c ∉ l)
    (hnext : m.cell (.next c) = p) : Chains m (some c) (c :: l) (m.data c ++ bs) := by
  refine ⟨⟨rfl, hnext ▸ h.walk⟩, nodup_cons.2 ⟨hc, h.nodup⟩, ?_, ?_⟩
  · exact forall_mem_cons.2 ⟨hok, h.ok⟩
  · rw [flatMap_cons, h.data]

lemma Chains.cut (h : Chains m (m.cell (.first b)) (l1 ++ l2) bs) :
    Chains (m.setCell (after ChainPtr.next (.first b) l1) none)
      ((m.setCell (after ChainPtr.next (.first b) l1) none).cell (.first b)) l1
      (l1.flatMap m.data) := by
  obtain ⟨r, hwalk, -⟩ := h.walk.split
  have hnodup := h.nodup.of_append_left
  refine ⟨hwalk.update_after next_injective (next_ne_first b l1) hnodup none, hnodup, ?_, rfl⟩
  intro c hc
  have hok := h.ok c (by simp [hc])
  exact hok.congr rfl rfl hok.live

lemma Chains.link (h1 : Chains m (m.cell (.first b)) l1 bs1) (h2 : Chains m p l2 bs2)
    (hdisj : ∀ c ∈ l1, c ∉ l2) :
    Chains (m.setCell (after ChainPtr.next (.first b) l1) p)
      ((m.setCell (after ChainPtr.next (.first b) l1) p).cell (.first b)) (l1 ++ l2)
      (bs1 ++ bs2) := by
  refine ⟨?_, ?_, ?_, ?_⟩
  · apply h1.walk.link next_injective (next_ne_first b l1) h1.nodup ?_ h2.walk
    intro c hc heq
    by_cases hnil : l1 = []
    · subst hnil
      cases heq
    · rw [after_eq_of_ne_nil hnil] at heq
      rw [ChainPtr.next.inj heq] at hc
      exact hdisj _ (getLast_mem hnil) hc
  · exact List.Nodup.append h1.nodup h2.nodup hdisj
  · intro c hc
    rcases mem_append.1 hc with hc | hc
    · exact (h1.ok c hc).congr rfl rfl (h1.ok c hc).live
    · exact (h2.ok c hc).congr rfl rfl (h2.ok c hc).live
  · rw [flatMap_append, ← h1.data, ← h2.data]
    rfl

lemma evbufferChainFree_eq (h : ChainOk m c) : evbufferChainFree m c = mmFree m c := by
  have hassert : m.evutilAssert (0 < (m.chain c).refcnt) = m := if_pos (by rw [h.refcnt]; omega)
  simp only [evbufferChainFree, hassert]
  rw [if_neg, if_neg]
  · simp [mmFree, update_idem]
  · simp [chainPinned, h.flags]
  · simp [h.refcnt]

lemma freeAllChains_eq {k : Nat} (h : Chains m p l bs) (hk : l.length ≤ k) :
    freeAllChains k m p = l.foldl mmFree m := by
  induction l generalizing m p bs k with
  | nil =>
    obtain rfl : p = none := h.walk
    cases k <;> rfl
  | cons c l ih =>
    obtain ⟨k, rfl⟩ : ∃ k', k = k' + 1 := ⟨k - 1, by simp at hk; omega⟩
    obtain rfl := h.walk.1
    rw [freeAllChains, evbufferChainFree_eq (h.ok c (by simp)), foldl_cons]
    have hrest := h.tail
    have hframe : Frame ∅ {c} m (mmFree m c) := Frame.refl.free (Set.mem_singleton c)
    apply ih (hrest.frame hframe ?_) (by simpa using hk)
    rintro d hd rfl
    exact (nodup_cons.1 h.nodup).1 hd

lemma Frame.freeList {m'' : Memory} (h : Frame B C m m'') (hl : ∀ c ∈ l, c ∈ C) :
    Frame B C m (l.foldl mmFree m'') := by
  induction l generalizing m'' with
  | nil => exact h
  | cons c l ih => exact ih (h.free (hl c (by simp))) fun d hd => hl d (by simp [hd])

lemma HeapOk.freeList (h : HeapOk m) : HeapOk (l.foldl mmFree m) := by
  induction l generalizing m with
  | nil => exact h
  | cons c l ih => exact ih h.free

@[simp] lemma foldl_mmFree_buf : (l.foldl mmFree m).buf = m.buf := by
  induction l generalizing m with
  | nil => rfl
  | cons c l ih => exact ih

lemma foldl_mmFree_first : (l.foldl mmFree m).cell (.first b) = m.cell (.first b) := by
  have h : Frame ∅ {c | c ∈ l} m (l.foldl mmFree m) :=
    Frame.refl.freeList fun _ hc => hc
  exact h.first b (Set.notMem_empty b)

end ChainLists

section Trailing

variable {C : Set ChainId} {m : Memory} {b : BufId} {c t : ChainId} {l : List ChainId}
  {bs : Bytes}

lemma evutilAssert_of {p : Prop} [Decidable p] (h : p) : m.evutilAssert p = m := if_pos h

section

variable (h : Holds m b l bs)
include h

lemma Holds.lastWithData : m.lastWithData b = l.getLast? := by
  rw [Memory.lastWithData, h.datap]
  exact h.walk.getLast

lemma Holds.cases : (∃ c, l = [c] ∧ (m.chain c).off = 0) ∨ ∀ c ∈ l, (m.chain c).off ≠ 0 := by
  by_cases hex : ∃ c ∈ l, (m.chain c).off = 0
  · obtain ⟨c, hc, hoff⟩ := hex
    exact .inl ⟨c, h.tidy c hc hoff, hoff⟩
  · right
    intro c hc hoff
    exact hex ⟨c, hc, hoff⟩

lemma Holds.not_pinned : hasPinnedR m b = false := by
  rw [hasPinnedR, h.last]
  rcases l.eq_nil_or_concat with rfl | ⟨l', c, rfl⟩
  · rfl
  · have hflags := (h.ok c (by simp)).flags
    simp [chainPinnedR, hflags]

lemma Holds.full (hc : c ∈ l) (hoff : (m.chain c).off ≠ 0) : ∀ d ∈ l, (m.chain d).off ≠ 0 := by
  intro d hd hzero
  rw [h.tidy d hd hzero, mem_singleton] at hc
  rw [hc] at hoff
  exact hoff hzero

lemma Holds.full_of_ne_nil (hbs : bs ≠ []) : ∀ d ∈ l, (m.chain d).off ≠ 0 := by
  rcases h.cases with ⟨c, rfl, hoff⟩ | hfull
  · rw [← h.data] at hbs
    simp [data_eq_nil hoff] at hbs
  · exact hfull

end

/-- After the empty chains at the end are freed, `l0` are the chains left and the pointer returned
is the one behind them. -/
structure Trimmed (m : Memory) (b : BufId) (l : List ChainId) (bs : Bytes)
    (r : Memory × ChainPtr) (l0 : List ChainId) : Prop where
  slot : r.2 = after ChainPtr.next (.first b) l0
  chains : Chains r.1 (r.1.cell (.first b)) l0 bs
  full : ∀ c ∈ l0, (r.1.chain c).off ≠ 0
  sub : ∀ c ∈ l0, c ∈ l
  same : bs ≠ [] → l0 = l
  datap : (m.buf b).lastWithDatap = after ChainPtr.next (.first b) l0.dropLast
  buf : r.1.buf = m.buf
  frame : Frame {b} {c | c ∈ l} m r.1
  heap : HeapOk r.1

lemma firstVictim_full (h : Holds m b l bs) (hfull : ∀ c ∈ l, (m.chain c).off ≠ 0) :
    firstVictim m.fuel m (m.buf b).lastWithDatap = (m, after ChainPtr.next (.first b) l) := by
  rcases l.eq_nil_or_concat with rfl | ⟨l', c, rfl⟩
  · have hnone : m.cell (.first b) = none := h.walk
    rw [h.datap, fuel, firstVictim]
    simp [hnone]
  · rw [concat_eq_append] at *
    have hlast : m.cell (m.buf b).lastWithDatap = some c := by
      simpa [Memory.lastWithData] using h.lastWithData
    have hend : m.cell (.next c) = none := by
      simpa using h.walk.cell_after
    obtain ⟨k, hk⟩ : ∃ k, m.fuel = k + 2 := by
      have hlt := length_lt_fuel h.nodup h.live
      rw [length_append, length_singleton] at hlt
      exact ⟨m.fuel - 2, by omega⟩
    rw [hk, firstVictim]
    simp only [hlast]
    rw [if_pos (.inl (hfull c (by simp))), firstVictim]
    simp [hend]

lemma evbufferFreeTrailingEmptyChains_trimmed (hheap : HeapOk m) (h : Holds m b l bs) :
    ∃ l0, Trimmed m b l bs (evbufferFreeTrailingEmptyChains m b) l0 := by
  rcases h.cases with ⟨c, rfl, hoff⟩ | hfull
  · have hok := h.ok c (by simp)
    have hfirst : m.cell (.first b) = some c := h.walk.1
    have hend : m.cell (.next c) = none := h.walk.2
    have hvictim : firstVictim m.fuel m (.first b) = (m, .first b) := by
      rw [fuel, firstVictim]
      simp [hfirst, hoff, hok.not_pinned]
    have hempty : chainsAllEmpty m m.fuel (some c) := by
      rw [fuel, chainsAllEmpty]
      cases m.live.length <;> simp [hoff, hend, chainsAllEmpty]
    have hfree : evbufferFreeAllChains m (some c) = mmFree m c := by
      rw [evbufferFreeAllChains, ← hfirst]
      exact freeAllChains_eq h.toChains (length_lt_fuel h.nodup h.live).le
    have hr : evbufferFreeTrailingEmptyChains m b = ((mmFree m c).setCell (.first b) none, .first b) := by
      have hdatap : (m.buf b).lastWithDatap = .first b := h.datap
      simp only [evbufferFreeTrailingEmptyChains, hdatap, hvictim, hfirst]
      rw [evutilAssert_of hempty, hfree]
    have hbs : bs = [] := by
      rw [← h.data]
      simp [data_eq_nil hoff]
    refine ⟨[], ?_⟩
    rw [hr]
    refine ⟨rfl, ?_, by simp, by simp, fun hne => absurd hbs hne, h.datap, rfl, ?_, ?_⟩
    · subst hbs
      simpa using Chains.nil _
    · exact (Frame.refl.free (C := {d | d ∈ [c]}) (by simp)).setFirst (Set.mem_singleton b) none
    · exact hheap.free.congr rfl
  · have hend : m.cell (after ChainPtr.next (.first b) l) = none := h.walk.cell_after
    have hr : evbufferFreeTrailingEmptyChains m b = (m, after ChainPtr.next (.first b) l) := by
      simp only [evbufferFreeTrailingEmptyChains, firstVictim_full h hfull, hend]
    refine ⟨l, ?_⟩
    rw [hr]
    exact ⟨rfl, h.toChains, hfull, fun _ hc => hc, fun _ => rfl, h.datap, rfl, Frame.refl, hheap⟩

/-- The outcome of an operation on the buffer `b` that touches no chains but `C`. -/
structure Result (C : Set ChainId) (m m' : Memory) (b : BufId) (l : List ChainId)
    (bs : Bytes) : Prop where
  holds : Holds m' b l bs
  within : ∀ c ∈ l, c ∈ C
  frame : Frame {b} C m m'
  heap : HeapOk m'

lemma addSize_of_le {a n : Nat} (h : a + n ≤ evSizeMax) : addSize a n = a + n :=
  Nat.mod_eq_of_lt (by unfold evSizeMax at h; omega)

lemma Chains.single (hok : ChainOk m t) (hnext : m.cell (.next t) = none) : Chains m (some t) [t] (m.data t) := by
  refine ⟨⟨rfl, hnext⟩, nodup_singleton t, ?_, by simp⟩
  intro c hc
  rw [mem_singleton.1 hc]
  exact hok

lemma Chains.modifyBuf {p : Option ChainId} (h : Chains m p l bs) (f : Evbuffer → Evbuffer) :
    Chains (m.modifyBuf b f) p l bs :=
  ⟨h.walk, h.nodup, fun c hc => (h.ok c hc).modifyBuf f, h.data⟩

/-- Only the chains of a buffer, the pointers to them, its length and its counters have changed. -/
lemma Holds.rebuild {m' : Memory} {l' : List ChainId} {bs' : Bytes} (h : Holds m b l bs)
    (hchains : Chains m' (m'.cell (.first b)) l' bs')
    (hbuf : { m'.buf b with nAddForCb := 0, nDelForCb := 0 } = { m.buf b with
      last := l'.getLast?
      lastWithDatap := after ChainPtr.next (.first b) l'.dropLast
      totalLen := bs'.length
      nAddForCb := 0
      nDelForCb := 0 })
    (htidy : ∀ c ∈ l', (m'.chain c).off = 0 → l' = [c]) : Holds m' b l' bs' := by
  simp only [Evbuffer.mk.injEq] at hbuf
  obtain ⟨hlast, hdatap, htotal, -, -, hstart, hend⟩ := hbuf
  exact ⟨hchains, hlast, hdatap, htotal, htidy, hstart.trans h.freezeStart, hend.trans h.freezeEnd⟩

lemma evbufferChainInsert_nil (hheap : HeapOk m) (h : Holds m b [] bs) (hok : ChainOk m t)
    (hnext : m.cell (.next t) = none) (hlen : (m.chain t).off ≤ evSizeMax) (hC : t ∈ C) :
    Result C m (evbufferChainInsert m b t) b [t] (bs ++ m.data t) := by
  have hbs : bs = [] := h.data.symm
  have hfirst : m.cell (.first b) = none := h.walk
  have hdatap : (m.buf b).lastWithDatap = .first b := h.datap
  have hinsert : evbufferChainInsert m b t =
      ((m.setCell (.first b) (some t)).modifyBuf b fun s => { s with last := some t }).modifyBuf b
        fun s => { s with totalLen := addSize s.totalLen (m.chain t).off } := by
    simp only [evbufferChainInsert, h.lastWithData, getLast?_nil]
    rw [evutilAssert_of hdatap, evutilAssert_of hfirst]
    rfl
  have hlink := Chains.link (b := b) ⟨h.walk, h.nodup, h.ok, h.data⟩ (Chains.single hok hnext) (by simp)
  rw [hinsert]
  refine ⟨?_, by simpa using hC, ?_, hheap.congr rfl⟩
  · apply h.rebuild ((hlink.modifyBuf _).modifyBuf _) _ (by simp)
    simp [hdatap, h.total, hbs, addSize_of_le (a := 0) (n := (m.chain t).off) (by simpa using hlen)]
  · have hb : b ∈ ({b} : Set BufId) := Set.mem_singleton b
    exact ((Frame.refl.setFirst hb _).modifyBuf hb _).modifyBuf hb _

lemma evbufferChainInsert_cons (hheap : HeapOk m) (h : Holds m b l bs) (hl : l ≠ [])
    (hok : ChainOk m t) (ht : t ∉ l) (hnext : m.cell (.next t) = none) (hoff : (m.chain t).off ≠ 0)
    (hlen : bs.length + (m.chain t).off ≤ evSizeMax) (hCl : ∀ c ∈ l, c ∈ C) (hCt : t ∈ C) :
    ∃ l0, (∀ c ∈ l0, c ∈ l) ∧ Result C m (evbufferChainInsert m b t) b (l0 ++ [t]) (bs ++ m.data t) := by
  obtain ⟨l0, htrim⟩ := evbufferFreeTrailingEmptyChains_trimmed hheap h
  obtain ⟨x, hx⟩ : ∃ x, m.lastWithData b = some x := by
    rw [h.lastWithData]
    exact ⟨_, getLast?_eq_getLast_of_ne_nil hl⟩
  generalize hr : evbufferFreeTrailingEmptyChains m b = r at htrim
  obtain ⟨m1, slot⟩ := r
  obtain ⟨hslot, hchains, hfull, hsub, -, -, hbuf, hframe, hheap1⟩ := htrim
  simp only at hslot hchains hfull hbuf hframe hheap1
  have hchain : m1.chain t = m.chain t := hframe.chain t ht
  have hinsert : evbufferChainInsert m b t =
      (m1.setCell slot (some t)).modifyBuf b fun s =>
        { s with
          lastWithDatap := slot
          last := some t
          totalLen := addSize s.totalLen (m.chain t).off } := by
    simp only [evbufferChainInsert, hx, hr]
    simp [hchain, hoff]
  subst hslot
  have hsingle := (Chains.single hok hnext).frame hframe (by simpa using ht)
  have hlink := (hchains.link hsingle (by
    intro c hc heq
    rw [mem_singleton.1 heq] at hc
    exact ht (hsub t hc))).modifyBuf (b := b) fun s =>
      { s with
        lastWithDatap := after ChainPtr.next (.first b) l0
        last := some t
        totalLen := addSize s.totalLen (m.chain t).off }
  refine ⟨l0, hsub, ?_⟩
  rw [hinsert]
  refine ⟨h.rebuild hlink ?_ ?_, ?_, ?_, hheap1.congr rfl⟩
  · simp [hbuf, h.total, addSize_of_le hlen]
  · intro c hc hzero
    rcases mem_append.1 hc with hc | hc
    · exact absurd hzero (hfull c hc)
    · rw [mem_singleton.1 hc] at hzero
      exact absurd (hchain ▸ hzero) hoff
  · exact forall_mem_append.2 ⟨fun c hc => hCl c (hsub c hc), forall_mem_singleton.2 hCt⟩
  · have hmono : Frame {b} C m m1 := hframe.mono subset_rfl hCl
    exact (hmono.setAfter (Set.mem_singleton b) (fun c hc => hCl c (hsub c hc)) _).modifyBuf (Set.mem_singleton b) _

end Trailing

section Filling

variable {B : Set BufId} {C : Set ChainId} {m m' : Memory} {b : BufId} {c t : ChainId}
  {p : Option ChainId} {l l1 l2 : List ChainId} {bs data : Bytes} {f : Evbuffer → Evbuffer}

lemma Chains.modify (h : Chains m p (l1 ++ c :: l2) bs) (hf : Frame B {c} m m')
    (hnext : m'.cell (.next c) = m.cell (.next c)) (hok : ChainOk m' c) :
    Chains m' p (l1 ++ c :: l2) (l1.flatMap m.data ++ (m'.data c ++ l2.flatMap m.data)) := by
  have hc : c ∉ l1 ++ l2 := (nodup_cons.1 (nodup_middle.1 h.nodup)).1
  have hother : ∀ d ∈ l1 ++ l2, d ∈ l1 ++ c :: l2 ∧ d ∉ ({c} : Set ChainId) := by
    intro d hd
    refine ⟨?_, fun heq => hc (Set.mem_singleton_iff.1 heq ▸ hd)⟩
    rcases mem_append.1 hd with hd | hd <;> simp [hd]
  refine ⟨?_, h.nodup, ?_, ?_⟩
  · apply h.walk.congr
    intro d hd
    by_cases hdc : d = c
    · rw [hdc, hnext]
    · exact hf.next d hdc
  · intro d hd
    by_cases hdc : d = c
    · rw [hdc]
      exact hok
    · exact (h.ok d hd).frame hf hdc
  · rw [flatMap_append, flatMap_cons,
      h.flatMap_data hf fun d hd => hother d (mem_append_left _ hd),
      h.flatMap_data hf fun d hd => hother d (mem_append_right _ hd)]

lemma tidy_of_le (htidy : ∀ d ∈ l, (m.chain d).off = 0 → l = [d]) (hf : Frame B {c} m m')
    (hle : (m.chain c).off ≤ (m'.chain c).off) : ∀ d ∈ l, (m'.chain d).off = 0 → l = [d] := by
  intro d hd hzero
  apply htidy d hd
  by_cases hdc : d = c
  · subst hdc
    omega
  · rw [hf.chain d hdc] at hzero
    exact hzero

lemma frame_fillChain (hok : ChainOk m c) (data : Bytes) : Frame {b} {c} m (fillChain m b c data) := by
  have hc : c ∈ ({c} : Set ChainId) := rfl
  have hb : b ∈ ({b} : Set BufId) := rfl
  unfold fillChain
  rw [hok.buffer]
  exact ((Frame.refl.memcpy hc _ _).modifyChain hc _).modifyBuf hb _

lemma data_fillChain (hok : ChainOk m c) (data : Bytes) : (fillChain m b c data).data c = m.data c ++ data := by
  simp [fillChain, Memory.data, hok.buffer, read_write_append]

lemma fillChain_holds (h : Holds m b (l ++ [c]) bs)
    (hroom : (m.chain c).misalign + (m.chain c).off + data.length ≤ (m.chain c).bufferLen)
    (hlen : bs.length + data.length ≤ evSizeMax) :
    Holds (fillChain m b c data) b (l ++ [c]) (bs ++ data) := by
  have hok := h.ok c (by simp)
  have hf := frame_fillChain (b := b) hok data
  have hchains := h.modify hf rfl (by
    apply hok.modify <;> simp [fillChain]
    omega)
  have hbs : l.flatMap m.data ++ ((fillChain m b c data).data c ++ [].flatMap m.data) = bs ++ data := by
    rw [data_fillChain hok, ← h.data]
    simp
  rw [hbs] at hchains
  apply h.rebuild hchains _ (tidy_of_le h.tidy hf (by simp [fillChain]))
  simp [fillChain, h.last, h.datap, h.total, addSize_of_le hlen]

def Counting (f : Evbuffer → Evbuffer) : Prop :=
  ∀ s, (f s).last = s.last ∧ (f s).lastWithDatap = s.lastWithDatap ∧ (f s).totalLen = s.totalLen ∧
    (f s).freezeStart = s.freezeStart ∧ (f s).freezeEnd = s.freezeEnd

lemma Holds.modifyBuf (h : Holds m b l bs) (hcount : Counting f) : Holds (m.modifyBuf b f) b l bs := by
  apply h.rebuild (h.toChains.modifyBuf _) _ h.tidy
  simp [hcount (m.buf b), h.last, h.datap, h.total]

lemma Result.modifyBuf (h : Result C m m' b l bs) (hcount : Counting f) : Result C m (m'.modifyBuf b f) b l bs :=
  ⟨h.holds.modifyBuf hcount, h.within, h.frame.modifyBuf rfl _, h.heap.congr rfl⟩

lemma counting_clear : Counting fun s => { s with nAddForCb := 0, nDelForCb := 0 } :=
  fun _ => ⟨rfl, rfl, rfl, rfl, rfl⟩

lemma counting_add (n : Nat) : Counting fun s => { s with nAddForCb := addSize s.nAddForCb n } :=
  fun _ => ⟨rfl, rfl, rfl, rfl, rfl⟩

lemma counting_del (n : Nat) : Counting fun s => { s with nDelForCb := addSize s.nDelForCb n } :=
  fun _ => ⟨rfl, rfl, rfl, rfl, rfl⟩

lemma Result.invokeCallbacks (h : Result C m m' b l bs) :
    Result C m (evbufferInvokeCallbacks m' b) b l bs := h.modifyBuf counting_clear

lemma Holds.frame (h : Holds m b l bs) (hf : Frame B C m m') (hb : b ∉ B)
    (hl : ∀ c ∈ l, c ∉ C) : Holds m' b l bs := by
  refine h.rebuild ?_ ?_ ?_
  · rw [hf.first b hb]
    exact h.toChains.frame hf hl
  · rw [hf.buf b hb, ← h.last, ← h.datap, ← h.total]
  · intro c hc hzero
    rw [hf.chain c (hl c hc)] at hzero
    exact h.tidy c hc hzero

lemma Chains.length_add_le {q : Option ChainId} {k : List ChainId} {cs : Bytes}
    (h : Chains m p l bs) (hheap : HeapOk m) (h' : Chains m q k cs) (hdisj : ∀ c ∈ l, c ∉ k) :
    bs.length + cs.length ≤ evSsizeMax := by
  have hoff : ∀ c ∈ l ++ k, (m.chain c).off ≤ m.size c := by
    intro c hc
    have hok := forall_mem_append.2 ⟨h.ok, h'.ok⟩ c hc
    have hbound := hok.bound
    have hsize := hok.size
    omega
  have hlive := forall_mem_append.2 ⟨h.live, h'.live⟩
  calc bs.length + cs.length = ((l ++ k).map fun c => (m.chain c).off).sum := by
        rw [h.length_eq, h'.length_eq, map_append, sum_append]
    _ ≤ ((l ++ k).map m.size).sum := sum_le_sum hoff
    _ ≤ evSsizeMax := hheap.sum_size_le (h.nodup.append h'.nodup hdisj) hlive

lemma Chains.length_le (h : Chains m p l bs) (hheap : HeapOk m) : bs.length ≤ evSsizeMax := by
  simpa using h.length_add_le hheap (Chains.nil m) (by simp)

lemma Chains.drained {n : Nat} (h : Chains m (some c) (c :: l) bs) (hn : n ≤ (m.chain c).off) :
    Chains (m.modifyChain c fun ch => ch.drained n) (some c) (c :: l) (bs.drop n) := by
  have hok := h.ok c (by simp)
  have hbound := hok.bound
  have hlist : Chains m (some c) ([] ++ c :: l) bs := h
  have hf : Frame ∅ {c} m (m.modifyChain c fun ch => ch.drained n) :=
    Frame.refl.modifyChain (Set.mem_singleton c) _
  have hnew := hlist.modify hf rfl (by
    apply hok.modify <;> simp [EvbufferChain.drained]
    omega)
  have hdata : (m.modifyChain c fun ch => ch.drained n).data c = (m.data c).drop n := by
    rw [Memory.data, Memory.data, drop_read _ _ hn]
    simp [EvbufferChain.drained]
  have hbs : bs.drop n = (m.data c).drop n ++ l.flatMap m.data := by
    rw [← h.data, flatMap_cons, drop_append_of_le_length (by rwa [length_data])]
  rw [hbs, ← hdata]
  simpa using hnew

lemma Holds.suffix {bs' : Bytes} (h : Holds m b (l1 ++ c :: l2) bs)
    (hoff : (m.chain c).off ≠ 0) (hchains : Chains m' (m'.cell (.first b)) (c :: l2) bs')
    (hbuf : { m'.buf b with nAddForCb := 0, nDelForCb := 0 } = { m.buf b with
      lastWithDatap := after ChainPtr.next (.first b) (c :: l2).dropLast
      totalLen := bs'.length
      nAddForCb := 0
      nDelForCb := 0 }) (hc : (m'.chain c).off ≠ 0)
    (hrest : ∀ d ∈ l2, m'.chain d = m.chain d) : Holds m' b (c :: l2) bs' := by
  refine h.rebuild hchains ?_ ?_
  · rw [hbuf]
    simp [h.last, getLast?_append, getLast?_cons]
  · intro d hd hzero
    rcases mem_cons.1 hd with rfl | hd
    · exact absurd hzero hc
    · rw [hrest d hd] at hzero
      exact absurd hzero (h.full (by simp) hoff d (by simp [hd]))

/-- Where a loop over chains stops that passes a chain as long as all its bytes are wanted. -/
lemma exists_split (m : Memory) {n : Nat} (hn : n ≤ (l.flatMap m.data).length) :
    ∃ l1 l2 r, l = l1 ++ l2 ∧ n = (l1.flatMap m.data).length + r ∧ (l2 = [] → r = 0) ∧
      ∀ c ∈ l2.head?, r < (m.chain c).off := by
  induction l generalizing n with
  | nil => exact ⟨[], [], 0, rfl, by simpa using hn, fun _ => rfl, by simp⟩
  | cons c l ih =>
    rw [flatMap_cons, length_append, length_data] at hn
    by_cases hoff : (m.chain c).off ≤ n
    · obtain ⟨l1, l2, r, rfl, hsum, hend, hstop⟩ := ih (n := n - (m.chain c).off) (by omega)
      refine ⟨c :: l1, l2, r, rfl, ?_, hend, hstop⟩
      rw [flatMap_cons, length_append, length_data]
      omega
    · exact ⟨[], c :: l, n, rfl, by simp, by simp, by simpa using hoff⟩

lemma exists_split_lt (m : Memory) {n : Nat} (hn : n < (l.flatMap m.data).length) :
    ∃ l1 c l2 r, l = l1 ++ c :: l2 ∧ n = (l1.flatMap m.data).length + r ∧ r < (m.chain c).off := by
  obtain ⟨l1, l2, r, rfl, hsum, hend, hstop⟩ := exists_split m hn.le
  cases l2 with
  | nil =>
    rw [append_nil] at hn
    rw [hend rfl] at hsum
    omega
  | cons c l2 => exact ⟨l1, c, l2, r, rfl, hsum, hstop c rfl⟩

end Filling

end MyLibevent.Proofs
