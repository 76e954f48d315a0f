import MyLibevent.Proofs.EvbufferChains

/-!
The functions of `buffer.c` on a buffer act as on a plain list of bytes.
-/

namespace MyLibevent.Proofs

open LinkedCells ByteBlock List Function ChainPtr Set MyLibevent.Proofs.Frame

attribute [local simp] Memory.setCell Memory.modifyBuf Memory.modifyChain Memory.memcpy

/-- What an operation on a buffer with the chains `l` may touch: these chains and what it
allocates itself. -/
def own (m : Memory) (l : List ChainId) : Set ChainId := {c | c ∈ l ∨ c ∉ m.live}

lemma notMem_singleton {t : ChainId} {l : List ChainId} (ht : t ∉ l) : ∀ d ∈ l, d ∉ ({t} : Set ChainId) := by
  rintro d hd rfl
  exact ht hd

lemma evSsizeMax_le : evSsizeMax ≤ evSizeMax := by decide

section Add

variable {C : Set ChainId} {m m' : Memory} {b : BufId} {c t : ChainId} {l : List ChainId}
  {bs data : Bytes} {size remain : Nat}

lemma NewChain.holds (hnew : NewChain m m' t size) (h : Holds m b l bs) : Holds m' b l bs := by
  apply h.frame hnew.frame (notMem_empty b)
  rintro c hc rfl
  exact hnew.dead (h.live c hc)

lemma NewChain.frame_own (hnew : NewChain m m' t size) : Frame {b} (own m l) m m' :=
  hnew.frame.mono (empty_subset _) (singleton_subset_iff.2 (.inr hnew.dead))

lemma loadChain_ok (data : Bytes) (hok : ChainOk m t) (hmis : (m.chain t).misalign = 0)
    (hroom : data.length ≤ (m.chain t).bufferLen) :
    ChainOk (loadChain m t data) t ∧ (loadChain m t data).data t = data ∧ Frame ∅ {t} m (loadChain m t data) := by
  have ht : t ∈ ({t} : Set ChainId) := rfl
  refine ⟨?_, ?_, ?_⟩
  · apply hok.modify <;> simp [loadChain]
    omega
  · simp [loadChain, Memory.data, hok.buffer, hmis, read_write]
  · rw [loadChain, hok.buffer]
    exact (refl.memcpy ht _ _).modifyChain ht _

lemma Result.after {m'' : Memory} (h : Result C m' m'' b l bs) (hf : Frame {b} C m m') :
    Result C m m'' b l bs := ⟨h.holds, h.within, hf.trans h.frame, h.heap⟩

section

variable (hheap : HeapOk m) (h : Holds m b (l ++ [c]) bs)
  (hroom : (m.chain c).misalign + (m.chain c).off + remain ≤ (m.chain c).bufferLen)
  (hremain : remain < data.length) (hlen : bs.length + data.length ≤ evSizeMax)

include hheap h hroom hremain hlen

lemma addRest_result (hok : ChainOk m t) (hmis : (m.chain t).misalign = 0)
    (hfit : data.length ≤ (m.chain t).bufferLen) (hnext : m.cell (.next t) = none)
    (ht : t ∉ l ++ [c]) (hCl : ∀ d ∈ l ++ [c], d ∈ C) (hCt : t ∈ C) :
    ∃ l', Result C m (addRest m b c t remain data) b l' (bs ++ data) := by
  have htake : (data.take remain).length = remain := by
    rw [length_take]
    omega
  have hc : c ∈ C := hCl c (by simp)
  obtain ⟨m2, hm2, h2, hf2, hheap2⟩ : ∃ m2,
      (if remain ≠ 0 then fillChain m b c (data.take remain) else m) = m2 ∧
      Holds m2 b (l ++ [c]) (bs ++ data.take remain) ∧ Frame {b} {c} m m2 ∧ HeapOk m2 := by
    by_cases hzero : remain = 0
    · refine ⟨m, by simp [hzero], ?_, refl, hheap⟩
      simpa [hzero] using h
    · refine ⟨_, if_pos hzero, ?_, frame_fillChain (h.ok c (by simp)) _, hheap.congr rfl⟩
      apply fillChain_holds h
      · rw [htake]
        exact hroom
      · rw [htake]
        omega
  have htc : t ∉ ({c} : Set ChainId) := by
    rintro rfl
    exact ht (by simp)
  have hchain2 : m2.chain t = m.chain t := hf2.chain t htc
  obtain ⟨hok3, hdata3, hf3⟩ := loadChain_ok (data.drop remain) (hok.frame hf2 htc)
    (by rw [hchain2, hmis]) (by rw [hchain2, length_drop]; omega)
  have h3 := h2.frame hf3 (notMem_empty b) (notMem_singleton ht)
  have hoff3 : ((loadChain m2 t (data.drop remain)).chain t).off = data.length - remain := by
    rw [← length_data, hdata3, length_drop]
  have hnext3 : (loadChain m2 t (data.drop remain)).cell (.next t) = none :=
    (hf2.next t htc).trans hnext
  have hheap3 : HeapOk (loadChain m2 t (data.drop remain)) := hheap2.congr rfl
  obtain ⟨l0, -, hres⟩ := evbufferChainInsert_cons (C := C) hheap3 h3
    (by simp) hok3 ht hnext3 (by rw [hoff3]; omega)
    (by rw [hoff3, length_append, htake]; omega) hCl hCt
  rw [hdata3, append_assoc, take_append_drop] at hres
  refine ⟨l0 ++ [t], ?_⟩
  rw [addRest, hm2]
  apply (hres.modifyBuf (counting_add _)).after
  have hcC : ({c} : Set ChainId) ⊆ C := by simpa using hc
  have htC : ({t} : Set ChainId) ⊆ C := by simpa using hCt
  exact (hf2.mono subset_rfl hcC).trans (hf3.mono (empty_subset _) htC)

lemma addNewChain_result (hoom : (addNewChain m b c remain data).2.oom = false) :
    (addNewChain m b c remain data).1 = 0 ∧
      ∃ l', Result (own m (l ++ [c])) m (addNewChain m b c remain data).2 b l' (bs ++ data) := by
  have hle := le_max_right (if (m.chain c).bufferLen ≤ evbufferChainMaxAutoSize / 2 then
    2 * (m.chain c).bufferLen else (m.chain c).bufferLen) data.length
  simp only [addNewChain] at hoom ⊢
  generalize max (if (m.chain c).bufferLen ≤ evbufferChainMaxAutoSize / 2 then
    2 * (m.chain c).bufferLen else (m.chain c).bufferLen) data.length = size at hoom hle ⊢
  obtain ⟨m1, hnew, hm1⟩ | ⟨t, m1, hnew, hspec⟩ := evbufferChainNew_cases hheap size
  · simp [hnew, hm1] at hoom
  · have hmem := notMem_singleton fun ht => hspec.dead (h.live t ht)
    have hc := hspec.frame.chain c (hmem c (by simp))
    have hown : ∀ d ∈ l ++ [c], d ∈ own m (l ++ [c]) := fun d hd => .inl hd
    obtain ⟨l', hres⟩ := addRest_result hspec.heap (hspec.holds h) (by rw [hc]; exact hroom) hremain hlen
      hspec.ok hspec.misalign (hle.trans hspec.room) hspec.next (fun ht => hmem t ht rfl) hown (.inr hspec.dead)
    rw [hnew]
    exact ⟨rfl, l', hres.invokeCallbacks.after hspec.frame_own⟩

end

lemma Holds.modify {l1 l2 : List ChainId} (h : Holds m b (l1 ++ c :: l2) bs)
    (hf : Frame ∅ {c} m m') (hnext : m'.cell (.next c) = m.cell (.next c)) (hok : ChainOk m' c)
    (hoff : (m'.chain c).off = (m.chain c).off) (hdata : m'.data c = m.data c) :
    Holds m' b (l1 ++ c :: l2) bs := by
  have hbuf := hf.buf b (notMem_empty b)
  have hchains := h.toChains.modify hf hnext hok
  have hbs : l1.flatMap m.data ++ (m'.data c ++ l2.flatMap m.data) = bs := by
    rw [hdata, ← h.data]
    simp
  rw [hbs, ← hf.first b (notMem_empty b)] at hchains
  apply h.rebuild hchains _ (tidy_of_le h.tidy hf hoff.ge)
  rw [hbuf, ← h.last, ← h.datap, ← h.total]

lemma evbufferChainAlign_eq (hok : ChainOk m c) : evbufferChainAlign m c =
    (m.memcpy c 0 (m.data c)).modifyChain c fun ch => { ch with misalign := 0 } := by
  have himm : !(m.chain c).flags.immutable := by rw [hok.flags]; rfl
  have hpin : !m.chainPinned c := by rw [hok.not_pinned]; rfl
  simp only [evbufferChainAlign, evutilAssert_of himm, evutilAssert_of hpin, hok.buffer]

lemma evbufferChainAlign_holds (h : Holds m b (l ++ [c]) bs) :
    Holds (evbufferChainAlign m c) b (l ++ [c]) bs ∧ Frame ∅ {c} m (evbufferChainAlign m c) := by
  have hok := h.ok c (by simp)
  have hbound := hok.bound
  have hc : c ∈ ({c} : Set ChainId) := rfl
  rw [evbufferChainAlign_eq hok]
  have hf : Frame ∅ {c} m ((m.memcpy c 0 (m.data c)).modifyChain c fun ch => { ch with misalign := 0 }) :=
    (refl.memcpy hc _ _).modifyChain hc _
  refine ⟨h.modify hf rfl ?_ ?_ ?_, hf⟩
  · apply hok.modify <;> simp
    omega
  · simp
  · have hread := read_write (m.block c) 0 (m.data c)
    rw [length_data] at hread
    simpa [Memory.data, hok.buffer] using hread

lemma misalign_le (hheap : HeapOk m) (hok : ChainOk m c) : (m.chain c).misalign ≤ evbufferChainMax := by
  have hbound := hok.bound
  have hsize := hheap.bufferLen_le hok
  unfold evbufferChainMax
  omega

lemma addToChain_result (hheap : HeapOk m) (h : Holds m b (l ++ [c]) bs)
    (hlen : bs.length + data.length ≤ evSizeMax) (hoom : (addToChain m b c data).2.oom = false) :
    (addToChain m b c data).1 = 0 ∧
      ∃ l', Result (own m (l ++ [c])) m (addToChain m b c data).2 b l' (bs ++ data) := by
  have hok := h.ok c (by simp)
  have hbound := hok.bound
  have hown : ({c} : Set ChainId) ⊆ own m (l ++ [c]) := singleton_subset_iff.2 (.inl (by simp))
  have hwithin : ∀ d ∈ l ++ [c], d ∈ own m (l ++ [c]) := fun d hd => .inl hd
  have himm : (m.chain c).flags.immutable = false := by rw [hok.flags]
  simp only [addToChain, himm, evutilAssert_of (misalign_le hheap hok), Bool.not_false, if_true, hok.not_pinned]
    at hoom ⊢
  split_ifs at hoom ⊢ with hfit halign
  · refine ⟨rfl, l ++ [c], Result.invokeCallbacks ⟨?_, hwithin, ?_, hheap.congr rfl⟩⟩
    · exact fillChain_holds h (by omega) hlen
    · exact (frame_fillChain hok data).mono subset_rfl hown
  · obtain ⟨hholds, hframe⟩ := evbufferChainAlign_holds h
    have hrealign : data.length ≤ (m.chain c).bufferLen - (m.chain c).off := by
      have hshould := halign.2
      simp only [evbufferChainShouldRealign, Bool.and_eq_true, decide_eq_true_eq] at hshould
      exact hshould.1.1
    have hheap' : HeapOk (evbufferChainAlign m c) := by
      rw [evbufferChainAlign_eq hok]
      exact hheap.congr rfl
    refine ⟨rfl, l ++ [c], Result.invokeCallbacks ⟨?_, hwithin, ?_, hheap'.congr rfl⟩⟩
    · apply fillChain_holds hholds ?_ hlen
      rw [evbufferChainAlign_eq hok]
      simp
      omega
    · exact (hframe.mono (empty_subset _) hown).trans
        ((frame_fillChain (hholds.ok c (by simp)) data).mono subset_rfl hown)
  · exact addNewChain_result hheap h (by omega) (by omega) hlen hoom

lemma Result.mono {C' : Set ChainId} (h : Result C m m' b l bs) (hC : C ⊆ C') : Result C' m m' b l bs :=
  ⟨h.holds, fun c hc => hC (h.within c hc), h.frame.mono subset_rfl hC, h.heap⟩

lemma insertFirst_result (hnew : NewChain m m' t size) (h : Holds m b [] bs) :
    Result (own m []) m (evbufferChainInsert m' b t) b [t] bs ∧
      own (evbufferChainInsert m' b t) [t] ⊆ own m [] := by
  have ht : t ∈ own m [] := .inr hnew.dead
  have hres := evbufferChainInsert_nil (C := own m []) hnew.heap (hnew.holds h) hnew.ok hnew.next
    (by rw [hnew.off]; exact Nat.zero_le _) ht
  rw [data_eq_nil hnew.off, append_nil] at hres
  have hframe : Frame {b} (own m []) m m' := hnew.frame_own
  refine ⟨hres.after hframe, ?_⟩
  rintro d (hd | hd)
  · rw [mem_singleton.1 hd]
    exact ht
  · by_contra hcon
    apply hd
    have hlive : d ∈ m.live := by simpa [own] using hcon
    exact ((hframe.trans hres.frame).live d hcon).2 hlive

lemma evbufferAdd_result (hheap : HeapOk m) (h : Holds m b l bs)
    (hoom : (evbufferAdd m b data).2.oom = false) :
    if evSizeMax < bs.length + data.length then evbufferAdd m b data = (-1, m)
    else (evbufferAdd m b data).1 = 0 ∧ ∃ l', Result (own m l) m (evbufferAdd m b data).2 b l' (bs ++ data) := by
  have hle := (h.length_le hheap).trans evSsizeMax_le
  split_ifs with hbig
  · simp only [evbufferAdd, h.freezeEnd, h.total]
    rw [if_neg (by simp), if_pos (by omega)]
  · simp only [evbufferAdd, h.freezeEnd, h.total, h.lastWithData, h.last, Option.or_self] at hoom ⊢
    rw [if_neg (by simp), if_neg (by omega)] at hoom ⊢
    rcases l.eq_nil_or_concat with rfl | ⟨l', c, rfl⟩
    · simp only [getLast?_nil] at hoom ⊢
      obtain ⟨m1, hnew, hm1⟩ | ⟨t, m1, hnew, hspec⟩ := evbufferChainNew_cases hheap data.length
      · simp [hnew, hm1] at hoom
      · rw [hnew] at hoom ⊢
        obtain ⟨hres, hown⟩ := insertFirst_result hspec h
        obtain ⟨hzero, l', hadd⟩ := addToChain_result (l := []) hres.heap hres.holds (by omega) hoom
        exact ⟨hzero, l', (hadd.mono hown).after hres.frame⟩
    · rw [concat_eq_append] at *
      simp only [getLast?_concat] at hoom ⊢
      exact addToChain_result hheap h (by omega) hoom

end Add

section Prepend

variable {C : Set ChainId} {m : Memory} {b : BufId} {c t : ChainId} {l : List ChainId}
  {bs data : Bytes}

lemma frame_fillChainFront (hok : ChainOk m c) (data : Bytes) : Frame {b} {c} m (fillChainFront m b c data) := by
  have hc : c ∈ ({c} : Set ChainId) := rfl
  have hb : b ∈ ({b} : Set BufId) := rfl
  unfold fillChainFront
  rw [hok.buffer]
  exact ((refl.memcpy hc _ _).modifyChain hc _).modifyBuf hb _

lemma data_fillChainFront (hok : ChainOk m c) (hroom : data.length ≤ (m.chain c).misalign) :
    (fillChainFront m b c data).data c = data ++ m.data c := by
  have hread := read_write_prepend (m.block c) ((m.chain c).misalign - data.length) (m.chain c).off data
  rw [Nat.sub_add_cancel hroom, Nat.add_comm data.length] at hread
  simpa [fillChainFront, Memory.data, hok.buffer] using hread

lemma fillChainFront_holds (h : Holds m b (c :: l) bs)
    (hroom : data.length ≤ (m.chain c).misalign) (hlen : bs.length + data.length ≤ evSizeMax) :
    Holds (fillChainFront m b c data) b (c :: l) (data ++ bs) := by
  have hok := h.ok c (by simp)
  have hbound := hok.bound
  have hf := frame_fillChainFront (b := b) hok data
  have hlist : Chains m (m.cell (.first b)) ([] ++ c :: l) bs := h.toChains
  have hchains := hlist.modify hf rfl (by
    apply hok.modify <;> simp [fillChainFront]
    omega)
  have hbs : [].flatMap m.data ++ ((fillChainFront m b c data).data c ++ l.flatMap m.data) = data ++ bs := by
    rw [data_fillChainFront hok hroom, ← h.data]
    simp
  rw [hbs] at hchains
  apply h.rebuild hchains _ (tidy_of_le h.tidy hf (by simp [fillChainFront]))
  simp [fillChainFront, h.last, h.datap, h.total, addSize_of_le hlen, Nat.add_comm]

lemma prependRest_result (hheap : HeapOk m) (h : Holds m b (c :: l) bs)
    (hfull : ∀ d ∈ c :: l, (m.chain d).off ≠ 0) (hdata : data ≠ [])
    (hlen : bs.length + data.length ≤ evSizeMax) (hok : ChainOk m t)
    (hfit : data.length ≤ (m.chain t).bufferLen) (ht : t ∉ c :: l) (hCl : ∀ d ∈ c :: l, d ∈ C)
    (hCt : t ∈ C) : Result C m (prependRest m b c t data) b (t :: c :: l) (data ++ bs) := by
  have htt : t ∈ ({t} : Set ChainId) := rfl
  have hbb : b ∈ ({b} : Set BufId) := rfl
  let m' : Memory := ((((((m.setCell (.first b) (some t)).modifyBuf b fun s =>
    { s with lastWithDatap := if s.lastWithDatap = .first b then .next t else s.lastWithDatap }
    ).setCell (.next t) (some c)).modifyChain t fun ch =>
    { ch with off := data.length, misalign := ch.bufferLen - data.length }).memcpy t
      ((m.chain t).bufferLen - data.length) data).modifyBuf b fun s =>
    { s with
      totalLen := addSize s.totalLen data.length
      nAddForCb := addSize s.nAddForCb data.length })
  have hrest : prependRest m b c t data = m' := by
    simp [m', prependRest, Memory.evutilAssert, hfit, hok.buffer]
  have hf : Frame {b} {t} m m' :=
    (((((refl.setFirst hbb _).modifyBuf hbb _).setNext htt _).modifyChain htt _).memcpy htt _ _).modifyBuf hbb _
  have hout := notMem_singleton ht
  have hok' : ChainOk m' t := by
    apply hok.modify <;> simp [m', Nat.sub_add_cancel hfit]
  have hdata' : m'.data t = data := by
    simp [m', Memory.data, hok.buffer, read_write]
  have hfirst : m.cell (.first b) = some c := h.walk.1
  have hchains := (h.toChains.frame hf hout).cons hok' ht (by simp [m', hfirst])
  rw [hdata'] at hchains
  rw [hrest]
  refine ⟨h.rebuild ?_ ?_ ?_, ?_, hf.mono subset_rfl (by simpa using hCt), hheap.congr rfl⟩
  · simpa [m'] using hchains
  · simp [m', h.last, h.datap, after_moved, h.total, addSize_of_le hlen, Nat.add_comm]
  · intro d hd hzero
    rcases mem_cons.1 hd with rfl | hd
    · rw [← length_data, hdata'] at hzero
      exact absurd (length_eq_zero_iff.1 hzero) hdata
    · rw [hf.chain d (hout d hd)] at hzero
      exact absurd hzero (hfull d hd)
  · exact forall_mem_cons.2 ⟨hCt, hCl⟩

lemma prependNewChain_result (hheap : HeapOk m) (h : Holds m b (c :: l) bs)
    (hfull : ∀ d ∈ c :: l, (m.chain d).off ≠ 0) (hdata : data ≠ [])
    (hlen : bs.length + data.length ≤ evSizeMax)
    (hoom : (prependNewChain m b c data).2.oom = false) :
    (prependNewChain m b c data).1 = 0 ∧
      ∃ l', Result (own m (c :: l)) m (prependNewChain m b c data).2 b l' (data ++ bs) := by
  unfold prependNewChain at hoom ⊢
  obtain ⟨m1, hnew, hm1⟩ | ⟨t, m1, hnew, hspec⟩ := evbufferChainNew_cases hheap data.length
  · simp [hnew, hm1] at hoom
  · have hmem := notMem_singleton fun ht => hspec.dead (h.live t ht)
    have hfull1 : ∀ d ∈ c :: l, (m1.chain d).off ≠ 0 := by
      intro d hd
      rw [hspec.frame.chain d (hmem d hd)]
      exact hfull d hd
    have hres := prependRest_result (C := own m (c :: l)) hspec.heap (hspec.holds h) hfull1 hdata
      hlen hspec.ok hspec.room (fun ht => hmem t ht rfl) (fun d hd => .inl hd) (.inr hspec.dead)
    rw [hnew]
    exact ⟨rfl, t :: c :: l, hres.invokeCallbacks.after hspec.frame_own⟩

lemma prependReady (hheap : HeapOk m) (h : Holds m b (c :: l) bs) :
    ∃ m', (if (m.chain c).off = 0 then
        m.modifyChain c fun ch => { ch with misalign := ch.bufferLen } else m) = m' ∧
      Holds m' b (c :: l) bs ∧ HeapOk m' ∧ Frame ∅ {c} m m' ∧ m'.live = m.live ∧
      ((m'.chain c).misalign = 0 → (m'.chain c).off ≠ 0) := by
  have hok := h.ok c (by simp)
  by_cases hzero : (m.chain c).off = 0
  · have hf : Frame ∅ {c} m (m.modifyChain c fun ch => { ch with misalign := ch.bufferLen }) :=
      refl.modifyChain (mem_singleton c) _
    refine ⟨_, if_pos hzero, ?_, hheap.congr rfl, hf, rfl, ?_⟩
    · have hlist : Holds m b ([] ++ c :: l) bs := h
      apply hlist.modify hf rfl
      · apply hok.modify <;> simp [hzero]
      · simp
      · simp [Memory.data, hzero]
    · have hpos := hok.pos
      intro hmis
      simp at hmis
      omega
  · exact ⟨m, if_neg hzero, h, hheap, refl, rfl, fun _ => hzero⟩

lemma prependToChain_result (hheap : HeapOk m) (h : Holds m b (c :: l) bs)
    (hlen : bs.length + data.length ≤ evSizeMax)
    (hoom : (prependToChain m b c data).2.oom = false) :
    (prependToChain m b c data).1 = 0 ∧
      ∃ l', Result (own m (c :: l)) m (prependToChain m b c data).2 b l' (data ++ bs) := by
  have hok := h.ok c (by simp)
  have himm : (m.chain c).flags.immutable = false := by rw [hok.flags]
  obtain ⟨m1, hm1, h1, hheap1, hf1, hlive1, hfull1⟩ := prependReady hheap h
  have hown1 : own m1 (c :: l) = own m (c :: l) := by rw [own, own, hlive1]
  have hc : ({c} : Set ChainId) ⊆ own m (c :: l) := singleton_subset_iff.2 (.inl (by simp))
  have hbase : Frame {b} (own m (c :: l)) m m1 := hf1.mono (empty_subset _) hc
  have hok1 := h1.ok c (by simp)
  simp only [prependToChain, himm, evutilAssert_of (misalign_le hheap hok), Bool.not_false, if_true, hm1] at hoom ⊢
  -- The data fit before the chain's own, or only a part does, or none of it.
  split_ifs at hoom ⊢ with hfit hpart
  · refine ⟨rfl, c :: l, Result.invokeCallbacks ⟨?_, fun d hd => .inl hd, ?_, hheap1.congr rfl⟩⟩
    · exact fillChainFront_holds h1 hfit hlen
    · exact hbase.trans ((frame_fillChainFront hok1 data).mono subset_rfl hc)
  · generalize hcut : data.length - (m1.chain c).misalign = cut at hoom ⊢
    have hdrop : (data.drop cut).length = (m1.chain c).misalign := by
      rw [length_drop]
      omega
    have h2 : Holds (fillChainFront m1 b c (data.drop cut)) b (c :: l) (data.drop cut ++ bs) :=
      fillChainFront_holds h1 hdrop.le (by omega)
    have hf2 := frame_fillChainFront (b := b) hok1 (data.drop cut)
    have hoff : ((fillChainFront m1 b c (data.drop cut)).chain c).off ≠ 0 := by
      simp only [fillChainFront, Memory.modifyBuf, Memory.modifyChain, update_self, hdrop]
      omega
    have hown2 : own (fillChainFront m1 b c (data.drop cut)) (c :: l) = own m (c :: l) := hown1
    have hheap2 : HeapOk (fillChainFront m1 b c (data.drop cut)) := hheap1.congr rfl
    obtain ⟨hcode, l', hres⟩ := prependNewChain_result hheap2 h2 (h2.full (mem_cons_self) hoff) (by
        rw [← length_pos_iff, length_take]
        omega) (by
        rw [length_append, length_take, hdrop]
        omega) hoom
    rw [← append_assoc, take_append_drop, hown2] at hres
    exact ⟨hcode, l', hres.after (hbase.trans (hf2.mono subset_rfl hc))⟩
  · have hmis1 : (m1.chain c).misalign = 0 := by omega
    obtain ⟨hcode, l', hres⟩ := prependNewChain_result hheap1 h1 (h1.full mem_cons_self (hfull1 hmis1)) (by
        rw [← length_pos_iff]
        omega) hlen hoom
    rw [hown1] at hres
    exact ⟨hcode, l', hres.after hbase⟩

lemma evbufferPrepend_result (hheap : HeapOk m) (h : Holds m b l bs)
    (hoom : (evbufferPrepend m b data).2.oom = false) :
    if evSizeMax < bs.length + data.length then evbufferPrepend m b data = (-1, m)
    else (evbufferPrepend m b data).1 = 0 ∧
      ∃ l', Result (own m l) m (evbufferPrepend m b data).2 b l' (data ++ bs) := by
  have hle := (h.length_le hheap).trans evSsizeMax_le
  have hfirst := h.walk.head
  split_ifs with hbig
  · simp only [evbufferPrepend, h.freezeStart, h.total]
    rw [if_neg (by simp), if_pos (by omega)]
  · simp only [evbufferPrepend, h.freezeStart, h.total, hfirst] at hoom ⊢
    rw [if_neg (by simp), if_neg (by omega)] at hoom ⊢
    cases l with
    | nil =>
      simp only [head?_nil] at hoom ⊢
      obtain ⟨m1, hnew, hm1⟩ | ⟨t, m1, hnew, hspec⟩ := evbufferChainNew_cases hheap data.length
      · simp [hnew, hm1] at hoom
      · rw [hnew] at hoom ⊢
        obtain ⟨hres, hown⟩ := insertFirst_result hspec h
        obtain ⟨hzero, l', hadd⟩ := prependToChain_result hres.heap hres.holds (by omega) hoom
        exact ⟨hzero, l', (hadd.mono hown).after hres.frame⟩
    | cons c l =>
      simp only [head?_cons] at hoom ⊢
      exact prependToChain_result hheap h (by omega) hoom

end Prepend

section Drain

variable {m : Memory} {b : BufId} {c : ChainId} {p : Option ChainId} {l l1 l2 : List ChainId}
  {bs : Bytes} {k n r : Nat}

lemma after_drained (b : BufId) (h : c ∉ l) :
    (if after next (.next c) l = .next c then .first b else after next (.next c) l) = after next (.first b) l := by
  by_cases hl : l = []
  · subst hl
    simp
  · rw [after_congr hl (next c) (.first b), after_eq_of_ne_nil hl, if_neg]
    intro heq
    rw [← next.inj heq] at h
    exact h (getLast_mem hl)

lemma datap_cons (h : Chains m (some c) (c :: l) bs) (hl : l ≠ [])
    (hdatap : (m.buf b).lastWithDatap = after next (.first b) (c :: l).dropLast) :
    (m.buf b).lastWithDatap = after next (.next c) l.dropLast ∧ m.lastWithData b ≠ some c := by
  have hc : c ∉ l := (nodup_cons.1 h.nodup).1
  have hdrop : (c :: l).dropLast = c :: l.dropLast := by
    cases l with
    | nil => exact absurd rfl hl
    | cons d l => rfl
  rw [hdrop, after_cons] at hdatap
  refine ⟨hdatap, ?_⟩
  have hget := Walk.getLast (s := next c) h.walk.2
  rw [Memory.lastWithData, hdatap, hget, getLast?_eq_getLast_of_ne_nil hl]
  intro heq
  rw [← Option.some.inj heq] at hc
  exact hc (getLast_mem hl)

/-- The update of `last_with_datap` when the loops of `evbuffer_drain` and of
`evbuffer_remove_buffer` leave a chain behind. -/
lemma modifyBuf_passed (hc : c ∉ l)
    (hdatap : (m.buf b).lastWithDatap = after next (.next c) l.dropLast) :
    (if (m.buf b).lastWithDatap = .next c then
      m.modifyBuf b fun s => { s with lastWithDatap := .first b } else m) =
      m.modifyBuf b fun s =>
        { s with lastWithDatap := after next (.first b) l.dropLast } := by
  rw [← after_drained b fun hmem => hc (dropLast_subset l hmem), ← hdatap]
  split
  · rfl
  · simp

lemma drainLoop_turn (h : Chains m (some c) (c :: l) bs) (hl : l ≠ [])
    (hdatap : (m.buf b).lastWithDatap = after next (.first b) (c :: l).dropLast)
    (hoff : (m.chain c).off ≤ n) : drainLoop b (k + 1) m (some c) n =
      drainLoop b k (mmFree (m.modifyBuf b fun s =>
        { s with lastWithDatap := after next (.first b) l.dropLast }) c)
        (m.cell (.next c)) (n - (m.chain c).off) := by
  have hok := h.ok c (by simp)
  have hc : c ∉ l := (nodup_cons.1 h.nodup).1
  obtain ⟨hdatap, hlast⟩ := datap_cons h hl hdatap
  have hbuf := modifyBuf_passed hc hdatap
  have hpin : (m.modifyBuf b fun s =>
      { s with lastWithDatap := after next (.first b) l.dropLast }).chainPinnedR c =
      false := by
    simp [Memory.chainPinnedR, hok.flags]
  rw [drainLoop, if_pos hoff]
  simp only [if_neg hlast, hbuf, hpin]
  rw [if_neg (by simp), evbufferChainFree_eq (hok.modifyBuf _)]

lemma drainLoop_eq (h : Chains m p (l1 ++ c :: l2) bs) (hk : l1.length < k)
    (hdatap : (m.buf b).lastWithDatap = after next (.first b) (l1 ++ c :: l2).dropLast)
    (hr : r < (m.chain c).off) : drainLoop b k m p ((l1.flatMap m.data).length + r) =
      (l1.foldl mmFree (m.modifyBuf b fun s =>
        { s with lastWithDatap := after next (.first b) (c :: l2).dropLast }), some c, r) := by
  induction l1 generalizing m p bs k with
  | nil =>
    obtain ⟨k, rfl⟩ : ∃ k', k = k' + 1 := ⟨k - 1, by simp at hk; omega⟩
    obtain ⟨rfl, -⟩ := h.walk
    rw [nil_append] at hdatap
    simp [drainLoop, Nat.not_le.2 hr, ← hdatap]
  | cons d l1 ih =>
    obtain ⟨k, rfl⟩ : ∃ k', k = k' + 1 := ⟨k - 1, by omega⟩
    obtain ⟨rfl, -⟩ := h.walk
    have hd : d ∉ l1 ++ c :: l2 := (nodup_cons.1 h.nodup).1
    rw [flatMap_cons, length_append, length_data, foldl_cons, Nat.add_assoc,
      drainLoop_turn h (by simp) hdatap (Nat.le_add_right _ _), Nat.add_sub_cancel_left]
    generalize hm1 : mmFree (m.modifyBuf b fun s =>
      { s with lastWithDatap := after next (.first b) (l1 ++ c :: l2).dropLast }) d = m1
    have hframe : Frame {b} {d} m m1 :=
      hm1 ▸ (refl.modifyBuf (mem_singleton b) _).free (mem_singleton d)
    have hout := notMem_singleton hd
    have hloop := ih (h.tail.frame hframe hout) (by simpa using hk) (by simp [← hm1, mmFree])
      (by rwa [hframe.chain c (hout c (by simp))])
    rw [h.flatMap_data hframe fun e he => ⟨by simp [he], hout e (by simp [he])⟩] at hloop
    rw [hloop, ← hm1]
    simp [mmFree]

lemma evbufferFreeAllChains_eq (h : Chains m p l bs) : evbufferFreeAllChains m p = l.foldl mmFree m :=
  freeAllChains_eq h (length_lt_fuel h.nodup h.live).le

lemma zeroChain_holds (m : Memory) (b : BufId) (hstart : (m.buf b).freezeStart = false)
    (hend : (m.buf b).freezeEnd = false) : Holds (zeroChain m b) b [] [] := by
  refine ⟨?_, ?_, ?_, ?_, by simp, ?_, ?_⟩
  · simpa [zeroChain] using Chains.nil _
  · simp [zeroChain]
  · simp [zeroChain]
  · simp [zeroChain]
  · simpa [zeroChain] using hstart
  · simpa [zeroChain] using hend

lemma drainPart_result (hheap : HeapOk m) (h : Holds m b l bs) (hn : n < bs.length) :
    ∃ l', Result (own m l) m (drainPart m b n) b l' (bs.drop n) := by
  rw [← h.data] at hn
  obtain ⟨l1, c, l2, r, rfl, rfl, hr⟩ := exists_split_lt m hn
  generalize hn' : (l1.flatMap m.data).length + r = n
  generalize hm' : l1.foldl mmFree ((m.modifyBuf b fun s =>
      { s with totalLen := s.totalLen - n }).modifyBuf b fun s =>
      { s with lastWithDatap := after next (.first b) (c :: l2).dropLast }) = m'
  have hloop : drainLoop b m.fuel (m.modifyBuf b fun s => { s with totalLen := s.totalLen - n })
      (m.cell (.first b)) n = (m', some c, r) := by
    have hshort := length_lt_fuel h.nodup h.live
    rw [length_append] at hshort
    rw [← hm', ← hn']
    exact drainLoop_eq (h.toChains.modifyBuf _) (by omega) (by simpa using h.datap) hr
  have hf : Frame {b} {d | d ∈ l1} m m' :=
    hm' ▸ ((refl.modifyBuf (mem_singleton b) _).modifyBuf (mem_singleton b) _).freeList fun _ hd => hd
  have hheap' : HeapOk m' := hm' ▸ HeapOk.freeList (hheap.congr rfl)
  have hout : ∀ d ∈ c :: l2, d ∉ {d | d ∈ l1} := by
    intro d hd hd1
    exact (nodup_append.1 h.nodup).2.2 d hd1 d hd rfl
  have hsame : ∀ d ∈ c :: l2, m'.chain d = m.chain d := fun d hd => hf.chain d (hout d hd)
  obtain ⟨q, -, hsplit⟩ := h.toChains.split
  obtain rfl : q = some c := hsplit.walk.1
  have hfirst : Frame {b} ∅ m' (m'.setCell (.first b) (some c)) :=
    refl.setFirst (mem_singleton b) _
  have hr' : r ≤ (m'.chain c).off := by
    rw [hsame c (by simp)]
    exact hr.le
  have hshort := ((hsplit.frame hf hout).frame hfirst fun _ _ => notMem_empty _).drained hr'
  have hdrop : bs.drop n = ((c :: l2).flatMap m.data).drop r := by
    rw [← h.data, ← hn', flatMap_append, drop_length_add_append]
  have hpart : drainPart m b n = (m'.setCell (.first b) (some c)).modifyChain c fun ch => ch.drained r := by
    simp only [drainPart]
    rw [show (m.modifyBuf b fun s => { s with totalLen := s.totalLen - n }).cell (.first b) =
      m.cell (.first b) from rfl, show (m.modifyBuf b fun s =>
        { s with totalLen := s.totalLen - n }).fuel = m.fuel from rfl, hloop]
    simp [Memory.evutilAssert, hr']
  rw [← hdrop] at hshort
  rw [hpart]
  refine ⟨c :: l2, ?_, fun d hd => .inl (mem_append_right _ hd), ?_, hheap'.congr rfl⟩
  · apply h.suffix (by omega)
    · simpa using hshort
    · simp [← hm', h.total]
    · simp only [Memory.modifyChain, Memory.setCell, EvbufferChain.drained, update_self, hsame c (by simp)]
      omega
    · intro d hd
      have hdc : d ≠ c := ne_of_mem_of_not_mem hd (nodup_cons.1 hsplit.nodup).1
      simp [hdc, hsame d (by simp [hd])]
  · have hdropped : Frame {b} (own m (l1 ++ c :: l2)) m m' :=
      hf.mono subset_rfl fun d hd => .inl (mem_append_left _ hd)
    exact (hdropped.setFirst (mem_singleton b) _).modifyChain (.inl (by simp)) _

lemma evbufferDrain_result (hheap : HeapOk m) (h : Holds m b l bs) (len : Nat) :
    (evbufferDrain m b len).1 = 0 ∧ ∃ l', Result (own m l) m (evbufferDrain m b len).2 b l' (bs.drop len) := by
  simp only [evbufferDrain, h.total, h.freezeStart, h.not_pinned]
  by_cases hzero : bs.length = 0
  · have hbs : bs = [] := length_eq_zero_iff.1 hzero
    rw [if_pos hzero]
    refine ⟨rfl, l, ⟨?_, fun c hc => .inl hc, refl, hheap⟩⟩
    simpa [hbs] using h
  · rw [if_neg hzero, if_neg (by simp)]
    refine ⟨rfl, ?_⟩
    by_cases hall : bs.length ≤ len
    · rw [if_pos (by simpa using hall), evbufferFreeAllChains_eq h.toChains, drop_eq_nil_of_le hall]
      refine ⟨[], Result.invokeCallbacks (Result.modifyBuf ?_ (counting_del _))⟩
      refine ⟨zeroChain_holds _ b ?_ ?_, by simp, ?_, ?_⟩
      · simpa using h.freezeStart
      · simpa using h.freezeEnd
      · have hfree : Frame {b} (own m l) m (l.foldl mmFree m) :=
          refl.freeList fun c hc => .inl hc
        exact (hfree.setFirst (mem_singleton b) _).modifyBuf (mem_singleton b) _
      · exact hheap.freeList.congr rfl
    · rw [if_neg (by simpa using hall), Nat.min_eq_left (by omega)]
      obtain ⟨l', hres⟩ := drainPart_result hheap h (n := len) (by omega)
      exact ⟨l', (hres.modifyBuf (counting_del _)).invokeCallbacks⟩

end Drain

section Copyout

variable {m : Memory} {b : BufId} {p : Option ChainId} {l l1 l2 : List ChainId} {bs : Bytes}

lemma copyoutLoop_eq {k r : Nat} (data : Bytes) (h : Chains m p (l1 ++ l2) bs)
    (hk : l1.length < k) (hend : l2 = [] → r = 0) (hstop : ∀ c ∈ l2.head?, r < (m.chain c).off) :
    ∃ q, copyoutLoop k m p ((l1.flatMap m.data).length + r) data =
      (m, data ++ l1.flatMap m.data, q, r) ∧ (r ≠ 0 → q = l2.head?) := by
  induction l1 generalizing p bs k data with
  | nil =>
    obtain ⟨k, rfl⟩ : ∃ k', k = k' + 1 := ⟨k - 1, by simp at hk; omega⟩
    have hhead : p = l2.head? := h.walk.head
    refine ⟨p, ?_, fun _ => hhead⟩
    unfold copyoutLoop
    by_cases hr : r = 0
    · simp [hr]
    · cases l2 with
      | nil => exact absurd (hend rfl) hr
      | cons c l2 => simp [hr, hhead, Nat.not_le.2 (hstop c rfl)]
  | cons c l1 ih =>
    obtain ⟨k, rfl⟩ : ∃ k', k = k' + 1 := ⟨k - 1, by omega⟩
    obtain ⟨rfl, hwalk⟩ := h.walk
    rw [flatMap_cons, length_append, length_data, Nat.add_assoc, copyoutLoop]
    by_cases hzero : (m.chain c).off + ((l1.flatMap m.data).length + r) = 0
    · have hr : r = 0 := by omega
      refine ⟨some c, ?_, fun hne => absurd hr hne⟩
      have hnil : m.data c ++ l1.flatMap m.data = [] := by
        rw [← length_eq_zero_iff, length_append, length_data]
        omega
      rw [if_pos hzero, hzero, hr, hnil, append_nil]
    · have hassert : m.cell (.next c) ≠ none ∨ (l1.flatMap m.data).length + r = 0 := by
        rw [hwalk.head]
        cases l1 with
        | nil =>
          cases l2 with
          | nil => exact .inr (by simp [hend rfl])
          | cons d l2 => exact .inl (by simp)
        | cons d l1 => exact .inl (by simp)
      obtain ⟨q, hloop, hq⟩ := ih (data ++ m.data c) h.tail (by simpa using hk)
      refine ⟨q, ?_, hq⟩
      rw [if_neg hzero]
      simp only [Nat.le_add_right, if_true, Nat.add_sub_cancel_left, evutilAssert_of hassert, hloop, append_assoc]

lemma evbufferCopyout_eq (h : Holds m b l bs) (datlen : Nat) :
    evbufferCopyout m b datlen = ((((min datlen bs.length : Nat) : Int), bs.take datlen), m) := by
  have htake : bs.take datlen = bs.take (min datlen bs.length) := take_eq_take_min
  have hle : min datlen bs.length ≤ bs.length := Nat.min_le_right _ _
  simp only [evbufferCopyout, h.total, h.freezeStart, htake]
  generalize min datlen bs.length = n at hle ⊢
  by_cases hzero : n = 0
  · rw [if_pos hzero, hzero, take_zero]
    rfl
  · rw [if_neg hzero, if_neg (by simp)]
    rw [← h.data] at hle
    obtain ⟨l1, l2, r, rfl, rfl, hend, hstop⟩ := exists_split m hle
    have hshort := length_lt_fuel h.nodup h.live
    rw [length_append] at hshort
    obtain ⟨q, hloop, hq⟩ := copyoutLoop_eq (k := m.fuel) [] h.toChains (by omega) hend hstop
    rw [hloop, ← h.data, flatMap_append, take_length_add_append]
    by_cases hr : r = 0
    · simp [hr]
    · cases l2 with
      | nil => exact absurd (hend rfl) hr
      | cons c l2 =>
        have hlt := hstop c rfl
        have hread : ByteBlock.read (m.block (m.chain c).buffer) (m.chain c).misalign r =
            (m.data c).take r := (take_read _ _ hlt.le).symm
        rw [hq hr, flatMap_cons, take_append_of_le_length (by rw [length_data]; exact hlt.le)]
        simp only [if_neg hr, head?_cons, evutilAssert_of hlt.le, nil_append, hread]

lemma evbufferRemove_result (hheap : HeapOk m) (h : Holds m b l bs) (datlen : Nat) :
    (evbufferRemove m b datlen).1 = (toInt (min datlen bs.length), bs.take datlen) ∧
      ∃ l', Result (own m l) m (evbufferRemove m b datlen).2 b l' (bs.drop datlen) := by
  have hdrop : bs.drop datlen = bs.drop (min datlen bs.length) := by
    rcases Nat.le_total datlen bs.length with hle | hle
    · rw [Nat.min_eq_left hle]
    · rw [Nat.min_eq_right hle, drop_eq_nil_of_le hle, drop_length]
  rw [hdrop]
  simp only [evbufferRemove, evbufferCopyout_eq h]
  by_cases hzero : min datlen bs.length = 0
  · rw [if_neg (by omega), hzero, drop_zero]
    exact ⟨rfl, l, ⟨h, fun c hc => .inl hc, refl, hheap⟩⟩
  · rw [if_pos (by omega)]
    obtain ⟨hcode, hres⟩ := evbufferDrain_result hheap h (min datlen bs.length)
    simp only [Int.toNat_natCast]
    refine ⟨?_, hres⟩
    rw [hcode]
    rfl

end Copyout

/-- The outcome of an operation on two buffers that touches no chains but `C`. -/
structure Result₂ (C : Set ChainId) (m m' : Memory) (b₁ b₂ : BufId) (l1 l2 : List ChainId)
    (bs₁ bs₂ : Bytes) : Prop where
  left : Holds m' b₁ l1 bs₁
  right : Holds m' b₂ l2 bs₂
  disjoint : ∀ c ∈ l1, c ∉ l2
  within : ∀ c ∈ l1 ++ l2, c ∈ C
  frame : Frame {b₁, b₂} C m m'
  heap : HeapOk m'

section Move

variable {C : Set ChainId} {m m' : Memory} {out inb : BufId} {l k : List ChainId}
  {bs cs : Bytes}

lemma Result₂.swap (h : Result₂ C m m' out inb l k bs cs) : Result₂ C m m' inb out k l cs bs := by
  refine ⟨h.right, h.left, fun c hk hl => h.disjoint c hl hk, ?_, ?_, h.heap⟩
  · intro c hc
    exact h.within c (mem_append.2 (mem_append.1 hc).symm)
  · rw [pair_comm]
    exact h.frame

lemma Result₂.modifyBuf {f : Evbuffer → Evbuffer} (h : Result₂ C m m' out inb l k bs cs)
    (hne : out ≠ inb) (hcount : Counting f) :
    Result₂ C m (m'.modifyBuf out f) out inb l k bs cs := by
  have hf : Frame {out} ∅ m' (m'.modifyBuf out f) :=
    refl.modifyBuf (mem_singleton out) f
  refine ⟨h.left.modifyBuf hcount, ?_, h.disjoint, h.within, ?_, h.heap.congr rfl⟩
  · exact h.right.frame hf (by simpa using hne.symm) fun _ _ => notMem_empty _
  · exact h.frame.modifyBuf (mem_insert out _) f

lemma preservePinned_eq (h : Holds m inb l bs) : preservePinned m inb = (some (none, none), m) := by
  simp [preservePinned, h.not_pinned]

lemma moved_result {n : Nat} {D : Set ChainId} (hne : out ≠ inb) (hin : Holds m inb k cs)
    (hout : Holds m' out l bs) (hC : ∀ c ∈ l, c ∈ C) (hf : Frame {out} D m m') (hD : D ⊆ C)
    (hheap : HeapOk m') :
    Result₂ C m (evbufferInvokeCallbacks (evbufferInvokeCallbacks
      (((restorePinned m' inb none none).modifyBuf inb fun s =>
        { s with nDelForCb := addSize s.nDelForCb n }).modifyBuf out fun s =>
        { s with nAddForCb := addSize s.nAddForCb n }) inb) out) out inb l [] bs [] := by
  have hframe : Frame {inb} ∅ m' (zeroChain m' inb) :=
    (refl.setFirst (mem_singleton inb) _).modifyBuf (mem_singleton inb) _
  have hbuf := hf.buf inb (by simpa using hne.symm)
  have hzero : Result₂ C m (restorePinned m' inb none none) out inb l [] bs [] := by
    refine ⟨?_, zeroChain_holds m' inb ?_ ?_, by simp, by simpa using hC, ?_, hheap.congr rfl⟩
    · exact hout.frame hframe (by simpa using hne) fun _ _ => notMem_empty _
    · rw [hbuf, hin.freezeStart]
    · rw [hbuf, hin.freezeEnd]
    · exact (hf.mono (by simp) hD).trans (hframe.mono (by simp) (empty_subset _))
  have hdel := (hzero.swap.modifyBuf hne.symm (counting_del n)).swap
  have hadd := hdel.modifyBuf hne (counting_add n)
  exact ((hadd.swap.modifyBuf hne.symm counting_clear).swap).modifyBuf hne counting_clear

variable (hheap : HeapOk m) (hout : Holds m out l bs) (hin : Holds m inb k cs) (hdisj : ∀ c ∈ l, c ∉ k)

include hheap hout hin hdisj

lemma copyChain_holds :
    ∃ m', copyChain (evbufferFreeAllChains m (m.cell (.first out))) out inb = m' ∧
      Holds m' out k cs ∧ Frame {out} {c | c ∈ l} m m' ∧ HeapOk m' := by
  have hfree : Frame {out} {c | c ∈ l} m (l.foldl mmFree m) := refl.freeList fun _ hc => hc
  let m' : Memory := ((l.foldl mmFree m).setCell (.first out) (m.cell (.first inb))).modifyBuf out
    fun d => { d with
      lastWithDatap := after next (.first out) k.dropLast
      last := k.getLast?
      totalLen := cs.length }
  have hf : Frame {out} {c | c ∈ l} m m' :=
    (hfree.setFirst (mem_singleton out) _).modifyBuf (mem_singleton out) _
  have hchains : Chains m' (m.cell (.first inb)) k cs :=
    hin.toChains.frame hf fun c hc hl => hdisj c hl hc
  have hfirst : m'.cell (.first out) = m.cell (.first inb) := by simp [m']
  refine ⟨m', ?_, hout.rebuild ?_ ?_ ?_, hf, hheap.freeList.congr rfl⟩
  · simp only [m', copyChain, evbufferFreeAllChains_eq hout.toChains, foldl_mmFree_buf,
      foldl_mmFree_first, hin.datap, after_moved, hin.last, hin.total]
  · rw [hfirst]
    exact hchains
  · simp [m']
  · intro c hc hzero
    rw [hf.chain c fun hl => hdisj c hl hc] at hzero
    exact hin.tidy c hc hzero

lemma appendChain_holds (hne : out ≠ inb) (hbs : bs ≠ []) (hcs : cs ≠ []) :
    Holds (appendChain m out inb) out (l ++ k) (bs ++ cs) ∧
      Frame {out} {c | c ∈ l} m (appendChain m out inb) ∧ HeapOk (appendChain m out inb) := by
  obtain ⟨l0, htrim⟩ := evbufferFreeTrailingEmptyChains_trimmed hheap hout
  obtain rfl := htrim.same hbs
  have hk : k ≠ [] := by
    rintro rfl
    exact hcs hin.data.symm
  have hlen := (hout.toChains.length_add_le hheap hin.toChains hdisj).trans evSsizeMax_le
  have hfullk := hin.full_of_ne_nil hcs
  generalize hr : evbufferFreeTrailingEmptyChains m out = r at htrim
  obtain ⟨m1, slot⟩ := r
  obtain ⟨hslot, hchains, hfull, -, -, -, hbuf, hframe, hheap1⟩ := htrim
  simp only at hslot hchains hfull hbuf hframe hheap1
  have hfirst : m1.cell (.first inb) = m.cell (.first inb) :=
    hframe.first inb (by simpa using hne.symm)
  have happend : appendChain m out inb =
      (m1.setCell slot (m.cell (.first inb))).modifyBuf out fun d =>
        { d with
          lastWithDatap := after next slot k.dropLast
          last := k.getLast?
          totalLen := addSize d.totalLen cs.length } := by
    simp only [appendChain, hr, hfirst, Memory.setCell, hbuf, hin.datap, after_moved, hin.last, hin.total]
  subst hslot
  have hin1 := hin.toChains.frame hframe fun c hc hl => hdisj c hl hc
  have hlink := (hchains.link hin1 hdisj).modifyBuf (b := out) fun d =>
    { d with
      lastWithDatap := after next (after next (.first out) l0) k.dropLast
      last := k.getLast?
      totalLen := addSize d.totalLen cs.length }
  rw [happend]
  refine ⟨hout.rebuild hlink ?_ ?_, ?_, hheap1.congr rfl⟩
  · rw [getLast?_append, getLast?_eq_getLast_of_ne_nil hk, dropLast_append_of_ne_nil hk]
    simp [hbuf, hout.total, addSize_of_le hlen]
  · intro c hc hzero
    rcases mem_append.1 hc with hc | hc
    · exact absurd hzero (hfull c hc)
    · have hsame : m1.chain c = m.chain c := hframe.chain c fun hl => hdisj c hl hc
      exact absurd (hsame ▸ hzero) (hfullk c hc)
  · exact (hframe.setAfter (mem_singleton out) (fun c hc => hc) _).modifyBuf (mem_singleton out) _

lemma prependChain_holds (hbs : bs ≠ []) (hcs : cs ≠ []) :
    Holds (prependChain m out inb) out (k ++ l) (cs ++ bs) ∧
      Frame {out} {c | c ∈ k} m (prependChain m out inb) ∧ HeapOk (prependChain m out inb) := by
  have hl : l ≠ [] := by
    rintro rfl
    exact hbs hout.data.symm
  have hk : k ≠ [] := by
    rintro rfl
    exact hcs hin.data.symm
  have hlen := (hout.toChains.length_add_le hheap hin.toChains hdisj).trans evSsizeMax_le
  have hfull := hout.full_of_ne_nil hbs
  have hfullk := hin.full_of_ne_nil hcs
  have hlast : (m.buf inb).last = some (k.getLast hk) :=
    hin.last.trans (getLast?_eq_getLast_of_ne_nil hk)
  have hafter : ∀ s, after next s k = .next (k.getLast hk) :=
    fun _ => after_eq_of_ne_nil hk
  have htk := getLast_mem hk
  generalize k.getLast hk = t at hlast hafter htk
  have hlink := hin.toChains.link hout.toChains fun c hc hcl => hdisj c hcl hc
  rw [hafter] at hlink
  have hfirst : (m.setCell (.next t) (m.cell (.first out))).cell (.first inb) = m.cell (.first inb) := by simp
  rw [hfirst] at hlink
  let m2 : Memory := (m.setCell (.next t) (m.cell (.first out))).setCell (.first out) (m.cell (.first inb))
  -- The pointer to the last chain of `outbuf` is followed after its first cell was overwritten.
  have hdata : m2.cell (after next (.first out) l.dropLast) ≠ none := by
    by_cases hdrop : l.dropLast = []
    · rw [hdrop, after_nil]
      simpa [m2, hin.walk.head] using hk
    · have hget := hout.walk.getLast
      rw [after_eq_of_ne_nil hdrop] at hget ⊢
      have hne_t : l.dropLast.getLast hdrop ≠ t := by
        rintro rfl
        exact hdisj _ (dropLast_subset l (getLast_mem hdrop)) htk
      simp only [m2, Memory.setCell, ne_eq, reduceCtorEq, not_false_eq_true, update_of_ne, next.injEq, hne_t]
      rw [hget]
      simpa using hl
  let m3 : Memory := m2.modifyBuf out fun d =>
    { d with
      lastWithDatap := after next (.next t) l.dropLast
      totalLen := addSize d.totalLen cs.length }
  have hprepend : prependChain m out inb = m3 := by
    have hbuf : m2.buf = m.buf := rfl
    have hcell : (m.setCell (.next t) (m.cell (.first out))).setCell (.first out)
        ((m.setCell (.next t) (m.cell (.first out))).cell (.first inb)) = m2 := by
      rw [hfirst]
    simp only [prependChain, hlast, hcell]
    simp [m3, Memory.lastWithData, hbuf, hdata, hout.datap, after_moved, hin.total]
  have hf : Frame {out} {c | c ∈ k} m m3 :=
    ((refl.setNext htk _).setFirst (mem_singleton out) _).modifyBuf (mem_singleton out) _
  have hframe : Frame {out} ∅ (m.setCell (.next t) (m.cell (.first out))) m3 :=
    (refl.setFirst (mem_singleton out) _).modifyBuf (mem_singleton out) _
  have hchains := hlink.frame hframe fun _ _ => notMem_empty _
  have hstart : m3.cell (.first out) = m.cell (.first inb) := by simp [m3, m2]
  rw [hprepend]
  refine ⟨hout.rebuild ?_ ?_ ?_, hf, hheap.congr rfl⟩
  · rw [hstart]
    exact hchains
  · rw [getLast?_append_of_ne_nil _ hl, ← hout.last, dropLast_append_of_ne_nil hl, after_append, hafter]
    simp [m3, m2, hout.total, addSize_of_le hlen, Nat.add_comm]
  · intro c hc hzero
    exact absurd hzero (forall_mem_append.2 ⟨hfullk, hfull⟩ c hc)

lemma evbufferAddBuffer_result (hne : out ≠ inb) : (evbufferAddBuffer m out inb).1 = 0 ∧
      ∃ l' k', Result₂ (own m (l ++ k)) m (evbufferAddBuffer m out inb).2 out inb l' k' (bs ++ cs) [] := by
  have hl : {c | c ∈ l} ⊆ own m (l ++ k) := fun c hc => .inl (mem_append_left _ hc)
  have hk : ∀ c ∈ k, c ∈ own m (l ++ k) := fun c hc => .inl (mem_append_right _ hc)
  simp only [evbufferAddBuffer, hin.total, hout.total, hout.freezeEnd, hin.freezeStart, preservePinned_eq hin]
  by_cases hcs : cs = []
  · subst hcs
    rw [if_pos (.inl rfl), append_nil]
    exact ⟨rfl, l, k, hout, hin, hdisj, fun c hc => .inl hc, refl, hheap⟩
  rw [if_neg (by simpa using ⟨hcs, hne⟩), if_neg (by simp)]
  by_cases hbs : bs = []
  · subst hbs
    obtain ⟨m', hm', hcopy, hf, hheap'⟩ := copyChain_holds hheap hout hin hdisj
    rw [if_pos length_nil, hm']
    exact ⟨rfl, k, [], moved_result hne hin hcopy hk hf hl hheap'⟩
  · obtain ⟨happend, hf, hheap'⟩ := appendChain_holds hheap hout hin hdisj hne hbs hcs
    rw [if_neg (by simpa using hbs)]
    exact ⟨rfl, l ++ k, [], moved_result hne hin happend (fun c hc => .inl hc) hf hl hheap'⟩

lemma evbufferPrependBuffer_result (hne : out ≠ inb) : (evbufferPrependBuffer m out inb).1 = 0 ∧
      ∃ l' k', Result₂ (own m (l ++ k)) m (evbufferPrependBuffer m out inb).2 out inb l' k' (cs ++ bs) [] := by
  have hl : {c | c ∈ l} ⊆ own m (l ++ k) := fun c hc => .inl (mem_append_left _ hc)
  have hk : ∀ c ∈ k, c ∈ own m (l ++ k) := fun c hc => .inl (mem_append_right _ hc)
  simp only [evbufferPrependBuffer, hin.total, hout.total, hout.freezeStart, hin.freezeStart, preservePinned_eq hin]
  by_cases hcs : cs = []
  · subst hcs
    rw [if_pos (.inl rfl), nil_append]
    exact ⟨rfl, l, k, hout, hin, hdisj, fun c hc => .inl hc, refl, hheap⟩
  rw [if_neg (by simpa using ⟨hcs, hne.symm⟩), if_neg (by simp)]
  by_cases hbs : bs = []
  · subst hbs
    obtain ⟨m', hm', hcopy, hf, hheap'⟩ := copyChain_holds hheap hout hin hdisj
    rw [if_pos length_nil, append_nil, hm']
    exact ⟨rfl, k, [], moved_result hne hin hcopy hk hf hl hheap'⟩
  · obtain ⟨hprepend, hf, hheap'⟩ := prependChain_holds hheap hout hin hdisj hbs hcs
    rw [if_neg (by simpa using hbs)]
    refine ⟨rfl, k ++ l, [], moved_result hne hin hprepend ?_ hf hk hheap'⟩
    intro c hc
    exact .inl (mem_append.2 (mem_append.1 hc).symm)

end Move

section RemoveBuffer

variable {C : Set ChainId} {m m' : Memory} {b src dst : BufId} {p : Option ChainId}
  {l l1 l2 k : List ChainId} {bs cs : Bytes} {c : ChainId} {f n r : Nat}

lemma removeBufferLoop_eq (previous : Option ChainId) (nread : Nat)
    (h : Chains m p (l1 ++ c :: l2) bs) (hf : l1.length < f)
    (hdatap : (m.buf src).lastWithDatap = after next (.first src) (l1 ++ c :: l2).dropLast)
    (hr : r < (m.chain c).off) :
    removeBufferLoop src f m p previous nread ((l1.flatMap m.data).length + r) =
      (m.modifyBuf src fun s =>
        { s with lastWithDatap := after next (.first src) (c :: l2).dropLast },
        some c, l1.getLast?.or previous, nread + (l1.flatMap m.data).length, r) := by
  induction l1 generalizing m p bs f nread previous with
  | nil =>
    obtain ⟨f, rfl⟩ : ∃ f', f = f' + 1 := ⟨f - 1, by simp at hf; omega⟩
    obtain ⟨rfl, -⟩ := h.walk
    rw [nil_append] at hdatap
    simp [removeBufferLoop, Nat.not_le.2 hr, ← hdatap]
  | cons d l1 ih =>
    obtain ⟨f, rfl⟩ : ∃ f', f = f' + 1 := ⟨f - 1, by omega⟩
    obtain ⟨rfl, -⟩ := h.walk
    have hd : d ∉ l1 ++ c :: l2 := (nodup_cons.1 h.nodup).1
    obtain ⟨hdatap', hlast⟩ := datap_cons h (by simp) hdatap
    have hloop := ih (some d) (nread + (m.chain d).off) (h.tail.modifyBuf (b := src) fun s =>
      { s with lastWithDatap := after next (.first src) (l1 ++ c :: l2).dropLast })
      (by simpa using hf) (by simp) hr
    have hprev : (d :: l1).getLast?.or previous = l1.getLast?.or (some d) := by
      rw [getLast?_cons]
      cases l1.getLast? <;> rfl
    rw [flatMap_cons, length_append, length_data, Nat.add_assoc, removeBufferLoop,
      if_pos (Nat.le_add_right _ _), hprev]
    simp only [evutilAssert_of hlast, modifyBuf_passed hd hdatap']
    rw [show ∀ f, (m.modifyBuf src f).chain = m.chain from fun _ => rfl, Nat.add_sub_cancel_left]
    refine hloop.trans ?_
    simp [Nat.add_assoc]

lemma advanceLastWithDataLoop_eq
    (h : Walk next m.cell (m.cell (.first b)) (l1 ++ c :: l2) none)
    (hfull : ∀ d ∈ l2, (m.chain d).off ≠ 0) (hf : l2.length < f)
    (hdatap : (m.buf b).lastWithDatap = after next (.first b) l1) :
    advanceLastWithDataLoop b f m = m.modifyBuf b fun s =>
      { s with lastWithDatap := after next (.first b) (l1 ++ c :: l2).dropLast } := by
  induction l2 generalizing m l1 c f with
  | nil =>
    obtain ⟨f, rfl⟩ : ∃ f', f = f' + 1 := ⟨f - 1, by simp at hf; omega⟩
    have hnext : m.cell (.next c) = none := by simpa using h.cell_after
    have hlast : m.lastWithData b = some c := by
      rw [Memory.lastWithData, hdatap]
      simpa using h.getLast
    rw [advanceLastWithDataLoop]
    simp [hlast, hnext, ← hdatap]
  | cons d l2 ih =>
    obtain ⟨f, rfl⟩ : ∃ f', f = f' + 1 := ⟨f - 1, by omega⟩
    obtain ⟨r, hleft, hright⟩ := h.split
    have hlast : m.lastWithData b = some c := by
      rw [Memory.lastWithData, hdatap, hleft.cell_after]
      exact hright.1
    have hnext : m.cell (.next c) = some d := hright.2.1
    have hlist : l1 ++ c :: d :: l2 = l1 ++ [c] ++ d :: l2 := by simp
    rw [advanceLastWithDataLoop]
    simp only [hlast, hnext]
    rw [hlist] at h
    have hrest : ∀ e ∈ l2, (m.chain e).off ≠ 0 := fun e he => hfull e (by simp [he])
    have hadvance := ih (m := m.modifyBuf b fun s => { s with lastWithDatap := .next c }) h hrest
      (f := f) (by simpa using hf) (by simp)
    rw [if_pos (hfull d (by simp)), hlist, hadvance]
    simp

lemma relinkChains_spec {t : ChainId} (hne : src ≠ dst) (hdst : Chains m (m.cell (.first dst)) k cs)
    (hsrc : Chains m (m.cell (.first src)) (l1 ++ c :: l2) bs) (ht : l1.getLast? = some t)
    (hdisj : ∀ d ∈ k, d ∉ l1 ++ c :: l2)
    (hm' : relinkChains m src dst (after next (.first dst) k) (some c) (some t) = m') :
    Chains m' (m'.cell (.first dst)) (k ++ l1) (cs ++ l1.flatMap m.data) ∧
      m'.cell (.first src) = some c ∧
      m'.buf = update m.buf dst { m.buf dst with last := some t } ∧
      m'.chain = m.chain ∧ Frame {src, dst} {d | d ∈ k ++ l1} m m' ∧ (HeapOk m → HeapOk m') := by
  have hl1 : l1 ≠ [] := by
    rintro rfl
    simp at ht
  have hmem : t ∈ l1 := mem_of_getLast? ht
  have hafter : after next (.first src) l1 = .next t := by
    rw [getLast?_eq_getLast_of_ne_nil hl1] at ht
    rw [after_eq_of_ne_nil hl1, Option.some.inj ht]
  have hslot : after next (.first dst) k ≠ .next t := by
    by_cases hk : k = []
    · subst hk
      simp
    · rw [after_eq_of_ne_nil hk]
      intro heq
      have hlast := getLast_mem hk
      rw [next.inj heq] at hlast
      exact hdisj t hlast (by simp [hmem])
  have hstart : (if m.cell (.first dst) = none then
      m.setCell (.first dst) (m.cell (.first src)) else
      m.setCell (after next (.first dst) k) (m.cell (.first src))) =
      m.setCell (after next (.first dst) k) (m.cell (.first src)) := by
    split_ifs with hnone
    · rw [hdst.walk.head, head?_eq_none_iff] at hnone
      rw [hnone, after_nil]
    · rfl
  -- The code links the chains before it ends their list; the two stores commute.
  let m1 : Memory := m.setCell (.next t) none
  let m2 : Memory := m1.setCell (after next (.first dst) k) (m.cell (.first src))
  have hmid : m' = (m2.setCell (.first src) (some c)).modifyBuf dst fun s =>
      { s with last := some t } := by
    rw [← hm']
    simp only [relinkChains, hstart]
    simp only [m2, m1, Memory.setCell, Memory.modifyBuf]
    rw [update_comm hslot]
  have hfirst : ∀ b, m1.cell (.first b) = m.cell (.first b) := fun b => by simp [m1]
  have hcut : Chains m1 (m.cell (.first src)) l1 (l1.flatMap m.data) := by
    have hcut := hsrc.cut
    rw [hafter] at hcut
    exact hfirst src ▸ hcut
  have hdst1 : Chains m1 (m1.cell (.first dst)) k cs := by
    rw [hfirst]
    apply hdst.frame (refl.setNext (B := ∅) (mem_singleton t) none)
    rintro d hd rfl
    exact hdisj d hd (by simp [hmem])
  have hlink := hdst1.link hcut fun d hd hd1 => hdisj d hd (by simp [hd1])
  have hs : src ∈ ({src, dst} : Set BufId) := by simp
  have hd : dst ∈ ({src, dst} : Set BufId) := by simp
  have hlast : Frame {src, dst} ∅ m2 m' := by
    rw [hmid]
    exact (refl.setFirst hs _).modifyBuf hd _
  refine ⟨?_, ?_, ?_, ?_, ?_, ?_⟩
  · have hcell : m'.cell (.first dst) = m2.cell (.first dst) := by simp [hmid, hne.symm]
    rw [hcell]
    exact hlink.frame hlast fun _ _ => notMem_empty _
  · simp [hmid]
  · simp [hmid, m2, m1]
  · simp [hmid, m2, m1]
  · have hnext : Frame {src, dst} {d | d ∈ k ++ l1} m m1 :=
      refl.setNext (mem_append_right _ hmem) none
    have hstore := hnext.setAfter (b := dst) (l := k) hd (fun d hd => mem_append_left _ hd) (m.cell (.first src))
    exact hstore.trans (hlast.mono subset_rfl (empty_subset _))
  · intro hheap
    rw [hmid]
    exact hheap.congr rfl

lemma advanceLastWithData_eq (h : Chains m (m.cell (.first b)) (k ++ l) bs) (hl : l ≠ [])
    (hfull : ∀ d ∈ k ++ l, (m.chain d).off ≠ 0)
    (hdatap : (m.buf b).lastWithDatap = after next (.first b) k.dropLast) :
    advanceLastWithData m b = m.modifyBuf b fun s =>
      { s with lastWithDatap := after next (.first b) (k ++ l).dropLast } := by
  obtain ⟨x, k2, hx⟩ : ∃ x k2, k ++ l = k.dropLast ++ x :: k2 := by
    rcases k.eq_nil_or_concat with rfl | ⟨k', y, rfl⟩
    · obtain ⟨y, l', rfl⟩ := exists_cons_of_ne_nil hl
      exact ⟨y, l', rfl⟩
    · exact ⟨y, l, by simp⟩
  have hwalk := h.walk
  have hshort := length_lt_fuel h.nodup h.live
  rw [hx] at hwalk hfull hshort ⊢
  obtain ⟨q, hleft, hright⟩ := hwalk.split
  have hsome : m.lastWithData b = some x := by
    rw [Memory.lastWithData, hdatap, hleft.cell_after]
    exact hright.1
  rw [advanceLastWithData, hsome]
  apply advanceLastWithDataLoop_eq hwalk _ _ hdatap
  · intro d hd
    exact hfull d (by simp [hd])
  · rw [length_append, length_cons] at hshort
    omega

lemma moveChains_spec (hheap : HeapOk m) (hne : src ≠ dst) (hdst : Holds m dst k cs)
    (hsrc : Chains m (m.cell (.first src)) (l1 ++ c :: l2) bs) (hl1 : l1 ≠ [])
    (hfull : ∀ d ∈ l1, (m.chain d).off ≠ 0) (hdisj : ∀ d ∈ k, d ∉ l1 ++ c :: l2)
    (hn : (l1.flatMap m.data).length = n) (hlen : cs.length + n ≤ evSizeMax)
    (hm' : moveChains m src dst (some c) l1.getLast? n = m') :
    ∃ k', Holds m' dst k' (cs ++ l1.flatMap m.data) ∧ (∀ d ∈ k', d ∈ k ++ l1) ∧
      m'.buf src = m.buf src ∧ m'.cell (.first src) = some c ∧
      Frame {src, dst} {d | d ∈ k ++ l1} m m' ∧ HeapOk m' := by
  obtain ⟨k0, htrim⟩ := evbufferFreeTrailingEmptyChains_trimmed hheap hdst
  generalize hr : evbufferFreeTrailingEmptyChains m dst = r at htrim
  obtain ⟨m1, slot⟩ := r
  obtain ⟨rfl, hchains, hfull0, hsub, -, hdatap, hbuf, hframe, hheap1⟩ := htrim
  simp only at hchains hfull0 hbuf hframe hheap1
  have hlist : ∀ d ∈ l1 ++ c :: l2, d ∉ {d | d ∈ k} := fun d hd hk => hdisj d hk hd
  have hsrc1 : Chains m1 (m1.cell (.first src)) (l1 ++ c :: l2) bs := by
    rw [hframe.first src (by simpa using hne)]
    exact hsrc.frame hframe hlist
  have hdata1 : l1.flatMap m1.data = l1.flatMap m.data :=
    hsrc.flatMap_data hframe fun d hd => ⟨by simp [hd], hlist d (by simp [hd])⟩
  obtain ⟨t, ht⟩ : ∃ t, l1.getLast? = some t :=
    ⟨l1.getLast hl1, getLast?_eq_getLast_of_ne_nil hl1⟩
  generalize hm2 : relinkChains m1 src dst (after next (.first dst) k0) (some c) (some t) = m2
  obtain ⟨hall, hfirst, hbuf2, hchain2, hframe2, hheap2⟩ :=
    relinkChains_spec hne hchains hsrc1 ht (fun d hd => hdisj d (hsub d hd)) hm2
  rw [hdata1] at hall
  rw [hbuf] at hbuf2
  have hfull2 : ∀ d ∈ k0 ++ l1, (m2.chain d).off ≠ 0 := by
    intro d hd
    rw [hchain2]
    rcases mem_append.1 hd with hd | hd
    · exact hfull0 d hd
    · rw [hframe.chain d (hlist d (by simp [hd]))]
      exact hfull d hd
  have hadvance := advanceLastWithData_eq hall hl1 hfull2 (by rw [hbuf2]; simpa using hdatap)
  rw [moveChains, hr, ht] at hm'
  simp only [hm2, hadvance] at hm'
  have hd : dst ∈ ({src, dst} : Set BufId) := by simp
  have hwithin : ∀ d ∈ k0 ++ l1, d ∈ k ++ l1 :=
    append_subset_of_subset_of_subset (fun d hd => mem_append_left _ (hsub d hd)) (subset_append_right k l1)
  refine ⟨k0 ++ l1, ?_, hwithin, ?_, ?_, ?_, ?_⟩
  · rw [← hm']
    refine hdst.rebuild ((hall.modifyBuf _).modifyBuf _) ?_ ?_
    · simp [hbuf2, getLast?_append, ht, hdst.total, hn, addSize_of_le hlen]
    · intro d hd hzero
      exact absurd hzero (hfull2 d hd)
  · simp [← hm', hbuf2, hne]
  · simp [← hm', hfirst]
  · have hm1 : Frame {src, dst} {d | d ∈ k ++ l1} m m1 :=
      hframe.mono (by simp) fun d hd => mem_append_left _ hd
    rw [← hm']
    exact ((hm1.trans (hframe2.mono subset_rfl hwithin)).modifyBuf hd _).modifyBuf hd _
  · rw [← hm']
    exact (hheap2 hheap1).congr rfl

/-- The memory between the two halves of `evbuffer_remove_buffer`: the chains `l1` of `src` have
moved to `dst`, and the length of `src` is not yet corrected. -/
structure Relinked (m m' : Memory) (src dst : BufId) (l1 : List ChainId) (c : ChainId)
    (l2 k : List ChainId) (cs : Bytes) (k' : List ChainId) : Prop where
  moved : Holds m' dst k' (cs ++ l1.flatMap m.data)
  within : ∀ d ∈ k', d ∈ k ++ l1
  buf : m'.buf src =
    { m.buf src with lastWithDatap := after next (.first src) (c :: l2).dropLast }
  first : m'.cell (.first src) = some c
  frame : Frame {src, dst} {d | d ∈ k ++ l1} m m'
  heap : HeapOk m'

lemma relinked (hheap : HeapOk m) (hne : src ≠ dst) (hsrc : Holds m src (l1 ++ c :: l2) bs)
    (hfull : ∀ d ∈ l1 ++ c :: l2, (m.chain d).off ≠ 0) (hdst : Holds m dst k cs)
    (hdisj : ∀ d ∈ k, d ∉ l1 ++ c :: l2) (previous : Option ChainId) :
    let m1 := m.modifyBuf src fun s =>
      { s with lastWithDatap := after next (.first src) (c :: l2).dropLast }
    ∃ k', Relinked m (if (l1.flatMap m.data).length ≠ 0 then
      moveChains m1 src dst (some c) (l1.getLast?.or previous) (l1.flatMap m.data).length else m1)
      src dst l1 c l2 k cs k' := by
  intro m1
  have hs : src ∈ ({src} : Set BufId) := rfl
  have hf1 : Frame {src} ∅ m m1 := refl.modifyBuf hs _
  have hheap1 : HeapOk m1 := hheap.congr rfl
  have hdst1 : Holds m1 dst k cs :=
    hdst.frame hf1 (by simpa using hne.symm) fun _ _ => notMem_empty _
  have hbuf1 : m1.buf src =
      { m.buf src with lastWithDatap := after next (.first src) (c :: l2).dropLast } := by
    simp [m1]
  have hbase : Frame {src, dst} {d | d ∈ k ++ l1} m m1 :=
    hf1.mono (by simp) (empty_subset _)
  by_cases hl1 : l1 = []
  · subst hl1
    rw [if_neg (by simp)]
    exact ⟨k, by simpa using hdst1, by simp, hbuf1, hsrc.walk.1, hbase, hheap1⟩
  · have hpos : (l1.flatMap m.data).length ≠ 0 := by
      obtain ⟨d, l', rfl⟩ := exists_cons_of_ne_nil hl1
      have hd := hfull d (by simp)
      rw [flatMap_cons, length_append, length_data]
      omega
    have hprev : l1.getLast?.or previous = l1.getLast? := by
      rw [getLast?_eq_getLast_of_ne_nil hl1]
      rfl
    have hlen : cs.length + (l1.flatMap m.data).length ≤ evSizeMax := by
      have hsum := (hdst.toChains.length_add_le hheap hsrc.toChains hdisj).trans evSsizeMax_le
      rw [← hsrc.data, flatMap_append, length_append] at hsum
      omega
    obtain ⟨k', hholds, hwithin, hbuf, hfirst, hframe, hheap'⟩ :=
      moveChains_spec hheap1 hne hdst1 (hsrc.toChains.modifyBuf _) hl1
        (fun d hd => hfull d (by simp [hd])) hdisj rfl hlen rfl
    rw [if_pos hpos, hprev]
    exact ⟨k', hholds, hwithin, hbuf.trans hbuf1, hfirst, hbase.trans hframe, hheap'⟩

lemma removeBufferRest_result {k' : List ChainId} {r : Nat} (hheap : HeapOk m) (hne : src ≠ dst)
    (hsrc : Holds m src (l1 ++ c :: l2) bs) (hdst : Holds m dst k cs)
    (hdisj : ∀ d ∈ k, d ∉ l1 ++ c :: l2) (h : Relinked m m' src dst l1 c l2 k cs k')
    (hr : r < (m.chain c).off)
    (hoom : (removeBufferRest m' src dst c (l1.flatMap m.data).length r).2.oom = false)
    (hpos : (l1.flatMap m.data).length + r ≠ 0) : ∃ k'', Result₂ (own m (l1 ++ c :: l2 ++ k)) m
      (removeBufferRest m' src dst c (l1.flatMap m.data).length r).2 src dst (c :: l2) k''
      (bs.drop ((l1.flatMap m.data).length + r))
      (cs ++ bs.take ((l1.flatMap m.data).length + r)) := by
  have hnodup := hsrc.nodup
  have hkeep : ∀ d ∈ c :: l2, d ∉ {d | d ∈ k ++ l1} := by
    intro d hd hmem
    rcases mem_append.1 hmem with hmem | hmem
    · exact hdisj d hmem (mem_append_right _ hd)
    · exact (nodup_append.1 hnodup).2.2 d hmem d hd rfl
  have hok : ∀ d ∈ c :: l2, ChainOk m d := fun d hd => hsrc.ok d (mem_append_right _ hd)
  have hc' : m'.chain c = m.chain c := h.frame.chain c (hkeep c (by simp))
  have hread : ByteBlock.read (m'.block (m'.chain c).buffer) (m'.chain c).misalign r = (m.data c).take r := by
    have hdata := (hok c (by simp)).data_frame h.frame (hkeep c (by simp))
    rw [← hdata, Memory.data, take_read _ _ (by rw [hc']; exact hr.le)]
  have hbs : bs = l1.flatMap m.data ++ (m.data c ++ l2.flatMap m.data) := by
    rw [← hsrc.data, flatMap_append, flatMap_cons]
  have htake : bs.take ((l1.flatMap m.data).length + r) = l1.flatMap m.data ++ (m.data c).take r := by
    rw [hbs, take_length_add_append, take_append_of_le_length (by rw [length_data]; exact hr.le)]
  have hsmall : ¬ evSizeMax < (cs ++ l1.flatMap m.data).length + ((m.data c).take r).length := by
    have hsum := (hdst.toChains.length_add_le hheap hsrc.toChains hdisj).trans evSsizeMax_le
    rw [hbs, length_append, length_append, length_data] at hsum
    rw [length_append, length_take, length_data]
    omega
  generalize hm1 : (evbufferAdd m' dst ((m.data c).take r)).2 = m1
  simp only [removeBufferRest, hread, hm1, if_pos hpos] at hoom ⊢
  have hoom1 : (evbufferAdd m' dst ((m.data c).take r)).2.oom = false := by
    rw [hm1]
    exact hoom
  have hadd := evbufferAdd_result h.heap h.moved hoom1
  rw [if_neg hsmall, hm1, append_assoc, ← htake] at hadd
  obtain ⟨-, k'', hres⟩ := hadd
  -- What is left of `src` lies apart from all that `evbuffer_add` may touch.
  have hapart : ∀ d ∈ c :: l2, d ∉ own m' k' := by
    rintro d hd (hmem | hdead)
    · exact hkeep d hd (h.within d hmem)
    · exact hdead ((h.frame.live d (hkeep d hd)).2 (hok d hd).live)
  have hck : ∀ d ∈ k'', d ∉ c :: l2 := fun d hmem hd => hapart d hd (hres.within d hmem)
  have hbuf1 : m1.buf src = m'.buf src := hres.frame.buf src (by simpa using hne)
  have hfirst1 : m1.cell (.first src) = some c := by
    rw [hres.frame.first src (by simpa using hne)]
    exact h.first
  have hchain1 : ∀ d ∈ c :: l2, m1.chain d = m.chain d := fun d hd =>
    (hres.frame.chain d (hapart d hd)).trans (h.frame.chain d (hkeep d hd))
  have hleft : Chains m1 (some c) (c :: l2) (m.data c ++ l2.flatMap m.data) := by
    obtain ⟨q, -, hsplit⟩ := hsrc.toChains.split
    obtain rfl : q = some c := hsplit.walk.1
    exact (hsplit.frame h.frame hkeep).frame hres.frame hapart
  have hdrop : bs.drop ((l1.flatMap m.data).length + r) = (m.data c ++ l2.flatMap m.data).drop r := by
    rw [hbs, drop_length_add_append]
  have hs : src ∈ ({src, dst} : Set BufId) := by simp
  have hmoved : {d | d ∈ k ++ l1} ⊆ own m (l1 ++ c :: l2 ++ k) :=
    forall_mem_append.2 ⟨fun d hd => .inl (mem_append_right _ hd),
      fun d hd => .inl (mem_append_left _ (mem_append_left _ hd))⟩
  have hown : own m' k' ⊆ own m (l1 ++ c :: l2 ++ k) := by
    rintro d (hd | hd)
    · exact hmoved (h.within d hd)
    · by_cases hmem : d ∈ k ++ l1
      · exact hmoved hmem
      · exact .inr fun hlive => hd ((h.frame.live d hmem).2 hlive)
  have hcown : ∀ d ∈ c :: l2, d ∈ own m (l1 ++ c :: l2 ++ k) := fun d hd =>
    .inl (mem_append_left _ (mem_append_right _ hd))
  refine ⟨k'', ?_⟩
  let m2 : Memory := (m1.modifyChain c fun ch => ch.drained r).modifyBuf src fun s =>
    { s with
      totalLen := s.totalLen - ((l1.flatMap m.data).length + r)
      nDelForCb := addSize s.nDelForCb ((l1.flatMap m.data).length + r) }
  have hf2 : Frame {src} {c} m1 m2 :=
    (refl.modifyChain (mem_singleton c) _).modifyBuf (mem_singleton src) _
  have hlast : Result₂ (own m (l1 ++ c :: l2 ++ k)) m m2 src dst (c :: l2) k''
      (bs.drop ((l1.flatMap m.data).length + r)) (cs ++ bs.take ((l1.flatMap m.data).length + r)) := by
    refine ⟨?_, ?_, fun d hd hmem => hck d hmem hd, ?_, ?_, hres.heap.congr rfl⟩
    · apply hsrc.suffix
      · omega
      · have hshort := hleft.drained (n := r) (by rw [hchain1 c (by simp)]; exact hr.le)
        change Chains _ (m1.cell (.first src)) _ _
        rw [hdrop, hfirst1]
        exact hshort.modifyBuf _
      · simp [m2, hbuf1, h.buf, hsrc.total]
      · simp [m2, EvbufferChain.drained, hchain1 c (by simp)]
        omega
      · intro d hd
        have hdc : d ≠ c := ne_of_mem_of_not_mem hd (nodup_cons.1 hleft.nodup).1
        simpa [m2, hdc] using hchain1 d (by simp [hd])
    · apply hres.holds.frame hf2 (by simpa using hne.symm)
      rintro d hd rfl
      exact hck d hd (by simp)
    · exact forall_mem_append.2 ⟨hcown, fun d hd => hown (hres.within d hd)⟩
    · have hbase := (h.frame.mono subset_rfl hmoved).trans (hres.frame.mono (by simp) hown)
      exact (hbase.modifyChain (hcown c (by simp)) _).modifyBuf hs _
  exact (hlast.swap.modifyBuf hne.symm counting_clear).swap.modifyBuf hne counting_clear

lemma evbufferRemoveBuffer_result (hheap : HeapOk m) (hne : src ≠ dst) (hsrc : Holds m src l bs)
    (hdst : Holds m dst k cs) (hdisj : ∀ d ∈ l, d ∉ k)
    (hoom : (evbufferRemoveBuffer m src dst n).2.oom = false) :
    (evbufferRemoveBuffer m src dst n).1 = toInt (min n bs.length) ∧
      ∃ l' k', Result₂ (own m (l ++ k)) m (evbufferRemoveBuffer m src dst n).2 src dst l' k'
        (bs.drop n) (cs ++ bs.take n) := by
  have hdisj' : ∀ d ∈ k, d ∉ l := fun d hk hl => hdisj d hl hk
  unfold evbufferRemoveBuffer at hoom ⊢
  simp only [hsrc.total, hdst.freezeEnd, hsrc.freezeStart] at hoom ⊢
  by_cases hn : n = 0
  · subst hn
    rw [if_pos (.inl rfl), Nat.zero_min, drop_zero, take_zero, append_nil]
    exact ⟨rfl, l, k, hsrc, hdst, hdisj, fun d hd => .inl hd, refl, hheap⟩
  rw [if_neg (by simpa using ⟨hn, hne.symm⟩), if_neg (by simp)] at hoom ⊢
  by_cases hall : bs.length ≤ n
  · obtain ⟨-, k', l', hres⟩ := evbufferAddBuffer_result hheap hdst hsrc hdisj' hne.symm
    have hown : own m (k ++ l) = own m (l ++ k) := by
      ext d
      simp [own, or_comm]
    rw [if_pos hall, Nat.min_eq_right hall, drop_eq_nil_of_le hall, take_of_length_le hall, ← hown]
    exact ⟨rfl, l', k', hres.swap⟩
  rw [if_neg hall] at hoom ⊢
  have hlt : n < (l.flatMap m.data).length := by
    rw [hsrc.data]
    omega
  obtain ⟨l1, c, l2, r, rfl, rfl, hr⟩ := exists_split_lt m hlt
  have hshort := length_lt_fuel hsrc.nodup hsrc.live
  rw [length_append] at hshort
  have hloop := removeBufferLoop_eq (m.cell (.first src)) 0 hsrc.toChains (f := m.fuel) (by omega) hsrc.datap hr
  have hfull := hsrc.full (c := c) (by simp) (by omega)
  obtain ⟨k', hrel⟩ := relinked hheap hne hsrc hfull hdst hdisj' (m.cell (.first src))
  rw [hloop, Nat.zero_add] at hoom ⊢
  obtain ⟨k'', hres⟩ := removeBufferRest_result hheap hne hsrc hdst hdisj' hrel hr hoom hn
  refine ⟨?_, c :: l2, k'', hres⟩
  rw [Nat.min_eq_left (by omega)]
  rfl

end RemoveBuffer

section Pullup

variable {C : Set ChainId} {m m' : Memory} {b : BufId} {c t : ChainId} {p : Option ChainId}
  {l l1 l2 : List ChainId} {bs cs : Bytes} {f n : Nat} {s : PullupCopy}

lemma pullupPinned_eq (h : Chains m p l bs) (hf : l.length ≤ f) : pullupPinned f m p n = (m, false) := by
  induction l generalizing p bs f n with
  | nil =>
    obtain rfl : p = none := h.walk
    cases f <;> rfl
  | cons c l ih =>
    obtain ⟨f, rfl⟩ : ∃ f', f = f' + 1 := ⟨f - 1, by simp at hf; omega⟩
    obtain ⟨rfl, hwalk⟩ := h.walk
    have hpin := (h.ok c (by simp)).not_pinned
    have hrest := h.tail
    rw [pullupPinned, hpin, if_neg (by simp)]
    split
    · rfl
    · exact ih hrest (by simpa using hf)

lemma pullupLoop_eq {r : Nat} (s : PullupCopy) (lwd : Option ChainId)
    (h : Chains m s.chain (l1 ++ l2) bs) (ht : t ∉ l1 ++ l2) (hf : l1.length < f)
    (hsum : s.size = (l1.flatMap m.data).length + r)
    (hstop : ∀ c ∈ l2.head?, r < (m.chain c).off) : pullupLoop b t lwd f m s =
      (l1.foldl mmFree (m.memcpy t s.pos (l1.flatMap m.data)),
        { chain := l2.head?
          size := r
          pos := s.pos + (l1.flatMap m.data).length
          removedLastWithData := s.removedLastWithData || l1.any fun c => lwd == some c
          removedLastWithDatap := s.removedLastWithDatap ||
            l1.any fun c => (m.buf b).lastWithDatap == .next c }) := by
  induction l1 generalizing m bs f s with
  | nil =>
    obtain ⟨f, rfl⟩ : ∃ f', f = f' + 1 := ⟨f - 1, by simp at hf; omega⟩
    have hhead : s.chain = l2.head? := h.walk.head
    have hsize : s.size = r := by simpa using hsum
    rw [pullupLoop]
    cases s
    cases l2 with
    | nil => simp_all
    | cons c l2 => simp_all
  | cons c l1 ih =>
    obtain ⟨f, rfl⟩ : ∃ f', f = f' + 1 := ⟨f - 1, by omega⟩
    have hchain : s.chain = some c := h.walk.1
    have hok := h.ok c (by simp)
    have hc : c ∉ l1 ++ l2 := (nodup_cons.1 h.nodup).1
    have htl : t ∉ l1 ++ l2 := fun hmem => ht (mem_cons_of_mem _ hmem)
    rw [flatMap_cons, length_append, length_data] at hsum
    let m1 : Memory := mmFree (m.memcpy t s.pos (m.data c)) c
    have hframe : Frame ∅ {c, t} m m1 :=
      (refl.memcpy (by simp) _ _).free (by simp)
    have hout : ∀ d ∈ l1 ++ l2, d ∉ ({c, t} : Set ChainId) := by
      rintro d hd (rfl | rfl)
      · exact hc hd
      · exact htl hd
    have hdata : l1.flatMap m1.data = l1.flatMap m.data :=
      h.flatMap_data hframe fun d hd => ⟨by simp [hd], hout d (by simp [hd])⟩
    have hloop := ih
      { chain := m.cell (.next c)
        size := s.size - (m.chain c).off
        pos := s.pos + (m.chain c).off
        removedLastWithData := s.removedLastWithData || lwd == some c
        removedLastWithDatap := s.removedLastWithDatap || (m.buf b).lastWithDatap == .next c }
      (h.tail.frame hframe hout) htl (by simpa using hf) (by rw [hdata]; simp only; omega) (by
        intro d hd
        rw [hframe.chain d (hout d (mem_append_right _ (mem_of_mem_head? hd)))]
        exact hstop d hd)
    have hfree : evbufferChainFree (m.memcpy t s.pos (m.data c)) c = m1 :=
      evbufferChainFree_eq (hok.congr rfl rfl hok.live)
    have hmem : m1.memcpy t (s.pos + (m.chain c).off) (l1.flatMap m.data) =
        mmFree (m.memcpy t s.pos (m.data c ++ l1.flatMap m.data)) c := by
      have hwrite := write_append (m.block t) s.pos (m.data c) (l1.flatMap m.data)
      rw [length_data] at hwrite
      simp [m1, mmFree, hwrite]
    rw [hdata] at hloop
    rw [pullupLoop]
    simp only [hchain, if_pos (show (m.chain c).off ≤ s.size by omega), hfree, hloop, hmem]
    simp [m1, mmFree, Bool.or_assoc, Nat.add_assoc]

lemma pullup_datap (b : BufId) (hl : l1 ++ l2 ≠ []) (hnodup : (l1 ++ l2).Nodup) :
    (if l1.any fun c => (l1 ++ l2).getLast? == some c then first b
      else if l1.any fun c => after next (.next t) (l1 ++ l2).dropLast == .next c then
        if l2 = [] then .first b else .next t
      else after next (.next t) (l1 ++ l2).dropLast) =
      after next (.first b) (t :: l2).dropLast := by
  by_cases hl2 : l2 = []
  · subst hl2
    rw [append_nil] at hl
    rw [if_pos]
    · rfl
    · rw [any_eq_true]
      exact ⟨l1.getLast hl, getLast_mem hl, by simp [getLast?_eq_getLast_of_ne_nil hl]⟩
  have hapart : ∀ c ∈ l1, c ∉ l2 := fun c hc hmem => (nodup_append.1 hnodup).2.2 c hc c hmem rfl
  have hdrop : (t :: l2).dropLast = t :: l2.dropLast := by
    obtain ⟨x, l', rfl⟩ := exists_cons_of_ne_nil hl2
    rfl
  have hfirst : (l1.any fun c => (l1 ++ l2).getLast? == some c) = false := by
    rw [any_eq_false]
    intro c hc heq
    rw [getLast?_append, getLast?_eq_getLast_of_ne_nil hl2] at heq
    obtain rfl : l2.getLast hl2 = c := by simpa using heq
    exact hapart _ hc (getLast_mem hl2)
  rw [hfirst, if_neg (by simp), if_neg hl2, dropLast_append_of_ne_nil hl2, hdrop, after_cons, after_append]
  by_cases hone : l2.dropLast = []
  · rw [hone, after_nil, after_nil]
    by_cases hl1 : l1 = []
    · subst hl1
      rfl
    · rw [if_pos]
      rw [any_eq_true, after_eq_of_ne_nil hl1]
      exact ⟨l1.getLast hl1, getLast_mem hl1, by simp⟩
  · rw [after_congr hone _ (next t), if_neg]
    rw [Bool.not_eq_true, any_eq_false, after_eq_of_ne_nil hone]
    intro c hc heq
    obtain rfl : l2.dropLast.getLast hone = c := by simpa using heq
    exact hapart _ hc (dropLast_subset _ (getLast_mem hone))

/-- What holds when `evbuffer_pullup` starts to copy: the first chain `t` holds `ds`, and `n` bytes
of the chains `l` behind it are to be copied to `pos`. -/
structure PullupReady (m : Memory) (b : BufId) (t : ChainId) (l : List ChainId)
    (ds cs : Bytes) (s : PullupCopy) : Prop where
  chains : Chains m s.chain l cs
  ok : ChainOk m t
  apart : t ∉ l
  first : m.cell (.first b) = some t
  off : (m.chain t).off = ds.length + s.size
  pos : s.pos = (m.chain t).misalign + ds.length
  held : ByteBlock.read (m.block t) (m.chain t).misalign ds.length = ds
  last : (m.buf b).last = l.getLast?
  datap : (m.buf b).lastWithDatap = after next (.next t) l.dropLast
  lastWithData : m.lastWithData b = l.getLast?
  total : (m.buf b).totalLen = (ds ++ cs).length
  full : ∀ d ∈ l, (m.chain d).off ≠ 0
  freezeStart : (m.buf b).freezeStart = false
  freezeEnd : (m.buf b).freezeEnd = false
  fits : s.size ≤ cs.length
  some : s.size ≠ 0
  clear : s.removedLastWithData = false ∧ s.removedLastWithDatap = false

lemma PullupReady.ne_nil (h : PullupReady m b t l bs cs s) : l ≠ [] := by
  rintro rfl
  have hfits := h.fits
  rw [← h.chains.data] at hfits
  exact h.some (by simpa using hfits)

structure Pulled (m m' : Memory) (b : BufId) (t : ChainId) (l l2 : List ChainId)
    (ds cs : Bytes) (n : Nat) : Prop where
  chains : Chains m' (some t) (t :: l2) (ds ++ cs)
  data : m'.data t = ds ++ cs.take n
  chain : m'.chain t = m.chain t
  full : ∀ d ∈ t :: l2, (m'.chain d).off ≠ 0
  buf : m'.buf b = { m.buf b with last := (t :: l2).getLast? }
  first : m'.cell (.first b) = m.cell (.first b)
  next : m'.cell (.next t) = l2.head?
  frame : Frame {b} {d | d ∈ t :: l} m m'
  heap : HeapOk m'

lemma PullupReady.data_eq {xs : Bytes} (h : PullupReady m b t l bs cs s)
    (hchain : m'.chain t = m.chain t) (hblock : m'.block t = write (m.block t) s.pos xs)
    (hxs : xs.length = s.size) : m'.data t = bs ++ xs := by
  rw [Memory.data, hchain, h.ok.buffer, hblock, h.pos, h.off, ← hxs, read_write_append, h.held]

lemma pullupTail_spec {r : Nat} (hheap : HeapOk m) (h : PullupReady m b t (l1 ++ l2) bs cs s)
    (hsum : s.size = (l1.flatMap m.data).length + r) (hend : l2 = [] → r = 0)
    (hstop : ∀ c ∈ l2.head?, r < (m.chain c).off) (u v : Bool) {m' : Memory}
    (hm' : pullupTail (l1.foldl mmFree (m.memcpy t s.pos (l1.flatMap m.data))) b t
      { chain := l2.head?, size := r, pos := s.pos + (l1.flatMap m.data).length,
        removedLastWithData := u, removedLastWithDatap := v } = m') :
    Pulled m m' b t (l1 ++ l2) l2 bs cs s.size := by
  have hcs : cs = l1.flatMap m.data ++ l2.flatMap m.data := by
    rw [← h.chains.data, flatMap_append]
  generalize hm1 : l1.foldl mmFree (m.memcpy t s.pos (l1.flatMap m.data)) = m1
  have ht1 : t ∉ {d | d ∈ l1} := fun hmem => h.apart (mem_append_left _ hmem)
  have hf0 : Frame ∅ {d | d ∈ l1} (m.memcpy t s.pos (l1.flatMap m.data)) m1 :=
    hm1 ▸ refl.freeList fun _ hd => hd
  have hf1 : Frame ∅ {d | d ∈ t :: l1} m m1 :=
    hm1 ▸ (refl.memcpy (by simp) _ _).freeList fun d hd => by simp [hd]
  have hok0 : ChainOk (m.memcpy t s.pos (l1.flatMap m.data)) t := h.ok.congr rfl rfl h.ok.live
  have hok1 : ChainOk m1 t := hok0.frame hf0 ht1
  have hchain1 : m1.chain t = m.chain t := hf0.chain t ht1
  have hblock1 : m1.block t = write (m.block t) s.pos (l1.flatMap m.data) :=
    (hf0.block t ht1).trans (by simp)
  have hfirst1 : m1.cell (.first b) = m.cell (.first b) := hf1.first b (notMem_empty b)
  have hbuf1 : m1.buf b = m.buf b := hf1.buf b (notMem_empty b)
  have hheap1 : HeapOk m1 := by
    rw [← hm1]
    exact HeapOk.freeList (hheap.congr rfl)
  have hbase : Frame {b} {d | d ∈ t :: (l1 ++ l2)} m m1 := by
    exact hf1.mono (empty_subset _) (cons_subset_cons t (subset_append_left l1 l2))
  have hoff : (m.chain t).off ≠ 0 := by
    have hoff := h.off
    have hsome := h.some
    omega
  have hout : ∀ d ∈ l2, d ∉ {d | d ∈ t :: l1} := by
    intro d hd hmem
    rcases mem_cons.1 hmem with rfl | hmem
    · exact h.apart (mem_append_right _ hd)
    · exact (nodup_append.1 h.chains.nodup).2.2 d hmem d hd rfl
  have hrest1 : Chains m1 l2.head? l2 (l2.flatMap m.data) := by
    obtain ⟨q, -, hsplit⟩ := h.chains.split
    rw [← hsplit.walk.head]
    exact hsplit.frame hf1 hout
  rw [hm1] at hm'
  cases l2 with
  | nil =>
    obtain rfl := hend rfl
    rw [flatMap_nil, append_nil] at hcs
    rw [Nat.add_zero, ← hcs] at hsum
    let m2 : Memory := (m1.modifyBuf b fun s => { s with last := some t }).setCell (.next t) none
    obtain rfl : m2 = m' := hm'
    have hok' : ChainOk m2 t := hok1.congr rfl rfl hok1.live
    have hchain' : m2.chain t = m.chain t := hchain1
    have hdata : m2.data t = bs ++ cs := by
      apply h.data_eq hchain' _ hsum.symm
      rw [hcs]
      exact hblock1
    have hnext : m2.cell (.next t) = none := by simp [m2]
    have hchains := (Chains.nil m2).cons hok' (by simp) hnext
    rw [hdata, append_nil] at hchains
    refine ⟨hchains, ?_, hchain', ?_, ?_, ?_, hnext, ?_, ?_⟩
    · rw [hdata, take_of_length_le hsum.ge]
    · simpa [hchain'] using hoff
    · simp [m2, hbuf1]
    · simpa [m2] using hfirst1
    · exact (hbase.modifyBuf (mem_singleton b) _).setNext (by simp) none
    · exact hheap1.congr rfl
  | cons c l2 =>
    have hc := hstop c rfl
    have hcout := hout c (by simp)
    have htc : t ≠ c := (ne_of_mem_of_not_mem (by simp) h.apart).symm
    have hok : ChainOk m c := h.chains.ok c (by simp)
    have hchainc : m1.chain c = m.chain c := hf1.chain c hcout
    have hread : ByteBlock.read (m1.block (m1.chain c).buffer) (m1.chain c).misalign r = (m.data c).take r := by
      rw [← hok.data_frame hf1 hcout, Memory.data, take_read _ _ (by rw [hchainc]; exact hc.le)]
    have htake : cs.take s.size = l1.flatMap m.data ++ (m.data c).take r := by
      rw [hcs, hsum, take_length_add_append, flatMap_cons,
        take_append_of_le_length (by rw [length_data]; exact hc.le)]
    have hdrop : cs.drop s.size = ((c :: l2).flatMap m.data).drop r := by
      rw [hcs, hsum, drop_length_add_append]
    let m2 : Memory := m1.memcpy t (s.pos + (l1.flatMap m.data).length) ((m.data c).take r)
    let m3 : Memory := m2.modifyChain c fun ch => ch.drained r
    have htt : t ∈ ({t} : Set ChainId) := rfl
    let m4 : Memory := m3.setCell (.next t) (some c)
    obtain rfl : m4 = m' := by
      rw [← hm']
      simp only [pullupTail, head?_cons, hread, hok1.buffer]
      rfl
    have hf2 : Frame ∅ {t} m1 m2 := refl.memcpy htt _ _
    have hnext : Frame ∅ {t} m3 m4 := refl.setNext htt _
    have hapart : ∀ d ∈ c :: l2, d ∉ ({t} : Set ChainId) :=
      notMem_singleton fun ht => h.apart (mem_append_right _ ht)
    have hle : r ≤ (m2.chain c).off := by
      have hsame : m2.chain c = m.chain c := hchainc
      rw [hsame]
      exact hc.le
    have hshort := ((hrest1.frame hf2 hapart).drained hle).frame hnext hapart
    have hchain' : m4.chain t = m.chain t := by
      rw [← hchain1]
      simp [m4, m3, m2, htc]
    have hok' : ChainOk m4 t := hok1.congr (by simp [m4, m3, m2, htc]) rfl hok1.live
    have hdata : m4.data t = bs ++ cs.take s.size := by
      apply h.data_eq hchain'
      · rw [htake, ← write_append, ← hblock1]
        simp [m4, m3, m2]
      · rw [length_take]
        exact Nat.min_eq_left h.fits
    have hcell : m4.cell (.next t) = some c := by simp [m4]
    have hchains := hshort.cons hok' (fun hmem => hapart t hmem rfl) hcell
    rw [← hdrop, hdata, append_assoc, take_append_drop] at hchains
    refine ⟨hchains, hdata, hchain', ?_, ?_, ?_, hcell, ?_, ?_⟩
    · intro d hd
      rcases mem_cons.1 hd with rfl | hd
      · rw [hchain']
        exact hoff
      · by_cases hdc : d = c
        · subst hdc
          have hkept : (m4.chain d).off = (m.chain d).off - r := by
            rw [← hchainc]
            simp [m4, m3, m2, EvbufferChain.drained]
          omega
        · have hsame : m4.chain d = m.chain d := by
            rw [← hf1.chain d (hout d hd)]
            simp [m4, m3, m2, hdc]
          rw [hsame]
          exact h.full d (mem_append_right _ hd)
    · have hkept : m4.buf b = m.buf b := hbuf1
      have hlast : (t :: c :: l2).getLast? = (m.buf b).last := by
        rw [h.last, getLast?_append_of_ne_nil _ (cons_ne_nil c l2), getLast?_cons_cons]
      rw [hkept, hlast]
    · rw [← hfirst1]
      simp [m4, m3, m2]
    · exact ((hbase.memcpy (by simp) _ _).modifyChain (by simp) _).setNext (by simp) _
    · exact hheap1.congr rfl

lemma pullupInto_result (hheap : HeapOk m) (h : PullupReady m b t l bs cs s) :
    (pullupInto m b t s).1 = some (t, (m.chain t).misalign) ∧
      ByteBlock.read ((pullupInto m b t s).2.block t) (m.chain t).misalign (m.chain t).off = bs ++ cs.take s.size ∧
      ∃ l2, (∀ c ∈ l2, c ∈ l) ∧ Result {d | d ∈ t :: l} m (pullupInto m b t s).2 b (t :: l2) (bs ++ cs) := by
  have hlen := length_lt_fuel h.chains.nodup h.chains.live
  have hfits := h.fits
  rw [← h.chains.data] at hfits
  obtain ⟨l1, l2, r, rfl, hsum, hend, hstop⟩ := exists_split m hfits
  rw [length_append] at hlen
  have hloop := pullupLoop_eq (b := b) (f := m.fuel) s (m.lastWithData b) h.chains h.apart (by omega) hsum hstop
  rw [h.lastWithData, h.datap, h.clear.1, h.clear.2, Bool.false_or, Bool.false_or] at hloop
  generalize hm' : pullupTail (l1.foldl mmFree (m.memcpy t s.pos (l1.flatMap m.data))) b t
      { chain := l2.head?
        size := r
        pos := s.pos + (l1.flatMap m.data).length
        removedLastWithData := l1.any fun c => (l1 ++ l2).getLast? == some c
        removedLastWithDatap := l1.any fun c =>
          after next (.next t) (l1 ++ l2).dropLast == .next c } = m'
  have hpulled := pullupTail_spec hheap h hsum hend hstop _ _ hm'
  have hdatap := pullup_datap (t := t) b h.ne_nil h.chains.nodup
  have hptr : (m'.buf b).lastWithDatap = after next (.next t) (l1 ++ l2).dropLast := by
    rw [hpulled.buf]
    exact h.datap
  have hinto : pullupInto m b t s = (some (t, (m.chain t).misalign), m'.modifyBuf b fun s =>
      { s with lastWithDatap := after next (.first b) (t :: l2).dropLast }) := by
    rw [← hdatap]
    simp only [pullupInto, h.ok.buffer, h.lastWithData, hloop, hm', hptr, hpulled.chain,
      hpulled.first, h.first, hpulled.next]
    cases l2 with
    | nil => rfl
    | cons d l2 => simp [hpulled.full d (by simp)]
  have hdata := hpulled.data
  rw [Memory.data, hpulled.chain, h.ok.buffer] at hdata
  simp only [hinto, true_and]
  refine ⟨hdata, l2, fun c hc => mem_append_right _ hc, ?_, ?_, ?_, ?_⟩
  · have hfirst : m'.cell (.first b) = some t := hpulled.first.trans h.first
    refine ⟨?_, ?_, ?_, ?_, ?_, ?_, ?_⟩
    · have hchains := hpulled.chains
      rw [← hfirst] at hchains
      exact hchains.modifyBuf _
    · simp [hpulled.buf]
    · simp
    · simp [hpulled.buf, h.total]
    · intro d hd hzero
      exact absurd hzero (hpulled.full d hd)
    · simp [hpulled.buf, h.freezeStart]
    · simp [hpulled.buf, h.freezeEnd]
  · intro c hc
    rcases mem_cons.1 hc with rfl | hc <;> simp [*]
  · exact hpulled.frame.modifyBuf (mem_singleton b) _
  · exact hpulled.heap.congr rfl

structure PullupResult (m : Memory) (b : BufId) (l : List ChainId) (bs : Bytes) (n : Nat)
    (r : Option (ChainId × Nat) × Memory) : Prop where
  region : (r.1.map fun p => ByteBlock.read (r.2.block p.1) p.2 n) = some (bs.take n)
  result : ∃ l', Result (own m l) m r.2 b l' bs

lemma ne_nil_of_off_lt (h : Chains m p (c :: l) bs) (hoff : (m.chain c).off < n) (hn : n ≤ bs.length) : l ≠ [] := by
  rintro rfl
  rw [← h.data] at hn
  simp at hn
  omega

lemma pullupInPlace_result (hheap : HeapOk m) (h : Holds m b (c :: l) bs)
    (hoff : (m.chain c).off < n) (hn : n ≤ bs.length)
    (hroom : n ≤ (m.chain c).bufferLen - (m.chain c).misalign) :
    PullupResult m b (c :: l) bs n (pullupInPlace m b c n) := by
  have hl := ne_nil_of_off_lt h.toChains hoff hn
  have hok := h.ok c (by simp)
  have hc : c ∉ l := (nodup_cons.1 h.nodup).1
  have hfirst : m.cell (.first b) = some c := h.walk.1
  have hchains : Chains m (some c) (c :: l) bs := hfirst ▸ h.toChains
  have hbs : bs = m.data c ++ l.flatMap m.data := h.data.symm
  have hfull := h.full_of_ne_nil (by rintro rfl; simp at hn; omega)
  have hlast : l.getLast? = (c :: l).getLast? := by
    rw [getLast?_cons, getLast?_eq_getLast_of_ne_nil hl]
    rfl
  let m0 : Memory := m.modifyChain c fun ch => { ch with off := n }
  have hframe : Frame ∅ {c} m m0 := refl.modifyChain (mem_singleton c) _
  have hout := notMem_singleton hc
  have hready : PullupReady m0 b c l (m.data c) (l.flatMap m.data)
      { chain := m0.cell (.next c)
        size := n - (m.chain c).off
        pos := (m.chain c).misalign + (m.chain c).off } := by
    constructor
    case chains => exact h.tail.frame hframe hout
    case ok =>
      refine hok.modify rfl rfl ?_ ?_ ?_ ?_ ?_ <;>
        simp only [m0, Memory.modifyChain, update_self]
      omega
    case apart => exact hc
    case first => exact hfirst
    case off =>
      simp [m0]
      omega
    case pos => simp [m0]
    case held => simp [m0, Memory.data, hok.buffer]
    case last => exact h.last.trans hlast.symm
    case datap => exact (datap_cons hchains hl h.datap).1
    case lastWithData => exact h.lastWithData.trans hlast.symm
    case total => exact h.total.trans (by rw [hbs])
    case full =>
      intro d hd
      rw [hframe.chain d (hout d hd)]
      exact hfull d (by simp [hd])
    case freezeStart => exact h.freezeStart
    case freezeEnd => exact h.freezeEnd
    case fits =>
      rw [hbs, length_append, length_data] at hn
      simp only
      omega
    case some =>
      simp only
      omega
    case clear => exact ⟨rfl, rfl⟩
  have hheap0 : HeapOk m0 := hheap.congr rfl
  obtain ⟨hptr, hread, l2, -, hres⟩ := pullupInto_result hheap0 hready
  have htake : bs.take n = m.data c ++ (l.flatMap m.data).take (n - (m.chain c).off) := by
    rw [hbs, take_append, length_data, take_of_length_le (by rw [length_data]; omega)]
  have hown : {d | d ∈ c :: l} ⊆ own m (c :: l) := fun d hd => .inl hd
  refine ⟨?_, c :: l2, ?_⟩
  · rw [pullupInPlace, hptr, htake, ← hread]
    simp [m0]
  · rw [← hbs] at hres
    exact (hres.mono hown).after (hframe.mono (empty_subset _) (by simp [own]))

lemma pullupNewChain_result (h : Holds m b (c :: l) bs) (hnew : NewChain m m' t n)
    (hoff : (m.chain c).off < n) (hn : n ≤ bs.length) : PullupResult m b (c :: l) bs n (pullupInto
      ((m'.modifyChain t fun ch => { ch with off := n }).setCell (.first b) (some t)) b t
      { chain := some c, size := n, pos := 0 }) := by
  have hl := ne_nil_of_off_lt h.toChains hoff hn
  have hfirst : m.cell (.first b) = some c := h.walk.1
  have hchains : Chains m (some c) (c :: l) bs := hfirst ▸ h.toChains
  have hfull := h.full_of_ne_nil (by rintro rfl; simp at hn; omega)
  have ht : t ∉ c :: l := fun hmem => hnew.dead (h.live t hmem)
  have hroom := hnew.room
  let m0 : Memory := (m'.modifyChain t fun ch => { ch with off := n }).setCell (.first b) (some t)
  have hframe : Frame {b} {t} m m0 :=
    ((hnew.frame.mono (empty_subset _) subset_rfl).modifyChain (mem_singleton t) _).setFirst (mem_singleton b) _
  have hout := notMem_singleton ht
  have hbuf : m0.buf b = m.buf b := congrFun hnew.buf b
  have hdrop : (c :: l).dropLast ≠ [] := by
    obtain ⟨d, l, rfl⟩ := exists_cons_of_ne_nil hl
    simp
  have hdatap := h.datap
  rw [after_congr hdrop _ (next t)] at hdatap
  have hready : PullupReady m0 b t (c :: l) [] bs { chain := some c, size := n, pos := 0 } := by
    constructor
    case chains => exact hchains.frame hframe hout
    case ok =>
      refine hnew.ok.modify rfl rfl ?_ ?_ ?_ ?_ ?_ <;>
        simp only [m0, Memory.modifyChain, Memory.setCell, update_self]
      rw [hnew.misalign]
      omega
    case apart => exact ht
    case first => simp [m0]
    case off => simp [m0]
    case pos => simp [m0, hnew.misalign]
    case held => rfl
    case last => rw [hbuf, h.last]
    case datap => rw [hbuf, hdatap]
    case lastWithData =>
      have hmem := dropLast_subset _ (getLast_mem hdrop)
      have hcell := hframe.next _ (hout _ hmem)
      rw [← h.lastWithData, Memory.lastWithData, Memory.lastWithData, hbuf, h.datap,
        after_eq_of_ne_nil hdrop, hcell]
    case total => rw [hbuf, h.total, nil_append]
    case full =>
      intro d hd
      rw [hframe.chain d (hout d hd)]
      exact hfull d hd
    case freezeStart => rw [hbuf, h.freezeStart]
    case freezeEnd => rw [hbuf, h.freezeEnd]
    case fits => exact hn
    case some =>
      simp only
      omega
    case clear => exact ⟨rfl, rfl⟩
  have hheap0 : HeapOk m0 := hnew.heap.congr rfl
  obtain ⟨hptr, hread, l2, -, hres⟩ := pullupInto_result hheap0 hready
  have hown : {d | d ∈ t :: c :: l} ⊆ own m (c :: l) :=
    forall_mem_cons.2 ⟨.inr hnew.dead, fun d hd => .inl hd⟩
  refine ⟨?_, t :: l2, ?_⟩
  · rw [nil_append] at hread
    rw [hptr, ← hread]
    simp [m0]
  · exact (hres.mono hown).after (hframe.mono subset_rfl (by simp [own, hnew.dead]))

lemma evbufferPullup_result {size : Int} (hheap : HeapOk m) (h : Holds m b l bs)
    (hoom : (evbufferPullup m b size).2.oom = false) :
    if pullupSize bs.length size = 0 ∨ bs.length < pullupSize bs.length size then
      evbufferPullup m b size = (none, m)
    else PullupResult m b l bs (pullupSize bs.length size) (evbufferPullup m b size) := by
  unfold evbufferPullup at hoom ⊢
  simp only [h.total] at hoom ⊢
  generalize pullupSize bs.length size = n at hoom ⊢
  by_cases hnone : n = 0 ∨ bs.length < n
  · rw [if_pos hnone, if_pos hnone]
  rw [if_neg hnone] at hoom ⊢
  rw [if_neg hnone]
  obtain ⟨hpos, hn⟩ := not_or.1 hnone
  have hlen := h.length_le hheap
  cases l with
  | nil =>
    have hbs : bs = [] := h.data.symm
    rw [hbs] at hn
    simp at hn
    omega
  | cons c l =>
    have hfirst : m.cell (.first b) = some c := h.walk.1
    have hok := h.ok c (by simp)
    have hassert : m.evutilAssert (n - (m.chain c).off ≤ evSsizeMax) = m :=
      evutilAssert_of (by omega)
    have hpin : pullupPinned m.fuel m (m.cell (.next c)) (n - (m.chain c).off) = (m, false) := by
      apply pullupPinned_eq h.tail
      exact (length_lt_fuel h.tail.nodup h.tail.live).le
    simp only [hfirst, hassert, hpin, hok.not_pinned] at hoom ⊢
    by_cases hoff : n ≤ (m.chain c).off
    · rw [if_pos hoff]
      refine ⟨?_, c :: l, h, fun d hd => .inl hd, refl, hheap⟩
      have hbs : bs = m.data c ++ l.flatMap m.data := h.data.symm
      have htake : bs.take n = (m.data c).take n := by
        rw [hbs, take_append_of_le_length (by rw [length_data]; exact hoff)]
      rw [htake, Memory.data, take_read _ _ hoff]
      rfl
    rw [if_neg hoff, if_neg (by simp)] at hoom ⊢
    by_cases hroom : n ≤ (m.chain c).bufferLen - (m.chain c).misalign
    · rw [if_pos hroom]
      exact pullupInPlace_result hheap h (by omega) (by omega) hroom
    · rw [if_neg hroom] at hoom ⊢
      obtain ⟨m', hnew, hm'⟩ | ⟨t, m', hnew, hspec⟩ := evbufferChainNew_cases hheap n
      · simp [hnew, hm'] at hoom
      · rw [hnew]
        exact pullupNewChain_result h hspec (by omega) (by omega)

end Pullup

end MyLibevent.Proofs
