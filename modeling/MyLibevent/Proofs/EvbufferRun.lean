import MyLibevent.Proofs.Evbuffer

/-!
Runs of calls on any number of evbuffers: together they behave as plain lists of bytes.
-/

namespace MyLibevent.Proofs

open LinkedCells List EvbufferCall

structure BuffersOk (m : Memory) (A : ByteBuffers) (L : BufId → List ChainId) : Prop where
  heap : HeapOk m
  holds : ∀ b, Holds m b (L b) (A b)
  disjoint : ∀ b b', b ≠ b' → ∀ c ∈ L b, c ∉ L b'

section Step

variable {m m' : Memory} {A : ByteBuffers} {L : BufId → List ChainId} {b b1 b2 : BufId}
  {l l1 l2 : List ChainId} {bs bs1 bs2 : Bytes}

section

variable (h : BuffersOk m A L)
include h

lemma BuffersOk.replace {B : Set BufId} {k : List ChainId} {A' : ByteBuffers}
    {L' : BufId → List ChainId} (hheap : HeapOk m')
    (hframe : Frame B (own m k) m m') (hk : ∀ b, b ∉ B → ∀ c ∈ L b, c ∉ k)
    (hin : ∀ b ∈ B, Holds m' b (L' b) (A' b)) (hwithin : ∀ b ∈ B, ∀ c ∈ L' b, c ∈ own m k)
    (hdisj : ∀ b ∈ B, ∀ b' ∈ B, b ≠ b' → ∀ c ∈ L' b, c ∉ L' b')
    (hA : ∀ b, b ∉ B → A' b = A b) (hL : ∀ b, b ∉ B → L' b = L b) : BuffersOk m' A' L' := by
  have hforeign : ∀ b, b ∉ B → ∀ c ∈ L' b, c ∉ own m k := by
    intro b hb c hc hown
    rw [hL b hb] at hc
    rcases hown with hmem | hdead
    · exact hk b hb c hc hmem
    · exact hdead ((h.holds b).live c hc)
  refine ⟨hheap, ?_, ?_⟩
  · intro b
    by_cases hb : b ∈ B
    · exact hin b hb
    · have hout := hforeign b hb
      rw [hL b hb] at hout ⊢
      rw [hA b hb]
      exact (h.holds b).frame hframe hb hout
  · intro b b' hne c hc hc'
    by_cases hb : b ∈ B
    · by_cases hb' : b' ∈ B
      · exact hdisj b hb b' hb' hne c hc hc'
      · exact hforeign b' hb' c hc' (hwithin b hb c hc)
    · by_cases hb' : b' ∈ B
      · exact hforeign b hb c hc (hwithin b' hb' c hc')
      · rw [hL b hb] at hc
        rw [hL b' hb'] at hc'
        exact h.disjoint b b' hne c hc hc'

lemma BuffersOk.update (hres : Result (own m (L b)) m m' b l bs) :
    BuffersOk m' (Function.update A b bs) (Function.update L b l) := by
  apply h.replace hres.heap hres.frame (fun b' hb' => h.disjoint b' b hb')
  · rintro b' rfl
    simpa using hres.holds
  · rintro b' rfl
    simpa using hres.within
  · rintro b' rfl b'' rfl hne
    exact absurd rfl hne
  · intro b' hb'
    exact Function.update_of_ne hb' _ _
  · intro b' hb'
    exact Function.update_of_ne hb' _ _

lemma BuffersOk.update₂ (hne : b1 ≠ b2)
    (hres : Result₂ (own m (L b1 ++ L b2)) m m' b1 b2 l1 l2 bs1 bs2) :
    BuffersOk m' (Function.update (Function.update A b1 bs1) b2 bs2)
      (Function.update (Function.update L b1 l1) b2 l2) := by
  have hout : ∀ b, b ∉ ({b1, b2} : Set BufId) → b ≠ b1 ∧ b ≠ b2 := by
    intro b hb
    simpa using hb
  apply h.replace hres.heap hres.frame
  · intro b hb c hc hmem
    obtain ⟨h1, h2⟩ := hout b hb
    rcases mem_append.1 hmem with hmem | hmem
    · exact h.disjoint b b1 h1 c hc hmem
    · exact h.disjoint b b2 h2 c hc hmem
  · rintro b (rfl | rfl)
    · simpa [hne] using hres.left
    · simpa using hres.right
  · rintro b (rfl | rfl) c hc
    · exact hres.within c (mem_append_left _ (by simpa [hne] using hc))
    · exact hres.within c (mem_append_right _ (by simpa using hc))
  · rintro b (rfl | rfl) b' (rfl | rfl) hb
    · exact absurd rfl hb
    · simpa [hne] using hres.disjoint
    · simpa [hne] using fun c hc hc' => hres.disjoint c hc' hc
    · exact absurd rfl hb
  · intro b hb
    simp [hout b hb]
  · intro b hb
    simp [hout b hb]

lemma run_step (call : EvbufferCall) (hoom : (call.run m).2.oom = false) :
    (call.run m).1 = (call.spec A).1 ∧ ∃ L', BuffersOk (call.run m).2 (call.spec A).2 L' := by
  cases call with
  | add b data =>
    have hres := evbufferAdd_result h.heap (h.holds b) hoom
    simp only [run, spec]
    split_ifs at hres with hbig
    · rw [if_pos hbig, hres]
      exact ⟨rfl, L, h⟩
    · obtain ⟨hcode, l, hres⟩ := hres
      rw [if_neg hbig, hcode]
      exact ⟨rfl, _, h.update hres⟩
  | prepend b data =>
    have hres := evbufferPrepend_result h.heap (h.holds b) hoom
    simp only [run, spec]
    split_ifs at hres with hbig
    · rw [if_pos hbig, hres]
      exact ⟨rfl, L, h⟩
    · obtain ⟨hcode, l, hres⟩ := hres
      rw [if_neg hbig, hcode]
      exact ⟨rfl, _, h.update hres⟩
  | drain b len =>
    obtain ⟨hcode, l, hres⟩ := evbufferDrain_result h.heap (h.holds b) len
    simp only [run, spec, hcode]
    exact ⟨trivial, _, h.update hres⟩
  | copyout b datlen =>
    simp only [run, spec, evbufferCopyout_eq (h.holds b) datlen]
    exact ⟨trivial, L, h⟩
  | remove b datlen =>
    obtain ⟨hcode, l, hres⟩ := evbufferRemove_result h.heap (h.holds b) datlen
    simp only [run, spec, hcode]
    exact ⟨trivial, _, h.update hres⟩
  | addBuffer outbuf inbuf =>
    simp only [run, spec]
    by_cases hne : outbuf = inbuf
    · subst hne
      simp only [evbufferAddBuffer, or_true, if_true]
      exact ⟨trivial, L, h⟩
    · obtain ⟨hcode, l, k, hres⟩ := evbufferAddBuffer_result h.heap (h.holds outbuf)
        (h.holds inbuf) (h.disjoint outbuf inbuf hne) hne
      rw [if_neg hne, hcode]
      exact ⟨rfl, _, h.update₂ hne hres⟩
  | prependBuffer outbuf inbuf =>
    simp only [run, spec]
    by_cases hne : outbuf = inbuf
    · subst hne
      simp only [evbufferPrependBuffer, or_true, if_true]
      exact ⟨trivial, L, h⟩
    · obtain ⟨hcode, l, k, hres⟩ := evbufferPrependBuffer_result h.heap (h.holds outbuf)
        (h.holds inbuf) (h.disjoint outbuf inbuf hne) hne
      rw [if_neg hne, hcode]
      exact ⟨rfl, _, h.update₂ hne hres⟩
  | removeBuffer src dst datlen =>
    simp only [run, spec]
    by_cases hne : dst = src
    · subst hne
      simp only [evbufferRemoveBuffer, or_true, if_true]
      exact ⟨trivial, L, h⟩
    · obtain ⟨hcode, l, k, hres⟩ := evbufferRemoveBuffer_result h.heap (Ne.symm hne)
        (h.holds src) (h.holds dst) (h.disjoint src dst (Ne.symm hne)) hoom
      rw [if_neg hne, hcode, Function.update_comm hne]
      exact ⟨rfl, _, h.update₂ (Ne.symm hne) hres⟩
  | pullup b size =>
    have hres := evbufferPullup_result h.heap (h.holds b) hoom
    simp only [run, spec, (h.holds b).total]
    split_ifs at hres with hnone
    · rw [if_pos hnone, hres]
      exact ⟨rfl, L, h⟩
    · obtain ⟨hregion, l, hres⟩ := hres
      rw [if_neg hnone, hregion]
      have hok := h.update hres
      rw [Function.update_eq_self] at hok
      exact ⟨rfl, _, hok⟩

lemma run_calls (calls : List EvbufferCall) {replies : List EvbufferReply}
    (hrun : evbufferRun calls m = some (replies, m')) :
    replies = (specRun calls A).1 ∧ ∃ L', BuffersOk m' (specRun calls A).2 L' := by
  induction calls generalizing m A L replies with
  | nil =>
    obtain ⟨rfl, rfl⟩ : [] = replies ∧ m = m' := by simpa [evbufferRun] using hrun
    exact ⟨rfl, L, h⟩
  | cons call calls ih =>
    simp only [evbufferRun] at hrun
    split at hrun
    · simp at hrun
    · rename_i hoom
      obtain ⟨⟨rest, m''⟩, hrest, heq⟩ := Option.map_eq_some_iff.1 hrun
      obtain ⟨rfl, rfl⟩ := Prod.mk.inj heq
      obtain ⟨hreply, L', h'⟩ := run_step h call (by simpa using hoom)
      obtain ⟨hreplies, hok⟩ := ih h' hrest
      refine ⟨?_, hok⟩
      rw [specRun, ← hreply, ← hreplies]

end

lemma start_ok (grant : Nat → Bool) (chain : ChainId → EvbufferChain)
    (block : ChainId → Nat → UInt8) :
    BuffersOk (Memory.start grant chain block) (fun _ => []) (fun _ => []) := by
  refine ⟨⟨nodup_nil, by simp [Memory.start], by simp [Memory.used, Memory.start], rfl⟩, ?_, ?_⟩
  · intro b
    exact ⟨Chains.nil _, rfl, rfl, rfl, by simp, rfl, rfl⟩
  · simp

end Step

/-- The pointer `last_with_datap` leads to the last chain that holds data; without one it is the
head pointer. -/
def DesignatesLastWithData (m : Memory) (b : BufId) (l : List ChainId) : Prop :=
  ((∀ c ∈ l, m.data c = []) ∧ (m.buf b).lastWithDatap = .first b) ∨
    ∃ l1 c l2, l = l1 ++ c :: l2 ∧ m.data c ≠ [] ∧ (∀ d ∈ l2, m.data d = []) ∧
      (m.buf b).lastWithDatap = after ChainPtr.next (.first b) l1 ∧
      m.cell (m.buf b).lastWithDatap = some c

lemma Holds.designates {m : Memory} {b : BufId} {l : List ChainId} {bs : Bytes}
    (h : Holds m b l bs) : DesignatesLastWithData m b l := by
  rcases h.cases with ⟨c, rfl, hoff⟩ | hfull
  · left
    refine ⟨?_, h.datap⟩
    intro d hd
    rw [mem_singleton.1 hd]
    exact data_eq_nil hoff
  · rcases l.eq_nil_or_concat with rfl | ⟨l', c, rfl⟩
    · exact .inl ⟨by simp, h.datap⟩
    · right
      rw [concat_eq_append] at h hfull ⊢
      have hdatap := h.datap
      have hcell := h.lastWithData
      rw [dropLast_concat] at hdatap
      rw [Memory.lastWithData, getLast?_concat] at hcell
      refine ⟨l', c, [], rfl, ?_, by simp, hdatap, hcell⟩
      intro hnil
      have hlen := length_data m c
      rw [hnil] at hlen
      exact hfull c (by simp) hlen.symm

end MyLibevent.Proofs
