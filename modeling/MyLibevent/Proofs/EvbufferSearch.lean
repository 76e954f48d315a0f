import MyLibevent.EvbufferSearch

/-!
# Searching does not depend on the chains

A pointer into a buffer stands for a position of its bytes. What the functions find is described by the
bytes alone.
-/

namespace MyLibevent.Proofs

open Segments List

section Pointers

variable {chains : List Bytes} {p : EvbufferPtr} {n i j : Nat}

structure PtrAt (chains : List Bytes) (p : EvbufferPtr) (n : Nat) : Prop where
  pos : p.pos = n
  place : (p.chain = none ∧ n = chains.flatten.length) ∨
    ∃ i, p.chain = some i ∧ i < chains.length ∧ p.posInChain ≤ (segment chains i).length ∧
      n = offset chains i + p.posInChain

lemma ptrAt_chain (hi : i < chains.length) (hj : j ≤ (segment chains i).length)
    (hn : n = offset chains i + j) : PtrAt chains ⟨n, some i, j⟩ n :=
  ⟨rfl, .inr ⟨i, rfl, hi, hj, hn⟩⟩

lemma PtrAt.le (h : PtrAt chains p n) : n ≤ chains.flatten.length := by
  rcases h.place with ⟨-, hn⟩ | ⟨i, -, hi, hj, hn⟩
  · exact hn.le
  · rw [hn]
    exact offset_add_le hi hj

lemma ptrAt_nextChain (hi : i < chains.length) :
    PtrAt chains ⟨(offset chains (i + 1) : Nat), nextChain chains i, 0⟩ (offset chains (i + 1)) := by
  unfold nextChain
  split_ifs with hnext
  · exact ptrAt_chain hnext (Nat.zero_le _) rfl
  · exact ⟨rfl, .inl ⟨rfl, offset_of_length_le (by omega)⟩⟩

lemma startPtr_at (chains : List Bytes) : PtrAt chains (startPtr chains) 0 := by
  unfold startPtr firstChain
  split_ifs with hnil
  · subst hnil
    exact ⟨rfl, .inl ⟨rfl, rfl⟩⟩
  · exact ptrAt_chain (length_pos_iff.2 hnil) (Nat.zero_le _) rfl

lemma ptrSetLoop_spec (chains : List Bytes) {position : Nat} (left : Nat) (hi : i ≤ chains.length)
    (hp : position ≤ (segment chains i).length) :
    (∃ k r left', ptrSetLoop (chains.drop i) i position left = (some k, r, left') ∧ k < chains.length ∧
        r + left' < (segment chains k).length ∧
        offset chains i + (position + left) = offset chains k + (r + left')) ∨
      ∃ r left', ptrSetLoop (chains.drop i) i position left = (none, r, left') ∧
        offset chains i + (position + left) = chains.flatten.length + left' := by
  induction hm : chains.length - i generalizing i position left with
  | zero =>
    have hend : i = chains.length := by omega
    have hnil : segment chains i = [] := getD_eq_default _ _ hend.ge
    rw [hnil, length_nil] at hp
    rw [hend, drop_length]
    refine .inr ⟨position, left, rfl, ?_⟩
    rw [offset_of_length_le le_rfl, Nat.le_zero.1 hp, Nat.zero_add]
  | succ m ih =>
    have hlt : i < chains.length := by omega
    rw [drop_eq_cons hlt, ptrSetLoop]
    split_ifs with hwhole
    · have hstep : offset chains i + (position + left) =
          offset chains (i + 1) + (0 + (left - ((segment chains i).length - position))) := by
        rw [offset_succ hlt]
        omega
      rw [hstep]
      exact ih _ hlt (Nat.zero_le _) (by omega)
    · exact .inl ⟨i, position, left, rfl, hlt, by omega, rfl⟩

lemma evbufferPtrSet_at (p : EvbufferPtr) (hn : n ≤ chains.flatten.length) :
    (evbufferPtrSet chains p n .set).1 = 0 ∧ PtrAt chains (evbufferPtrSet chains p n .set).2 n := by
  unfold evbufferPtrSet ptrSetFrom firstChain
  by_cases hnil : chains = []
  · subst hnil
    rw [flatten_nil, length_nil, Nat.le_zero] at hn
    subst hn
    exact ⟨rfl, rfl, .inl ⟨rfl, rfl⟩⟩
  · have hloop := ptrSetLoop_spec chains n (Nat.zero_le _) (Nat.zero_le _)
    rw [if_neg hnil]
    dsimp only
    rw [offset_zero, Nat.zero_add, Nat.zero_add] at hloop
    rcases hloop with ⟨k, r, left, heq, hk, hle, hpos⟩ | ⟨r, left, heq, hpos⟩
    · rw [heq]
      exact ⟨rfl, ptrAt_chain hk hle.le hpos⟩
    · have hleft : left = 0 := by omega
      rw [heq, hleft]
      exact ⟨rfl, rfl, .inl ⟨rfl, by omega⟩⟩

end Pointers

section Matches

variable {chains : List Bytes} {what data : Bytes} {n i j : Nat} {chr : UInt8}

def OccursAt (content what : Bytes) (n : Nat) : Prop := what <+: content.drop n

lemma prefix_append_iff {a b l : Bytes} (h : a.length ≤ l.length) :
    l <+: a ++ b ↔ a = l.take a.length ∧ l.drop a.length <+: b := by
  constructor
  · rintro ⟨t, ht⟩
    have hcut : a = l.take a.length := by
      have htake := congrArg (List.take a.length) ht
      rw [take_append_of_le_length h, take_left] at htake
      exact htake.symm
    refine ⟨hcut, t, ?_⟩
    have hdrop := congrArg (List.drop a.length) ht
    rwa [drop_append_of_le_length h, drop_left] at hdrop
  · rintro ⟨hcut, t, ht⟩
    refine ⟨t, ?_⟩
    conv_rhs => rw [hcut, ← ht]
    rw [← append_assoc, take_append_drop]

lemma ptrMemcmpLoop_iff (chains : List Bytes) {mem : Bytes}
    (hj : ∀ chain ∈ chains.head?, j ≤ chain.length) (hlen : mem.length + j ≤ chains.flatten.length) :
    ptrMemcmpLoop chains j mem ↔ mem <+: chains.flatten.drop j := by
  induction chains generalizing j mem with
  | nil =>
    have hnil : mem = [] := by
      rw [flatten_nil, length_nil] at hlen
      exact length_eq_zero_iff.1 (by omega)
    subst hnil
    exact iff_of_true rfl nil_prefix
  | cons chain chains ih =>
    have hj : j ≤ chain.length := hj chain rfl
    rw [flatten_cons, length_append] at hlen
    rw [flatten_cons, drop_append_of_le_length hj, ptrMemcmpLoop]
    split
    · rename_i hnil
      subst hnil
      exact iff_of_true rfl nil_prefix
    dsimp only
    split
    · rename_i hlong
      have hn : chain.length - j = (chain.drop j).length := by rw [length_drop]
      rw [hn, take_length, prefix_append_iff (by rw [length_drop]; omega)]
      split
      · rename_i heq
        rw [and_iff_right heq, ih (fun _ _ => Nat.zero_le _), drop_zero]
        rw [length_drop, length_drop]
        omega
      · rename_i hne
        exact iff_of_false Bool.false_ne_true fun h => hne h.1
    · rename_i hshort
      have hle : mem.length ≤ (chain.drop j).length := by
        rw [length_drop]
        omega
      rw [take_length, drop_length, prefix_iff_eq_take, take_append_of_le_length hle]
      split
      · rename_i heq
        refine iff_of_true ?_ heq.symm
        cases chains <;> rfl
      · rename_i hne
        exact iff_of_false Bool.false_ne_true fun h => hne h.symm

lemma evbufferPtrMemcmp_iff (what : Bytes) {p : EvbufferPtr} (hp : PtrAt chains p n) (hi : p.chain = some i)
    (hfits : chains.flatten.length ≤ evSsizeMax) :
    evbufferPtrMemcmp chains p what ↔ OccursAt chains.flatten what n := by
  obtain ⟨i', hi', hlt, hj, hn⟩ : ∃ i', p.chain = some i' ∧ i' < chains.length ∧
      p.posInChain ≤ (segment chains i').length ∧ n = offset chains i' + p.posInChain := by
    rcases hp.place with ⟨hnone, -⟩ | hplace
    · rw [hnone] at hi
      cases hi
    · exact hplace
  have hle := hp.le
  unfold evbufferPtrMemcmp OccursAt
  rw [hp.pos]
  by_cases hlong : chains.flatten.length < n + what.length
  · rw [if_pos (by omega)]
    refine iff_of_false Bool.false_ne_true fun hpre => ?_
    have hlen := hpre.length_le
    rw [length_drop] at hlen
    omega
  · have hsize : evSsizeMax < evSizeMax := by decide
    rw [if_neg (by omega), hi']
    have htail : chains.flatten.drop n = (chains.drop i').flatten.drop p.posInChain := by
      rw [hn, drop_offset_add hlt hj, drop_eq_cons hlt, flatten_cons, drop_append_of_le_length hj]
    rw [htail]
    apply ptrMemcmpLoop_iff
    · intro chain hchain
      rw [drop_eq_cons hlt, head?_cons, Option.mem_some_iff] at hchain
      rw [← hchain]
      exact hj
    · have hrest := congrArg List.length htail
      rw [length_drop, length_drop] at hrest
      rw [drop_eq_cons hlt, flatten_cons, length_append] at hrest ⊢
      omega

lemma OccursAt.head (h : OccursAt chains.flatten what (offset chains i + j)) (hwhat : what ≠ [])
    (hi : i < chains.length) (hj : j < (segment chains i).length) :
    (segment chains i)[j]? = some (what.headD 0) := by
  obtain ⟨t, ht⟩ := h
  rw [drop_offset_add hi hj.le, drop_eq_getElem_cons hj] at ht
  cases what with
  | nil => exact absurd rfl hwhat
  | cons b rest =>
    rw [cons_append, cons_append, List.cons.injEq] at ht
    rw [getElem?_eq_getElem hj, ← ht.1]
    rfl

lemma memchr_some {d : Nat} (h : memchr data chr = some d) :
    data[d]? = some chr ∧ ∀ t < d, data[t]? ≠ some chr := by
  obtain ⟨hd, hchr, hbefore⟩ := findIdx?_eq_some_iff_getElem.1 h
  refine ⟨?_, ?_⟩
  · rw [getElem?_eq_getElem hd, beq_iff_eq.1 hchr]
  · intro t ht heq
    rw [getElem?_eq_getElem (by omega), Option.some.injEq] at heq
    exact hbefore t ht (beq_iff_eq.2 heq)

lemma memchr_none (h : memchr data chr = none) (t : Nat) : data[t]? ≠ some chr := by
  intro heq
  have hmem := mem_of_getElem? heq
  exact Bool.false_ne_true ((findIdx?_eq_none_iff.1 h chr hmem).symm.trans (beq_self_eq_true chr))

end Matches

section Range

variable {chains : List Bytes} {what : Bytes} {endAt : Option EvbufferPtr} {n i j k : Nat}

def occurrences (content what : Bytes) (n : Nat) (endAt : Option EvbufferPtr) : Set Nat :=
  {r | n ≤ r ∧ OccursAt content what r ∧ ∀ e ∈ endAt, r + what.length ≤ e.pos}

def FindsLeast (chains : List Bytes) (p : EvbufferPtr) (positions : Set Nat) : Prop :=
  (∃ r, PtrAt chains p r ∧ IsLeast positions r) ∨ p = ptrNotFound ∧ positions = ∅

lemma occurrences_skip (endAt : Option EvbufferPtr) {m : Nat} (hnm : n ≤ m)
    (hno : ∀ r, n ≤ r → r < m → ¬OccursAt chains.flatten what r) :
    occurrences chains.flatten what n endAt = occurrences chains.flatten what m endAt := by
  ext r
  constructor
  · rintro ⟨hr, hocc, hend⟩
    refine ⟨?_, hocc, hend⟩
    by_contra hlt
    exact hno r hr (not_le.1 hlt) hocc
  · rintro ⟨hr, hocc, hend⟩
    exact ⟨hnm.trans hr, hocc, hend⟩

lemma no_occurrence (hwhat : what ≠ []) (hi : i < chains.length) {d : Nat}
    (hd : ∀ t < d, ((segment chains i).drop j)[t]? ≠ some (what.headD 0))
    (hlen : j + d ≤ (segment chains i).length) (r : Nat) (hlow : offset chains i + j ≤ r)
    (hhigh : r < offset chains i + (j + d)) : ¬OccursAt chains.flatten what r := by
  intro hocc
  obtain ⟨t, rfl⟩ := Nat.exists_eq_add_of_le hlow
  rw [Nat.add_assoc] at hocc
  have hhead := hocc.head hwhat hi (by omega)
  rw [← getElem?_drop] at hhead
  exact hd t (by omega) hhead

lemma not_occurs_of_empty (hwhat : what ≠ []) (hn : chains.flatten.length ≤ n) :
    ¬OccursAt chains.flatten what n := by
  intro hocc
  have hlen := hocc.length_le
  rw [length_drop] at hlen
  exact hwhat (length_eq_zero_iff.1 (by omega))

lemma occurrences_behind_end (hwhat : what ≠ []) {e : EvbufferPtr} (he : endAt = some e) {ne : Nat}
    (hat : PtrAt chains e ne) (hi : e.chain = some i) (hlt : i < chains.length) :
    occurrences chains.flatten what (offset chains (i + 1)) endAt = ∅ := by
  have hne : ne ≤ offset chains (i + 1) := by
    rcases hat.place with ⟨hnone, -⟩ | ⟨i', hi', -, hj, hn⟩
    · rw [hnone] at hi
      cases hi
    · rw [hi'] at hi
      cases hi
      rw [hn, offset_succ hlt]
      omega
  have hpos := length_pos_iff.2 hwhat
  rw [Set.eq_empty_iff_forall_notMem]
  rintro r ⟨hr, -, hend⟩
  have hle := hend e he
  rw [hat.pos] at hle
  omega

lemma searchLoop_finds (hwhat : what ≠ []) (hfits : chains.flatten.length ≤ evSsizeMax)
    (hend : ∀ e ∈ endAt, ∃ ne, PtrAt chains e ne) {p : EvbufferPtr} (hp : PtrAt chains p n)
    (hk : chains.flatten.length - n + (chains.length - p.chain.getD chains.length) < k) :
    FindsLeast chains (searchLoop chains what endAt k p) (occurrences chains.flatten what n endAt) := by
  induction k generalizing n p with
  | zero => omega
  | succ k ih =>
    unfold searchLoop
    rcases hp.place with ⟨hnone, hn⟩ | ⟨i, hsome, hlt, hj, hn⟩
    · rw [hnone]
      refine .inr ⟨rfl, Set.eq_empty_iff_forall_notMem.2 ?_⟩
      rintro r ⟨hr, hocc, -⟩
      exact not_occurs_of_empty hwhat (by omega) hocc
    rw [hsome, Option.getD_some] at hk
    rw [hsome]
    dsimp only
    have hnext : chains.length - (nextChain chains i).getD chains.length < chains.length - i := by
      unfold nextChain
      split
      · rw [Option.getD_some]
        omega
      · rw [Option.getD_none]
        omega
    have htotal := offset_le chains (i + 1)
    rw [offset_succ hlt] at htotal
    cases hfound : memchr ((segment chains i).drop p.posInChain) (what.headD 0) with
    | none =>
      dsimp only
      have hno : ∀ r, n ≤ r → r < offset chains (i + 1) → ¬OccursAt chains.flatten what r := by
        intro r hlow hhigh
        rw [offset_succ hlt] at hhigh
        exact no_occurrence hwhat hlt (d := (segment chains i).length - p.posInChain)
          (fun t _ => memchr_none hfound t) (by omega) r (by omega) (by omega)
      rw [occurrences_skip endAt (by rw [offset_succ hlt]; omega) hno]
      split_ifs with hlast
      · obtain ⟨e, he, hchain⟩ := (Option.any_eq_true _ _).1 hlast
        obtain ⟨ne, hat⟩ := hend e he
        exact .inr ⟨rfl, occurrences_behind_end hwhat he hat (of_decide_eq_true hchain) hlt⟩
      · have hstep : p.pos + ((segment chains i).length - p.posInChain : Nat) = (offset chains (i + 1) : Nat) := by
          rw [hp.pos, hn, offset_succ hlt]
          omega
        rw [hstep]
        refine ih (ptrAt_nextChain hlt) ?_
        rw [offset_succ hlt]
        dsimp only
        omega
    | some d =>
      obtain ⟨hbyte, hbefore⟩ := memchr_some hfound
      have hd : p.posInChain + d < (segment chains i).length := by
        obtain ⟨hlen, -⟩ := List.getElem?_eq_some_iff.1 hbyte
        rw [length_drop] at hlen
        omega
      have hfree : ∀ r, n ≤ r → r < n + d → ¬OccursAt chains.flatten what r := by
        intro r hlow hhigh
        exact no_occurrence hwhat hlt hbefore hd.le r (by omega) (by omega)
      have hat : PtrAt chains ⟨p.pos + d, some i, p.posInChain + d⟩ (n + d) := by
        rw [hp.pos]
        exact ptrAt_chain hlt hd.le (by omega)
      have hmemcmp := evbufferPtrMemcmp_iff what hat rfl hfits
      rw [occurrences_skip endAt (Nat.le_add_right n d) hfree]
      dsimp only
      split
      · rename_i hequal
        have hocc := hmemcmp.1 hequal
        split
        · rename_i hlate
          obtain ⟨e, he, hlate⟩ := (Option.any_eq_true _ _).1 hlate
          have hlate := of_decide_eq_true hlate
          refine .inr ⟨rfl, Set.eq_empty_iff_forall_notMem.2 ?_⟩
          rintro r ⟨hr, -, hends⟩
          have hle := hends e he
          rw [hp.pos] at hlate
          omega
        · rename_i hearly
          refine .inl ⟨n + d, hat, ⟨le_rfl, hocc, ?_⟩, fun r hr => hr.1⟩
          intro e he
          by_contra hlate
          refine hearly ((Option.any_eq_true _ _).2 ⟨e, he, decide_eq_true ?_⟩)
          rw [hp.pos]
          omega
      · rename_i hdiffer
        have hno : ∀ r, n + d ≤ r → r < n + d + 1 → ¬OccursAt chains.flatten what r := by
          intro r hlow hhigh hocc
          obtain rfl : r = n + d := by omega
          exact hdiffer (hmemcmp.2 hocc)
        have hpos : p.pos + d + 1 = ((n + d + 1 : Nat) : Int) := by
          rw [hp.pos]
          omega
        rw [occurrences_skip endAt (Nat.le_add_right (n + d) 1) hno, hpos]
        split_ifs with hwhole
        · have hstep : n + d + 1 = offset chains (i + 1) := by
            rw [offset_succ hlt]
            omega
          rw [hstep]
          refine ih (ptrAt_nextChain hlt) ?_
          rw [offset_succ hlt]
          dsimp only
          omega
        · refine ih (ptrAt_chain hlt (by omega) (by omega)) ?_
          rw [Option.getD_some]
          omega

/-- `evbuffer_ptr_set` gives a pointer for every position, and between any two pointers the search finds the
least position of the pattern. -/
theorem evbufferSearchRange_least (buf : SplitBuffer) (what : Bytes) (hwhat : what ≠ [])
    (hlen : what.length ≤ evSsizeMax) :
    (∀ n p, n ≤ buf.content.length → PtrAt buf.chains (evbufferPtrSet buf.chains p n .set).2 n) ∧
      ∀ n (start endAt : Option EvbufferPtr), PtrAt buf.chains (start.getD (startPtr buf.chains)) n →
        (∀ e ∈ endAt, ∃ ne, PtrAt buf.chains e ne) →
        FindsLeast buf.chains (evbufferSearchRange buf.chains what start endAt)
          (occurrences buf.content what n endAt) := by
  constructor
  · intro n p hn
    exact (evbufferPtrSet_at p hn).2
  · intro n start endAt hstart hend
    unfold evbufferSearchRange
    rw [if_neg (by rintro (hnil | hlong); exacts [hwhat hnil, by omega])]
    exact searchLoop_finds hwhat buf.fits hend hstart (by omega)

def cutPattern : SplitBuffer where
  chains := [[1, 2, 1], [], [2, 3], [1, 2, 3]]
  freezeStart := false
  fits := by decide

theorem evbufferSearchRange_least_cut :
    ∃ r, PtrAt cutPattern.chains (evbufferSearchRange cutPattern.chains [1, 2, 3] none
        (some ⟨8, none, 0⟩)) r ∧
      IsLeast (occurrences cutPattern.content [1, 2, 3] 0 (some ⟨8, none, 0⟩)) r := by
  have hsearch := (evbufferSearchRange_least cutPattern [1, 2, 3] (by decide) (by decide)).2 0
    none (some ⟨8, none, 0⟩) (startPtr_at _) (by
      rintro e ⟨⟩
      exact ⟨8, rfl, .inl ⟨rfl, rfl⟩⟩)
  rcases hsearch with hfound | ⟨hnone, -⟩
  · exact hfound
  · exact absurd hnone (by decide)

end Range

end MyLibevent.Proofs
