import MyLibevent.Proofs.DnsName

/-!
# Names in DNS messages: bounds

Space is checked for each label, but not for the zero after the last one.
-/

namespace MyLibevent.Proofs

open List

section Labels

variable {bufLen j i : Nat} {buf name l rest suffix bytes : Bytes} {table : Option DnslabelTable}
  {strdup : Bytes → Nat → Bool}

/-- An error, or an index in the buffer before which all bytes are that have been written. -/
def LabelsContained (bufLen : Nat) (buf : Bytes) (j : Nat) (r : DnsLabels) : Prop :=
  r.index < 0 ∨ r.index ≤ bufLen ∧ ∀ i : Nat, i < j ∨ r.index ≤ i → r.buf[i]? = buf[i]?

/-- The labels of a name that does not end in a dot are all written, and they fill the buffer. -/
def ExactFit (bufLen j : Nat) (name : Bytes) (table : Option DnslabelTable) : Prop :=
  j + name.length + 1 = bufLen ∧ (∃ c ∈ name.getLast?, c ≠ dotByte ∧ c ≠ 0) ∧
    ∀ suffix, suffix = name ∨ dotByte :: suffix <:+ name →
      table.bind (dnslabelTableGetPos · suffix) = none ∧ (suffix.takeWhile (· ≠ dotByte)).length ≤ 63

lemma getElem?_writeAt_outside (hj : j ≤ buf.length) (hi : i < j ∨ j + bytes.length ≤ i) :
    (writeAt buf j bytes)[i]? = buf[i]? := by
  have hlen : (buf.take j).length = j := length_take_of_le hj
  unfold writeAt
  obtain hi | hi := hi
  · rw [append_assoc, getElem?_append_left (by omega), getElem?_take_of_lt hi]
  · rw [getElem?_append_right (by rw [length_append]; omega), getElem?_drop, length_append]
    congr 1
    omega

lemma dot_suffix_iff (hdot : dotByte ∉ l) :
    dotByte :: suffix <:+ l ++ dotByte :: rest ↔ suffix = rest ∨ dotByte :: suffix <:+ rest := by
  induction l with
  | nil => rw [nil_append, suffix_cons_iff, cons.injEq, eq_self, true_and]
  | cons c l ih =>
    rw [mem_cons, not_or] at hdot
    rw [cons_append, suffix_cons_iff, ih hdot.2, cons.injEq]
    exact or_iff_right fun h => hdot.1 h.1

lemma getPos_add (T : DnslabelTable) (hne : suffix ≠ name) :
    dnslabelTableGetPos (dnslabelTableAdd strdup T name j) suffix = dnslabelTableGetPos T suffix := by
  obtain ⟨new, heq, hnew⟩ := dnslabelTableAdd_cases strdup T name j
  have hnone : new.find? (fun entry => entry.1 = suffix) = none := by
    rw [find?_eq_none]
    intro e he
    rw [hnew e he, decide_eq_true_eq]
    exact hne.symm
  unfold dnslabelTableGetPos
  rw [heq, find?_append, hnone, Option.or_none]

lemma exactFit_last (bufLen : Nat) (hget : table.bind (dnslabelTableGetPos · name) = none)
    (hnil : name.dropWhile (· ≠ dotByte) = []) (hlabel : name.takeWhile (· ≠ dotByte) = l) (hlen : l.length ≤ 63)
    (hj : j ≤ buf.length) :
    ExactFit bufLen j name table ↔ j + l.length + 1 = bufLen ∧
      (writeAt buf j (UInt8.ofNat l.length :: l))[j + 1 + l.length - 1]? ≠ some 0 := by
  have hdot : dotByte ∉ name := fun hmem => by simpa using dropWhile_eq_nil_iff.mp hnil _ hmem
  obtain rfl : name = l := (takeWhile_no_dot hdot).symm.trans hlabel
  have hsuffix : ∀ suffix, suffix = name ∨ dotByte :: suffix <:+ name →
      table.bind (dnslabelTableGetPos · suffix) = none ∧ (suffix.takeWhile (· ≠ dotByte)).length ≤ 63 := by
    rintro suffix (rfl | hs)
    · exact ⟨hget, hlabel.symm ▸ hlen⟩
    · exact absurd (hs.subset mem_cons_self) hdot
  rw [show j + 1 + name.length - 1 = j + name.length by omega, getElem?_writeAt_last hj, ExactFit,
    and_iff_left hsuffix, getLast?_cons]
  cases hlast : name.getLast? with
  | none =>
    rw [getLast?_eq_none_iff.mp hlast]
    simp
  | some c =>
    have hc : c ≠ dotByte := fun h => hdot (h ▸ mem_of_getLast? hlast)
    simp [hc]

lemma exactFit_label (bufLen j : Nat) (strdup : Bytes → Nat → Bool)
    (hget : table.bind (dnslabelTableGetPos · (l ++ dotByte :: rest)) = none)
    (hdot : dotByte ∉ l) (hlen : l.length ≤ 63) :
    ExactFit bufLen j (l ++ dotByte :: rest) table ↔ ExactFit bufLen (j + 1 + l.length) rest
      (table.map (dnslabelTableAdd strdup · (l ++ dotByte :: rest) j)) := by
  unfold ExactFit
  have hlength : j + (l ++ dotByte :: rest).length + 1 = j + 1 + l.length + rest.length + 1 := by
    rw [length_append, length_cons]
    omega
  have hlast : (∃ c ∈ (l ++ dotByte :: rest).getLast?, c ≠ dotByte ∧ c ≠ 0) ↔
      ∃ c ∈ rest.getLast?, c ≠ dotByte ∧ c ≠ 0 := by
    rw [getLast?_append_cons, getLast?_cons]
    cases rest.getLast? <;> simp
  have htable (suffix : Bytes) (hs : suffix = rest ∨ dotByte :: suffix <:+ rest) :
      (table.map (dnslabelTableAdd strdup · (l ++ dotByte :: rest) j)).bind (dnslabelTableGetPos · suffix) =
        table.bind (dnslabelTableGetPos · suffix) := by
    have hne : suffix ≠ l ++ dotByte :: rest := by
      intro heq
      have hle : suffix.length ≤ rest.length := by
        rcases hs with rfl | hs
        · exact Nat.le_refl _
        · exact (Nat.le_succ _).trans hs.length_le
      rw [heq, length_append, length_cons] at hle
      omega
    cases table with
    | none => rfl
    | some T => exact getPos_add T hne
  rw [hlength, hlast]
  refine and_congr_right fun _ => and_congr_right fun _ => ⟨fun h suffix hs => ?_, fun h suffix hs => ?_⟩
  · rw [htable suffix hs]
    exact h suffix (.inr ((dot_suffix_iff hdot).mpr hs))
  · obtain rfl | hs := hs
    · rw [takeWhile_dot hdot]
      exact ⟨hget, hlen⟩
    · rw [dot_suffix_iff hdot] at hs
      rw [← htable suffix hs]
      exact h suffix hs

lemma name_of_dropWhile {c : UInt8} (h : name.dropWhile (· ≠ dotByte) = c :: rest) :
    dotByte ∉ name.takeWhile (· ≠ dotByte) ∧ name = name.takeWhile (· ≠ dotByte) ++ dotByte :: rest := by
  have hc : c = dotByte := by
    have hhead := head?_dropWhile_not (fun x => decide (x ≠ dotByte)) name
    rw [h] at hhead
    simpa using hhead
  refine ⟨fun hmem => by simpa using mem_takeWhile_imp hmem, ?_⟩
  have happend := takeWhile_append_dropWhile (p := fun x => decide (x ≠ dotByte)) (l := name)
  rw [h, hc] at happend
  exact happend.symm

lemma dnsnameToLabelsLoop_outside (hbuf : bufLen ≤ buf.length)
    (hok : 0 ≤ (dnsnameToLabelsLoop bufLen strdup buf j name table).index)
    (hi : i < j ∨ (dnsnameToLabelsLoop bufLen strdup buf j name table).index ≤ i) :
    (dnsnameToLabelsLoop bufLen strdup buf j name table).buf[i]? = buf[i]? := by
  fun_induction dnsnameToLabelsLoop bufLen strdup buf j name table with
  | case1 | case3 | case4 => rfl
  | case2 buf j name table ref hget hroom =>
    apply getElem?_writeAt_outside (by omega)
    simp only [bytes16, length_cons, length_nil] at hi ⊢
    omega
  | case5 buf j name table hget label hshort hroom table' buf' j' hnil hbyte =>
    have hlen : buf'.length = buf.length := length_writeAt (by rw [length_cons]; omega)
    simp only at hi
    rw [getElem?_writeAt_outside (by omega) (by rw [length_singleton]; omega),
      getElem?_writeAt_outside (by omega) (by rw [length_cons]; omega)]
  | case6 buf j name table hget label hshort hroom table' buf' j' hnil hbyte =>
    simp only at hi
    exact getElem?_writeAt_outside (by omega) (by rw [length_cons]; omega)
  | case7 buf j name table hget label hshort hroom table' buf' j' dot rest hrest ih =>
    have hlen : buf'.length = buf.length := length_writeAt (by rw [length_cons]; omega)
    have hge := dnsnameToLabelsLoop_index_ge hok
    rw [ih (by omega) hok (by omega)]
    exact getElem?_writeAt_outside (by omega) (by rw [length_cons]; omega)

lemma dnsnameToLabelsLoop_index_le_iff (strdup : Bytes → Nat → Bool) (hbuf : bufLen ≤ buf.length) :
    (dnsnameToLabelsLoop bufLen strdup buf j name table).index ≤ bufLen ↔ ¬ExactFit bufLen j name table := by
  fun_induction dnsnameToLabelsLoop bufLen strdup buf j name table with
  | case1 buf j name table ref hget _ | case2 buf j name table ref hget _ =>
    refine iff_of_true (by simp only; omega) fun hfit => ?_
    cases hget.symm.trans (hfit.2.2 name (.inl rfl)).1
  | case3 buf j name table hget label hlong =>
    exact iff_of_true (by simp only; omega) fun hfit => absurd (hfit.2.2 name (.inl rfl)).2 (Nat.not_le.mpr hlong)
  | case4 buf j name table hget label hshort hfull =>
    have hle : label.length ≤ name.length := (takeWhile_sublist _).length_le
    refine iff_of_true (by simp only; omega) fun hfit => ?_
    have heq := hfit.1
    omega
  | case5 buf j name table hget label hshort hroom table' buf' j' hnil hbyte =>
    have hfit := exactFit_last bufLen hget hnil (rfl : _ = label) (Nat.not_lt.mp hshort)
      (show j ≤ buf.length by omega)
    rw [hfit, and_iff_left hbyte]
    simp only
    omega
  | case6 buf j name table hget label hshort hroom table' buf' j' hnil hbyte =>
    refine iff_of_true (by simp only; omega) fun hfit => hbyte ?_
    exact ((exactFit_last bufLen hget hnil rfl (Nat.not_lt.mp hshort) (by omega)).mp hfit).2
  | case7 buf j name table hget label hshort hroom table' buf' j' dot rest hrest ih =>
    have hlen : buf'.length = buf.length := length_writeAt (by rw [length_cons]; omega)
    obtain ⟨hdot, hname⟩ := name_of_dropWhile hrest
    have hfit : ExactFit bufLen j name table ↔ ExactFit bufLen j' rest table' := by
      rw [hname] at hget
      have hlabel := exactFit_label bufLen j strdup hget hdot (Nat.not_lt.mp hshort)
      rw [← hname] at hlabel
      exact hlabel
    rw [ih (by omega), hfit]

/-- A name is written inside the buffer unless its labels fill it and the final zero comes after them. -/
theorem dnsnameToLabels_contained_iff (strdup : Bytes → Nat → Bool) (hbuf : bufLen ≤ buf.length) (j : Nat)
    (name : Bytes) (table : Option DnslabelTable) :
    LabelsContained bufLen buf j (dnsnameToLabels bufLen strdup buf j name table) ↔
      ¬(name.length ≤ 255 ∧ ExactFit bufLen j name table) := by
  unfold dnsnameToLabels LabelsContained
  split
  · exact iff_of_true (.inl (by simp)) (by omega)
  · rename_i hlen
    rw [and_iff_right (Nat.not_lt.mp hlen), ← dnsnameToLabelsLoop_index_le_iff strdup hbuf]
    constructor
    · rintro (hneg | ⟨hle, -⟩)
      · omega
      · exact hle
    · intro hle
      by_cases hok : 0 ≤ (dnsnameToLabelsLoop bufLen strdup buf j name table).index
      · exact .inr ⟨hle, fun i => dnsnameToLabelsLoop_outside hbuf hok⟩
      · exact .inl (Int.not_le.mp hok)

end Labels

theorem dnsnameToLabels_contained_ab : LabelsContained 6 (replicate 6 0) 1
    (dnsnameToLabels 6 (fun _ _ => true) (replicate 6 0) 1 [97, dotByte, 98] (some [])) := by
  refine (dnsnameToLabels_contained_iff _ (by simp) 1 _ _).mpr ?_
  rintro ⟨-, hfill, -⟩
  cases hfill

/-- The labels of "a" fill a buffer of two bytes, and the zero is written behind it. -/
theorem dnsnameToLabels_writes_behind :
    ¬LabelsContained 2 [0, 0] 0 (dnsnameToLabels 2 (fun _ _ => true) [0, 0] 0 [97] none) := by
  have hindex : (dnsnameToLabels 2 (fun _ _ => true) [0, 0] 0 [97] none).index = 3 := by decide +kernel
  rintro (hneg | ⟨hle, -⟩)
  · rw [hindex] at hneg
    cases hneg
  · rw [hindex] at hle
    exact absurd hle (by decide)

section Parsing

variable {m out : Bytes} {idx pos jumps stop nameOutLen : Nat} {labels : List Bytes}

/-- Where `name_parse` can get to in a message from an index: the labels met on the way, and the jumps. -/
inductive Follows (m : Bytes) (idx : Nat) : Nat → List Bytes → Nat → Prop where
  | start : Follows m idx idx [] 0
  | label {pos jumps : Nat} {labels : List Bytes} {l : Bytes} (hf : Follows m idx pos labels jumps)
      (hpos : 1 ≤ l.length) (hle : l.length ≤ 63) (h : UInt8.ofNat l.length :: l <+: m.drop pos) :
      Follows m idx (pos + 1 + l.length) (labels ++ [l]) jumps
  | jump {pos jumps : Nat} {labels : List Bytes} {hi lo : UInt8} (hf : Follows m idx pos labels jumps)
      (hhi : hi &&& 0xc0 ≠ 0) (h : [hi, lo] <+: m.drop pos) :
      Follows m idx ((hi &&& 0x3f).toNat * 256 + lo.toNat) labels (jumps + 1)

/-- The length of a name with one more label of `n` bytes. -/
def lengthWith (labels : List Bytes) (n : Nat) : Nat :=
  if n = 0 then (joinLabels labels).length else (withDot (joinLabels labels)).length + n

/-- Why there is no name: too many jumps, a byte of the packet that is not there, or a name that does not fit. -/
def Unreadable (m : Bytes) (nameOutLen pos : Nat) (labels : List Bytes) (jumps : Nat) : Prop :=
  m.length < jumps ∨ m.length ≤ pos ∨
    ∃ n : UInt8, m[pos]? = some n ∧
      if n &&& 0xc0 ≠ 0 then m.length ≤ pos + 1
      else nameOutLen ≤ lengthWith labels n.toNat ∨ m.length < pos + 1 + n.toNat

lemma joinLabels_concat (h : ∀ x ∈ labels, x ≠ []) (l : Bytes) :
    joinLabels (labels ++ [l]) = withDot (joinLabels labels) ++ l := by
  cases labels with
  | nil => simp [joinLabels, withDot]
  | cons x xs =>
    have hx := h x mem_cons_self
    simp [joinLabels, withDot, hx]

lemma Follows.labels_ne_nil (h : Follows m idx pos labels jumps) : ∀ l ∈ labels, l ≠ [] := by
  induction h with
  | start => exact nofun
  | label _ hpos _ _ ih =>
    exact forall_mem_append.mpr ⟨ih, forall_mem_singleton.mpr (ne_nil_of_length_pos hpos)⟩
  | jump _ _ _ ih => exact ih

lemma drop_of_getElem? {n : UInt8} (h : m[pos]? = some n) : m.drop pos = n :: m.drop (pos + 1) := by
  obtain ⟨hlt, rfl⟩ := List.getElem?_eq_some_iff.mp h
  exact drop_eq_getElem_cons hlt

lemma isPrefix_jump {hi lo : UInt8} (h : m[pos]? = some hi) (h' : m[pos + 1]? = some lo) :
    [hi, lo] <+: m.drop pos := by
  rw [drop_of_getElem? h, drop_of_getElem? h']
  exact ⟨_, rfl⟩

lemma isPrefix_label {n : UInt8} (h : m[pos]? = some n) (hroom : pos + 1 + n.toNat ≤ m.length) :
    ((m.drop (pos + 1)).take n.toNat).length = n.toNat ∧
      UInt8.ofNat ((m.drop (pos + 1)).take n.toNat).length :: (m.drop (pos + 1)).take n.toNat <+: m.drop pos := by
  have hlen : ((m.drop (pos + 1)).take n.toNat).length = n.toNat := by
    rw [length_take, length_drop]
    omega
  rw [hlen, UInt8.ofNat_toNat, drop_of_getElem? h]
  exact ⟨rfl, cons_prefix_cons.mpr ⟨rfl, take_prefix ..⟩⟩

/-- What the loop reads from an index that it got to from `idx`, or why it fails. -/
def Outcome (m : Bytes) (nameOutLen idx pos : Nat) (out : Bytes) (nameEnd : Option Nat) :
    Option (Bytes × Nat) → Prop
  | none => ∃ pos labels jumps, Follows m idx pos labels jumps ∧ Unreadable m nameOutLen pos labels jumps
  | some (name, stop) => ∃ labels jumps stop', NameAt m pos labels jumps stop' ∧
      name = appendLabels out labels ∧ stop = nameEnd.getD stop' ∧ name.length < nameOutLen

section

variable {nameEnd : Option Nat} {r : Option (Bytes × Nat)}

lemma Outcome.jump {hi lo : UInt8} (hhi : hi &&& 0xc0 ≠ 0) (hjump : [hi, lo] <+: m.drop pos)
    (h : Outcome m nameOutLen idx ((hi &&& 0x3f).toNat * 256 + lo.toNat) out (some (nameEnd.getD (pos + 2))) r) :
    Outcome m nameOutLen idx pos out nameEnd r := by
  cases r with
  | none => exact h
  | some p =>
    obtain ⟨labels, jumps, stop, hat, hname, hstop, hlt⟩ := h
    exact ⟨labels, jumps + 1, pos + 2, .jump hhi hjump hat, hname, hstop, hlt⟩

lemma Outcome.label {l : Bytes} (hpos : 1 ≤ l.length) (hle : l.length ≤ 63)
    (hl : UInt8.ofNat l.length :: l <+: m.drop pos)
    (h : Outcome m nameOutLen idx (pos + 1 + l.length) (withDot out ++ l) nameEnd r) :
    Outcome m nameOutLen idx pos out nameEnd r := by
  cases r with
  | none => exact h
  | some p =>
    obtain ⟨labels, jumps, stop, hat, hname, hstop, hlt⟩ := h
    exact ⟨l :: labels, jumps, stop, .label hpos hle hl hat, hname, hstop, hlt⟩

end

lemma nameParseLoop_outcome {nameEnd : Option Nat} {ptrCount : Nat}
    (hf : Follows m idx pos labels ptrCount) (hout : out = joinLabels labels) :
    Outcome m nameOutLen idx pos out nameEnd (nameParseLoop m nameOutLen pos out nameEnd ptrCount) := by
  have hlabel {pos ptrCount : Nat} {labels : List Bytes} {n : UInt8}
      (hf : Follows m idx pos labels ptrCount) (hbyte : m[pos]? = some n) (hn : ¬n &&& 0xc0 ≠ 0)
      (hbad : nameOutLen ≤ lengthWith labels n.toNat ∨ m.length < pos + 1 + n.toNat) :
      ∃ pos labels jumps, Follows m idx pos labels jumps ∧ Unreadable m nameOutLen pos labels jumps := by
    refine ⟨pos, labels, ptrCount, hf, .inr (.inr ⟨n, hbyte, ?_⟩)⟩
    rwa [if_neg hn]
  have hwith {labels : List Bytes} {n : UInt8} (hn : ¬n = 0) :
      lengthWith labels n.toNat = (withDot (joinLabels labels)).length + n.toNat :=
    if_neg fun hzero => hn (UInt8.toNat_inj.mp hzero)
  fun_induction nameParseLoop m nameOutLen pos out nameEnd ptrCount generalizing labels with
  | case1 pos out nameEnd ptrCount hnone =>
    exact ⟨pos, labels, ptrCount, hf, .inr (.inl (getElem?_eq_none_iff.mp hnone))⟩
  | case2 pos out nameEnd ptrCount hfull hbyte =>
    subst hout
    exact hlabel hf hbyte (by decide) (.inl hfull)
  | case3 pos out nameEnd ptrCount hfits hbyte =>
    refine ⟨[], 0, pos + 1, .root ?_, rfl, rfl, Nat.not_le.mp hfits⟩
    rw [drop_of_getElem? hbyte]
    exact ⟨_, rfl⟩
  | case4 pos out nameEnd ptrCount hi hbyte hne hhi hnone =>
    refine ⟨pos, labels, ptrCount, hf, .inr (.inr ⟨hi, hbyte, ?_⟩)⟩
    rw [if_pos hhi]
    exact getElem?_eq_none_iff.mp hnone
  | case5 pos out nameEnd ptrCount hi hbyte hne hhi lo hlow target =>
    rename_i hout'
    exact ⟨_, labels, ptrCount + 1, hf.jump hhi (isPrefix_jump hbyte hlow), .inr (.inl hout')⟩
  | case6 pos out nameEnd ptrCount hi hbyte hne hhi lo hlow target hin =>
    rename_i hmany
    exact ⟨_, labels, ptrCount + 1, hf.jump hhi (isPrefix_jump hbyte hlow), .inl hmany⟩
  | case7 pos out nameEnd ptrCount hi hbyte hne hhi lo hlow target hin hfew =>
    rename_i ih
    have hjump := isPrefix_jump hbyte hlow
    exact .jump hhi hjump (ih (hf.jump hhi hjump) hout)
  | case8 pos out nameEnd ptrCount n hbyte hne hn hlong =>
    have hall : ∀ n : Fin 256, UInt8.ofNat n &&& 0xc0 = 0 → n.val ≤ 63 := by
      decide +kernel
    have hle := hall ⟨n.toNat, n.toNat_lt⟩ (by simpa using hn)
    exact absurd hlong (Nat.not_lt.mpr hle)
  | case9 pos out nameEnd ptrCount n hbyte hne hn hshort hfull =>
    have hdot : (withDot out).length = out.length + 1 := by simp [withDot, hfull.1]
    refine hlabel hf hbyte hn (.inl ?_)
    rw [hwith hne, ← hout]
    omega
  | case10 pos out nameEnd ptrCount n hbyte hne hn hshort hdot hfull =>
    refine hlabel hf hbyte hn (.inl ?_)
    rw [hwith hne, ← hout]
    exact hfull
  | case11 pos out nameEnd ptrCount n hbyte hne hn hshort hdot hfits hout' =>
    exact hlabel hf hbyte hn (.inr hout')
  | case12 pos out nameEnd ptrCount n hbyte hne hn hshort hdot hfits hin ih =>
    obtain ⟨hlen, hl⟩ := isPrefix_label hbyte (Nat.not_lt.mp hin)
    have hpos : 1 ≤ ((m.drop (pos + 1)).take n.toNat).length :=
      hlen.symm ▸ Nat.pos_of_ne_zero fun hzero => hne (UInt8.toNat_inj.mp hzero)
    have hle : ((m.drop (pos + 1)).take n.toNat).length ≤ 63 := hlen.symm ▸ Nat.not_lt.mp hshort
    have hnext := hf.label hpos hle hl
    rw [hlen] at hnext
    refine .label hpos hle hl ?_
    rw [hlen]
    refine ih hnext ?_
    rw [joinLabels_concat hf.labels_ne_nil, hout]

/-- What `name_parse` reads, and why it fails. -/
theorem nameParse_outcome (packet : Bytes) (idx nameOutLen : Nat) :
    (∀ name stop, nameParse packet idx nameOutLen = some (name, stop) →
      (∃ labels jumps, NameAt packet idx labels jumps stop ∧ name = joinLabels labels) ∧
        name.length < nameOutLen ∧ idx < stop ∧ stop ≤ packet.length) ∧
    (nameParse packet idx nameOutLen = none → ∃ pos labels jumps,
      Follows packet idx pos labels jumps ∧ Unreadable packet nameOutLen pos labels jumps) := by
  have houtcome : Outcome packet nameOutLen idx idx [] none (nameParse packet idx nameOutLen) :=
    nameParseLoop_outcome .start rfl
  refine ⟨fun name stop h => ?_, fun h => ?_⟩
  · rw [h] at houtcome
    obtain ⟨labels, jumps, stop', hat, hname, rfl, hlt⟩ := houtcome
    rw [appendLabels_nil hat.labels_ne_nil] at hname
    exact ⟨⟨labels, jumps, hat, hname⟩, hlt, hat.stop_bounds⟩
  · rw [h] at houtcome
    exact houtcome

end Parsing

theorem nameParse_outcome_jump : nameParse [1, 97, 0, 192, 0] 3 256 = some ([97], 5) ∧
    (∃ labels jumps, NameAt [1, 97, 0, 192, 0] 3 labels jumps 5 ∧ [97] = joinLabels labels) := by
  have hparse : nameParse [1, 97, 0, 192, 0] 3 256 = some ([97], 5) := by decide +kernel
  exact ⟨hparse, ((nameParse_outcome [1, 97, 0, 192, 0] 3 256).1 _ _ hparse).1⟩

end MyLibevent.Proofs
