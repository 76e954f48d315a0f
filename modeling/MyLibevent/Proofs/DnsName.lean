import MyLibevent.DnsName

/-!
# Names in DNS messages: what is written is read back

`NameAt m pos labels jumps stop` says what a message holds at an index. `name_parse` reads the labels off, and
every entry of the compression table stands where its name can be read.
-/

namespace MyLibevent.Proofs

open List

def joinLabels : List Bytes → Bytes
  | [] => []
  | l :: rest => l ++ rest.flatMap (dotByte :: ·)

/-- From index `pos` on the message has `labels`, reached with `jumps` jumps; the name ends before
`stop`, after its first jump or its zero. -/
inductive NameAt (m : Bytes) : Nat → List Bytes → Nat → Nat → Prop where
  | root {pos : Nat} (h : [0] <+: m.drop pos) : NameAt m pos [] 0 (pos + 1)
  | label {pos jumps stop : Nat} {l : Bytes} {rest : List Bytes}
      (hpos : 1 ≤ l.length) (hle : l.length ≤ 63) (h : UInt8.ofNat l.length :: l <+: m.drop pos)
      (hrest : NameAt m (pos + 1 + l.length) rest jumps stop) : NameAt m pos (l :: rest) jumps stop
  | jump {pos jumps stop : Nat} {hi lo : UInt8} {labels : List Bytes}
      (hhi : hi &&& 0xc0 ≠ 0) (h : [hi, lo] <+: m.drop pos)
      (htarget : NameAt m ((hi &&& 0x3f).toNat * 256 + lo.toNat) labels jumps stop) :
      NameAt m pos labels (jumps + 1) (pos + 2)

variable {m bs m' l buf bytes : Bytes} {pos jumps stop nameOutLen j ref : Nat}
  {labels rest : List Bytes} {entry : Bytes × Nat}

lemma getElem?_of_prefix_drop {i : Nat} (h : bs <+: m.drop pos) (hi : i < bs.length) : m[pos + i]? = bs[i]? := by
  obtain ⟨t, ht⟩ := h
  rw [← getElem?_drop, ← ht, getElem?_append_left hi]

lemma drop_isPrefix_mono (hm : m <+: m') (h : bs <+: m.drop pos) : bs <+: m'.drop pos := by
  obtain ⟨t, rfl⟩ := hm
  rw [drop_append]
  exact h.trans (prefix_append _ _)

lemma NameAt.mono (hm : m <+: m') (h : NameAt m pos labels jumps stop) : NameAt m' pos labels jumps stop := by
  induction h with
  | root h => exact .root (drop_isPrefix_mono hm h)
  | label hpos hle h _ ih => exact .label hpos hle (drop_isPrefix_mono hm h) ih
  | jump hhi h _ ih => exact .jump hhi (drop_isPrefix_mono hm h) ih

lemma NameAt.stop_bounds (h : NameAt m pos labels jumps stop) : pos < stop ∧ stop ≤ m.length := by
  have hle {bs : Bytes} {pos : Nat} (h : bs <+: m.drop pos) (hne : bs ≠ []) : pos + bs.length ≤ m.length := by
    have hlen := h.length_le
    have hpos := length_pos_iff.mpr hne
    rw [length_drop] at hlen
    omega
  induction h with
  | root h => exact ⟨Nat.lt_succ_self _, hle h nofun⟩
  | label _ _ h _ ih => exact ⟨by omega, ih.2⟩
  | jump _ h _ _ => exact ⟨by omega, hle h nofun⟩

lemma NameAt.pos_lt (h : NameAt m pos labels jumps stop) : pos < m.length :=
  h.stop_bounds.1.trans_le h.stop_bounds.2

def appendLabels (out : Bytes) : List Bytes → Bytes
  | [] => out
  | l :: rest => appendLabels (withDot out ++ l) rest

lemma length_le_appendLabels (out : Bytes) (labels : List Bytes) :
    out.length ≤ (appendLabels out labels).length := by
  induction labels generalizing out with
  | nil => exact Nat.le_refl _
  | cons l rest ih =>
    have hdot := length_le_withDot out
    have hrest := ih (withDot out ++ l)
    rw [length_append] at hrest
    rw [appendLabels]
    omega

lemma appendLabels_of_ne_nil {out : Bytes} (hout : out ≠ []) (labels : List Bytes) :
    appendLabels out labels = out ++ labels.flatMap (dotByte :: ·) := by
  induction labels generalizing out with
  | nil => simp [appendLabels]
  | cons l rest ih =>
    have hne : withDot out ++ l ≠ [] := by simp [withDot, hout]
    rw [appendLabels, ih hne, withDot, if_neg hout]
    simp

lemma appendLabels_nil (h : ∀ l ∈ labels, l ≠ []) : appendLabels [] labels = joinLabels labels := by
  cases labels with
  | nil => rfl
  | cons l rest =>
    have hl : l ≠ [] := h l mem_cons_self
    rw [appendLabels, withDot, if_pos rfl, nil_append, appendLabels_of_ne_nil hl, joinLabels]

lemma NameAt.labels_ne_nil (h : NameAt m pos labels jumps stop) : ∀ l ∈ labels, l ≠ [] := by
  induction h with
  | root _ => simp
  | label hpos _ _ _ ih =>
    intro l' hl'
    rcases mem_cons.mp hl' with rfl | hmem
    · exact ne_nil_of_length_pos hpos
    · exact ih l' hmem
  | jump _ _ _ ih => exact ih

lemma ofNat_length_facts (hpos : 1 ≤ l.length) (hle : l.length ≤ 63) :
    (UInt8.ofNat l.length).toNat = l.length ∧ UInt8.ofNat l.length ≠ 0 ∧ UInt8.ofNat l.length &&& 0xc0 = 0 := by
  have hall : ∀ n : Fin 64, (UInt8.ofNat n).toNat = n ∧ (1 ≤ n.val → UInt8.ofNat n ≠ 0) ∧
      UInt8.ofNat n &&& 0xc0 = 0 := by decide
  obtain ⟨h1, h2, h3⟩ := hall ⟨l.length, by omega⟩
  exact ⟨h1, h2 hpos, h3⟩

lemma nameParseLoop_of_nameAt (h : NameAt m pos labels jumps stop) (out : Bytes)
    (nameEnd : Option Nat) (ptrCount : Nat) (hjumps : ptrCount + jumps ≤ m.length)
    (hroom : (appendLabels out labels).length < nameOutLen) :
    nameParseLoop m nameOutLen pos out nameEnd ptrCount = some (appendLabels out labels, nameEnd.getD stop) := by
  induction h generalizing out nameEnd ptrCount with
  | @root pos h =>
    have hbyte : m[pos]? = some 0 := getElem?_of_prefix_drop (i := 0) h (by simp)
    have hout : ¬ out.length ≥ nameOutLen := by
      rw [appendLabels] at hroom
      omega
    rw [nameParseLoop, hbyte]
    simp only [if_true, if_neg hout]
    rfl
  | @label pos jumps stop l rest hpos hle h hrest ih =>
    obtain ⟨hnat, hne, hand⟩ := ofNat_length_facts hpos hle
    have hbyte : m[pos]? = some (UInt8.ofNat l.length) :=
      getElem?_of_prefix_drop (i := 0) h (by simp)
    have hlen := h.length_le
    rw [length_cons, length_drop] at hlen
    have htake : (m.drop (pos + 1)).take l.length = l := by
      obtain ⟨t, ht⟩ := h
      rw [← drop_drop, ← ht]
      simp
    have hgrow := length_le_appendLabels (withDot out ++ l) rest
    rw [length_append] at hgrow
    rw [appendLabels] at hroom
    have hdot : ¬ (out ≠ [] ∧ out.length + 1 ≥ nameOutLen) := by
      rintro ⟨hout, hfull⟩
      have hlen' : (withDot out).length = out.length + 1 := by simp [withDot, hout]
      omega
    rw [nameParseLoop, hbyte]
    simp only [hnat, htake]
    rw [if_neg hne, if_neg (not_not.mpr hand), if_neg (by omega), if_neg hdot, if_neg (by omega), if_neg (by omega)]
    exact ih (withDot out ++ l) nameEnd ptrCount hjumps hroom
  | @jump pos jumps stop hi lo labels hhi h htarget ih =>
    have hbyte : m[pos]? = some hi := getElem?_of_prefix_drop (i := 0) h (by simp)
    have hbyte' : m[pos + 1]? = some lo := getElem?_of_prefix_drop (i := 1) h (by simp)
    have hne : hi ≠ 0 := by
      rintro rfl
      exact hhi (by decide)
    have hlt := htarget.pos_lt
    rw [nameParseLoop, hbyte]
    simp only [hbyte']
    rw [if_neg hne, if_pos hhi, if_neg (by omega), if_neg (by omega), ih _ _ _ (by omega) hroom]
    rfl

lemma nameParse_of_nameAt (h : NameAt m pos labels jumps stop) (hjumps : jumps ≤ m.length)
    (hroom : (joinLabels labels).length < nameOutLen) :
    nameParse m pos nameOutLen = some (joinLabels labels, stop) := by
  have hnil := appendLabels_nil h.labels_ne_nil
  unfold nameParse
  rw [nameParseLoop_of_nameAt h [] none 0 (by omega) (by rw [hnil]; exact hroom), hnil]
  rfl

structure ValidLabels (labels : List Bytes) : Prop where
  length_pos : ∀ l ∈ labels, 1 ≤ l.length
  length_le : ∀ l ∈ labels, l.length ≤ 63
  no_dot : ∀ l ∈ labels, dotByte ∉ l
  no_nul : ∀ l ∈ labels, 0 ∉ l

lemma ValidLabels.tail (h : ValidLabels (l :: rest)) : ValidLabels rest :=
  ⟨fun x hx => h.length_pos x (mem_cons_of_mem l hx),
    fun x hx => h.length_le x (mem_cons_of_mem l hx),
    fun x hx => h.no_dot x (mem_cons_of_mem l hx),
    fun x hx => h.no_nul x (mem_cons_of_mem l hx)⟩

lemma joinLabels_cons_cons (l l' : Bytes) (rest : List Bytes) :
    joinLabels (l :: l' :: rest) = l ++ dotByte :: joinLabels (l' :: rest) := by
  simp [joinLabels]

lemma joinLabels_singleton (l : Bytes) : joinLabels [l] = l := by simp [joinLabels]

lemma joinLabels_cons_congr {rest' : List Bytes} (h : ∀ x ∈ rest, x ≠ [])
    (h' : ∀ x ∈ rest', x ≠ []) (heq : joinLabels rest = joinLabels rest') :
    joinLabels (l :: rest) = joinLabels (l :: rest') := by
  have hne {x : Bytes} {xs : List Bytes} (hx : ∀ y ∈ x :: xs, y ≠ []) : joinLabels (x :: xs) ≠ [] := by
    have hx' := hx x mem_cons_self
    simp [joinLabels, hx']
  cases rest with
  | nil =>
    cases rest' with
    | nil => rfl
    | cons x xs => exact absurd heq.symm (hne h')
  | cons y ys =>
    cases rest' with
    | nil => exact absurd heq (hne h)
    | cons x xs => rw [joinLabels_cons_cons, joinLabels_cons_cons, heq]

section Dots

variable (h : dotByte ∉ l)
include h

lemma ne_dot : ∀ x ∈ l, decide (x ≠ dotByte) := by
  intro x hx
  rw [decide_eq_true_eq]
  rintro rfl
  exact h hx

lemma takeWhile_no_dot : l.takeWhile (· ≠ dotByte) = l := takeWhile_eq_self_iff.2 (ne_dot h)

lemma dropWhile_no_dot : l.dropWhile (· ≠ dotByte) = [] := dropWhile_eq_nil_iff.2 (ne_dot h)

lemma takeWhile_dot (rest : Bytes) : (l ++ dotByte :: rest).takeWhile (· ≠ dotByte) = l := by
  rw [takeWhile_append_of_pos (ne_dot h)]
  simp

lemma dropWhile_dot (rest : Bytes) : (l ++ dotByte :: rest).dropWhile (· ≠ dotByte) = dotByte :: rest := by
  rw [dropWhile_append_of_pos (ne_dot h)]
  simp

end Dots

def NamedAt (m : Bytes) (pos : Nat) (name : Bytes) (jumps stop : Nat) : Prop :=
  ∃ labels n, joinLabels labels = name ∧ n ≤ jumps ∧ NameAt m pos labels n stop

lemma NamedAt.mono (hm : m <+: m') {name : Bytes} (h : NamedAt m pos name jumps stop) :
    NamedAt m' pos name jumps stop := by
  obtain ⟨labels, n, hname, hn, hat⟩ := h
  exact ⟨labels, n, hname, hn, hat.mono hm⟩

def LabelEntryOk (m : Bytes) (entry : Bytes × Nat) : Prop :=
  ∃ stop, NamedAt m entry.2 entry.1 entry.2 stop

lemma LabelEntryOk.mono (hm : m <+: m') (h : LabelEntryOk m entry) : LabelEntryOk m' entry := by
  obtain ⟨stop, hnamed⟩ := h
  exact ⟨stop, hnamed.mono hm⟩

lemma LabelEntryOk.pos_lt (h : LabelEntryOk m entry) : entry.2 < m.length := by
  obtain ⟨stop, labels, n, -, -, hat⟩ := h
  exact hat.pos_lt

lemma take_writeAt (hj : j ≤ buf.length) : (writeAt buf j bytes).take (j + bytes.length) = buf.take j ++ bytes := by
  have hlen : (buf.take j).length = j := by rw [length_take]; omega
  unfold writeAt
  rw [take_append_of_le_length (by simp [hlen]), take_of_length_le (by simp [hlen])]

lemma length_writeAt (h : j + bytes.length ≤ buf.length) : (writeAt buf j bytes).length = buf.length := by
  unfold writeAt
  rw [length_append, length_append, length_take, length_drop]
  omega

lemma getPos_mem {table : DnslabelTable} {label : Bytes}
    (h : dnslabelTableGetPos table label = some ref) : (label, ref) ∈ table := by
  unfold dnslabelTableGetPos at h
  obtain ⟨entry, hfind, rfl⟩ := Option.map_eq_some_iff.mp h
  have hmem := mem_of_find?_eq_some hfind
  have heq := find?_some hfind
  simp only [decide_eq_true_eq] at heq
  rw [← heq]
  exact hmem

lemma bytes16_jump (h : ref < 16384) :
    ∃ hi lo, bytes16 (ref ||| 0xc000) = [hi, lo] ∧ hi &&& 0xc0 ≠ 0 ∧
      (hi &&& 0x3f).toNat * 256 + lo.toNat = ref := by
  have hor : ref ||| 0xc000 = ref + 0xc000 := by
    have hadd := Nat.two_pow_add_eq_or_of_lt (i := 14) h 3
    rw [Nat.or_comm, Nat.add_comm]
    exact hadd.symm
  have hall : ∀ n : Fin 64, UInt8.ofNat (n + 0xc0) &&& 0xc0 ≠ 0 ∧
      (UInt8.ofNat (n + 0xc0) &&& 0x3f).toNat = n := by decide
  obtain ⟨h1, h2⟩ := hall ⟨ref / 256, by omega⟩
  change (UInt8.ofNat (ref / 256 + 0xc0) &&& 0x3f).toNat = ref / 256 at h2
  refine ⟨UInt8.ofNat (ref / 256 + 0xc0), UInt8.ofNat ref, ?_, h1, ?_⟩
  · rw [hor, bytes16, show (ref + 0xc000) / 256 = ref / 256 + 0xc0 by omega]
    congr 2
    apply UInt8.toNat_inj.mp
    simp only [UInt8.toNat_ofNat']
    omega
  · rw [h2, UInt8.toNat_ofNat']
    omega

section Loop

variable {bufLen : Nat} {strdup : Bytes → Nat → Bool} {buf name : Bytes} {j : Nat}
  {table : Option DnslabelTable}

/-! The ways a turn of the loop goes. -/

lemma room_of_index_nonneg (hpos : table.bind (dnslabelTableGetPos · name) = none)
    (hok : 0 ≤ (dnsnameToLabelsLoop bufLen strdup buf j name table).index) :
    j + (name.takeWhile (· ≠ dotByte)).length + 1 ≤ bufLen := by
  rw [dnsnameToLabelsLoop, hpos] at hok
  simp only at hok
  split at hok
  · change (0 : Int) ≤ -1 at hok
    omega
  · split at hok
    · change (0 : Int) ≤ -2 at hok
      omega
    · omega

lemma dnsnameToLabelsLoop_jump {ref : Nat}
    (hpos : table.bind (dnslabelTableGetPos · name) = some ref) :
    dnsnameToLabelsLoop bufLen strdup buf j name table =
      if j + 2 > bufLen then ⟨-2, buf, table⟩
      else ⟨j + 2, writeAt buf j (bytes16 (ref ||| 0xc000)), table⟩ := by
  rw [dnsnameToLabelsLoop, hpos]

lemma dnsnameToLabelsLoop_last (hpos : table.bind (dnslabelTableGetPos · name) = none)
    (hdot : dotByte ∉ name) (hlen : name.length ≤ 63) (hroom : j + name.length + 1 ≤ bufLen) :
    dnsnameToLabelsLoop bufLen strdup buf j name table =
      let buf := writeAt buf j (UInt8.ofNat name.length :: name)
      let table := table.map (dnslabelTableAdd strdup · name j)
      if buf[j + name.length]? ≠ some 0 then
        ⟨((j + 1 + name.length : Nat) : Int) + 1, writeAt buf (j + 1 + name.length) [0], table⟩
      else ⟨(j + 1 + name.length : Nat), buf, table⟩ := by
  have hidx : j + 1 + name.length - 1 = j + name.length := by omega
  rw [dnsnameToLabelsLoop, hpos]
  simp only [takeWhile_no_dot hdot]
  rw [if_neg (by omega), if_neg (by omega)]
  split
  · rw [hidx]
  · rename_i hcons
    rw [dropWhile_no_dot hdot] at hcons
    cases hcons

lemma dnsnameToLabelsLoop_label {l rest : Bytes}
    (hpos : table.bind (dnslabelTableGetPos · (l ++ dotByte :: rest)) = none) (hdot : dotByte ∉ l)
    (hlen : l.length ≤ 63) (hroom : j + l.length + 1 ≤ bufLen) :
    dnsnameToLabelsLoop bufLen strdup buf j (l ++ dotByte :: rest) table =
      dnsnameToLabelsLoop bufLen strdup (writeAt buf j (UInt8.ofNat l.length :: l))
        (j + 1 + l.length) rest
        (table.map (dnslabelTableAdd strdup · (l ++ dotByte :: rest) j)) := by
  rw [dnsnameToLabelsLoop, hpos]
  simp only [takeWhile_dot hdot]
  rw [if_neg (by omega), if_neg (by omega)]
  split
  · rename_i hnil
    rw [dropWhile_dot hdot] at hnil
    cases hnil
  · rename_i hcons
    rw [dropWhile_dot hdot] at hcons
    cases hcons
    rfl

end Loop

/-- What a successful write of `name` at `j` with the table `T` leaves: `enc` after the first `j`
bytes, where `name` can be read, and a table with new entries that can be read too. `base` is the
part of the message written before this name. -/
structure Written (base buf : Bytes) (j : Nat) (name : Bytes) (T : DnslabelTable)
    (r : DnsLabels) (enc : Bytes) (new : DnslabelTable) : Prop where
  index : r.index = (j + enc.length : Nat)
  take : r.buf.take (j + enc.length) = buf.take j ++ enc
  length : r.buf.length = buf.length
  named : NamedAt (buf.take j ++ enc) j name base.length (j + enc.length)
  table : r.table = some (T ++ new)
  entries : ∀ e ∈ new, LabelEntryOk (buf.take j ++ enc) e

lemma dnslabelTableAdd_cases (strdup : Bytes → Nat → Bool) (T : DnslabelTable)
    (name : Bytes) (j : Nat) :
    ∃ new, dnslabelTableAdd strdup T name j = T ++ new ∧ ∀ e ∈ new, e = (name, j) := by
  unfold dnslabelTableAdd
  split
  · exact ⟨[], by simp, by simp⟩
  · split
    · exact ⟨[(name, j)], rfl, by simp⟩
    · exact ⟨[], by simp, by simp⟩

section Write

variable {bufLen ref : Nat} {strdup : Bytes → Nat → Bool} {base buf name l : Bytes}
  {j : Nat} {T : DnslabelTable} {ls labels : List Bytes} {table : Option DnslabelTable}
  {r : DnsLabels}

def ReadableUpTo (base : Bytes) (T : DnslabelTable) (n : Nat) : Prop :=
  ∀ e ∈ T, e.1.length ≤ n → LabelEntryOk base e

lemma written_jump (hbuf : bufLen ≤ buf.length) (hbase : base <+: buf.take j) (hj : j ≤ buf.length)
    (hT : ReadableUpTo base T name.length) (hpos : dnslabelTableGetPos T name = some ref)
    (hr : dnsnameToLabelsLoop bufLen strdup buf j name (some T) = r) (hok : 0 ≤ r.index)
    (hshort : r.index < 16384) : Written base buf j name T r (bytes16 (ref ||| 0xc000)) [] := by
  have hentry : LabelEntryOk base (name, ref) := hT _ (getPos_mem hpos) (Nat.le_refl _)
  have hlt : ref < base.length := hentry.pos_lt
  have hble := hbase.length_le
  rw [length_take] at hble
  have hpos' : (some T).bind (dnslabelTableGetPos · name) = some ref := hpos
  rw [dnsnameToLabelsLoop_jump hpos'] at hr
  split_ifs at hr with hroom
  · subst hr
    change (0 : Int) ≤ -2 at hok
    omega
  · subst hr
    change ((j : Int) + 2) < 16384 at hshort
    have href : ref < 16384 := by omega
    obtain ⟨hi, lo, hbytes, hhi, htarget⟩ := bytes16_jump href
    rw [hbytes]
    have hlen : (buf.take j).length = j := length_take_of_le hj
    refine ⟨rfl, take_writeAt hj, length_writeAt (by simp; omega), ?_, by simp, by simp⟩
    obtain ⟨stop, labels, n, hname, hn, hat⟩ := hentry
    simp only at hn hat
    have hbytes' : [hi, lo] <+: (buf.take j ++ [hi, lo]).drop j :=
      ⟨[], (append_nil _).trans (drop_left' hlen).symm⟩
    have hat' := hat.mono (hbase.trans (prefix_append _ [hi, lo]))
    rw [← htarget] at hat'
    exact ⟨labels, n + 1, hname, by omega, .jump hhi hbytes' hat'⟩

lemma NamedAt.cons {m : Bytes} {jumps stop : Nat} (hpos : 1 ≤ l.length) (hle : l.length ≤ 63)
    (hls : ∀ x ∈ ls, x ≠ []) (hbytes : UInt8.ofNat l.length :: l <+: m.drop j)
    (h : NamedAt m (j + 1 + l.length) (joinLabels ls) jumps stop) :
    NamedAt m j (joinLabels (l :: ls)) jumps stop := by
  obtain ⟨labels, n, hname, hn, hat⟩ := h
  exact ⟨l :: labels, n, joinLabels_cons_congr hat.labels_ne_nil hls hname, hn, .label hpos hle hbytes hat⟩

lemma Written.cons {enc : Bytes} {added new : DnslabelTable}
    (hpos : 1 ≤ l.length) (hle : l.length ≤ 63) (hls : ∀ x ∈ ls, x ≠ [])
    (hbase : base <+: buf.take j) (hroom : j + 1 + l.length ≤ buf.length)
    (hadded : ∀ e ∈ added, e = (joinLabels (l :: ls), j))
    (h : Written base (writeAt buf j (UInt8.ofNat l.length :: l)) (j + 1 + l.length) (joinLabels ls)
      (T ++ added) r enc new) :
    Written base buf j (joinLabels (l :: ls)) T r (UInt8.ofNat l.length :: l ++ enc) (added ++ new) := by
  have hj : j ≤ buf.length := by omega
  have hlen : (UInt8.ofNat l.length :: l).length = 1 + l.length := by
    rw [length_cons]
    omega
  have htake : (writeAt buf j (UInt8.ofNat l.length :: l)).take (j + 1 + l.length) =
      buf.take j ++ UInt8.ofNat l.length :: l := by
    rw [Nat.add_assoc, ← hlen]
    exact take_writeAt hj
  have hmsg : (writeAt buf j (UInt8.ofNat l.length :: l)).take (j + 1 + l.length) ++ enc =
      buf.take j ++ (UInt8.ofNat l.length :: l ++ enc) := by
    rw [htake, append_assoc]
  have henc : j + (UInt8.ofNat l.length :: l ++ enc).length = j + 1 + l.length + enc.length := by
    rw [length_append, hlen]
    omega
  have hnamed : NamedAt (buf.take j ++ (UInt8.ofNat l.length :: l ++ enc)) j
      (joinLabels (l :: ls)) base.length (j + 1 + l.length + enc.length) := by
    have hrest := h.named
    rw [hmsg] at hrest
    refine hrest.cons hpos hle hls ?_
    rw [drop_left' (length_take_of_le hj)]
    exact prefix_append _ _
  refine ⟨?_, ?_, ?_, ?_, ?_, ?_⟩
  · rw [h.index, henc]
  · rw [henc, h.take, hmsg]
  · rw [h.length, length_writeAt (by rw [hlen]; omega)]
  · rw [henc]
    exact hnamed
  · rw [h.table, append_assoc]
  · intro e he
    rcases mem_append.mp he with hmem | hmem
    · have hble := hbase.length_le
      rw [length_take] at hble
      rw [hadded e hmem]
      obtain ⟨labels, n, hname, hn, hat⟩ := hnamed
      exact ⟨_, labels, n, hname, by simp only; omega, hat⟩
    · rw [← hmsg]
      exact h.entries e hmem

lemma nameAt_zero (hj : j ≤ buf.length) : NameAt (buf.take j ++ [0]) j [] 0 (j + 1) := by
  exact .root ⟨[], (drop_left' (length_take_of_le hj)).symm⟩

lemma written_zero (base : Bytes) (T : DnslabelTable) (hroom : j + 1 ≤ buf.length) :
    Written base buf j (joinLabels []) T ⟨(j : Int) + 1, writeAt buf j [0], some T⟩ [0] [] := by
  have hj : j ≤ buf.length := by omega
  exact ⟨rfl, take_writeAt hj, length_writeAt hroom, ⟨[], 0, rfl, Nat.zero_le _, nameAt_zero hj⟩, by simp, by simp⟩

lemma getElem?_writeAt_last (hj : j ≤ buf.length) (c : UInt8) (l : Bytes) :
    (writeAt buf j (c :: l))[j + l.length]? = (c :: l).getLast? := by
  have hlen : (buf.take j).length = j := length_take_of_le hj
  unfold writeAt
  rw [append_assoc, getElem?_append_right (by omega), hlen, Nat.add_sub_cancel_left,
    getElem?_append_left (by simp), getLast?_eq_getElem?]
  rfl

lemma getElem?_writeAt_label (hpos : 1 ≤ l.length) (hj : j ≤ buf.length) (hnul : 0 ∉ l) :
    (writeAt buf j (UInt8.ofNat l.length :: l))[j + l.length]? ≠ some 0 := by
  rw [getElem?_writeAt_last hj, getLast?_cons, getLast?_eq_some_getLast (ne_nil_of_length_pos hpos)]
  intro hzero
  exact hnul (Option.some.inj hzero ▸ getLast_mem _)

lemma written_root (hbuf : bufLen ≤ buf.length) (hj : j ≤ buf.length)
    (hget : dnslabelTableGetPos T [] = none)
    (hr : dnsnameToLabelsLoop bufLen strdup buf j [] (some T) = r) (hok : 0 ≤ r.index) :
    ∃ new, Written base buf j [] T r [0] new := by
  have hget' : (some T).bind (dnslabelTableGetPos · []) = none := hget
  have hroom : j + 0 + 1 ≤ bufLen := room_of_index_nonneg hget' (hr ▸ hok)
  obtain ⟨added, hadd, hadded⟩ := dnslabelTableAdd_cases strdup T [] j
  have hw := written_zero base T (by omega : j + 1 ≤ buf.length)
  have hloop : dnsnameToLabelsLoop bufLen strdup buf j [] (some T) =
      ⟨(j : Int) + 1, writeAt buf j [0], some (T ++ added)⟩ := by
    rw [dnsnameToLabelsLoop_last hget' not_mem_nil (by simp) hroom]
    simp only [Option.map_some, hadd]
    exact if_neg (not_not.mpr (getElem?_writeAt_last hj 0 []))
  rw [← hr, hloop]
  refine ⟨added, rfl, hw.take, hw.length, hw.named, rfl, ?_⟩
  intro e he
  rw [hadded e he]
  exact ⟨_, [], 0, rfl, Nat.zero_le _, nameAt_zero hj⟩

lemma written_labels (hv : ValidLabels labels) (hbuf : bufLen ≤ buf.length)
    (hbase : base <+: buf.take j) (hj : j ≤ buf.length)
    (hT : ReadableUpTo base T (joinLabels labels).length)
    (hr : dnsnameToLabelsLoop bufLen strdup buf j (joinLabels labels) (some T) = r)
    (hok : 0 ≤ r.index) (hshort : r.index < 16384) (hroom : r.index ≤ buf.length) :
    ∃ enc new, Written base buf j (joinLabels labels) T r enc new := by
  induction labels generalizing buf j T with
  | nil =>
    cases hget : dnslabelTableGetPos T [] with
    | some ref => exact ⟨_, _, written_jump hbuf hbase hj hT hget hr hok hshort⟩
    | none => exact ⟨_, written_root hbuf hj hget hr hok⟩
  | cons l ls ih =>
    cases hget : dnslabelTableGetPos T (joinLabels (l :: ls)) with
    | some ref => exact ⟨_, _, written_jump hbuf hbase hj hT hget hr hok hshort⟩
    | none =>
      have hlpos := hv.length_pos l mem_cons_self
      have hlle := hv.length_le l mem_cons_self
      have hldot := hv.no_dot l mem_cons_self
      have hls : ∀ x ∈ ls, x ≠ [] := by
        intro x hx
        exact ne_nil_of_length_pos (hv.tail.length_pos x hx)
      have hget' : (some T).bind (dnslabelTableGetPos · (joinLabels (l :: ls))) = none := hget
      have hlroom := room_of_index_nonneg hget' (hr ▸ hok)
      obtain ⟨added, hadd, hadded⟩ := dnslabelTableAdd_cases strdup T (joinLabels (l :: ls)) j
      have hlen : (UInt8.ofNat l.length :: l).length = 1 + l.length := by
        rw [length_cons]
        omega
      -- the state after the label
      generalize hbuf1 : writeAt buf j (UInt8.ofNat l.length :: l) = buf1
      have hfits : j + l.length + 1 ≤ bufLen → buf1.length = buf.length := by
        intro hle
        rw [← hbuf1, length_writeAt (by rw [hlen]; omega)]
      cases ls with
      | nil =>
        rw [joinLabels_singleton, takeWhile_no_dot hldot] at hlroom
        rw [joinLabels_singleton] at hget' hadd hr
        rw [dnsnameToLabelsLoop_last hget' hldot hlle hlroom] at hr
        simp only [Option.map_some, hadd] at hr
        rw [if_pos (getElem?_writeAt_label hlpos hj (hv.no_nul l mem_cons_self)), hbuf1] at hr
        subst hr
        have hend : j + 1 + l.length + 1 ≤ buf1.length := by
          rw [hfits hlroom]
          change ((j + 1 + l.length : Nat) : Int) + 1 ≤ buf.length at hroom
          omega
        have hw := written_zero base (T ++ added) hend
        rw [← hbuf1] at hw ⊢
        exact ⟨_, _, hw.cons hlpos hlle hls hbase (by omega) hadded⟩
      | cons l' ls =>
        have hname := joinLabels_cons_cons l l' ls
        rw [hname, takeWhile_dot hldot] at hlroom
        rw [hname] at hget' hadd hr
        rw [dnsnameToLabelsLoop_label hget' hldot hlle hlroom, Option.map_some, hadd, hbuf1] at hr
        have hbase1 : base <+: buf1.take (j + 1 + l.length) := by
          rw [← hbuf1, Nat.add_assoc, ← hlen, take_writeAt hj]
          exact hbase.trans (prefix_append _ _)
        have hT1 : ReadableUpTo base (T ++ added) (joinLabels (l' :: ls)).length := by
          intro e he hle
          rcases mem_append.mp he with hmem | hmem
          · refine hT e hmem ?_
            rw [hname, length_append, length_cons]
            omega
          · -- the entry of the name itself is longer than what is looked for
            have heq := hadded e hmem
            rw [heq, hname, length_append, length_cons] at hle
            omega
        obtain ⟨enc, new, hw⟩ := ih hv.tail (by omega) hbase1 (by omega) hT1 hr (by omega)
        rw [← hbuf1] at hw
        exact ⟨_, _, hw.cons hlpos hlle hls hbase (by omega) hadded⟩

lemma dnsnameToLabelsLoop_index_ge
    (hok : 0 ≤ (dnsnameToLabelsLoop bufLen strdup buf j name table).index) :
    (j : Int) ≤ (dnsnameToLabelsLoop bufLen strdup buf j name table).index := by
  fun_induction dnsnameToLabelsLoop bufLen strdup buf j name table <;> simp_all <;> omega

def Fits (j : Nat) (name : Bytes) (r : DnsLabels) : Prop :=
  0 ≤ r.index ∧ r.index ≤ (j + name.length + 2 : Nat)

lemma fits_jump (hget : table.bind (dnslabelTableGetPos · name) = some ref)
    (hroom : j + name.length + 2 ≤ bufLen) :
    Fits j name (dnsnameToLabelsLoop bufLen strdup buf j name table) := by
  unfold Fits
  rw [dnsnameToLabelsLoop_jump hget, if_neg (by omega)]
  simp only
  omega

lemma fits_last (hget : table.bind (dnslabelTableGetPos · name) = none) (hdot : dotByte ∉ name)
    (hlen : name.length ≤ 63) (hroom : j + name.length + 2 ≤ bufLen) :
    Fits j name (dnsnameToLabelsLoop bufLen strdup buf j name table) := by
  unfold Fits
  rw [dnsnameToLabelsLoop_last hget hdot hlen (by omega)]
  simp only
  split <;> simp only <;> omega

lemma fits_labels (hv : ValidLabels labels) (hroom : j + (joinLabels labels).length + 2 ≤ bufLen) :
    Fits j (joinLabels labels) (dnsnameToLabelsLoop bufLen strdup buf j (joinLabels labels) table) := by
  induction labels generalizing buf j table with
  | nil =>
    cases hget : table.bind (dnslabelTableGetPos · (joinLabels [])) with
    | some ref => exact fits_jump hget hroom
    | none => exact fits_last hget not_mem_nil (Nat.zero_le _) hroom
  | cons l ls ih =>
    have hldot := hv.no_dot l mem_cons_self
    have hlle := hv.length_le l mem_cons_self
    cases hget : table.bind (dnslabelTableGetPos · (joinLabels (l :: ls))) with
    | some ref => exact fits_jump hget hroom
    | none =>
      cases ls with
      | nil =>
        rw [joinLabels_singleton] at hget hroom ⊢
        exact fits_last hget hldot hlle hroom
      | cons l' ls =>
        rw [joinLabels_cons_cons] at hget hroom ⊢
        rw [length_append, length_cons] at hroom
        rw [dnsnameToLabelsLoop_label hget hldot hlle (by omega)]
        have hroom' : j + 1 + l.length + (joinLabels (l' :: ls)).length + 2 ≤ bufLen := by omega
        obtain ⟨hnonneg, hle⟩ := ih hv.tail hroom'
        refine ⟨hnonneg, Int.le_trans hle ?_⟩
        rw [length_append, length_cons]
        omega

end Write

structure ValidDomain (labels : List Bytes) : Prop extends ValidLabels labels where
  total : (joinLabels labels).length ≤ 255

section Names

variable {bufLen : Nat} {strdup : Bytes → Nat → Bool} {buf : Bytes} {j : Nat}
  {labels : List Bytes} {T : DnslabelTable} {names : List (List Bytes)}
  {out : EncodedNames}

lemma dnsnameToLabels_eq (hv : ValidDomain labels) (table : Option DnslabelTable) :
    dnsnameToLabels bufLen strdup buf j (joinLabels labels) table =
      dnsnameToLabelsLoop bufLen strdup buf j (joinLabels labels) table := by
  have htotal := hv.total
  unfold dnsnameToLabels
  rw [if_neg (by omega)]

section

variable (hv : ∀ labels ∈ names, ValidDomain labels)
include hv

lemma encodeNames_le_stop {table : Option DnslabelTable}
    (h : encodeNames bufLen strdup buf j table (names.map joinLabels) = some out) :
    j ≤ out.stop := by
  induction names generalizing buf j table out with
  | nil =>
    cases h
    exact Nat.le_refl _
  | cons labels names ih =>
    simp only [map_cons, encodeNames] at h
    split at h
    · cases h
    · rename_i hneg
      obtain ⟨out', hout, rfl⟩ := Option.map_eq_some_iff.mp h
      rw [dnsnameToLabels_eq (hv labels mem_cons_self)] at hneg hout
      have hge := dnsnameToLabelsLoop_index_ge (Int.not_lt.mp hneg)
      have hle := ih (fun x hx => hv x (mem_cons_of_mem _ hx)) hout
      simp only
      omega

lemma encodeNames_named (hbuf : bufLen ≤ buf.length)
    (hj : j ≤ buf.length) (hT : ∀ e ∈ T, LabelEntryOk (buf.take j) e)
    (h : encodeNames bufLen strdup buf j (some T) (names.map joinLabels) = some out)
    (hroom : out.stop ≤ buf.length) (hshort : out.stop < 16384) :
    buf.take j <+: out.buf.take out.stop ∧
      List.Forall₂ (fun labels span => ValidDomain labels ∧
        NamedAt (out.buf.take out.stop) span.1 (joinLabels labels) span.1 span.2) names
        out.spans := by
  induction names generalizing buf j T out with
  | nil =>
    cases h
    exact ⟨prefix_refl _, .nil⟩
  | cons labels names ih =>
    have hdomain := hv labels mem_cons_self
    have hrest : ∀ x ∈ names, ValidDomain x := fun x hx => hv x (mem_cons_of_mem _ hx)
    simp only [map_cons, encodeNames] at h
    split at h
    · cases h
    · rename_i hneg
      obtain ⟨out', hout, rfl⟩ := Option.map_eq_some_iff.mp h
      simp only at hroom hshort
      have hok := Int.not_lt.mp hneg
      have hstop := encodeNames_le_stop hrest hout
      obtain ⟨enc, new, hw⟩ := written_labels hdomain.toValidLabels hbuf (prefix_refl _) hj
        (fun e he _ => hT e he) (dnsnameToLabels_eq hdomain _).symm hok (by omega) (by omega)
      have hindex : (dnsnameToLabels bufLen strdup buf j (joinLabels labels) (some T)).index.toNat =
          j + enc.length := by
        rw [hw.index]
        rfl
      rw [hindex] at hstop
      rw [hindex, hw.table] at hout
      have hlen := hw.length
      have htake := hw.take
      have hT' : ∀ e ∈ T ++ new, LabelEntryOk
          ((dnsnameToLabels bufLen strdup buf j (joinLabels labels) (some T)).buf.take (j + enc.length)) e := by
        rw [htake]
        exact forall_mem_append.mpr ⟨fun e hmem => (hT e hmem).mono (prefix_append _ _), hw.entries⟩
      obtain ⟨hpre, hall⟩ := ih hrest (by omega) (by omega) hT' hout (by omega) hshort
      rw [htake] at hpre
      refine ⟨(prefix_append _ _).trans hpre, .cons ⟨hdomain, ?_⟩ hall⟩
      have hnamed := hw.named.mono hpre
      rw [length_take_of_le hj] at hnamed
      simp only [hindex]
      exact hnamed

lemma encodeNames_isSome (table : Option DnslabelTable)
    (hroom : j + (names.map fun labels => (joinLabels labels).length + 2).sum ≤ bufLen) :
    (encodeNames bufLen strdup buf j table (names.map joinLabels)).isSome := by
  induction names generalizing buf j table with
  | nil => rfl
  | cons labels names ih =>
    have hdomain := hv labels mem_cons_self
    rw [map_cons, sum_cons] at hroom
    have hfits : Fits j (joinLabels labels) (dnsnameToLabelsLoop bufLen strdup buf j (joinLabels labels) table) :=
      fits_labels hdomain.toValidLabels (by omega)
    obtain ⟨hnonneg, hle⟩ := hfits
    simp only [map_cons, encodeNames, dnsnameToLabels_eq hdomain]
    rw [if_neg (Int.not_lt.mpr hnonneg), Option.isSome_map]
    exact ih (fun x hx => hv x (mem_cons_of_mem _ hx)) _ (by omega)

end

end Names

/-- Names written one after another with one table, which is empty at first, are read back, each at
its start, and the index moves to its end. -/
theorem dns_names_round_trip {names : List (List Bytes)}
    (hv : ∀ labels ∈ names, ValidDomain labels) {bufLen : Nat}
    (strdup : Bytes → Nat → Bool) {buf : Bytes} {j : Nat} (hbuf : bufLen ≤ buf.length)
    (hj : j ≤ buf.length) :
    (j + (names.map fun labels => (joinLabels labels).length + 2).sum ≤ bufLen →
      (encodeNames bufLen strdup buf j (some []) (names.map joinLabels)).isSome) ∧
    ∀ out, encodeNames bufLen strdup buf j (some []) (names.map joinLabels) = some out →
      out.stop ≤ buf.length → out.stop < 16384 →
      List.Forall₂ (fun labels span => ∀ packet, out.buf.take out.stop <+: packet →
        nameParse packet span.1 256 = some (joinLabels labels, span.2)) names out.spans := by
  refine ⟨encodeNames_isSome hv _, ?_⟩
  intro out hout hroom hshort
  obtain ⟨-, hall⟩ := encodeNames_named hv hbuf hj (by simp) hout hroom hshort
  refine hall.imp ?_
  rintro labels span ⟨hdomain, labels', n, hname, hn, hat⟩ packet hpacket
  have hat' := hat.mono hpacket
  have hlt := hat'.pos_lt
  have htotal := hdomain.total
  rw [← hname] at htotal ⊢
  exact nameParse_of_nameAt hat' (by omega) (by omega)

def twoNames : EncodedNames :=
  ⟨[(0, 5), (5, 9)], 9, [1, 97, 1, 98, 0, 1, 99, 192, 2],
    some [([97, dotByte, 98], 0), ([98], 2), ([99, dotByte, 98], 5)]⟩

theorem dns_names_round_trip_compressed :
    encodeNames 9 (fun _ _ => true) (List.replicate 9 0) 0 (some [])
      ([[[97], [98]], [[99], [98]]].map joinLabels) = some twoNames ∧
    nameParse twoNames.buf 5 256 = some ([99, dotByte, 98], 9) := by
  have hv : ∀ labels ∈ [[[97], [98]], [[99], [98]]], ValidDomain labels := by
    intro labels hmem
    constructor
    · constructor <;> decide +revert
    · decide +revert
  have hout : encodeNames 9 (fun _ _ => true) (List.replicate 9 0) 0 (some [])
      ([[[97], [98]], [[99], [98]]].map joinLabels) = some twoNames := by
    decide +kernel
  obtain ⟨-, hall⟩ := dns_names_round_trip hv (fun _ _ => true)
    (by simp : 9 ≤ (List.replicate 9 (0 : UInt8)).length) (Nat.zero_le _)
  obtain _ | ⟨-, _ | ⟨hsecond, -⟩⟩ := hall twoNames hout (by decide) (by decide)
  exact ⟨hout, hsecond twoNames.buf (prefix_refl _)⟩

end MyLibevent.Proofs
