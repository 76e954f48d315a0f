import MyLibevent.ByteBuff

/-!
# Values written to a buffer and read again

A word is written in the order of the network on every machine. `WriteBytes` puts its bytes to the start of
the memory, and `WriteUnInt` writes two bytes where four are read.
-/

namespace MyLibevent.Proofs

open ByteBuff List ByteBlock

def netBytes (width value : Nat) : Bytes := (WordBytes.bytes width value).reverse

@[simp] lemma length_netBytes (width value : Nat) : (netBytes width value).length = width := by
  rw [netBytes, length_reverse, WordBytes.length_bytes]

section Words

variable (little : Bool) (buff : ByteBuff)

lemma writeT_eq (width value offset : Nat) : writeT little width buff value offset =
    { buff with
      data := write buff.data (buff.writeIndex + offset) (netBytes width value)
      writeIndex := buff.writeIndex + offset + width } := by
  cases little <;> rfl

lemma readT_eq (width : Nat) : readT little width buff =
    (WordBytes.value (ByteBlock.read buff.data buff.readIndex width).reverse, buff.readLen width) := by
  cases little <;> rfl

lemma value_reverse_eq_iff {bytes : Bytes} {n : Nat} (hn : n < 256 ^ bytes.length) :
    WordBytes.value bytes.reverse = n ↔ bytes = netBytes bytes.length n := by
  have hiff := WordBytes.value_eq_iff (l := bytes.reverse) (n := n) (by rwa [length_reverse])
  rw [hiff, length_reverse, netBytes]
  constructor
  · intro h
    rw [← h, reverse_reverse]
  · intro h
    rw [h, reverse_reverse, length_reverse, WordBytes.length_bytes]

end Words

lemma readLen_readLen (buff : ByteBuff) (a b : Nat) : (buff.readLen a).readLen b = buff.readLen (a + b) := by
  rw [readLen, readLen, readLen, Nat.add_assoc]

def Upcoming (buff : ByteBuff) (bytes : Bytes) : Prop :=
  ByteBlock.read buff.data buff.readIndex bytes.length = bytes

section Upcoming

variable {buff : ByteBuff} {bytes rest : Bytes}

lemma Upcoming.split (h : Upcoming buff (bytes ++ rest)) :
    ByteBlock.read buff.data buff.readIndex bytes.length = bytes ∧ Upcoming (buff.readLen bytes.length) rest := by
  unfold Upcoming at h
  rw [length_append, read_add] at h
  exact append_inj h (length_read _ _ _)

lemma Upcoming.readUnShort {n : Nat} (hn : n < 2 ^ 16) (h : Upcoming buff (netBytes 2 n ++ rest))
    (little : Bool) :
    buff.readUnShort little = (BitVec.ofNat 16 n, buff.readLen 2) ∧ Upcoming (buff.readLen 2) rest := by
  obtain ⟨hread, hrest⟩ := h.split
  rw [length_netBytes] at hread hrest
  refine ⟨?_, hrest⟩
  have hvalue : WordBytes.value (netBytes 2 n).reverse = n := by
    apply (value_reverse_eq_iff (by rw [length_netBytes]; exact hn)).mpr
    rw [length_netBytes]
  rw [ByteBuff.readUnShort, readT_eq, hread, hvalue]

end Upcoming

def machineOrder (little : Bool) (n : Nat) : Nat := if little then n % 256 * 256 + n / 256 else n

section MachineOrder

variable {n : Nat}

lemma machineOrder_lt (little : Bool) (hn : n < 2 ^ 16) : machineOrder little n < 2 ^ 16 := by
  unfold machineOrder
  split_ifs <;> omega

lemma stored_two (little : Bool) (hn : n < 2 ^ 16) : stored little 2 n = netBytes 2 (machineOrder little n) := by
  cases little with
  | false => rfl
  | true =>
    have hlow : UInt8.ofNat (n % 256 * 256 + n / 256) = UInt8.ofNat (n / 256) := by
      apply UInt8.toNat_inj.mp
      rw [UInt8.toNat_ofNat', UInt8.toNat_ofNat']
      omega
    have hhigh : UInt8.ofNat ((n % 256 * 256 + n / 256) / 256) = UInt8.ofNat n := by
      have hdiv : (n % 256 * 256 + n / 256) / 256 = n % 256 := by omega
      apply UInt8.toNat_inj.mp
      rw [hdiv, UInt8.toNat_ofNat', UInt8.toNat_ofNat']
      omega
    simp [stored, netBytes, machineOrder, WordBytes.bytes, hlow, hhigh]

@[simp] lemma length_stored (little : Bool) (width value : Nat) : (stored little width value).length = width := by
  cases little <;> simp [stored]

end MachineOrder

def WordType.writtenSize : WordType → Nat
  | .unInt => 2
  | type => type.size

def BuffValue.writtenSize : BuffValue → Nat
  | .word type _ => WordType.writtenSize type
  | .bytes data => data.length

def BuffValue.size : BuffValue → Nat
  | .word type _ => type.size
  | .bytes data => data.length

def BuffValue.encoding : BuffValue → Bytes
  | .word type value => netBytes type.size value.toNat
  | .bytes data => data

def lastString : List BuffValue → Nat → Option UInt8
  | [], _ => none
  | .word _ _ :: values, i => lastString values i
  | .bytes data :: values, i => (lastString values i).or data[i]?

/-- No byte string changes what the values have in the memory when they are written in order from `pos` on. The
place of a byte string gets its bytes only from the start of this or of a later byte string. -/
def StringsKeep (memory : Nat → UInt8) : Nat → List BuffValue → Prop
  | _, [] => True
  | pos, .word type value :: values =>
    (∀ k byte, (netBytes type.size value.toNat)[k]? = some byte →
      ∀ other ∈ lastString values (pos + k), other = byte) ∧
      StringsKeep memory (pos + type.size) values
  | pos, .bytes data :: values =>
    (∀ k byte, data[k]? = some byte →
      (lastString (.bytes data :: values) (pos + k)).getD (memory (pos + k)) = byte) ∧
      StringsKeep memory (pos + data.length) values

section Values

variable {little : Bool} {buff : ByteBuff} {values : List BuffValue}

variable (value : BuffValue)

lemma writeValue_writeIndex :
    (buff.writeValue little value).writeIndex = buff.writeIndex + BuffValue.writtenSize value := by
  cases value with
  | word type value => cases type <;> rfl
  | bytes data => rfl

lemma writeValue_readIndex : (buff.writeValue little value).readIndex = buff.readIndex := by
  cases value with
  | word type value => cases type <;> rfl
  | bytes data => rfl

lemma writeValue_word {type : WordType} (htype : type ≠ .unInt) (value : BitVec (8 * type.size)) :
    (buff.writeValue little (.word type value)).data =
      write buff.data buff.writeIndex (netBytes type.size value.toNat) := by
  cases type with
  | unInt => exact absurd rfl htype
  | short | unShort => exact congrArg ByteBuff.data (writeT_eq little buff 2 value.toNat 0)
  | int => exact congrArg ByteBuff.data (writeT_eq little buff 4 value.toNat 0)
  | long | longLong | unLong | unLongLong =>
    exact congrArg ByteBuff.data (writeT_eq little buff 8 value.toNat 0)

lemma writeValue_bytes (data : Bytes) (i : Nat) :
    (buff.writeValue little (.bytes data)).data i = data[i]?.getD (buff.data i) := by
  change write buff.data 0 data i = _
  rw [write, if_neg (Nat.not_lt_zero i), Nat.sub_zero, getD_eq_getElem?_getD]

lemma writtenSize_eq (h : ∀ word, value ≠ .word .unInt word) :
    BuffValue.writtenSize value = BuffValue.size value := by
  cases value with
  | bytes data => rfl
  | word type word =>
    cases type with
    | unInt => exact absurd rfl (h word)
    | _ => rfl

lemma readWord_eq (type : WordType) : buff.readWord little type =
    (BitVec.ofNat (8 * type.size) (WordBytes.value (ByteBlock.read buff.data buff.readIndex type.size).reverse),
      buff.readLen type.size) := by
  cases type <;>
    simp only [readWord, readShort, readInt, readLong, readLongLong, readUnShort, readUnInt, readUnLong,
      readUnLongLong, readT_eq] <;>
    rfl

lemma readValue_buff : (buff.readValue little value.type).2 = buff.readLen (BuffValue.size value) := by
  cases value with
  | word type value => rw [BuffValue.type, readValue, readWord_eq]; rfl
  | bytes data => rfl

lemma readValue_eq_iff : (buff.readValue little value.type).1 = value ↔
    ByteBlock.read buff.data buff.readIndex (BuffValue.size value) = BuffValue.encoding value := by
  cases value with
  | bytes data =>
    rw [BuffValue.type, readValue, readBytes, BuffValue.size, BuffValue.encoding, BuffValue.bytes.injEq]
  | word type value =>
    have hpow : 256 ^ type.size = 2 ^ (8 * type.size) := by
      rw [pow_mul]
      rfl
    generalize hbytes : ByteBlock.read buff.data buff.readIndex type.size = bytes
    have hlength : bytes.length = type.size := by
      rw [← hbytes, length_read]
    have hvalue : value.toNat < 256 ^ bytes.length := by
      rw [hlength, hpow]
      exact value.isLt
    have hsmall : WordBytes.value bytes.reverse < 2 ^ (8 * type.size) := by
      have hmod := WordBytes.value_bytes bytes.length (WordBytes.value bytes.reverse)
      rw [← length_reverse, WordBytes.bytes_value, length_reverse, hlength, hpow] at hmod
      rw [hmod]
      exact Nat.mod_lt _ (Nat.two_pow_pos _)
    rw [BuffValue.type, readValue, readWord_eq, BuffValue.size, BuffValue.encoding, hbytes]
    simp only [BuffValue.word.injEq, heq_eq_eq, true_and]
    have hiff := value_reverse_eq_iff hvalue
    rw [hlength] at hiff
    rw [← hiff, ← BitVec.toNat_inj, BitVec.toNat_ofNat, Nat.mod_eq_of_lt hsmall]

lemma writeValues_before (hwords : ∀ type value, .word type value ∈ values → type ≠ .unInt) {i : Nat}
    (hi : i < buff.writeIndex) :
    (buff.writeValues little values).data i = (lastString values i).getD (buff.data i) := by
  induction values generalizing buff with
  | nil => rfl
  | cons value values ih =>
    have hrest := @ih (buff.writeValue little value)
      (fun type word hword => hwords type word (mem_cons_of_mem _ hword))
      (by rw [writeValue_writeIndex]; omega)
    rw [writeValues, foldl_cons]
    rw [writeValues] at hrest
    rw [hrest]
    cases value with
    | word type word =>
      rw [writeValue_word (hwords type word mem_cons_self), write, if_pos hi, lastString]
    | bytes data =>
      rw [writeValue_bytes, lastString]
      cases lastString values i <;> rfl

lemma read_eq_iff (f : Nat → UInt8) (pos : Nat) (l : Bytes) :
    ByteBlock.read f pos l.length = l ↔ ∀ k byte, l[k]? = some byte → f (pos + k) = byte := by
  induction l generalizing pos with
  | nil => simp
  | cons b l ih =>
    rw [length_cons, ByteBlock.read, List.cons.injEq, ih]
    constructor
    · rintro ⟨hfirst, hrest⟩ k byte hk
      cases k with
      | zero =>
        obtain rfl : b = byte := by simpa using hk
        exact hfirst
      | succ k =>
        rw [show pos + (k + 1) = pos + 1 + k by omega]
        exact hrest k byte (by simpa using hk)
    · intro hall
      constructor
      · exact hall 0 b rfl
      · intro k byte hk
        rw [show pos + 1 + k = pos + (k + 1) by omega]
        exact hall (k + 1) byte (by simpa using hk)

lemma length_encoding : (BuffValue.encoding value).length = BuffValue.size value := by
  cases value with
  | word type value => exact length_netBytes _ _
  | bytes data => rfl

def Placed (data : Nat → UInt8) : Nat → List BuffValue → Prop
  | _, [] => True
  | pos, value :: values =>
    ByteBlock.read data pos (BuffValue.size value) = BuffValue.encoding value ∧
      Placed data (pos + BuffValue.size value) values

lemma readValues_eq_iff : (buff.readValues little (values.map BuffValue.type)).1 = values ↔
    Placed buff.data buff.readIndex values := by
  induction values generalizing buff with
  | nil => simp [readValues, Placed]
  | cons value values ih =>
    have hvalue := @readValue_eq_iff little buff value
    have hbuff := @readValue_buff little buff value
    have hrest := @ih (buff.readLen (BuffValue.size value))
    rw [map_cons, readValues]
    dsimp only
    rw [hbuff, List.cons.injEq, hvalue, hrest]
    rfl

lemma readValues_buff : (buff.readValues little (values.map BuffValue.type)).2 =
    buff.readLen (values.map BuffValue.size).sum := by
  induction values generalizing buff with
  | nil => rfl
  | cons value values ih =>
    rw [map_cons, readValues]
    dsimp only
    rw [readValue_buff, ih, map_cons, sum_cons, readLen_readLen]

lemma writeValues_indices : (buff.writeValues little values).writeIndex =
      buff.writeIndex + (values.map BuffValue.writtenSize).sum ∧
    (buff.writeValues little values).readIndex = buff.readIndex := by
  induction values generalizing buff with
  | nil => exact ⟨rfl, rfl⟩
  | cons value values ih =>
    obtain ⟨hwrite, hread⟩ := @ih (buff.writeValue little value)
    rw [writeValues] at hwrite hread ⊢
    rw [foldl_cons, hwrite, hread, writeValue_writeIndex, writeValue_readIndex, map_cons, sum_cons, Nat.add_assoc]
    exact ⟨rfl, rfl⟩

lemma sum_writtenSize : (values.map BuffValue.writtenSize).sum ≤ (values.map BuffValue.size).sum ∧
    ((values.map BuffValue.size).sum = (values.map BuffValue.writtenSize).sum ↔
      ∀ type value, .word type value ∈ values → type ≠ .unInt) := by
  induction values with
  | nil => simp
  | cons value values ih =>
    obtain ⟨hle, hiff⟩ := ih
    simp only [map_cons, sum_cons, mem_cons]
    by_cases hunInt : ∃ word, value = .word .unInt word
    · obtain ⟨word, rfl⟩ := hunInt
      have hsize : BuffValue.size (.word .unInt word) = 4 := rfl
      have hwritten : BuffValue.writtenSize (.word .unInt word) = 2 := rfl
      rw [hsize, hwritten]
      refine ⟨by omega, fun h => by omega, fun h => ?_⟩
      exact absurd rfl (h .unInt word (.inl rfl))
    · rw [writtenSize_eq value (not_exists.1 hunInt), Nat.add_left_cancel_iff, hiff]
      refine ⟨by omega, ?_, ?_⟩
      · rintro hall type word (heq | hmem) rfl
        · exact hunInt ⟨word, heq.symm⟩
        · exact hall _ word hmem rfl
      · intro hall type word hmem
        exact hall type word (.inr hmem)

lemma placed_writeValues_iff (memory : Nat → UInt8) (hfresh : ∀ i, buff.writeIndex ≤ i → buff.data i = memory i)
    (hwords : ∀ type value, .word type value ∈ values → type ≠ .unInt) :
    Placed (buff.writeValues little values).data buff.writeIndex values ↔
      StringsKeep memory buff.writeIndex values := by
  induction values generalizing buff with
  | nil => exact Iff.rfl
  | cons value values ih =>
    generalize hnext : buff.writeValue little value = next
    have hrestWords : ∀ type word, .word type word ∈ values → type ≠ .unInt :=
      fun type word hword => hwords type word (mem_cons_of_mem _ hword)
    have hindex : next.writeIndex = buff.writeIndex + BuffValue.size value := by
      rw [← hnext, writeValue_writeIndex, writtenSize_eq]
      rintro word rfl
      exact hwords _ word mem_cons_self rfl
    have hwrite : buff.writeValues little (value :: values) = next.writeValues little values := by
      rw [writeValues, foldl_cons, hnext, writeValues]
    have hbehind : ∀ k byte, (BuffValue.encoding value)[k]? = some byte →
        (next.writeValues little values).data (buff.writeIndex + k) =
          (lastString values (buff.writeIndex + k)).getD (next.data (buff.writeIndex + k)) := by
      intro k byte hk
      have hlt := (List.getElem?_eq_some_iff.mp hk).1
      rw [length_encoding] at hlt
      exact writeValues_before hrestWords (by omega)
    have hafter : ∀ i, next.writeIndex ≤ i → next.data i = memory i := by
      intro i hi
      rw [← hfresh i (by omega), ← hnext]
      cases value with
      | bytes data =>
        rw [BuffValue.size] at hindex
        rw [writeValue_bytes, getElem?_eq_none (by omega), Option.getD_none]
      | word type word =>
        rw [BuffValue.size] at hindex
        rw [writeValue_word (hwords type word mem_cons_self), write, if_neg (by omega),
          getD_eq_default _ _ (by rw [length_netBytes]; omega)]
    have hrest := ih hafter hrestWords
    rw [hindex] at hrest
    rw [Placed, hwrite, hrest, ← length_encoding, read_eq_iff, length_encoding]
    cases value with
    | bytes data =>
      refine and_congr ?_ Iff.rfl
      apply forall_congr'
      intro k
      apply forall_congr'
      intro byte
      apply imp_congr_right
      intro hk
      rw [hbehind k byte hk, lastString, ← hnext, writeValue_bytes, hfresh _ (by omega)]
      cases lastString values (buff.writeIndex + k) <;> exact Iff.rfl
    | word type word =>
      refine and_congr ?_ Iff.rfl
      apply forall_congr'
      intro k
      apply forall_congr'
      intro byte
      apply imp_congr_right
      intro hk
      rw [BuffValue.encoding] at hk
      have hdata : next.data (buff.writeIndex + k) = byte := by
        rw [← hnext, writeValue_word (hwords type word mem_cons_self), write, if_neg (by omega),
          Nat.add_sub_cancel_left, getD_eq_getElem?_getD, hk, Option.getD_some]
      rw [hbehind k byte hk, hdata]
      cases lastString values (buff.writeIndex + k) with
      | none => simp
      | some other => simp

end Values

/-- Values come back from a buffer if and only if none of them is an `unsigned int` and no byte string changes the
others. -/
theorem buffValues_roundTrip_iff (little : Bool) (memory : Nat → UInt8) (values : List BuffValue) :
    RoundTrips little memory values ↔
      (∀ type value, .word type value ∈ values → type ≠ .unInt) ∧ StringsKeep memory 0 values := by
  generalize hbuff : (⟨memory, 0, 0⟩ : ByteBuff).writeValues little values = buff
  obtain ⟨hwrite, hread⟩ := @writeValues_indices little ⟨memory, 0, 0⟩ values
  rw [hbuff] at hwrite hread
  have hindices : (buff.readValues little (values.map BuffValue.type)).2.readIndex =
      (buff.readValues little (values.map BuffValue.type)).2.writeIndex ↔
        ∀ type value, .word type value ∈ values → type ≠ .unInt := by
    rw [readValues_buff, ← sum_writtenSize.2]
    change buff.readIndex + _ = buff.writeIndex ↔ _
    rw [hwrite, hread]
    simp
  unfold RoundTrips
  rw [hbuff]
  dsimp only
  rw [hindices, readValues_eq_iff, hread, and_comm]
  apply and_congr_right
  intro hwords
  have hiff := @placed_writeValues_iff little ⟨memory, 0, 0⟩ values memory (fun _ _ => rfl) hwords
  rw [hbuff] at hiff
  exact hiff

/-- A `short` of 258 is read as 1794 when the string of the one byte 7 has been written behind it. -/
theorem string_changes_short : ¬RoundTrips true (fun _ => 0) [.word .short 258#16, .bytes [7]] := by
  rintro ⟨hvalues, -⟩
  have hfirst := congrArg (fun values => values.head?.map BuffValue.encoding) hvalues
  exact absurd hfirst (by decide)

end MyLibevent.Proofs
