import MyLibevent.EventTagging

/-!
# Marshalled items are read back

Every item that was marshalled is read back by the function of its kind, from its own bytes and
whatever follows them.
-/

namespace MyLibevent.Proofs

open List

section Nibbles

lemma shifted_nibble : ∀ x < 16, ((x <<< 4) &&& 0x0f = 0) ∧ ((x <<< 4) &&& 0xf0) >>> 4 = x := by
  decide

lemma and_0f (x : Nat) : x &&& 0x0f = x % 16 := Nat.and_two_pow_sub_one_eq_mod x 4

variable (data : Nat → Nat)

lemma nibbleAt_lt (i : Nat) : nibbleAt data i < 16 := by
  unfold nibbleAt
  split
  · rw [and_0f]
    omega
  · have hle : data (i / 2) &&& 0xf0 ≤ 0xf0 := Nat.and_le_right
    rw [Nat.shiftRight_eq_div_pow]
    omega

lemma nibbleAt_setNibble (off x i : Nat) :
    nibbleAt (setNibble data off x) i = if i = off then x % 16 else nibbleAt data i := by
  obtain ⟨hlow, hhigh⟩ := shifted_nibble (x % 16) (Nat.mod_lt _ (by omega))
  rw [← and_0f] at hlow hhigh
  have hzero : (0xf0 : Nat) &&& 0x0f = 0 := rfl
  unfold nibbleAt setNibble
  by_cases hhalf : i / 2 = off / 2
  · by_cases hoff : off % 2 = 1 <;> by_cases hi : i % 2 = 1 <;>
      simp only [hoff, hi, hhalf, if_true, if_false, Function.update_self,
        Nat.and_or_distrib_right, Nat.and_assoc, Nat.and_self]
    · rw [if_pos (by omega), hzero, Nat.and_zero, Nat.zero_or, and_0f]
    · rw [if_neg (by omega), Nat.and_comm 0x0f, hzero, Nat.and_zero, Nat.or_zero]
    · rw [if_neg (by omega), hlow, Nat.or_zero]
    · rw [if_pos (by omega), Nat.and_comm 0x0f, hzero, Nat.and_zero, Nat.zero_or, hhigh, and_0f]
  · have hne : i ≠ off := by
      intro h
      exact hhalf (by rw [h])
    by_cases hoff : off % 2 = 1 <;> simp [hoff, hhalf, hne]

lemma encodeNibbles_spec (off number : Nat) (hzero : ∀ i, off ≤ i → nibbleAt data i = 0) :
    (encodeNibbles data off number).2 = off + (Nat.digits 16 number).length ∧
    ∀ i, nibbleAt (encodeNibbles data off number).1 i =
      if i < off then nibbleAt data i else (Nat.digits 16 number).getD (i - off) 0 := by
  fun_induction encodeNibbles data off number with
  | case1 data off =>
    simp only [Nat.digits_zero, length_nil, Nat.add_zero, getD_nil, true_and]
    intro i
    split
    · rfl
    · exact hzero i (by omega)
  | case2 data off number hpos ih =>
    have hnext : ∀ i, off + 1 ≤ i → nibbleAt (setNibble data off number) i = 0 := by
      intro i hi
      rw [nibbleAt_setNibble data off number i, if_neg (by omega)]
      exact hzero i (by omega)
    have hdiv : number >>> 4 = number / 16 := Nat.shiftRight_eq_div_pow number 4
    have hdigits : Nat.digits 16 number = number % 16 :: Nat.digits 16 (number / 16) :=
      Nat.digits_def' (by omega) (by omega)
    obtain ⟨hoff, hnib⟩ := ih hnext
    rw [hdiv] at hoff hnib ⊢
    rw [hdigits]
    constructor
    · rw [hoff, length_cons]
      omega
    · intro i
      rw [hnib i, nibbleAt_setNibble data off number i]
      by_cases hlt : i < off
      · rw [if_pos (by omega), if_neg (by omega), if_pos hlt]
      · by_cases heq : i = off
        · subst heq
          simp
        · have hsub : i - off = (i - (off + 1)) + 1 := by omega
          rw [if_neg (by omega), if_neg hlt, hsub, getD_cons_succ]

lemma decodeNibbles_eq (n number : Nat) :
    decodeNibbles data n number =
      number * 16 ^ n + Nat.ofDigits 16 ((List.range n).map fun i => nibbleAt data (i + 1)) := by
  induction n generalizing number with
  | zero => simp [decodeNibbles, Nat.ofDigits_nil]
  | succ n ih =>
    have hor : number <<< 4 ||| nibbleAt data (n + 1) = number * 16 + nibbleAt data (n + 1) := by
      rw [← Nat.shiftLeft_add_eq_or_of_lt (nibbleAt_lt data (n + 1)), Nat.shiftLeft_eq]
    rw [decodeNibbles, ih, hor, range_succ, map_append, Nat.ofDigits_append]
    simp only [map_cons, map_nil, Nat.ofDigits_singleton, length_map, length_range]
    ring

lemma nibbleAt_mod (i : Nat) : nibbleAt (fun j => data j % 256) i = nibbleAt data i := by
  have hmod : ∀ x : Nat, x % 256 = x &&& 0xff := fun x => (Nat.and_two_pow_sub_one_eq_mod x 8).symm
  simp only [nibbleAt, hmod, Nat.and_assoc]
  rfl

def nibbleCount (number : Nat) : Nat := max 1 (Nat.digits 16 number).length

lemma nibbleCount_le (number maxnibbles : Nat) (hmax : 0 < maxnibbles)
    (h : number < 16 ^ maxnibbles) : nibbleCount number ≤ maxnibbles := by
  unfold nibbleCount
  have hlen := (Nat.digits_length_le_iff (by omega) number).2 h
  omega

lemma encodeIntInternal_spec (number : Nat) (h : number < 16 ^ 16) :
    ∃ data : Nat → Nat,
      encodeIntInternal number = (List.range (nibbleCount number / 2 + 1)).map (fun i => UInt8.ofNat (data i)) ∧
      nibbleAt data 0 = nibbleCount number - 1 ∧
      ∀ i, nibbleAt data (i + 1) = (Nat.digits 16 number).getD i 0 := by
  have hcount := nibbleCount_le number 16 (by omega) h
  obtain ⟨hoff, hnib⟩ := encodeNibbles_spec (fun _ => 0) 1 number (by
    intro i _
    simp [nibbleAt])
  unfold encodeIntInternal
  generalize encodeNibbles (fun _ => 0) 1 number = r at *
  have hnibbles : (if 2 < r.2 then r.2 - 2 else 0) = nibbleCount number - 1 := by
    unfold nibbleCount
    split <;> omega
  refine ⟨setNibble r.1 0 (nibbleCount number - 1), ?_, ?_, ?_⟩
  · dsimp only
    rw [hnibbles]
    congr 2
    unfold nibbleCount
    omega
  · rw [nibbleAt_setNibble, if_pos rfl, Nat.mod_eq_of_lt (by omega)]
  · intro i
    rw [nibbleAt_setNibble, if_neg (by omega), hnib (i + 1), if_neg (by omega), Nat.add_sub_cancel]

lemma length_encodeIntInternal (number : Nat) (h : number < 16 ^ 16) :
    (encodeIntInternal number).length = nibbleCount number / 2 + 1 := by
  obtain ⟨data, heq, -, -⟩ := encodeIntInternal_spec number h
  simp [heq]

lemma map_getD_range (l : List Nat) (n : Nat) (h : l.length ≤ n) :
    (List.range n).map (fun i => l.getD i 0) = l ++ List.replicate (n - l.length) 0 := by
  apply ext_getElem?
  intro i
  grind

lemma decodeIntInternal_encode (maxnibbles number : Nat) (hmax : 0 < maxnibbles)
    (hle : maxnibbles ≤ 16) (h : number < 16 ^ maxnibbles) (before rest : Bytes) :
    decodeIntInternal maxnibbles (before ++ encodeIntInternal number ++ rest) before.length =
      some (number, (encodeIntInternal number).length) := by
  have h16 : number < 16 ^ 16 := lt_of_lt_of_le h (Nat.pow_le_pow_right (by omega) hle)
  have hcount := nibbleCount_le number maxnibbles hmax h
  have hlen := length_encodeIntInternal number h16
  obtain ⟨data, heq, hfirst, hnext⟩ := encodeIntInternal_spec number h16
  have hbytes : ∀ i ≤ nibbleCount number / 2,
      bytesAt (before ++ encodeIntInternal number ++ rest) before.length i = data i % 256 := by
    intro i hi
    rw [bytesAt, append_assoc, getD_append_right _ _ _ _ (by omega),
      Nat.add_sub_cancel_left, getD_append _ _ _ _ (by omega), heq,
      getD_eq_getElem?_getD]
    simp [show i < nibbleCount number / 2 + 1 by omega]
  generalize hbuf : before ++ encodeIntInternal number ++ rest = buf at hbytes ⊢
  have hbuflen : before.length + (nibbleCount number / 2 + 1) ≤ buf.length := by
    rw [← hbuf, ← hlen]
    simp only [length_append]
    omega
  have hnibbles : ∀ i ≤ nibbleCount number, nibbleAt (bytesAt buf before.length) i = nibbleAt data i := by
    intro i hi
    rw [← nibbleAt_mod data i]
    simp only [nibbleAt, hbytes (i / 2) (Nat.div_le_div_right hi)]
  have hpos : 0 < nibbleCount number := by
    unfold nibbleCount
    omega
  have hread : ((bytesAt buf before.length 0 &&& 0xf0) >>> 4) + 1 = nibbleCount number := by
    have h0 : (bytesAt buf before.length 0 &&& 0xf0) >>> 4 = nibbleCount number - 1 := by
      rw [← hfirst, ← hnibbles 0 (by omega)]
      rfl
    omega
  have hnumber : decodeNibbles (bytesAt buf before.length) (nibbleCount number) 0 = number := by
    have hmap : (List.range (nibbleCount number)).map
          (fun i => nibbleAt (bytesAt buf before.length) (i + 1)) =
        (List.range (nibbleCount number)).map (fun i => (Nat.digits 16 number).getD i 0) := by
      apply map_congr_left
      intro i hi
      rw [hnibbles (i + 1) (by simpa using hi), hnext i]
    rw [decodeNibbles_eq, hmap, map_getD_range _ _ (by unfold nibbleCount; omega),
      Nat.ofDigits_append_replicate_zero, Nat.ofDigits_digits]
    omega
  unfold decodeIntInternal
  simp only [hread, hnumber, hlen, Nat.shiftRight_one]
  rw [if_neg (by omega), if_neg (by omega)]

end Nibbles

section Tags

lemma low_seven (tag : Nat) : tag &&& 0x7f < 128 := by
  have hmod : tag &&& 0x7f = tag % 128 := Nat.and_two_pow_sub_one_eq_mod tag 7
  omega

lemma continued_byte (tag : Nat) :
    ((tag &&& 0x7f ||| 0x80) &&& 0x7f = tag &&& 0x7f) ∧ (tag &&& 0x7f ||| 0x80) &&& 0x80 = 0x80 ∧
      tag &&& 0x7f ||| 0x80 < 256 := by
  refine ⟨?_, ?_, ?_⟩
  · rw [Nat.and_or_distrib_right, Nat.and_assoc]
    simp
  · rw [Nat.and_or_distrib_right, Nat.and_assoc]
    simp
  · have h := low_seven tag
    exact Nat.or_lt_two_pow (n := 8) (by omega) (by omega)

lemma last_byte (tag : Nat) : (tag &&& 0x7f) &&& 0x80 = 0 ∧ (tag &&& 0x7f) &&& 0x7f = tag &&& 0x7f := by
  constructor <;> simp [Nat.and_assoc]

lemma tag_split (tag shift : Nat) : (tag &&& 0x7f) <<< shift ||| (tag >>> 7) <<< (shift + 7) = tag <<< shift := by
  have hparts : (tag &&& 0x7f) ||| (tag >>> 7) <<< 7 = tag := by
    have hmod : tag &&& 0x7f = tag % 2 ^ 7 := Nat.and_two_pow_sub_one_eq_mod tag 7
    rw [hmod, Nat.or_comm, ← Nat.shiftLeft_add_eq_or_of_lt (Nat.mod_lt _ (by decide)),
      Nat.shiftLeft_eq, Nat.shiftRight_eq_div_pow]
    omega
  rw [Nat.add_comm shift 7, Nat.shiftLeft_add, ← Nat.shiftLeft_or_distrib, hparts]

lemma decodeTagLoop_encode (tag j number count : Nat) (hj : j ≤ 4) (htag : tag < 2 ^ (32 - 7 * j))
    (rest : Bytes) :
    decodeTagLoop (encodeTagBytes tag ++ rest) (7 * j) number count =
      some (number ||| tag <<< (7 * j), count + (encodeTagBytes tag).length) := by
  induction tag using Nat.strongRecOn generalizing j number count with
  | ind tag ih =>
    have hfit : ¬(28 ≤ 7 * j ∧ (28 < 7 * j ∨ 15 < tag &&& 0x7f)) := by
      intro h
      have h4 : j = 4 := by omega
      subst h4
      have hand : tag &&& 0x7f ≤ tag := Nat.and_le_left
      omega
    rw [encodeTagBytes]
    split_ifs with hzero
    · have hbyte : (UInt8.ofNat (tag &&& 0x7f)).toNat = tag &&& 0x7f := by
        rw [UInt8.toNat_ofNat', Nat.mod_eq_of_lt (by have := low_seven tag; omega)]
      have hsplit := tag_split tag (7 * j)
      rw [hzero, Nat.zero_shiftLeft, Nat.or_zero] at hsplit
      simp only [cons_append, nil_append, decodeTagLoop, hbyte, last_byte tag, hfit,
        if_false, if_true, hsplit, length_cons, length_nil]
    · obtain ⟨hlow, hhigh, hlt⟩ := continued_byte tag
      have hbyte : (UInt8.ofNat (tag &&& 0x7f ||| 0x80)).toNat = tag &&& 0x7f ||| 0x80 := by
        rw [UInt8.toNat_ofNat', Nat.mod_eq_of_lt hlt]
      have hj3 : j ≤ 3 := by
        by_contra h4
        have h4 : j = 4 := by omega
        subst h4
        omega
      have hpow : 2 ^ (32 - 7 * j) = 2 ^ (32 - 7 * (j + 1)) * 128 := by
        rw [show 32 - 7 * j = 32 - 7 * (j + 1) + 7 by omega, Nat.pow_add]
      have hrest := ih (tag >>> 7) (by omega) (j + 1)
        (number ||| (tag &&& 0x7f) <<< (7 * j)) (count + 1) (by omega) (by omega)
      rw [Nat.mul_add, Nat.mul_one] at hrest
      simp only [cons_append, decodeTagLoop, hbyte, hlow, hhigh, hfit, if_false, show ¬(0x80 : Nat) = 0 by omega]
      rw [hrest, Nat.or_assoc, tag_split, length_cons]
      congr 2
      omega

lemma decodeTagInternal_encode (tag : Nat) (htag : tag < 2 ^ 32) (rest : Bytes) :
    decodeTagInternal (encodeTagBytes tag ++ rest) = some (tag, (encodeTagBytes tag).length) := by
  have h := decodeTagLoop_encode tag 0 0 0 (by omega) (by simpa using htag) rest
  simpa [decodeTagInternal] using h

end Tags

section Items

lemma evtagDecodeInt_encode (number : Nat) (h : number < 2 ^ 32) (rest : Bytes) :
    evtagDecodeInt (encodeIntInternal number ++ rest) = (some number, rest) := by
  have hdecode := decodeIntInternal_encode 8 number (by omega) (by omega) (by omega) [] rest
  simp only [nil_append, length_nil] at hdecode
  simp [evtagDecodeInt, hdecode]

lemma evtagUnmarshalHeader_encode (tag len : Nat) (htag : tag < 2 ^ 32) (hlen : len < 2 ^ 32)
    (rest : Bytes) (hrest : len ≤ rest.length) :
    evtagUnmarshalHeader (encodeTagBytes tag ++ (encodeIntInternal len ++ rest)) =
      (Int.bmod len (2 ^ 32), tag, rest) := by
  simp only [evtagUnmarshalHeader, decodeTagInternal_encode tag htag, drop_left,
    evtagDecodeInt_encode len hlen, if_neg (show ¬rest.length < len by omega)]

lemma bmod_of_small (len : Nat) (h : len < 2 ^ 31) : Int.bmod len (2 ^ 32) = len := by
  simp only [Int.bmod]
  omega

def framed (tag : Nat) (payload : Bytes) : Bytes :=
  encodeTagBytes tag ++ (encodeIntInternal payload.length ++ payload)

section

variable (tag : Nat) (payload rest : Bytes) (htag : tag < 2 ^ 32) (hlen : payload.length < 2 ^ 31)
include htag hlen

lemma header_framed : evtagUnmarshalHeader (framed tag payload ++ rest) =
    ((payload.length : Int), tag, payload ++ rest) := by
  rw [framed, append_assoc, append_assoc,
    evtagUnmarshalHeader_encode tag payload.length htag (by omega) (payload ++ rest) (by simp),
    bmod_of_small _ hlen]

lemma evtagUnmarshal_framed : evtagUnmarshal (framed tag payload ++ rest) [] =
    ((payload.length : Int), tag, rest, payload) := by
  have hnonneg : ¬(payload.length : Int) < 0 := by omega
  simp [evtagUnmarshal, header_framed tag payload rest htag hlen, drainInt, hnonneg]

end

lemma evtagUnmarshalString_framed (tag : Nat) (payload rest : Bytes) (htag : tag < 2 ^ 32)
    (hlen : payload.length < 2 ^ 31 - 1) :
    evtagUnmarshalString (framed tag payload ++ rest) tag = (some (payload ++ [0]), rest) := by
  have hsize : Int.bmod ((payload.length : Int) + 1) (2 ^ 32) = payload.length + 1 := by
    exact_mod_cast bmod_of_small (payload.length + 1) (by omega)
  simp only [evtagUnmarshalString, header_framed tag payload rest htag (by omega), hsize]
  rw [if_neg (by omega), if_neg (by omega)]
  simp

lemma encodeIntInternal_small (number : Nat) (h : number < 2 ^ 64) : (encodeIntInternal number).length ≤ 9 := by
  have hcount := nibbleCount_le number 16 (by omega) (by omega)
  rw [length_encodeIntInternal number (by omega)]
  omega

lemma unmarshalIntWith_framed (maxnibbles tag integer : Nat) (htag : tag < 2 ^ 32)
    (hmax : 0 < maxnibbles) (hle : maxnibbles ≤ 16) (hint : integer < 16 ^ maxnibbles)
    (rest : Bytes) :
    unmarshalIntWith maxnibbles (framed tag (encodeIntInternal integer) ++ rest) tag = (some integer, rest) := by
  have h64 : integer < 2 ^ 64 :=
    lt_of_lt_of_le hint (by simpa using Nat.pow_le_pow_right (n := 16) (by omega) hle)
  have hlen := encodeIntInternal_small integer h64
  have hdecode := decodeIntInternal_encode maxnibbles integer hmax hle hint [] rest
  simp only [nil_append, length_nil] at hdecode
  simp only [unmarshalIntWith, framed, append_assoc, decodeTagInternal_encode tag htag,
    drop_left, evtagDecodeInt_encode _ (show (encodeIntInternal integer).length < 2 ^ 32 by omega),
    hdecode, ne_eq, not_true_eq_false, if_false, lt_irrefl]
  rw [if_neg (by simp)]

lemma evtagUnmarshalTimeval_framed (tag sec usec : Nat) (htag : tag < 2 ^ 32)
    (hsec : sec < 2 ^ 32) (husec : usec < 2 ^ 32) (rest : Bytes) :
    evtagUnmarshalTimeval
        (framed tag (encodeIntInternal sec ++ encodeIntInternal usec) ++ rest) tag =
      (some ⟨sec, usec⟩, rest) := by
  have hs := encodeIntInternal_small sec (by omega)
  have hu := encodeIntInternal_small usec (by omega)
  have hfirst := decodeIntInternal_encode 8 sec (by omega) (by omega) (by omega) [] (encodeIntInternal usec ++ rest)
  have hsecond := decodeIntInternal_encode 8 usec (by omega) (by omega) (by omega) (encodeIntInternal sec) rest
  simp only [nil_append, length_nil] at hfirst
  rw [append_assoc] at hsecond
  simp only [evtagUnmarshalTimeval, header_framed tag _ rest htag
    (show (encodeIntInternal sec ++ encodeIntInternal usec).length < 2 ^ 31 by
      simp only [length_append]; omega), append_assoc, hfirst, hsecond]
  have hfits : ¬(((encodeIntInternal sec ++ encodeIntInternal usec).length : Int) <
      (encodeIntInternal sec).length + (encodeIntInternal usec).length) := by
    rw [length_append]
    omega
  have hnonneg : ¬((encodeIntInternal sec ++ encodeIntInternal usec).length : Int) < 0 := by omega
  rw [if_neg (by omega), if_neg hfits, ← append_assoc]
  simp only [drainInt, if_neg hnonneg, Int.toNat_natCast, drop_left, ne_eq, not_true_eq_false, if_false]

end Items

section Streams

/-- Values of their types, and payload lengths that fit the `int` the decoder uses for them (a string
needs one byte more for its terminator). -/
def ValidItem : TagItem → Prop
  | .int integer => integer < 2 ^ 32
  | .int64 integer => integer < 2 ^ 64
  | .bytes data => data.length < 2 ^ 31
  | .buffer data => data.length < 2 ^ 31
  | .fixed data => data.length < 2 ^ 31
  | .string chars => 0 ∉ chars ∧ chars.length < 2 ^ 31 - 1
  | .timeval tv => 0 ≤ tv.sec ∧ tv.sec < 2 ^ 32 ∧ tv.usec < 10 ^ 6

lemma takeWhile_terminated (chars : Bytes) (h : 0 ∉ chars) : (chars ++ [0]).takeWhile (· != 0) = chars := by
  have hall : ∀ c ∈ chars, (c != 0) := by
    intro c hc
    rw [bne_iff_ne]
    intro h0
    exact h (h0 ▸ hc)
  rw [takeWhile_append_of_pos hall]
  simp

lemma evtagMarshalString_eq (evbuf : Bytes) (tag : Nat) (chars : Bytes) (h : 0 ∉ chars)
    (hlen : chars.length < 2 ^ 32) :
    evtagMarshalString evbuf tag (chars ++ [0]) = evbuf ++ framed tag chars := by
  have hstrlen : strlen (chars ++ [0]) % 2 ^ 32 = chars.length := by
    rw [strlen, takeWhile_terminated chars h, Nat.mod_eq_of_lt hlen]
  rw [evtagMarshalString, hstrlen]
  simp [evtagMarshal, evtagEncodeInt, evtagEncodeTag, framed]

def itemPayload : TagItem → Bytes
  | .int integer => encodeIntInternal integer
  | .int64 integer => encodeIntInternal integer
  | .bytes data => data
  | .buffer data => data
  | .fixed data => data
  | .string chars => chars
  | .timeval tv => encodeIntInternal tv.sec.toNat ++ encodeIntInternal tv.usec

lemma marshalItem_eq (evbuf : Bytes) (tag : Nat) (item : TagItem) (h : ValidItem item) :
    marshalItem evbuf tag item = evbuf ++ framed tag (itemPayload item) := by
  cases item with
  | string chars => exact evtagMarshalString_eq evbuf tag chars h.1 (by have := h.2; omega)
  | buffer data =>
    have hlen : data.length % 2 ^ 32 = data.length := Nat.mod_eq_of_lt (lt_trans h (by omega))
    rw [marshalItem, evtagMarshalBuffer, hlen]
    simp [evtagEncodeInt, evtagEncodeTag, framed, itemPayload]
  | timeval tv =>
    obtain ⟨h0, hsec, husec⟩ := h
    have hs : tv.sec % 2 ^ 32 = tv.sec := Int.emod_eq_of_lt h0 hsec
    have hu : tv.usec % 2 ^ 32 = tv.usec := Nat.mod_eq_of_lt (by omega)
    rw [marshalItem, evtagMarshalTimeval, hs, hu]
    simp [evtagMarshal, evtagEncodeInt, evtagEncodeTag, framed, itemPayload]
  | _ =>
    simp [marshalItem, evtagMarshalInt, evtagMarshal, evtagEncodeInt, evtagEncodeTag, framed, itemPayload]

lemma unmarshalItem_framed (tag : Nat) (item : TagItem) (htag : tag < 2 ^ 32)
    (h : ValidItem item) (rest : Bytes) :
    unmarshalItem (framed tag (itemPayload item) ++ rest) tag item.request = (some (tag, item), rest) := by
  cases item with
  | int integer =>
    have hread := unmarshalIntWith_framed 8 tag integer htag (by omega) (by omega)
      (by simpa [ValidItem] using h) rest
    simp [unmarshalItem, TagItem.request, itemPayload, evtagUnmarshalInt, hread]
  | int64 integer =>
    have hread := unmarshalIntWith_framed 16 tag integer htag (by omega) (by omega)
      (by simpa [ValidItem] using h) rest
    simp [unmarshalItem, TagItem.request, itemPayload, evtagUnmarshalInt64, hread]
  | bytes data | buffer data =>
    have hne : ¬(data.length : Int) = -1 := by omega
    simp [unmarshalItem, TagItem.request, itemPayload, evtagUnmarshal_framed tag data rest htag h, hne]
  | fixed data =>
    have hnonneg : ¬(data.length : Int) < 0 := by omega
    simp [unmarshalItem, TagItem.request, itemPayload, evtagUnmarshalFixed,
      header_framed tag data rest htag h, hnonneg]
  | string chars =>
    simp [unmarshalItem, TagItem.request, itemPayload,
      evtagUnmarshalString_framed tag chars rest htag h.2, takeWhile_terminated chars h.1]
  | timeval tv =>
    obtain ⟨h0, hsec, husec⟩ := h
    have hread := evtagUnmarshalTimeval_framed tag tv.sec.toNat tv.usec htag (by omega) (by omega) rest
    have hcast : ((tv.sec.toNat : Int)) = tv.sec := Int.toNat_of_nonneg h0
    rw [hcast] at hread
    simp [unmarshalItem, TagItem.request, itemPayload, hread]

lemma marshalAll_append (evbuf : Bytes) (items : List (Nat × TagItem))
    (hok : ∀ item ∈ items, ValidItem item.2) :
    marshalAll evbuf items = evbuf ++ items.flatMap fun item => framed item.1 (itemPayload item.2) := by
  induction items generalizing evbuf with
  | nil => simp [marshalAll]
  | cons item items ih =>
    have hstep : marshalAll evbuf (item :: items) = marshalAll (marshalItem evbuf item.1 item.2) items := rfl
    rw [hstep, ih _ (fun i hi => hok i (mem_cons_of_mem _ hi)),
      marshalItem_eq _ _ _ (hok item mem_cons_self), flatMap_cons, append_assoc]

/-- Whatever was marshalled is read back by the matching calls: after the items `done` have been
read, the buffer holds exactly the bytes of the items `todo` and what was appended. -/
theorem evtag_items_read_back (items : List (Nat × TagItem))
    (hok : ∀ item ∈ items, item.1 < 2 ^ 32 ∧ ValidItem item.2) (rest : Bytes)
    (done todo : List (Nat × TagItem)) (hsplit : items = done ++ todo) :
    unmarshalAll (marshalAll [] items ++ rest) (done.map fun item => (item.1, item.2.request)) =
      (some done, marshalAll [] todo ++ rest) := by
  subst hsplit
  rw [marshalAll_append _ _ (fun i hi => (hok i hi).2),
    marshalAll_append _ _ (fun i hi => (hok i (mem_append_right _ hi)).2)]
  simp only [nil_append]
  induction done with
  | nil => simp [unmarshalAll]
  | cons item done ih =>
    obtain ⟨htag, hvalid⟩ := hok item (by simp)
    have hrest := ih (fun i hi => hok i (mem_cons_of_mem _ hi))
    simp only [cons_append, flatMap_cons, append_assoc, map_cons, unmarshalAll,
      unmarshalItem_framed item.1 item.2 htag hvalid]
    rw [hrest]
    rfl

theorem evtag_three_items_read_back :
    unmarshalAll (marshalAll [] [(300, .int 70000), (0, .string [104, 105]),
        (5, .timeval ⟨4000000000, 999999⟩)] ++ [1, 2])
      [(300, .int), (0, .string), (5, .timeval)] =
    (some [(300, .int 70000), (0, .string [104, 105]), (5, .timeval ⟨4000000000, 999999⟩)], [1, 2]) := by
  apply evtag_items_read_back _ _ [1, 2] _ [] (append_nil _).symm
  simp [ValidItem]

lemma string_wraps_to_empty (chars : Bytes) (hchars : 0 ∉ chars)
    (hlen : chars.length = 2 ^ 32) :
    unmarshalAll (marshalAll [] [(0, .string chars)]) [(0, .string)] = (some [(0, .string [])], []) := by
  have hstrlen : strlen (chars ++ [0]) % 2 ^ 32 = 0 := by
    rw [strlen, takeWhile_terminated chars hchars, hlen, Nat.mod_self]
  have hmarshal : evtagMarshalString [] 0 (chars ++ [0]) = framed 0 [] := by
    rw [evtagMarshalString, hstrlen]
    simp [evtagMarshal, evtagEncodeInt, evtagEncodeTag, framed]
  have hread := evtagUnmarshalString_framed 0 [] [] (by omega) (by simp)
  rw [append_nil] at hread
  simp only [marshalAll, foldl_cons, foldl_nil, marshalItem, unmarshalAll, unmarshalItem, hmarshal, hread]
  rfl

/-- The length field of a string has 32 bits: a NUL-free string of 2^32 bytes comes back empty. -/
theorem evtag_long_string_not_read_back :
    ∃ chars : Bytes, 0 ∉ chars ∧
      (unmarshalAll (marshalAll [] [(0, .string chars)]) [(0, .string)]).1 ≠ some [(0, .string chars)] := by
  have hchars : (0 : UInt8) ∉ List.replicate (2 ^ 32) (97 : UInt8) := by
    intro h
    exact absurd (eq_of_mem_replicate h) (by decide)
  refine ⟨List.replicate (2 ^ 32) 97, hchars, ?_⟩
  rw [string_wraps_to_empty _ hchars length_replicate]
  intro heq
  have hempty : ([] : Bytes) = List.replicate (2 ^ 32) 97 := by
    injection heq with heq
    injection heq with heq
    injection heq with _ heq
    injection heq
  have hlen := congrArg List.length hempty
  rw [length_replicate, length_nil] at hlen
  omega

end Streams

end MyLibevent.Proofs
