import MyLibevent.ClientCommEngine
import MyLibevent.Proofs.ServerCommEngine

/-!
# Encoding and decoding of the messages of clients

`WriteBytes` puts the body to the start of the memory, over the lengths and the head, and the decoder takes
the length of the body from where the head starts.
-/

namespace MyLibevent.Proofs

open ByteBuff ClientCommEngine List ByteBlock ByteBuff

section Tail

variable {x : Nat → Nat} {h b p : Nat}

/-- The last eight bytes of a body of length `b` that is read from behind a head of length `h`, which is itself
read from two bytes before it. -/
structure Tail (x : Nat → Nat) (h b : Nat) : Prop where
  copied : ∀ j < 8, b + j < h + 8 → x j = x ((j + 6) % 8)
  high : ∀ j < 8, b + j = h + 8 → x j = b / 256
  low : ∀ j < 8, b + j = h + 9 → x j = b % 256
  zero : ∀ j < 8, h + 10 ≤ b + j → x j = 0

lemma Tail.far (t : Tail x h b) (hfar : h + 4 ≤ b) {j : Nat} (hj : j < 8) (hhigh : b + j ≠ h + 8)
    (hlow : b + j ≠ h + 9) : x j = 0 := by
  -- the bytes that are copied come from the two last ones
  have hcopied : ∀ j < 2, b + j < h + 8 → x j = 0 := by
    intro j hj hlt
    rw [t.copied j (by omega) hlt, Nat.mod_eq_of_lt (by omega)]
    exact t.zero (j + 6) (by omega) (by omega)
  by_cases hlt : b + j < h + 8
  · by_cases htwo : j < 2
    · exact hcopied j htwo hlt
    · rw [t.copied j hj hlt, show (j + 6) % 8 = j - 2 by omega]
      exact hcopied (j - 2) (by omega) (by omega)
  · exact t.zero j hj (by omega)

/-- The lengths of the head and of the body stand in the tail from `p` on. -/
structure Lengths (x : Nat → Nat) (p h b : Nat) : Prop where
  high : x p = h / 256
  low : x ((p + 1) % 8) = h % 256
  bodyHigh : x ((p + 2) % 8) = b / 256
  bodyLow : x ((p + 3) % 8) = b % 256

lemma Tail.not_far (t : Tail x h b) (hfar : h + 4 ≤ b) (hp : p < 8) (hb : (b + p) % 8 = 4)
    (hlengths : Lengths x p h b) : False := by
  have hzero : ∀ j < 8, b + j ≠ h + 8 → b + j ≠ h + 9 → x j = 0 := fun j hj => t.far hfar hj
  have z1 := hzero ((p + 1) % 8) (by omega)
  have z2 := hzero ((p + 2) % 8) (by omega)
  have z3 := hzero ((p + 3) % 8) (by omega)
  obtain ⟨h4, h5, h6, h7⟩ := hlengths
  clear hzero t
  interval_cases p <;> simp only [Nat.reduceAdd, Nat.reduceMod] at * <;> omega

lemma Tail.alternates (t : Tail x h b) (hnear : b ≤ h + 3) :
    x 0 = x 6 ∧ x 1 = x 7 ∧ x 2 = x 0 ∧ x 3 = x 1 ∧ x 4 = x 2 := by
  have hcopied : ∀ j < 5, x j = x ((j + 6) % 8) := fun j hj => t.copied j (by omega) (by omega)
  exact ⟨hcopied 0 (by omega), hcopied 1 (by omega), hcopied 2 (by omega), hcopied 3 (by omega),
    hcopied 4 (by omega)⟩

lemma Tail.not_near (t : Tail x h b) (hlt : h < b) (hnear : b ≤ h + 2) (hp : p < 8)
    (hlengths : Lengths x p h b) : False := by
  obtain ⟨s0, s1, s2, s3, s4⟩ := t.alternates (by omega)
  have s5 : x 5 = x 3 := t.copied 5 (by omega) (by omega)
  obtain ⟨h4, h5, h6, h7⟩ := hlengths
  interval_cases p <;> simp only [Nat.reduceAdd, Nat.reduceMod] at * <;> omega

lemma Tail.not_three (t : Tail x h b) (hthree : b = h + 3) (hp : p < 8) (hb : (b + p) % 8 = 4)
    (hlengths : Lengths x p h b) : False := by
  obtain ⟨s0, s1, s2, s3, s4⟩ := t.alternates (by omega)
  have s7 : x 7 = 0 := t.zero 7 (by omega) (by omega)
  obtain ⟨h4, h5, h6, h7⟩ := hlengths
  interval_cases p <;> simp only [Nat.reduceAdd, Nat.reduceMod] at * <;> omega

lemma Tail.not_shorter (t : Tail x h b) (hlt : h < b) (hp : p < 8) (hb : (b + p) % 8 = 4)
    (hlengths : Lengths x p h b) : False := by
  by_cases hfar : h + 4 ≤ b
  · exact t.not_far hfar hp hb hlengths
  by_cases hnear : b ≤ h + 2
  · exact t.not_near hlt hnear hp hlengths
  · exact t.not_three (by omega) hp hb hlengths

end Tail

/-- The memory that `ConvertToGameStream` fills, from the byte 4 on: the length of the head at `start`, the head,
the length of the body, and the body over all of it from the first byte on. -/
structure Overlaid (start : Nat) (head body : Nat → Nat) (h b : Nat) (memory : Nat → Nat) : Prop where
  body : ∀ i < b, memory i = body i
  gap : ∀ i < start, b ≤ i → memory i = 0
  high : b ≤ start → memory start = h / 256
  low : b ≤ start + 1 → memory (start + 1) = h % 256
  head : ∀ i < h, b ≤ start + 2 + i → memory (start + 2 + i) = head i
  bodyHigh : b ≤ start + 2 + h → memory (start + 2 + h) = b / 256
  bodyLow : b ≤ start + 3 + h → memory (start + 3 + h) = b % 256
  rest : ∀ i, start + 4 + h ≤ i → b ≤ i → memory i = 0

structure Readable (head body : Nat → Nat) (h b : Nat) (memory : Nat → Nat) : Prop where
  high : memory 4 = h / 256
  low : memory 5 = h % 256
  head : ∀ i < h, memory (6 + i) = head i
  bodyHigh : memory 6 = b / 256
  bodyLow : memory 7 = b % 256
  body : ∀ i < b, memory (8 + i) = body i

def lengthByte (n i : Nat) : Nat := if i % 2 = 0 then n / 256 else n % 256

section Readable

variable {head body memory head' body' : Nat → Nat} {h b i start n : Nat}

lemma lengthByte_add_two (n i : Nat) : lengthByte n (i + 2) = lengthByte n i := by
  rw [lengthByte, lengthByte, Nat.add_mod_right]

lemma lengthByte_add_six (n i : Nat) : lengthByte n (6 + i) = lengthByte n i := by
  rw [show 6 + i = i + 2 + 2 + 2 by omega, lengthByte_add_two, lengthByte_add_two, lengthByte_add_two]

section

variable (r : Readable head body h b memory)
include r

lemma Readable.six_le (o : Overlaid 6 head body h b memory) (hb : 0 < b) : 6 ≤ b := by
  by_contra hlt
  have hhigh := o.high (by omega)
  have hlow := o.low (by omega)
  rw [r.bodyHigh] at hhigh
  rw [r.bodyLow] at hlow
  have hzero := o.gap 5 (by omega) (by omega)
  rw [r.low] at hzero
  omega

lemma Readable.body_mod (hbody : ∀ i < b, memory i = body i) (i : Nat) (hi : i < b) : body i = body (i % 8) := by
  induction i using Nat.strongRecOn with
  | ind i ih =>
    by_cases hlt : i < 8
    · rw [Nat.mod_eq_of_lt hlt]
    · have hread := r.body (i - 8) (by omega)
      rw [show 8 + (i - 8) = i by omega, hbody i hi] at hread
      rw [hread, ih (i - 8) (by omega) (by omega), show (i - 8) % 8 = i % 8 by omega]

section

variable (o : Overlaid 6 head body h b memory)
include o

lemma Readable.tail (hb : 8 ≤ b) : Tail (fun j => body (b - 8 + j)) h b := by
  have hread : ∀ j < 8, memory (b + j) = body (b - 8 + j) := by
    intro j hj
    have hbody := r.body (b - 8 + j) (by omega)
    rwa [show 8 + (b - 8 + j) = b + j by omega] at hbody
  constructor
  · intro j hj hlt
    have hhead := o.head (b - 8 + j) (by omega) (by omega)
    rw [show 6 + 2 + (b - 8 + j) = b + j by omega, hread j hj, ← r.head _ (by omega)] at hhead
    rw [hhead]
    by_cases htwo : j < 2
    · rw [o.body _ (by omega), Nat.mod_eq_of_lt (by omega), show 6 + (b - 8 + j) = b - 8 + (j + 6) by omega]
    · rw [show 6 + (b - 8 + j) = b + (j - 2) by omega, hread (j - 2) (by omega), show (j + 6) % 8 = j - 2 by omega]
  · intro j hj heq
    rw [← hread j hj, heq, Nat.add_comm h 8]
    exact o.bodyHigh (by omega)
  · intro j hj heq
    rw [← hread j hj, heq, Nat.add_comm h 9]
    exact o.bodyLow (by omega)
  · intro j hj hle
    rw [← hread j hj]
    exact o.rest _ (by omega) (by omega)

lemma Readable.not_shorter (hb : 0 < b) : b ≤ h := by
  by_contra hlt
  by_cases height : 8 ≤ b
  · have hmod := r.body_mod o.body
    have hplace : ∀ k < 8, memory k = body (b - 8 + (k + 8 - b % 8) % 8) := by
      intro k hk
      rw [o.body k (by omega), hmod k (by omega), hmod (b - 8 + (k + 8 - b % 8) % 8) (by omega)]
      congr 1
      omega
    have h4 := hplace 4 (by omega)
    have h5 := hplace 5 (by omega)
    have h6 := hplace 6 (by omega)
    have h7 := hplace 7 (by omega)
    rw [r.high] at h4
    rw [r.low, show (5 + 8 - b % 8) % 8 = ((4 + 8 - b % 8) % 8 + 1) % 8 by omega] at h5
    rw [r.bodyHigh, show (6 + 8 - b % 8) % 8 = ((4 + 8 - b % 8) % 8 + 2) % 8 by omega] at h6
    rw [r.bodyLow, show (7 + 8 - b % 8) % 8 = ((4 + 8 - b % 8) % 8 + 3) % 8 by omega] at h7
    exact (r.tail o height).not_shorter (by omega) (by omega) (by omega) ⟨h4.symm, h5.symm, h6.symm, h7.symm⟩
  · have hlow := o.low (by omega)
    rw [r.bodyLow] at hlow
    omega

lemma Readable.body_add_two (hle : b ≤ h) (hi : i + 2 < b) : body (i + 2) = body i := by
  obtain ⟨d, hd⟩ : ∃ d, b = i + 2 + d := ⟨b - (i + 2), by omega⟩
  induction d using Nat.strongRecOn generalizing i with
  | ind d ih =>
    by_cases hlast : b ≤ i + 10
    · have hhead := o.head (i + 2) (by omega) (by omega)
      rw [show 6 + 2 + (i + 2) = 8 + (i + 2) by omega, r.body _ hi, ← r.head _ (by omega),
        show 6 + (i + 2) = 8 + i by omega, r.body i (by omega)] at hhead
      exact hhead
    · have hnext := ih (d - 8) (by omega) (i := i + 8) (by omega) (by omega)
      have hread := r.body (i + 2) (by omega)
      have hread' := r.body i (by omega)
      rw [o.body _ (by omega)] at hread hread'
      rw [← hread, ← hread', show 8 + (i + 2) = i + 8 + 2 by omega, hnext, Nat.add_comm i 8]

lemma Readable.repeated (hb : 0 < b) :
    h = b ∧ 6 ≤ b ∧ ∀ i < b, body i = lengthByte b i ∧ head i = lengthByte b i := by
  have hsix := r.six_le o hb
  have hle := r.not_shorter o hb
  have h4 := r.high
  have h5 := r.low
  rw [o.body 4 (by omega)] at h4
  rw [o.body 5 (by omega)] at h5
  have h02 := r.body_add_two o hle (i := 0) (by omega)
  have h24 := r.body_add_two o hle (i := 2) (by omega)
  have h13 := r.body_add_two o hle (i := 1) (by omega)
  have h35 := r.body_add_two o hle (i := 3) (by omega)
  simp only [Nat.reduceAdd] at h02 h24 h13 h35
  have hbody : ∀ i < b, body i = lengthByte h i := by
    intro i
    induction i using Nat.twoStepInduction with
    | zero =>
      intro _
      change body 0 = h / 256
      omega
    | one =>
      intro _
      change body 1 = h % 256
      omega
    | more i ih _ =>
      intro hi
      rw [lengthByte_add_two, r.body_add_two o hle hi]
      exact ih (by omega)
  have hlength : ∀ i, 6 ≤ i → i < 8 → memory i = lengthByte h i := by
    intro i hlow hhigh
    by_cases hi : i < b
    · rw [o.body i hi, hbody i hi]
    obtain rfl | rfl : i = 6 ∨ i = 7 := by omega
    · exact o.high (by omega)
    · exact o.low (by omega)
  have hsame : h = b := by
    have hhigh := hlength 6 (by omega) (by omega)
    have hlow := hlength 7 (by omega) (by omega)
    rw [r.bodyHigh] at hhigh
    rw [r.bodyLow] at hlow
    change b / 256 = h / 256 at hhigh
    change b % 256 = h % 256 at hlow
    omega
  subst hsame
  refine ⟨rfl, hsix, fun i hi => ⟨hbody i hi, ?_⟩⟩
  rw [← r.head i hi]
  by_cases hlong : 6 + i < h
  · rw [o.body _ hlong, hbody _ hlong, lengthByte_add_six]
  by_cases htwo : i < 2
  · rw [hlength (6 + i) (by omega) (by omega), lengthByte_add_six]
  · obtain ⟨k, rfl⟩ : ∃ k, i = k + 2 := ⟨i - 2, by omega⟩
    rw [show 6 + (k + 2) = 8 + k by omega, r.body k (by omega), hbody k (by omega), lengthByte_add_two]

end

end

lemma Overlaid.repeated (o : Overlaid start (lengthByte n) (lengthByte n) n n memory)
    (heven : start % 2 = 0) (hsix : start ≤ 6) (hn : 6 ≤ n) (hi : i < start + 2 + n) :
    memory i = lengthByte n i := by
  by_cases hbody : i < n
  · exact o.body i hbody
  by_cases hstart : i = start
  · subst hstart
    rw [o.high (by omega), lengthByte, if_pos heven]
  by_cases hnext : i = start + 1
  · subst hnext
    rw [o.low (by omega), lengthByte, if_neg (by omega)]
  · have hhead := o.head (i - (start + 2)) (by omega) (by omega)
    rw [show start + 2 + (i - (start + 2)) = i by omega] at hhead
    rw [hhead, lengthByte, lengthByte, show (i - (start + 2)) % 2 = i % 2 by omega]

lemma Overlaid.readable_six (o : Overlaid 6 (lengthByte n) (lengthByte n) n n memory) (hn : 6 ≤ n) :
    Readable (lengthByte n) (lengthByte n) n n memory := by
  have hmemory : ∀ i < 8 + n, memory i = lengthByte n i := fun i hi => o.repeated rfl (le_refl _) hn hi
  refine ⟨hmemory 4 (by omega), hmemory 5 (by omega), ?_, hmemory 6 (by omega), hmemory 7 (by omega), ?_⟩
  · intro i hi
    rw [hmemory (6 + i) (by omega), lengthByte_add_six]
  · intro i hi
    rw [hmemory (8 + i) (by omega), show 8 + i = 6 + i + 2 by omega, lengthByte_add_two, lengthByte_add_six]

lemma Overlaid.readable_four_iff (o : Overlaid 4 (lengthByte n) (lengthByte n) n n memory)
    (hn : 6 ≤ n) :
    Readable (lengthByte n) (lengthByte n) n n memory ↔ n % 2 = 0 ∨ n / 256 = n % 256 := by
  have hmemory : ∀ i < 6 + n, memory i = lengthByte n i := fun i hi => o.repeated rfl (by omega) hn hi
  have hhigh := o.bodyHigh (by omega)
  have hlow := o.bodyLow (by omega)
  constructor
  · intro r
    have hread := r.body (n - 2) (by omega)
    rw [show 8 + (n - 2) = 4 + 2 + n by omega, hhigh, lengthByte] at hread
    by_cases heven : n % 2 = 0
    · exact Or.inl heven
    · rw [if_neg (by omega)] at hread
      exact Or.inr hread
  · intro hcond
    refine ⟨hmemory 4 (by omega), hmemory 5 (by omega), ?_, hmemory 6 (by omega), hmemory 7 (by omega), ?_⟩
    · intro i hi
      rw [hmemory (6 + i) (by omega), lengthByte_add_six]
    · intro i hi
      by_cases hshort : 8 + i < 6 + n
      · rw [hmemory (8 + i) hshort, show 8 + i = 6 + i + 2 by omega, lengthByte_add_two, lengthByte_add_six]
      by_cases hlast : i + 1 = n
      · rw [show 8 + i = 4 + 3 + n by omega, hlow, lengthByte]
        split_ifs <;> omega
      · rw [show 8 + i = 4 + 2 + n by omega, hhigh, lengthByte]
        split_ifs <;> omega

lemma Overlaid.congr (o : Overlaid start head body h b memory) (hhead : ∀ i < h, head i = head' i)
    (hbody : ∀ i < b, body i = body' i) : Overlaid start head' body' h b memory where
  body i hi := (o.body i hi).trans (hbody i hi)
  gap := o.gap
  high := o.high
  low := o.low
  head i hi hle := (o.head i hi hle).trans (hhead i hi)
  bodyHigh := o.bodyHigh
  bodyLow := o.bodyLow
  rest := o.rest

section

variable {memory' : Nat → Nat} (hhead : ∀ i < h, head i = head' i) (hbody : ∀ i < b, body i = body' i)
  (hb : 0 < b) (hmemory : ∀ i, 4 ≤ i → i < 8 + h + b → memory i = memory' i)
include hhead hbody hb hmemory

lemma Readable.congr (r : Readable head body h b memory) : Readable head' body' h b memory' where
  high := by rw [← hmemory 4 (by omega) (by omega), r.high]
  low := by rw [← hmemory 5 (by omega) (by omega), r.low]
  head i hi := by rw [← hmemory _ (by omega) (by omega), r.head i hi, hhead i hi]
  bodyHigh := by rw [← hmemory 6 (by omega) (by omega), r.bodyHigh]
  bodyLow := by rw [← hmemory 7 (by omega) (by omega), r.bodyLow]
  body i hi := by rw [← hmemory _ (by omega) (by omega), r.body i hi, hbody i hi]

lemma readable_congr : Readable head body h b memory ↔ Readable head' body' h b memory' := by
  refine ⟨fun r => r.congr hhead hbody hb hmemory, fun r => r.congr ?_ ?_ hb ?_⟩
  · exact fun i hi => (hhead i hi).symm
  · exact fun i hi => (hbody i hi).symm
  · exact fun i hle hlt => (hmemory i hle hlt).symm

end

end Readable

def byteAt (bytes : Bytes) (i : Nat) : Nat := (bytes.getD i 0).toNat

def repeatedLength (n : Nat) : Bytes := (List.range n).map fun i => UInt8.ofNat (lengthByte n i)

section Bytes

variable {bytes : Bytes} {memory : Nat → UInt8} {n : Nat}

@[simp] lemma length_repeatedLength (n : Nat) : (repeatedLength n).length = n := by
  rw [repeatedLength, length_map, length_range]

lemma byteAt_repeatedLength (hn : n < 2 ^ 16) {i : Nat} (hi : i < n) :
    byteAt (repeatedLength n) i = lengthByte n i := by
  rw [byteAt, repeatedLength, getD_eq_getElem _ _ (by simpa using hi), getElem_map, getElem_range,
    UInt8.toNat_ofNat', lengthByte]
  split_ifs <;> omega

lemma eq_repeatedLength (hn : bytes.length < 2 ^ 16)
    (h : ∀ i < bytes.length, byteAt bytes i = lengthByte bytes.length i) : bytes = repeatedLength bytes.length := by
  apply ext_getElem (length_repeatedLength _).symm
  intro i hi hi'
  apply UInt8.toNat_inj.mp
  have hleft := h i hi
  have hright := byteAt_repeatedLength hn hi
  rw [byteAt, getD_eq_getElem _ _ hi] at hleft
  rw [byteAt, getD_eq_getElem _ _ hi'] at hright
  rw [hleft, hright]

lemma read_eq_iff_byteAt (memory : Nat → UInt8) (pos : Nat) (bytes : Bytes) :
    read memory pos bytes.length = bytes ↔ ∀ i < bytes.length, (memory (pos + i)).toNat = byteAt bytes i := by
  rw [read_eq_iff]
  constructor
  · intro h i hi
    rw [h i bytes[i] (getElem?_eq_getElem hi), byteAt, getD_eq_getElem _ _ hi]
  · intro h i byte hbyte
    obtain ⟨hi, rfl⟩ := List.getElem?_eq_some_iff.mp hbyte
    have hread := h i hi
    rw [byteAt, getD_eq_getElem _ _ hi] at hread
    exact UInt8.toNat_inj.mp hread

lemma read_netBytes_iff (hn : n < 2 ^ 16) (memory : Nat → UInt8) (pos : Nat) :
    read memory pos 2 = netBytes 2 n ↔ (memory pos).toNat = n / 256 ∧ (memory (pos + 1)).toNat = n % 256 := by
  have hbytes := read_eq_iff_byteAt memory pos (netBytes 2 n)
  rw [length_netBytes] at hbytes
  have hhigh : (UInt8.ofNat (n / 256)).toNat = n / 256 := by
    rw [UInt8.toNat_ofNat']
    omega
  have hlow : (UInt8.ofNat n).toNat = n % 256 := UInt8.toNat_ofNat'
  rw [hbytes]
  constructor
  · intro h
    exact ⟨(h 0 (by omega)).trans hhigh, (h 1 (by omega)).trans hlow⟩
  · rintro ⟨hfirst, hsecond⟩ i hi
    obtain rfl | rfl : i = 0 ∨ i = 1 := by omega
    · exact hfirst.trans hhigh.symm
    · exact hsecond.trans hlow.symm

lemma readUnShort_toNat (little : Bool) (buff : ByteBuff) :
    (buff.readUnShort little).1.toNat = WordBytes.value (read buff.data buff.readIndex 2).reverse := by
  have hlt := WordBytes.value_lt (read buff.data buff.readIndex 2).reverse
  rw [length_reverse, length_read] at hlt
  rw [readUnShort, readT_eq]
  exact Nat.mod_eq_of_lt hlt

lemma readUnShort_toNat_eq_iff (hn : n < 2 ^ 16) (little : Bool) (buff : ByteBuff) :
    (buff.readUnShort little).1.toNat = n ↔
      (buff.data buff.readIndex).toNat = n / 256 ∧ (buff.data (buff.readIndex + 1)).toNat = n % 256 := by
  rw [readUnShort_toNat, value_reverse_eq_iff (by rw [length_read]; exact hn), length_read, read_netBytes_iff hn]

end Bytes

section Decoding

variable {α β : Type} {little : Bool} {messages : ClientMessages α β} {body : MessageCodec β} {buff : ByteBuff}
  {msgHead : α} {msgPara : β}

/-- A message with a body is decoded exactly from the bytes of its head and of its body, where the decoder looks
for them. -/
lemma convertStreamToMessage_iff {total : BitVec 16}
    (hfactory : messages.createMessage (messages.cmd msgHead) = some body)
    (htotal : (buff.readUnShort little).1 = total)
    (huse : (2 + 2 + 2 + BitVec.ofNat 16 0 + 2 + ((buff.readLen 2).readUnShort little).1).toNat < total.toNat) :
    (∃ buff', convertStreamToMessage little messages true 0 buff total =
      .ok (⟨msgHead, some msgPara⟩, buff')) ↔
      messages.head.serialize msgHead = read buff.data (buff.readIndex + 6)
        ((buff.readLen 4).readUnShort little).1.toNat ∧
      body.serialize msgPara = read buff.data (buff.readIndex + 8)
        ((buff.readLen 6).readUnShort little).1.toNat := by
  have hrest : ∀ buff : ByteBuff, (buff.readUnShort little).2 = buff.readLen 2 := fun _ => rfl
  unfold convertStreamToMessage
  simp only [hrest, readLen_readLen, Nat.reduceAdd]
  rw [if_neg (by simp [htotal]), htotal]
  constructor
  · rintro ⟨buff', h⟩
    split at h
    · cases h
    rename_i head hhead
    rw [if_pos ⟨huse, trivial⟩] at h
    split at h
    · cases h
    rename_i body' hbody'
    split at h
    · cases h
    rename_i para hpara
    simp only [Except.ok.injEq, Prod.mk.injEq, ProxyMessage.mk.injEq, Option.some.injEq] at h
    obtain ⟨⟨rfl, rfl⟩, -⟩ := h
    obtain rfl : body = body' := Option.some.inj (hfactory.symm.trans hbody')
    exact ⟨(messages.head.inverse _ _).mp hhead, (body.inverse _ _).mp hpara⟩
  · rintro ⟨hhead, hpara⟩
    have hhead' := (messages.head.inverse (read (buff.readLen 6).data (buff.readLen 6).readIndex
      ((buff.readLen 4).readUnShort little).1.toNat) msgHead).mpr hhead
    have hpara' := (body.inverse (read (buff.readLen 8).data (buff.readLen 8).readIndex
      ((buff.readLen 6).readUnShort little).1.toNat) msgPara).mpr hpara
    rw [hhead']
    dsimp only
    rw [if_pos ⟨huse, trivial⟩, hfactory]
    dsimp only
    rw [hpara']
    exact ⟨_, rfl⟩

lemma eq_read_iff {bytes : Bytes} {len pos : Nat} (hlt : bytes.length < 2 ^ 16) :
    bytes = read buff.data pos ((buff.readLen len).readUnShort little).1.toNat ↔
      ((buff.data (buff.readIndex + len)).toNat = bytes.length / 256 ∧
        (buff.data (buff.readIndex + len + 1)).toNat = bytes.length % 256) ∧
      ∀ i < bytes.length, (buff.data (pos + i)).toNat = byteAt bytes i := by
  have hlength : ((buff.readLen len).readUnShort little).1.toNat = bytes.length ↔
      (buff.data (buff.readIndex + len)).toNat = bytes.length / 256 ∧
        (buff.data (buff.readIndex + len + 1)).toNat = bytes.length % 256 :=
    readUnShort_toNat_eq_iff hlt little (buff.readLen len)
  rw [← hlength, ← read_eq_iff_byteAt]
  constructor
  · intro h
    have hlength := congrArg List.length h
    rw [length_read] at hlength
    rw [hlength]
    exact ⟨rfl, h.symm⟩
  · rintro ⟨hlength, hread⟩
    rw [hlength, hread]

lemma decodes_iff {total add : Nat} (hfactory : messages.createMessage (messages.cmd msgHead) = some body)
    (hstart : buff.readIndex = 0) (hend : buff.writeIndex = total)
    (hlengths : Upcoming buff (netBytes 2 total ++ (netBytes 2 add ++ []))) (htotal : total < 2 ^ 16)
    (height : total % 8 = 0)
    (hsize : total = 8 + (messages.head.serialize msgHead).length + (body.serialize msgPara).length + add)
    (hbody : 0 < (body.serialize msgPara).length) :
    Decodes little messages ⟨msgHead, some msgPara⟩ buff ↔
      Readable (byteAt (messages.head.serialize msgHead)) (byteAt (body.serialize msgPara))
        (messages.head.serialize msgHead).length (body.serialize msgPara).length
        (fun i => (buff.data i).toNat) := by
  obtain ⟨hread, hlengths⟩ := hlengths.readUnShort htotal little
  obtain ⟨hread', -⟩ := hlengths.readUnShort (by omega) little
  have huse : (2 + 2 + 2 + BitVec.ofNat 16 0 + 2 + ((buff.readLen 2).readUnShort little).1).toNat <
      (BitVec.ofNat 16 total).toNat := by
    rw [hread']
    change (8 + add % 2 ^ 16) % 2 ^ 16 < total % 2 ^ 16
    omega
  have hmessage := @convertStreamToMessage_iff α β little messages body buff msgHead msgPara
    (BitVec.ofNat 16 total) hfactory (by rw [hread]) huse
  rw [eq_read_iff (by omega), eq_read_iff (by omega)] at hmessage
  simp only [hstart, Nat.zero_add, Nat.reduceAdd] at hmessage
  unfold Decodes
  rw [hend, hmessage, hread]
  constructor
  · rintro ⟨-, -, ⟨⟨hhigh, hlow⟩, hhead⟩, ⟨hhigh', hlow'⟩, hpara⟩
    exact ⟨hhigh, hlow, hhead, hhigh', hlow', hpara⟩
  · rintro ⟨hhigh, hlow, hhead, hhigh', hlow', hpara⟩
    exact ⟨Nat.mod_eq_of_lt htotal, height, ⟨⟨hhigh, hlow⟩, hhead⟩, ⟨hhigh', hlow'⟩, hpara⟩

end Decoding

def overlay (start : Nat) (headBytes paraBytes : Bytes) : Nat → UInt8 :=
  write (write clear.data start
    (netBytes 2 headBytes.length ++ (headBytes ++ netBytes 2 paraBytes.length))) 0 paraBytes

section Encoding

variable {start : Nat} {headBytes paraBytes : Bytes}

lemma overlay_behind (k : Nat) (hle : paraBytes.length ≤ start + k) : overlay start headBytes paraBytes (start + k) =
    (netBytes 2 headBytes.length ++ (headBytes ++ netBytes 2 paraBytes.length)).getD k 0 := by
  rw [overlay, write, if_neg (by omega), Nat.sub_zero, getD_eq_default _ _ hle, write,
    if_neg (by omega), Nat.add_sub_cancel_left]
  rfl

lemma overlaid_overlay (hhead : headBytes.length < 2 ^ 16) (hpara : paraBytes.length < 2 ^ 16) :
    Overlaid start (byteAt headBytes) (byteAt paraBytes) headBytes.length paraBytes.length
      (fun i => (overlay start headBytes paraBytes i).toNat) := by
  have hhigh : ∀ n < 2 ^ 16, (UInt8.ofNat (n / 256)).toNat = n / 256 := by
    intro n hn
    rw [UInt8.toNat_ofNat']
    omega
  have hlow : ∀ n : Nat, (UInt8.ofNat n).toNat = n % 256 := fun n => UInt8.toNat_ofNat'
  constructor
  · intro i hi
    rw [overlay, write, if_neg (by omega), Nat.sub_zero, byteAt, getD_eq_getElem _ _ hi, getD_eq_getElem _ _ hi]
  · intro i hi hle
    rw [overlay, write, if_neg (by omega), Nat.sub_zero, getD_eq_default _ _ hle, write, if_pos hi]
    rfl
  · intro hle
    rw [← hhigh _ hhead]
    exact congrArg UInt8.toNat (overlay_behind 0 hle)
  · intro hle
    rw [← hlow, overlay_behind 1 hle]
    rfl
  · intro i hi hle
    rw [Nat.add_assoc] at hle ⊢
    rw [overlay_behind _ hle, getD_append_right _ _ _ _ (by simp), length_netBytes, Nat.add_sub_cancel_left,
      getD_append _ _ _ _ hi, byteAt]
  · intro hle
    rw [Nat.add_assoc] at hle ⊢
    rw [overlay_behind _ hle, getD_append_right _ _ _ _ (by simp), length_netBytes, Nat.add_sub_cancel_left,
      getD_append_right _ _ _ _ (by simp), Nat.sub_self, ← hhigh _ hpara]
    rfl
  · intro hle
    rw [Nat.add_assoc] at hle ⊢
    rw [overlay_behind _ hle, getD_append_right _ _ _ _ (by rw [length_netBytes]; omega), length_netBytes,
      show 3 + headBytes.length - 2 = headBytes.length + 1 by omega,
      getD_append_right _ _ _ _ (by omega), Nat.add_sub_cancel_left, ← hlow]
    rfl
  · intro i hi hle
    obtain ⟨k, rfl⟩ : ∃ k, i = start + k := ⟨i - start, by omega⟩
    rw [overlay_behind k hle, getD_eq_default]
    · rfl
    · simp only [length_append, length_netBytes]
      omega

lemma finishGameStream_eq (little : Bool) (buff : ByteBuff) {unLength : BitVec 16}
    (hfit : (unLength.toNat + 7) / 8 * 8 < 2 ^ 16) :
    ClientCommEngine.finishStream little buff unLength =
      { buff with
        data := write buff.data 0 (netBytes 2 ((unLength.toNat + 7) / 8 * 8) ++
          netBytes 2 ((unLength.toNat + 7) / 8 * 8 - unLength.toNat))
        writeIndex := (unLength.toNat + 7) / 8 * 8 } := by
  have hadd : addLen unLength = (unLength.toNat + 7) / 8 * 8 - unLength.toNat := by
    unfold addLen
    split_ifs <;> omega
  have hadd' : (BitVec.ofNat 16 (addLen unLength)).toNat = (unLength.toNat + 7) / 8 * 8 - unLength.toNat := by
    rw [BitVec.toNat_ofNat, hadd, Nat.mod_eq_of_lt (by omega)]
  have htotal : (unLength + BitVec.ofNat 16 (addLen unLength)).toNat = (unLength.toNat + 7) / 8 * 8 := by
    rw [BitVec.toNat_add, hadd']
    omega
  have hwrites := write_append buff.data 0 (netBytes 2 ((unLength.toNat + 7) / 8 * 8))
    (netBytes 2 ((unLength.toNat + 7) / 8 * 8 - unLength.toNat))
  rw [length_netBytes, Nat.zero_add] at hwrites
  unfold ClientCommEngine.finishStream writeUnShort setWriteIndex
  dsimp only
  rw [writeT_eq, writeT_eq, htotal, hadd']
  rw [← hwrites]

lemma write_parts (start : Nat) (headBytes paraBytes : Bytes) :
    write (write (write (write clear.data start
      (netBytes 2 headBytes.length)) (start + 2) headBytes) (start + 2 + headBytes.length)
      (netBytes 2 paraBytes.length)) 0 paraBytes = overlay start headBytes paraBytes := by
  have hfirst := write_append clear.data start (netBytes 2 headBytes.length) headBytes
  have hsecond := write_append clear.data start (netBytes 2 headBytes.length ++ headBytes)
    (netBytes 2 paraBytes.length)
  rw [length_netBytes] at hfirst
  rw [length_append, length_netBytes, ← Nat.add_assoc, append_assoc] at hsecond
  rw [hfirst, hsecond, overlay]

variable {α β : Type} (little : Bool) {head : MessageCodec α} {body : MessageCodec β} {msgHead : α} {msgPara : β}

def gameStream (memory : Nat → UInt8) (content : Nat) : ByteBuff :=
  ⟨write memory 0 (netBytes 2 ((content + 7) / 8 * 8) ++ netBytes 2 ((content + 7) / 8 * 8 - content)), 0,
    (content + 7) / 8 * 8⟩

lemma toNat_len {n : Nat} (hn : n ≤ maxPackageLen) : (BitVec.ofNat 16 n).toNat = n :=
  Nat.mod_eq_of_lt (lt_of_le_of_lt hn (by decide))

section Sizes

variable {headBytes paraBytes : Bytes} (hfit : (8 + headBytes.length + paraBytes.length + 7) / 8 * 8 ≤ maxPackageLen)

include hfit

lemma toNat_unLength : ((2 : BitVec 16) + 2 + 2 + BitVec.ofNat 16 headBytes.length + 2 +
    BitVec.ofNat 16 paraBytes.length).toNat = 8 + headBytes.length + paraBytes.length := by
  have hmax : maxPackageLen = 61440 := rfl
  simp only [BitVec.toNat_add, BitVec.toNat_ofNat]
  change (((6 + headBytes.length % 2 ^ 16) % 2 ^ 16 + 2) % 2 ^ 16 + paraBytes.length % 2 ^ 16) % 2 ^ 16 = _
  omega

lemma written_parts (start : Nat) :
    ((serializeTo (clear.writeUnShort little (BitVec.ofNat 16 headBytes.length) start)
      headBytes).writeUnShort little (BitVec.ofNat 16 paraBytes.length) 0).writeBytes paraBytes =
      ⟨overlay start headBytes paraBytes, 0, start + 4 + headBytes.length + paraBytes.length⟩ := by
  unfold writeUnShort serializeTo writeBytes
  rw [writeT_eq, writeT_eq, toNat_len (by omega), toNat_len (by omega)]
  have hzero : clear.writeIndex = 0 := rfl
  simp only [hzero, Nat.zero_add, Nat.add_zero, write_parts]
  have hread : clear.readIndex = 0 := rfl
  rw [hread, show start + 2 + headBytes.length + 2 + paraBytes.length =
    start + 4 + headBytes.length + paraBytes.length by omega]

end Sizes

lemma convertToGameStream_eq (hfit : packageSize head body msgHead msgPara ≤ maxPackageLen) :
    convertToGameStream little head body ⟨msgHead, some msgPara⟩ =
      if maxPackageLen < 14 + (head.serialize msgHead).length then .error (-1)
      else .ok (gameStream (overlay 6 (head.serialize msgHead) (body.serialize msgPara))
        (8 + (head.serialize msgHead).length + (body.serialize msgPara).length)) := by
  unfold packageSize at hfit
  unfold convertToGameStream
  dsimp only
  generalize head.serialize msgHead = headBytes at hfit ⊢
  generalize body.serialize msgPara = paraBytes at hfit ⊢
  have hmax : maxPackageLen = 61440 := rfl
  have hsix : ((2 : BitVec 16) + 2 + 2).toNat = 6 := rfl
  have hlimit : writeableDataLen (clear.writeUnShort little (BitVec.ofNat 16 headBytes.length) 6) =
      (maxPackageLen : Int) - 8 := rfl
  rw [hsix, hlimit, written_parts little hfit, finishGameStream_eq little _ (by
    rw [toNat_unLength hfit]; omega), toNat_unLength hfit]
  by_cases hlong : maxPackageLen < 14 + headBytes.length
  · rw [if_pos (by omega), if_pos hlong]
  · rw [if_neg (by omega), if_neg hlong, if_neg (by omega)]
    rfl

lemma convertToGameStreamRaw_eq (hfit : packageSize head body msgHead msgPara ≤ maxPackageLen) :
    convertToGameStreamRaw little head (body.serialize msgPara)
      (BitVec.ofNat 16 (body.serialize msgPara).length) msgHead =
      .ok (gameStream (write (overlay 4 (head.serialize msgHead) (body.serialize msgPara))
        (8 + (head.serialize msgHead).length + (body.serialize msgPara).length)
        (List.replicate (addLen (2 + 2 + 2 + BitVec.ofNat 16 (head.serialize msgHead).length + 2 +
          BitVec.ofNat 16 (body.serialize msgPara).length)) 0))
        (8 + (head.serialize msgHead).length + (body.serialize msgPara).length)) := by
  unfold packageSize at hfit
  unfold convertToGameStreamRaw
  dsimp only
  generalize head.serialize msgHead = headBytes at hfit ⊢
  generalize body.serialize msgPara = paraBytes at hfit ⊢
  have hmax : maxPackageLen = 61440 := rfl
  have hfour : ((2 : BitVec 16) + 2).toNat = 4 := rfl
  have hlimit : writeableDataLen (clear.writeUnShort little (BitVec.ofNat 16 headBytes.length) 4) =
      (maxPackageLen : Int) - 6 := rfl
  rw [hfour, hlimit, toNat_len (by omega), take_length, written_parts little hfit,
    finishGameStream_eq little _ (by rw [toNat_unLength hfit]; omega), toNat_unLength hfit, if_neg (by omega)]
  rfl

end Encoding

section RoundTrip

variable {α β : Type} {little : Bool} {messages : ClientMessages α β} {body : MessageCodec β} {msgHead : α}
  {msgPara : β}

lemma decodes_gameStream_iff {memory : Nat → UInt8}
    (hfactory : messages.createMessage (messages.cmd msgHead) = some body)
    (hbody : 0 < (body.serialize msgPara).length)
    (hfit : packageSize messages.head body msgHead msgPara ≤ maxPackageLen) :
    Decodes little messages ⟨msgHead, some msgPara⟩ (gameStream memory
        (8 + (messages.head.serialize msgHead).length + (body.serialize msgPara).length)) ↔
      Readable (byteAt (messages.head.serialize msgHead)) (byteAt (body.serialize msgPara))
        (messages.head.serialize msgHead).length (body.serialize msgPara).length (fun i => (memory i).toNat) := by
  have hmax : maxPackageLen = 61440 := rfl
  unfold packageSize at hfit
  obtain ⟨content, hcontent⟩ : ∃ content,
    8 + (messages.head.serialize msgHead).length + (body.serialize msgPara).length = content := ⟨_, rfl⟩
  rw [hcontent] at hfit ⊢
  have hlengths : Upcoming (gameStream memory content) (netBytes 2 ((content + 7) / 8 * 8) ++
      (netBytes 2 ((content + 7) / 8 * 8 - content) ++ [])) := by
    rw [append_nil]
    exact read_write memory 0 _
  have hend : (gameStream memory content).writeIndex = (content + 7) / 8 * 8 := rfl
  rw [decodes_iff hfactory rfl hend hlengths (by omega) (by omega) (by omega) hbody]
  have hmemory : ∀ i, 4 ≤ i → ((gameStream memory content).data i).toNat = (memory i).toNat := by
    intro i hi
    dsimp only [gameStream]
    rw [write, if_neg (by omega), getD_eq_default]
    simp only [length_append, length_netBytes]
    omega
  exact readable_congr (fun _ _ => rfl) (fun _ _ => rfl) hbody (fun i hi _ => hmemory i hi)

section Overlay

variable {headBytes paraBytes : Bytes} {n : Nat}

lemma readable_overlay_six_iff (hhead : headBytes.length < 2 ^ 16) (hpara : paraBytes.length < 2 ^ 16)
    (hpos : 0 < paraBytes.length) :
    Readable (byteAt headBytes) (byteAt paraBytes) headBytes.length paraBytes.length
      (fun i => (overlay 6 headBytes paraBytes i).toNat) ↔
      ∃ n, 6 ≤ n ∧ headBytes = repeatedLength n ∧ paraBytes = repeatedLength n := by
  have hoverlaid := @overlaid_overlay 6 headBytes paraBytes hhead hpara
  constructor
  · intro r
    obtain ⟨hsame, hsix, hbytes⟩ := r.repeated hoverlaid hpos
    refine ⟨paraBytes.length, hsix, ?_, eq_repeatedLength hpara fun i hi => (hbytes i hi).1⟩
    rw [← hsame]
    apply eq_repeatedLength hhead
    intro i hi
    rw [hsame]
    exact (hbytes i (by omega)).2
  · rintro ⟨n, hsix, rfl, rfl⟩
    rw [length_repeatedLength] at hpara
    have hbytes : ∀ i < n, byteAt (repeatedLength n) i = lengthByte n i := fun i hi => byteAt_repeatedLength hpara hi
    rw [length_repeatedLength] at hoverlaid ⊢
    rw [readable_congr hbytes hbytes (by omega) fun _ _ _ => rfl]
    exact (hoverlaid.congr hbytes hbytes).readable_six hsix

lemma readable_overlay_four_iff (hn : n < 2 ^ 16) (hsix : 6 ≤ n) :
    Readable (byteAt (repeatedLength n)) (byteAt (repeatedLength n)) n n
      (fun i => (overlay 4 (repeatedLength n) (repeatedLength n) i).toNat) ↔ n % 2 = 0 ∨ n / 256 = n % 256 := by
  have hbytes : ∀ i < n, byteAt (repeatedLength n) i = lengthByte n i := fun i hi => byteAt_repeatedLength hn hi
  have hlength : (repeatedLength n).length < 2 ^ 16 := by rwa [length_repeatedLength]
  have hoverlaid := @overlaid_overlay 4 (repeatedLength n) (repeatedLength n) hlength hlength
  rw [length_repeatedLength] at hoverlaid
  rw [← (hoverlaid.congr hbytes hbytes).readable_four_iff hsix]
  exact readable_congr hbytes hbytes (by omega) (fun _ _ _ => rfl)

lemma readable_padded_iff {memory : Nat → UInt8} {padding : Bytes} (hpos : 0 < paraBytes.length) :
    Readable (byteAt headBytes) (byteAt paraBytes) headBytes.length paraBytes.length
        (fun i => (write memory (8 + headBytes.length + paraBytes.length) padding i).toNat) ↔
      Readable (byteAt headBytes) (byteAt paraBytes) headBytes.length paraBytes.length
        (fun i => (memory i).toNat) := by
  apply readable_congr (fun _ _ => rfl) (fun _ _ => rfl) hpos
  intro i _ hi
  rw [write, if_pos hi]

end Overlay

/-- Head and body are the two bytes of their own length over and over, with an even length or twice the same
byte. -/
def RepeatedLengths (headBytes paraBytes : Bytes) : Prop :=
  ∃ n, 6 ≤ n ∧ (n % 2 = 0 ∨ n / 256 = n % 256) ∧ headBytes = repeatedLength n ∧ paraBytes = repeatedLength n

end RoundTrip

/-- A message comes back, in both forms, if and only if head and body are repetitions of their length. -/
theorem clientMessage_roundTrip_iff {α β : Type} (little : Bool) (messages : ClientMessages α β)
    (body : MessageCodec β) (msgHead : α) (msgPara : β)
    (hfactory : messages.createMessage (messages.cmd msgHead) = some body)
    (hbody : 0 < (body.serialize msgPara).length)
    (hfit : packageSize messages.head body msgHead msgPara ≤ maxPackageLen) :
    RoundTrip little messages body msgHead msgPara ↔
      RepeatedLengths (messages.head.serialize msgHead) (body.serialize msgPara) := by
  have hmax : maxPackageLen = 61440 := rfl
  have hsize : (8 + (messages.head.serialize msgHead).length + (body.serialize msgPara).length + 7) / 8 * 8 ≤
    maxPackageLen := hfit
  have hsix := @readable_overlay_six_iff (messages.head.serialize msgHead) (body.serialize msgPara) (by omega)
    (by omega) hbody
  unfold RoundTrip
  rw [convertToGameStream_eq little hfit, convertToGameStreamRaw_eq little hfit]
  constructor
  · rintro ⟨⟨buff, hencode, hdecode⟩, buff', hencode', hdecode'⟩
    split_ifs at hencode
    obtain rfl := Except.ok.inj hencode
    obtain rfl := Except.ok.inj hencode'
    rw [decodes_gameStream_iff hfactory hbody hfit, hsix] at hdecode
    rw [decodes_gameStream_iff hfactory hbody hfit, readable_padded_iff hbody] at hdecode'
    obtain ⟨n, hn, hhead, hpara⟩ := hdecode
    rw [hhead, hpara, length_repeatedLength] at hdecode'
    rw [hhead, length_repeatedLength] at hsize
    exact ⟨n, hn, (readable_overlay_four_iff (by omega) hn).mp hdecode', hhead, hpara⟩
  · rintro ⟨n, hn, hcond, hhead, hpara⟩
    have hlengths : (messages.head.serialize msgHead).length = n ∧ (body.serialize msgPara).length = n := by
      rw [hhead, hpara, length_repeatedLength]
      exact ⟨rfl, rfl⟩
    refine ⟨⟨_, if_neg (by omega), ?_⟩, _, rfl, ?_⟩
    · rw [decodes_gameStream_iff hfactory hbody hfit, hsix]
      exact ⟨n, hn, hhead, hpara⟩
    · rw [decodes_gameStream_iff hfactory hbody hfit, readable_padded_iff hbody, hhead, hpara, length_repeatedLength]
      exact (readable_overlay_four_iff (by omega) hn).mpr hcond

def wireClientMessages : ClientMessages mesHeadFormat.Message socketInfoFormat.Message :=
  ⟨mesHeadFormat.codec, fun head => head.field 0x18, fun _ => some socketInfoFormat.codec⟩

/-- A head of the bytes 8, 2 over and over. -/
def longHead : mesHeadFormat.Message := ⟨repeatedLength 0x802, by decide +kernel⟩

def longInfo : socketInfoFormat.Message := ⟨repeatedLength 0x802, by decide +kernel⟩

def keepAliveHead : mesHeadFormat.Message := ⟨[0x08, 2], by decide⟩

/-- A head and a body of 2050 bytes, all of them 8 and 2, come back, a body of two other bytes does not. -/
theorem clientMessage_roundTrip_long :
    RoundTrip true wireClientMessages socketInfoFormat.codec longHead longInfo ∧
      ¬RoundTrip true wireClientMessages socketInfoFormat.codec longHead socketSix := by
  have hhead : wireClientMessages.head.serialize longHead = repeatedLength 0x802 := by
    simp only [wireClientMessages, WireFormat.codec, longHead]
  have hinfo : socketInfoFormat.codec.serialize longInfo = repeatedLength 0x802 := by
    simp only [WireFormat.codec, longInfo]
  have hsix : socketInfoFormat.codec.serialize socketSix = [0x08, 6] := rfl
  have hmax : maxPackageLen = 61440 := rfl
  constructor
  · refine (clientMessage_roundTrip_iff true _ _ _ _ rfl ?_ ?_).mpr ⟨0x802, by norm_num, by norm_num, hhead, hinfo⟩
    · rw [hinfo, length_repeatedLength]
      decide
    · rw [packageSize, hhead, hinfo, length_repeatedLength, hmax]
      decide
  · intro h
    obtain ⟨n, hn, -, -, hpara⟩ := (clientMessage_roundTrip_iff true _ _ _ _ rfl (by decide)
      (by rw [packageSize, hhead, hsix, length_repeatedLength, hmax]; decide)).mp h
    have hlength := congrArg List.length hpara
    rw [length_repeatedLength, hsix] at hlength
    change 2 = n at hlength
    omega

/-- A head and a body of two bytes: the body is written over the length of the stream, and the length of the body
is read from the place of the length of the head. -/
theorem clientMessage_body_lost :
    ¬RoundTrip true wireClientMessages socketInfoFormat.codec keepAliveHead socketSix := by
  rintro ⟨⟨buff, hencode, -, -, buff', hdecode⟩, -⟩
  have hlost : (convertToGameStream true mesHeadFormat.codec socketInfoFormat.codec
      ⟨keepAliveHead, some socketSix⟩).toOption.map
        (fun buff => (convertStreamToMessage true wireClientMessages true 0 buff
          (BitVec.ofNat 16 buff.writeIndex)).isOk) = some false := by
    decide +kernel
  have hencode' : convertToGameStream true mesHeadFormat.codec socketInfoFormat.codec
    ⟨keepAliveHead, some socketSix⟩ = .ok buff := hencode
  rw [hencode'] at hlost
  simp [Except.toOption, hdecode, Except.isOk, Except.toBool] at hlost

end MyLibevent.Proofs
