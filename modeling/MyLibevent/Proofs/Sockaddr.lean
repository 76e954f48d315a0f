import MyLibevent.Sockaddr
import MyLibevent.Proofs.Numbers

/-!
# Socket addresses read back

The words of an IPv6 address before the gap and after it are written one by one; the reader stores them side
by side and then opens the gap. That works for every place of the gap, whichever run of zeros is the longest.
-/

namespace MyLibevent.Proofs

open ListTrim
open List hiding Vector

section Quad

variable {a b c d n : Nat}

lemma scanUnsigned_formatDecimal (h : n < 2 ^ 64) {rest : Bytes} (hrest : EndsNumber 10 rest) :
    scanUnsigned (formatDecimal n ++ rest) = some (UInt32.ofNat n, rest) := by
  have hlt := decimalDigits_lt n
  have hne := Numeral.digits_ne_nil 10 n
  have hdigits : IsDigits 10 ((Numeral.digits 10 n).map hexDigit) _ := isDigits_map (by omega) hlt
  have hsign : skipSign (((Numeral.digits 10 n).map hexDigit ++ rest).dropWhile isSpace) = _ :=
    (afterSign_digits (by omega) hdigits (by simpa using hne)).skip
  have hread := readDigits_append hdigits (fun c hc => (hrest c hc).1) 0
  have hdigit : isDigit (((Numeral.digits 10 n).map hexDigit ++ rest).headD 0) := by
    cases hds : Numeral.digits 10 n with
    | nil => exact absurd hds hne
    | cons e ds => exact (isDigit_hexDigit e (hlt e (hds ▸ mem_cons_self))).1
  rw [Numeral.value_digits] at hread
  rw [formatDecimal_eq]
  unfold scanUnsigned
  simp only [hsign, hdigit, hread, if_true, if_neg (Nat.not_le.mpr h), Bool.false_eq_true, if_false]

lemma endsNumber_dot (rest : Bytes) : EndsNumber 10 (bytes "." ++ rest) :=
  endsNumber_cons (by decide)

lemma scanQuad_formatQuad (ha : a < 2 ^ 64) (hb : b < 2 ^ 64) (hc : c < 2 ^ 64) (hd : d < 2 ^ 64) :
    scanQuad (formatQuad a b c d) = some (UInt32.ofNat a, UInt32.ofNat b, UInt32.ofNat c, UInt32.ofNat d) := by
  have hlast := scanUnsigned_formatDecimal hd (endsNumber_nil 10)
  have hdot : ∀ rest, scanDot (bytes "." ++ rest) = some rest := fun _ => rfl
  rw [append_nil] at hlast
  unfold scanQuad formatQuad
  simp only [append_assoc, scanUnsigned_formatDecimal ha (endsNumber_dot _),
    scanUnsigned_formatDecimal hb (endsNumber_dot _),
    scanUnsigned_formatDecimal hc (endsNumber_dot _), hdot, hlast, Option.bind_eq_bind,
    Option.bind_some, if_true]

lemma readQuad_formatQuad (ha : a < 256) (hb : b < 256) (hc : c < 256) (hd : d < 256) :
    readQuad (formatQuad a b c d) = some (UInt32.ofNat a, UInt32.ofNat b, UInt32.ofNat c, UInt32.ofNat d) := by
  have hbyte : ∀ n < 256, ¬ UInt32.ofNat n > 255 := by
    intro n hn hgt
    have hlt : (255 : UInt32).toNat < (UInt32.ofNat n).toNat := hgt
    rw [UInt32.toNat_ofNat'] at hlt
    change 255 < _ at hlt
    omega
  have hbytes : ¬ (UInt32.ofNat a > 255 ∨ UInt32.ofNat b > 255 ∨ UInt32.ofNat c > 255 ∨ UInt32.ofNat d > 255) := by
    simp only [not_or]
    exact ⟨hbyte a ha, hbyte b hb, hbyte c hc, hbyte d hd⟩
  unfold readQuad
  rw [scanQuad_formatQuad (by omega) (by omega) (by omega) (by omega)]
  exact if_neg hbytes

lemma notMem_formatQuad {x : UInt8} (hdigit : isDigit x = false) (hdot : x ≠ byte '.') :
    x ∉ formatQuad a b c d := by
  have hsep : x ∉ bytes "." := by
    intro hmem
    exact hdot (mem_singleton.mp hmem)
  unfold formatQuad
  simp only [mem_append, not_or]
  exact ⟨⟨⟨⟨⟨⟨notMem_formatDecimal hdigit a, hsep⟩, notMem_formatDecimal hdigit b⟩, hsep⟩,
    notMem_formatDecimal hdigit c⟩, hsep⟩, notMem_formatDecimal hdigit d⟩

lemma length_formatDecimal_le (h : n < 256) : (formatDecimal n).length ≤ 3 := by
  rw [formatDecimal_eq, length_map]
  unfold Numeral.digits
  split
  · simp
  · rw [length_reverse]
    exact (Nat.digits_length_le_iff (by omega) n).mpr (by omega)

lemma length_formatQuad_le (ha : a < 256) (hb : b < 256) (hc : c < 256) (hd : d < 256) :
    (formatQuad a b c d).length ≤ 15 := by
  have h1 := length_formatDecimal_le ha
  have h2 := length_formatDecimal_le hb
  have h3 := length_formatDecimal_le hc
  have h4 := length_formatDecimal_le hd
  have hdot : (bytes ".").length = 1 := rfl
  unfold formatQuad
  simp only [length_append, hdot]
  omega

end Quad

section Inet

variable (a : UInt32)

lemma and_byte_lt : (a &&& 0xff).toNat < 256 := by
  rw [UInt32.toNat_and]
  exact Nat.and_lt_two_pow _ (by decide : (0xff : UInt32).toNat < 2 ^ 8)

lemma joinBytes :
    ((a >>> 24 &&& 0xff) <<< 24) ||| ((a >>> 16 &&& 0xff) <<< 16) ||| ((a >>> 8 &&& 0xff) <<< 8) |||
      (a &&& 0xff) = a := by
  apply UInt32.toBitVec_inj.mp
  apply BitVec.eq_of_getLsbD_eq
  intro i hi
  interval_cases i <;> simp

def inetText : Bytes :=
  formatQuad (a >>> 24 &&& 0xff).toNat (a >>> 16 &&& 0xff).toNat (a >>> 8 &&& 0xff).toNat (a &&& 0xff).toNat

lemma length_inetText_le : (inetText a).length ≤ 15 :=
  length_formatQuad_le (and_byte_lt _) (and_byte_lt _) (and_byte_lt _) (and_byte_lt _)

lemma evutilInetNtop4_eq : evutilInetNtop4 a 128 = some (inetText a) := by
  have hlen := length_inetText_le a
  exact if_neg (show ¬ 128 ≤ (inetText a).length by omega)

lemma evutilInetPton4_inetText : evutilInetPton4 (inetText a) = .ok a := by
  unfold evutilInetPton4 inetText
  rw [readQuad_formatQuad (and_byte_lt _) (and_byte_lt _) (and_byte_lt _) (and_byte_lt _)]
  simp only [UInt32.ofNat_toNat, joinBytes]

end Inet

section Text

def wordPiece (w : UInt16) : Bytes := formatHex w.toNat ++ bytes ":"

def wordsText : List UInt16 → Bytes
  | [] => []
  | [w] => formatHex w.toNat
  | w :: v :: ws => wordPiece w ++ wordsText (v :: ws)

def gapText (i : Nat) : Bytes := if i = 0 then bytes "::" else bytes ":"

def IsWordsText (words : List UInt16) (text : Bytes) : Prop :=
  text = wordsText words ∨ ∃ before n after, words = before ++ List.replicate (n + 1) 0 ++ after ∧
    text = before.flatMap wordPiece ++ gapText before.length ++ wordsText after

lemma length_formatHex_le (w : UInt16) : (formatHex w.toNat).length ≤ 4 := by
  have hw : w.toNat < 2 ^ 16 := w.toNat_lt
  rw [formatHex_eq, length_map]
  unfold Numeral.digits
  split
  · simp
  · rw [length_reverse]
    exact (Nat.digits_length_le_iff (by omega) _).mpr (by omega)

lemma length_bytes_colon : (bytes ":").length = 1 := rfl

variable {g : Int} {i : Nat} {cp : Bytes} {w : UInt16} {ws : List UInt16}

lemma formatWords_word (hgap : ¬ (w = 0 ∧ g = i)) (hcp : cp.length ≤ 5 * i) (hi : i < 8) :
    formatWords g i cp (w :: ws) =
      formatWords g (i + 1) (cp ++ if i ≠ 7 then wordPiece w else formatHex w.toNat) ws := by
  have hlen := length_formatHex_le w
  have hcut : cutText (64 - cp.length) (formatHex w.toNat) = formatHex w.toNat :=
    take_of_length_le (by omega)
  rw [formatWords, if_neg hgap]
  simp only [hcut]
  congr 1
  split
  · rw [wordPiece, append_assoc]
  · rfl

lemma length_piece_le (hcp : cp.length ≤ 5 * i) :
    (cp ++ if i ≠ 7 then wordPiece w else formatHex w.toNat).length ≤ 5 * (i + 1) := by
  have hlen := length_formatHex_le w
  have hcolon := length_bytes_colon
  rw [length_append]
  split
  · rw [wordPiece, length_append]
    omega
  · omega

lemma piece_append_wordsText (hlen : i + (ws.length + 1) = 8) :
    (if i ≠ 7 then wordPiece w else formatHex w.toNat) ++ wordsText ws = wordsText (w :: ws) := by
  cases ws with
  | nil =>
    rw [if_neg (by simp only [length_nil] at hlen; omega)]
    exact append_nil _
  | cons v ws =>
    rw [if_pos (by simp only [length_cons] at hlen; omega)]
    rfl

lemma formatWords_after (hg : g < i) (hlen : i + ws.length = 8) (hcp : cp.length ≤ 5 * i) :
    formatWords g i cp ws = cp ++ wordsText ws := by
  induction ws generalizing i cp with
  | nil =>
    rw [formatWords, wordsText, append_nil]
  | cons w ws ih =>
    rw [length_cons] at hlen
    rw [formatWords_word (by omega) hcp (by omega),
      ih (by omega) (by omega) (length_piece_le hcp), append_assoc,
      piece_append_wordsText hlen]

lemma takeWhile_zero (l : List UInt16) : l.takeWhile (· == 0) = List.replicate (l.takeWhile (· == 0)).length 0 := by
  apply eq_replicate_of_mem
  intro x hx
  simpa using mem_takeWhile_imp hx

lemma formatWords_cases (hlen : i + ws.length = 8) (hcp : cp.length ≤ 5 * i) :
    formatWords g i cp ws = cp ++ wordsText ws ∨
      ∃ before n after, ws = before ++ List.replicate (n + 1) 0 ++ after ∧
        formatWords g i cp ws =
          cp ++ (before.flatMap wordPiece ++ gapText (i + before.length) ++ wordsText after) := by
  induction ws generalizing i cp with
  | nil =>
    left
    rw [formatWords, wordsText, append_nil]
  | cons w ws ih =>
    rw [length_cons] at hlen
    by_cases hgap : w = 0 ∧ g = i
    · right
      have hsplit : ws.takeWhile (· == 0) ++ ws.dropWhile (· == 0) = ws :=
        takeWhile_append_dropWhile
      have hlens := congrArg List.length hsplit
      rw [length_append] at hlens
      refine ⟨[], (ws.takeWhile (· == 0)).length, ws.dropWhile (· == 0), ?_, ?_⟩
      · rw [nil_append, replicate_succ, ← takeWhile_zero, cons_append, hsplit, hgap.1]
      · have hcolon := length_bytes_colon
        have hgapLen : ((if i = 0 then cp ++ bytes ":" else cp) ++ bytes ":").length ≤
            5 * (i + (1 + (ws.takeWhile (· == 0)).length)) := by
          split
          · simp only [length_append]
            omega
          · simp only [length_append]
            omega
        rw [formatWords, if_pos hgap]
        rw [formatWords_after (by omega) (by omega) hgapLen]
        unfold gapText
        by_cases hi : i = 0
        · simp [hi, bytes]
        · simp [hi, bytes]
    · have hnext := ih (i := i + 1) (by omega) (length_piece_le (w := w) hcp)
      rw [formatWords_word hgap hcp (by omega)]
      rcases hnext with hnext | ⟨before, n, after, hws, hnext⟩
      · left
        rw [hnext, append_assoc, piece_append_wordsText hlen]
      · right
        have hi : i ≠ 7 := by
          have hlens := congrArg List.length hws
          simp only [length_append, length_replicate] at hlens
          omega
        refine ⟨w :: before, n, after, by rw [hws]; rfl, ?_⟩
        rw [hnext, if_pos hi, flatMap_cons, length_cons,
          show i + (before.length + 1) = i + 1 + before.length by omega]
        simp only [append_assoc]

lemma isWordsText_formatWords (g : Int) (hlen : ws.length = 8) : IsWordsText ws (formatWords g 0 [] ws) := by
  have hcases := @formatWords_cases g 0 [] ws (by omega) (by simp)
  simpa [IsWordsText] using hcases

end Text

section Scan

variable {st : WordScan} {w : UInt16} {ws : List UInt16} {rest : Bytes} {left : Nat}

def pushWord (st : WordScan) (w : UInt16) : WordScan :=
  { st with
    words := st.words.setIfInBounds st.i w
    i := st.i + 1
    setWords := st.setWords + 1 }

lemma headD_formatHex (w : UInt16) (rest : Bytes) : isXdigit ((formatHex w.toNat ++ rest).headD 0) := by
  cases hw : formatHex w.toNat with
  | nil => exact absurd hw (formatHex_ne_nil _)
  | cons c s => exact formatHex_isXdigit w.toNat c (hw ▸ mem_cons_self)

lemma scanWords_word (hi : st.i < 8) (hleft : left ≠ 0) (hrest : EndsNumber 16 rest)
    (hend : rest.headD 0 = byte ':' ∨ (formatHex w.toNat).length = left) :
    scanWords st (formatHex w.toNat ++ rest) left =
      scanWords (pushWord st w) (rest.drop 1) (left - ((formatHex w.toNat).length + 1)) := by
  have hw : w.toNat < 2 ^ 16 := w.toNat_lt
  have hread := strtoll_formatHex_append (show w.toNat < 2 ^ 63 by omega) hrest
  have hlen : (formatHex w.toNat ++ rest).length - rest.length = (formatHex w.toNat).length := by
    rw [length_append]
    omega
  have hle := length_formatHex_le w
  have hne : (formatHex w.toNat).length ≠ 0 := by
    simpa using formatHex_ne_nil w.toNat
  have hstop : ¬ (rest.headD 0 ≠ byte ':' ∧ (formatHex w.toNat).length ≠ left) := by tauto
  have hpush : ({ st with
      words := st.words.set st.i (UInt16.ofNat ((w.toNat : Int).toNat)) hi
      i := st.i + 1
      setWords := st.setWords + 1 } : WordScan) = pushWord st w := by
    simp [pushWord, Vector.setIfInBounds, Vector.set, Array.setIfInBounds, hi]
  rw [scanWords, if_neg hleft, dif_neg (by omega), if_pos (headD_formatHex w rest), hread]
  dsimp only
  rw [hlen, if_neg (by omega), if_neg hne, if_neg (by omega), if_neg hstop, hpush]

lemma scanWords_piece (hi : st.i < 8) (hleft : (wordPiece w).length ≤ left) :
    scanWords st (wordPiece w ++ rest) left = scanWords (pushWord st w) rest (left - (wordPiece w).length) := by
  have hlen : (wordPiece w).length = (formatHex w.toNat).length + 1 := by
    rw [wordPiece, length_append, length_bytes_colon]
  have hcolon : EndsNumber 16 (bytes ":" ++ rest) := endsNumber_cons (by decide)
  have hword := scanWords_word (w := w) hi (show left ≠ 0 by omega) hcolon (.inl rfl)
  rw [hlen, wordPiece, append_assoc, hword]
  rfl

lemma scanWords_last (hi : st.i < 8) :
    scanWords st (formatHex w.toNat) (formatHex w.toNat).length = some (pushWord st w) := by
  have hne : (formatHex w.toNat).length ≠ 0 := by
    simpa using formatHex_ne_nil w.toNat
  have hword := scanWords_word hi hne (endsNumber_nil 16) (.inr rfl)
  rw [append_nil] at hword
  rw [hword, scanWords, if_pos (by omega)]

lemma scanWords_pieces (hi : st.i + ws.length ≤ 8) (hleft : (ws.flatMap wordPiece).length ≤ left) :
    scanWords st (ws.flatMap wordPiece ++ rest) left =
      scanWords (ws.foldl pushWord st) rest (left - (ws.flatMap wordPiece).length) := by
  induction ws generalizing st left with
  | nil => rfl
  | cons w ws ih =>
    rw [length_cons] at hi
    rw [flatMap_cons, length_append] at hleft
    have hnext : (pushWord st w).i + ws.length ≤ 8 := by
      change st.i + 1 + ws.length ≤ 8
      omega
    rw [flatMap_cons, append_assoc, scanWords_piece (by omega) (by omega),
      ih hnext (by omega), foldl_cons, length_append, Nat.sub_sub]

lemma scanWords_wordsText (hi : st.i + ws.length ≤ 8) :
    scanWords st (wordsText ws) (wordsText ws).length = some (ws.foldl pushWord st) := by
  induction ws generalizing st with
  | nil =>
    rw [scanWords]
    rfl
  | cons w ws ih =>
    rw [length_cons] at hi
    cases ws with
    | nil => exact scanWords_last (by omega)
    | cons v ws =>
      have hnext : (pushWord st w).i + (v :: ws).length ≤ 8 := by
        change st.i + 1 + (v :: ws).length ≤ 8
        omega
      rw [wordsText, scanWords_piece (by omega) (by simp), length_append, Nat.add_sub_cancel_left, ih hnext]
      rfl

lemma scanWords_gap (hi : st.i < 8) (hgap : st.gapPos = none)
    (hleft : (gapText st.i).length ≤ left) :
    scanWords st (gapText st.i ++ rest) left =
      scanWords { st with gapPos := some st.i } rest (left - (gapText st.i).length) := by
  by_cases hzero : st.i = 0
  · have htext : gapText st.i = bytes "::" := if_pos hzero
    rw [htext] at hleft ⊢
    change 2 ≤ left at hleft
    rw [scanWords, if_neg (by omega), dif_neg (by omega)]
    simp [bytes, hzero, hgap, show isXdigit (byte ':') = false by decide]
  · have htext : gapText st.i = bytes ":" := if_neg hzero
    rw [htext] at hleft ⊢
    change 1 ≤ left at hleft
    rw [scanWords, if_neg (by omega), dif_neg (by omega)]
    simp [bytes, hgap, Nat.pos_of_ne_zero hzero, show isXdigit (byte ':') = false by decide]

structure WordsStored (st : WordScan) (ws : List UInt16) (st' : WordScan) : Prop where
  i : st'.i = st.i + ws.length
  setWords : st'.setWords = st.setWords + ws.length
  gapPos : st'.gapPos = st.gapPos
  words : st'.words.toList = st.words.toList.take st.i ++ ws ++ st.words.toList.drop (st.i + ws.length)

lemma stored_foldl_push (hi : st.i + ws.length ≤ 8) : WordsStored st ws (ws.foldl pushWord st) := by
  induction ws generalizing st with
  | nil =>
    constructor
    · rfl
    · rfl
    · rfl
    · simp
  | cons w ws ih =>
    rw [length_cons] at hi
    have hnext : (pushWord st w).i + ws.length ≤ 8 := by
      change st.i + 1 + ws.length ≤ 8
      omega
    have h := ih hnext
    have hset : (pushWord st w).words.toList = st.words.toList.set st.i w := by
      simp [pushWord]
    constructor
    · rw [foldl_cons, h.i, length_cons]
      change st.i + 1 + ws.length = _
      omega
    · rw [foldl_cons, h.setWords, length_cons]
      change st.setWords + 1 + ws.length = _
      omega
    · exact h.gapPos
    · have hlen : st.words.toList.length = 8 := by simp
      rw [foldl_cons, h.words, hset, length_cons]
      change List.take (st.i + 1) _ ++ ws ++ List.drop (st.i + 1 + ws.length) _ = _
      rw [drop_set_of_lt (by omega), take_add_one, take_set_of_le (Nat.le_refl _),
        getElem?_set_self (by omega), Nat.add_right_comm, Nat.add_assoc st.i]
      simp

end Scan

section Inet6

def joinWord (a b : UInt8) : UInt16 := (a.toUInt16 <<< 8) + b.toUInt16

lemma toNat_joinWord (a b : UInt8) : (joinWord a b).toNat = a.toNat * 256 + b.toNat := by
  have ha := a.toNat_lt
  have hb := b.toNat_lt
  simp [joinWord, Nat.shiftLeft_eq]
  omega

lemma joinWord_high (a b : UInt8) : (joinWord a b >>> 8).toUInt8 = a := by
  have ha := a.toNat_lt
  have hb := b.toNat_lt
  apply UInt8.toNat_inj.mp
  simp [toNat_joinWord, Nat.shiftRight_eq_div_pow]
  omega

lemma joinWord_low (a b : UInt8) : (joinWord a b &&& 0xff).toUInt8 = b := by
  have hb := b.toNat_lt
  have hmask := Nat.and_two_pow_sub_one_eq_mod (joinWord a b).toNat 8
  apply UInt8.toNat_inj.mp
  rw [UInt16.toNat_toUInt8, UInt16.toNat_and]
  change (_ &&& 2 ^ 8 - 1) % 256 = _
  rw [hmask, toNat_joinWord]
  omega

lemma joinWord_of_quad (a b : UInt8) :
    ((UInt32.ofNat a.toNat <<< 8) ||| UInt32.ofNat b.toNat).toUInt16 = joinWord a b := by
  have ha := a.toNat_lt
  have hb := b.toNat_lt
  have hor := Nat.shiftLeft_add_eq_or_of_lt (show b.toNat < 2 ^ 8 by omega) a.toNat
  apply UInt16.toNat_inj.mp
  rw [toNat_joinWord]
  simp [Nat.shiftLeft_eq] at hor ⊢
  rw [Nat.mod_eq_of_lt (by omega), ← hor]

lemma getElem_words (addr : In6Addr) {i : Nat} (hi : i < 8) :
    addr.words[i] = joinWord addr[2 * i] addr[2 * i + 1] := by
  unfold In6Addr.words
  rw [Vector.getElem_ofFn]
  rfl

lemma wordsAddr_words (addr : In6Addr) : wordsAddr addr.words = addr := by
  apply Vector.ext
  intro k hk
  unfold wordsAddr
  rw [Vector.getElem_ofFn]
  dsimp only
  rw [getElem_words]
  by_cases heven : k % 2 = 0
  · rw [if_pos heven, joinWord_high]
    congr 1
    omega
  · rw [if_neg heven, joinWord_low]
    congr 1
    omega

variable {n : Nat} {words : Vector UInt16 8} {addr : In6Addr} {before after ws : List UInt16}

lemma toList_openGap (words : Vector UInt16 8) {gapPos gapLen : Nat} (h : gapPos + gapLen + n ≤ 8) :
    (openGap words gapPos gapLen n).toList =
      words.toList.take gapPos ++ List.replicate gapLen 0 ++ (words.toList.drop gapPos).take n ++
        words.toList.drop (gapPos + gapLen + n) := by
  have hlen : words.toList.length = 8 := by simp
  have hbefore : min gapPos 8 = gapPos := by omega
  have hafter : min n (8 - gapPos) = n := by omega
  apply ext_getElem
  · simp only [Vector.length_toList, length_append, length_take, length_replicate, length_drop]
    omega
  · intro j hj hj'
    rw [Vector.length_toList] at hj
    simp only [openGap, Vector.getElem_toList, Vector.getElem_ofFn, getElem_append,
      getElem_replicate, getElem_take, getElem_drop, length_append,
      length_take, length_replicate, length_drop, hlen, hbefore, hafter]
    by_cases hpos : j < gapPos
    · rw [if_neg (by omega), if_neg (by omega), dif_pos (by omega), dif_pos (by omega), dif_pos hpos]
      rfl
    · by_cases hgap : j < gapPos + gapLen
      · rw [if_pos (by omega), dif_pos (by omega), dif_pos hgap, dif_neg hpos]
      · by_cases hmoved : j < gapPos + gapLen + n
        · rw [if_neg (by omega), if_pos (by omega), dif_pos hmoved, dif_neg hgap, getD_eq_getElem _ _ (by omega)]
          simp only [Vector.getElem_toList, show gapPos + (j - (gapPos + gapLen)) = j - gapLen by omega]
        · rw [if_neg (by omega), if_neg (by omega), dif_neg hmoved]
          simp only [Fin.getElem_fin, show gapPos + gapLen + n + (j - (gapPos + gapLen + n)) = j by omega]

lemma wordsAddr_eq (h : words.toList = addr.words.toList) : wordsAddr words = addr := by
  rw [Vector.toList_inj.mp h, wordsAddr_words]

/-- The scan after the words `before`, a gap and the words `after`, where `k` words were set at the
beginning. -/
def scanned (words : Vector UInt16 8) (k : Nat) (before after : List UInt16) : WordScan :=
  after.foldl pushWord
    { before.foldl pushWord ⟨words, 0, none, k⟩ with gapPos := some before.length }

structure Scanned (words : Vector UInt16 8) (k : Nat) (before after : List UInt16)
    (st : WordScan) : Prop where
  setWords : st.setWords = k + before.length + after.length
  gapPos : st.gapPos = some before.length
  words : st.words.toList = before ++ after ++ words.toList.drop (before.length + after.length)

lemma scanned_spec (words : Vector UInt16 8) (k : Nat) (h : before.length + after.length ≤ 8) :
    Scanned words k before after (scanned words k before after) := by
  have hfirst := @stored_foldl_push ⟨words, 0, none, k⟩ before (by simp; omega)
  unfold scanned
  generalize before.foldl pushWord ⟨words, 0, none, k⟩ = st at hfirst ⊢
  have hi : st.i = before.length := by simpa using hfirst.i
  have hset : st.setWords = k + before.length := hfirst.setWords
  have hwords : st.words.toList = before ++ words.toList.drop before.length := by
    simpa using hfirst.words
  have hsecond := @stored_foldl_push { st with gapPos := some before.length } after (by simp; omega)
  constructor
  · rw [hsecond.setWords, hset]
  · exact hsecond.gapPos
  · rw [hsecond.words]
    rw [hi, hwords, take_left, drop_length_add_append, drop_drop]

lemma finishWords_scanned {dot : Bool} {k : Nat} (hk : k = if dot then 2 else 0)
    (haddr : addr.words.toList = before ++ List.replicate (n + 1) 0 ++ after ++ words.toList.drop (8 - k)) :
    finishWords (scanned words k before after) dot = .ok addr := by
  have hlen := congrArg List.length haddr
  simp only [Vector.length_toList, length_append, length_replicate, length_drop] at hlen
  have hspec := scanned_spec words k (show before.length + after.length ≤ 8 by omega)
  generalize scanned words k before after = st at hspec ⊢
  have hset := hspec.setWords
  have hmove : (st.setWords : Int) - (if dot then 2 else 0) - before.length = after.length := by
    have hcast : (k : Int) = if dot then 2 else 0 := by
      rw [hk]
      split <;> rfl
    rw [← hcast]
    omega
  have hopen : (openGap st.words before.length (n + 1) after.length).toList = addr.words.toList := by
    rw [toList_openGap _ (by omega), haddr, hspec.words, append_assoc before after,
      take_left, drop_left, take_left,
      show before.length + (n + 1) + after.length = before.length + (after.length + (n + 1)) by
        omega, drop_length_add_append, drop_length_add_append, drop_drop]
    congr 2
    omega
  unfold finishWords
  rw [if_neg (by rw [hspec.gapPos]; simp; omega), hspec.gapPos]
  dsimp only
  rw [hmove, show 8 - st.setWords = n + 1 by omega, if_neg (by omega), Int.toNat_natCast, wordsAddr_eq hopen]

section Characters

variable {x : UInt8} (hhex : isXdigit x = false) (hcolon : x ≠ byte ':')
include hhex hcolon

lemma notMem_wordPiece (w : UInt16) : x ∉ wordPiece w := by
  rw [wordPiece, mem_append, not_or]
  exact ⟨notMem_formatHex hhex _, fun hmem => hcolon (mem_singleton.mp hmem)⟩

lemma notMem_pieces (ws : List UInt16) : x ∉ ws.flatMap wordPiece := by
  intro hmem
  obtain ⟨w, -, hw⟩ := mem_flatMap.mp hmem
  exact notMem_wordPiece hhex hcolon w hw

omit hhex in
lemma notMem_gapText (i : Nat) : x ∉ gapText i := by
  intro hmem
  have hall : ∀ c ∈ gapText i, c = byte ':' := by
    intro c hc
    unfold gapText at hc
    have hone : bytes ":" = [byte ':'] := rfl
    have htwo : bytes "::" = [byte ':', byte ':'] := rfl
    split at hc
    · simpa [htwo] using hc
    · simpa [hone] using hc
  exact hcolon (hall x hmem)

lemma notMem_wordsText (ws : List UInt16) : x ∉ wordsText ws := by
  induction ws with
  | nil => exact not_mem_nil
  | cons w ws ih =>
    cases ws with
    | nil => exact notMem_formatHex hhex _
    | cons v ws =>
      rw [wordsText, mem_append, not_or]
      exact ⟨notMem_wordPiece hhex hcolon w, ih⟩

lemma IsWordsText.notMem {words : List UInt16} {text : Bytes} (h : IsWordsText words text) : x ∉ text := by
  rcases h with rfl | ⟨before, n, after, -, rfl⟩
  · exact notMem_wordsText hhex hcolon words
  · rw [mem_append, mem_append, not_or, not_or]
    exact ⟨⟨notMem_pieces hhex hcolon before, notMem_gapText hcolon _⟩, notMem_wordsText hhex hcolon after⟩

end Characters

lemma evutilInetPton6_words (words : Vector UInt16 8) {text : Bytes}
    (h : IsWordsText addr.words.toList text) : evutilInetPton6 words text = .ok addr := by
  have hdot : byte '.' ∉ text := IsWordsText.notMem (by decide) (by decide) h
  unfold evutilInetPton6
  rw [strsep_of_notMem hdot]
  rcases h with rfl | ⟨before, n, after, hwords, rfl⟩
  · have hstored := @stored_foldl_push ⟨words, 0, none, 0⟩ addr.words.toList (by simp)
    rw [scanWords_wordsText (by simp)]
    dsimp only
    generalize addr.words.toList.foldl pushWord ⟨words, 0, none, 0⟩ = st at hstored ⊢
    have hset : st.setWords = 8 := by simpa using hstored.setWords
    have hgap : st.gapPos = none := hstored.gapPos
    have hsame : st.words.toList = addr.words.toList := by
      rw [hstored.words, drop_of_length_le (by simp)]
      simp
    unfold finishWords
    rw [if_neg (by rw [hset, hgap]; simp), hgap]
    exact congrArg Except.ok (wordsAddr_eq hsame)
  · have hsum := congrArg List.length hwords
    simp only [Vector.length_toList, length_append, length_replicate] at hsum
    have hfirst := @stored_foldl_push ⟨words, 0, none, 0⟩ before (by simp; omega)
    have hi : (before.foldl pushWord ⟨words, 0, none, 0⟩).i = before.length := by
      simpa using hfirst.i
    have hscan : scanWords ⟨words, 0, none, 0⟩
        (before.flatMap wordPiece ++ gapText before.length ++ wordsText after)
        (before.flatMap wordPiece ++ gapText before.length ++ wordsText after).length =
        some (scanned words 0 before after) := by
      unfold scanned
      rw [append_assoc, scanWords_pieces (by simp; omega) (by simp), length_append,
        Nat.add_sub_cancel_left, ← hi, scanWords_gap (by omega) hfirst.gapPos (by simp),
        length_append, Nat.add_sub_cancel_left, scanWords_wordsText (by simp; omega)]
    rw [hscan]
    exact finishWords_scanned rfl (by rw [hwords, drop_of_length_le (by simp), append_nil])

def quadFront (ws : List UInt16) : Bytes := gapText 0 ++ ws.flatMap wordPiece

lemma getLast_quadFront (ws : List UInt16) : (quadFront ws).getLast? = some (byte ':') := by
  rcases eq_nil_or_concat ws with rfl | ⟨init, w, rfl⟩
  · rfl
  · simp [quadFront, wordPiece, bytes]

/-- The four numbers after `quadFront` are found again, though the first is not told from the words
before it by a dot. -/
lemma split_quad {a : Nat} {tail : Bytes} :
    strsep (byte '.') (quadFront ws ++ (formatDecimal a ++ byte '.' :: tail)) =
        (quadFront ws ++ formatDecimal a, some tail) ∧
      (quadFront ws ++ formatDecimal a).rdropWhile isDigit = quadFront ws := by
  constructor
  · have hdot : byte '.' ∉ quadFront ws ++ formatDecimal a := by
      rw [quadFront, mem_append, mem_append, not_or, not_or]
      exact ⟨⟨notMem_gapText (by decide) 0, notMem_pieces (by decide) (by decide) ws⟩,
        notMem_formatDecimal (by decide) a⟩
    rw [← append_assoc, strsep_append hdot]
  · refine rdropWhile_append_stop (formatDecimal_isDigit a) ?_
    intro c hc
    rw [getLast_quadFront] at hc
    cases hc
    decide

lemma scanWords_quadFront (hws : ws.length ≤ 8) (rest : Bytes) :
    scanWords ⟨words, 0, none, 2⟩ (quadFront ws ++ rest) (quadFront ws).length = some (scanned words 2 [] ws) := by
  unfold quadFront
  rw [append_assoc, length_append, scanWords_gap (by simp) rfl (by simp),
    Nat.add_sub_cancel_left, scanWords_pieces (by simpa using hws) (Nat.le_refl _), Nat.sub_self,
    scanWords]
  rfl

lemma toList_eight (v : Vector UInt16 8) :
    v.toList = [v.get 0, v.get 1, v.get 2, v.get 3, v.get 4, v.get 5, v.get 6, v.get 7] := by
  apply List.ext_getElem
  · simp
  · intro j hj _
    rw [Vector.length_toList] at hj
    rw [Vector.getElem_toList]
    interval_cases j <;> rfl

lemma evutilInetPton6_quad (words : Vector UInt16 8)
    (haddr : addr.words.toList = List.replicate (n + 1) (0 : UInt16) ++ ws ++ addr.words.toList.drop 6) :
    evutilInetPton6 words (quadFront ws ++ addr.quad) = .ok addr := by
  have hlen := congrArg List.length haddr
  simp only [Vector.length_toList, length_append, length_replicate, length_drop] at hlen
  have hread : readQuad addr.quad = _ :=
    readQuad_formatQuad addr[12].toNat_lt addr[13].toNat_lt addr[14].toNat_lt addr[15].toNat_lt
  obtain ⟨tail, htail⟩ : ∃ tail, addr.quad = formatDecimal addr[12].toNat ++ byte '.' :: tail := by
    refine ⟨formatDecimal addr[13].toNat ++ bytes "." ++ formatDecimal addr[14].toNat ++
      bytes "." ++ formatDecimal addr[15].toNat, ?_⟩
    simp [In6Addr.quad, formatQuad, bytes]
  obtain ⟨hsep, heow⟩ := @split_quad ws addr[12].toNat tail
  have hne : quadFront ws ++ formatDecimal addr[12].toNat ≠ [] := by
    simpa using fun _ => formatDecimal_ne_nil _
  rw [← htail] at hsep
  unfold evutilInetPton6
  rw [hsep]
  dsimp only
  rw [if_neg hne, heow, drop_left, hread]
  dsimp only
  rw [joinWord_of_quad, joinWord_of_quad, scanWords_quadFront (by omega)]
  refine finishWords_scanned (n := n) rfl ?_
  rw [haddr, nil_append]
  congr 1
  rw [toList_eight addr.words]
  change [addr.words[6], addr.words[7]] = _
  rw [getElem_words, getElem_words, toList_eight]
  simp [Vector.get_eq_getElem]

lemma length_quad_le (addr : In6Addr) : addr.quad.length ≤ 15 :=
  length_formatQuad_le addr[12].toNat_lt addr[13].toNat_lt addr[14].toNat_lt addr[15].toNat_lt

inductive NtopText (addr : In6Addr) : Bytes → Prop
  | words {text : Bytes} : IsWordsText addr.words.toList text → NtopText addr text
  | quad (ws : List UInt16) (n : Nat) (haddr : addr.words.toList =
      List.replicate (n + 1) (0 : UInt16) ++ ws ++ addr.words.toList.drop 6) :
      NtopText addr (quadFront ws ++ addr.quad)

lemma ntopText_ntopBuf (addr : In6Addr) : NtopText addr (ntopBuf addr) := by
  have hquad := length_quad_le addr
  have hhex := length_formatHex_le addr.words[5]
  have hcolons : (bytes "::").length = 2 := rfl
  have hcolon := length_bytes_colon
  unfold ntopBuf
  extract_lets words quad
  change quad.length ≤ 15 at hquad
  change (formatHex words[5].toNat).length ≤ 4 at hhex
  by_cases hv4 : addr.isV4
  · rw [if_pos hv4]
    unfold In6Addr.isV4 at hv4
    simp only [Bool.and_eq_true, beq_iff_eq] at hv4
    obtain ⟨⟨⟨⟨⟨h0, h1⟩, h2⟩, h3⟩, h4⟩, -⟩ := hv4
    have height : addr.words.toList =
      [words[0], words[1], words[2], words[3], words[4], words[5], words[6], words[7]] := toList_eight _
    rw [h0, h1, h2, h3, h4] at height
    by_cases h5 : words[5] = 0
    · have hcut : cutText 64 (bytes "::" ++ quad) = quadFront [] ++ quad := by
        refine (take_of_length_le ?_).trans rfl
        rw [length_append]
        omega
      rw [if_pos h5, hcut]
      exact .quad [] 5 (by rw [height]; simpa using h5)
    · have hcut : cutText 64 (bytes "::" ++ formatHex words[5].toNat ++ bytes ":" ++ quad) =
          quadFront [words[5]] ++ quad := by
        refine (take_of_length_le ?_).trans ?_
        · simp only [length_append]
          omega
        · simp [quadFront, gapText, wordPiece, bytes]
      rw [if_neg h5, hcut]
      exact .quad [words[5]] 4 (by rw [height]; rfl)
  · rw [if_neg hv4]
    exact .words (isWordsText_formatWords _ (by simp))

lemma evutilInetPton6_ntopBuf (words : Vector UInt16 8) (addr : In6Addr) :
    evutilInetPton6 words (ntopBuf addr) = .ok addr := by
  have htext := ntopText_ntopBuf addr
  generalize ntopBuf addr = text at htext ⊢
  cases htext with
  | words h => exact evutilInetPton6_words words h
  | quad ws n haddr => exact evutilInetPton6_quad words haddr

lemma length_pieces_le (ws : List UInt16) : (ws.flatMap wordPiece).length ≤ 5 * ws.length := by
  induction ws with
  | nil => exact Nat.zero_le _
  | cons w ws ih =>
    have hhex := length_formatHex_le w
    rw [flatMap_cons, length_append, wordPiece, length_append, length_bytes_colon, length_cons]
    omega

lemma length_wordsText_le (ws : List UInt16) : (wordsText ws).length ≤ 5 * ws.length := by
  induction ws with
  | nil => exact Nat.zero_le _
  | cons w ws ih =>
    have hhex := length_formatHex_le w
    cases ws with
    | nil =>
      rw [wordsText, length_singleton]
      omega
    | cons v ws =>
      rw [wordsText, length_append, wordPiece, length_append, length_bytes_colon, length_cons]
      omega

lemma length_gapText_le (i : Nat) : (gapText i).length ≤ 2 := by
  unfold gapText
  split <;> decide

lemma length_ntopBuf_le (addr : In6Addr) : (ntopBuf addr).length ≤ 42 := by
  have htext := ntopText_ntopBuf addr
  generalize ntopBuf addr = text at htext ⊢
  cases htext with
  | words h =>
    rcases h with rfl | ⟨before, n, after, hwords, rfl⟩
    · have hle := length_wordsText_le addr.words.toList
      rw [Vector.length_toList] at hle
      omega
    · have hsum := congrArg List.length hwords
      simp only [Vector.length_toList, length_append, length_replicate] at hsum
      have hbefore := length_pieces_le before
      have hgap := length_gapText_le before.length
      have hafter := length_wordsText_le after
      rw [length_append, length_append]
      omega
  | quad ws n haddr =>
    have hsum := congrArg List.length haddr
    simp only [Vector.length_toList, length_append, length_replicate, length_drop] at hsum
    have hws := length_pieces_le ws
    have hgap := length_gapText_le 0
    have hquad := length_quad_le addr
    rw [length_append, quadFront, length_append]
    omega

lemma notMem_ntopBuf (addr : In6Addr) : byte ']' ∉ ntopBuf addr := by
  have htext := ntopText_ntopBuf addr
  generalize ntopBuf addr = text at htext ⊢
  cases htext with
  | words h => exact IsWordsText.notMem (by decide) (by decide) h
  | quad ws n haddr =>
    rw [quadFront, mem_append, mem_append, not_or, not_or]
    exact ⟨⟨notMem_gapText (by decide) 0, notMem_pieces (by decide) (by decide) ws⟩,
      notMem_formatQuad (by decide) (by decide)⟩

end Inet6

section Ports

variable {port : UInt16} {text : Bytes} {outlen : Int}

lemma parsePortPart_formatDecimal (h : port ≠ 0) : parsePortPart (some (formatDecimal port.toNat)) = some port := by
  have hlt : port.toNat < 2 ^ 16 := port.toNat_lt
  have hpos : port.toNat ≠ 0 := by
    intro hzero
    exact h (UInt16.toNat_inj.mp hzero)
  have hatoi : atoi (formatDecimal port.toNat) = port.toNat := by
    unfold atoi
    rw [strtoll_formatDecimal (by omega)]
    exact cInt_of_le (by omega) (by omega)
  unfold parsePortPart
  dsimp only
  rw [hatoi, if_neg (by omega), Int.toNat_natCast, UInt16.ofNat_toNat]

lemma splitSockaddr_inet (hcolon : byte ':' ∉ text) (hopen : byte '[' ∉ text)
    (hlen : text.length ≤ 127) {port : Bytes} (hport : byte ':' ∉ port) :
    splitSockaddr (text ++ bytes ":" ++ port) = some (false, text, some port) := by
  have hhead : (text ++ bytes ":" ++ port).headD 0 ≠ byte '[' := by
    cases text with
    | nil => exact (by decide : byte ':' ≠ byte '[')
    | cons c text =>
      intro heq
      exact hopen (mem_cons.mpr (.inl heq.symm))
  have hsep : strsep (byte ':') (text ++ bytes ":" ++ port) = (text, some port) := by
    rw [append_assoc]
    exact strsep_append hcolon port
  unfold splitSockaddr
  rw [if_neg hhead, hsep]
  dsimp only
  rw [if_neg hport, if_neg (by omega)]

lemma splitSockaddr_inet6 (hclose : byte ']' ∉ text) (hlen : text.length ≤ 127) (port : Bytes) :
    splitSockaddr (bytes "[" ++ text ++ bytes "]:" ++ port) = some (true, text, some port) := by
  have hsep : strsep (byte ']') ((bytes "[" ++ text ++ bytes "]:" ++ port).drop 1) =
      (text, some (bytes ":" ++ port)) := by
    have hdrop : (bytes "[" ++ text ++ bytes "]:" ++ port).drop 1 = text ++ byte ']' :: (bytes ":" ++ port) := by
      simp [bytes]
    rw [hdrop, strsep_append hclose]
  have hhead : (bytes "[" ++ text ++ bytes "]:" ++ port).headD 0 = byte '[' := rfl
  unfold splitSockaddr
  rw [if_pos hhead, hsep]
  dsimp only
  rw [if_neg (by omega)]
  rfl

lemma evutilParseSockaddrPort_inet (words : Vector UInt16 8) (addr : UInt32) (hport : port ≠ 0)
    (hout : 16 ≤ outlen) :
    evutilParseSockaddrPort words (sockaddrPortText (.inet addr port)) outlen = some (.inet addr port, 16) := by
  have hlen := length_inetText_le addr
  have htext : sockaddrPortText (.inet addr port) = inetText addr ++ bytes ":" ++ formatDecimal port.toNat := by
    unfold sockaddrPortText
    dsimp only
    rw [evutilInetNtop4_eq]
  have hsplit : splitSockaddr (inetText addr ++ bytes ":" ++ formatDecimal port.toNat) =
      some (false, inetText addr, some (formatDecimal port.toNat)) :=
    splitSockaddr_inet (notMem_formatQuad (by decide) (by decide))
      (notMem_formatQuad (by decide) (by decide)) (hlen.trans (by omega))
      (notMem_formatDecimal (by decide) _)
  unfold evutilParseSockaddrPort
  rw [htext, hsplit]
  dsimp only
  rw [parsePortPart_formatDecimal hport]
  dsimp only
  rw [if_neg Bool.false_ne_true, evutilInetPton4_inetText]
  exact if_neg (by omega)

lemma evutilParseSockaddrPort_inet6 (words : Vector UInt16 8) (addr : In6Addr) (hport : port ≠ 0)
    (hout : 28 ≤ outlen) :
    evutilParseSockaddrPort words (sockaddrPortText (.inet6 addr port 0 0)) outlen =
      some (.inet6 addr port 0 0, 28) := by
  have hlen := length_ntopBuf_le addr
  have hntop : evutilInetNtop6 addr 128 = some (ntopBuf addr) := by
    unfold evutilInetNtop6
    rw [if_neg (by omega), cutText, take_of_length_le (by omega)]
  have htext : sockaddrPortText (.inet6 addr port 0 0) =
      bytes "[" ++ ntopBuf addr ++ bytes "]:" ++ formatDecimal port.toNat := by
    unfold sockaddrPortText
    dsimp only
    rw [hntop]
  have hsplit := splitSockaddr_inet6 (notMem_ntopBuf addr) (show (ntopBuf addr).length ≤ 127 by omega)
    (formatDecimal port.toNat)
  unfold evutilParseSockaddrPort
  rw [htext, hsplit]
  dsimp only
  rw [parsePortPart_formatDecimal hport]
  dsimp only
  rw [if_pos rfl, evutilInetPton6_ntopBuf]
  exact if_neg (by omega)

theorem evutilParseSockaddrPort_format (words : Vector UInt16 8) (sa : Sockaddr) (size : Nat)
    (outlen : Int) (hsa : sa.Plain) (hsize : (sockaddrPortText sa).length < size)
    (hout : sa.size ≤ outlen) :
    evutilParseSockaddrPort words (evutilFormatSockaddrPort sa size) outlen = some (sa, sa.size) := by
  have hcut : evutilFormatSockaddrPort sa size = sockaddrPortText sa :=
    take_of_length_le (by omega)
  rw [hcut]
  cases sa with
  | inet addr port => exact evutilParseSockaddrPort_inet words addr hsa hout
  | inet6 addr port flowinfo scopeId =>
    obtain ⟨hport, rfl, rfl⟩ := hsa
    exact evutilParseSockaddrPort_inet6 words addr hport hout
  | other family => exact hsa.elim

/-- The address ::ffff:127.0.0.1 with the highest port, where `words` holds ones at first. -/
theorem evutilParseSockaddrPort_format_mapped :
    evutilParseSockaddrPort (Vector.replicate 8 1)
      (evutilFormatSockaddrPort (.inet6 #v[0, 0, 0, 0, 0, 0, 0, 0, 0, 0, 255, 255, 127, 0, 0, 1]
        65535 0 0) 128) 28 =
      some (.inet6 #v[0, 0, 0, 0, 0, 0, 0, 0, 0, 0, 255, 255, 127, 0, 0, 1] 65535 0 0, 28) :=
  evutilParseSockaddrPort_format (Vector.replicate 8 1) (.inet6 _ 65535 0 0) 128 28
    ⟨by decide, rfl, rfl⟩ (by decide +kernel) (by decide)

end Ports

end MyLibevent.Proofs
