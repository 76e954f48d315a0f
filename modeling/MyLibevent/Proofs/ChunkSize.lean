import MyLibevent.HttpBody
import MyLibevent.Proofs.Numbers

/-!
# Lines with the size of a chunk

`strtoll` reads more than digits: blanks, a sign and `0x` before them, and it stops at the largest number.
Without digits it gives zero and stays where it is. The lines that are taken for a size and are none are
listed by their form.
-/

namespace MyLibevent.Proofs

open List Numeral

section Forms

variable {p s blanks sign mark digits rest : Bytes} {ds : List Nat} {neg : Bool}

/-- The mark of a hexadecimal number, if there is one. -/
def IsMark (mark : Bytes) : Prop := mark = [] ∨ mark = bytes "0x" ∨ mark = bytes "0X"

lemma IsDigits.isSome {c : UInt8} (h : IsDigits 16 digits ds) (hc : c ∈ digits) : (digitValue 16 c).isSome := by
  induction h with
  | nil => cases hc
  | cons hd _ ih =>
    cases hc with
    | head =>
      rw [hd]
      rfl
    | tail _ hc => exact ih hc

lemma IsDigits.unique {ds' : List Nat} (h : IsDigits 16 digits ds) (h' : IsDigits 16 digits ds') : ds = ds' := by
  induction h generalizing ds' with
  | nil =>
    cases h'
    rfl
  | cons hd _ ih =>
    cases h' with
    | cons hd' h' => rw [ih h', Option.some.inj (hd.symm.trans hd')]

lemma exists_isDigits (s : Bytes) : ∃ digits ds rest, s = digits ++ rest ∧ IsDigits 16 digits ds ∧
    ∀ c ∈ rest.head?, digitValue 16 c = none := by
  induction s with
  | nil => exact ⟨[], [], [], rfl, .nil, nofun⟩
  | cons c s ih =>
    cases hc : digitValue 16 c with
    | none => exact ⟨[], [], c :: s, rfl, .nil, by simp [hc]⟩
    | some d =>
      obtain ⟨digits, ds, rest, rfl, hdigits, hrest⟩ := ih
      exact ⟨c :: digits, d :: ds, rest, rfl, .cons hc hdigits, hrest⟩

lemma exists_afterSign (p : Bytes) : ∃ blanks sign neg s, AfterSign p blanks sign neg s := by
  have hsplit : p = p.takeWhile isSpace ++ p.dropWhile isSpace := takeWhile_append_dropWhile.symm
  have hblanks : ∀ c ∈ p.takeWhile isSpace, isSpace c := fun c hc => mem_takeWhile_imp hc
  cases hs : p.dropWhile isSpace with
  | nil =>
    rw [hs] at hsplit
    exact ⟨_, [], false, [], hsplit, hblanks, Or.inl ⟨rfl, rfl⟩, nofun⟩
  | cons c s =>
    rw [hs] at hsplit
    have hspace : isSpace c = false := by
      have hhead := head_dropWhile_not isSpace (by rw [hs]; exact cons_ne_nil c s)
      simpa only [hs, head_cons] using hhead
    by_cases hplus : c = byte '+'
    · exact ⟨_, bytes "+", false, s, hsplit.trans (by rw [hplus]; rfl), hblanks, Or.inr (Or.inl ⟨rfl, rfl⟩), nofun⟩
    by_cases hminus : c = byte '-'
    · exact ⟨_, bytes "-", true, s, hsplit.trans (by rw [hminus]; rfl), hblanks, Or.inr (Or.inr ⟨rfl, rfl⟩), nofun⟩
    refine ⟨_, [], false, c :: s, hsplit, hblanks, Or.inl ⟨rfl, rfl⟩, ?_⟩
    rintro - d ⟨⟩
    exact ⟨hspace, hminus, hplus⟩

/-- Nothing of what may stand before a number is a digit. -/
lemma AfterSign.lead_eq_nil (h : AfterSign p blanks sign neg s) (hmark : IsMark mark)
    (hdigit : ∀ c ∈ blanks ++ (sign ++ mark), (digitValue 16 c).isSome) : blanks ++ (sign ++ mark) = [] := by
  have hblanks : blanks = [] := by
    refine eq_nil_iff_forall_not_mem.2 fun c hc => ?_
    have hspace := (digitChar_spec 16 le_rfl (hdigit c (mem_append_left _ hc))).1
    rw [h.isBlank c hc] at hspace
    cases hspace
  subst hblanks
  rcases h.isSign with ⟨rfl, -⟩ | ⟨rfl, -⟩ | ⟨rfl, -⟩
  · rcases hmark with rfl | rfl | rfl
    · rfl
    · exact absurd (hdigit (byte 'x') (by decide)) (by decide)
    · exact absurd (hdigit (byte 'X') (by decide)) (by decide)
  · exact absurd (hdigit (byte '+') (mem_cons_self ..)) (by decide)
  · exact absurd (hdigit (byte '-') (mem_cons_self ..)) (by decide)

lemma skipHexPrefix_mark (hmark : IsMark mark) (h : IsDigits 16 digits ds) (hne : digits ≠ [])
    (hrest : EndsNumber 16 rest) : skipHexPrefix 16 (mark ++ (digits ++ rest)) = digits ++ rest := by
  rcases hmark with rfl | rfl | rfl
  · rw [nil_append]
    exact skipHexPrefix_digits le_rfl h hne hrest
  all_goals cases h with
  | nil => exact absurd rfl hne
  | cons hc => simp [bytes, byte, skipHexPrefix, hc]

lemma exists_mark (s : Bytes) : ∃ mark, IsMark mark ∧ s = mark ++ skipHexPrefix 16 s ∧
    (mark = [] ∨ ∃ c ∈ (skipHexPrefix 16 s).head?, (digitValue 16 c).isSome) := by
  unfold skipHexPrefix
  split
  · rename_i c x d s
    split_ifs with hcond
    · obtain ⟨-, rfl, rfl | rfl, hd⟩ := hcond
      · exact ⟨bytes "0x", Or.inr (Or.inl rfl), rfl, Or.inr ⟨d, rfl, hd⟩⟩
      · exact ⟨bytes "0X", Or.inr (Or.inr rfl), rfl, Or.inr ⟨d, rfl, hd⟩⟩
    · exact ⟨[], Or.inl rfl, rfl, Or.inl rfl⟩
  · exact ⟨[], Or.inl rfl, rfl, Or.inl rfl⟩

lemma strtoll_blank (h : AfterSign p blanks sign neg s) (hs : ∀ c ∈ s.head?, digitValue 16 c = none) :
    strtoll 16 p = (0, p) := by
  have hskip : skipHexPrefix 16 s = s := by
    unfold skipHexPrefix
    split
    · refine if_neg ?_
      rintro ⟨-, rfl, -⟩
      have hzero := hs (byte '0') rfl
      revert hzero
      decide
    · rfl
  unfold strtoll
  rw [h.skip]
  dsimp only
  rw [hskip]
  cases s with
  | nil => rfl
  | cons c s => simp [hs c rfl]

/-- Every text holds no number after its blanks and its sign, or it holds one there. -/
lemma strtoll_forms (p : Bytes) : ∃ blanks sign neg s, AfterSign p blanks sign neg s ∧
    ((∀ c ∈ s.head?, digitValue 16 c = none) ∨ ∃ mark digits ds rest, s = mark ++ (digits ++ rest) ∧
      IsMark mark ∧ IsDigits 16 digits ds ∧ digits ≠ [] ∧
      strtoll 16 p = (readValue neg (value 16 0 ds), rest)) := by
  obtain ⟨blanks, sign, neg, s, h⟩ := exists_afterSign p
  refine ⟨blanks, sign, neg, s, h, ?_⟩
  obtain ⟨mark, hmark, heq, hfirst⟩ := exists_mark s
  obtain ⟨digits, ds, rest, hsplit, hdigits, hrest⟩ := exists_isDigits (skipHexPrefix 16 s)
  by_cases hne : digits = []
  · left
    subst hne
    rw [hsplit] at heq hfirst
    rcases hfirst with rfl | ⟨c, hc, hsome⟩
    · rw [heq]
      exact hrest
    · rw [hrest c hc] at hsome
      cases hsome
  · refine Or.inr ⟨mark, digits, ds, rest, ?_, hmark, hdigits, hne, strtoll_digits h hsplit hdigits hne hrest⟩
    rwa [hsplit] at heq

end Forms

/-- One or more hexadecimal digits of the value `n`, and nothing or a space and anything. -/
def ChunkSizeLine (line : Bytes) (n : Nat) : Prop :=
  ∃ digits ds rest, line = digits ++ rest ∧ digits ≠ [] ∧ IsDigits 16 digits ds ∧
    (rest = [] ∨ rest.head? = some (byte ' ')) ∧ value 16 0 ds = n

/-- A line that is accepted and not empty is a line with a size, and this size is used. -/
def SizeChecked (maxBodySize : Nat) (req : BodyRequest) (buf line : Bytes) : Prop :=
  line ≠ [] → ∀ req' buf', chunkedReadTurn maxBodySize req buf = .again req' buf' ∨
    chunkedReadTurn maxBodySize req buf = .stop .allDataRead req' buf' →
    ∃ n, ChunkSizeLine line n ∧ req'.ntoread = n

/-- The forms of a line that is taken for the size `n` and is no line with this size: a number after blanks, a
sign or a mark, one that is too large or ends at a NUL; or a space, and no digit after the blanks and the
sign. -/
inductive Misread (line : Bytes) : Nat → Prop
  | number {blanks sign mark digits rest : Bytes} {ds : List Nat} {neg : Bool}
      (hline : AfterSign (cstring line) blanks sign neg (mark ++ (digits ++ rest))) (hmark : IsMark mark)
      (hdigits : IsDigits 16 digits ds) (hne : digits ≠ []) (hrest : rest = [] ∨ rest.head? = some (byte ' '))
      (hneg : neg → value 16 0 ds = 0)
      (hform : blanks ++ (sign ++ mark) ≠ [] ∨ 2 ^ 63 ≤ value 16 0 ds ∨ rest = [] ∧ line ≠ cstring line) :
      Misread line (min (value 16 0 ds) (2 ^ 63 - 1))
  | blank {blanks sign s : Bytes} {neg : Bool} (hline : AfterSign (cstring line) blanks sign neg s)
      (hs : ∀ c ∈ s.head?, digitValue 16 c = none) (hspace : (cstring line).head? = some (byte ' ')) :
      Misread line 0

/-- The size is within the limits on the body. -/
def SizeFits (maxBodySize bodySize n : Nat) : Prop := n ≤ evSizeMax - bodySize ∧ bodySize + n ≤ maxBodySize

/-- `strtoll` reads the number `n` up to the end or a space. -/
def TakenFor (p : Bytes) (n : Nat) : Prop :=
  (strtoll 16 p).1 = n ∧ ((strtoll 16 p).2 = [] ∨ (strtoll 16 p).2.head? = some (byte ' '))

lemma endsNumber_of_space {rest : Bytes} (h : rest = [] ∨ rest.head? = some (byte ' ')) : EndsNumber 16 rest := by
  intro c hc
  rcases h with rfl | h
  · cases hc
  · obtain rfl : c = byte ' ' := Option.some.inj (hc.symm.trans h)
    decide

lemma cstring_append {digits : Bytes} (h : ∀ c ∈ digits, c ≠ 0) (rest : Bytes) :
    cstring (digits ++ rest) = digits ++ cstring rest := by
  apply takeWhile_append_of_pos
  simpa using h

lemma cstring_space {rest : Bytes} (h : rest = [] ∨ rest.head? = some (byte ' ')) :
    (cstring rest = [] ∨ (cstring rest).head? = some (byte ' ')) ∧ (cstring rest = [] → rest = []) := by
  rcases h with rfl | h
  · exact ⟨Or.inl rfl, fun _ => rfl⟩
  · cases rest with
    | nil => cases h
    | cons c rest =>
      cases h
      exact ⟨Or.inr rfl, nofun⟩

variable {line : Bytes} {n : Nat}

lemma Misread.takenFor (h : Misread line n) : TakenFor (cstring line) n := by
  cases h with
  | @number blanks sign mark digits rest ds neg hline hmark hdigits hne hrest hneg =>
    have hends := endsNumber_of_space hrest
    rw [TakenFor, strtoll_digits hline (skipHexPrefix_mark hmark hdigits hne hends) hdigits hne
      fun c hc => (hends c hc).1]
    refine ⟨?_, hrest⟩
    cases neg with
    | true =>
      rw [hneg rfl]
      rfl
    | false => simp [readValue]
  | blank hline hs hspace =>
    rw [TakenFor, strtoll_blank hline hs]
    exact ⟨rfl, Or.inr hspace⟩

lemma ChunkSizeLine.not_misread (h : ChunkSizeLine line n) : ¬Misread line n := by
  obtain ⟨digits, ds, rest, hline, hne, hdigits, hrest, hn⟩ := h
  have hcstring : cstring line = digits ++ cstring rest := by
    rw [hline]
    exact cstring_append (fun c hc => (digitChar_spec 16 le_rfl (hdigits.isSome hc)).2.2.2.2.2) rest
  obtain ⟨hspace, hnil⟩ := cstring_space hrest
  intro hread
  have hends := endsNumber_of_space hspace
  have hstrtoll := strtoll_digits (afterSign_digits le_rfl hdigits hne)
    (skipHexPrefix_digits le_rfl hdigits hne hends) hdigits hne fun c hc => (hends c hc).1
  rw [← hcstring] at hstrtoll
  cases hread with
  | @number blanks sign mark digits' rest' ds' neg hline' hmark hdigits' hne' hrest' hneg hform =>
    have hends' := endsNumber_of_space hrest'
    have hstrtoll' := strtoll_digits hline' (skipHexPrefix_mark hmark hdigits' hne' hends') hdigits' hne'
      fun c hc => (hends' c hc).1
    obtain rfl : rest' = cstring rest := (Prod.ext_iff.1 (hstrtoll'.symm.trans hstrtoll)).2
    have hsame : blanks ++ (sign ++ mark) ++ digits' = digits := by
      have heq := hline'.eq.symm.trans hcstring
      simp only [← append_assoc] at heq ⊢
      exact append_cancel_right heq
    have hlead := hline'.lead_eq_nil hmark fun c hc => hdigits.isSome (hsame ▸ mem_append_left _ hc)
    rw [hlead, nil_append] at hsame
    subst hsame
    obtain rfl := hdigits.unique hdigits'
    rcases hform with hform | hform | ⟨hend, hcut⟩
    · exact hform hlead
    · omega
    · rw [hcstring, hline, hend, hnil hend] at hcut
      exact hcut rfl
  | blank _ _ hblank =>
    rw [hcstring] at hblank
    cases hdigits with
    | nil => exact hne rfl
    | cons hd =>
      cases hblank
      cases hd

lemma chunkSizeLine_of_takenFor (hne : cstring line ≠ []) (h : TakenFor (cstring line) n)
    (hread : ¬Misread line n) : ChunkSizeLine line n := by
  obtain ⟨blanks, sign, neg, s, hline, hnone | ⟨mark, digits, ds, rest, rfl, hmark, hdigits, hdigits', hstrtoll⟩⟩ :=
    strtoll_forms (cstring line)
  · rw [TakenFor, strtoll_blank hline hnone] at h
    obtain rfl : n = 0 := Int.natCast_eq_zero.1 h.1.symm
    exact absurd (.blank hline hnone (h.2.resolve_left hne)) hread
  · rw [TakenFor, hstrtoll] at h
    obtain ⟨hvalue, hrest⟩ := h
    obtain ⟨hneg, hmin⟩ : (neg → value 16 0 ds = 0) ∧ n = min (value 16 0 ds) (2 ^ 63 - 1) := by
      unfold readValue at hvalue
      cases neg with
      | true =>
        rw [if_pos rfl] at hvalue
        exact ⟨fun _ => by omega, by omega⟩
      | false =>
        rw [if_neg Bool.false_ne_true] at hvalue
        exact ⟨nofun, by omega⟩
    by_cases hform : blanks ++ (sign ++ mark) ≠ [] ∨ 2 ^ 63 ≤ value 16 0 ds ∨ rest = [] ∧ line ≠ cstring line
    · exact absurd (hmin ▸ .number hline hmark hdigits hdigits' hrest hneg hform) hread
    · simp only [not_or, not_not, not_le, not_and] at hform
      obtain ⟨hlead, hlt, hcut⟩ := hform
      have hcstring : cstring line = digits ++ rest := by
        have heq := hline.eq
        rwa [← append_assoc sign, ← append_assoc, hlead] at heq
      have hsplit : line = cstring line ++ line.dropWhile (· != 0) := takeWhile_append_dropWhile.symm
      refine ⟨digits, ds, rest ++ line.dropWhile (· != 0), ?_, hdigits', hdigits, ?_, by omega⟩
      · rwa [hcstring, append_assoc] at hsplit
      · rcases hrest with rfl | hspace
        · left
          rw [← hcut rfl] at hsplit
          exact append_right_eq_self.1 hsplit.symm
        · right
          cases rest with
          | nil => cases hspace
          | cons c rest => exact hspace

variable {maxBodySize : Nat} {req req' : BodyRequest} {p : Bytes}

lemma readChunkSize_taken (h : TakenFor p n) (hfits : SizeFits maxBodySize req.bodySize n) (rest : Bytes) :
    ∃ req' : BodyRequest, req'.ntoread = n ∧ (readChunkSize maxBodySize req p rest = .again req' rest ∨
      readChunkSize maxBodySize req p rest = .stop .allDataRead req' rest) := by
  unfold TakenFor at h
  unfold readChunkSize
  generalize strtoll 16 p = r at h ⊢
  obtain ⟨ntoread, endp⟩ := r
  obtain ⟨rfl, hend⟩ := h
  obtain ⟨hsize, hmax⟩ := hfits
  dsimp only at hend ⊢
  have haccept : ¬((endp ≠ [] ∧ endp.head? ≠ some (byte ' ')) ∨ (n : Int) < 0) := by
    rintro (⟨hne, hspace⟩ | hlt)
    · exact hend.elim hne hspace
    · omega
  rw [if_neg haccept, if_neg (by omega), if_neg (by omega)]
  split
  · exact ⟨_, rfl, Or.inr rfl⟩
  · exact ⟨_, rfl, Or.inl rfl⟩

lemma takenFor_of_readChunkSize {rest buf' : Bytes}
    (h : readChunkSize maxBodySize req p rest = .again req' buf' ∨
      readChunkSize maxBodySize req p rest = .stop .allDataRead req' buf') :
    ∃ n : Nat, TakenFor p n ∧ SizeFits maxBodySize req.bodySize n ∧ req'.ntoread = n := by
  unfold TakenFor SizeFits
  unfold readChunkSize at h
  generalize strtoll 16 p = r at h ⊢
  obtain ⟨ntoread, endp⟩ := r
  dsimp only at h ⊢
  split at h
  · simp at h
  rename_i haccept
  split at h
  · simp at h
  split at h
  · simp at h
  refine ⟨ntoread.toNat, ⟨by omega, ?_⟩, ⟨by omega, by omega⟩, ?_⟩
  · by_contra hend
    exact haccept (Or.inl (not_or.1 hend))
  · have hpos : 0 ≤ ntoread := by omega
    split at h
    · obtain h | h := h <;> cases h
      exact (Int.toNat_of_nonneg hpos).symm
    · obtain h | h := h <;> cases h
      exact (Int.toNat_of_nonneg hpos).symm

/-- What is accepted is checked exactly if the line is empty, or it does not begin with a NUL and has none
of the forms of a misread line with a size within the limits. -/
theorem sizeChecked_iff (maxBodySize : Nat) (req : BodyRequest) (buf line rest : Bytes)
    (hneg : req.ntoread < 0) (hlen : buf.length ≤ evSsizeMax)
    (hread : evbufferReadln buf = some (line, rest)) :
    SizeChecked maxBodySize req buf line ↔ line = [] ∨
      cstring line ≠ [] ∧ ∀ n, Misread line n → ¬SizeFits maxBodySize req.bodySize n := by
  have hturn : chunkedReadTurn maxBodySize req buf = if (cstring line).length = 0 then .again req rest
      else readChunkSize maxBodySize req (cstring line) rest := by
    have hpos := length_evbufferReadln hread
    rw [chunkedReadTurn, if_neg (by omega), if_neg (by omega), if_pos hneg, hread]
  unfold SizeChecked
  by_cases hne : line = []
  · simp [hne]
  rw [hturn, imp_iff_right hne, or_iff_right hne]
  by_cases hempty : cstring line = []
  · -- an empty line is passed over, whatever follows the NUL
    rw [if_pos (by rw [hempty]; rfl)]
    refine iff_of_false (fun h => ?_) fun h => h.1 hempty
    obtain ⟨n, -, hn⟩ := h req rest (Or.inl rfl)
    omega
  rw [if_neg (by simpa using hempty)]
  constructor
  · intro h
    refine ⟨hempty, fun n hmisread hfits => ?_⟩
    obtain ⟨req', hreq, hresult⟩ := readChunkSize_taken hmisread.takenFor hfits rest
    obtain ⟨m, hline, hm⟩ := h req' rest hresult
    obtain rfl : m = n := by omega
    exact hline.not_misread hmisread
  · rintro ⟨-, h⟩ req' buf' hresult
    obtain ⟨n, htaken, hfits, hn⟩ := takenFor_of_readChunkSize hresult
    exact ⟨n, chunkSizeLine_of_takenFor hempty htaken fun hmisread => h n hmisread hfits, hn⟩

def sizeRequest : BodyRequest := ⟨true, -1, 0, [], false, [], [], 0⟩

theorem sizeChecked_line : SizeChecked 100 sizeRequest (bytes "1F ;x\r\n") (bytes "1F ;x") := by
  refine (sizeChecked_iff 100 sizeRequest (bytes "1F ;x\r\n") (bytes "1F ;x") [] (by decide) (by decide)
    (by decide)).2 (Or.inr ⟨by decide, ?_⟩)
  intro n hmisread
  have hline : ChunkSizeLine (bytes "1F ;x") 31 :=
    ⟨bytes "1F", [1, 15], bytes " ;x", by decide, by decide, by decide, Or.inr (by decide), by decide⟩
  have hn : (31 : Int) = n := Eq.trans (by decide) hmisread.takenFor.1
  obtain rfl : n = 31 := by omega
  exact absurd hmisread hline.not_misread

/-- A line that begins with a space and holds no digit ends the body. -/
theorem not_sizeChecked_blank :
    evbufferReadln (bytes " x\r\n") = some (bytes " x", []) ∧
      ¬SizeChecked 100 sizeRequest (bytes " x\r\n") (bytes " x") := by
  refine ⟨by decide, fun h => ?_⟩
  obtain ⟨n, ⟨digits, ds, rest, hline, hne, hdigits, -⟩, -⟩ := h (by decide) _ _ (Or.inr rfl)
  cases hdigits with
  | nil => exact hne rfl
  | cons hc =>
    obtain ⟨rfl, -⟩ := cons.inj hline
    cases hc

end MyLibevent.Proofs
