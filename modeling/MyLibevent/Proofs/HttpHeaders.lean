import MyLibevent.HttpHeaders
import MyLibevent.Proofs.Lines

/-!
# Header blocks read back

The check on values takes a run of CR and LF as one line break; the parser ends a line at every LF, so that a
run with two of them can end the block.
-/

namespace MyLibevent.Proofs

open ListTrim List

section Lines

def splitLines : Bytes → Bytes × List Bytes
  | [] => ([], [])
  | c :: value =>
    let (first, others) := splitLines value
    if c = byte '\n' then ([], first :: others) else (c :: first, others)

def joinLines (first tail : Bytes) : List Bytes → Bytes
  | [] => first ++ tail
  | line :: others => first ++ byte '\n' :: joinLines line tail others

lemma joinLines_splitLines (value tail : Bytes) :
    joinLines (splitLines value).1 tail (splitLines value).2 = value ++ tail := by
  have hcons : ∀ c first (others : List Bytes),
      joinLines (c :: first) tail others = c :: joinLines first tail others := by
    intro c first others
    cases others <;> rfl
  induction value with
  | nil => rfl
  | cons c value ih =>
    simp only [splitLines]
    split_ifs with hc
    · rw [hc]
      simp only [joinLines, nil_append, ih, cons_append]
    · simp only [hcons, ih, cons_append]

lemma length_joinLines (first tail : Bytes) (others : List Bytes) :
    tail.length ≤ (joinLines first tail others).length := by
  induction others generalizing first with
  | nil => simp [joinLines]
  | cons line others ih =>
    have h := ih line
    simp only [joinLines, length_append, length_cons]
    omega

lemma splitLines_clean (value : Bytes) :
    ∀ line ∈ (splitLines value).1 :: (splitLines value).2, byte '\n' ∉ line ∧ line ⊆ value := by
  induction value with
  | nil => simp [splitLines]
  | cons c value ih =>
    have hwider : ∀ line ∈ (splitLines value).1 :: (splitLines value).2, byte '\n' ∉ line ∧ line ⊆ c :: value :=
      fun line hmem => ⟨(ih line hmem).1, subset_cons_of_subset c (ih line hmem).2⟩
    simp only [splitLines]
    split
    · exact forall_mem_cons.2 ⟨by simp, hwider⟩
    · rename_i hc
      obtain ⟨⟨hlf, hsub⟩, hothers⟩ := forall_mem_cons.1 hwider
      exact forall_mem_cons.2 ⟨⟨by simp [hlf, Ne.symm hc], cons_subset.2 ⟨mem_cons_self, hsub⟩⟩, hothers⟩

/-- What the parser sees of a line: the writer ends the last line with CR LF, the breaks inside
the value are its own. -/
def lineSeen (line : Bytes) (others : List Bytes) : Bytes :=
  if others = [] then line else dropCr line

def nextLines (rest : Bytes) : List Bytes → Bytes
  | [] => rest
  | line :: others => joinLines line (bytes "\r\n" ++ rest) others

lemma evbufferReadln_joinLines (start first rest : Bytes) (others : List Bytes)
    (hstart : byte '\n' ∉ start) (hcr : start.getLast? ≠ some (byte '\r'))
    (hfirst : byte '\n' ∉ first) :
    evbufferReadln (start ++ joinLines first (bytes "\r\n" ++ rest) others) =
      some (start ++ lineSeen first others, nextLines rest others) := by
  have hcrlf : bytes "\r\n" = [byte '\r', byte '\n'] := rfl
  have hne : byte '\r' ≠ byte '\n' := by decide
  cases others with
  | nil =>
    have hread := evbufferReadln_append (start ++ first ++ [byte '\r']) rest (by simp [hstart, hfirst, hne.symm])
    rw [dropCr_concat] at hread
    simpa [joinLines, nextLines, lineSeen, hcrlf] using hread
  | cons line others =>
    have hread := evbufferReadln_append (start ++ first)
      (joinLines line (bytes "\r\n" ++ rest) others) (by simp [hstart, hfirst])
    rw [dropCr_append _ _ hcr] at hread
    simpa [joinLines, nextLines, lineSeen] using hread

lemma mem_lineSeen {c : UInt8} {line : Bytes} {others : List Bytes} (h : c ∈ lineSeen line others) : c ∈ line := by
  unfold lineSeen dropCr at h
  split at h
  · exact h
  · split at h
    · exact dropLast_subset _ h
    · exact h

lemma lineSeen_cons (c : UInt8) (t : Bytes) (others : List Bytes)
    (h : c ≠ byte '\r' ∨ t ≠ []) : ∃ t', lineSeen (c :: t) others = c :: t' := by
  unfold lineSeen dropCr
  split
  · exact ⟨t, rfl⟩
  · split_ifs with hlast
    · cases t with
      | nil =>
        have hc : c = byte '\r' := by simpa using hlast
        simp [hc] at h
      | cons d t => exact ⟨(d :: t).dropLast, rfl⟩
    · exact ⟨t, rfl⟩

end Lines

section Validity

def CrlfStep (c d : UInt8) : Prop := isCrlf c → isCrlf d ∨ isBlank d

def CrlfFollowed (value : Bytes) : Prop :=
  value.IsChain CrlfStep ∧ ∀ c ∈ value.getLast?, isCrlf c = false

lemma crlfFollowed_cons (c : UInt8) (t : Bytes) :
    CrlfFollowed (c :: t) ↔ (isCrlf c → ∃ d ∈ t.head?, isCrlf d ∨ isBlank d) ∧ CrlfFollowed t := by
  unfold CrlfFollowed
  cases t with
  | nil => simp
  | cons d t => simp [CrlfStep, isChain_cons_cons, and_assoc]

lemma crlfFollowed_append_of_not (a b : Bytes) (ha : ∀ c ∈ a, isCrlf c = false) :
    CrlfFollowed (a ++ b) ↔ CrlfFollowed b := by
  induction a with
  | nil => rfl
  | cons c a ih =>
    rw [cons_append, crlfFollowed_cons, ih (fun d hd => ha d (mem_cons_of_mem _ hd))]
    simp [ha c mem_cons_self]

lemma crlfFollowed_run (c : UInt8) (r b : Bytes) (hc : isCrlf c)
    (hr : ∀ d ∈ r, isCrlf d) (hb : ∀ d ∈ b.head?, isCrlf d = false) :
    CrlfFollowed (c :: (r ++ b)) ↔ (∃ d ∈ b.head?, isBlank d) ∧ CrlfFollowed b := by
  induction r generalizing c with
  | nil =>
    rw [nil_append, crlfFollowed_cons]
    cases b with
    | nil => simp [hc]
    | cons d b =>
      have hd : isCrlf d = false := hb d (by simp)
      simp [hc, hd]
  | cons e r ih =>
    have he := hr e mem_cons_self
    rw [crlfFollowed_cons, cons_append, ih e he (fun d hd => hr d (mem_cons_of_mem _ hd))]
    simp [he]

lemma headerIsValidValue_iff (value : Bytes) : headerIsValidValue value ↔ CrlfFollowed value := by
  have hsplit : ∀ l : Bytes, ∀ f : UInt8 → Bool,
      l = l.takeWhile f ++ l.dropWhile f := fun l f => takeWhile_append_dropWhile.symm
  have hbefore : ∀ l : Bytes, ∀ c ∈ l.takeWhile (fun c => !isCrlf c), isCrlf c = false := by
    intro l c hc
    simpa using mem_takeWhile_imp hc
  fun_induction headerIsValidValue value with
  | case1 value h =>
    rw [hsplit value (fun c => !isCrlf c), crlfFollowed_append_of_not _ _ (hbefore value), h]
    simp [CrlfFollowed]
  | case2 value c p h h' =>
    have hc : isCrlf c := by simpa using head_of_dropWhile_eq_cons h
    have hrun := crlfFollowed_run c p [] hc (by simpa using h') (by simp)
    rw [hsplit value (fun c => !isCrlf c), crlfFollowed_append_of_not _ _ (hbefore value), h]
    rw [append_nil] at hrun
    simp [hrun]
  | case3 value c p h c' p' h' ih =>
    have hc : isCrlf c := by simpa using head_of_dropWhile_eq_cons h
    have hc' : isCrlf c' = false := head_of_dropWhile_eq_cons h'
    have hrun := crlfFollowed_run c (p.takeWhile isCrlf) (c' :: p') hc
      (fun d hd => mem_takeWhile_imp hd) (by simp [hc'])
    rw [hsplit value (fun c => !isCrlf c), crlfFollowed_append_of_not _ _ (hbefore value), h,
      hsplit p isCrlf, h', hrun]
    simpa using fun _ => ih

lemma headerIsValidValue_part {part value : Bytes} (h : CrlfFollowed value)
    (hpart : part <:+: value) (hlf : byte '\n' ∉ part) :
    headerIsValidValue part ↔ part.getLast? ≠ some (byte '\r') := by
  have hchain : part.IsChain CrlfStep := List.IsChain.infix h.1 hpart
  rw [headerIsValidValue_iff, CrlfFollowed]
  cases hlast : part.getLast? with
  | none => simp [hchain]
  | some c =>
    have hc : c ≠ byte '\n' := by
      intro heq
      exact hlf (heq ▸ mem_of_getLast? hlast)
    simp [hchain, isCrlf, hc]

end Validity

section Parsing

variable {hs : List HttpHeader} {n : Nat} {buffer line rest : Bytes}

lemma parseHeaders_done (hread : evbufferReadln buffer = some (line, rest))
    (hline : cstring line = []) :
    evhttpParseHeaders none ⟨hs, n, buffer⟩ = (.allDataRead, ⟨hs, n + line.length, rest⟩) := by
  rw [evhttpParseHeaders]
  split
  · rename_i h
    simp [hread] at h
  · rename_i line' rest' h
    rw [hread] at h
    cases h
    simp [hline]

def addLine (hs : List HttpHeader) (c : UInt8) (line : Bytes) : Option (List HttpHeader) :=
  if isBlank c then appendToLastHeader hs (c :: line) else parseHeaderLine hs (c :: line)

lemma parseHeaders_line {c : UInt8} {l : Bytes}
    (hread : evbufferReadln buffer = some (line, rest)) (hline : cstring line = c :: l) :
    evhttpParseHeaders none ⟨hs, n, buffer⟩ =
      match addLine hs c l with
      | none => (.dataCorrupted, ⟨hs, n + line.length, rest⟩)
      | some hs' => evhttpParseHeaders none ⟨hs', n + line.length, rest⟩ := by
  rw [evhttpParseHeaders]
  split
  · rename_i h
    simp [hread] at h
  · rename_i line' rest' h
    rw [hread] at h
    cases h
    simp only [Option.any_none, Bool.false_eq_true, if_false, hline]
    rfl

lemma parseHeaderLine_cr (line : Bytes) : parseHeaderLine hs (byte '\r' :: line) = none := by
  have hne : (byte '\r' != byte ':') := by decide
  simp only [parseHeaderLine, strsep, dropWhile_cons, takeWhile_cons, hne, if_true]
  cases line.dropWhile (fun c => c != byte ':') with
  | nil => rfl
  | cons d l => simp [evhttpAddHeader]

def contTail : List Bytes → Bytes
  | [] => []
  | line :: others =>
    byte ' ' :: rtrimLws (ltrimLws (lineSeen line others)) ++ contTail others

def StartsBlank (line : Bytes) : Prop := ∃ c ∈ line.head?, isBlank c

lemma parseHeaders_continuation (line : Bytes) (others : List Bytes)
    (key value rest : Bytes) (n : Nat) (hblank : StartsBlank line) (hlf : byte '\n' ∉ line)
    (hnul : 0 ∉ line) :
    evhttpParseHeaders none ⟨hs ++ [(key, value)], n, nextLines rest (line :: others)⟩ =
      evhttpParseHeaders none
        ⟨hs ++ [(key, value ++ byte ' ' :: rtrimLws (ltrimLws (lineSeen line others)))],
          n + (lineSeen line others).length, nextLines rest others⟩ := by
  obtain ⟨c, hc, hcb⟩ := hblank
  obtain ⟨t, rfl⟩ : ∃ t, line = c :: t := by
    cases line with
    | nil => simp at hc
    | cons d t => exact ⟨t, by simpa using hc⟩
  have hcr : c ≠ byte '\r' := by
    intro heq
    rw [heq] at hcb
    exact absurd hcb (by decide)
  obtain ⟨t', ht'⟩ := lineSeen_cons c t others (Or.inl hcr)
  have hread := evbufferReadln_joinLines [] (c :: t) rest others (by simp) (by simp) hlf
  have hseen : cstring (lineSeen (c :: t) others) = c :: t' := by
    rw [cstring_eq_self (fun h => hnul (mem_lineSeen h)), ht']
  rw [nil_append, nil_append] at hread
  rw [nextLines, parseHeaders_line hread hseen, addLine, if_pos hcb, ht']
  simp [appendToLastHeader]

def Derailed (rest : Bytes) (r : MessageReadStatus × HeaderParse) : Prop :=
  r.1 ≠ .allDataRead ∨ rest.length < r.2.buffer.length

/-- The parser goes on with the headers `hs` at `rest` if `ok` holds, and goes wrong otherwise. -/
structure ReadsOn (ok : Prop) (hs : List HttpHeader) (rest : Bytes)
    (r : MessageReadStatus × HeaderParse) : Prop where
  read : ok → ∃ n, r = evhttpParseHeaders none ⟨hs, n, rest⟩
  lost : ¬ok → Derailed rest r

lemma crlfFollowed_suffix (a b : Bytes) (h : CrlfFollowed (a ++ b)) : CrlfFollowed b := by
  induction a with
  | nil => exact h
  | cons c a ih =>
    rw [cons_append, crlfFollowed_cons] at h
    exact ih h.2

lemma length_nextLines (rest line : Bytes) (others : List Bytes) :
    rest.length < (nextLines rest (line :: others)).length := by
  have h := length_joinLines line (bytes "\r\n" ++ rest) others
  have hcrlf : (bytes "\r\n").length = 2 := rfl
  rw [length_append, hcrlf] at h
  rw [nextLines]
  omega

/-- The first line of a value after which the parser goes wrong: it is empty up to a CR, and
ends the block, or it starts with CR and is no header. -/
lemma parseHeaders_derailed_line (line : Bytes) (others : List Bytes)
    (rest : Bytes) (hfollowed : CrlfFollowed (byte '\n' :: joinLines line [] others))
    (hblank : ¬StartsBlank line) (hlf : byte '\n' ∉ line) (hnul : 0 ∉ line) :
    Derailed rest (evhttpParseHeaders none ⟨hs, n, nextLines rest (line :: others)⟩) := by
  have hread := evbufferReadln_joinLines [] line rest others (by simp) (by simp) hlf
  rw [nil_append, nil_append] at hread
  have hseen : cstring (lineSeen line others) = lineSeen line others :=
    cstring_eq_self (fun h => hnul (mem_lineSeen h))
  rw [crlfFollowed_cons] at hfollowed
  obtain ⟨hhead, hvalue⟩ := hfollowed
  obtain ⟨d, hd, hdstep⟩ := hhead (by decide)
  by_cases hempty : lineSeen line others = []
  · rw [nextLines, parseHeaders_done hread (by rw [hseen, hempty])]
    cases others with
    | nil =>
      have hline : line = [] := by simpa [lineSeen] using hempty
      simp [hline, joinLines] at hd
    | cons line' others => exact Or.inr (length_nextLines rest line' others)
  · obtain ⟨t, ht⟩ : ∃ t, line = byte '\r' :: t := by
      cases line with
      | nil => simp [lineSeen, dropCr] at hempty
      | cons c t =>
        have hdc : d = c := by
          cases others <;> simpa [joinLines, eq_comm] using hd
        subst hdc
        have hnb : isBlank d = false := by
          cases hb : isBlank d with
          | false => rfl
          | true => exact absurd ⟨d, by simp, hb⟩ hblank
        have hcr : d = byte '\r' := by
          have hne : d ≠ byte '\n' := fun heq => hlf (heq ▸ mem_cons_self)
          simpa [hnb, isCrlf, hne] using hdstep
        exact ⟨t, by rw [hcr]⟩
    subst ht
    have htail : t ≠ [] ∨ others = [] := by
      by_contra hcon
      rw [not_or] at hcon
      apply hempty
      simp [lineSeen, hcon.2, not_not.1 hcon.1, dropCr]
    obtain ⟨t', ht'⟩ : ∃ t', lineSeen (byte '\r' :: t) others = byte '\r' :: t' := by
      rcases htail with htail | hothers
      · exact lineSeen_cons _ t others (Or.inr htail)
      · exact ⟨t, by simp [lineSeen, hothers]⟩
    rw [nextLines, parseHeaders_line hread (by rw [hseen, ht']), addLine, if_neg (by decide), parseHeaderLine_cr]
    exact Or.inl (by simp)

variable (hs) in
lemma parseHeaders_lines (others : List Bytes) (first key value rest : Bytes)
    (n : Nat) (hfollowed : CrlfFollowed (joinLines first [] others))
    (hclean : ∀ line ∈ others, byte '\n' ∉ line ∧ 0 ∉ line) :
    ReadsOn (∀ line ∈ others, StartsBlank line) (hs ++ [(key, value ++ contTail others)]) rest
      (evhttpParseHeaders none ⟨hs ++ [(key, value)], n, nextLines rest others⟩) := by
  induction others generalizing first value n with
  | nil => exact ⟨fun _ => ⟨n, by simp [nextLines, contTail]⟩, by simp⟩
  | cons line others ih =>
    obtain ⟨⟨hlf, hnul⟩, hclean⟩ := forall_mem_cons.1 hclean
    have hnext := crlfFollowed_suffix _ _ hfollowed
    by_cases hb : StartsBlank line
    · have hrest := ih line (value ++ byte ' ' :: rtrimLws (ltrimLws (lineSeen line others)))
        (n + (lineSeen line others).length) (crlfFollowed_suffix [byte '\n'] _ hnext) hclean
      rw [parseHeaders_continuation line others key value rest n hb hlf hnul]
      simpa [hb, contTail] using hrest
    · exact ⟨fun hall => absurd (hall line mem_cons_self) hb,
        fun _ => parseHeaders_derailed_line line others rest hnext hb hlf hnul⟩

structure PlainKey (key : Bytes) : Prop where
  nonempty : key ≠ []
  colon : byte ':' ∉ key
  blank : ¬StartsBlank key
  cr : byte '\r' ∉ key
  lf : byte '\n' ∉ key
  nul : 0 ∉ key

variable (hs) in
lemma parseHeaders_first (key first rest : Bytes) (others : List Bytes) (n : Nat)
    (hkey : PlainKey key) (hlf : byte '\n' ∉ first) (hnul : 0 ∉ first) :
    ∃ n', evhttpParseHeaders none
        ⟨hs, n, key ++ bytes ": " ++ joinLines first (bytes "\r\n" ++ rest) others⟩ =
      match evhttpAddHeader hs key (rtrimLws ((lineSeen first others).dropWhile (· == byte ' '))) with
      | none => (.dataCorrupted, ⟨hs, n', nextLines rest others⟩)
      | some hs' => evhttpParseHeaders none ⟨hs', n', nextLines rest others⟩ := by
  have hsep : bytes ": " = [byte ':', byte ' '] := rfl
  have hread := evbufferReadln_joinLines (key ++ bytes ": ") first rest others
    (by rw [hsep]; simp [hkey.lf]; decide) (by rw [hsep]; simp; decide) hlf
  obtain ⟨c, t, rfl⟩ : ∃ c t, key = c :: t := exists_cons_of_ne_nil hkey.nonempty
  have hnuls : 0 ∉ (c :: t) ++ bytes ": " ++ lineSeen first others := by
    rw [hsep]
    have h1 := hkey.nul
    have h2 : 0 ∉ lineSeen first others := fun h => hnul (mem_lineSeen h)
    simp only [mem_append, mem_cons, not_mem_nil, or_false, not_or] at h1 ⊢
    exact ⟨⟨h1, by decide, by decide⟩, h2⟩
  have hcb : ¬isBlank c := by
    intro hb
    exact hkey.blank ⟨c, by simp, hb⟩
  have hcolon := strsep_append hkey.colon (byte ' ' :: lineSeen first others)
  refine ⟨n + ((c :: t) ++ bytes ": " ++ lineSeen first others).length, ?_⟩
  have hadd : parseHeaderLine hs ((c :: t) ++ bytes ": " ++ lineSeen first others) =
      evhttpAddHeader hs (c :: t) (rtrimLws ((lineSeen first others).dropWhile (· == byte ' '))) := by
    have hline : (c :: t) ++ bytes ": " ++ lineSeen first others =
        (c :: t) ++ byte ':' :: byte ' ' :: lineSeen first others := by
      simp [hsep]
    rw [hline, parseHeaderLine, hcolon]
    simp
  rw [parseHeaders_line hread (cstring_eq_self hnuls), addLine, if_neg hcb, ← hadd]
  rfl

end Parsing

section Blocks

variable {hs : List HttpHeader} {n : Nat} {header : HttpHeader}
variable (value : Bytes)

def firstLine : Bytes :=
  lineSeen (splitLines value).1 (splitLines value).2

def parsedValue : Bytes :=
  rtrimLws ((firstLine value).dropWhile (· == byte ' ')) ++ contTail (splitLines value).2

/-- The values that survive: every LF is followed by a blank, and the first line, without its
line break and the blanks at its end, does not end in CR. -/
def SafeValue : Prop :=
  (∀ line ∈ (splitLines value).2, StartsBlank line) ∧ (rtrimLws (firstLine value)).getLast? ≠ some (byte '\r')

/-- A header that `evhttp_add_header` accepts, with a key that is not empty, has no colon and does not
start with a blank. -/
structure AcceptedHeader (header : HttpHeader) : Prop where
  accepted : (evhttpAddHeader [] header.1 header.2).isSome
  nonempty : header.1 ≠ []
  colon : byte ':' ∉ header.1
  blank : ¬StartsBlank header.1
  nul : 0 ∉ header.1 ∧ 0 ∉ header.2

lemma AcceptedHeader.plainKey (h : AcceptedHeader header) : PlainKey header.1 := by
  have hadd := h.accepted
  unfold evhttpAddHeader at hadd
  split at hadd
  · simp at hadd
  · rename_i hkey
    rw [not_or] at hkey
    exact ⟨h.nonempty, h.colon, h.blank, hkey.1, hkey.2, h.nul.1⟩

lemma AcceptedHeader.followed (h : AcceptedHeader header) : CrlfFollowed header.2 := by
  rw [← headerIsValidValue_iff]
  have hadd := h.accepted
  unfold evhttpAddHeader at hadd
  split at hadd
  · simp at hadd
  · split at hadd
    · simp at hadd
    · rename_i hvalid
      simpa using hvalid

lemma firstLine_isPrefix : firstLine value <+: value := by
  have hfirst : (splitLines value).1 <+: value := by
    have hjoin := joinLines_splitLines value []
    rw [append_nil] at hjoin
    generalize splitLines value = lines at hjoin ⊢
    rw [← hjoin]
    cases lines.2 <;> simp [joinLines]
  apply List.IsPrefix.trans _ hfirst
  unfold firstLine lineSeen dropCr
  split
  · exact prefix_rfl
  · split
    · exact dropLast_prefix _
    · exact prefix_rfl

lemma getLast?_dropWhile_space (l : Bytes) :
    (l.dropWhile (· == byte ' ')).getLast? = some (byte '\r') ↔ l.getLast? = some (byte '\r') := by
  induction l with
  | nil => rfl
  | cons c t ih =>
    cases hc : (c == byte ' ') with
    | false => rw [dropWhile_cons_of_neg (by simp [hc])]
    | true =>
      rw [dropWhile_cons, if_pos hc, ih, getLast?_cons]
      cases t with
      | nil =>
        rw [beq_iff_eq] at hc
        rw [hc]
        decide
      | cons d t => simp [getLast?_cons]

lemma first_valid_iff (h : AcceptedHeader header) :
    headerIsValidValue (rtrimLws ((firstLine header.2).dropWhile (· == byte ' '))) ↔
      (rtrimLws (firstLine header.2)).getLast? ≠ some (byte '\r') := by
  have hsub : rtrimLws ((firstLine header.2).dropWhile (· == byte ' ')) <:+: header.2 :=
    ( rdropWhile_prefix isBlank _).isInfix.trans
      ((dropWhile_suffix _).isInfix.trans (firstLine_isPrefix header.2).isInfix)
  have hlf : byte '\n' ∉ rtrimLws ((firstLine header.2).dropWhile (· == byte ' ')) := by
    intro hmem
    have hline := (dropWhile_suffix _).subset (( rdropWhile_prefix isBlank _).subset hmem)
    exact (splitLines_clean header.2 _ mem_cons_self).1 (mem_lineSeen hline)
  rw [headerIsValidValue_part h.followed hsub hlf, not_iff_not]
  unfold rtrimLws
  rw [rdropWhile_dropWhile_comm]
  exact getLast?_dropWhile_space _

lemma parseHeaders_header_text (header : HttpHeader) (rest : Bytes) :
    header.1 ++ bytes ": " ++ header.2 ++ bytes "\r\n" ++ rest = header.1 ++ bytes ": " ++
      joinLines (splitLines header.2).1 (bytes "\r\n" ++ rest) (splitLines header.2).2 := by
  rw [joinLines_splitLines]
  simp

lemma AcceptedHeader.lines_clean (h : AcceptedHeader header) :
    ∀ line ∈ (splitLines header.2).1 :: (splitLines header.2).2, byte '\n' ∉ line ∧ 0 ∉ line := by
  intro line hline
  obtain ⟨hlf, hsub⟩ := splitLines_clean header.2 line hline
  exact ⟨hlf, fun h0 => h.nul.2 (hsub h0)⟩

lemma evhttpAddHeader_eq {key value : Bytes} (hkey : PlainKey key) :
    evhttpAddHeader hs key value = if headerIsValidValue value then some (hs ++ [(key, value)]) else none := by
  unfold evhttpAddHeader
  rw [if_neg (by simp [hkey.cr, hkey.lf])]
  cases headerIsValidValue value <;> rfl

variable (hs n) in
lemma parseHeaders_header (h : AcceptedHeader header) (rest : Bytes) :
    ReadsOn (SafeValue header.2) (hs ++ [(header.1, parsedValue header.2)]) rest
      (evhttpParseHeaders none ⟨hs, n, header.1 ++ bytes ": " ++ header.2 ++ bytes "\r\n" ++ rest⟩) := by
  obtain ⟨⟨hlf, hnul⟩, hclean⟩ := forall_mem_cons.1 h.lines_clean
  obtain ⟨n1, hfirst⟩ := parseHeaders_first hs header.1 (splitLines header.2).1 rest
    (splitLines header.2).2 n h.plainKey hlf hnul
  have hvalid := first_valid_iff h
  have hjoin := joinLines_splitLines header.2 []
  rw [append_nil] at hjoin
  rw [parseHeaders_header_text, hfirst, evhttpAddHeader_eq h.plainKey]
  unfold firstLine at hvalid
  have hlines (value : Bytes) := parseHeaders_lines hs (splitLines header.2).2
    (splitLines header.2).1 header.1 value rest n1 (by rw [hjoin]; exact h.followed) hclean
  split_ifs with hv
  · exact ⟨fun hsafe => (hlines _).read hsafe.1, fun hsafe => (hlines _).lost fun hall => hsafe ⟨hall, hvalid.1 hv⟩⟩
  · exact ⟨fun hsafe => absurd (hvalid.2 hsafe.2) hv, fun _ => .inl (by simp)⟩

/-- The line of a header is one that `evbuffer_add_printf` adds. -/
def LineFits (header : HttpHeader) : Prop := header.1.length + header.2.length + 4 < 2 ^ 31 - 1

instance : DecidablePred LineFits := fun _ => Nat.decLt _ _

lemma evbufferAddPrintf_header (header : HttpHeader) :
    evbufferAddPrintf (header.1 ++ bytes ": " ++ header.2 ++ bytes "\r\n") =
      if LineFits header then header.1 ++ bytes ": " ++ header.2 ++ bytes "\r\n" else [] := by
  have hlen : (header.1 ++ bytes ": " ++ header.2 ++ bytes "\r\n").length =
      header.1.length + header.2.length + 4 := by
    have hcolon : (bytes ": ").length = 2 := rfl
    have hcrlf : (bytes "\r\n").length = 2 := rfl
    simp only [length_append, hcolon, hcrlf]
    omega
  unfold evbufferAddPrintf LineFits
  rw [hlen]

lemma makeHeaderBlock_filter (headers : List HttpHeader) :
    makeHeaderBlock (headers.filter (LineFits ·)) = makeHeaderBlock headers := by
  induction headers with
  | nil => rfl
  | cons header headers ih =>
    simp only [makeHeaderBlock, evbufferAddPrintf_header] at ih ⊢
    by_cases hfit : LineFits header <;> simp_all

lemma makeHeaderBlock_cons (hfit : LineFits header) (headers : List HttpHeader) (body : Bytes) :
    makeHeaderBlock (header :: headers) ++ body =
      header.1 ++ bytes ": " ++ header.2 ++ bytes "\r\n" ++ (makeHeaderBlock headers ++ body) := by
  have hline := evbufferAddPrintf_header header
  rw [if_pos hfit] at hline
  unfold makeHeaderBlock
  rw [flatMap_cons, hline]
  simp only [append_assoc]

variable (hs n) in
lemma parseHeaders_block (headers : List HttpHeader) (body : Bytes)
    (hacc : ∀ header ∈ headers, AcceptedHeader header ∧ LineFits header) :
    ReadsOn (∀ header ∈ headers, SafeValue header.2)
      (hs ++ headers.map fun header => (header.1, parsedValue header.2)) (bytes "\r\n" ++ body)
      (evhttpParseHeaders none ⟨hs, n, makeHeaderBlock headers ++ body⟩) := by
  induction headers generalizing hs n with
  | nil => exact ⟨fun _ => ⟨n, by simp [makeHeaderBlock]⟩, by simp⟩
  | cons header headers ih =>
    obtain ⟨hhead, hacc⟩ := forall_mem_cons.1 hacc
    have hone := parseHeaders_header hs n hhead.1 (makeHeaderBlock headers ++ body)
    rw [makeHeaderBlock_cons hhead.2]
    by_cases hsafe : SafeValue header.2
    · obtain ⟨n1, hfirst⟩ := hone.read hsafe
      rw [hfirst]
      simpa [hsafe] using ih (hs ++ [(header.1, parsedValue header.2)]) n1 hacc
    · refine ⟨fun h => absurd (h header mem_cons_self) hsafe, fun _ => ?_⟩
      have hlen : (bytes "\r\n" ++ body).length ≤ (makeHeaderBlock headers ++ body).length := by
        simp [makeHeaderBlock]
      exact (hone.lost hsafe).imp_right hlen.trans_lt

end Blocks

section RoundTrip

/-- The value with every line break inside it, with the blanks around the break, replaced by one
space, for the lines after the first. -/
def unfoldTail : List Bytes → Bytes
  | [] => []
  | [line] => byte ' ' :: ltrimLws line
  | line :: others => byte ' ' :: rtrimLws (ltrimLws (dropCr line)) ++ unfoldTail others

variable (value : Bytes)

def unfolded : Bytes :=
  match splitLines value with
  | (first, []) => first
  | (first, others) => rtrimLws (dropCr first) ++ unfoldTail others

/-- Written by `evhttp_make_header` and parsed back, the headers have the same keys in the same
order and values related by `R`, and the parser stops at the first byte of the body. -/
def RoundTrips (R : Bytes → Bytes → Prop) (headers : List HttpHeader) (body : Bytes) : Prop :=
  ∃ r, evhttpParseHeaders none ⟨[], 0, makeHeaderBlock headers ++ body⟩ = (.allDataRead, r) ∧
    r.buffer = body ∧
    List.Forall₂ (fun header parsed => parsed.1 = header.1 ∧ R header.2 parsed.2) headers r.inputHeaders

def SameUnfolded (value parsed : Bytes) : Prop :=
  rtrimLws (ltrimLws (unfolded value)) = rtrimLws (ltrimLws parsed)

/-- The outer ends of a value are not blank, so that trimming them changes nothing: the first line
does not start with a space and the last line does not end in a blank. -/
def Tidy : Prop :=
  match splitLines value with
  | (first, []) => first.head? ≠ some (byte ' ') ∧ ∀ c ∈ first.getLast?, isBlank c = false
  | (first, line :: others) =>
    (rtrimLws (dropCr first)).head? ≠ some (byte ' ') ∧
      ∀ c ∈ (ltrimLws ((line :: others).getLast (by simp))).getLast?, isBlank c = false

lemma roundTrips_iff (R : Bytes → Bytes → Prop) (headers : List HttpHeader)
    (body : Bytes) (hacc : ∀ header ∈ headers, AcceptedHeader header) :
    RoundTrips R headers body ↔
      ∀ header ∈ headers, LineFits header ∧ SafeValue header.2 ∧ R header.2 (parsedValue header.2) := by
  have hparsed : List.Forall₂ (fun header parsed => parsed.1 = header.1 ∧ R header.2 parsed.2)
      headers (headers.map fun header => (header.1, parsedValue header.2)) ↔
      ∀ header ∈ headers, R header.2 (parsedValue header.2) := by
    rw [List.forall₂_map_right_iff, List.forall₂_same]
    simp
  -- what is written is the block of the headers whose line fits
  let kept := headers.filter (LineFits ·)
  have hkept : ∀ header ∈ kept, header ∈ headers ∧ LineFits header := by simp [kept]
  have hblock := parseHeaders_block [] 0 kept body
    fun header hmem => ⟨hacc header (hkept header hmem).1, (hkept header hmem).2⟩
  rw [makeHeaderBlock_filter] at hblock
  have hend : evbufferReadln (bytes "\r\n" ++ body) = some ([], body) :=
    evbufferReadln_append [byte '\r'] body (by decide)
  have hread : (∀ header ∈ kept, SafeValue header.2) → ∃ n,
      evhttpParseHeaders none ⟨[], 0, makeHeaderBlock headers ++ body⟩ = (.allDataRead,
        ⟨kept.map fun header => (header.1, parsedValue header.2), n, body⟩) := by
    intro hsafe
    obtain ⟨n, hn⟩ := hblock.read hsafe
    exact ⟨_, by rw [hn, parseHeaders_done hend rfl]; rfl⟩
  constructor
  · rintro ⟨r, hr, hbuffer, hsame⟩
    have hsafe : ∀ header ∈ kept, SafeValue header.2 := by
      by_contra hunsafe
      have hderailed := hblock.lost hunsafe
      rw [hr] at hderailed
      cases hderailed with
      | inl hstatus => exact hstatus rfl
      | inr hlen =>
        rw [hbuffer, length_append] at hlen
        omega
    obtain ⟨n, hall⟩ := hread hsafe
    rw [hall] at hr
    cases hr
    have hlen := hsame.length_eq
    rw [length_map] at hlen
    have hsame_kept : kept = headers := filter_sublist.eq_of_length hlen.symm
    rw [hsame_kept] at hsafe hkept hsame
    intro header hmem
    exact ⟨(hkept header hmem).2, hsafe header hmem, hparsed.1 hsame header hmem⟩
  · intro h
    have hsame_kept : kept = headers := filter_eq_self.2 fun header hmem => by simpa using (h header hmem).1
    rw [hsame_kept] at hread
    obtain ⟨n, hall⟩ := hread (fun header hmem => (h header hmem).2.1)
    exact ⟨_, hall, rfl, hparsed.2 fun header hmem => (h header hmem).2.2⟩

lemma contTail_cons_cons (line line' : Bytes) (others : List Bytes) :
    contTail (line :: line' :: others) =
      byte ' ' :: rtrimLws (ltrimLws (dropCr line)) ++ contTail (line' :: others) := by
  simp [contTail, lineSeen]

lemma rtrimLws_append_contTail (start : Bytes) (others : List Bytes) :
    rtrimLws (start ++ contTail others) = rtrimLws (start ++ unfoldTail others) := by
  induction others generalizing start with
  | nil => rfl
  | cons line others ih =>
    cases others with
    | nil =>
      have h := rdropWhile_append_rdropWhile isBlank (start ++ [byte ' ']) (ltrimLws line)
      simpa [contTail, unfoldTail, lineSeen, rtrimLws] using h
    | cons line' others =>
      have h := ih (start ++ byte ' ' :: rtrimLws (ltrimLws (dropCr line)))
      rw [contTail_cons_cons]
      simpa [unfoldTail] using h

lemma length_rtrimLws_le (l : Bytes) : (rtrimLws l).length ≤ l.length :=
  ( rdropWhile_prefix isBlank l).length_le

lemma rtrimLws_eq_self_iff (l : Bytes) : rtrimLws l = l ↔ ∀ c ∈ l.getLast?, isBlank c = false := by
  unfold rtrimLws
  rw [rdropWhile_eq_self_iff]
  cases l using List.reverseRecOn with
  | nil => simp
  | append_singleton l c => simp

lemma contTail_eq_unfoldTail_iff (line : Bytes) (others : List Bytes) :
    (contTail (line :: others)).length ≤ (unfoldTail (line :: others)).length ∧
    (contTail (line :: others) = unfoldTail (line :: others) ↔
      ∀ c ∈ (ltrimLws ((line :: others).getLast (by simp))).getLast?, isBlank c = false) := by
  induction others generalizing line with
  | nil =>
    have hlen := length_rtrimLws_le (ltrimLws line)
    have hcont : contTail [line] = byte ' ' :: rtrimLws (ltrimLws line) := by
      simp [contTail, lineSeen]
    rw [getLast_singleton, ← rtrimLws_eq_self_iff, hcont, unfoldTail, length_cons, length_cons, cons_inj_right]
    exact ⟨by omega, Iff.rfl⟩
  | cons line' others ih =>
    obtain ⟨hlen, hiff⟩ := ih line'
    have hunfold : unfoldTail (line :: line' :: others) =
        byte ' ' :: rtrimLws (ltrimLws (dropCr line)) ++ unfoldTail (line' :: others) := rfl
    rw [contTail_cons_cons, hunfold, append_right_inj, hiff, length_append, length_append]
    exact ⟨by omega, by rw [getLast_cons_cons]⟩

lemma parsedValue_eq :
    parsedValue value = (rtrimLws (firstLine value)).dropWhile (· == byte ' ') ++
      contTail (splitLines value).2 := by
  unfold parsedValue rtrimLws
  rw [rdropWhile_dropWhile_comm]

lemma dropWhile_space_eq_self_iff (l : Bytes) : l.dropWhile (· == byte ' ') = l ↔ l.head? ≠ some (byte ' ') := by
  rw [dropWhile_eq_self_iff]
  cases l <;> simp

lemma space_blank (c : UInt8) (h : (c == byte ' ')) : isBlank c := by
  simp [isBlank, h]

lemma sameUnfolded_parsedValue : SameUnfolded value (parsedValue value) := by
  have hcomm : ∀ l, rtrimLws (ltrimLws l) = ltrimLws (rtrimLws l) :=
    fun l => rdropWhile_dropWhile_comm _ _ l
  have hskip : ∀ a b : Bytes, ltrimLws (a.dropWhile (· == byte ' ') ++ b) = ltrimLws (a ++ b) :=
    fun a b => dropWhile_dropWhile_append _ _ space_blank a b
  unfold SameUnfolded
  rw [parsedValue_eq, hskip, hcomm, hcomm, rtrimLws_append_contTail]
  unfold unfolded firstLine
  cases hlines : (splitLines value) with
  | mk first others =>
    cases others with
    | nil => simp [lineSeen, unfoldTail, rtrimLws, rdropWhile_idempotent]
    | cons line others => simp [lineSeen]

lemma unfolded_eq_parsedValue_iff : unfolded value = parsedValue value ↔ Tidy value := by
  rw [parsedValue_eq]
  unfold unfolded Tidy firstLine
  cases hlines : (splitLines value) with
  | mk first others =>
    cases others with
    | nil =>
      simp only [lineSeen, if_true, contTail, append_nil]
      rw [← dropWhile_space_eq_self_iff, ← rtrimLws_eq_self_iff]
      constructor
      · intro h
        have hle := length_dropWhile_le (fun c => c == byte ' ') (rtrimLws first)
        have htrim : rtrimLws first = first := by
          apply ( rdropWhile_prefix isBlank first).eq_of_length_le
          rw [← h] at hle
          exact hle
        rw [htrim] at h
        exact ⟨h.symm, htrim⟩
      · intro h
        rw [h.2, h.1]
    | cons line others =>
      obtain ⟨hlen, hiff⟩ := contTail_eq_unfoldTail_iff line others
      simp only [lineSeen, reduceCtorEq, if_false]
      rw [← dropWhile_space_eq_self_iff, ← hiff]
      constructor
      · intro h
        have hle := length_dropWhile_le (fun c => c == byte ' ') (rtrimLws (dropCr first))
        have htotal := congrArg List.length h
        simp only [length_append] at htotal
        obtain ⟨hfirst, hrest⟩ := append_inj h (by omega)
        exact ⟨hfirst.symm, hrest.symm⟩
      · intro h
        rw [h.1, h.2]

/-- Accepted headers survive exactly if every line fits and every value is safe. With values
compared by folding alone, the blanks that the parser trims from the ends of a value must not be
there either. -/
theorem header_block_round_trips_iff (headers : List HttpHeader) (body : Bytes)
    (hacc : ∀ header ∈ headers, AcceptedHeader header) :
    (RoundTrips SameUnfolded headers body ↔ ∀ header ∈ headers, LineFits header ∧ SafeValue header.2) ∧
    (RoundTrips (fun value parsed => unfolded value = parsed) headers body ↔
      ∀ header ∈ headers, LineFits header ∧ SafeValue header.2 ∧ Tidy header.2) := by
  rw [roundTrips_iff SameUnfolded headers body hacc, roundTrips_iff _ headers body hacc]
  simp only [sameUnfolded_parsedValue, unfolded_eq_parsedValue_iff, and_true]

instance : DecidableRel CrlfStep := fun _ _ => inferInstanceAs (Decidable (_ → _ ∨ _))

instance (value : Bytes) : Decidable (CrlfFollowed value) := by
  unfold CrlfFollowed
  infer_instance

instance (line : Bytes) : Decidable (StartsBlank line) := by
  unfold StartsBlank
  infer_instance

instance (value : Bytes) : Decidable (SafeValue value) := by
  unfold SafeValue
  infer_instance

lemma acceptedHeader_of (header : HttpHeader) (hkey : PlainKey header.1)
    (hvalue : CrlfFollowed header.2) (hnul : 0 ∉ header.2) : AcceptedHeader header := by
  rw [← headerIsValidValue_iff] at hvalue
  refine ⟨?_, hkey.nonempty, hkey.colon, hkey.blank, hkey.nul, hnul⟩
  rw [evhttpAddHeader_eq hkey, if_pos hvalue]
  rfl

/-- A folded header, with body bytes after the block. -/
theorem folded_header_round_trips : RoundTrips SameUnfolded [(bytes "A", bytes "x\r\n\ty")] [1, 2] := by
  have hkey : PlainKey (bytes "A") := by constructor <;> decide
  apply (header_block_round_trips_iff _ _ _).1.2
  · intro header hmem
    rw [mem_singleton.1 hmem]
    decide
  · intro header hmem
    rw [mem_singleton.1 hmem]
    exact acceptedHeader_of _ hkey (by decide +kernel) (by decide)

/-- Two line feeds and a blank are accepted as one line break, but the second one ends the block:
the rest of the value becomes the start of the body. -/
theorem splitting_header_ends_block :
    AcceptedHeader (bytes "A", bytes "x\n\n y") ∧
    evhttpParseHeaders none ⟨[], 0, makeHeaderBlock [(bytes "A", bytes "x\n\n y")] ++ [7]⟩ =
      (.allDataRead, ⟨[(bytes "A", bytes "x")], 4, bytes " y\r\n\r\n" ++ [7]⟩) ∧
    ¬RoundTrips SameUnfolded [(bytes "A", bytes "x\n\n y")] [7] := by
  have hkey : PlainKey (bytes "A") := by constructor <;> decide
  have hacc : AcceptedHeader (bytes "A", bytes "x\n\n y") :=
    acceptedHeader_of _ hkey (by decide +kernel) (by decide)
  have hparse : evhttpParseHeaders none
      ⟨[], 0, makeHeaderBlock [(bytes "A", bytes "x\n\n y")] ++ [7]⟩ =
      (.allDataRead, ⟨[(bytes "A", bytes "x")], 4, bytes " y\r\n\r\n" ++ [7]⟩) := by
    have hx : headerIsValidValue (bytes "x") := by
      rw [headerIsValidValue_iff]
      decide +kernel
    have hline : parseHeaderLine [] (bytes "A: x") = evhttpAddHeader [] (bytes "A") (bytes "x") :=
      rfl
    have hadd : addLine [] (byte 'A') (bytes ": x") = some [(bytes "A", bytes "x")] := by
      rw [addLine, if_neg (by decide)]
      rw [evhttpAddHeader_eq hkey, if_pos hx] at hline
      exact hline
    have hempty : evbufferReadln (bytes "\n y\r\n\r\n" ++ [7]) = some ([], bytes " y\r\n\r\n" ++ [7]) := rfl
    rw [parseHeaders_line (l := bytes ": x") (c := byte 'A') rfl rfl, hadd]
    exact parseHeaders_done hempty rfl
  refine ⟨hacc, hparse, ?_⟩
  rw [roundTrips_iff]
  · intro h
    exact absurd (h _ (mem_singleton_self _)).2.1 (by decide)
  · intro header hmem
    rw [mem_singleton.1 hmem]
    exact hacc

end RoundTrip

end MyLibevent.Proofs
