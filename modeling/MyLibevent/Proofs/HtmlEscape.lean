import MyLibevent.HtmlEscape

/-!
# What is escaped can be unescaped
-/

namespace MyLibevent.Proofs

open List

def entities : List (UInt8 × Bytes) :=
  [(byte '<', bytes "&lt;"), (byte '>', bytes "&gt;"), (quotByte, bytes "&quot;"), (aposByte, bytes "&#039;"),
    (byte '&', bytes "&amp;")]

/-- The entities of a text are replaced, from left to right. -/
def unescape : Bytes → Bytes
  | [] => []
  | ch :: rest =>
    match entities.find? fun e => e.2.isPrefixOf (ch :: rest) with
    | some e => e.1 :: unescape (rest.drop (e.2.length - 1))
    | none => ch :: unescape rest
termination_by text => text.length
decreasing_by
  · rw [length_drop, length_cons]
    omega
  · exact Nat.lt_succ_self _

variable {ch : UInt8} {rest html : Bytes} {n : Nat}

lemma htmlReplace_cases (ch : UInt8) (escaped : Bytes) :
    (∃ e ∈ entities, e.1 = ch ∧ htmlReplace ch escaped = (e.2.length, e.2)) ∨
      (∀ e ∈ entities, e.1 ≠ ch) ∧ htmlReplace ch escaped = (1, escaped) := by
  unfold htmlReplace
  split_ifs with h h h h h
  · exact .inl ⟨(byte '<', bytes "&lt;"), by decide, h.symm, rfl⟩
  · exact .inl ⟨(byte '>', bytes "&gt;"), by decide, h.symm, rfl⟩
  · exact .inl ⟨(quotByte, bytes "&quot;"), by decide, h.symm, rfl⟩
  · exact .inl ⟨(aposByte, bytes "&#039;"), by decide, h.symm, rfl⟩
  · exact .inl ⟨(byte '&', bytes "&amp;"), by decide, h.symm, rfl⟩
  · refine .inr ⟨?_, rfl⟩
    simp only [entities, forall_mem_cons, ne_eq]
    simp_all [eq_comm]

/-- What is written for one character: its entity, or the character itself. -/
lemma writeEscaped_cons (ch : UInt8) (rest : Bytes) : ∃ chunk,
    writeEscaped (ch :: rest) = chunk ++ writeEscaped rest ∧ (htmlReplace ch []).1 = chunk.length ∧
      ((∃ e ∈ entities, e.1 = ch ∧ chunk = e.2) ∨ (∀ e ∈ entities, e.1 ≠ ch) ∧ chunk = [ch]) := by
  have hsize : (htmlReplace ch []).1 = (htmlReplace ch (ch :: rest)).1 := by
    unfold htmlReplace
    split_ifs <;> rfl
  refine ⟨(htmlReplace ch (ch :: rest)).2.take (htmlReplace ch (ch :: rest)).1, rfl, ?_⟩
  rw [hsize]
  obtain ⟨e, he, hch, heq⟩ | ⟨hne, heq⟩ := htmlReplace_cases ch (ch :: rest)
  · rw [heq, take_length]
    exact ⟨rfl, .inl ⟨e, he, hch, rfl⟩⟩
  · rw [heq]
    exact ⟨rfl, .inr ⟨hne, rfl⟩⟩

lemma escapedSize_eq (h : n ≤ evSizeMax) : escapedSize n html =
    if n + (writeEscaped html).length ≤ evSizeMax then some (n + (writeEscaped html).length) else none := by
  induction html generalizing n with
  | nil => exact (if_pos h).symm
  | cons ch rest ih =>
    obtain ⟨chunk, heq, hsize, -⟩ := writeEscaped_cons ch rest
    rw [escapedSize, heq, hsize, length_append, ← Nat.add_assoc]
    split_ifs with hfull
    · omega
    · rfl
    · rw [ih (by omega), if_pos (by assumption)]
    · rw [ih (by omega), if_neg (by assumption)]

lemma writeEscaped_clean : ∀ c ∈ writeEscaped html, c ∉ [byte '<', byte '>', quotByte, aposByte] := by
  induction html with
  | nil => exact nofun
  | cons ch rest ih =>
    have hclean : ∀ e ∈ entities, ∀ c ∈ e.2, c ∉ [byte '<', byte '>', quotByte, aposByte] := by
      decide +kernel
    obtain ⟨chunk, heq, -, hchunk⟩ := writeEscaped_cons ch rest
    rw [heq, forall_mem_append]
    refine ⟨?_, ih⟩
    obtain ⟨e, he, -, rfl⟩ | ⟨hne, rfl⟩ := hchunk
    · exact hclean e he
    · rw [forall_mem_singleton]
      simp only [entities, forall_mem_cons] at hne
      simp [hne.1.symm, hne.2.1.symm, hne.2.2.1.symm, hne.2.2.2.1.symm]

lemma writeEscaped_entity {i : Nat} (h : (writeEscaped html)[i]? = some (byte '&')) :
    ∃ e ∈ entities, e.2 <+: (writeEscaped html).drop i := by
  induction html generalizing i with
  | nil => cases h
  | cons ch rest ih =>
    obtain ⟨chunk, heq, -, hchunk⟩ := writeEscaped_cons ch rest
    rw [heq] at h ⊢
    by_cases hi : i < chunk.length
    · rw [getElem?_append_left hi] at h
      obtain ⟨e, he, -, rfl⟩ | ⟨hne, rfl⟩ := hchunk
      · have hstart : ∀ e ∈ entities, ∀ i < e.2.length, e.2[i]? = some (byte '&') → i = 0 := by decide
        rw [hstart e he i hi h]
        exact ⟨e, he, prefix_append _ _⟩
      · obtain rfl : i = 0 := by simpa using hi
        exact absurd (Option.some.inj h).symm (hne (byte '&', bytes "&amp;") (by decide))
    · rw [getElem?_append_right (Nat.not_lt.mp hi)] at h
      rw [drop_append, drop_eq_nil_of_le (Nat.not_lt.mp hi), nil_append]
      exact ih h

lemma unescape_entity {e : UInt8 × Bytes} (he : e ∈ entities) (rest : Bytes) :
    unescape (e.2 ++ rest) = e.1 :: unescape rest := by
  have hlist : entities = [(60, [38, 108, 116, 59]), (62, [38, 103, 116, 59]), (34, [38, 113, 117, 111, 116, 59]),
    (39, [38, 35, 48, 51, 57, 59]), (38, [38, 97, 109, 112, 59])] := by decide
  simp only [hlist, mem_cons, not_mem_nil, or_false] at he
  rcases he with rfl | rfl | rfl | rfl | rfl <;> simp [unescape, hlist]

lemma unescape_writeEscaped (html : Bytes) : unescape (writeEscaped html) = html := by
  induction html with
  | nil => rw [writeEscaped, unescape]
  | cons ch rest ih =>
    obtain ⟨chunk, heq, -, hchunk⟩ := writeEscaped_cons ch rest
    rw [heq]
    obtain ⟨e, he, rfl, rfl⟩ | ⟨hne, rfl⟩ := hchunk
    · rw [unescape_entity he, ih]
    · have hnone : entities.find? (fun e => e.2.isPrefixOf (ch :: writeEscaped rest)) = none := by
        have hhead : ∀ e ∈ entities, e.2.head? = some (byte '&') := by decide
        rw [find?_eq_none]
        intro e he hprefix
        obtain ⟨t, ht⟩ := isPrefixOf_iff_prefix.mp hprefix
        have hch : (e.2 ++ t).head? = some (byte '&') := by
          rw [head?_append, hhead e he]
          rfl
        rw [ht] at hch
        exact hne (byte '&', bytes "&amp;") (by decide) (Option.some.inj hch).symm
      rw [singleton_append, unescape, hnone, ih]

/-- What `evhttp_htmlescape` returns has no character that must be escaped, its ampersands start entities, it is
unescaped to the string, and it has the size that has been counted. -/
theorem evhttpHtmlescape_spec (malloc : Nat → Bool) (html : Bytes) :
    (∀ out, evhttpHtmlescape malloc html = some out →
      (∀ c ∈ out, c ∉ [byte '<', byte '>', quotByte, aposByte]) ∧
      (∀ i : Nat, out[i]? = some (byte '&') → ∃ e ∈ entities, e.2 <+: out.drop i) ∧
      unescape out = html ∧ escapedSize 0 html = some out.length) ∧
    ((writeEscaped html).length < evSizeMax → malloc ((writeEscaped html).length + 1) →
      (evhttpHtmlescape malloc html).isSome) := by
  have hsize := @escapedSize_eq html 0 (Nat.zero_le _)
  unfold evhttpHtmlescape
  rw [hsize, Nat.zero_add]
  constructor
  · intro out hout
    split_ifs at hout ⊢ with hle
    · rw [Option.bind_some] at hout
      split_ifs at hout
      obtain rfl := Option.some.inj hout
      exact ⟨writeEscaped_clean, fun i => writeEscaped_entity, unescape_writeEscaped html, rfl⟩
    · cases hout
  · intro hlt hmalloc
    rw [if_pos (Nat.le_of_lt hlt), Option.bind_some, if_neg (Nat.ne_of_lt hlt), if_pos hmalloc]
    rfl

theorem evhttpHtmlescape_spec_amp : ∃ out, evhttpHtmlescape (fun _ => true) (bytes "&lt;") = some out ∧
    unescape out = bytes "&lt;" := by
  obtain ⟨hspec, hsome⟩ := evhttpHtmlescape_spec (fun _ => true) (bytes "&lt;")
  obtain ⟨out, hout⟩ := Option.isSome_iff_exists.mp (hsome (by decide) rfl)
  exact ⟨out, hout, (hspec out hout).2.2.1⟩

end MyLibevent.Proofs
