import MyLibevent.Lines
import MyLibevent.Lib.Trim

/-!
# Lines and C strings

What the string functions do at the character they look for.
-/

namespace MyLibevent.Proofs

open ListTrim List

section Bytes

lemma forall_byte {P : UInt8 → Prop} (h : ∀ n : Fin 256, P (UInt8.ofNat n)) (c : UInt8) : P c := by
  have hc := h ⟨c.toNat, c.toNat_lt⟩
  rwa [UInt8.ofNat_toNat] at hc

lemma cstring_eq_self {line : Bytes} (h : 0 ∉ line) : cstring line = line := by
  unfold cstring
  rw [takeWhile_eq_self_iff]
  intro c hc
  rw [bne_iff_ne]
  intro heq
  exact h (heq ▸ hc)

lemma all_ne_of_notMem {c : UInt8} {s : Bytes} (h : c ∉ s) : ∀ d ∈ s, (d != c) := by
  intro d hd
  rw [bne_iff_ne]
  intro heq
  exact h (heq ▸ hd)

end Bytes

section Lines

lemma dropCr_concat (line : Bytes) : dropCr (line ++ [byte '\r']) = line := by
  simp [dropCr]

lemma dropCr_append (a b : Bytes) (ha : a.getLast? ≠ some (byte '\r')) : dropCr (a ++ b) = a ++ dropCr b := by
  unfold dropCr
  cases hb : b.getLast? with
  | none =>
    rw [getLast?_eq_none_iff] at hb
    subst hb
    simp [ha]
  | some c =>
    have hne : b ≠ [] := by
      intro h
      simp [h] at hb
    rw [getLast?_append, hb, Option.some_or]
    split
    · exact dropLast_append_of_ne_nil hne
    · rfl

lemma evbufferReadln_append (line rest : Bytes) (h : byte '\n' ∉ line) :
    evbufferReadln (line ++ byte '\n' :: rest) = some (dropCr line, rest) := by
  have hall : ∀ c ∈ line, (c != byte '\n') := by
    intro c hc
    rw [bne_iff_ne]
    intro heq
    exact h (heq ▸ hc)
  unfold evbufferReadln
  rw [dropWhile_append_of_pos hall, takeWhile_append_of_pos hall]
  simp

lemma evbufferReadln_extend {buf line rest : Bytes} (ext : Bytes)
    (h : evbufferReadln buf = some (line, rest)) :
    evbufferReadln (buf ++ ext) = some (line, rest ++ ext) := by
  unfold evbufferReadln at h ⊢
  cases hd : buf.dropWhile (· != byte '\n') with
  | nil => simp [hd] at h
  | cons c t =>
    rw [hd] at h
    have htake : (buf ++ ext).takeWhile (· != byte '\n') = buf.takeWhile (· != byte '\n') := by
      rw [takeWhile_append, if_neg]
      intro hlen
      have hall := takeWhile_append_dropWhile (p := (· != byte '\n')) (l := buf)
      have hcount := congrArg List.length hall
      rw [length_append, hlen, hd, length_cons] at hcount
      omega
    have hdrop : (buf ++ ext).dropWhile (· != byte '\n') = c :: (t ++ ext) := by
      rw [dropWhile_append, hd]
      rfl
    cases h
    simp [htake, hdrop]

end Lines

section Separators

variable {sep : UInt8} {s a b : Bytes}

lemma strsep_append (h : sep ∉ a) (b : Bytes) : strsep sep (a ++ sep :: b) = (a, some b) := by
  have hall := all_ne_of_notMem h
  unfold strsep
  rw [dropWhile_append_stop hall (by simp), takeWhile_append_stop hall (by simp)]

lemma strsep_of_notMem (h : sep ∉ s) : strsep sep s = (s, none) := by
  unfold strsep
  rw [dropWhile_eq_nil_iff.mpr (all_ne_of_notMem h)]

lemma strsep_eq_some (h : strsep sep s = (a, some b)) : s = a ++ sep :: b ∧ sep ∉ a := by
  unfold strsep at h
  split at h
  · cases h
  · rename_i c rest hdrop
    cases h
    have hc : c = sep := by simpa using head_of_dropWhile_eq_cons hdrop
    refine ⟨?_, ?_⟩
    · rw [hc] at hdrop
      rw [← hdrop, takeWhile_append_dropWhile]
    · intro hmem
      simpa using mem_takeWhile_imp hmem

lemma strsep_eq_none (h : strsep sep s = (a, none)) : sep ∉ s := by
  unfold strsep at h
  split at h
  · rename_i hdrop
    intro hmem
    simpa using dropWhile_eq_nil_iff.mp hdrop sep hmem
  · cases h

end Separators

end MyLibevent.Proofs
