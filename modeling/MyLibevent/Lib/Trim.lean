import Mathlib

/-!
# Trimming lists

How dropping from the front and dropping from the end of a list combine, with each other and
with appending.
-/

namespace ListTrim

open List

variable {α : Type*} (p q : α → Bool) {a b : List α}

variable {p} in
lemma head_of_dropWhile_eq_cons {l t : List α} {c : α} (h : l.dropWhile p = c :: t) : p c = false := by
  have hhead := head?_dropWhile_not p l
  rw [h] at hhead
  exact hhead

variable {p} in
/-- A scan stops at the first element that does not satisfy `p`. -/
lemma takeWhile_append_stop (ha : ∀ c ∈ a, p c) (hb : ∀ c ∈ b.head?, p c = false) : (a ++ b).takeWhile p = a := by
  rw [takeWhile_append_of_pos ha]
  cases b with
  | nil => simp
  | cons c b => rw [takeWhile_cons_of_neg (by simp [hb c rfl]), append_nil]

variable {p} in
lemma dropWhile_append_stop (ha : ∀ c ∈ a, p c) (hb : ∀ c ∈ b.head?, p c = false) : (a ++ b).dropWhile p = b := by
  rw [dropWhile_append_of_pos ha]
  cases b with
  | nil => rfl
  | cons c b => rw [dropWhile_cons_of_neg (by simp [hb c rfl])]

variable {p} in
lemma rdropWhile_append_stop (hb : ∀ c ∈ b, p c) (ha : ∀ c ∈ a.getLast?, p c = false) :
    (a ++ b).rdropWhile p = a := by
  rw [rdropWhile, reverse_append, dropWhile_append_stop (by simpa using hb) (by simpa using ha), reverse_reverse]

variable {p} in
lemma rtakeWhile_append_stop (hb : ∀ c ∈ b, p c) (ha : ∀ c ∈ a.getLast?, p c = false) :
    (a ++ b).rtakeWhile p = b := by
  rw [rtakeWhile, reverse_append, takeWhile_append_stop (by simpa using hb) (by simpa using ha), reverse_reverse]

lemma rdropWhile_cons (c : α) (t : List α) :
    (c :: t).rdropWhile p = if t.rdropWhile p = [] ∧ p c then [] else c :: t.rdropWhile p := by
  simp only [rdropWhile, reverse_cons, dropWhile_append, reverse_eq_nil_iff]
  cases hd : t.reverse.dropWhile p with
  | nil => cases hc : p c <;> simp [hc]
  | cons d ds => simp

lemma rdropWhile_dropWhile_comm (l : List α) : (l.dropWhile q).rdropWhile p = (l.rdropWhile p).dropWhile q := by
  induction l with
  | nil => rfl
  | cons c t ih =>
    rw [rdropWhile_cons]
    cases hq : q c with
    | true =>
      rw [dropWhile_cons_of_pos hq, ih]
      split_ifs with h
      · rw [h.1, dropWhile_nil]
      · rw [dropWhile_cons_of_pos hq]
    | false =>
      rw [dropWhile_cons_of_neg (by simp [hq]), rdropWhile_cons]
      split
      · rfl
      · rw [dropWhile_cons_of_neg (by simp [hq])]

lemma rdropWhile_append_rdropWhile (a b : List α) : (a ++ b.rdropWhile p).rdropWhile p = (a ++ b).rdropWhile p := by
  induction a with
  | nil => exact rdropWhile_idempotent p b
  | cons c t ih => rw [cons_append, cons_append, rdropWhile_cons, rdropWhile_cons, ih]

lemma dropWhile_dropWhile_append (hqp : ∀ c, q c → p c) (a b : List α) :
    (a.dropWhile q ++ b).dropWhile p = (a ++ b).dropWhile p := by
  induction a with
  | nil => rfl
  | cons c t ih =>
    cases hq : q c with
    | true =>
      rw [dropWhile_cons_of_pos hq, ih, cons_append, dropWhile_cons_of_pos (hqp c hq)]
    | false => rw [dropWhile_cons_of_neg (by simp [hq])]

end ListTrim
