import Mathlib

/-!
# Buckets

A list of lists in which each element is filed by a key, and what insertion into one of the lists and
removal from it do to all elements together.
-/

namespace Buckets

open List

variable {α : Type*} {L : List (List α)} {key : α → Nat} {x : α}

/-- Every element is in the bucket of its key. -/
def Filed (L : List (List α)) (key : α → Nat) : Prop := ∀ i x, x ∈ L.getD i [] → key x = i

lemma mem_flatten_iff : x ∈ L.flatten ↔ ∃ i, x ∈ L.getD i [] := by
  induction L with
  | nil => simp
  | cons l L ih =>
    rw [flatten_cons, mem_append, ih]
    constructor
    · rintro (hl | ⟨i, hi⟩)
      · exact ⟨0, hl⟩
      · exact ⟨i + 1, hi⟩
    · rintro ⟨i, hi⟩
      cases i with
      | zero => exact .inl hi
      | succ i => exact .inr ⟨i, hi⟩

lemma Filed.mem_iff (h : Filed L key) : x ∈ L.flatten ↔ x ∈ L.getD (key x) [] := by
  rw [mem_flatten_iff]
  constructor
  · rintro ⟨i, hi⟩
    rwa [h i x hi]
  · intro hx
    exact ⟨key x, hx⟩

lemma mem_getD_modify {f : List α → List α} {i j : Nat} (hx : x ∈ (L.modify i f).getD j []) :
    (i = j ∧ x ∈ f (L.getD j [])) ∨ (i ≠ j ∧ x ∈ L.getD j []) := by
  rw [getD_eq_getElem?_getD, getElem?_modify] at hx
  rw [getD_eq_getElem?_getD]
  cases hj : L[j]? with
  | none =>
    rw [hj] at hx
    cases hx
  | some l =>
    rw [hj, Option.map_eq_map, Option.map_some, Option.getD_some] at hx
    split_ifs at hx with hij
    · exact .inl ⟨hij, hx⟩
    · exact .inr ⟨hij, hx⟩

lemma filed_of_flatten_eq_nil (h : L.flatten = []) : Filed L key := by
  intro i x hx
  have hmem := mem_flatten_iff.mpr ⟨i, hx⟩
  rw [h] at hmem
  cases hmem

lemma Filed.modify {f : List α → List α} {i : Nat} (h : Filed L key)
    (hf : ∀ y ∈ f (L.getD i []), y ∈ L.getD i [] ∨ key y = i) : Filed (L.modify i f) key := by
  intro j y hy
  obtain ⟨rfl, hy⟩ | ⟨-, hy⟩ := mem_getD_modify hy
  · exact (hf y hy).elim (h i y) id
  · exact h j y hy

/-- What comes and goes in one bucket comes and goes in all of them together. -/
lemma modify_perm {A B : List α} {f : List α → List α} {i : Nat} (hi : i < L.length)
    (h : (A ++ f (L.getD i [])).Perm (B ++ L.getD i [])) :
    (A ++ (L.modify i f).flatten).Perm (B ++ L.flatten) := by
  induction L generalizing i with
  | nil => cases hi
  | cons l L ih =>
    cases i with
    | zero =>
      rw [modify_zero_cons, flatten_cons, flatten_cons, ← append_assoc, ← append_assoc]
      exact h.append_right _
    | succ i =>
      rw [modify_succ_cons, flatten_cons, flatten_cons]
      have htail := ih (Nat.lt_of_succ_lt_succ hi) h
      exact (perm_append_comm_assoc A l _).trans ((htail.append_left l).trans (perm_append_comm_assoc l B _))

lemma Filed.add {f : List α → List α} (h : Filed L key) (hf : ∀ l, (f l).Perm (x :: l)) :
    Filed (L.modify (key x) f) key :=
  h.modify fun _ hy => (mem_cons.mp ((hf _).mem_iff.mp hy)).symm.imp_right (congrArg key)

lemma add_perm {f : List α → List α} {i : Nat} (hi : i < L.length) (hf : ∀ l, (f l).Perm (x :: l)) :
    (L.modify i f).flatten.Perm (x :: L.flatten) :=
  modify_perm (A := []) (B := [x]) hi (hf _)

/-- The elements of a list are filed one after another, each at a place of its bucket that `add` chooses. -/
lemma Filed.addAll {add : α → List α → List α} (hadd : ∀ x l, (add x l).Perm (x :: l)) (l : List α)
    (h : Filed L key) (hkey : ∀ x, key x < L.length) :
    ∃ L', l.foldl (fun L x => L.modify (key x) (add x)) L = L' ∧ L'.length = L.length ∧ Filed L' key ∧
      L'.flatten.Perm (l ++ L.flatten) := by
  induction l generalizing L with
  | nil => exact ⟨L, rfl, rfl, h, .refl _⟩
  | cons x l ih =>
    have hlength : (L.modify (key x) (add x)).length = L.length := length_modify ..
    obtain ⟨L', heq, hlen, hfiled, hperm⟩ := ih (h.add (hadd x)) (hlength ▸ hkey)
    refine ⟨L', heq, hlen.trans hlength, hfiled, hperm.trans ?_⟩
    exact ((add_perm (hkey x) (hadd x)).append_left l).trans perm_middle

variable [DecidableEq α]

lemma Filed.erase (h : Filed L key) (i : Nat) : Filed (L.modify i (·.erase x)) key :=
  h.modify fun _ hy => .inl (mem_of_mem_erase hy)

lemma erase_perm {i : Nat} (hi : i < L.length) (hx : x ∈ L.getD i []) :
    (x :: (L.modify i (·.erase x)).flatten).Perm L.flatten :=
  modify_perm (A := [x]) (B := []) hi (perm_cons_erase hx).symm

lemma erase_flatten_sublist (L : List (List α)) (i : Nat) (x : α) :
    (L.modify i (·.erase x)).flatten.Sublist L.flatten := by
  induction L generalizing i with
  | nil => simp
  | cons l L ih =>
    cases i with
    | zero =>
      rw [modify_zero_cons, flatten_cons, flatten_cons]
      exact erase_sublist.append_right _
    | succ i =>
      rw [modify_succ_cons, flatten_cons, flatten_cons]
      exact (ih i).append_left l

/-! ## Counting by owner -/

/-- How many elements of a list have a given owner, after one of them has changed its owner. -/
lemma countP_update {β : Type*} [DecidableEq β] {l : List α} (hl : l.Nodup) (hx : x ∈ l)
    (f : α → β) (v t : β) :
    (l.countP fun y => Function.update f x v y = t) + (if f x = t then 1 else 0) =
      (l.countP fun y => f y = t) + if v = t then 1 else 0 := by
  have hperm := perm_cons_erase hx
  have hrest : ((l.erase x).countP fun y => Function.update f x v y = t) = (l.erase x).countP fun y => f y = t := by
    apply countP_congr
    intro y hy
    have hne : y ≠ x := ne_of_mem_of_not_mem hy hl.not_mem_erase
    rw [Function.update_of_ne hne]
  rw [hperm.countP_eq, hperm.countP_eq (fun y => decide (f y = t)), countP_cons, countP_cons,
    hrest, Function.update_self]
  simp only [decide_eq_true_eq]
  omega

end Buckets
