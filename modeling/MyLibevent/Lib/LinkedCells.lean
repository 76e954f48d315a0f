import Mathlib

/-!
Singly linked lists in a memory of pointer cells. A node `c` owns the cell `nxt c`; a list starts
in a cell too, so that a pointer to a cell can designate any position of it, the head included.
-/

namespace LinkedCells

open Function List

variable {σ α : Type*} (nxt : α → σ)

/-- The cell reached from `s` after the nodes `l`. -/
def after (s : σ) : List α → σ
  | [] => s
  | c :: l => after (nxt c) l

/-- Following the cells from the pointer `p` visits the nodes `l` and ends at `q`. -/
def Walk (cell : σ → Option α) : Option α → List α → Option α → Prop
  | p, [], q => p = q
  | p, c :: l, q => p = some c ∧ Walk cell (cell (nxt c)) l q

variable {nxt} {cell cell' : σ → Option α} {s : σ} {l l1 l2 : List α} {c : α} {p q : Option α}

@[simp] lemma after_nil : after nxt s [] = s := rfl

@[simp] lemma after_cons : after nxt s (c :: l) = after nxt (nxt c) l := rfl

@[simp] lemma after_append : after nxt s (l1 ++ l2) = after nxt (after nxt s l1) l2 := by
  induction l1 generalizing s with
  | nil => rfl
  | cons c l1 ih => exact ih

lemma after_eq_of_ne_nil (h : l ≠ []) : after nxt s l = nxt (l.getLast h) := by
  rcases l.eq_nil_or_concat with rfl | ⟨l', c, rfl⟩
  · exact absurd rfl h
  · simp

/-- Where a list starts plays no part behind its first node. -/
lemma after_congr (h : l ≠ []) (s s' : σ) : after nxt s l = after nxt s' l := by
  rw [after_eq_of_ne_nil h, after_eq_of_ne_nil h]

@[simp] lemma walk_nil : Walk nxt cell p [] q ↔ p = q := Iff.rfl

lemma Walk.append {r : Option α} (h1 : Walk nxt cell p l1 r) (h2 : Walk nxt cell r l2 q) :
    Walk nxt cell p (l1 ++ l2) q := by
  induction l1 generalizing p with
  | nil =>
    rw [walk_nil] at h1
    rwa [h1]
  | cons c l1 ih => exact ⟨h1.1, ih h1.2⟩

lemma Walk.split (h : Walk nxt cell p (l1 ++ l2) q) : ∃ r, Walk nxt cell p l1 r ∧ Walk nxt cell r l2 q := by
  induction l1 generalizing p with
  | nil => exact ⟨p, rfl, h⟩
  | cons c l1 ih =>
    obtain ⟨r, h1, h2⟩ := ih h.2
    exact ⟨r, ⟨h.1, h1⟩, h2⟩

lemma Walk.cell_after (h : Walk nxt cell (cell s) l q) : cell (after nxt s l) = q := by
  induction l generalizing s with
  | nil => exact h
  | cons c l ih => exact ih h.2

lemma Walk.head (h : Walk nxt cell p l none) : p = l.head? := by
  cases l with
  | nil => exact h
  | cons c l => exact h.1

/-- The pointer to the last node stands in the cell after all the others. -/
lemma Walk.getLast (h : Walk nxt cell (cell s) l none) : cell (after nxt s l.dropLast) = l.getLast? := by
  rcases l.eq_nil_or_concat with rfl | ⟨l', c, rfl⟩
  · exact h
  · rw [concat_eq_append] at h ⊢
    obtain ⟨r, h1, h2⟩ := h.split
    rw [dropLast_concat, h1.cell_after, getLast?_concat]
    exact h2.1

/-- A walk reads the cells of its nodes only. -/
lemma Walk.congr (h : Walk nxt cell p l q) (hcell : ∀ c ∈ l, cell' (nxt c) = cell (nxt c)) :
    Walk nxt cell' p l q := by
  induction l generalizing p with
  | nil => exact h
  | cons c l ih =>
    refine ⟨h.1, ?_⟩
    rw [hcell c (by simp)]
    exact ih h.2 fun d hd => hcell d (by simp [hd])

section Update

variable [DecidableEq σ]

/-- Storing through the pointer to the end of a list replaces what follows the list. -/
lemma Walk.update_after (hinj : Function.Injective nxt) (hs : ∀ c ∈ l, nxt c ≠ s)
    (hnodup : l.Nodup) (h : Walk nxt cell (cell s) l q) (v : Option α) :
    Walk nxt (update cell (after nxt s l) v) (update cell (after nxt s l) v s) l v := by
  induction l generalizing s with
  | nil => simp
  | cons c l ih =>
    have hfar : s ≠ after nxt (nxt c) l := by
      intro heq
      by_cases hl : l = []
      · subst hl
        exact hs c (by simp) heq.symm
      · rw [after_eq_of_ne_nil hl] at heq
        exact hs _ (by simp [getLast_mem hl]) heq.symm
    refine ⟨?_, ih ?_ hnodup.of_cons h.2⟩
    · rw [after_cons, update_of_ne hfar]
      exact h.1
    · intro d hd heq
      rw [hinj heq] at hd
      exact (nodup_cons.1 hnodup).1 hd

/-- Joining two lists by one store. -/
lemma Walk.link (hinj : Function.Injective nxt) (hs : ∀ c ∈ l1, nxt c ≠ s) (hnodup : l1.Nodup)
    (hdisj : ∀ c ∈ l2, nxt c ≠ after nxt s l1) (h1 : Walk nxt cell (cell s) l1 q)
    (h2 : Walk nxt cell p l2 none) :
    Walk nxt (update cell (after nxt s l1) p) (update cell (after nxt s l1) p s) (l1 ++ l2) none := by
  apply (h1.update_after hinj hs hnodup p).append
  apply h2.congr
  intro c hc
  exact update_of_ne (hdisj c hc) _ _

end Update

end LinkedCells
