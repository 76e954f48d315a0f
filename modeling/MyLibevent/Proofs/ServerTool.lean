import MyLibevent.ServerTool

/-!
# Differences of rectangles

The rows above and below the first rectangle are two pieces of the difference, the columns beside it in the rows
that both have are the other two.
-/

namespace MyLibevent.Proofs

open CWTRect List

section Rects

variable {r r₁ r₂ des : CWTRect} {p : CWTPoint}

lemma isRectEmpty_eq_false : r.isRectEmpty = false ↔
    r.mTopLeft.mX ≤ r.mBottomRight.mX ∧ r.mTopLeft.mY ≤ r.mBottomRight.mY := by
  unfold isRectEmpty width height
  rw [Bool.or_eq_false_iff, decide_eq_false_iff_not, decide_eq_false_iff_not]
  omega

lemma ptInRect_iff : r.ptInRect p ↔
    (r.mTopLeft.mX ≤ p.mX ∧ p.mX ≤ r.mBottomRight.mX) ∧ r.mTopLeft.mY ≤ p.mY ∧ p.mY ≤ r.mBottomRight.mY := by
  have hempty := isRectEmpty_eq_false (r := r)
  unfold ptInRect
  split_ifs with h1 h2 h3
  · have hnot := mt hempty.mpr (by simp [h1])
    simp only [false_iff]
    omega
  · simp only [false_iff]
    omega
  · simp only [false_iff]
    omega
  · simp only [true_iff]
    omega

lemma intersectRect_iff (h₁ : r₁.isRectEmpty = false) (h₂ : r₂.isRectEmpty = false) :
    intersectRect r₁ r₂ ↔ ∃ p, r₁.ptInRect p ∧ r₂.ptInRect p := by
  have hmeet := isRectEmpty_eq_false (r := ⟨⟨max r₁.mTopLeft.mX r₂.mTopLeft.mX, max r₁.mTopLeft.mY r₂.mTopLeft.mY⟩,
    ⟨min r₁.mBottomRight.mX r₂.mBottomRight.mX, min r₁.mBottomRight.mY r₂.mBottomRight.mY⟩⟩)
  unfold intersectRect
  rw [h₁, h₂, Bool.or_self, if_neg Bool.false_ne_true]
  dsimp only
  rw [Bool.not_eq_true', hmeet]
  simp only [ptInRect_iff]
  constructor
  · intro h
    refine ⟨⟨max r₁.mTopLeft.mX r₂.mTopLeft.mX, max r₁.mTopLeft.mY r₂.mTopLeft.mY⟩, ?_⟩
    dsimp only
    omega
  · rintro ⟨p, hp₁, hp₂⟩
    omega

/-- The pieces are not empty, no two of them share a point, and their points are those of the second rectangle that
are not in the first one. -/
theorem subtractRect_spec (hr : r.isRectEmpty = false) (hdes : des.isRectEmpty = false) :
    (∀ piece ∈ r.subtractRect des, piece.isRectEmpty = false) ∧
    (r.subtractRect des).Pairwise (fun a b => ∀ p, ¬(a.ptInRect p ∧ b.ptInRect p)) ∧
    ∀ p, (∃ piece ∈ r.subtractRect des, piece.ptInRect p) ↔ des.ptInRect p ∧ ¬r.ptInRect p := by
  have hmeet := intersectRect_iff hr hdes
  unfold subtractRect
  split_ifs with hnone
  · have hout : ∀ p, ¬(r.ptInRect p ∧ des.ptInRect p) := by
      intro p hp
      rw [hmeet.mpr ⟨p, hp⟩] at hnone
      cases hnone
    refine ⟨by simpa using hdes, pairwise_singleton _ _, fun p => ?_⟩
    simp only [mem_singleton, exists_eq_left]
    exact ⟨fun hp => ⟨hp, fun hin => hout p ⟨hin, hp⟩⟩, And.left⟩
  · rw [Bool.not_eq_false, hmeet] at hnone
    obtain ⟨q, hq, hq'⟩ := hnone
    rw [ptInRect_iff] at hq hq'
    refine ⟨fun piece hpiece => by simpa using (mem_filter.mp hpiece).2, Pairwise.filter _ ?_, fun p => ?_⟩
    · simp only [pairwise_cons, mem_cons, not_mem_nil, or_false, forall_eq_or_imp, forall_eq, ptInRect_iff]
      refine ⟨⟨?_, ?_, ?_⟩, ⟨?_, ?_⟩, ?_, by simp, Pairwise.nil⟩
      all_goals
        intro p
        omega
    · simp only [mem_filter, decide_eq_true_eq, isRectEmpty_eq_false, ptInRect_iff, mem_cons, not_mem_nil, or_false,
        or_and_right, exists_or, exists_eq_left, and_assoc]
      omega

/-- A rectangle in the middle of another one. -/
theorem subtractRect_spec_middle : (∃ piece ∈ (CWTRect.mk ⟨2, 2⟩ ⟨4, 4⟩).subtractRect ⟨⟨1, 1⟩, ⟨5, 5⟩⟩,
    piece.ptInRect ⟨3, 5⟩) ∧ ¬∃ piece ∈ (CWTRect.mk ⟨2, 2⟩ ⟨4, 4⟩).subtractRect ⟨⟨1, 1⟩, ⟨5, 5⟩⟩,
    piece.ptInRect ⟨3, 3⟩ := by
  have h := (@subtractRect_spec ⟨⟨2, 2⟩, ⟨4, 4⟩⟩ ⟨⟨1, 1⟩, ⟨5, 5⟩⟩ (by decide) (by decide)).2.2
  rw [h, h]
  decide

end Rects

end MyLibevent.Proofs
