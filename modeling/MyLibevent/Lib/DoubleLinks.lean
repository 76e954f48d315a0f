import Mathlib

/-!
# Doubly linked lists

Segments of doubly linked lists, for nodes of any type whose links are given as functions.
-/

namespace DoubleLinks

open List

variable {α : Type*}

/-- The nodes `l` are linked both ways; the first one is linked back to `p`, the last one on to `n`. -/
def Seg (next prev : α → Option α) : Option α → List α → Option α → Prop
  | _, [], _ => True
  | p, x :: l, n => prev x = p ∧ next x = l.head?.or n ∧ Seg next prev (some x) l n

variable {next prev next' prev' : α → Option α} {p p' n n' : Option α} {l l1 l2 : List α} {x : α}

lemma seg_append : Seg next prev p (l1 ++ l2) n ↔
    Seg next prev p l1 (l2.head?.or n) ∧ Seg next prev (l1.getLast?.or p) l2 n := by
  induction l1 generalizing p with
  | nil => simp [Seg]
  | cons x l1 ih =>
    have hlast : (l1.getLast?.or (some x)) = ((x :: l1).getLast?.or p) := by
      cases l1 with
      | nil => rfl
      | cons y l1 => simp [getLast?_cons]
    have hhead : ((l1 ++ l2).head?.or n) = (l1.head?.or (l2.head?.or n)) := by
      cases l1 with
      | nil => rfl
      | cons y l1 => rfl
    rw [cons_append, Seg, Seg, ih, hlast, hhead]
    tauto

/-- A segment after a change of links that only touches its outer links. -/
lemma Seg.reseat [DecidableEq α] (hs : Seg next prev p l n) (hnodup : l.Nodup)
    (hprev : ∀ x ∈ l, prev' x = if l.head? = some x then p' else prev x)
    (hnext : ∀ x ∈ l, next' x = if l.getLast? = some x then n' else next x) : Seg next' prev' p' l n' := by
  induction l generalizing p p' with
  | nil => trivial
  | cons x l ih =>
    obtain ⟨hx, hl⟩ := nodup_cons.mp hnodup
    have hne {y : α} (hy : y ∈ l) : x ≠ y := (ne_of_mem_of_not_mem hy hx).symm
    refine ⟨?_, ?_, ih hs.2.2 hl (fun y hy => ?_) (fun y hy => ?_)⟩
    · rw [hprev x mem_cons_self, head?_cons, if_pos rfl]
    · rw [hnext x mem_cons_self]
      cases l with
      | nil => rw [getLast?_singleton, if_pos rfl, head?_nil, Option.none_or]
      | cons y l =>
        rw [getLast?_cons_cons, if_neg]
        · exact hs.2.1
        · intro hlast
          exact hx (mem_of_getLast? hlast)
    · rw [hprev y (mem_cons_of_mem x hy), head?_cons, if_neg (by simpa using hne hy)]
      split_ifs with hhead
      · cases l with
        | nil => cases hy
        | cons z l =>
          cases hhead
          exact hs.2.2.1
      · rfl
    · rw [hnext y (mem_cons_of_mem x hy)]
      cases l with
      | nil => cases hy
      | cons z l => rw [getLast?_cons_cons]

lemma Seg.prev_head (hs : Seg next prev p l n) (hx : l.head? = some x) : prev x = p := by
  cases l with
  | nil => cases hx
  | cons y l =>
    cases hx
    exact hs.1

lemma Seg.next_last (hs : Seg next prev p l n) (hx : l.getLast? = some x) : next x = n := by
  induction l generalizing p with
  | nil => cases hx
  | cons y l ih =>
    cases l with
    | nil =>
      cases hx
      exact hs.2.1
    | cons z l => exact ih hs.2.2 hx

lemma getLast?_ne (hdisj : l1.Disjoint l2) (hx : x ∈ l2) : l1.getLast? ≠ some x :=
  fun hlast => hdisj (mem_of_getLast? hlast) hx

lemma head?_ne (hdisj : l1.Disjoint l2) (hx : x ∈ l1) : l2.head? ≠ some x :=
  fun hhead => hdisj hx (mem_of_head? hhead)

section Change

variable [DecidableEq α]

/-- A segment depends on the links of its nodes only. -/
lemma Seg.congr (hs : Seg next prev p l n) (hnodup : l.Nodup) (hprev : ∀ x ∈ l, prev' x = prev x)
    (hnext : ∀ x ∈ l, next' x = next x) : Seg next' prev' p l n := by
  apply hs.reseat hnodup
  · intro x hx
    split_ifs with hhead
    · rw [hprev x hx, hs.prev_head hhead]
    · exact hprev x hx
  · intro x hx
    split_ifs with hlast
    · rw [hnext x hx, hs.next_last hlast]
    · exact hnext x hx

/-- The nodes `l2` are linked behind the nodes `l1`. -/
lemma Seg.join (h1 : Seg next prev p l1 n) (h2 : Seg next prev p' l2 n') (hn1 : l1.Nodup) (hn2 : l2.Nodup)
    (hdisj : l1.Disjoint l2)
    (hprev : ∀ x ∈ l1 ++ l2, prev' x = if l2.head? = some x then l1.getLast?.or p else prev x)
    (hnext : ∀ x ∈ l1 ++ l2, next' x = if l1.getLast? = some x then l2.head? else
      if l2.getLast? = some x then none else next x) : Seg next' prev' p (l1 ++ l2) none := by
  rw [seg_append]
  constructor
  · apply h1.reseat hn1
    · intro x hx
      rw [hprev x (mem_append_left l2 hx), if_neg (head?_ne hdisj hx)]
      split_ifs with hhead
      · exact h1.prev_head hhead
      · rfl
    · intro x hx
      rw [hnext x (mem_append_left l2 hx), if_neg (getLast?_ne (fun _ ha hb => hdisj hb ha) hx), Option.or_none]
  · apply h2.reseat hn2
    · intro x hx
      rw [hprev x (mem_append_right l1 hx)]
    · intro x hx
      rw [hnext x (mem_append_right l1 hx), if_neg (getLast?_ne hdisj hx)]

/-- The nodes `l` are taken out from between the nodes `l1` and `l2`. -/
lemma Seg.cut (hs : Seg next prev none (l1 ++ (l ++ l2)) none) (hnodup : (l1 ++ (l ++ l2)).Nodup)
    (hprev : ∀ x, prev' x = if l2.head? = some x then l1.getLast? else prev x)
    (hnext : ∀ x, next' x = if l1.getLast? = some x then l2.head? else next x) :
    Seg next' prev' none (l1 ++ l2) none ∧ Seg next' prev' l1.getLast? l l2.head? := by
  obtain ⟨hn1, hn, hd1⟩ := nodup_append'.mp hnodup
  obtain ⟨hnl, hn2, hd2⟩ := nodup_append'.mp hn
  obtain ⟨hs1, hs⟩ := seg_append.mp hs
  obtain ⟨hsl, hs2⟩ := seg_append.mp hs
  rw [disjoint_append_right] at hd1
  rw [Option.or_none] at hs hsl hsl
  rw [seg_append, Option.or_none, Option.or_none]
  refine ⟨⟨?_, ?_⟩, ?_⟩
  · apply hs1.reseat hn1
    · intro x hx
      rw [hprev x, if_neg (head?_ne hd1.2 hx)]
      split_ifs with hhead
      · exact hs1.prev_head hhead
      · rfl
    · intro x hx
      rw [hnext x]
  · apply hs2.reseat hn2
    · intro x hx
      rw [hprev x]
    · intro x hx
      rw [hnext x, if_neg (getLast?_ne hd1.2 hx)]
      split_ifs with hlast
      · exact hs2.next_last hlast
      · rfl
  · apply hsl.congr hnl
    · intro x hx
      rw [hprev x, if_neg (head?_ne hd2 hx)]
    · intro x hx
      rw [hnext x, if_neg (getLast?_ne hd1.1 hx)]

/-- The node `x` is taken out from between the nodes `l1` and `l2` and left alone. -/
lemma Seg.unlink (hs : Seg next prev none (l1 ++ x :: l2) none) (hnodup : (l1 ++ x :: l2).Nodup)
    (hprev : ∀ y, prev' y = if y = x then none else if l2.head? = some y then l1.getLast? else prev y)
    (hnext : ∀ y, next' y = if y = x then none else if l1.getLast? = some y then l2.head? else next y) :
    Seg next' prev' none (l1 ++ l2) none ∧ Seg next' prev' none [x] none := by
  have hcut := Seg.cut (l := [x]) hs hnodup (fun _ => rfl) fun _ => rfl
  have hperm := perm_middle.nodup_iff.mp hnodup
  obtain ⟨hx, hrest⟩ := nodup_cons.mp hperm
  have hne {y : α} (hy : y ∈ l1 ++ l2) : y ≠ x := ne_of_mem_of_not_mem hy hx
  constructor
  · apply hcut.1.congr hrest
    · intro y hy
      rw [hprev, if_neg (hne hy)]
    · intro y hy
      rw [hnext, if_neg (hne hy)]
  · exact ⟨by rw [hprev, if_pos rfl], by rw [hnext, if_pos rfl]; rfl, trivial⟩

/-- The node `x` is put before the nodes `l`. -/
lemma Seg.insert (hs : Seg next prev none l n) (hnodup : l.Nodup) (hprevx : prev' x = none)
    (hnextx : next' x = l.head?.or n) (hprev : ∀ y ∈ l, prev' y = if l.head? = some y then some x else prev y)
    (hnext : ∀ y ∈ l, next' y = next y) : Seg next' prev' none (x :: l) n := by
  refine ⟨hprevx, hnextx, hs.reseat hnodup hprev fun y hy => ?_⟩
  rw [hnext y hy]
  split_ifs with hlast
  · exact hs.next_last hlast
  · rfl

/-- The first node `x` is put between the nodes `l1` and `l2` behind it. -/
lemma Seg.moveHead (hs : Seg next prev none (x :: (l1 ++ l2)) none) (hnodup : (x :: (l1 ++ l2)).Nodup)
    (hprev : ∀ y, prev' y = if y = x then l1.getLast? else if l2.head? = some y then some x else
      if l1.head? = some y then none else prev y)
    (hnext : ∀ y, next' y = if y = x then l2.head? else if l1.getLast? = some y then some x else next y) :
    Seg next' prev' none (l1 ++ x :: l2) none := by
  obtain ⟨hx, hrest⟩ := nodup_cons.mp hnodup
  obtain ⟨hn1, hn2, hdisj⟩ := nodup_append'.mp hrest
  obtain ⟨h1, h2⟩ := seg_append.mp hs.2.2
  have hne {y : α} (hy : y ∈ l1 ++ l2) : y ≠ x := ne_of_mem_of_not_mem hy hx
  refine seg_append.mpr ⟨h1.reseat hn1 (fun y hy => ?_) (fun y hy => ?_), ?_, ?_,
    h2.reseat hn2 (fun y hy => ?_) (fun y hy => ?_)⟩
  · rw [hprev, if_neg (hne (mem_append_left l2 hy)), if_neg (head?_ne hdisj hy)]
  · rw [hnext, if_neg (hne (mem_append_left l2 hy))]
    rfl
  · rw [hprev, if_pos rfl, Option.or_none]
  · rw [hnext, if_pos rfl, Option.or_none]
  · rw [hprev, if_neg (hne (mem_append_right l1 hy)), if_neg (head?_ne (fun _ ha hb => hdisj hb ha) hy)]
  · rw [hnext, if_neg (hne (mem_append_right l1 hy)), if_neg (getLast?_ne hdisj hy)]
    split_ifs with hlast
    · exact h2.next_last hlast
    · rfl

end Change

end DoubleLinks
