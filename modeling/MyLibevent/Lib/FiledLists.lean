import Mathlib

/-!
# Elements filed in lists

A family of lists in which the elements with a property are filed, each once and in the list of its key:
queues by priority, hash buckets, lists by owner.
-/

namespace FiledLists

open Function List

variable {α κ : Type*} {L L' : κ → List α} {P P' : α → Prop} {key key' : α → κ} {x : α}

structure Filed (L : κ → List α) (P : α → Prop) (key : α → κ) : Prop where
  nodup : ∀ k, (L k).Nodup
  mem : ∀ k x, x ∈ L k ↔ P x ∧ key x = k

lemma filed_of_empty (hL : ∀ k, L k = []) (hP : ∀ x, ¬P x) : Filed L P key := by
  constructor
  · intro k
    rw [hL]
    exact nodup_nil
  · intro k x
    rw [hL]
    exact iff_of_false not_mem_nil fun hx => hP x hx.1

lemma Filed.mem_key (h : Filed L P key) : x ∈ L (key x) ↔ P x := by
  rw [h.mem]
  exact and_iff_left rfl

lemma Filed.count [DecidableEq α] [DecidablePred P] [DecidableEq κ] (h : Filed L P key) (k : κ)
    (x : α) : (L k).count x = if P x ∧ key x = k then 1 else 0 := by
  split_ifs with hx
  · exact count_eq_one_of_mem (h.nodup k) ((h.mem k x).2 hx)
  · exact count_eq_zero_of_not_mem fun hmem => hx ((h.mem k x).1 hmem)

lemma Filed.congr (h : Filed L P key) (hL : ∀ k, L' k = L k) (hP : ∀ y, P' y ↔ P y)
    (hkey : ∀ y, P y → key' y = key y) : Filed L' P' key' := by
  constructor
  · intro k
    rw [hL]
    exact h.nodup k
  · intro k y
    rw [hL, h.mem, hP]
    apply and_congr_right
    intro hy
    rw [hkey y hy]

/-- `x` has come into the list, or has left it if `v` is false. -/
def Moved (v : Bool) (x : α) (l l' : List α) : Prop := bif v then l'.Perm (x :: l) else l.Perm (x :: l')

lemma Moved.length {v : Bool} {l l' : List α} (h : Moved v x l l') :
    (l'.length : Int) = l.length + bif v then 1 else -1 := by
  cases v <;> have hlen := h.length_eq <;> rw [length_cons] at hlen <;> simp <;> omega

/-- If `p` holds, `x` comes into the list of `k` or leaves it. -/
structure Refiled (v : Bool) (x : α) (p : Prop) (k : κ) (L L' : κ → List α) : Prop where
  others : ∀ j, ¬(p ∧ j = k) → L' j = L j
  moved : p → Moved v x (L k) (L' k)

lemma refiled_update [DecidableEq κ] {p : Prop} {v : Bool} {k : κ} {l : List α} (hp : p)
    (hl : Moved v x (L k) l) : Refiled v x p k L (update L k l) where
  others j hj := update_of_ne (fun h => hj ⟨hp, h⟩) ..
  moved _ := by
    rw [update_self]
    exact hl

lemma refiled_of_not {p : Prop} {v : Bool} {k : κ} (hp : ¬p) : Refiled v x p k L L :=
  ⟨fun _ _ => rfl, fun h => absurd h hp⟩

lemma Filed.refile {p : Prop} [DecidableEq α] [Decidable p] {v : Bool} (h : Filed L P key)
    (hnew : v → ¬P x) (hP : ∀ y, P' y ↔ if y = x ∧ p then v = true else P y)
    (hkey : ∀ y, key' y = key y) (hL : Refiled v x p (key x) L L') : Filed L' P' key' := by
  obtain rfl : key' = key := funext hkey
  have hlist : p → (L' (key' x)).Nodup ∧ ∀ y, y ∈ L' (key' x) ↔ if y = x then v = true else y ∈ L (key' x) := by
    intro hp
    have hmoved := hL.moved hp
    cases v with
    | true =>
      have hnodup := nodup_cons.2 ⟨fun hmem => hnew rfl (h.mem_key.1 hmem), h.nodup _⟩
      refine ⟨(Perm.nodup_iff hmoved).2 hnodup, fun y => ?_⟩
      rw [Perm.mem_iff hmoved, mem_cons]
      split_ifs with hy <;> simp [hy]
    | false =>
      have hnodup := nodup_cons.1 ((Perm.nodup_iff hmoved).1 (h.nodup _))
      refine ⟨hnodup.2, fun y => ?_⟩
      rw [Perm.mem_iff hmoved, mem_cons]
      split_ifs with hy
      · simpa [hy] using hnodup.1
      · rw [or_iff_right hy]
  constructor
  · intro k
    by_cases hk : p ∧ k = key' x
    · rw [hk.2]
      exact (hlist hk.1).1
    · rw [hL.others k hk]
      exact h.nodup k
  · intro k y
    rw [hP]
    by_cases hk : p ∧ k = key' x
    · rw [hk.2, (hlist hk.1).2, h.mem]
      by_cases hy : y = x <;> simp [hy, hk.1]
    · rw [hL.others k hk, h.mem]
      split_ifs with hy
      · have hne : key' y ≠ k := fun hyk => hk ⟨hy.2, by rw [← hyk, hy.1]⟩
        simp [hne]
      · rfl

/-- The total length of finitely many of the lists, after a change of one of them. -/
lemma sum_length_update [DecidableEq κ] (L : κ → List α) {s : Finset κ} {k : κ} (hk : k ∈ s)
    (l : List α) : ∑ i ∈ s, (update L k l i).length + (L k).length = ∑ i ∈ s, (L i).length + l.length := by
  have hupdate : ∑ i ∈ s, (update L k l i).length = l.length + ∑ i ∈ s \ {k}, (L i).length := by
    rw [← Finset.sum_update_of_mem hk]
    apply Finset.sum_congr rfl
    intro i _
    exact apply_update (fun _ => length) L k l i
  have hold : ∑ i ∈ s, (L i).length = (L k).length + ∑ i ∈ s \ {k}, (L i).length := by
    rw [← Finset.sum_update_of_mem hk, update_eq_self]
  omega

end FiledLists
