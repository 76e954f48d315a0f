import MyLibevent.MinHeap

/-!
# The timeout heap keeps its order and its back-pointers

`Sifting` says that all positions but the hole hold events that know their position, `UpHole` or `DownHole`
what is known of the deadlines. Each operation then keeps `HeapInv`.
-/

namespace MyLibevent.Proofs
open HoleHeap MinHeap Function

variable {ε : Type*} {s : MinHeap ε} {i j hole : Nat} {x e : ε}
  {timeout : ε → Timeval} {S : Finset ε} {r : HeapRun ε}

def Stored (s : MinHeap ε) (x : ε) : Prop := ∃ i, i < s.n ∧ s.p i = x

def Indexed (s : MinHeap ε) : Prop := ∀ i, i < s.n → s.idx (s.p i) = i

def Carried (s : MinHeap ε) (hole : Nat) (e x : ε) : Prop :=
  x = e ∨ ∃ i, i < s.n ∧ i ≠ hole ∧ s.p i = x

/-- The array during a sift: the events off the hole know their position and are not `e`. -/
structure Sifting (s : MinHeap ε) (hole : Nat) (e : ε) : Prop where
  hole_lt : hole < s.n
  at_idx : ∀ i, i < s.n → i ≠ hole → s.idx (s.p i) = i
  fresh : ∀ i, i < s.n → i ≠ hole → s.p i ≠ e

structure Sifted (timeout : ε → Timeval) (s : MinHeap ε) (hole : Nat) (e : ε) (s' : MinHeap ε) :
    Prop where
  ordered : Ordered (timeout ∘ s'.p) s'.n
  indexed : Indexed s'
  stored : ∀ x, Stored s' x ↔ Carried s hole e x
  size : s'.n = s.n
  capacity : s'.a = s.a
  frame : ∀ x, ¬ Carried s hole e x → s'.idx x = s.idx x

/-- The invariant of the heap: order, back-pointers, and `S` as the set of stored events. -/
structure HeapInv (timeout : ε → Timeval) (s : MinHeap ε) (S : Finset ε) : Prop where
  ordered : Ordered (timeout ∘ s.p) s.n
  indexed : Indexed s
  stored : ∀ x, x ∈ S ↔ Stored s x
  absent : ∀ x, x ∉ S → s.idx x = -1
  room : s.n ≤ s.a

lemma Indexed.injective (h : Indexed s) (hi : i < s.n) (hj : j < s.n) (hp : s.p i = s.p j) : i = j := by
  have hij := h i hi
  rw [hp, h j hj] at hij
  exact_mod_cast hij.symm

lemma minChild_spec (timeout : ε → Timeval) (s : MinHeap ε) (hole : Nat)
    (h : 2 * (hole + 1) ≤ s.n) :
    0 < minChild timeout s hole ∧ minChild timeout s hole < s.n ∧
      parent (minChild timeout s hole) = hole ∧
      ∀ d, 0 < d → d < s.n → parent d = hole → timeout (s.p (minChild timeout s hole)) ≤ timeout (s.p d) := by
  have hc := minChild_eq timeout s hole
  refine ⟨by omega, by omega, by rw [parent_eq_iff (by omega)]; omega, ?_⟩
  intro d hd hdn hpd
  rw [parent_eq_iff hd] at hpd
  have hleft : 2 * (hole + 1) - 1 = 2 * hole + 1 := by omega
  have hright : 2 * (hole + 1) = 2 * hole + 2 := by omega
  unfold minChild
  dsimp only
  split_ifs with hg
  · rw [hleft]
    rcases hpd with rfl | rfl
    · exact le_rfl
    · rcases hg with hg | hg
      · omega
      · rw [hleft, hright] at hg
        exact ((elemGreater_iff _ _ _).mp hg).le
  · rw [hright]
    rcases hpd with rfl | rfl
    · by_contra hlt
      rw [hleft, hright] at hg
      exact hg (Or.inr ((elemGreater_iff _ _ _).mpr (not_le.mp hlt)))
    · exact le_rfl

lemma reserve_spec (s : MinHeap ε) (n : Nat) :
    (s.reserve n).p = s.p ∧ (s.reserve n).n = s.n ∧ (s.reserve n).idx = s.idx ∧
      n ≤ (s.reserve n).a ∧ s.a ≤ (s.reserve n).a := by
  unfold reserve
  split
  · refine ⟨rfl, rfl, rfl, ?_⟩
    dsimp only
    split <;> split <;> omega
  · exact ⟨rfl, rfl, rfl, by omega, le_rfl⟩

lemma HeapInv.of_sifted {timeout' : ε → Timeval} {s₀ s' : MinHeap ε} {S' : Finset ε}
    (h : HeapInv timeout' s S) (hsub : S ⊆ S') (hs : Sifted timeout s₀ i e s')
    (hcar : ∀ x, Carried s₀ i e x ↔ x ∈ S') (hidx : s₀.idx = s.idx) (hroom : s₀.n ≤ s₀.a) :
    HeapInv timeout s' S' := by
  refine ⟨hs.ordered, hs.indexed, fun x => ((hs.stored x).trans (hcar x)).symm, ?_, ?_⟩
  · intro x hx
    rw [hs.frame x (fun hc => hx ((hcar x).mp hc)), hidx]
    exact h.absent x fun hm => hx (hsub hm)
  · rw [hs.size, hs.capacity]
    exact hroom

lemma ctor_inv (timeout : ε → Timeval) (p : Nat → ε) : HeapInv timeout (ctor p) ∅ := by
  refine ⟨?_, ?_, ?_, fun x _ => rfl, le_rfl⟩
  · intro i _ hi
    exact absurd hi (by simp [ctor])
  · intro i hi
    exact absurd hi (by simp [ctor])
  · intro x
    simp [ctor, Stored]

section

variable (h : HeapInv timeout s S)
include h

lemma HeapInv.idx_nonneg (hx : x ∈ S) : ∃ i, i < s.n ∧ s.p i = x ∧ s.idx x = i := by
  obtain ⟨i, hi, rfl⟩ := (h.stored x).mp hx
  exact ⟨i, hi, rfl, h.indexed i hi⟩

lemma HeapInv.mem_iff_idx (x : ε) : x ∈ S ↔ s.idx x ≠ -1 := by
  constructor
  · intro hx
    obtain ⟨i, _, _, hi⟩ := h.idx_nonneg hx
    omega
  · intro hx
    by_contra hn
    exact hx (h.absent x hn)

lemma HeapInv.congr_timeout {timeout' : ε → Timeval}
    (heq : ∀ x ∈ S, timeout' x = timeout x) : HeapInv timeout' s S := by
  refine ⟨h.ordered.congr fun i hi => ?_, h.indexed, h.stored, h.absent, h.room⟩
  exact heq _ ((h.stored _).mpr ⟨i, hi, rfl⟩)

lemma HeapInv.top_least (hn : s.n ≠ 0) : s.p 0 ∈ S ∧ ∀ x ∈ S, timeout (s.p 0) ≤ timeout x := by
  refine ⟨(h.stored _).mpr ⟨0, by omega, rfl⟩, fun x hx => ?_⟩
  obtain ⟨i, hi, rfl⟩ := (h.stored x).mp hx
  exact h.ordered.root_le i hi

lemma HeapInv.empty_iff : s.n = 0 ↔ S = ∅ := by
  constructor
  · intro hn
    refine Finset.eq_empty_of_forall_notMem fun x hx => ?_
    obtain ⟨i, hi, _⟩ := (h.stored x).mp hx
    omega
  · intro hS
    by_contra hn
    have := (h.top_least hn).1
    simp [hS] at this

end

variable [DecidableEq ε]

lemma place_deadlines (timeout : ε → Timeval) (s : MinHeap ε) (hole : Nat) (e : ε) :
    timeout ∘ (s.place hole e).p = update (timeout ∘ s.p) hole (timeout e) :=
  comp_update timeout s.p hole e

lemma Sifting.move (st : Sifting s hole e) (hj : j < s.n) (hjh : j ≠ hole) :
    Sifting (s.place hole (s.p j)) j e := by
  refine ⟨hj, ?_, ?_⟩
  · intro i hi hij
    by_cases hih : i = hole
    · subst hih
      simp [place]
    · have hne : s.p i ≠ s.p j := by
        intro hp
        have hidx := st.at_idx i hi hih
        rw [hp, st.at_idx j hj hjh] at hidx
        omega
      simp only [place, update_of_ne hih, update_of_ne hne]
      exact st.at_idx i hi hih
  · intro i hi hij
    by_cases hih : i = hole
    · subst hih
      simpa [place] using st.fresh j hj hjh
    · simpa only [place, update_of_ne hih] using st.fresh i hi hih

lemma carried_move {x : ε} (st : Sifting s hole e) (hj : j < s.n) (hjh : j ≠ hole) :
    Carried (s.place hole (s.p j)) j e x ↔ Carried s hole e x := by
  unfold Carried
  constructor
  · rintro (rfl | ⟨i, hi, hij, rfl⟩)
    · exact Or.inl rfl
    · by_cases hih : i = hole
      · subst hih
        exact Or.inr ⟨j, hj, hjh, by simp [place]⟩
      · exact Or.inr ⟨i, hi, hih, by simp [place, hih]⟩
  · rintro (rfl | ⟨i, hi, hih, rfl⟩)
    · exact Or.inl rfl
    · by_cases hij : i = j
      · subst hij
        exact Or.inr ⟨hole, st.hole_lt, hih.symm, by simp [place]⟩
      · exact Or.inr ⟨i, hi, hij, by simp [place, hih]⟩

lemma Sifted.of_move {s' : MinHeap ε} (st : Sifting s hole e) (hj : j < s.n) (hjh : j ≠ hole)
    (h : Sifted timeout (s.place hole (s.p j)) j e s') : Sifted timeout s hole e s' := by
  refine ⟨h.ordered, h.indexed, fun x => (h.stored x).trans (carried_move st hj hjh), h.size,
    h.capacity, fun x hx => ?_⟩
  have hne : x ≠ s.p j := fun he => hx (Or.inr ⟨j, hj, hjh, he.symm⟩)
  rw [h.frame x (fun hc => hx ((carried_move st hj hjh).mp hc))]
  simp [place, hne]

lemma Sifted.of_fill (st : Sifting s hole e)
    (ho : Ordered (update (timeout ∘ s.p) hole (timeout e)) s.n) :
    Sifted timeout s hole e (s.place hole e) := by
  refine ⟨by rw [place_deadlines]; exact ho, ?_, ?_, rfl, rfl, ?_⟩
  · intro i hi
    by_cases hih : i = hole
    · subst hih
      simp [place]
    · have hne := st.fresh i hi hih
      simp only [place, update_of_ne hih, update_of_ne hne]
      exact st.at_idx i hi hih
  · intro x
    constructor
    · rintro ⟨i, hi, rfl⟩
      by_cases hih : i = hole
      · subst hih
        exact Or.inl (by simp [place])
      · exact Or.inr ⟨i, hi, hih, by simp [place, hih]⟩
    · rintro (rfl | ⟨i, hi, hih, rfl⟩)
      · exact ⟨hole, st.hole_lt, by simp [place]⟩
      · exact ⟨i, hi, by simp [place, hih]⟩
  · intro x hx
    have hne : x ≠ e := fun he => hx (Or.inl he)
    simp [place, hne]

theorem shiftUp_sifted (timeout : ε → Timeval) (s : MinHeap ε) (hole : Nat) (e : ε)
    (st : Sifting s hole e) (hu : UpHole (timeout ∘ s.p) s.n hole (timeout e)) :
    Sifted timeout s hole e (s.shiftUp timeout hole e) := by
  fun_induction shiftUp timeout s hole e with
  | case1 s hole h ih =>
    have h0 := Nat.pos_of_ne_zero h.1
    have hp := parent_lt h0
    have hlt := st.hole_lt
    have hgt : timeout e < timeout (s.p (parent hole)) := (elemGreater_iff _ _ _).mp h.2
    refine Sifted.of_move st (by omega) (by omega) (ih (st.move (by omega) (by omega)) ?_)
    rw [place_deadlines]
    exact hu.move h0 hlt hgt.le
  | case2 s hole h =>
    refine Sifted.of_fill st (hu.fill fun h0 => ?_)
    by_contra hlt
    exact h ⟨by omega, (elemGreater_iff _ _ _).mpr (not_le.mp hlt)⟩

theorem shiftDown_sifted (timeout : ε → Timeval) (s : MinHeap ε) (hole : Nat) (e : ε)
    (st : Sifting s hole e) (hd : DownHole (timeout ∘ s.p) s.n hole (timeout e)) :
    Sifted timeout s hole e (s.shiftDown timeout hole e) := by
  fun_induction shiftDown timeout s hole e with
  | case1 s hole h hg ih =>
    obtain ⟨hc0, hcn, hpc, hmin⟩ := minChild_spec timeout s hole h
    have hlt : hole < minChild timeout s hole := by
      have hp := parent_lt hc0
      omega
    have hle := ((elemGreater_iff _ _ _).mp hg).le
    refine Sifted.of_move st hcn (by omega) (ih (st.move hcn (by omega)) ?_)
    rw [place_deadlines]
    exact hd.move hc0 hcn hpc hmin hle
  | case2 s hole h hg =>
    obtain ⟨_, _, _, hmin⟩ := minChild_spec timeout s hole h
    have hle : timeout e ≤ timeout (s.p (minChild timeout s hole)) := by
      rwa [elemGreater_iff, not_lt] at hg
    exact Sifted.of_fill st (hd.fill fun c hc hcn hpc => hle.trans (hmin c hc hcn hpc))
  | case3 s hole h =>
    refine Sifted.of_fill st (hd.fill fun c hc hcn hpc => ?_)
    rw [parent_eq_iff hc] at hpc
    omega

theorem push_inv (h : HeapInv timeout s S) (he : e ∉ S) : HeapInv timeout (s.push timeout e) (insert e S) := by
  obtain ⟨hp, hn, hidx, hroom, _⟩ := reserve_spec s (s.n + 1)
  unfold push
  generalize s.reserve (s.n + 1) = r at *
  have hst : Sifting { r with n := r.n + 1 } r.n e := by
    refine ⟨by simp, fun i hi hne => ?_, fun i hi hne hpe => ?_⟩
    · simp only [hp, hidx] at *
      exact h.indexed i (by omega)
    · simp only [hp] at *
      exact he ((h.stored e).mpr ⟨i, by omega, hpe⟩)
  have hord : Ordered (timeout ∘ r.p) r.n := by rw [hp, hn]; exact h.ordered
  have hs := shiftUp_sifted timeout _ r.n e hst (hord.upHole_last _)
  have hcar : ∀ x, Carried { r with n := r.n + 1 } r.n e x ↔ x ∈ insert e S := by
    intro x
    simp only [Carried, hp, hn, Finset.mem_insert, h.stored, Stored]
    constructor
    · rintro (rfl | ⟨i, hi, hne, rfl⟩)
      · exact Or.inl rfl
      · exact Or.inr ⟨i, by omega, rfl⟩
    · rintro (rfl | ⟨i, hi, rfl⟩)
      · exact Or.inl rfl
      · exact Or.inr ⟨i, by omega, by omega, rfl⟩
  exact h.of_sifted (Finset.subset_insert e S) hs hcar hidx (hn ▸ hroom)

lemma replace_sifted {k : Timeval} (hi : s.idx e = i) (st : Sifting s i x)
    (ho : Ordered (update (timeout ∘ s.p) i k) s.n) :
    Sifted timeout s i x (s.replace timeout e x) := by
  have hnat : (s.idx e).toNat = i := by rw [hi]; rfl
  have hlt := st.hole_lt
  unfold replace
  rw [hnat]
  dsimp only
  split_ifs with hg
  · have hp := parent_lt hg.1
    have hle := ((elemGreater_iff _ _ _).mp hg.2).le
    refine Sifted.of_move st (by omega) (by omega) (shiftUp_sifted timeout _ _ x (st.move (by omega) (by omega)) ?_)
    rw [place_deadlines]
    exact (ho.upHole hg.1 hle).move hg.1 hlt hle
  · refine shiftDown_sifted timeout s i x st (ho.downHole fun h0 => ?_)
    by_contra hlt
    exact hg ⟨h0, (elemGreater_iff _ _ _).mpr (not_le.mp hlt)⟩

section

variable (h : HeapInv timeout s S)
include h

lemma HeapInv.update_timeout (he : e ∉ S) (t : Timeval) : HeapInv (update timeout e t) s S := by
  apply h.congr_timeout
  intro x hx
  rw [update_of_ne]
  rintro rfl
  exact he hx

lemma replace_last (hn : 0 < s.n) :
    ({ s with n := s.n - 1 } : MinHeap ε).replace timeout (s.p (s.n - 1)) (s.p (s.n - 1)) =
      ({ s with n := s.n - 1 } : MinHeap ε).place (s.n - 1) (s.p (s.n - 1)) := by
  have hidx := h.indexed (s.n - 1) (by omega)
  have hnat : (s.idx (s.p (s.n - 1))).toNat = s.n - 1 := by rw [hidx]; rfl
  unfold replace
  simp only [hnat]
  rw [if_neg, shiftDown, if_neg (by simp only; omega)]
  rintro ⟨h0, hg⟩
  have hle := h.ordered (s.n - 1) h0 (by omega)
  exact not_lt.mpr hle ((elemGreater_iff _ _ _).mp hg)

lemma HeapInv.mem_erase_iff (hi : i < s.n) (x : ε) : x ∈ S.erase (s.p i) ↔ ∃ j, j < s.n ∧ j ≠ i ∧ s.p j = x := by
  rw [Finset.mem_erase, h.stored]
  constructor
  · rintro ⟨hne, j, hj, rfl⟩
    exact ⟨j, hj, fun he => hne (by rw [he]), rfl⟩
  · rintro ⟨j, hj, hji, rfl⟩
    exact ⟨fun hp => hji (h.indexed.injective hj hi hp), j, hj, rfl⟩

lemma erase_last_inv (hn : 0 < s.n) :
    HeapInv timeout ((({ s with n := s.n - 1 } : MinHeap ε).replace timeout (s.p (s.n - 1))
      (s.p (s.n - 1))).clearIdx (s.p (s.n - 1))) (S.erase (s.p (s.n - 1))) := by
  rw [replace_last h hn]
  have hpl : update s.p (s.n - 1) (s.p (s.n - 1)) = s.p := update_eq_self _ _
  constructor
  · simp only [clearIdx, place, hpl]
    exact h.ordered.mono (by omega)
  · intro j hj
    simp only [clearIdx, place, hpl] at hj ⊢
    have hne : s.p j ≠ s.p (s.n - 1) := fun hp => by
      have := h.indexed.injective (by omega) (by omega) hp
      omega
    rw [update_of_ne hne, update_of_ne hne]
    exact h.indexed j (by omega)
  · intro x
    rw [h.mem_erase_iff (by omega)]
    simp only [Stored, clearIdx, place, hpl]
    constructor
    · rintro ⟨j, hj, hne, rfl⟩
      exact ⟨j, by omega, rfl⟩
    · rintro ⟨j, hj, rfl⟩
      exact ⟨j, by omega, by omega, rfl⟩
  · intro x hx
    simp only [clearIdx, place]
    by_cases hxe : x = s.p (s.n - 1)
    · rw [hxe, update_self]
    · rw [update_of_ne hxe, update_of_ne hxe]
      exact h.absent x fun hm => hx (Finset.mem_erase.mpr ⟨hxe, hm⟩)
  · have hroom := h.room
    simp only [clearIdx, place]
    omega

lemma erase_inner_inv (hi : i < s.n - 1) :
    HeapInv timeout ((({ s with n := s.n - 1 } : MinHeap ε).replace timeout (s.p i)
      (s.p (s.n - 1))).clearIdx (s.p i)) (S.erase (s.p i)) := by
  have hst : Sifting { s with n := s.n - 1 } i (s.p (s.n - 1)) := by
    refine ⟨hi, fun j hj _ => h.indexed j (by simp only at hj; omega), ?_⟩
    intro j hj _ hp
    simp only at hj hp
    have := h.indexed.injective (by omega) (by omega) hp
    omega
  have ho : Ordered (update (timeout ∘ s.p) i (timeout (s.p i))) (s.n - 1) := by
    have he : update (timeout ∘ s.p) i (timeout (s.p i)) = timeout ∘ s.p :=
      update_eq_self i (timeout ∘ s.p)
    rw [he]
    exact h.ordered.mono (by omega)
  have hs := replace_sifted (s := { s with n := s.n - 1 }) (e := s.p i) (h.indexed i (by omega)) hst ho
  have hcar : ∀ x, Carried { s with n := s.n - 1 } i (s.p (s.n - 1)) x ↔ x ∈ S.erase (s.p i) := by
    intro x
    rw [h.mem_erase_iff (by omega)]
    constructor
    · rintro (rfl | ⟨j, hj, hji, rfl⟩)
      · exact ⟨s.n - 1, by omega, by omega, rfl⟩
      · simp only at hj
        exact ⟨j, by omega, hji, rfl⟩
    · rintro ⟨j, hj, hji, rfl⟩
      by_cases hjl : j = s.n - 1
      · exact Or.inl (by rw [hjl])
      · exact Or.inr ⟨j, by simp only; omega, hji, rfl⟩
  refine ⟨hs.ordered, ?_, fun x => ((hs.stored x).trans (hcar x)).symm, ?_, ?_⟩
  · intro j hj
    have hmem := (hcar _).mp ((hs.stored _).mp ⟨j, hj, rfl⟩)
    have hne := (Finset.mem_erase.mp hmem).1
    simp only [clearIdx] at hne ⊢
    rw [update_of_ne hne]
    exact hs.indexed j hj
  · intro x hx
    simp only [clearIdx]
    by_cases hxe : x = s.p i
    · rw [hxe, update_self]
    · rw [update_of_ne hxe, hs.frame x (fun hc => hx ((hcar x).mp hc))]
      exact h.absent x fun hm => hx (Finset.mem_erase.mpr ⟨hxe, hm⟩)
  · have hroom := h.room
    simp only [clearIdx]
    rw [hs.size, hs.capacity]
    simp only
    omega

theorem erase_inv (e : ε) : HeapInv timeout (s.erase timeout e).1 (S.erase e) := by
  unfold erase
  split_ifs with hidx
  · obtain ⟨i, hin, rfl, -⟩ := h.idx_nonneg ((h.mem_iff_idx e).mpr hidx)
    by_cases hlast : i = s.n - 1
    · subst hlast
      exact erase_last_inv h (by omega)
    · exact erase_inner_inv h (by omega)
  · have he : e ∉ S := fun hm => (h.mem_iff_idx e).mp hm (by simpa using hidx)
    rw [Finset.erase_eq_of_notMem he]
    exact h

lemma pop_eq_erase (hn : s.n ≠ 0) : s.pop timeout = ((s.erase timeout (s.p 0)).1, some (s.p 0)) := by
  have hidx : s.idx (s.p 0) = 0 := by simpa using h.indexed 0 (by omega)
  unfold pop erase replace
  simp [hn, hidx]

theorem adjust_inv (e : ε) (t : Timeval) :
    HeapInv (update timeout e t) (s.adjust (update timeout e t) e) (insert e S) := by
  unfold adjust
  split_ifs with hidx
  · have he : e ∉ S := fun hm => (h.mem_iff_idx e).mp hm hidx
    exact push_inv (h.update_timeout he t) he
  · obtain ⟨i, hin, rfl, hi⟩ := h.idx_nonneg ((h.mem_iff_idx e).mpr hidx)
    have hfresh : ∀ j, j < s.n → j ≠ i → s.p j ≠ s.p i :=
      fun j hj hji hp => hji (h.indexed.injective hj hin hp)
    have hst : Sifting s i (s.p i) := ⟨hin, fun j hj _ => h.indexed j hj, hfresh⟩
    have ho : Ordered (update (update timeout (s.p i) t ∘ s.p) i (timeout (s.p i))) s.n := by
      refine h.ordered.congr fun j hj => ?_
      by_cases hji : j = i
      · subst hji
        simp
      · simp [hji, hfresh j hj hji]
    have hs := replace_sifted hi hst ho
    have hcar : ∀ x, Carried s i (s.p i) x ↔ x ∈ insert (s.p i) S := by
      intro x
      rw [Finset.mem_insert, h.stored]
      constructor
      · rintro (rfl | ⟨j, hj, -, rfl⟩)
        · exact Or.inl rfl
        · exact Or.inr ⟨j, hj, rfl⟩
      · rintro (rfl | ⟨j, hj, rfl⟩)
        · exact Or.inl rfl
        · by_cases hji : j = i
          · exact Or.inl (by rw [hji])
          · exact Or.inr ⟨j, hj, hji, rfl⟩
    exact h.of_sifted (Finset.subset_insert _ S) hs hcar rfl h.room

end

lemma step_inv (h : HeapInv r.timeout r.heap r.present) (c : HeapCall ε) (hc : r.Allowed c) :
    HeapInv (r.step c).timeout (r.step c).heap (r.step c).present := by
  cases c with
  | push e t => exact push_inv (h.update_timeout hc t) hc
  | pop =>
    by_cases hn : r.heap.n = 0
    · simpa [HeapRun.step, pop, hn] using h
    · simp only [HeapRun.step, pop_eq_erase h hn]
      exact erase_inv h (r.heap.p 0)
  | erase e => exact erase_inv h e
  | adjust e t => exact adjust_inv h e t

theorem reachable_inv (h : r.Reachable) : HeapInv r.timeout r.heap r.present := by
  obtain ⟨p, timeout, hr⟩ := h
  refine hr.invariant (P := fun r => HeapInv r.timeout r.heap r.present) (ctor_inv timeout p) ?_
  rintro r c _ hinv hc ⟨⟩
  exact step_inv hinv c hc

/-- After every sequence of pushes, pops, erasures and adjustments the array is ordered by deadline and holds
exactly the events pushed and not yet removed, which know their position, and a pop gives back an event with a
least deadline. -/
theorem heap_reachable_correct (r : HeapRun ε) (h : r.Reachable) :
    (∀ i, 0 < i → i < r.heap.n → r.timeout (r.heap.p ((i - 1) / 2)) ≤ r.timeout (r.heap.p i)) ∧
    (∀ x, x ∈ r.present ↔ ∃ i, i < r.heap.n ∧ r.heap.p i = x) ∧
    (∀ i, i < r.heap.n → r.heap.idx (r.heap.p i) = i) ∧
    (∀ x, x ∉ r.present → r.heap.idx x = -1) ∧
    (r.heap.pop r.timeout).2 = r.heap.top ∧
    (r.heap.top = none ↔ r.present = ∅) ∧
    ∀ e, r.heap.top = some e → e ∈ r.present ∧ ∀ x ∈ r.present, r.timeout e ≤ r.timeout x := by
  have hinv := reachable_inv h
  refine ⟨hinv.ordered, hinv.stored, hinv.indexed, hinv.absent, ?_, ?_, ?_⟩
  · by_cases hn : r.heap.n = 0
    · simp [pop, top, hn]
    · rw [pop_eq_erase hinv hn]
      simp [top, hn]
  · rw [← hinv.empty_iff]
    simp [top]
  · intro e he
    by_cases hn : r.heap.n = 0
    · simp [top, hn] at he
    · have hp : r.heap.p 0 = e := by simpa [top, hn] using he
      exact hp ▸ hinv.top_least hn

/-- Two pushes in the wrong order, then an adjustment that swaps them back. -/
theorem heap_two_pushes_adjust :
    let r := (((HeapRun.init id (fun _ => ⟨0, 0⟩)).step (.push 1 ⟨5, 0⟩)).step
      (.push 2 ⟨3, 0⟩)).step (.adjust 1 ⟨2, 999999⟩)
    ∀ e, r.heap.top = some e → e ∈ r.present ∧ ∀ x ∈ r.present, r.timeout e ≤ r.timeout x := by
  intro r
  have hr : r.Reachable :=
    ⟨id, fun _ => ⟨0, 0⟩, .step (.adjust 1 ⟨2, 999999⟩) (.step (.push 2 ⟨3, 0⟩) (.step (.push 1 ⟨5, 0⟩) .start
      (by simp [HeapRun.Allowed, HeapRun.init]) rfl)
      (by simp [HeapRun.Allowed, HeapRun.init, HeapRun.step]) rfl) trivial rfl⟩
  exact (heap_reachable_correct r hr).2.2.2.2.2.2

end MyLibevent.Proofs
