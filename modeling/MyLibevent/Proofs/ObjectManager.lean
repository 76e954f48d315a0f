import MyLibevent.ObjectManager

/-!
# Uniqueness of the ids of objects

All types of objects have their highest bit set, so that the counter of a manager is a negative `int`, and its
sign covers the second in the id.
-/

namespace MyLibevent.Proofs

open ObjectManager List Function

variable (objType : ObjType)

lemma objIdStart_eq : objIdStart objType = objType.code * 2 ^ 24 + 1 - 2 ^ 32 := by
  cases objType <;> decide

lemma objIdEnd_eq : objIdEnd objType = (objType.code + 1) * 2 ^ 24 - 10 - 2 ^ 32 := by
  cases objType <;> decide

lemma code_range : 0xFC ≤ objType.code ∧ objType.code ≤ 0xFE := by
  cases objType <;> decide

lemma objIdStart_range :
    -2 ^ 31 < objIdStart objType ∧ objIdStart objType + 1 < objIdEnd objType ∧ objIdEnd objType < 0 := by
  rw [objIdStart_eq, objIdEnd_eq]
  have hcode := code_range objType
  omega

variable {counter : Int}

lemma toNat_ofInt_neg (hlow : -2 ^ 31 ≤ counter) (hneg : counter < 0) :
    ((BitVec.ofInt 64 counter).toNat : Int) = counter + 2 ^ 64 := by
  rw [BitVec.toNat_ofInt]
  omega

lemma pack_neg (timeNow : Int) (hlow : -2 ^ 31 ≤ counter) (hneg : counter < 0) :
    pack timeNow counter = BitVec.ofInt 64 counter := by
  have hnat := toNat_ofInt_neg hlow hneg
  generalize hn : (BitVec.ofInt 64 counter).toNat = n
  unfold pack
  apply BitVec.eq_of_getLsbD_eq
  intro i hi
  rw [BitVec.getLsbD_or, BitVec.getLsbD_shiftLeft]
  by_cases hlower : i < 32
  · simp [hlower]
  · have hhigh : n / 2 ^ 32 = 2 ^ 32 - 1 := by omega
    have hbit : (BitVec.ofInt 64 counter).getLsbD i := by
      rw [BitVec.getLsbD, hn, show i = (i - 32) + 32 by omega, ← Nat.testBit_div_two_pow, hhigh,
        Nat.testBit_two_pow_sub_one]
      simp
      omega
    rw [hbit, Bool.or_true]

def idOf (counter : Int) : ObjId :=
  if objIdEnd objType < counter then invalidObjId else BitVec.ofInt 64 counter

section IdOf

variable {objType : ObjType} {counter counter' : Int}

lemma idOf_of_le (h : counter ≤ objIdEnd objType) : idOf objType counter = BitVec.ofInt 64 counter := by
  unfold idOf
  rw [if_neg (by omega)]

lemma idOf_ne_invalid (hlow : -2 ^ 31 ≤ counter) :
    idOf objType counter ≠ invalidObjId ↔ counter ≤ objIdEnd objType := by
  have hend := objIdStart_range objType
  constructor
  · intro hne
    by_contra hlt
    exact hne (if_pos (by omega))
  · intro hle heq
    rw [idOf_of_le hle] at heq
    have hnat := toNat_ofInt_neg hlow (by omega)
    rw [heq] at hnat
    simp [invalidObjId] at hnat
    omega

lemma idOf_injective (hlow : -2 ^ 31 ≤ counter) (hle : counter ≤ objIdEnd objType)
    (hlow' : -2 ^ 31 ≤ counter') (hle' : counter' ≤ objIdEnd objType)
    (h : idOf objType counter = idOf objType counter') : counter = counter' := by
  have hend := objIdStart_range objType
  rw [idOf_of_le hle, idOf_of_le hle'] at h
  have hnat := toNat_ofInt_neg hlow (by omega)
  have hnat' := toNat_ofInt_neg hlow' (by omega)
  rw [h] at hnat
  omega

lemma id2Type_ofInt (hlow : -2 ^ 31 ≤ counter) (hneg : counter < 0) :
    id2Type (BitVec.ofInt 64 counter) = (counter + 2 ^ 32) / 2 ^ 24 := by
  have hnat := toNat_ofInt_neg hlow hneg
  unfold id2Type objIdBits
  rw [BitVec.toNat_and, BitVec.toNat_ushiftRight, Nat.shiftRight_eq_div_pow,
    show (0xFF#64).toNat = 2 ^ 8 - 1 by rfl, Nat.and_two_pow_sub_one_eq_mod]
  omega

lemma id2Type_idOf (hlow : objIdStart objType ≤ counter) (hle : counter ≤ objIdEnd objType) :
    id2Type (idOf objType counter) = objType.code := by
  have hrange := objIdStart_range objType
  rw [idOf_of_le hle, id2Type_ofInt (by omega) (by omega)]
  rw [objIdStart_eq] at hlow
  rw [objIdEnd_eq] at hle
  omega

end IdOf

lemma getValidId_eq (manager : ObjectManager) (clock : Int) :
    manager.getValidId clock =
      (idOf manager.objType (manager.advance (cInt clock)).lastUsedId, manager.advance (cInt clock)) := by
  have htype : (manager.advance (cInt clock)).objType = manager.objType := by
    unfold advance
    split_ifs <;> rfl
  have hlow : -2 ^ 31 ≤ (manager.advance (cInt clock)).lastUsedId := by
    unfold advance
    split_ifs
    · exact le_cInt _
    · have hstart := objIdStart_range manager.objType
      dsimp only
      omega
  have hend := objIdStart_range manager.objType
  unfold getValidId idOf
  dsimp only
  rw [htype]
  split_ifs with hout
  · rfl
  · rw [pack_neg _ hlow (by omega)]

def counters (objType : ObjType) : Int → Int → List Int → List Int
  | _, _, [] => []
  | lastGetTime, lastUsedId, timeNow :: times =>
    let counter := if lastGetTime = timeNow then cInt (lastUsedId + 1) else objIdStart objType
    counter :: counters objType timeNow counter times

def repeats : Int → List Int → Nat
  | _, [] => 0
  | lastGetTime, timeNow :: times => (if lastGetTime = timeNow then 1 else 0) + repeats timeNow times

/-- All calls are in one second, or all but the last are in the second in which the manager was made; the
counter stays an `int`. -/
structure OneSecond (objType : ObjType) (created : Int) (times : List Int) : Prop where
  seconds : (∃ second, ∀ t ∈ times, t = second) ∨ ∀ t ∈ times.dropLast, t = created
  count : objIdStart objType + repeats created times < 2 ^ 31

def CountersUnique (values : List Int) : Prop :=
  ((values.map (idOf objType)).filter (· ≠ invalidObjId)).Nodup ∧
    ∀ counter ∈ values, idOf objType counter ≠ invalidObjId → id2Type (idOf objType counter) = objType.code

section Counters

variable {objType : ObjType} {last counter second : Int} {times values : List Int}

lemma counters_cons_same : counters objType last counter (last :: times) =
    cInt (counter + 1) :: counters objType last (cInt (counter + 1)) times := by
  rw [counters, if_pos rfl]

lemma counters_cons_other {t : Int} (ht : last ≠ t) : counters objType last counter (t :: times) =
    objIdStart objType :: counters objType t (objIdStart objType) times := by
  rw [counters, if_neg ht]

lemma counters_same (htimes : ∀ t ∈ times, t = last) (hlow : -2 ^ 31 ≤ counter)
    (hhigh : counter + times.length < 2 ^ 31) :
    (counters objType last counter times).Pairwise (· < ·) ∧
      ∀ value ∈ counters objType last counter times, counter < value ∧ value ≤ counter + times.length := by
  induction times generalizing counter with
  | nil => simp [counters]
  | cons t times ih =>
    obtain rfl : t = last := htimes t mem_cons_self
    rw [length_cons] at hhigh
    push_cast at hhigh
    have hnext : cInt (counter + 1) = counter + 1 := cInt_of_le (by omega) (by omega)
    obtain ⟨hpairwise, hbounds⟩ := ih (fun x hx => htimes x (mem_cons_of_mem _ hx))
      (show -2 ^ 31 ≤ counter + 1 by omega) (by omega)
    simp only [counters_cons_same, hnext, pairwise_cons, mem_cons, length_cons]
    refine ⟨⟨fun value hvalue => (hbounds value hvalue).1, hpairwise⟩, ?_⟩
    rintro value (rfl | hvalue)
    · push_cast
      omega
    · have hvalue := hbounds value hvalue
      omega

lemma counters_overflow (htimes : ∀ t ∈ times, t = last) (hlow : -2 ^ 31 ≤ counter) (hlt : counter < 2 ^ 31)
    (hhigh : 2 ^ 31 ≤ counter + times.length) : -2 ^ 31 ∈ counters objType last counter times := by
  induction times generalizing counter with
  | nil =>
    simp at hhigh
    omega
  | cons t times ih =>
    obtain rfl : t = last := htimes t mem_cons_self
    rw [length_cons] at hhigh
    push_cast at hhigh
    rw [counters_cons_same, mem_cons]
    by_cases hmax : counter + 1 = 2 ^ 31
    · left
      rw [hmax]
      decide
    · right
      rw [cInt_of_le (by omega) (by omega)]
      exact ih (fun x hx => htimes x (mem_cons_of_mem _ hx)) (by omega) (by omega) (by omega)

lemma counters_append_other (htimes : ∀ t ∈ times, t = last) (hsecond : second ≠ last) :
    counters objType last counter (times ++ [second]) =
      counters objType last counter times ++ [objIdStart objType] := by
  induction times generalizing counter with
  | nil => exact counters_cons_other hsecond.symm
  | cons t times ih =>
    obtain rfl : t = last := htimes t mem_cons_self
    rw [cons_append, counters_cons_same, counters_cons_same, cons_append,
      ih (fun x hx => htimes x (mem_cons_of_mem _ hx))]

lemma start_mem_counters (h : ∃ t ∈ times, t ≠ last) :
    objIdStart objType ∈ counters objType last counter times := by
  induction times generalizing counter last with
  | nil => simp at h
  | cons t times ih =>
    by_cases ht : last = t
    · subst ht
      rw [counters_cons_same]
      apply mem_cons_of_mem
      apply ih
      obtain ⟨x, hx, hne⟩ := h
      rcases mem_cons.mp hx with rfl | hx
      · exact absurd rfl hne
      · exact ⟨x, hx, hne⟩
    · rw [counters_cons_other ht]
      exact mem_cons_self

lemma forall_dropLast_cons : (∀ t ∈ (last :: times).dropLast, t = last) ↔ ∀ t ∈ times.dropLast, t = last := by
  cases times with
  | nil => simp
  | cons t times => simp [dropLast_cons_cons]

/-- After a first call in the second of the constructor, a call in another second brings a value of the
counter again, unless it is the last. -/
lemma counters_again (hlater : ¬∀ t ∈ times.dropLast, t = last) :
    ∃ value, (value = objIdStart objType ∨ value = objIdStart objType + 1) ∧
      [value, value].Sublist ((objIdStart objType + 1) :: counters objType last counter times) := by
  induction times generalizing counter with
  | nil => simp at hlater
  | cons t times ih =>
    cases times with
    | nil => simp at hlater
    | cons t' times =>
      by_cases ht : last = t
      · subst ht
        rw [forall_dropLast_cons] at hlater
        obtain ⟨value, hvalue, hsub⟩ := @ih (cInt (counter + 1)) hlater
        refine ⟨value, hvalue, hsub.trans ?_⟩
        rw [counters_cons_same]
        exact (sublist_cons_self _ _).cons_cons _
      · have hstart : cInt (objIdStart objType + 1) = objIdStart objType + 1 := by
          have hrange := objIdStart_range objType
          exact cInt_of_le (by omega) (by omega)
        rw [counters_cons_other ht]
        by_cases ht' : t = t'
        · subst ht'
          refine ⟨objIdStart objType + 1, .inr rfl, ?_⟩
          rw [counters_cons_same, hstart]
          simp
        · refine ⟨objIdStart objType, .inl rfl, ?_⟩
          rw [counters_cons_other ht']
          apply List.Sublist.cons
          simp

lemma CountersUnique.not_again (hunique : CountersUnique objType values) (hlow : -2 ^ 31 ≤ counter)
    (hle : counter ≤ objIdEnd objType) : ¬[counter, counter].Sublist values := by
  intro hsub
  have hids := (hsub.map (idOf objType)).filter (· ≠ invalidObjId)
  have hvalid := (idOf_ne_invalid hlow).mpr hle
  simp only [map_cons, map_nil, filter_cons, ne_eq, hvalid, not_false_eq_true, decide_true,
    if_true, filter_nil] at hids
  exact nodup_iff_sublist.mp hunique.1 _ hids

lemma CountersUnique.no_overflow (hunique : CountersUnique objType values) : -2 ^ 31 ∉ values := by
  intro hmem
  have hcode := code_range objType
  have hrange := objIdStart_range objType
  have htype := hunique.2 _ hmem ((idOf_ne_invalid (by omega)).mpr (by omega))
  rw [idOf_of_le (by omega), id2Type_ofInt (by omega) (by omega)] at htype
  omega

lemma countersUnique_of_nodup (hnodup : values.Nodup) (hlow : ∀ value ∈ values, objIdStart objType ≤ value) :
    CountersUnique objType values := by
  have hrange := objIdStart_range objType
  have hle : ∀ value ∈ values, idOf objType value ≠ invalidObjId → value ≤ objIdEnd objType := by
    intro value hvalue hvalid
    have hstart := hlow value hvalue
    exact (idOf_ne_invalid (by omega)).mp hvalid
  constructor
  · unfold List.Nodup at hnodup ⊢
    rw [pairwise_filter, pairwise_map]
    apply hnodup.imp_of_mem
    intro a b ha hb hne hvalid hvalid' heq
    have hstart := hlow a ha
    have hstart' := hlow b hb
    exact hne (idOf_injective (by omega) (hle a ha (by simpa using hvalid)) (by omega)
      (hle b hb (by simpa using hvalid')) heq)
  · intro value hvalue hvalid
    exact id2Type_idOf (hlow value hvalue) (hle value hvalue hvalid)

section

variable (htimes : ∀ t ∈ times, t = last)
include htimes

lemma repeats_same : repeats last times = times.length := by
  induction times with
  | nil => rfl
  | cons t times ih =>
    obtain rfl : t = last := htimes t mem_cons_self
    rw [repeats, if_pos rfl, ih (fun x hx => htimes x (mem_cons_of_mem _ hx)), length_cons, Nat.add_comm]

lemma repeats_append_other (hsecond : second ≠ last) : repeats last (times ++ [second]) = times.length := by
  induction times with
  | nil => simp [repeats, hsecond.symm]
  | cons t times ih =>
    obtain rfl : t = last := htimes t mem_cons_self
    rw [cons_append, repeats, if_pos rfl, ih (fun x hx => htimes x (mem_cons_of_mem _ hx)),
      length_cons, Nat.add_comm]

/-- Besides the counters of calls in one second only their start may be there. -/
lemma countersUnique_same (hmem : counters objType last (objIdStart objType) times ⊆ values)
    (hsub : values <+~ objIdStart objType :: counters objType last (objIdStart objType) times) :
    CountersUnique objType values ↔ objIdStart objType + times.length < 2 ^ 31 := by
  have hrange := objIdStart_range objType
  constructor
  · intro hunique
    by_contra hover
    exact hunique.no_overflow (hmem (counters_overflow htimes (by omega) (by omega) (by omega)))
  · intro hcount
    obtain ⟨hpairwise, hbounds⟩ := counters_same htimes (by omega) hcount
    have hlt := pairwise_cons.mpr ⟨fun value hvalue => (hbounds value hvalue).1, hpairwise⟩
    obtain ⟨values', hperm, hsublist⟩ := hsub
    apply countersUnique_of_nodup
    · exact hperm.nodup_iff.mp (hsublist.nodup (hlt.imp Int.ne_of_lt))
    · intro value hvalue
      rcases mem_cons.mp (hsublist.subset (hperm.mem_iff.mpr hvalue)) with rfl | hvalue
      · exact Int.le_refl _
      · exact Int.le_of_lt (hbounds value hvalue).1

end

lemma countersUnique_first (hsecond : last ≠ second) :
    CountersUnique objType (counters objType last (objIdStart objType) (second :: times)) ↔
      (∀ t ∈ times, t = second) ∧ objIdStart objType + times.length < 2 ^ 31 := by
  have hrange := objIdStart_range objType
  rw [counters_cons_other hsecond]
  by_cases htimes : ∀ t ∈ times, t = second
  · rw [countersUnique_same htimes (subset_cons_self _ _) (.refl _)]
    exact (and_iff_right htimes).symm
  · refine iff_of_false ?_ fun h => htimes h.1
    intro hunique
    push Not at htimes
    have hmem : objIdStart objType ∈ counters objType second (objIdStart objType) times :=
      start_mem_counters htimes
    apply hunique.not_again (by omega) (show objIdStart objType ≤ objIdEnd objType by omega)
    exact (singleton_sublist.mpr hmem).cons_cons _

lemma countersUnique_iff :
    CountersUnique objType (counters objType last (objIdStart objType) times) ↔ OneSecond objType last times := by
  have hrange := objIdStart_range objType
  by_cases hall : ∀ t ∈ times, t = last
  · rw [countersUnique_same hall (Subset.refl _) (sublist_cons_self _ _).subperm]
    constructor
    · intro hcount
      exact ⟨.inl ⟨last, hall⟩, by rwa [repeats_same hall]⟩
    · intro hone
      rw [← repeats_same hall]
      exact hone.count
  by_cases hdrop : ∀ t ∈ times.dropLast, t = last
  · rcases eq_nil_or_concat times with rfl | ⟨before, second, rfl⟩
    · exact absurd (by simp) hall
    · rw [concat_eq_append] at hall hdrop ⊢
      rw [dropLast_concat] at hdrop
      have hsecond : second ≠ last := by
        rintro rfl
        exact hall fun t ht => (mem_append.mp ht).elim (hdrop t) mem_singleton.mp
      rw [counters_append_other hdrop hsecond,
        countersUnique_same hdrop (subset_append_left _ _) (perm_append_singleton _ _).subperm,
        ← repeats_append_other hdrop hsecond]
      exact ⟨fun hcount => ⟨.inr (by rwa [dropLast_concat]), hcount⟩, fun hone => hone.count⟩
  -- a call follows on a call in another second than that of the constructor
  cases times with
  | nil => exact absurd (by simp) hall
  | cons t times =>
    by_cases ht : last = t
    · subst ht
      constructor
      · intro hunique
        rw [counters_cons_same, cInt_of_le (by omega) (by omega)] at hunique
        rw [forall_dropLast_cons] at hdrop
        obtain ⟨value, hvalue, hsub⟩ := counters_again hdrop
        exact absurd hsub (hunique.not_again (by omega) (by omega))
      · intro hone
        rcases hone.seconds with ⟨second, hsecond⟩ | hseconds
        · exfalso
          apply hall
          intro x hx
          rw [hsecond x hx, hsecond last mem_cons_self]
        · exact absurd hseconds hdrop
    · rw [countersUnique_first ht]
      constructor
      · rintro ⟨htimes, hcount⟩
        refine ⟨.inl ⟨t, ?_⟩, ?_⟩
        · exact forall_mem_cons.mpr ⟨rfl, htimes⟩
        · rwa [repeats, if_neg ht, repeats_same htimes, Nat.zero_add]
      · intro hone
        rcases hone.seconds with ⟨second, hsecond⟩ | hseconds
        · have htimes : ∀ x ∈ times, x = t := by
            intro x hx
            rw [hsecond x (mem_cons_of_mem _ hx), hsecond t mem_cons_self]
          have hcount := hone.count
          rw [repeats, if_neg ht, repeats_same htimes, Nat.zero_add] at hcount
          exact ⟨htimes, hcount⟩
        · exact absurd hseconds hdrop

end Counters

section Managers

variable {ι : Type} [DecidableEq ι]

def callTimes (calls : List (ι × Int)) (i : ι) : List Int :=
  (calls.filter (·.1 = i)).map (fun call => cInt call.2)

lemma nodup_iff_of_keys {α : Type} {l : List (ι × α)} (hkeys : ∀ x ∈ l, ∀ y ∈ l, x.2 = y.2 → x.1 = y.1) :
    (l.map Prod.snd).Nodup ↔ ∀ i, ((l.filter (·.1 = i)).map Prod.snd).Nodup := by
  unfold List.Nodup
  simp only [pairwise_map, pairwise_filter]
  constructor
  · intro hpairwise i
    exact hpairwise.imp (fun hne _ _ => hne)
  · intro hall
    have hsame : l.Pairwise (fun x y => x.1 = y.1 → x.2 ≠ y.2) := by
      clear hkeys
      induction l with
      | nil => exact List.Pairwise.nil
      | cons x l ih =>
        rw [pairwise_cons]
        constructor
        · intro y hy heq
          exact (pairwise_cons.mp (hall x.1)).1 y hy (by simp) (by simp [heq])
        · exact ih (fun i => (pairwise_cons.mp (hall i)).2)
    apply hsame.imp_of_mem
    intro x y hx hy hne heq
    exact hne (hkeys x hx y hy heq) heq

lemma serve_filter (managers : ι → ObjectManager) (calls : List (ι × Int)) (i : ι) :
    ((serve managers calls).filter (·.1 = i)).map Prod.snd =
      (counters (managers i).objType (managers i).lastGetTime (managers i).lastUsedId (callTimes calls i)).map
        (idOf (managers i).objType) := by
  induction calls generalizing managers with
  | nil => rfl
  | cons call calls ih =>
    obtain ⟨j, clock⟩ := call
    rw [serve, getValidId_eq]
    by_cases hij : j = i
    · subst hij
      have htimes : callTimes ((j, clock) :: calls) j = cInt clock :: callTimes calls j := by
        simp [callTimes]
      rw [filter_cons_of_pos (by simp), map_cons, ih, htimes, update_self]
      by_cases hsame : (managers j).lastGetTime = cInt clock
      · have hadvance : (managers j).advance (cInt clock) =
            { managers j with lastUsedId := cInt ((managers j).lastUsedId + 1) } := if_pos hsame
        rw [hadvance, ← hsame, counters_cons_same, map_cons]
      · have hadvance : (managers j).advance (cInt clock) =
            { managers j with lastGetTime := cInt clock, lastUsedId := objIdStart (managers j).objType } :=
          if_neg hsame
        rw [hadvance, counters_cons_other hsame, map_cons]
    · have htimes : callTimes ((j, clock) :: calls) i = callTimes calls i := by
        simp [callTimes, hij]
      rw [filter_cons_of_neg (by simpa using hij), ih, htimes, update_of_ne (Ne.symm hij)]

lemma uniqueIds_iff {objType : ι → ObjType} (hdiff : Injective (fun i => (objType i).code))
    (ids : List (ι × ObjId)) :
    DistinctIds objType ids ↔ ∀ i, (((ids.filter (·.1 = i)).map Prod.snd).filter (· ≠ invalidObjId)).Nodup ∧
      ∀ id ∈ (ids.filter (·.1 = i)).map Prod.snd, id ≠ invalidObjId → id2Type id = (objType i).code := by
  generalize hvalid : ids.filter (fun x => decide (x.2 ≠ invalidObjId)) = valid
  have htypes : (∀ x ∈ ids, x.2 ≠ invalidObjId → id2Type x.2 = (objType x.1).code) ↔
      ∀ i, ∀ id ∈ (ids.filter (·.1 = i)).map Prod.snd, id ≠ invalidObjId → id2Type id = (objType i).code := by
    constructor
    · intro hall i id hid
      obtain ⟨x, hx, rfl⟩ := mem_map.mp hid
      obtain ⟨hx, hxi⟩ := mem_filter.mp hx
      rw [← of_decide_eq_true hxi]
      exact hall x hx
    · intro hall x hx
      exact hall x.1 x.2 (mem_map.mpr ⟨x, by simp [hx], rfl⟩)
  have hnodup : (∀ x ∈ ids, x.2 ≠ invalidObjId → id2Type x.2 = (objType x.1).code) →
      (((ids.map Prod.snd).filter (· ≠ invalidObjId)).Nodup ↔
        ∀ i, (((ids.filter (·.1 = i)).map Prod.snd).filter (· ≠ invalidObjId)).Nodup) := by
    intro hall
    have hkeys : ∀ x ∈ valid, ∀ y ∈ valid, x.2 = y.2 → x.1 = y.1 := by
      intro x hx y hy heq
      rw [← hvalid, mem_filter] at hx hy
      apply hdiff
      dsimp only
      rw [← hall x hx.1 (of_decide_eq_true hx.2), ← hall y hy.1 (of_decide_eq_true hy.2), heq]
    have hiff := nodup_iff_of_keys hkeys
    rw [← hvalid] at hiff
    simpa only [filter_map, filter_filter, comp_def, Bool.and_comm] using hiff
  rw [forall_and, ← htypes]
  unfold DistinctIds
  constructor
  · rintro ⟨hids, hall⟩
    exact ⟨(hnodup hall).mp hids, hall⟩
  · rintro ⟨hids, hall⟩
    exact ⟨(hnodup hall).mpr hids, hall⟩

/-- The ids of managers of pairwise different types are unique if and only if the calls on each manager are
all in one second, but for a last one after calls in the second in which the manager was made. -/
theorem uniqueIds_serve_iff {objType : ι → ObjType} (created : ι → Int)
    (hdiff : Injective (fun i => (objType i).code)) (calls : List (ι × Int)) :
    DistinctIds objType (serve (fun i => ObjectManager.new (objType i) (created i)) calls) ↔
      ∀ i, OneSecond (objType i) (cInt (created i)) (callTimes calls i) := by
  rw [uniqueIds_iff hdiff]
  apply forall_congr'
  intro i
  rw [serve_filter]
  rw [← countersUnique_iff]
  unfold CountersUnique
  simp only [forall_mem_map]
  rfl

end Managers

/-- The managers of timers and of sessions, called in turn within one second. -/
theorem uniqueIds_serve_second :
    DistinctIds (fun timer : Bool => if timer then ObjType.gamerTimer else ObjType.sessionTimer)
      (serve (fun timer => ObjectManager.new (if timer then .gamerTimer else .sessionTimer) 1700000000)
        [(true, 1700000001), (false, 1700000001), (true, 1700000001), (false, 1700000001)]) := by
  have hdiff : Injective
      (fun timer : Bool => (if timer then ObjType.gamerTimer else ObjType.sessionTimer).code) := by
    intro a b hab
    cases a <;> cases b <;> first | rfl | exact absurd hab (by decide)
  apply (uniqueIds_serve_iff (fun _ => 1700000000) hdiff _).mpr
  intro timer
  refine ⟨.inl ⟨1700000001, ?_⟩, ?_⟩
  · cases timer <;> decide
  · cases timer <;> decide

/-- Two sessions of two seconds get the same id. -/
theorem sessions_share_id :
    ¬DistinctIds (fun _ : Unit => ObjType.sessionTimer)
      (serve (fun _ => ObjectManager.new .sessionTimer 1700000000) [((), 1700000001), ((), 1700000002)]) := by
  intro hunique
  exact absurd hunique.1 (by decide)

end MyLibevent.Proofs
