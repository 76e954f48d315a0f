import MyLibevent.Vhost

/-!
# A pattern that ends with a star matches nothing

The loop behind a `*` does not try the end of the name, where only the empty rest of a pattern matches.
-/

namespace MyLibevent.Proofs

open List

variable {pattern name : Bytes}

lemma matchSuffix_iff (rest : Bytes → Bool) (name : Bytes) :
    matchSuffix rest name ↔ ∃ any tail, name = any ++ tail ∧ tail ≠ [] ∧ rest tail := by
  induction name with
  | nil => simp [matchSuffix]
  | cons c name ih =>
    rw [matchSuffix, Bool.or_eq_true, ih]
    constructor
    · rintro (h | ⟨any, tail, rfl, hne, h⟩)
      · exact ⟨[], c :: name, rfl, cons_ne_nil c name, h⟩
      · exact ⟨c :: any, tail, rfl, hne, h⟩
    · rintro ⟨any, tail, heq, hne, h⟩
      cases any with
      | nil => exact Or.inl (heq ▸ h)
      | cons d any =>
        obtain ⟨rfl, rfl⟩ := cons.inj heq
        exact Or.inr ⟨any, tail, rfl, hne, h⟩

lemma shellMatch_of_prefixSuffixMatch (h : prefixSuffixMatch true pattern name) : ShellMatch pattern name := by
  induction pattern generalizing name with
  | nil =>
    obtain rfl : name = [] := isEmpty_iff.1 h
    exact .nil
  | cons c pattern ih =>
    unfold prefixSuffixMatch at h
    split_ifs at h with hc
    · obtain ⟨any, tail, rfl, -, h⟩ := (matchSuffix_iff _ _).1 h
      exact hc ▸ .star any (ih h)
    · split at h
      · cases h
      · rename_i d name
        split at h
        · cases h
        · rename_i hcd
          refine .char hc ?_ (ih h)
          by_contra hne
          exact hcd ⟨fun heq => hne (congrArg toLower heq), Or.inr hne⟩

lemma ShellMatch.ne_nil (h : ShellMatch pattern name) (hne : pattern ≠ [])
    (hend : pattern.getLast? ≠ some (byte '*')) : name ≠ [] := by
  induction h with
  | nil => exact absurd rfl hne
  | @star pattern name any h ih =>
    cases pattern with
    | nil => exact absurd rfl hend
    | cons c pattern => exact append_ne_nil_of_right_ne_nil any (ih (cons_ne_nil c pattern) hend)
  | char => exact cons_ne_nil _ _

lemma prefixSuffixMatch_of_shellMatch (h : ShellMatch pattern name)
    (hend : pattern.getLast? ≠ some (byte '*')) : prefixSuffixMatch true pattern name := by
  induction h with
  | nil => rfl
  | @star pattern name any h ih =>
    cases pattern with
    | nil => exact absurd rfl hend
    | cons c pattern =>
      unfold prefixSuffixMatch
      rw [if_pos rfl, matchSuffix_iff]
      exact ⟨any, name, rfl, ShellMatch.ne_nil h (cons_ne_nil c pattern) hend, ih hend⟩
  | @char c d pattern name hc hcd h ih =>
    unfold prefixSuffixMatch
    rw [if_neg hc]
    dsimp only
    rw [if_neg (by simp [hcd])]
    apply ih
    cases pattern with
    | nil => exact nofun
    | cons => exact hend

lemma prefixSuffixMatch_star (hend : pattern.getLast? = some (byte '*')) (ignorecase : Bool)
    (name : Bytes) : prefixSuffixMatch ignorecase pattern name = false := by
  induction pattern generalizing name with
  | nil => cases hend
  | cons c pattern ih =>
    rw [← Bool.not_eq_true]
    unfold prefixSuffixMatch
    cases pattern with
    | nil =>
      obtain rfl : c = byte '*' := Option.some.inj hend
      rw [if_pos rfl, matchSuffix_iff]
      rintro ⟨any, tail, rfl, hne, h⟩
      exact hne (isEmpty_iff.1 h)
    | cons d pattern =>
      split
      · rw [matchSuffix_iff]
        rintro ⟨any, tail, rfl, -, h⟩
        rw [ih hend] at h
        cases h
      · split
        · exact nofun
        · split
          · exact nofun
          · rw [ih hend]
            exact nofun

/-- The result is that of shell matching exactly if the pattern does not end with a star, or the name does not
match it. -/
theorem prefixSuffixMatch_shell_iff (pattern name : Bytes) :
    (prefixSuffixMatch true pattern name ↔ ShellMatch pattern name) ↔
      pattern.getLast? ≠ some (byte '*') ∨ ¬ShellMatch pattern name := by
  by_cases hend : pattern.getLast? = some (byte '*')
  · rw [prefixSuffixMatch_star hend]
    simp [hend]
  · have hiff : prefixSuffixMatch true pattern name ↔ ShellMatch pattern name :=
      ⟨shellMatch_of_prefixSuffixMatch, fun h => prefixSuffixMatch_of_shellMatch h hend⟩
    simp [hiff, hend]

/-- The pattern `*` does not match the name `a`. -/
theorem prefixSuffixMatch_star_fails :
    ShellMatch (bytes "*") (bytes "a") ∧ prefixSuffixMatch true (bytes "*") (bytes "a") = false :=
  ⟨.star (bytes "a") .nil, by decide⟩

end MyLibevent.Proofs
