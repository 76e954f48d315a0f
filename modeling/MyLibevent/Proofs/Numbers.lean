import MyLibevent.Numbers
import MyLibevent.Lib.Numeral
import MyLibevent.Proofs.Lines

/-!
# Numbers in text

`strtoll` reads back what `%d` and `%x` have written, up to the character that ends the number.
-/

namespace MyLibevent.Proofs

open List Numeral

section Digits

variable {b : Nat} {ds : List Nat} {p s blanks sign digits rest : Bytes} {neg : Bool}

lemma hexDigit_spec : ∀ d < 16, isXdigit (hexDigit d) ∧
    isSpace (hexDigit d) = false ∧ hexDigit d ≠ byte '-' ∧ hexDigit d ≠ byte '+' ∧
    hexDigit d ≠ byte 'x' ∧ hexDigit d ≠ byte 'X' := by
  decide

lemma digitValue_hexDigit : ∀ b ≤ 16, ∀ d < b, digitValue b (hexDigit d) = some d := by
  decide

lemma digitChar_spec {c : UInt8} : ∀ b ≤ 16, (digitValue b c).isSome → isSpace c = false ∧
    c ≠ byte '-' ∧ c ≠ byte '+' ∧ c ≠ byte 'x' ∧ c ≠ byte 'X' ∧ c ≠ 0 := by
  revert c
  apply forall_byte
  decide +kernel

/-- The value of each character is the digit below it. -/
abbrev IsDigits (b : Nat) (digits : Bytes) (ds : List Nat) : Prop :=
  Forall₂ (fun c d => digitValue b c = some d) digits ds

lemma isDigits_map (hb : b ≤ 16) (hlt : ∀ d ∈ ds, d < b) : IsDigits b (ds.map hexDigit) ds :=
  forall₂_map_left_iff.2 (forall₂_same.2 fun d hd => digitValue_hexDigit b hb d (hlt d hd))

def EndsNumber (b : Nat) (rest : Bytes) : Prop :=
  ∀ c ∈ rest.head?, digitValue b c = none ∧ c ≠ byte 'x' ∧ c ≠ byte 'X'

lemma endsNumber_nil (b : Nat) : EndsNumber b [] := by
  intro c hc
  cases hc

lemma endsNumber_cons {c : UInt8} (h : digitValue b c = none ∧ c ≠ byte 'x' ∧ c ≠ byte 'X') :
    EndsNumber b (c :: rest) := by
  intro d hd
  cases hd
  exact h

lemma readDigits_append (h : IsDigits b digits ds) (hrest : ∀ c ∈ rest.head?, digitValue b c = none)
    (acc : Nat) : readDigits b acc (digits ++ rest) = (value b acc ds, rest) := by
  induction h generalizing acc with
  | nil =>
    cases rest with
    | nil => rfl
    | cons c rest => simp [readDigits, hrest c rfl, value]
  | cons hc _ ih =>
    rw [cons_append, readDigits, hc]
    exact ih _

/-- The text `p` is blanks, a sign or none, and `s`. -/
structure AfterSign (p blanks sign : Bytes) (neg : Bool) (s : Bytes) : Prop where
  eq : p = blanks ++ (sign ++ s)
  isBlank : ∀ c ∈ blanks, isSpace c
  isSign : sign = [] ∧ neg = false ∨ sign = bytes "+" ∧ neg = false ∨ sign = bytes "-" ∧ neg
  next : sign = [] → ∀ c ∈ s.head?, isSpace c = false ∧ c ≠ byte '-' ∧ c ≠ byte '+'

lemma AfterSign.skip (h : AfterSign p blanks sign neg s) : skipSign (p.dropWhile isSpace) = (neg, s) := by
  obtain ⟨rfl, hblanks, hsign, hnext⟩ := h
  rw [dropWhile_append_of_pos hblanks]
  rcases hsign with ⟨rfl, rfl⟩ | ⟨rfl, rfl⟩ | ⟨rfl, rfl⟩
  · cases s with
    | nil => rfl
    | cons c s =>
      obtain ⟨hspace, hminus, hplus⟩ := hnext rfl c rfl
      simp [hspace, skipSign, hminus, hplus]
  · rfl
  · rfl

lemma afterSign_digits (hb : b ≤ 16) (h : IsDigits b digits ds) (hne : digits ≠ []) :
    AfterSign (digits ++ rest) [] [] false (digits ++ rest) := by
  refine ⟨rfl, nofun, Or.inl ⟨rfl, rfl⟩, ?_⟩
  rintro - c hc
  cases h with
  | nil => exact absurd rfl hne
  | cons hd =>
    cases hc
    obtain ⟨hspace, hminus, hplus, -⟩ := digitChar_spec b hb (by rw [hd]; rfl)
    exact ⟨hspace, hminus, hplus⟩

lemma skipHexPrefix_of_second (h : ∀ x ∈ (s.drop 1).head?, x ≠ byte 'x' ∧ x ≠ byte 'X') :
    skipHexPrefix b s = s := by
  match s with
  | [] => rfl
  | [_] => rfl
  | [_, _] => rfl
  | c :: x :: d :: s =>
    obtain ⟨hx, hX⟩ := h x rfl
    simp [skipHexPrefix, hx, hX]

lemma skipHexPrefix_digits (hb : b ≤ 16) (h : IsDigits b digits ds) (hne : digits ≠ [])
    (hrest : EndsNumber b rest) : skipHexPrefix b (digits ++ rest) = digits ++ rest := by
  apply skipHexPrefix_of_second
  intro x hx
  cases h with
  | nil => exact absurd rfl hne
  | cons _ h =>
    cases h with
    | nil => exact (hrest x hx).2
    | cons hd =>
      cases hx
      obtain ⟨-, -, -, hx, hX, -⟩ := digitChar_spec b hb (by rw [hd]; rfl)
      exact ⟨hx, hX⟩

/-- What `strtoll` returns for digits after a minus, or after none. -/
def readValue (neg : Bool) (n : Nat) : Int := if neg then max (-(n : Int)) (-2 ^ 63) else min (n : Int) (2 ^ 63 - 1)

lemma strtoll_digits (h : AfterSign p blanks sign neg s) (hskip : skipHexPrefix b s = digits ++ rest)
    (hdigits : IsDigits b digits ds) (hne : digits ≠ []) (hrest : ∀ c ∈ rest.head?, digitValue b c = none) :
    strtoll b p = (readValue neg (value b 0 ds), rest) := by
  have hread := readDigits_append hdigits hrest 0
  unfold strtoll
  rw [h.skip]
  dsimp only
  rw [hskip]
  cases hdigits with
  | nil => exact absurd rfl hne
  | cons hc =>
    rw [cons_append] at hread ⊢
    dsimp only
    rw [if_neg (by simp [hc]), hread]
    rfl

lemma strtoll_append (hb : b ≤ 16) (hdigits : IsDigits b digits ds) (hne : digits ≠ [])
    (hrest : EndsNumber b rest) (hval : value b 0 ds < 2 ^ 63) :
    strtoll b (digits ++ rest) = ((value b 0 ds : Int), rest) := by
  rw [strtoll_digits (afterSign_digits hb hdigits hne) (skipHexPrefix_digits hb hdigits hne hrest) hdigits hne
    fun c hc => (hrest c hc).1, readValue, if_neg Bool.false_ne_true, min_eq_left (by omega)]

end Digits

section Hex

variable (n : Nat)

lemma formatHex_eq : formatHex n = (digits 16 n).map hexDigit := by
  unfold formatHex digits
  split <;> rfl

lemma hexDigits_lt : ∀ d ∈ digits 16 n, d < 16 :=
  digits_lt (by omega)

lemma formatHex_isXdigit : ∀ c ∈ formatHex n, isXdigit c := by
  rw [formatHex_eq]
  intro c hc
  obtain ⟨d, hd, rfl⟩ := mem_map.1 hc
  exact (hexDigit_spec d (hexDigits_lt n d hd)).1

lemma notMem_formatHex {c : UInt8} (hc : isXdigit c = false) (n : Nat) : c ∉ formatHex n := by
  intro hmem
  rw [formatHex_isXdigit n c hmem] at hc
  cases hc

lemma formatHex_ne_nil : formatHex n ≠ [] := by
  rw [formatHex_eq]
  simpa using digits_ne_nil 16 n

lemma strtoll_formatHex_append {n : Nat} (h : n < 2 ^ 63) {rest : Bytes}
    (hrest : EndsNumber 16 rest) : strtoll 16 (formatHex n ++ rest) = ((n : Int), rest) := by
  have hval := value_digits 16 n
  have hne := formatHex_ne_nil n
  rw [formatHex_eq] at hne ⊢
  rw [strtoll_append le_rfl (isDigits_map le_rfl (hexDigits_lt n)) hne hrest (by omega), hval]

lemma strtoll_formatHex (h : n < 2 ^ 63) : strtoll 16 (formatHex n) = ((n : Int), []) := by
  have hread := strtoll_formatHex_append h (endsNumber_nil 16)
  rwa [append_nil] at hread

end Hex

section Decimal

def digitOf (c : UInt8) : Nat := c.toNat - 48

lemma digitOf_spec (c : UInt8) : isDigit c → digitOf c < 10 ∧ hexDigit (digitOf c) = c := by
  revert c
  apply forall_byte
  decide +kernel

lemma isDigit_hexDigit : ∀ d < 10, isDigit (hexDigit d) ∧ digitOf (hexDigit d) = d := by
  decide

variable (n : Nat)

lemma formatDecimal_eq : formatDecimal n = (digits 10 n).map hexDigit := by
  unfold formatDecimal digits
  split <;> rfl

lemma formatDecimal_isDigit : ∀ c ∈ formatDecimal n, isDigit c := by
  rw [formatDecimal_eq]
  intro c hc
  obtain ⟨d, hd, rfl⟩ := mem_map.1 hc
  exact (isDigit_hexDigit d (digits_lt (by omega) d hd)).1

lemma notMem_formatDecimal {c : UInt8} (hc : isDigit c = false) (n : Nat) : c ∉ formatDecimal n := by
  intro hmem
  rw [formatDecimal_isDigit n c hmem] at hc
  cases hc

lemma formatDecimal_ne_nil : formatDecimal n ≠ [] := by
  rw [formatDecimal_eq]
  simpa using digits_ne_nil 10 n

lemma map_digitOf_formatDecimal : (formatDecimal n).map digitOf = digits 10 n := by
  rw [formatDecimal_eq, map_map]
  refine (map_congr_left fun d hd => ?_).trans (map_id _)
  exact (isDigit_hexDigit d (digits_lt (by omega) d hd)).2

lemma map_hexDigit_digitOf {s : Bytes} (h : ∀ c ∈ s, isDigit c) : (s.map digitOf).map hexDigit = s := by
  rw [map_map]
  exact (map_congr_left fun c hc => (digitOf_spec c (h c hc)).2).trans (map_id _)

lemma decimalDigits_lt : ∀ d ∈ digits 10 n, d < 10 :=
  digits_lt (by omega)

lemma strtoll_formatDecimal {n : Nat} (h : n < 2 ^ 63) : strtoll 10 (formatDecimal n) = ((n : Int), []) := by
  have hval := value_digits 10 n
  have hne := formatDecimal_ne_nil n
  rw [formatDecimal_eq] at hne ⊢
  have hread := strtoll_append (by omega) (isDigits_map (by omega) (decimalDigits_lt n)) hne
    (endsNumber_nil 10) (by omega)
  rwa [append_nil, hval] at hread

end Decimal

end MyLibevent.Proofs
