import MyLibevent.UriQuery
import MyLibevent.Proofs.Uri

/-!
# Queries are parsed as they were encoded

The decoder counts characters in 32 bits: a value whose encoded form does not fit is never decoded.
-/

namespace MyLibevent.Proofs

open ListTrim List

section Decoding

variable {spaceAsPlus : Bool} {t : Bytes}

def encodedLength (spaceAsPlus : Bool) (value : Bytes) : Nat :=
  (value.map fun c => if charIsUnreserved c || (c == byte ' ' && spaceAsPlus) then 1 else 3).sum

def uriencode (spaceAsPlus : Bool) (value : Bytes) : Bytes :=
  value.flatMap (uriencodeChar spaceAsPlus)

lemma length_uriencode (spaceAsPlus : Bool) (value : Bytes) :
    (uriencode spaceAsPlus value).length = encodedLength spaceAsPlus value := by
  induction value with
  | nil => rfl
  | cons c value ih =>
    have hchar : (uriencodeChar spaceAsPlus c).length =
        if charIsUnreserved c || (c == byte ' ' && spaceAsPlus) then 1 else 3 := by
      unfold uriencodeChar
      cases charIsUnreserved c <;> cases c == byte ' ' && spaceAsPlus <;> rfl
    unfold uriencode at ih ⊢
    rw [flatMap_cons, length_append, ih, hchar]
    rfl

lemma uriencodeChar_cases (spaceAsPlus : Bool) (c : UInt8) :
    (uriencodeChar spaceAsPlus c = [c] ∧ charIsUnreserved c) ∨
    (uriencodeChar spaceAsPlus c = [byte '+'] ∧ c = byte ' ') ∨
    uriencodeChar spaceAsPlus c = [byte '%', upperHexDigit (c.toNat / 16), upperHexDigit (c.toNat % 16)] := by
  unfold uriencodeChar
  split
  · rename_i h
    exact .inl ⟨rfl, h⟩
  · split_ifs with h
    · simp only [Bool.and_eq_true, beq_iff_eq] at h
      exact .inr (.inl ⟨rfl, h.1⟩)
    · exact .inr (.inr rfl)

lemma unreserved_plain (c : UInt8) : charIsUnreserved c →
    (c == byte '?') = false ∧ (c == byte '+') = false ∧ (c == byte '%') = false := by
  revert c
  apply forall_byte
  decide +kernel

lemma upperHex_spec (c : UInt8) :
    isXdigit (upperHexDigit (c.toNat / 16)) ∧
    isXdigit (upperHexDigit (c.toNat % 16)) ∧
    UInt8.ofInt (strtoll 16 [upperHexDigit (c.toNat / 16), upperHexDigit (c.toNat % 16)]).1 = c := by
  revert c
  apply forall_byte
  decide +kernel

lemma getD_of_drop {s : Bytes} {i : Nat} {c : UInt8} (h : t.drop i = c :: s) (k : Nat) :
    t.getD (i + k) 0 = (c :: s).getD k 0 := by
  rw [← h, getD_eq_getElem?_getD, getD_eq_getElem?_getD, getElem?_drop]

lemma toNat_add_of_lt {i k : UInt32} (h : i.toNat + k.toNat < 2 ^ 32) : (i + k).toNat = i.toNat + k.toNat := by
  rw [UInt32.toNat_add, Nat.mod_eq_of_lt h]

lemma decodeUriLoop_uriencode (hlen : t.length < 2 ^ 32) (value : Bytes) (i : UInt32)
    (room : Nat) (hroom : value.length ≤ room) (ht : t.drop i.toNat = uriencode spaceAsPlus value) :
    decodeUriLoop t t.length 1 room i true = some value := by
  induction value generalizing i room with
  | nil =>
    have hend : ¬ i.toNat < t.length := Nat.not_lt.mpr (drop_eq_nil_iff.mp ht)
    cases room with
    | zero => exact if_neg hend
    | succ room => exact if_neg hend
  | cons c value ih =>
    obtain ⟨room, rfl⟩ : ∃ r, room = r + 1 := ⟨room - 1, by simp at hroom; omega⟩
    have hroom' : value.length ≤ room := by simpa using hroom
    have hdrop : t.drop i.toNat = uriencodeChar spaceAsPlus c ++ uriencode spaceAsPlus value := ht
    have hlong : (uriencodeChar spaceAsPlus c).length ≤ t.length - i.toNat := by
      rw [← length_drop, hdrop, length_append]
      omega
    have hnext {k : UInt32} (hk : k.toNat = (uriencodeChar spaceAsPlus c).length)
        (hpos : 0 < k.toNat) :
        i.toNat < t.length ∧ decodeUriLoop t t.length 1 room (i + k) true = some value := by
      have hadd : (i + k).toNat = i.toNat + k.toNat := toNat_add_of_lt (by omega)
      refine ⟨by omega, ih (i + k) room hroom' ?_⟩
      rw [hadd, ← drop_drop, hdrop, hk, drop_left]
    unfold decodeUriLoop
    obtain ⟨hchar, hplain⟩ | ⟨hchar, rfl⟩ | hchar := uriencodeChar_cases spaceAsPlus c
    · obtain ⟨hlt, hloop⟩ := hnext (k := 1) (by rw [hchar]; rfl) (by decide)
      rw [hchar] at hdrop
      have hc : t.getD i.toNat 0 = c := getD_of_drop hdrop 0
      obtain ⟨hq, hplus, hpct⟩ := unreserved_plain c hplain
      simp only [hlt, if_true, hc, hq, hplus, hpct, Bool.false_eq_true, if_false, Bool.false_and,
        Bool.and_false, hloop, Option.map_some]
    · obtain ⟨hlt, hloop⟩ := hnext (k := 1) (by rw [hchar]; rfl) (by decide)
      rw [hchar] at hdrop
      have hc : t.getD i.toNat 0 = byte '+' := getD_of_drop hdrop 0
      have hq : (byte '+' == byte '?') = false := by decide
      simp only [hlt, if_true, hc, hq, Bool.false_eq_true, if_false, beq_self_eq_true, Bool.and_self,
        hloop, Option.map_some]
    · obtain ⟨hlt, hloop⟩ := hnext (k := 3) (by rw [hchar]; rfl) (by decide)
      rw [hchar] at hdrop hlong
      obtain ⟨h1, h2, hval⟩ := upperHex_spec c
      have hi1 : (i + 1).toNat = i.toNat + 1 := toNat_add_of_lt (by simp at hlong ⊢; omega)
      have hi2 : (i + 2).toNat = i.toNat + 2 := toNat_add_of_lt (by simp at hlong ⊢; omega)
      have hc : t.getD i.toNat 0 = byte '%' := getD_of_drop hdrop 0
      have hd1 : t.getD (i + 1).toNat 0 = upperHexDigit (c.toNat / 16) := by
        rw [hi1]
        exact getD_of_drop hdrop 1
      have hd2 : t.getD (i + 2).toNat 0 = upperHexDigit (c.toNat % 16) := by
        rw [hi2]
        exact getD_of_drop hdrop 2
      have hin : (i + 2).toNat < t.length := by
        rw [hi2]
        simp at hlong
        omega
      have hq : (byte '%' == byte '?') = false := by decide
      have hp : (byte '%' == byte '+') = false := by decide
      simp only [hlt, if_true, hc, hq, hp, hd1, hd2, h1, h2, hval, hin, Bool.false_eq_true, if_false,
        beq_self_eq_true, Bool.and_self, Bool.false_and, decide_true, hloop, Option.map_some]

lemma decodeUri_uriencode {value : Bytes} (hvalue : value.length < 2 ^ 31)
    (hlen : encodedLength spaceAsPlus value < 2 ^ 32) :
    evhttpDecodeUriInternal (uriencode spaceAsPlus value) (uriencode spaceAsPlus value).length 1 = some value := by
  rw [← length_uriencode] at hlen
  exact decodeUriLoop_uriencode hlen value 0 _ (by omega) rfl

lemma decodeUriLoop_long {uri : Bytes} {length : Nat} (hlen : 2 ^ 32 ≤ length) (ctl : Int)
    (room : Nat) (i : UInt32) (plus : Bool) : decodeUriLoop uri length ctl room i plus = none := by
  have hlt (i : UInt32) : i.toNat < length := Nat.lt_of_lt_of_le i.toNat_lt hlen
  induction room generalizing i plus with
  | zero => exact if_pos (hlt i)
  | succ room ih =>
    unfold decodeUriLoop
    rw [if_pos (hlt i)]
    simp only [ih, Option.map_none, ite_self]

end Decoding

section Arguments

variable {spaceAsPlus : Bool} {value : Bytes} {pair : HttpHeader}

structure UnreservedKey (key : Bytes) : Prop where
  nonempty : key ≠ []
  unreserved : ∀ c ∈ key, charIsUnreserved c

structure ShortValue (value : Bytes) : Prop where
  nul : 0 ∉ value
  short : value.length < 2 ^ 31

def encodeArgument (explicitLen spaceAsPlus : Bool) (pair : HttpHeader) : Option Bytes :=
  (evhttpUriencode pair.2 (if explicitLen then pair.2.length else -1) spaceAsPlus).map (pair.1 ++ byte '=' :: ·)

def joinArguments : List Bytes → Bytes
  | [] => []
  | [argument] => argument
  | argument :: next :: arguments => argument ++ byte '&' :: joinArguments (next :: arguments)

def encodeQuery (explicitLen spaceAsPlus : Bool) (pairs : List HttpHeader) : Option Bytes :=
  (pairs.mapM (encodeArgument explicitLen spaceAsPlus)).map joinArguments

def argumentText (spaceAsPlus : Bool) (pair : HttpHeader) : Bytes :=
  pair.1 ++ byte '=' :: uriencode spaceAsPlus pair.2

lemma evhttpUriencode_eq (explicitLen : Bool) (h : ShortValue value) :
    evhttpUriencode value (if explicitLen then value.length else -1) spaceAsPlus =
      some (uriencode spaceAsPlus value) := by
  cases explicitLen with
  | true =>
    refine (if_pos (Int.natCast_nonneg _)).trans ?_
    change some ((value.take value.length).flatMap _) = _
    rw [take_length]
    rfl
  | false =>
    have hshort := h.short
    change (if (0 : Int) ≤ -1 then _ else _) = _
    rw [if_neg (by decide), cstring_eq_self h.nul, if_neg (by unfold evSsizeMax; omega)]
    rfl

lemma encodeQuery_eq (explicitLen : Bool) {pairs : List HttpHeader}
    (h : ∀ pair ∈ pairs, ShortValue pair.2) :
    encodeQuery explicitLen spaceAsPlus pairs = some (joinArguments (pairs.map (argumentText spaceAsPlus))) := by
  have harguments : pairs.mapM (encodeArgument explicitLen spaceAsPlus) =
      some (pairs.map (argumentText spaceAsPlus)) := by
    induction pairs with
    | nil => rfl
    | cons pair pairs ih =>
      have hpair : encodeArgument explicitLen spaceAsPlus pair = some (argumentText spaceAsPlus pair) := by
        unfold encodeArgument
        rw [evhttpUriencode_eq explicitLen (h pair mem_cons_self)]
        rfl
      rw [mapM_cons, hpair, ih fun p hp => h p (mem_cons_of_mem _ hp)]
      rfl
  rw [encodeQuery, harguments]
  rfl

lemma mem_uriencode {c : UInt8} (h : c ∈ uriencode spaceAsPlus value) :
    charIsUnreserved c ∨ c = byte '+' ∨ c = byte '%' := by
  obtain ⟨d, -, hd⟩ := mem_flatMap.1 h
  have hdigit : ∀ n < 16, charIsUnreserved (upperHexDigit n) := by decide
  have hlt := d.toNat_lt
  obtain ⟨hchar, hplain⟩ | ⟨hchar, -⟩ | hchar := uriencodeChar_cases spaceAsPlus d
  · rw [hchar, mem_singleton] at hd
    exact .inl (hd ▸ hplain)
  · rw [hchar, mem_singleton] at hd
    exact .inr (.inl hd)
  · simp only [hchar, mem_cons, not_mem_nil, or_false] at hd
    obtain rfl | rfl | rfl := hd
    · exact .inr (.inr rfl)
    · exact .inl (hdigit _ (by omega))
    · exact .inl (hdigit _ (by omega))

lemma not_separator (c : UInt8) : charIsUnreserved c ∨ c = byte '+' ∨ c = byte '%' →
    c ≠ byte '&' ∧ c ≠ byte '=' := by
  revert c
  apply forall_byte
  decide +kernel

variable (spaceAsPlus) in
lemma argumentText_no_separator (hkey : UnreservedKey pair.1) : byte '&' ∉ argumentText spaceAsPlus pair := by
  intro hmem
  obtain hmem | hmem := mem_append.1 hmem
  · exact (not_separator _ (.inl (hkey.unreserved _ hmem))).1 rfl
  · obtain heq | hmem := mem_cons.1 hmem
    · exact absurd heq (by decide)
    · exact (not_separator _ (mem_uriencode hmem)).1 rfl

lemma strsep_argumentText (hkey : UnreservedKey pair.1) :
    strsep (byte '=') (argumentText spaceAsPlus pair) = (pair.1, some (uriencode spaceAsPlus pair.2)) :=
  strsep_append (fun hmem => (not_separator _ (.inl (hkey.unreserved _ hmem))).2 rfl) _

lemma parseArguments_step (hkey : UnreservedKey pair.1) (hvalue : ShortValue pair.2)
    (headers : List HttpHeader) {p : Bytes} {next : Option Bytes}
    (hp : strsep (byte '&') p = (argumentText spaceAsPlus pair, next)) (hne : p ≠ []) :
    parseArguments headers p =
      if encodedLength spaceAsPlus pair.2 < 2 ^ 32 then
        match next with
        | none => .ok (headers ++ [pair])
        | some p => parseArguments (headers ++ [pair]) p
      else .error .overflow := by
  rw [parseArguments, if_neg hne]
  split
  rename_i argument next' hsep
  cases hp.symm.trans hsep
  simp only [strsep_argumentText hkey, if_neg hkey.nonempty]
  by_cases hlen : encodedLength spaceAsPlus pair.2 < 2 ^ 32
  · rw [if_pos hlen]
    simp only [decodeUri_uriencode hvalue.short hlen, cstring_eq_self hvalue.nul]
    cases next <;> rfl
  · have hlong : 2 ^ 32 ≤ (uriencode spaceAsPlus pair.2).length := by
      rw [length_uriencode]
      omega
    rw [if_neg hlen]
    simp only [evhttpDecodeUriInternal, decodeUriLoop_long hlong]

variable (spaceAsPlus) in
lemma parseArguments_eq (pairs : List HttpHeader) (hkeys : ∀ pair ∈ pairs, UnreservedKey pair.1)
    (hvalues : ∀ pair ∈ pairs, ShortValue pair.2) (headers : List HttpHeader) :
    parseArguments headers (joinArguments (pairs.map (argumentText spaceAsPlus))) =
      if ∀ pair ∈ pairs, encodedLength spaceAsPlus pair.2 < 2 ^ 32 then .ok (headers ++ pairs)
      else .error .overflow := by
  have hne (pair : HttpHeader) (rest : Bytes) : argumentText spaceAsPlus pair ++ rest ≠ [] := by
    simp [argumentText]
  induction pairs generalizing headers with
  | nil =>
    rw [parseArguments]
    simp [joinArguments]
  | cons pair pairs ih =>
    have hkey := hkeys pair mem_cons_self
    have hvalue := hvalues pair mem_cons_self
    have hrest := ih (fun p hp => hkeys p (mem_cons_of_mem _ hp))
      (fun p hp => hvalues p (mem_cons_of_mem _ hp)) (headers ++ [pair])
    cases pairs with
    | nil =>
      have hsep := strsep_of_notMem (argumentText_no_separator spaceAsPlus hkey)
      have hstep := parseArguments_step hkey hvalue headers hsep (by simpa using hne pair [])
      simpa [joinArguments] using hstep
    | cons next pairs =>
      have hsep := strsep_append (argumentText_no_separator spaceAsPlus hkey)
        (joinArguments ((next :: pairs).map (argumentText spaceAsPlus)))
      have hstep := parseArguments_step hkey hvalue headers hsep (hne pair _)
      refine hstep.trans ?_
      simp only [hrest, forall_mem_cons (a := pair), append_assoc, singleton_append]
      by_cases h1 : encodedLength spaceAsPlus pair.2 < 2 ^ 32 <;> simp only [h1, if_true, if_false,
        true_and, false_and]

end Arguments

section WholeUri

variable {inetPton6 : Bytes → Bool} {ok : UInt8 → Bool} {s readp path text : Bytes}

lemma scanEscaped_append_of_passed (h : (scanEscaped ok s).2 = []) (t : Bytes) :
    scanEscaped ok (s ++ t) = (s ++ (scanEscaped ok t).1, (scanEscaped ok t).2) := by
  fun_induction scanEscaped ok s with
  | case1 => rfl
  | case2 c s hok ih =>
    rw [cons_append, scanEscaped, if_pos hok, ih h]
    rfl
  | case3 c s hok hpct ih =>
    have hpct' := hpct
    simp only [Bool.and_eq_true, beq_iff_eq] at hpct'
    obtain ⟨d, e, s, rfl, -, -⟩ := escape_eq hpct'.1.2 hpct'.2
    have ih' : scanEscaped ok (s ++ t) = (s ++ (scanEscaped ok t).1, (scanEscaped ok t).2) := ih h
    rw [cons_append, scanEscaped, if_neg hok]
    refine (if_pos hpct).trans ?_
    change ((c :: d :: e :: (scanEscaped ok (s ++ t)).1), (scanEscaped ok (s ++ t)).2) = _
    rw [ih']
    rfl
  | case4 => cases h

lemma scanEscaped_passed_append {t : Bytes} (hs : (scanEscaped ok s).2 = [])
    (ht : (scanEscaped ok t).2 = []) : (scanEscaped ok (s ++ t)).2 = [] := by
  rw [scanEscaped_append_of_passed hs]
  exact ht

@[simp] lemma scanEscaped_nil : scanEscaped ok [] = ([], []) := by
  rw [scanEscaped]

lemma scanEscaped_passed_of_all (h : ∀ c ∈ s, ok c) : (scanEscaped ok s).2 = [] := by
  induction s with
  | nil => simp
  | cons c s ih =>
    rw [scanEscaped, if_pos (h c mem_cons_self)]
    exact ih fun d hd => h d (mem_cons_of_mem _ hd)

def queryChar (c : UInt8) : Bool :=
  charIsUnreserved c || isSubdelim c || c == byte ':' || c == byte '@' || c == byte '/' ||
    (c == byte '?' && UriPart.query != .path)

lemma queryChar_spec (c : UInt8) :
    charIsUnreserved c ∨ c = byte '+' ∨ c = byte '=' ∨ c = byte '&' → queryChar c := by
  revert c
  apply forall_byte
  decide +kernel

variable {spaceAsPlus : Bool}

lemma uriencode_passed (value : Bytes) : (scanEscaped queryChar (uriencode spaceAsPlus value)).2 = [] := by
  induction value with
  | nil => simp [uriencode]
  | cons c value ih =>
    refine scanEscaped_passed_append ?_ ih
    obtain ⟨hchar, hplain⟩ | ⟨hchar, -⟩ | hchar := uriencodeChar_cases spaceAsPlus c
    · rw [hchar]
      exact scanEscaped_passed_of_all (by simpa using queryChar_spec c (.inl hplain))
    · rw [hchar]
      exact scanEscaped_passed_of_all (by simpa using queryChar_spec _ (.inr (.inl rfl)))
    · obtain ⟨h1, h2, -⟩ := upperHex_spec c
      rw [hchar, scanEscaped]
      split
      · rename_i hpct
        exact absurd hpct (by decide)
      · rw [if_pos (by simp [h1, h2])]
        simp

variable (spaceAsPlus) in
lemma argumentText_passed {pair : HttpHeader} (hkey : UnreservedKey pair.1) :
    (scanEscaped queryChar (argumentText spaceAsPlus pair)).2 = [] := by
  refine scanEscaped_passed_append ?_ (scanEscaped_passed_append (s := [byte '=']) ?_ ?_)
  · exact scanEscaped_passed_of_all fun c hc => queryChar_spec c (.inl (hkey.unreserved c hc))
  · exact scanEscaped_passed_of_all (by simpa using queryChar_spec _ (.inr (.inr (.inl rfl))))
  · exact uriencode_passed pair.2

variable (spaceAsPlus) in
lemma joinArguments_passed (pairs : List HttpHeader) (hkeys : ∀ pair ∈ pairs, UnreservedKey pair.1) :
    (scanEscaped queryChar (joinArguments (pairs.map (argumentText spaceAsPlus)))).2 = [] := by
  induction pairs with
  | nil => simp [joinArguments]
  | cons pair pairs ih =>
    have hpair := argumentText_passed spaceAsPlus (hkeys pair mem_cons_self)
    cases pairs with
    | nil => exact hpair
    | cons next pairs =>
      have hrest := ih fun p hp => hkeys p (mem_cons_of_mem _ hp)
      refine scanEscaped_passed_append hpair (scanEscaped_passed_append (s := [byte '&']) ?_ hrest)
      exact scanEscaped_passed_of_all (by simpa using queryChar_spec _ (.inr (.inr (.inr rfl))))

lemma schemeOk_no_query {token : Bytes} (h : schemeOk token) : byte '?' ∉ token := by
  intro hmem
  cases token with
  | nil => cases hmem
  | cons c token =>
    simp only [schemeOk, Bool.and_eq_true, all_eq_true] at h
    obtain rfl | hmem := mem_cons.1 hmem
    · exact absurd h.1 (by decide)
    · exact absurd (h.2 _ hmem) (by decide)

lemma splitScheme_query (s text : Bytes) :
    splitScheme (s ++ byte '?' :: text) = ((splitScheme s).1, (splitScheme s).2 ++ byte '?' :: text) := by
  cases hsep : strsep (byte ':') s with
  | mk token rest =>
    cases rest with
    | some rest =>
      obtain ⟨rfl, hcolon⟩ := strsep_eq_some hsep
      unfold splitScheme
      rw [append_assoc, cons_append, strsep_append hcolon, strsep_append hcolon]
      simp only
      split <;> simp
    | none =>
      have hcolon := strsep_eq_none hsep
      unfold splitScheme
      rw [hsep]
      simp only
      split
      · rfl
      · rename_i token' rest' hsep'
        rw [if_neg]
        intro hok
        obtain ⟨heq, -⟩ := strsep_eq_some hsep'
        obtain ⟨u, rfl, hu⟩ | ⟨u, rfl, hu⟩ := append_eq_append_iff.mp heq
        · -- the token reaches beyond `s`, so it holds the question mark
          cases u with
          | nil => exact absurd (List.cons.inj hu).1 (by decide)
          | cons c u =>
            refine schemeOk_no_query hok (mem_append_right _ ?_)
            rw [(List.cons.inj hu).1]
            exact mem_cons_self
        · cases u with
          | nil => exact absurd (List.cons.inj hu).1 (by decide)
          | cons c u =>
            refine hcolon (mem_append_right _ ?_)
            rw [(List.cons.inj hu).1]
            exact mem_cons_self

lemma parseAuthority_after {after after' : Bytes} {a : Authority}
    (hafter : isXdigit (after.headD 0) = false) (hafter' : isXdigit (after'.headD 0) = false)
    (h : parseAuthority inetPton6 s after = some a) :
    parseAuthority inetPton6 s after' = some a := by
  obtain ⟨cp, huser, hport, hok⟩ := parseAuthority_eq_some.mp h
  obtain ⟨⟨text, hspelling, rfl⟩, -⟩ := splitPort_spec hport
  rw [drop_left] at hok
  refine parseAuthority_eq_some.mpr ⟨_, huser, hport, ?_⟩
  rw [drop_left]
  exact (hostOk_spec (hspelling.headD hafter) hok).2 _ (hspelling.headD hafter')

lemma endOfAuthority_query (cp text : Bytes) :
    endOfAuthority (cp ++ byte '?' :: text) =
      ((endOfAuthority cp).1, (endOfAuthority cp).2 ++ byte '?' :: text) := by
  have hcp : cp = (endOfAuthority cp).1 ++ (endOfAuthority cp).2 :=
    (takeWhile_append_dropWhile).symm
  have hin : ∀ c ∈ (endOfAuthority cp).1, inAuthority c := fun c hc =>
    mem_takeWhile_imp hc
  have hstop : ∀ c ∈ ((endOfAuthority cp).2 ++ byte '?' :: text).head?, inAuthority c = false := by
    intro c hc
    cases hrest : (endOfAuthority cp).2 with
    | nil =>
      rw [hrest] at hc
      cases hc
      decide
    | cons d rest =>
      rw [hrest] at hc
      cases hc
      exact head_of_dropWhile_eq_cons hrest
  conv_lhs => rw [hcp, append_assoc]
  exact Prod.ext (takeWhile_append_stop hin hstop) (dropWhile_append_stop hin hstop)

lemma endOfAuthority_not_xdigit (cp : Bytes) : isXdigit ((endOfAuthority cp).2.headD 0) = false := by
  cases hrest : (endOfAuthority cp).2 with
  | nil => rfl
  | cons c rest => exact stop_not_xdigit c (head_of_dropWhile_eq_cons hrest)

lemma splitAuthority_query {rest : Bytes} {authority : Option Authority}
    (h : splitAuthority inetPton6 readp = some (authority, rest)) (text : Bytes) :
    splitAuthority inetPton6 (readp ++ byte '?' :: text) = some (authority, rest ++ byte '?' :: text) := by
  by_cases hslashes : readp.take 2 = bytes "//"
  · obtain ⟨cp, rfl⟩ : ∃ cp, readp = bytes "//" ++ cp :=
      ⟨readp.drop 2, by rw [← hslashes, take_append_drop]⟩
    rw [splitAuthority_slashes] at h
    obtain ⟨a, hparse, heq⟩ := Option.map_eq_some_iff.mp h
    cases heq
    have hafter : isXdigit (((endOfAuthority cp).2 ++ byte '?' :: text).headD 0) = false := by
      have hnot := endOfAuthority_not_xdigit cp
      cases hrest : (endOfAuthority cp).2 with
      | nil => rfl
      | cons c rest =>
        rw [hrest] at hnot
        exact hnot
    rw [append_assoc, splitAuthority_slashes, endOfAuthority_query]
    simp only
    rw [parseAuthority_after (endOfAuthority_not_xdigit cp) hafter hparse]
    rfl
  · have hslashes' : ¬ (readp ++ byte '?' :: text).take 2 = bytes "//" := by
      match readp with
      | [] => exact fun heq => absurd (List.cons.inj heq).1 (by decide)
      | [c] => exact fun heq => absurd (List.cons.inj (List.cons.inj heq).2).1 (by decide)
      | c :: d :: readp => exact hslashes
    unfold splitAuthority at h ⊢
    rw [if_neg hslashes] at h
    rw [if_neg hslashes']
    cases h
    rfl

lemma endOfPath_query (h : (endOfPath .path 0 path).2 = []) (text : Bytes) :
    endOfPath .path 0 (path ++ byte '?' :: text) = (path, byte '?' :: text) := by
  have hstrict : ¬ (0 : UInt32) &&& evhttpUriNonconformant ≠ 0 := by decide
  unfold endOfPath at h ⊢
  rw [if_neg hstrict] at h ⊢
  rw [scanEscaped_append_of_passed h, scanEscaped, if_neg (by decide), if_neg]
  · rw [append_nil]
  · simp only [Bool.and_eq_true, not_and]
    exact fun hpct => absurd hpct.1 (by decide)

lemma splitPath_query (h : splitPath 0 readp = some (path, none, none))
    (htext : (scanEscaped queryChar text).2 = []) :
    splitPath 0 (readp ++ byte '?' :: text) = some (path, some text, none) := by
  obtain rfl : readp = path := by simpa [partText] using splitPath_text h
  have hpath : (endOfPath .path 0 readp).1 = readp := by
    unfold splitPath at h
    simp only at h
    split at h
    · cases h
    · exact (Prod.mk.inj (Option.some.inj h)).1
  have hpassed : (endOfPath .path 0 readp).2 = [] := by
    have happend := endOfPath_append .path 0 readp
    rw [hpath] at happend
    exact append_right_eq_self.mp happend
  have hquery : endOfPath .query 0 text = (text, []) := by
    have happend := scanEscaped_append queryChar text
    rw [htext, append_nil] at happend
    exact Prod.ext happend htext
  unfold splitPath
  simp only [endOfPath_query hpassed, splitPart, head?_cons, drop_succ_cons, drop_zero, hquery]
  rfl

lemma evhttpUriParse_query {source : Bytes} {uri : EvhttpUri}
    (h : evhttpUriParse inetPton6 source = some uri) (hquery : uri.query = none)
    (hfragment : uri.fragment = none) (htext : (scanEscaped queryChar text).2 = []) :
    evhttpUriParse inetPton6 (source ++ byte '?' :: text) = some { uri with query := some text } := by
  obtain ⟨authority, rest, path, query, fragment, hauthority, hpath, h1, h2, h3, rfl⟩ :=
    evhttpUriParse_eq_some.mp h
  cases hquery
  cases hfragment
  have hscheme := splitScheme_query source text
  refine evhttpUriParse_eq_some.mpr ⟨authority, rest ++ byte '?' :: text, path, some text, none, ?_,
    splitPath_query hpath htext, h1, h2, ?_, ?_⟩
  · rw [hscheme]
    exact splitAuthority_query hauthority text
  · rw [hscheme]
    exact h3
  · rw [hscheme]

end WholeUri

/-- Pairs are parsed back from their query, on its own and after any URI without query and fragment,
exactly if the encoded form of every value fits the counter of the decoder. -/
theorem query_parsed_back_iff (inetPton6 : Bytes → Bool) (explicitLen spaceAsPlus : Bool)
    {pairs : List HttpHeader} (hkeys : ∀ pair ∈ pairs, UnreservedKey pair.1)
    (hvalues : ∀ pair ∈ pairs, ShortValue pair.2) :
    ∃ text, encodeQuery explicitLen spaceAsPlus pairs = some text ∧
      ((evhttpParseQueryStr inetPton6 text = .ok pairs ∧
        ∀ source uri, evhttpUriParse inetPton6 source = some uri → uri.query = none →
          uri.fragment = none → evhttpParseQuery inetPton6 (source ++ byte '?' :: text) = .ok pairs) ↔
        ∀ pair ∈ pairs, encodedLength spaceAsPlus pair.2 < 2 ^ 32) := by
  refine ⟨_, encodeQuery_eq explicitLen hvalues, ?_⟩
  have hloop := parseArguments_eq spaceAsPlus pairs hkeys hvalues []
  rw [nil_append] at hloop
  constructor
  · rintro ⟨hstr, -⟩
    by_contra hlong
    rw [if_neg hlong] at hloop
    cases hloop.symm.trans hstr
  · intro hshort
    rw [if_pos hshort] at hloop
    refine ⟨hloop, fun source uri huri hquery hfragment => ?_⟩
    have hparse := evhttpUriParse_query huri hquery hfragment (joinArguments_passed spaceAsPlus pairs hkeys)
    unfold evhttpParseQuery evhttpParseQueryImpl
    rw [if_pos rfl, hparse]
    exact hloop

theorem query_parsed_back_two :
    ∃ text, encodeQuery false true [(bytes "a", bytes "x y&"), (bytes "b", [])] = some text ∧
      evhttpParseQueryStr (fun _ => false) text = .ok [(bytes "a", bytes "x y&"), (bytes "b", [])] ∧
      evhttpParseQuery (fun _ => false) (bytes "http://h/p" ++ byte '?' :: text) =
        .ok [(bytes "a", bytes "x y&"), (bytes "b", [])] := by
  have hkeys : ∀ pair ∈ [(bytes "a", bytes "x y&"), (bytes "b", [])], UnreservedKey pair.1 := by
    intro pair hpair
    simp only [mem_cons, not_mem_nil, or_false] at hpair
    obtain rfl | rfl := hpair <;> exact ⟨by decide +kernel, by decide +kernel⟩
  have hvalues : ∀ pair ∈ [(bytes "a", bytes "x y&"), (bytes "b", [])], ShortValue pair.2 := by
    intro pair hpair
    simp only [mem_cons, not_mem_nil, or_false] at hpair
    obtain rfl | rfl := hpair <;> exact ⟨by decide +kernel, by decide +kernel⟩
  obtain ⟨text, htext, hiff⟩ := query_parsed_back_iff (fun _ => false) false true hkeys hvalues
  obtain ⟨hstr, hwhole⟩ := hiff.mpr (by decide +kernel)
  have huri : evhttpUriParse (fun _ => false) (bytes "http://h/p") =
      some ⟨0, some (bytes "http"), none, some (bytes "h"), -1, some (bytes "/p"), none, none⟩ := by
    decide +kernel
  exact ⟨text, htext, hstr, hwhole _ _ huri rfl rfl⟩

lemma long_value {n : Nat} (hshort : n < 2 ^ 31) (hlong : 2 ^ 32 ≤ n * 3) :
    ∃ text, encodeQuery false false [(bytes "k", List.replicate n 1)] = some text ∧
      evhttpParseQueryStr (fun _ => false) text = .error .overflow := by
  have hkey : UnreservedKey (bytes "k") := ⟨by decide +kernel, by decide +kernel⟩
  have hkeys : ∀ pair ∈ [(bytes "k", List.replicate n (1 : UInt8))], UnreservedKey pair.1 := by
    intro pair hpair
    rw [mem_singleton] at hpair
    rw [hpair]
    exact hkey
  have hvalues : ∀ pair ∈ [(bytes "k", List.replicate n (1 : UInt8))], ShortValue pair.2 := by
    intro pair hpair
    rw [mem_singleton] at hpair
    rw [hpair]
    refine ⟨fun hmem => absurd (eq_of_mem_replicate hmem) (by decide), ?_⟩
    rw [length_replicate]
    exact hshort
  have hlen : encodedLength false (List.replicate n 1) = n * 3 := by
    unfold encodedLength
    rw [map_replicate, sum_replicate_nat]
    rfl
  have hloop := parseArguments_eq false _ hkeys hvalues []
  refine ⟨_, encodeQuery_eq false hvalues, hloop.trans (if_neg ?_)⟩
  intro hall
  have hlt := hall _ (mem_singleton.mpr rfl)
  rw [hlen] at hlt
  omega

theorem int_max_value_not_parsed_back :
    ∃ text, encodeQuery false false [(bytes "k", List.replicate (2 ^ 31 - 1) 1)] = some text ∧
      evhttpParseQueryStr (fun _ => false) text = .error .overflow :=
  long_value (by decide) (by decide)

end MyLibevent.Proofs
