import MyLibevent.Uri
import MyLibevent.Proofs.Numbers

/-!
# URIs are joined as they were parsed

The texts of the parts, put together, are the URI; only the port is kept as a number. Each cut is found again
in the joined text, since the part before it holds no character that would end it earlier.
-/

namespace MyLibevent.Proofs

open ListTrim List Option

section Ports

variable {s : Bytes} {portnum n : Nat}

lemma parsePort_value (h : ∀ c ∈ s, isDigit c)
    (hle : Numeral.value 10 portnum (s.map digitOf) ≤ 65535) :
    parsePort portnum s = some (Numeral.value 10 portnum (s.map digitOf)) := by
  induction s generalizing portnum with
  | nil => rfl
  | cons c s ih =>
    have hnext := Numeral.le_value 10 (by omega) (portnum * 10 + digitOf c) (s.map digitOf)
    have hval : Numeral.value 10 portnum ((c :: s).map digitOf) =
        Numeral.value 10 (portnum * 10 + digitOf c) (s.map digitOf) := rfl
    rw [hval] at hle ⊢
    have hdigit := h c mem_cons_self
    unfold parsePort
    rw [hdigit, Bool.not_true, if_neg Bool.false_ne_true]
    change (if 65535 < portnum * 10 + digitOf c then none else _) = _
    rw [if_neg (by omega)]
    exact ih (fun d hd => h d (mem_cons_of_mem _ hd)) hle

lemma parsePort_eq_some (hstart : portnum ≤ 65535) (h : parsePort portnum s = some n) :
    n = Numeral.value 10 portnum (s.map digitOf) ∧ n ≤ 65535 := by
  induction s generalizing portnum with
  | nil =>
    cases h
    exact ⟨rfl, hstart⟩
  | cons c s ih =>
    unfold parsePort at h
    split at h
    · cases h
    · simp only at h
      split at h
      · cases h
      · rename_i hle
        exact ih (Nat.not_lt.mp hle) h

lemma parsePort_spelling (hdigits : ∀ c ∈ s, isDigit c) (hne : s ≠ [])
    (h : parsePort 0 s = some n) : (∃ k, s = List.replicate k (byte '0') ++ formatDecimal n) ∧
      parsePort 0 (formatDecimal n) = some n := by
  obtain ⟨hn, hle⟩ := parsePort_eq_some (by omega) h
  refine ⟨?_, ?_⟩
  · have hlt : ∀ d ∈ s.map digitOf, d < 10 := by
      intro d hd
      obtain ⟨c, hc, rfl⟩ := mem_map.1 hd
      exact (digitOf_spec c (hdigits c hc)).1
    obtain ⟨k, hk⟩ := Numeral.eq_zeros_append_digits (by omega) hlt (by simpa using hne)
    refine ⟨k, ?_⟩
    rw [← hn] at hk
    rw [← map_hexDigit_digitOf hdigits, hk, map_append, map_replicate, ← formatDecimal_eq]
    rfl
  · have hval : Numeral.value 10 0 ((formatDecimal n).map digitOf) = n := by
      rw [map_digitOf_formatDecimal, Numeral.value_digits]
    have hparse := parsePort_value (formatDecimal_isDigit n) (hval.symm ▸ hle)
    rwa [hval] at hparse

/-- The texts from which a port is read: nothing or a colon alone if it is unspecified, and a colon
and the number after leading zeros if it is given. -/
def PortSpelling (port : Int) (text : Bytes) : Prop :=
  (port = -1 ∧ (text = [] ∨ text = bytes ":")) ∨
    ∃ n k : Nat, port = n ∧ text = bytes ":" ++ List.replicate k (byte '0') ++ formatDecimal n

def EndsHost (host : Bytes) : Prop := (host.rdropWhile isDigit).getLast? ≠ some (byte ':')

lemma splitPort_colon (host : Bytes) {digits : Bytes} (hdigits : ∀ c ∈ digits, isDigit c) :
    splitPort (host ++ bytes ":" ++ digits) =
      if digits = [] then some (host, -1)
      else (parsePort 0 digits).map fun port : Nat => (host, (port : Int)) := by
  have hlast : ∀ c ∈ (host ++ bytes ":").getLast?, isDigit c = false := by
    intro c hc
    rw [getLast?_append] at hc
    cases hc
    decide
  unfold splitPort
  rw [rdropWhile_append_stop hdigits hlast, rtakeWhile_append_stop hdigits hlast]
  simp [bytes]

lemma splitPort_spec {cp host : Bytes} {port : Int} (h : splitPort cp = some (host, port)) :
    (∃ text, PortSpelling port text ∧ cp = host ++ text) ∧
      (EndsHost host → splitPort (host ++ portText port) = some (host, port)) := by
  have hcp : cp.rdropWhile isDigit ++ cp.rtakeWhile isDigit = cp :=
    rdropWhile_append_rtakeWhile
  have hdigits : ∀ c ∈ cp.rtakeWhile isDigit, isDigit c := fun c hc => mem_rtakeWhile_imp hc
  have hnil : ∀ host, EndsHost host → splitPort (host ++ portText (-1)) = some (host, -1) := by
    intro host hends
    change splitPort (host ++ []) = _
    rw [append_nil]
    exact if_neg hends
  unfold splitPort at h
  simp only at h
  split at h
  · rename_i hcolon
    have hfront : cp.rdropWhile isDigit = (cp.rdropWhile isDigit).dropLast ++ bytes ":" := by
      exact (dropLast_append_getLast? _ hcolon).symm
    split_ifs at h with hempty
    · cases h
      refine ⟨⟨bytes ":", .inl ⟨rfl, .inr rfl⟩, ?_⟩, hnil _⟩
      rw [← hfront]
      rw [hempty, append_nil] at hcp
      exact hcp.symm
    · obtain ⟨n, hn, heq⟩ := map_eq_some_iff.mp h
      cases heq
      obtain ⟨⟨k, hk⟩, hparse⟩ := parsePort_spelling hdigits hempty hn
      refine ⟨⟨_, .inr ⟨n, k, rfl, rfl⟩, ?_⟩, ?_⟩
      · rw [append_assoc, ← hk, ← append_assoc, ← hfront, hcp]
      · intro _
        have hsplit := splitPort_colon (cp.rdropWhile isDigit).dropLast (formatDecimal_isDigit n)
        rw [if_neg (formatDecimal_ne_nil n), hparse] at hsplit
        rw [append_assoc] at hsplit
        exact hsplit
  · rename_i hends
    cases h
    exact ⟨⟨[], .inl ⟨rfl, .inl rfl⟩, (append_nil cp).symm⟩, hnil cp⟩

end Ports

section Escapes

variable {ok : UInt8 → Bool} {s : Bytes}

lemma scanEscaped_append (ok : UInt8 → Bool) (s : Bytes) : (scanEscaped ok s).1 ++ (scanEscaped ok s).2 = s := by
  fun_induction scanEscaped ok s with
  | case1 => rfl
  | case2 c s _ ih => exact congrArg (c :: ·) ih
  | case3 c s _ _ ih =>
    simp only [cons_append, append_assoc, ih, take_append_drop]
  | case4 => rfl

lemma escape_eq (h1 : isXdigit (s.headD 0)) (h2 : isXdigit ((s.drop 1).headD 0)) :
    ∃ d e t, s = d :: e :: t ∧ isXdigit d ∧ isXdigit e := by
  match s with
  | [] => cases h1
  | [_] => cases h2
  | d :: e :: t => exact ⟨d, e, t, rfl, h1, h2⟩

lemma mem_scanEscaped {c : UInt8} (hc : c ∈ (scanEscaped ok s).1) : ok c ∨ c = byte '%' ∨ isXdigit c := by
  fun_induction scanEscaped ok s with
  | case1 => cases hc
  | case2 d s hok ih =>
    obtain rfl | hc := mem_cons.1 hc
    · exact .inl hok
    · exact ih hc
  | case3 d s hok hpct ih =>
    simp only [Bool.and_eq_true, beq_iff_eq] at hpct
    obtain ⟨⟨rfl, h1⟩, h2⟩ := hpct
    obtain ⟨d1, d2, t, rfl, h1', h2'⟩ := escape_eq h1 h2
    simp only [take_succ_cons, take_zero, cons_append, nil_append, mem_cons] at hc
    obtain rfl | rfl | rfl | hc := hc
    · exact .inr (.inl rfl)
    · exact .inr (.inr h1')
    · exact .inr (.inr h2')
    · exact ih hc
  | case4 => cases hc

lemma regnameOk_eq (host : Bytes) {after : Bytes}
    (hafter : isXdigit (after.headD 0) = false) :
    regnameOk host.length (host ++ after) =
      (scanEscaped (fun c => charIsUnreserved c || isSubdelim c) host).2.isEmpty := by
  fun_induction scanEscaped (fun c => charIsUnreserved c || isSubdelim c) host with
  | case1 => rw [regnameOk]; rfl
  | case2 c s hok ih =>
    rw [regnameOk, if_neg (by simp)]
    exact (if_pos hok).trans ih
  | case3 c s hok hpct ih =>
    simp only [Bool.and_eq_true, beq_iff_eq] at hpct
    obtain ⟨⟨hc, h1⟩, h2⟩ := hpct
    obtain ⟨d1, d2, t, rfl, h1', h2'⟩ := escape_eq h1 h2
    rw [regnameOk, if_neg (by simp)]
    refine (if_neg hok).trans ((if_pos ?_).trans ih)
    simp [hc, h1', h2']
  | case4 c s hok hpct =>
    rw [regnameOk, if_neg (by simp)]
    refine (if_neg hok).trans (if_neg ?_)
    intro hpct'
    refine hpct ?_
    simp only [cons_append, headD_cons, drop_succ_cons, drop_zero, Bool.and_eq_true, beq_iff_eq] at hpct' ⊢
    obtain ⟨⟨hc, h1⟩, h2⟩ := hpct'
    match s with
    | [] => exact absurd h1 (Bool.eq_false_iff.mp hafter)
    | [d] => exact absurd h2 (Bool.eq_false_iff.mp hafter)
    | d :: e :: t => exact ⟨⟨hc, h1⟩, h2⟩

end Escapes

section Authorities

variable {inetPton6 : Bytes → Bool} {after s : Bytes} {a : Authority} {port : Int}

lemma regname_not_colon (c : UInt8) : (charIsUnreserved c || isSubdelim c) ∨
    c = byte '%' ∨ isXdigit c → c ≠ byte ':' := by
  revert c
  apply forall_byte
  decide +kernel

lemma hostOk_spec {host : Bytes} (hafter : isXdigit (after.headD 0) = false)
    (h : hostOk inetPton6 host after) :
    EndsHost host ∧ ∀ after', isXdigit (after'.headD 0) = false → hostOk inetPton6 host after' := by
  unfold hostOk at h ⊢
  split_ifs at h with hbracket
  · refine ⟨?_, fun _ _ => ?_⟩
    · have hstay : host.rdropWhile isDigit = host := by
        rw [rdropWhile_eq_self_iff]
        intro hne
        rw [getLast?_eq_some_getLast hne, some.injEq] at hbracket
        rw [hbracket.2.2]
        decide
      rw [EndsHost, hstay, hbracket.2.2]
      decide
    · rw [if_pos hbracket]
      exact h
  · rw [regnameOk_eq host hafter] at h
    refine ⟨?_, fun after' hafter' => ?_⟩
    · intro hlast
      have hmem : byte ':' ∈ host :=
        ( rdropWhile_prefix isDigit host).subset (mem_of_getLast? hlast)
      rw [← scanEscaped_append (fun c => charIsUnreserved c || isSubdelim c) host,
        List.isEmpty_iff.mp h, append_nil] at hmem
      exact regname_not_colon _ (mem_scanEscaped hmem) rfl
    · rw [if_neg hbracket, regnameOk_eq host hafter']
      exact h

lemma splitUserinfo_spec {cp : Bytes} {userinfo : Option Bytes}
    (h : splitUserinfo s = some (userinfo, cp)) : s = partText [] (bytes "@") userinfo ++ cp ∧
      ∀ cp', (byte '@' ∈ cp' → byte '@' ∈ cp) →
        splitUserinfo (partText [] (bytes "@") userinfo ++ cp') = some (userinfo, cp') := by
  unfold splitUserinfo at h ⊢
  split at h
  · rename_i hsep
    cases h
    refine ⟨rfl, fun cp' hat => ?_⟩
    have hnot : byte '@' ∉ cp' := fun hmem => strsep_eq_none hsep (hat hmem)
    have hshape : partText [] (bytes "@") none ++ cp' = cp' := rfl
    rw [hshape, strsep_of_notMem hnot]
  · rename_i token rest hsep
    split at h
    · rename_i hok
      cases h
      obtain ⟨hs, hnot⟩ := strsep_eq_some hsep
      refine ⟨by rw [hs]; simp [partText, bytes], fun cp' _ => ?_⟩
      have hshape : partText [] (bytes "@") (some token) ++ cp' = token ++ byte '@' :: cp' := by
        simp [partText, bytes]
      rw [hshape, strsep_append hnot]
      exact if_pos hok
    · cases h

lemma parseAuthority_eq_some : parseAuthority inetPton6 s after = some a ↔
      ∃ cp, splitUserinfo s = some (a.userinfo, cp) ∧ splitPort cp = some (a.host, a.port) ∧
        hostOk inetPton6 a.host (cp.drop a.host.length ++ after) := by
  by_cases hs : s = []
  · subst hs
    have hok : hostOk inetPton6 [] ([] ++ after) := by
      rw [hostOk, if_neg (by simp), regnameOk]
      rfl
    constructor
    · intro h
      cases h
      exact ⟨[], rfl, rfl, hok⟩
    · rintro ⟨cp, huser, hport, -⟩
      obtain ⟨userinfo, host, port⟩ := a
      cases huser
      cases hport
      rfl
  · constructor
    · intro h
      simp only [parseAuthority, if_neg hs, bind_eq_bind, bind_eq_some_iff, Prod.exists] at h
      obtain ⟨userinfo, cp, huser, host, port, hport, h⟩ := h
      split at h
      · rename_i hok
        cases h
        exact ⟨cp, huser, hport, hok⟩
      · cases h
    · rintro ⟨cp, huser, hport, hok⟩
      simp only [parseAuthority, if_neg hs, bind_eq_bind, huser, hport, bind_some]
      rw [if_pos hok]

def authorityText (a : Authority) (port : Bytes) : Bytes :=
  partText [] (bytes "@") a.userinfo ++ a.host ++ port

lemma portText_mem {c : UInt8} (h : c ∈ portText port) : c = byte ':' ∨ isDigit c := by
  unfold portText at h
  split at h
  · obtain h | h := mem_append.1 h
    · exact .inl (by simpa [bytes] using h)
    · exact .inr (formatDecimal_isDigit _ c h)
  · cases h

lemma PortSpelling.headD {text : Bytes} (h : PortSpelling port text)
    (hafter : isXdigit (after.headD 0) = false) : isXdigit ((text ++ after).headD 0) = false := by
  obtain ⟨-, rfl | rfl⟩ | ⟨n, k, -, rfl⟩ := h
  · exact hafter
  · rfl
  · rfl

lemma digit_not_at (c : UInt8) : c = byte ':' ∨ isDigit c → c ≠ byte '@' := by
  revert c
  apply forall_byte
  decide +kernel

lemma parseAuthority_spec (hafter : isXdigit (after.headD 0) = false)
    (h : parseAuthority inetPton6 s after = some a) :
    (∃ text, PortSpelling a.port text ∧ s = authorityText a text) ∧
      parseAuthority inetPton6 (authorityText a (portText a.port)) after = some a := by
  obtain ⟨cp, huser, hport, hok⟩ := parseAuthority_eq_some.mp h
  obtain ⟨hs, hagain⟩ := splitUserinfo_spec huser
  obtain ⟨⟨text, hspelling, hcp⟩, hsplit⟩ := splitPort_spec hport
  have hdrop (text : Bytes) : (a.host ++ text).drop a.host.length = text :=
    drop_left
  rw [hcp, hdrop] at hok
  obtain ⟨hends, hany⟩ := hostOk_spec (hspelling.headD hafter) hok
  refine ⟨⟨text, hspelling, ?_⟩, ?_⟩
  · rw [hs, hcp, authorityText, append_assoc]
  · refine parseAuthority_eq_some.mpr ⟨a.host ++ portText a.port, ?_, hsplit hends, ?_⟩
    · rw [authorityText, append_assoc]
      refine hagain _ fun hmem => ?_
      obtain hmem | hmem := mem_append.1 hmem
      · rw [hcp]
        exact mem_append_left _ hmem
      · exact absurd rfl (digit_not_at _ (portText_mem hmem))
    · rw [hdrop]
      apply hany
      unfold portText
      split
      · rfl
      · exact hafter

end Authorities

section Parts

variable {inetPton6 : Bytes → Bool} {flags : UInt32} {readp rest : Bytes}

lemma splitScheme_text (s : Bytes) : s = partText [] (bytes ":") (splitScheme s).1 ++ (splitScheme s).2 := by
  unfold splitScheme
  split
  · rfl
  · rename_i token rest hsep
    split
    · rw [(strsep_eq_some hsep).1]
      simp [partText, bytes]
    · rfl

lemma splitScheme_some {s token : Bytes} (h : (splitScheme s).1 = some token) :
    byte ':' ∉ token ∧ schemeOk token := by
  unfold splitScheme at h
  split at h
  · cases h
  · rename_i hsep
    split at h
    · rename_i hok
      cases h
      exact ⟨(strsep_eq_some hsep).2, hok⟩
    · cases h

lemma splitScheme_slash (readp : Bytes) : splitScheme (byte '/' :: readp) = (none, byte '/' :: readp) := by
  unfold splitScheme
  split
  · rfl
  · rename_i token rest hsep
    obtain ⟨hs, -⟩ := strsep_eq_some hsep
    cases token with
    | nil => rfl
    | cons c token =>
      cases (List.cons.inj hs).1
      rfl

lemma splitScheme_again (s readp : Bytes) :
    splitScheme (partText [] (bytes ":") (splitScheme s).1 ++ byte '/' :: readp) =
      ((splitScheme s).1, byte '/' :: readp) := by
  cases hscheme : (splitScheme s).1 with
  | none => exact splitScheme_slash readp
  | some token =>
    obtain ⟨hcolon, hok⟩ := splitScheme_some hscheme
    have hshape : partText [] (bytes ":") (some token) ++ byte '/' :: readp =
        token ++ byte ':' :: byte '/' :: readp := by
      simp [partText, bytes]
    unfold splitScheme
    rw [hshape, strsep_append hcolon]
    exact if_pos hok

lemma endOfPath_append (part : UriPart) (flags : UInt32) (cp : Bytes) :
    (endOfPath part flags cp).1 ++ (endOfPath part flags cp).2 = cp := by
  unfold endOfPath
  split
  · cases part with
    | path | query => exact takeWhile_append_dropWhile
    | fragment => exact append_nil cp
  · exact scanEscaped_append _ cp

lemma splitPart_text (mark : UInt8) (part : UriPart) (flags : UInt32) (readp : Bytes) :
    readp = partText [mark] [] (splitPart mark part flags readp).1 ++ (splitPart mark part flags readp).2 := by
  unfold splitPart
  split_ifs with hmark
  · cases readp with
    | nil => cases hmark
    | cons c t =>
      cases hmark
      simp [partText, endOfPath_append]
  · rfl

lemma splitPath_text {path : Bytes} {query fragment : Option Bytes}
    (h : splitPath flags readp = some (path, query, fragment)) :
    readp = path ++ partText (bytes "?") [] query ++ partText (bytes "#") [] fragment := by
  unfold splitPath at h
  simp only at h
  split at h
  · cases h
  · rename_i hend
    cases h
    have hfragment := splitPart_text (byte '#') .fragment flags
      (splitPart (byte '?') .query flags (endOfPath .path flags readp).2).2
    rw [not_not.mp hend, append_nil] at hfragment
    calc readp = (endOfPath .path flags readp).1 ++ (endOfPath .path flags readp).2 :=
          (endOfPath_append ..).symm
      _ = _ := by
        rw [append_assoc]
        congr 1
        refine (splitPart_text (byte '?') .query flags _).trans ?_
        congr 1

lemma splitAuthority_none (h : splitAuthority inetPton6 readp = some (none, rest)) : rest = readp := by
  unfold splitAuthority at h
  split at h
  · obtain ⟨a, -, heq⟩ := map_eq_some_iff.mp h
    cases heq
  · cases h
    rfl

lemma stop_not_xdigit (c : UInt8) : inAuthority c = false → isXdigit c = false := by
  revert c
  apply forall_byte
  decide +kernel

lemma port_inAuthority (c : UInt8) : c = byte ':' ∨ isDigit c → inAuthority c := by
  revert c
  apply forall_byte
  decide +kernel

lemma splitAuthority_slashes (text : Bytes) :
    splitAuthority inetPton6 (bytes "//" ++ text) =
      (parseAuthority inetPton6 (endOfAuthority text).1 (endOfAuthority text).2).map
        fun a => (some a, (endOfAuthority text).2) :=
  rfl

lemma splitAuthority_some {a : Authority} (h : splitAuthority inetPton6 readp = some (some a, rest)) :
    (∃ text, PortSpelling a.port text ∧ readp = bytes "//" ++ authorityText a text ++ rest) ∧
      splitAuthority inetPton6 (bytes "//" ++ authorityText a (portText a.port) ++ rest) = some (some a, rest) := by
  unfold splitAuthority at h
  split_ifs at h with hslashes
  · obtain ⟨a', hparse, heq⟩ := map_eq_some_iff.mp h
    cases heq
    have hstop : ∀ c ∈ (endOfAuthority (readp.drop 2)).2.head?, inAuthority c = false := by
      intro c hc
      exact head_of_dropWhile_eq_cons (cons_head?_tail hc).symm
    have hafter : isXdigit ((endOfAuthority (readp.drop 2)).2.headD 0) = false := by
      rw [headD_eq_head?_getD]
      cases hhead : (endOfAuthority (readp.drop 2)).2.head? with
      | none => rfl
      | some c => exact stop_not_xdigit c (hstop c hhead)
    obtain ⟨⟨text, hspelling, htext⟩, hagain⟩ := parseAuthority_spec hafter hparse
    refine ⟨⟨text, hspelling, ?_⟩, ?_⟩
    · rw [← htext, ← hslashes, append_assoc]
      change readp = readp.take 2 ++ ((readp.drop 2).takeWhile _ ++ (readp.drop 2).dropWhile _)
      rw [takeWhile_append_dropWhile, take_append_drop]
    · have hclean : ∀ c ∈ authorityText a (portText a.port), inAuthority c := by
        intro c hc
        obtain hc | hc := mem_append.1 hc
        · have hmem : c ∈ (endOfAuthority (readp.drop 2)).1 := by
            rw [htext]
            exact mem_append_left _ hc
          exact mem_takeWhile_imp hmem
        · exact port_inAuthority c (portText_mem hc)
      have hend : endOfAuthority (authorityText a (portText a.port) ++ (endOfAuthority (readp.drop 2)).2) =
          (authorityText a (portText a.port), (endOfAuthority (readp.drop 2)).2) :=
        Prod.ext (takeWhile_append_stop hclean hstop) (dropWhile_append_stop hclean hstop)
      rw [append_assoc, splitAuthority_slashes, hend, hagain]
      rfl
  · cases h

lemma evhttpUriParse_eq_some {source : Bytes} {uri : EvhttpUri} :
    evhttpUriParseWithFlags inetPton6 source flags = some uri ↔
      ∃ authority rest path query fragment,
        splitAuthority inetPton6 (splitScheme source).2 = some (authority, rest) ∧
        splitPath flags rest = some (path, query, fragment) ∧
        ¬ (authority = none ∧ path.take 2 = bytes "//") ∧
        ¬ (authority ≠ none ∧ path ≠ [] ∧ path.head? ≠ some (byte '/')) ∧
        ¬ ((splitScheme source).1 = none ∧ pathMatchesNoscheme path = false) ∧
        uri = ⟨flags, (splitScheme source).1, authority.bind (·.userinfo), authority.map (·.host),
          (authority.map (·.port)).getD (-1), some path, query, fragment⟩ := by
  simp only [evhttpUriParseWithFlags, bind_eq_bind, bind_eq_some_iff, Prod.exists,
    ite_none_left_eq_some, some.injEq, exists_and_left, eq_comm (a := uri)]

end Parts

section Joined

variable {inetPton6 : Bytes → Bool} {flags : UInt32} {source text : Bytes}
  {uri : EvhttpUri}

/-- An accepted URI is the text of its parts, and so is what is parsed again after the port has been
written as a number. -/
lemma evhttpUriParse_text (h : evhttpUriParseWithFlags inetPton6 source flags = some uri) :
    (∃ text, PortSpelling uri.port text ∧ source = uri.text text) ∧
      evhttpUriParseWithFlags inetPton6 (uri.text (portText uri.port)) flags = some uri := by
  obtain ⟨authority, rest, path, query, fragment, hauthority, hpath, h1, h2, h3, huri⟩ :=
    evhttpUriParse_eq_some.mp h
  have hscheme := splitScheme_text source
  have hrest := splitPath_text hpath
  cases authority with
  | none =>
    have hsame : ∀ text, uri.text text = source := by
      intro text
      have heq := splitAuthority_none hauthority
      rw [← heq, hrest] at hscheme
      refine Eq.trans ?_ hscheme.symm
      rw [huri]
      simp [EvhttpUri.text, EvhttpUri.joined, append_assoc]
    refine ⟨⟨[], .inl ⟨by rw [huri]; rfl, .inl rfl⟩, (hsame _).symm⟩, ?_⟩
    rw [hsame]
    exact h
  | some a =>
    have hport : uri.port = a.port := by rw [huri]; rfl
    have htexts : ∀ text, uri.text text = partText [] (bytes ":") (splitScheme source).1 ++
        (bytes "//" ++ authorityText a text ++ rest) := by
      intro text
      rw [huri, hrest]
      simp [EvhttpUri.text, EvhttpUri.joined, authorityText, append_assoc]
    obtain ⟨⟨text, hspelling, hreadp⟩, hagain⟩ := splitAuthority_some hauthority
    rw [hport]
    refine ⟨⟨text, hspelling, ?_⟩, ?_⟩
    · rw [htexts, ← hreadp]
      exact hscheme
    · have hcut : splitScheme (uri.text (portText a.port)) = ((splitScheme source).1,
          bytes "//" ++ authorityText a (portText a.port) ++ rest) := by
        rw [htexts]
        exact splitScheme_again source (byte '/' :: (authorityText a (portText a.port) ++ rest))
      refine evhttpUriParse_eq_some.mpr ⟨some a, rest, path, query, fragment, ?_, hpath, h1, h2, ?_, ?_⟩
      · rw [hcut]
        exact hagain
      · rw [hcut]
        exact h3
      · rw [hcut]
        exact huri

lemma length_userinfo (u : Bytes) : (partText [] (bytes "@") (some u)).length = u.length + 1 :=
  length_append

lemma evbufferAddPrintf_userinfo {userinfo : Option Bytes}
    (h : ∀ u ∈ userinfo, u.length < 2 ^ 31 - 2) :
    evbufferAddPrintf (partText [] (bytes "@") userinfo) = partText [] (bytes "@") userinfo := by
  refine if_pos ?_
  cases userinfo with
  | none => simp [partText]
  | some u =>
    have hu := h u rfl
    rw [length_userinfo]
    omega

lemma evhttpUriJoin_eq {limit : Nat} (h : evhttpUriParseWithFlags inetPton6 source flags = some uri)
    (huser : ∀ u ∈ uri.userinfo, u.length < 2 ^ 31 - 2)
    (hlimit : (uri.text (portText uri.port)).length < limit) :
    evhttpUriJoin uri limit = some (uri.text (portText uri.port) ++ [0]) := by
  obtain ⟨authority, rest, path, query, fragment, -, -, -, h2, -, huri⟩ :=
    evhttpUriParse_eq_some.mp h
  unfold EvhttpUri.text at hlimit ⊢
  unfold evhttpUriJoin
  simp only [evbufferAddPrintf_userinfo huser]
  rw [if_neg (by omega), if_neg, if_neg]
  · rw [length_append, length_singleton]
    omega
  · rintro ⟨hhost, hne, hhead⟩
    rw [huri] at hhost hne hhead
    refine h2 ⟨?_, hne, hhead⟩
    intro hnone
    rw [hnone] at hhost
    exact hhost rfl

lemma mem_portText_spelling {port : Int} (h : PortSpelling port text) : portText port ⊆ text := by
  obtain ⟨rfl, -⟩ | ⟨n, k, rfl, rfl⟩ := h
  · exact nil_subset _
  · intro c hc
    change c ∈ bytes ":" ++ formatDecimal n at hc
    rw [append_assoc]
    obtain hc | hc := mem_append.1 hc
    · exact mem_append_left _ hc
    · exact mem_append_right _ (mem_append_right _ hc)

lemma text_subset {port : Bytes} (h : port ⊆ text) : uri.text port ⊆ uri.text text := by
  intro c hc
  cases hhost : uri.host with
  | none =>
    simp only [EvhttpUri.text, EvhttpUri.joined, hhost] at hc ⊢
    exact hc
  | some host =>
    simp only [EvhttpUri.text, EvhttpUri.joined, hhost, mem_append] at hc ⊢
    tauto

section LongUserinfo

variable (inetPton6 : Bytes → Bool) (flags : UInt32) (n : Nat)

def longUserinfo : EvhttpUri :=
  ⟨flags, none, some (replicate n (byte 'u')), some (bytes "h"), -1, some [], none, none⟩

lemma userinfoOk_replicate : userinfoOk (replicate n (byte 'u')) := by
  unfold userinfoOk
  induction n with
  | zero => rw [replicate_zero, scanEscaped, isEmpty_nil]
  | succ n ih =>
    rw [replicate_succ, scanEscaped, if_pos (by decide)]
    exact ih

lemma evhttpUriParse_longUserinfo :
    evhttpUriParseWithFlags inetPton6 (bytes "//" ++ (replicate n (byte 'u') ++ bytes "@h")) flags =
      some (longUserinfo flags n) := by
  have hscheme : splitScheme (bytes "//" ++ (replicate n (byte 'u') ++ bytes "@h")) =
      (none, bytes "//" ++ (replicate n (byte 'u') ++ bytes "@h")) := splitScheme_slash _
  have hclean : ∀ c ∈ replicate n (byte 'u') ++ bytes "@h", inAuthority c := by
    intro c hc
    obtain hc | hc := mem_append.1 hc
    · rw [eq_of_mem_replicate hc]
      rfl
    · exact all_eq_true.1 (by decide : (bytes "@h").all inAuthority) c hc
  have hend : endOfAuthority (replicate n (byte 'u') ++ bytes "@h") = (replicate n (byte 'u') ++ bytes "@h", []) :=
    Prod.ext (takeWhile_eq_self_iff.2 hclean) (dropWhile_eq_nil_iff.2 hclean)
  have hparse : parseAuthority inetPton6 (replicate n (byte 'u') ++ bytes "@h") [] =
      some ⟨some (replicate n (byte 'u')), bytes "h", -1⟩ := by
    refine parseAuthority_eq_some.2 ⟨bytes "h", ?_, rfl, ?_⟩
    · have hat : byte '@' ∉ replicate n (byte 'u') := by
        intro hmem
        exact absurd (eq_of_mem_replicate hmem) (by decide)
      have hsep := strsep_append hat (bytes "h")
      unfold splitUserinfo
      rw [show bytes "@h" = byte '@' :: bytes "h" from rfl, hsep]
      exact if_pos (userinfoOk_replicate n)
    · change hostOk inetPton6 (bytes "h") []
      rw [hostOk, if_neg (by decide), regnameOk, if_neg (by decide), if_pos (by decide), regnameOk]
      rfl
  have hpath : splitPath flags [] = some ([], none, none) := by
    have hempty : ∀ part, endOfPath part flags [] = ([], []) := by
      intro part
      unfold endOfPath
      split
      · cases part <;> rfl
      · rw [scanEscaped]
    simp [splitPath, splitPart, hempty]
  refine evhttpUriParse_eq_some.2 ⟨some ⟨some (replicate n (byte 'u')), bytes "h", -1⟩, [], [],
    none, none, ?_, hpath, by simp, by simp, ?_, ?_⟩
  · rw [hscheme, splitAuthority_slashes, hend, hparse]
    rfl
  · rw [hscheme]
    simp [pathMatchesNoscheme]
  · rw [hscheme]
    rfl

variable {n} in
lemma evhttpUriJoin_longUserinfo (hn : 2 ^ 31 - 2 ≤ n) {limit : Nat} (hlimit : 4 ≤ limit) :
    evhttpUriJoin (longUserinfo flags n) limit = some (bytes "//h" ++ [0]) := by
  have hlost : evbufferAddPrintf (partText [] (bytes "@") (longUserinfo flags n).userinfo) = [] := by
    refine if_neg ?_
    unfold longUserinfo
    rw [length_userinfo, length_replicate]
    omega
  unfold evhttpUriJoin
  simp only [hlost]
  rw [if_neg (by omega), if_neg (by simp [longUserinfo])]
  exact if_neg (not_lt.2 hlimit)

end LongUserinfo

end Joined

end MyLibevent.Proofs
