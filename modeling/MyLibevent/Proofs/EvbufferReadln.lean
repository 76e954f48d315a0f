import MyLibevent.Proofs.EvbufferSearch

/-!
# Lines of an evbuffer

The line is what stands before the first end of line. Only the length of a run of CR and LF is not always
right, because `evbuffer_strspn` counts in an `int`.
-/

namespace MyLibevent.Proofs

open Segments List

section Scans

variable {chains : List Bytes} {p : EvbufferPtr} {n i j : Nat}
  {find : Bytes → Option Nat} {sought : UInt8 → Bool}

structure PtrOn (chains : List Bytes) (p : EvbufferPtr) (n : Nat) : Prop where
  pos : p.pos = n
  place : ∃ i, p.chain = some i ∧ i < chains.length ∧ p.posInChain < (segment chains i).length ∧
    n = offset chains i + p.posInChain

lemma ptrOn_chain (hi : i < chains.length) (hj : j < (segment chains i).length)
    (hn : n = offset chains i + j) : PtrOn chains ⟨n, some i, j⟩ n :=
  ⟨rfl, i, rfl, hi, hj, hn⟩

lemma PtrOn.getchr (h : PtrOn chains p n) {b : UInt8} (hb : chains.flatten[n]? = some b) :
    evbufferGetchr chains p = b.toNat := by
  obtain ⟨i, hi, hlt, hj, hn⟩ := h.place
  have hdrop : chains.flatten[n]? = (chains.flatten.drop n)[0]? := by
    rw [getElem?_drop, Nat.add_zero]
  rw [hdrop, hn, drop_offset_add hlt hj.le, drop_eq_getElem_cons hj, cons_append,
    getElem?_cons_zero, Option.some.injEq] at hb
  unfold evbufferGetchr
  rw [hi]
  dsimp only
  rw [getD_eq_getElem _ _ hj, hb]

lemma PtrOn.lt (h : PtrOn chains p n) : n < chains.flatten.length := by
  obtain ⟨i, -, hlt, hj, hn⟩ := h.place
  have hnext := offset_le chains (i + 1)
  rw [offset_succ hlt] at hnext
  omega

lemma evbufferPtrSet_on (p : EvbufferPtr) (hn : n < chains.flatten.length) :
    (evbufferPtrSet chains p n .set).1 = 0 ∧ PtrOn chains (evbufferPtrSet chains p n .set).2 n := by
  have hne : chains ≠ [] := by
    rintro rfl
    exact Nat.not_lt_zero n hn
  have hloop := ptrSetLoop_spec chains n (Nat.zero_le _) (Nat.zero_le _)
  unfold evbufferPtrSet ptrSetFrom firstChain
  rw [if_neg hne]
  dsimp only
  rw [offset_zero, Nat.zero_add, Nat.zero_add] at hloop
  rcases hloop with ⟨k, r, left, heq, hk, hlt, hpos⟩ | ⟨r, left, heq, hpos⟩
  · rw [heq]
    exact ⟨rfl, ptrOn_chain hk hlt hpos⟩
  · omega

lemma evbufferPtrSubtract_on (h : PtrOn chains p n) (hn : 0 < n) :
    (evbufferPtrSubtract chains p 1).1 = 0 ∧ PtrOn chains (evbufferPtrSubtract chains p 1).2 (n - 1) := by
  have hpos := h.pos
  have hlt := h.lt
  obtain ⟨i, hi, hlen, hj, hat⟩ := h.place
  unfold evbufferPtrSubtract
  rw [if_neg (by omega), if_neg (by omega)]
  split_ifs with hback
  · refine ⟨rfl, ?_, i, hi, hlen, ?_, ?_⟩
    · dsimp only
      omega
    · dsimp only
      omega
    · dsimp only
      omega
  · have hback : (p.pos - ((1 : Nat) : Int)).toNat = n - 1 := by omega
    rw [hback]
    exact evbufferPtrSet_on p (by omega)

lemma flatten_drop (chains : List Bytes) (i : Nat) :
    (chains.drop i).flatten = chains.flatten.drop (offset chains i) := by
  conv_rhs => rw [← take_append_drop i chains, flatten_append, offset]
  rw [take_append_drop, drop_left]

def ScanFinds (chains : List Bytes) (found : Option Nat) (r : Option EvbufferPtr) : Prop :=
  (found = none ∧ r = none) ∨ ∃ d q, found = some d ∧ r = some q ∧ PtrOn chains q d

lemma scanLoop_finds (hfind : ∀ s, find s = s.findIdx? sought) (hi : i ≤ chains.length)
    (hj : j ≤ (segment chains i).length) (hn : n = offset chains i + j) :
    ScanFinds chains (((chains.flatten.drop n).findIdx? sought).map (n + ·))
      (scanLoop find (chains.drop i) i j n) := by
  induction hm : chains.length - i generalizing i j n with
  | zero =>
    have hend : chains.length ≤ i := by omega
    have hnil : chains.flatten.drop n = [] := by
      rw [hn, offset_of_length_le hend]
      exact drop_of_length_le (Nat.le_add_right _ _)
    rw [hnil, drop_of_length_le hend]
    exact .inl ⟨rfl, rfl⟩
  | succ m ih =>
    have hlt : i < chains.length := by omega
    have hbytes : chains.flatten.drop n =
        (segment chains i).drop j ++ chains.flatten.drop (offset chains (i + 1)) := by
      rw [hn, drop_offset_add hlt hj, flatten_drop]
    rw [hbytes, findIdx?_append, drop_eq_cons hlt, scanLoop, hfind]
    cases hfound : ((segment chains i).drop j).findIdx? sought with
    | some d =>
      obtain ⟨hd, -⟩ := findIdx?_eq_some_iff_getElem.1 hfound
      rw [length_drop] at hd
      exact .inr ⟨n + d, _, rfl, rfl, ptrOn_chain hlt (by omega) (by omega)⟩
    | none =>
      have hstep : n + ((segment chains i).length - j) = offset chains (i + 1) := by
        rw [hn, offset_succ hlt]
        omega
      have hrest := ih (i := i + 1) (j := 0) hlt (Nat.zero_le _) rfl (by omega)
      rw [Nat.add_zero] at hrest
      have hmap : (((chains.flatten.drop (offset chains (i + 1))).findIdx? sought).map
          (· + ((segment chains i).drop j).length)).map (n + ·) =
          ((chains.flatten.drop (offset chains (i + 1))).findIdx? sought).map (offset chains (i + 1) + ·) := by
        rw [Option.map_map, ← hstep, length_drop]
        congr 1
        funext d
        rw [Function.comp_apply]
        omega
      rw [Option.none_or, hmap]
      rw [← Int.natCast_add, hstep]
      exact hrest

lemma scanFrom_finds (hfind : ∀ s, find s = s.findIdx? sought) (chains : List Bytes) :
    ScanFinds chains (chains.flatten.findIdx? sought) (scanFrom find chains (startPtr chains)) := by
  unfold startPtr firstChain scanFrom
  by_cases hnil : chains = []
  · subst hnil
    exact .inl ⟨rfl, rfl⟩
  · have hloop := scanLoop_finds (i := 0) (j := 0) (n := 0) hfind (Nat.zero_le chains.length) (Nat.zero_le _) rfl
    rw [drop_zero] at hloop
    rw [if_neg hnil]
    have hmap : (chains.flatten.findIdx? sought).map (0 + ·) = chains.flatten.findIdx? sought := by
      cases chains.flatten.findIdx? sought with
      | none => rfl
      | some d => rw [Option.map_some, Nat.zero_add]
    rw [hmap] at hloop
    exact hloop

lemma strspnLoop_count (inSet : UInt8 → Bool) (p : EvbufferPtr) (count : Nat) (hi : i < chains.length)
    (hj : j ≤ (segment chains i).length) :
    (strspnLoop inSet p (chains.drop i) i j count).1 =
      count + ((chains.flatten.drop (offset chains i + j)).takeWhile inSet).length := by
  induction hm : chains.length - i generalizing i j count with
  | zero => omega
  | succ m ih =>
    have hlen : ((segment chains i).drop j).length = (segment chains i).length - j := length_drop
    have hle := ( takeWhile_prefix (l := (segment chains i).drop j) inSet).length_le
    rw [drop_offset_add hi hj, flatten_drop, drop_eq_cons hi, strspnLoop, takeWhile_append]
    split
    · rename_i hpart
      rw [if_neg (by omega)]
    · rename_i hwhole
      have hfull : (((segment chains i).drop j).takeWhile inSet).length =
          ((segment chains i).drop j).length := by omega
      rw [if_pos hfull, length_append]
      split_ifs with hlast
      · have hend : chains.flatten.drop (offset chains (i + 1)) = [] := by
          rw [← flatten_drop, hlast, flatten_nil]
        rw [hend, takeWhile_nil, length_nil, hfull]
        rfl
      · have hnext : i + 1 < chains.length := by
          by_contra hnot
          exact hlast (drop_of_length_le (by omega))
        rw [ih _ hnext (Nat.zero_le _) (by omega), Nat.add_zero, hfull]
        omega

lemma PtrOn.strspn (h : PtrOn chains p n) (inSet : UInt8 → Bool) :
    (evbufferStrspn chains p inSet).1 = cInt ((chains.flatten.drop n).takeWhile inSet).length := by
  obtain ⟨i, hi, hlt, hj, hn⟩ := h.place
  unfold evbufferStrspn
  rw [hi]
  dsimp only
  rw [strspnLoop_count inSet p 0 hlt hj.le, Nat.zero_add, hn]

def firstEol : Option Nat → Option Nat → Option Nat
  | some cr, some lf => if lf < cr then some lf else some cr
  | some cr, none => some cr
  | none, some lf => some lf
  | none, none => none

lemma firstEol_succ (cr lf : Option Nat) :
    firstEol (cr.map (· + 1)) (lf.map (· + 1)) = (firstEol cr lf).map (· + 1) := by
  cases cr with
  | none => cases lf <;> rfl
  | some cr =>
    cases lf with
    | none => rfl
    | some lf =>
      simp only [Option.map_some, firstEol, Nat.add_lt_add_iff_right]
      split <;> rfl

lemma firstEol_memchr (s : Bytes) : firstEol (memchr s (byte '\r')) (memchr s (byte '\n')) = s.findIdx? isCrlf := by
  unfold memchr
  induction s with
  | nil => rfl
  | cons c s ih =>
    rw [findIdx?_cons, findIdx?_cons, findIdx?_cons]
    by_cases hcr : c = byte '\r'
    · subst hcr
      cases List.findIdx? (· == byte '\n') s <;> rfl
    by_cases hlf : c = byte '\n'
    · subst hlf
      cases List.findIdx? (· == byte '\r') s <;> rfl
    have hno : isCrlf c = false := by
      simp [isCrlf, hcr, hlf]
    rw [if_neg (by simp [hcr]), if_neg (by simp [hlf]), hno, if_neg Bool.false_ne_true, ← ih]
    exact firstEol_succ _ _

lemma findEolCharLoop_eq {k : Nat} {s : Bytes} (hk : s.length < k) (start : Nat) :
    findEolCharLoop k s start = (s.findIdx? isCrlf).map (start + ·) := by
  induction k generalizing s start with
  | zero => omega
  | succ k ih =>
    unfold findEolCharLoop
    split_ifs with hnil
    · rw [hnil]
      rfl
    · have hpos := length_pos_iff.2 hnil
      have hchunk := firstEol_memchr (s.take chunkSz)
      have hsz : chunkSz = 128 := rfl
      conv_rhs => rw [← take_append_drop chunkSz s, findIdx?_append, ← hchunk]
      dsimp only
      cases hcr : memchr (s.take chunkSz) (byte '\r') with
      | some cr =>
        cases memchr (s.take chunkSz) (byte '\n') with
        | some lf =>
          dsimp only [firstEol]
          split <;> rfl
        | none => rfl
      | none =>
        cases hlf : memchr (s.take chunkSz) (byte '\n') with
        | some lf => rfl
        | none =>
          dsimp only [firstEol]
          rw [ih (by rw [length_drop]; omega), Option.none_or, Option.map_map]
          cases hlater : (s.drop chunkSz).findIdx? isCrlf with
          | none => rfl
          | some d =>
            have hlong : chunkSz ≤ s.length := by
              by_contra hshort
              rw [drop_of_length_le (by omega)] at hlater
              cases hlater
            rw [Option.map_some, Option.map_some, Function.comp_apply, length_take, Nat.min_eq_left hlong]
            congr 1
            omega

lemma findEolChar_eq (s : Bytes) : findEolChar s = s.findIdx? isCrlf := by
  rw [findEolChar, findEolCharLoop_eq (Nat.lt_succ_self _)]
  cases s.findIdx? isCrlf with
  | none => rfl
  | some d => rw [Option.map_some, Nat.zero_add]

end Scans

section EndOfLine

variable {style : EvbufferEolStyle} {content line eol rest eol' rest' : Bytes} {b : UInt8}

def IsEol : EvbufferEolStyle → Bytes → Bytes → Prop
  | .any, eol, rest => eol ≠ [] ∧ (∀ b ∈ eol, isCrlf b) ∧ ∀ b ∈ rest.head?, isCrlf b = false
  | .crlf, eol, _ => eol = [byte '\n'] ∨ eol = [byte '\r', byte '\n']
  | .crlfStrict, eol, _ => eol = [byte '\r', byte '\n']
  | .lf, eol, _ => eol = [byte '\n']
  | .nul, eol, _ => eol = [0]

structure FirstLine (style : EvbufferEolStyle) (content line eol rest : Bytes) : Prop where
  cut : content = line ++ (eol ++ rest)
  isEol : IsEol style eol rest
  shortest : ∀ line' eol' rest', content = line' ++ (eol' ++ rest') → IsEol style eol' rest' →
    line.length ≤ line'.length

def NoEol (style : EvbufferEolStyle) (content : Bytes) : Prop :=
  ∀ line eol rest, content = line ++ (eol ++ rest) → ¬IsEol style eol rest

lemma isEol_run (hb : isCrlf b) (tail : Bytes) :
    IsEol .any ((b :: tail).takeWhile isCrlf) ((b :: tail).dropWhile isCrlf) := by
  refine ⟨?_, fun c hc => mem_takeWhile_imp hc, ?_⟩
  · rw [takeWhile_cons_of_pos hb]
    exact cons_ne_nil _ _
  · intro c hc
    have hhead := head?_dropWhile_not isCrlf (b :: tail)
    rw [Option.mem_def.1 hc] at hhead
    exact hhead

lemma IsEol.takeWhile (h : IsEol .any eol rest) : (eol ++ rest).takeWhile isCrlf = eol := by
  rw [takeWhile_append_of_pos h.2.1]
  cases rest with
  | nil => rw [takeWhile_nil, append_nil]
  | cons b rest =>
    rw [takeWhile_cons_of_neg (by rw [h.2.2 b rfl]; exact Bool.false_ne_true), append_nil]

lemma IsEol.unique (h : IsEol style eol rest) (h' : IsEol style eol' rest')
    (heq : eol ++ rest = eol' ++ rest') : eol = eol' ∧ rest = rest' := by
  have hlen : eol.length = eol'.length := by
    cases style with
    | any => rw [← h.takeWhile, ← h'.takeWhile, heq]
    | crlf =>
      rcases h with rfl | rfl <;> rcases h' with rfl | rfl
      · rfl
      · cases heq
      · cases heq
      · rfl
    | crlfStrict | lf | nul => rw [show eol = _ from h, show eol' = _ from h']
  exact append_inj heq hlen

lemma FirstLine.unique {line' : Bytes} (h : FirstLine style content line eol rest)
    (h' : FirstLine style content line' eol' rest') : line = line' ∧ eol = eol' ∧ rest = rest' := by
  have hlen : line.length = line'.length :=
    le_antisymm (h.shortest _ _ _ h'.cut h'.isEol) (h'.shortest _ _ _ h.cut h.isEol)
  obtain ⟨hline, htail⟩ := append_inj (h.cut.symm.trans h'.cut) hlen
  exact ⟨hline, h.isEol.unique h'.isEol htail⟩

lemma FirstLine.not_refused (h : FirstLine style content line eol rest) {freezeStart malloc : Bool}
    (hopen : freezeStart = false) (hmem : malloc) :
    ¬(freezeStart ∨ malloc = false ∨ NoEol style content) := by
  subst hopen hmem
  rintro (hfrozen | hnomem | hno)
  · cases hfrozen
  · cases hnomem
  · exact hno _ _ _ h.cut h.isEol

lemma getElem?_eol (hcut : content = line ++ (eol ++ rest)) (k : Nat) (hk : k < eol.length) :
    content[line.length + k]? = eol[k]? := by
  rw [hcut, getElem?_append_right (Nat.le_add_right _ _), Nat.add_sub_cancel_left, getElem?_append_left hk]

def eolDrain : EvbufferEolStyle → Nat → Nat
  | .any, len => intToSize (cInt len)
  | _, len => len

def FindsEol (style : EvbufferEolStyle) (content : Bytes) (r : Option (EvbufferPtr × Nat)) : Prop :=
  (r = none ∧ NoEol style content) ∨
    ∃ q len line eol rest, r = some (q, len) ∧ FirstLine style content line eol rest ∧
      q.pos = line.length ∧ len = eolDrain style eol.length

variable {sought : UInt8 → Bool} {d : Nat}

lemma findIdx?_some (h : content.findIdx? sought = some d) :
    ∃ b tail, content = content.take d ++ (b :: tail) ∧ (content.take d).length = d ∧ sought b ∧
      ∀ t < d, ∀ c, content[t]? = some c → sought c = false := by
  obtain ⟨hd, hb, hbefore⟩ := findIdx?_eq_some_iff_getElem.1 h
  refine ⟨content[d], content.drop (d + 1), ?_, length_take_of_le hd.le, hb, ?_⟩
  · rw [← drop_eq_getElem_cons hd, take_append_drop]
  · intro t ht c hc
    obtain ⟨hlt, rfl⟩ := List.getElem?_eq_some_iff.1 hc
    exact Bool.eq_false_iff.2 (hbefore t ht)

/-- A search for the bytes that begin an end of line finds the first line, if it counts the end right. -/
lemma ScanFinds.findsEol {chains : List Bytes} {r : Option EvbufferPtr} {count : EvbufferPtr → Nat}
    (hscan : ScanFinds chains (chains.flatten.findIdx? sought) r)
    (hbegins : ∀ eol rest, IsEol style eol rest → ∃ b tail, eol = b :: tail ∧ sought b)
    (hcount : ∀ q d c tail, PtrOn chains q d → chains.flatten.drop d = c :: tail → sought c →
      ∃ eol rest, c :: tail = eol ++ rest ∧ IsEol style eol rest ∧ count q = eolDrain style eol.length) :
    FindsEol style chains.flatten (r.map fun it => (it, count it)) := by
  rcases hscan with ⟨hnone, rfl⟩ | ⟨d, q, hfound, rfl, hon⟩
  · refine .inl ⟨rfl, ?_⟩
    intro line eol rest hcut h
    obtain ⟨b, tail, rfl, hb⟩ := hbegins _ _ h
    have hmem : b ∈ chains.flatten := by simp [hcut]
    exact Bool.false_ne_true ((findIdx?_eq_none_iff.1 hnone b hmem).symm.trans hb)
  · obtain ⟨c, tail, hcut, hlen, hc, hbefore⟩ := findIdx?_some hfound
    have htail : chains.flatten.drop d = c :: tail := by
      conv_lhs => rw [hcut]
      rw [drop_left' hlen]
    obtain ⟨eol, rest, htail', heol, hcounted⟩ := hcount q d c tail hon htail hc
    rw [htail'] at hcut
    refine .inr ⟨q, _, chains.flatten.take d, eol, rest, rfl, ⟨hcut, heol, ?_⟩, ?_, hcounted⟩
    · intro line' eol' rest' hcut' h'
      obtain ⟨b, tail', rfl, hb⟩ := hbegins _ _ h'
      have hat := getElem?_eol hcut' 0 (Nat.succ_pos _)
      rw [hlen]
      by_contra hlt
      exact Bool.false_ne_true ((hbefore _ (not_le.1 hlt) b hat).symm.trans hb)
    · rw [hon.pos, hlen]

lemma evbufferStrchr_findsEol (chains : List Bytes)
    (heol : ∀ eol rest, IsEol style eol rest ↔ eol = [b]) (hdrain : eolDrain style 1 = 1) :
    FindsEol style chains.flatten ((evbufferStrchr chains (startPtr chains) b).map fun it => (it, 1)) := by
  refine ScanFinds.findsEol (scanFrom_finds (fun _ => rfl) chains) ?_ ?_
  · intro eol rest h
    exact ⟨b, [], (heol _ _).1 h, beq_self_eq_true b⟩
  · intro q d c tail _ _ hc
    exact ⟨[c], tail, rfl, (heol _ _).2 (by rw [beq_iff_eq.1 hc]), hdrain.symm⟩

lemma findEolChar_findsEol (chains : List Bytes) :
    FindsEol .any chains.flatten ((evbufferFindEolChar chains (startPtr chains)).map fun it =>
      (it, intToSize (evbufferStrspn chains it isCrlf).1)) := by
  refine ScanFinds.findsEol (scanFrom_finds findEolChar_eq chains) ?_ ?_
  · rintro eol rest ⟨hne, hall, -⟩
    obtain ⟨b, tail, rfl⟩ := exists_cons_of_ne_nil hne
    exact ⟨b, tail, rfl, hall b mem_cons_self⟩
  · intro q d c tail hon htail hc
    refine ⟨_, _, takeWhile_append_dropWhile.symm, isEol_run hc tail, ?_⟩
    rw [hon.strspn, htail]
    rfl

lemma evbufferSearch_findsEol (buf : SplitBuffer) :
    FindsEol .crlfStrict buf.content
      (if (evbufferSearch buf.chains [byte '\r', byte '\n'] (some (startPtr buf.chains))).pos < 0 then none
      else some (evbufferSearch buf.chains [byte '\r', byte '\n'] (some (startPtr buf.chains)), 2)) := by
  obtain ⟨q, hq⟩ : ∃ q, evbufferSearch buf.chains [byte '\r', byte '\n'] (some (startPtr buf.chains)) = q :=
    ⟨_, rfl⟩
  have hocc : ∀ line eol rest, buf.content = line ++ (eol ++ rest) → IsEol .crlfStrict eol rest →
      OccursAt buf.content [byte '\r', byte '\n'] line.length := by
    intro line eol rest hcut h
    rw [OccursAt, hcut, drop_left, show eol = _ from h]
    exact prefix_append _ _
  have hfinds : FindsLeast buf.chains q (occurrences buf.content [byte '\r', byte '\n'] 0 none) := by
    rw [← hq]
    exact searchLoop_finds (by decide) buf.fits (by simp) (startPtr_at _) (by simp [startPtr])
  rw [hq]
  rcases hfinds with ⟨r, hat, hleast⟩ | ⟨rfl, hempty⟩
  · obtain ⟨rest, hrest⟩ := hleast.1.2.1
    have hlen : (buf.content.take r).length = r := length_take_of_le hat.le
    rw [if_neg (by rw [hat.pos]; omega)]
    refine .inr ⟨q, 2, buf.content.take r, _, rest, rfl, ⟨?_, rfl, ?_⟩, ?_, rfl⟩
    · rw [hrest, take_append_drop]
    · intro line' eol' rest' hcut' h'
      rw [hlen]
      exact hleast.2 ⟨Nat.zero_le _, hocc _ _ _ hcut' h', by simp⟩
    · rw [hat.pos, hlen]
  · rw [if_pos (by decide)]
    refine .inl ⟨rfl, ?_⟩
    intro line eol rest hcut h
    have hmem : line.length ∈ occurrences buf.content [byte '\r', byte '\n'] 0 none :=
      ⟨Nat.zero_le _, hocc _ _ _ hcut h, by simp⟩
    rw [hempty] at hmem
    exact hmem

lemma crlf_begins (hbefore : ∀ t < d, ∀ c, content[t]? = some c → (c == byte '\n') = false)
    (hcut : content = line ++ (eol ++ rest)) (h : IsEol .crlf eol rest) :
    d ≤ line.length ∨ (line.length + 1 = d ∧ content[line.length]? = some (byte '\r')) := by
  have hfirst : ∀ k, content[k]? = some (byte '\n') → d ≤ k := by
    intro k hk
    by_contra hlt
    exact Bool.false_ne_true ((hbefore k (not_le.1 hlt) _ hk).symm.trans (beq_self_eq_true _))
  rcases h with rfl | rfl
  · exact .inl (hfirst _ (getElem?_eol hcut 0 Nat.one_pos))
  · have hlf := hfirst _ (getElem?_eol hcut 1 Nat.one_lt_two)
    rcases Nat.lt_or_ge line.length d with hlt | hge
    · exact .inr ⟨by omega, getElem?_eol hcut 0 Nat.two_pos⟩
    · exact .inl hge

lemma evbufferSearchEol_crlf (chains : List Bytes) :
    FindsEol .crlf chains.flatten (searchEolFrom chains (startPtr chains) .crlf) := by
  have hscan : ScanFinds chains (chains.flatten.findIdx? (· == byte '\n'))
      (evbufferStrchr chains (startPtr chains) (byte '\n')) := scanFrom_finds (fun _ => rfl) chains
  unfold searchEolFrom
  dsimp only
  rcases hscan with ⟨hnone, hr⟩ | ⟨d, q, hfound, hr, hon⟩
  · rw [hr]
    refine .inl ⟨rfl, ?_⟩
    intro line eol rest hcut h
    have hmem : byte '\n' ∈ chains.flatten := by
      rcases h with rfl | rfl
      · simp [hcut]
      · simp [hcut]
    exact Bool.false_ne_true ((findIdx?_eq_none_iff.1 hnone _ hmem).symm.trans (beq_self_eq_true _))
  obtain ⟨c, tail, hcut, hlen, hc, hbefore⟩ := findIdx?_some hfound
  rw [beq_iff_eq.1 hc] at hcut
  -- The line ends at the LF unless a CR stands before it.
  have hlf : chains.flatten[d - 1]? ≠ some (byte '\r') ∨ d = 0 → FindsEol .crlf chains.flatten (some (q, 1)) := by
    intro hnocr
    refine .inr ⟨q, 1, chains.flatten.take d, [byte '\n'], tail, rfl, ⟨hcut, .inl rfl, ?_⟩, ?_, rfl⟩
    · intro line' eol' rest' hcut' h'
      rw [hlen]
      rcases crlf_begins hbefore hcut' h' with hle | ⟨hprev, hcr⟩
      · exact hle
      · rcases hnocr with hne | hzero
        · rw [← hprev, Nat.add_sub_cancel] at hne
          exact absurd hcr hne
        · omega
    · rw [hon.pos, hlen]
  have hstart : (startPtr chains).pos = 0 := rfl
  rw [hr, Option.map_some, hon.pos, hstart]
  split
  · exact hlf (.inr (by omega))
  rename_i hpos
  have hpos : 0 < d := by omega
  obtain ⟨hzero, hback⟩ := evbufferPtrSubtract_on hon hpos
  have hlt := hback.lt
  have hbyte := getElem?_eq_getElem hlt
  rw [hzero, if_neg (by decide), hback.getchr hbyte]
  split
  · rename_i hcr
    have hcr : chains.flatten[d - 1] = byte '\r' := UInt8.toNat_inj.1 (Int.ofNat_inj.1 hcr)
    have hshort : (chains.flatten.take (d - 1)).length = d - 1 := length_take_of_le hlt.le
    refine .inr ⟨_, 2, chains.flatten.take (d - 1), [byte '\r', byte '\n'], tail, rfl, ⟨?_, .inr rfl, ?_⟩, ?_, rfl⟩
    · have htake : chains.flatten.take d = chains.flatten.take (d - 1) ++ [byte '\r'] := by
        conv_lhs => rw [← Nat.sub_add_cancel hpos]
        rw [take_succ_eq_append_getElem hlt, hcr]
      conv_lhs => rw [hcut, htake]
      rw [append_assoc]
      rfl
    · intro line' eol' rest' hcut' h'
      rw [hshort]
      rcases crlf_begins hbefore hcut' h' with hle | ⟨hprev, -⟩
      · omega
      · omega
    · rw [hback.pos, hshort]
  · rename_i hno
    refine hlf (.inl ?_)
    rw [hbyte]
    intro hcr
    rw [Option.some.injEq] at hcr
    exact hno (by rw [hcr])

lemma searchEolFrom_findsEol (buf : SplitBuffer) (style : EvbufferEolStyle) :
    FindsEol style buf.content (searchEolFrom buf.chains (startPtr buf.chains) style) := by
  cases style with
  | any => exact findEolChar_findsEol buf.chains
  | crlf => exact evbufferSearchEol_crlf buf.chains
  | crlfStrict => exact evbufferSearch_findsEol buf
  | lf | nul => exact evbufferStrchr_findsEol buf.chains (fun _ _ => Iff.rfl) rfl

end EndOfLine

section Readln

variable {buf : SplitBuffer} {style : EvbufferEolStyle} {malloc : Bool}
  {content line eol rest : Bytes}

lemma copyoutChains_eq (chains : List Bytes) (datlen : Nat) :
    copyoutChains chains datlen = chains.flatten.take datlen := by
  induction chains generalizing datlen with
  | nil => rw [copyoutChains, flatten_nil, take_nil]
  | cons chain chains ih =>
    unfold copyoutChains
    split_ifs with hwhole
    · rw [ih, flatten_cons, take_append, take_of_length_le hwhole]
    · rw [flatten_cons, take_append_of_le_length (by omega)]

lemma content_drain (buf : SplitBuffer) (len : Nat) : (buf.drain len).content = buf.content.drop len :=
  flatten_drainChains buf.chains len

lemma remove_eq (buf : SplitBuffer) (datlen : Nat) :
    (buf.remove datlen).1 = buf.content.take datlen ∧ (buf.remove datlen).2.content = buf.content.drop datlen := by
  refine ⟨copyoutChains_eq buf.chains datlen, ?_⟩
  unfold SplitBuffer.remove
  split_ifs with hzero
  · exact content_drain buf datlen
  · rw [Nat.eq_zero_of_not_pos hzero, drop_zero]

/-- A call that gives no line leaves the buffer as it is. One that gives a line gives the first one, and drains
the bytes that `evbuffer_search_eol` has counted. -/
lemma readln_cases (buf : SplitBuffer) (style : EvbufferEolStyle) (malloc : Bool) :
    (buf.readln style malloc = (none, buf) ∧
        (buf.freezeStart ∨ malloc = false ∨ NoEol style buf.content)) ∨
      ∃ line eol rest, FirstLine style buf.content line eol rest ∧ buf.freezeStart = false ∧
        malloc ∧ (buf.readln style malloc).1 = some line ∧
        (buf.readln style malloc).2.content = (eol ++ rest).drop (eolDrain style eol.length) := by
  unfold SplitBuffer.readln evbufferSearchEol
  split
  · rename_i hfrozen
    exact .inl ⟨rfl, .inl hfrozen⟩
  rename_i hfrozen
  rw [Option.getD_none]
  rcases searchEolFrom_findsEol buf style with ⟨hr, hno⟩ | ⟨q, len, line, eol, rest, hr, hline, hpos, hlen⟩
  · rw [hr]
    exact .inl ⟨rfl, .inr (.inr hno)⟩
  rw [hr]
  dsimp only [Option.getD_some]
  rw [if_neg (by omega)]
  split_ifs with hmalloc
  · exact .inl ⟨rfl, .inr (.inl hmalloc)⟩
  · obtain ⟨htake, hdrop⟩ := remove_eq buf q.pos.toNat
    have hat : q.pos.toNat = line.length := by omega
    refine .inr ⟨line, eol, rest, hline, Bool.eq_false_iff.2 hfrozen, Bool.not_eq_false _ ▸ hmalloc, ?_, ?_⟩
    · rw [htake, hat, hline.cut, take_left]
    · rw [content_drain, hdrop, hat, hline.cut, drop_left, hlen]

/-- What a call is for. The first line is taken out with its end; a buffer without a complete line is left as
it is, as is one that is frozen or for whose line there is no memory. -/
structure ReadsLine (buf : SplitBuffer) (style : EvbufferEolStyle) (malloc : Bool) : Prop where
  reads : (buf.readln style malloc = (none, buf) ∧
      (buf.freezeStart ∨ malloc = false ∨ NoEol style buf.content)) ∨
    ∃ line eol, (buf.readln style malloc).1 = some line ∧
      FirstLine style buf.content line eol (buf.readln style malloc).2.content
  unsplit : ∀ buf' : SplitBuffer, buf'.content = buf.content → buf'.freezeStart = buf.freezeStart →
    (buf'.readln style malloc).1 = (buf.readln style malloc).1 ∧
      (buf'.readln style malloc).2.content = (buf.readln style malloc).2.content

lemma readln_unsplit {buf' : SplitBuffer} (hcontent : buf'.content = buf.content)
    (hfreeze : buf'.freezeStart = buf.freezeStart) :
    (buf'.readln style malloc).1 = (buf.readln style malloc).1 ∧
      (buf'.readln style malloc).2.content = (buf.readln style malloc).2.content := by
  have hcases' := readln_cases buf' style malloc
  rw [hcontent, hfreeze] at hcases'
  rcases readln_cases buf style malloc with ⟨hr, hwhy⟩ | ⟨line, eol, rest, hline, hopen, hmem, hr, hleft⟩ <;>
    rcases hcases' with ⟨hr', hwhy'⟩ | ⟨line', eol', rest', hline', hopen', hmem', hr', hleft'⟩
  · rw [hr, hr']
    exact ⟨rfl, hcontent⟩
  · exact absurd hwhy (hline'.not_refused hopen' hmem')
  · exact absurd hwhy' (hline.not_refused hopen hmem)
  · obtain ⟨rfl, rfl, rfl⟩ := hline.unique hline'
    exact ⟨hr'.trans hr.symm, hleft'.trans hleft.symm⟩

def eolRun (content : Bytes) : Bytes :=
  (content.dropWhile fun b => !isCrlf b).takeWhile isCrlf

def behindRun (content : Bytes) : Bytes :=
  (content.dropWhile fun b => !isCrlf b).dropWhile isCrlf

def RunCounted (content : Bytes) : Prop :=
  (eolRun content).length < 2 ^ 31 ∨ (2 ^ 31 ≤ (eolRun content).length % 2 ^ 32 ∧ behindRun content = [])

lemma FirstLine.run (h : FirstLine .any content line eol rest) :
    eolRun content = eol ∧ behindRun content = rest := by
  have hline : ∀ b ∈ line, (!isCrlf b) := by
    intro b hb
    by_contra hcrlf
    rw [Bool.not_eq_true, Bool.not_eq_false'] at hcrlf
    obtain ⟨front, back, rfl⟩ := append_of_mem hb
    have hshort := h.shortest front _ _ (by
      rw [takeWhile_append_dropWhile, h.cut, append_assoc, cons_append])
      (isEol_run hcrlf (back ++ (eol ++ rest)))
    rw [length_append, length_cons] at hshort
    omega
  obtain ⟨b, tail, heol⟩ := exists_cons_of_ne_nil h.isEol.1
  have hb : isCrlf b := h.isEol.2.1 b (heol ▸ mem_cons_self)
  have hdrop : (content.dropWhile fun b => !isCrlf b) = eol ++ rest := by
    rw [h.cut, dropWhile_append_of_pos hline, heol, cons_append, dropWhile_cons_of_neg (by simp [hb])]
  have hrun : eolRun content = eol := by rw [eolRun, hdrop, h.isEol.takeWhile]
  refine ⟨hrun, ?_⟩
  have hsplit := takeWhile_append_dropWhile (p := isCrlf) (l := eol ++ rest)
  rw [h.isEol.takeWhile] at hsplit
  rw [behindRun, hdrop]
  exact append_cancel_left hsplit

lemma drop_counted_iff (hfits : (eol ++ rest).length ≤ evSsizeMax) :
    (eol ++ rest).drop (intToSize (cInt eol.length)) = rest ↔
      eol.length < 2 ^ 31 ∨ (2 ^ 31 ≤ eol.length % 2 ^ 32 ∧ rest = []) := by
  rw [length_append, show evSsizeMax = 2 ^ 63 - 1 from rfl] at hfits
  have hcount : intToSize (cInt eol.length) = if eol.length % 2 ^ 32 < 2 ^ 31 then eol.length % 2 ^ 32
      else 2 ^ 64 - 2 ^ 32 + eol.length % 2 ^ 32 := by
    unfold intToSize cInt
    rw [Int.bmod_def]
    split
    · rw [if_pos (by omega)]
      omega
    · rw [if_neg (by omega)]
      omega
  rw [hcount]
  by_cases hshort : eol.length < 2 ^ 31
  · rw [if_pos (by omega), Nat.mod_eq_of_lt (by omega), drop_left]
    exact iff_of_true rfl (.inl hshort)
  split_ifs with hlow
  · refine iff_of_false ?_ (by omega)
    intro heq
    have hlen := congrArg List.length heq
    rw [length_drop, length_append] at hlen
    omega
  · rw [drop_of_length_le (by rw [length_append]; omega)]
    constructor
    · intro heq
      exact .inr ⟨by omega, heq.symm⟩
    · rintro (hlt | ⟨-, rfl⟩)
      · exact absurd hlt hshort
      · rfl

lemma FirstLine.drained_iff (h : FirstLine style buf.content line eol rest) :
    (eol ++ rest).drop (eolDrain style eol.length) = rest ↔ style ≠ .any ∨ RunCounted buf.content := by
  cases style with
  | any =>
    obtain ⟨hrun, hbehind⟩ := h.run
    have hfits := buf.fits
    rw [← SplitBuffer.content, h.cut, length_append] at hfits
    rw [RunCounted, hrun, hbehind, or_iff_right (not_not_intro rfl)]
    exact drop_counted_iff (by omega)
  | crlf | crlfStrict | lf | nul =>
    exact iff_of_true drop_left (.inl EvbufferEolStyle.noConfusion)

lemma NoEol.runCounted (h : NoEol .any content) : RunCounted content := by
  have hsplit := takeWhile_append_dropWhile (p := fun b => !isCrlf b) (l := content)
  have hnil : eolRun content = [] := by
    unfold eolRun
    cases hd : content.dropWhile fun b => !isCrlf b with
    | nil => rfl
    | cons b tail =>
      have hhead := head?_dropWhile_not (fun b => !isCrlf b) content
      rw [hd] at hhead hsplit
      have hb : isCrlf b := by simpa using hhead
      refine absurd (isEol_run hb tail) (h (content.takeWhile fun b => !isCrlf b) _ _ ?_)
      rw [takeWhile_append_dropWhile, hsplit]
  refine .inl ?_
  rw [hnil]
  decide

/-- A call does what it is for, unless it takes a line in the style `EVBUFFER_EOL_ANY` whose end is not
counted right. -/
theorem readln_readsLine_iff (buf : SplitBuffer) (style : EvbufferEolStyle) (malloc : Bool) :
    ReadsLine buf style malloc ↔ (buf.freezeStart ∨ malloc = false ∨ style ≠ .any ∨ RunCounted buf.content) := by
  constructor
  · rintro ⟨⟨-, hfrozen | hnomem | hno⟩ | ⟨line, eol, hsome, hline⟩, -⟩
    · exact .inl hfrozen
    · exact .inr (.inl hnomem)
    · by_cases hstyle : style = .any
      · subst hstyle
        exact .inr (.inr (.inr hno.runCounted))
      · exact .inr (.inr (.inl hstyle))
    · rcases readln_cases buf style malloc with ⟨hnone, -⟩ | ⟨line', eol', rest', hline', -, -, -, hleft⟩
      · rw [hnone] at hsome
        cases hsome
      · obtain ⟨-, -, hrest⟩ := hline.unique hline'
        exact .inr (.inr (hline'.drained_iff.1 (hleft.symm.trans hrest)))
  · intro hcond
    refine ⟨?_, fun buf' hcontent hfreeze => readln_unsplit hcontent hfreeze⟩
    rcases readln_cases buf style malloc with hnone | ⟨line, eol, rest, hline, hopen, hmem, hr, hleft⟩
    · exact .inl hnone
    · rw [hopen, hmem, or_iff_right Bool.false_ne_true, or_iff_right Bool.false_ne_true.symm] at hcond
      refine .inr ⟨line, eol, hr, ?_⟩
      rw [hleft, hline.drained_iff.2 hcond]
      exact hline

def longRun : SplitBuffer where
  chains := [List.replicate (2 ^ 31) (byte '\n'), [byte 'x']]
  freezeStart := false
  fits := by
    rw [flatten_cons, length_append, length_replicate]
    decide

/-- The byte behind the run is drained too. -/
theorem not_readsLine_longRun : ¬ReadsLine longRun .any true := by
  obtain ⟨feeds, hfeeds⟩ : ∃ feeds, feeds = List.replicate (2 ^ 31) (byte '\n') := ⟨_, rfl⟩
  have hlen : feeds.length = 2 ^ 31 := by rw [hfeeds, length_replicate]
  have hcontent : longRun.content = [] ++ (feeds ++ [byte 'x']) := by
    have hchains : longRun.chains = [feeds, [byte 'x']] := by
      rw [hfeeds]
      rfl
    rw [SplitBuffer.content, hchains]
    rfl
  have hline : FirstLine .any longRun.content [] feeds [byte 'x'] := by
    refine ⟨hcontent, ⟨?_, ?_, ?_⟩, fun _ _ _ _ _ => Nat.zero_le _⟩
    · rintro rfl
      cases hlen
    · intro b hb
      rw [hfeeds] at hb
      rw [eq_of_mem_replicate hb]
      rfl
    · rintro b ⟨⟩
      rfl
  intro h
  rcases h.reads with ⟨-, hwhy⟩ | ⟨line, eol, -, hread⟩
  · exact hline.not_refused rfl rfl hwhy
  · rcases readln_cases longRun .any true with ⟨-, hwhy⟩ | ⟨line', eol', rest', hline', -, -, -, hleft⟩
    · exact hline.not_refused rfl rfl hwhy
    · obtain ⟨-, -, hrest⟩ := hread.unique hline'
      have hcounted := hline'.drained_iff.1 (hleft.symm.trans hrest)
      obtain ⟨hrun, hbehind⟩ := hline.run
      rw [RunCounted, hrun, hbehind, hlen] at hcounted
      rcases hcounted with hstyle | hlt | ⟨-, hnil⟩
      · exact hstyle rfl
      · exact absurd hlt (lt_irrefl _)
      · cases hnil

end Readln

end MyLibevent.Proofs
