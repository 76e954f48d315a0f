import MyLibevent.DnsReply
import MyLibevent.Proofs.DnsName
import MyLibevent.Proofs.Lines

/-!
# Replies are checked against the name that was sent

The packet of a request holds the name `request_new` has chosen, letter case included. The question name of a
reply is compared with it, and case counts exactly when it was not randomised.
-/

namespace MyLibevent.Proofs

open List

structure KeepsLabels (f : Nat → UInt8 → UInt8) : Prop where
  dot : ∀ i, f i dotByte = dotByte
  no_dot : ∀ i c, c ≠ dotByte → f i c ≠ dotByte
  no_nul : ∀ i c, c ≠ 0 → f i c ≠ 0

variable {f : Nat → UInt8 → UInt8} {l packet : Bytes} {labels : List Bytes} {on : Bool}

lemma KeepsLabels.shift (h : KeepsLabels f) (n : Nat) : KeepsLabels fun i => f (i + n) :=
  ⟨fun i => h.dot (i + n), fun i => h.no_dot (i + n), fun i => h.no_nul (i + n)⟩

lemma not_mem_mapIdx {x : UInt8} (h : ∀ i c, c ≠ x → f i c ≠ x) (hl : x ∉ l) : x ∉ l.mapIdx f := by
  intro hmem
  obtain ⟨i, hi, heq⟩ := mem_mapIdx.mp hmem
  refine h i _ ?_ heq
  rintro rfl
  exact hl (getElem_mem hi)

lemma ValidLabels.cons {ls : List Bytes} (hpos : 1 ≤ l.length) (hle : l.length ≤ 63)
    (hdot : dotByte ∉ l) (hnul : 0 ∉ l) (h : ValidLabels ls) : ValidLabels (l :: ls) := by
  constructor
  · exact forall_mem_cons.mpr ⟨hpos, h.length_pos⟩
  · exact forall_mem_cons.mpr ⟨hle, h.length_le⟩
  · exact forall_mem_cons.mpr ⟨hdot, h.no_dot⟩
  · exact forall_mem_cons.mpr ⟨hnul, h.no_nul⟩

lemma joinLabels_mapIdx (hv : ValidLabels labels) (hf : KeepsLabels f) :
    ∃ labels', (joinLabels labels).mapIdx f = joinLabels labels' ∧ ValidLabels labels' ∧
      (labels' = [] ↔ labels = []) := by
  induction labels generalizing f with
  | nil => exact ⟨[], rfl, hv, Iff.rfl⟩
  | cons l ls ih =>
    have hlen : (l.mapIdx f).length = l.length := length_mapIdx
    have hhead {ls' : List Bytes} (h : ValidLabels ls') : ValidLabels (l.mapIdx f :: ls') := by
      refine h.cons ?_ ?_ ?_ ?_
      · rw [hlen]
        exact hv.length_pos l mem_cons_self
      · rw [hlen]
        exact hv.length_le l mem_cons_self
      · exact not_mem_mapIdx hf.no_dot (hv.no_dot l mem_cons_self)
      · exact not_mem_mapIdx hf.no_nul (hv.no_nul l mem_cons_self)
    cases ls with
    | nil =>
      refine ⟨[l.mapIdx f], ?_, hhead hv.tail, by simp⟩
      rw [joinLabels_singleton, joinLabels_singleton]
    | cons l' ls =>
      obtain ⟨labels', hname, hv', hnil⟩ := ih hv.tail (hf.shift (l.length + 1))
      cases labels' with
      | nil => exact absurd (hnil.mp rfl) (cons_ne_nil _ _)
      | cons m ms =>
        refine ⟨l.mapIdx f :: m :: ms, ?_, hhead hv', by simp⟩
        have hshift : (fun i => f (i + 1 + l.length)) = fun i => f (i + (l.length + 1)) := by
          funext i
          congr 1
          omega
        rw [joinLabels_cons_cons, joinLabels_cons_cons, ← hname, mapIdx_append,
          mapIdx_cons, Nat.zero_add, hf.dot, hshift]

lemma isAlpha_setCase (c : UInt8) : isAlpha c → isAlpha (c ||| 0x20) ∧ isAlpha (c &&& ~~~0x20) := by
  revert c
  apply forall_byte
  decide +kernel

def setCase (randbits : Bytes) (i : Nat) (c : UInt8) : UInt8 :=
  if isAlpha c then
    if (randbits.getD (i / 8) 0 >>> UInt8.ofNat (i % 8)) &&& 1 ≠ 0 then c ||| 0x20
    else c &&& ~~~0x20
  else c

lemma isAlpha_or_setCase (randbits : Bytes) (i : Nat) (c : UInt8) :
    isAlpha (setCase randbits i c) ∨ setCase randbits i c = c := by
  unfold setCase
  split
  · rename_i halpha
    left
    split
    · exact (isAlpha_setCase c halpha).1
    · exact (isAlpha_setCase c halpha).2
  · exact Or.inr rfl

lemma keepsLabels_setCase (randbits : Bytes) : KeepsLabels (setCase randbits) := by
  have hne {x : UInt8} (hx : isAlpha x = false) (i : Nat) (c : UInt8) (hc : c ≠ x) : setCase randbits i c ≠ x := by
    rcases isAlpha_or_setCase randbits i c with halpha | hsame
    · rintro heq
      rw [heq, hx] at halpha
      cases halpha
    · rw [hsame]
      exact hc
  exact ⟨fun i => rfl, hne (by decide), hne (by decide)⟩

lemma sentName_valid (hv : ValidDomain labels) (on : Bool) (randbits : Bytes) :
    ∃ labels', sentName on randbits (joinLabels labels) = joinLabels labels' ∧ ValidDomain labels' := by
  cases on with
  | false => exact ⟨labels, rfl, hv⟩
  | true =>
    obtain ⟨labels', hname, hv', -⟩ :=
      joinLabels_mapIdx hv.toValidLabels (keepsLabels_setCase randbits)
    refine ⟨labels', hname, hv', ?_⟩
    rw [← hname, length_mapIdx]
    exact hv.total

def SameBytes (r r' : DnsLabels) : Prop := r.index = r'.index ∧ r.buf = r'.buf

section Request

variable {bufLen x transId type : Nat} {strdup strdup' : Bytes → Nat → Bool}
  {buf name : Bytes} {j : Nat} {labels : List Bytes} {p p' : Bytes × Nat}

lemma sameBytes_last {table table' : Option DnslabelTable}
    (hget : table.bind (dnslabelTableGetPos · name) = none)
    (hget' : table'.bind (dnslabelTableGetPos · name) = none) (hdot : dotByte ∉ name)
    (hlen : name.length ≤ 63) (hroom : j + name.length + 1 ≤ bufLen) :
    SameBytes (dnsnameToLabelsLoop bufLen strdup buf j name table)
      (dnsnameToLabelsLoop bufLen strdup' buf j name table') := by
  rw [dnsnameToLabelsLoop_last hget hdot hlen hroom, dnsnameToLabelsLoop_last hget' hdot hlen hroom]
  simp only
  split
  · exact ⟨rfl, rfl⟩
  · exact ⟨rfl, rfl⟩

lemma sameBytes_none (hv : ValidLabels labels) (hroom : j + (joinLabels labels).length + 2 ≤ bufLen) :
    SameBytes (dnsnameToLabelsLoop bufLen strdup buf j (joinLabels labels) none)
      (dnsnameToLabelsLoop bufLen (fun _ _ => false) buf j (joinLabels labels) (some [])) := by
  induction labels generalizing buf j with
  | nil =>
    exact sameBytes_last rfl rfl not_mem_nil (Nat.zero_le _) (Nat.le_of_succ_le hroom)
  | cons l ls ih =>
    have hldot := hv.no_dot l mem_cons_self
    have hlle := hv.length_le l mem_cons_self
    cases ls with
    | nil =>
      rw [joinLabels_singleton] at hroom ⊢
      exact sameBytes_last rfl rfl hldot hlle (by omega)
    | cons l' ls =>
      rw [joinLabels_cons_cons] at hroom ⊢
      rw [length_append, length_cons] at hroom
      rw [dnsnameToLabelsLoop_label rfl hldot hlle (by omega), dnsnameToLabelsLoop_label rfl hldot hlle (by omega)]
      exact ih hv.tail (by omega)

lemma append16_eq_some (h : append16 bufLen p x = some p') :
    p.2 + 2 ≤ bufLen ∧ p'.1 = writeAt p.1 p.2 (bytes16 x) ∧ p'.2 = p.2 + 2 := by
  unfold append16 at h
  split at h
  · cases h
  · cases h
    exact ⟨by omega, rfl, rfl⟩

lemma append16_keeps (h : append16 bufLen p x = some p') (hbuf : bufLen ≤ p.1.length) :
    p.1.take p.2 <+: p'.1.take p'.2 ∧ p'.1.length = p.1.length ∧ p'.2 = p.2 + 2 := by
  obtain ⟨hroom, hbytes, hidx⟩ := append16_eq_some h
  have hle : p.2 ≤ p.1.length := by omega
  refine ⟨?_, ?_, hidx⟩
  · rw [hbytes, hidx]
    change _ <+: (writeAt p.1 p.2 (bytes16 x)).take (p.2 + (bytes16 x).length)
    rw [take_writeAt hle]
    exact prefix_append _ _
  · rw [hbytes, length_writeAt]
    change p.2 + 2 ≤ _
    omega

lemma evdnsRequestDataBuild_name (hv : ValidDomain labels) {class' : Nat}
    (hlen : buf.length = evdnsRequestLen (joinLabels labels).length)
    (h : evdnsRequestDataBuild (joinLabels labels) transId type class' buf buf.length = some p) :
    ∃ labels' stop, joinLabels labels' = joinLabels labels ∧ NameAt (p.1.take p.2) 12 labels' 0 stop := by
  simp only [evdnsRequestDataBuild, Option.bind_eq_bind, Option.bind_eq_some_iff] at h
  obtain ⟨p1, h1, p2, h₂, p3, h3, p4, h₄, p5, h5, p6, h₆, h⟩ := h
  obtain ⟨-, hlen1, hidx1⟩ := append16_keeps h1 (Nat.le_refl _)
  simp only at hlen1 hidx1
  obtain ⟨-, hlen2, hidx2⟩ := append16_keeps h₂ (by omega)
  obtain ⟨-, hlen3, hidx3⟩ := append16_keeps h3 (by omega)
  obtain ⟨-, hlen4, hidx4⟩ := append16_keeps h₄ (by omega)
  obtain ⟨-, hlen5, hidx5⟩ := append16_keeps h5 (by omega)
  obtain ⟨-, hlen6, hidx6⟩ := append16_keeps h₆ (by omega)
  have hj : p6.2 = 12 := by omega
  rw [hj] at h
  unfold evdnsRequestLen at hlen
  -- the name is written as with an empty table, which gives no jumps
  have htotal := hv.total
  have hroom : 12 + (joinLabels labels).length + 2 ≤ buf.length := by omega
  obtain ⟨hindex, hbytes⟩ : SameBytes
      (dnsnameToLabelsLoop buf.length (fun _ _ => true) p6.1 12 (joinLabels labels) none)
      (dnsnameToLabelsLoop buf.length (fun _ _ => false) p6.1 12 (joinLabels labels) (some [])) :=
    sameBytes_none hv.toValidLabels hroom
  obtain ⟨hnonneg, hle⟩ : Fits 12 (joinLabels labels)
      (dnsnameToLabelsLoop buf.length (fun _ _ => false) p6.1 12 (joinLabels labels) (some [])) :=
    fits_labels hv.toValidLabels hroom
  rw [dnsnameToLabels_eq hv, if_neg (by rw [hindex]; omega), hindex, hbytes] at h
  obtain ⟨enc, new, hw⟩ := written_labels hv.toValidLabels (by omega) nil_prefix (by omega)
    (by simp [ReadableUpTo]) rfl hnonneg (by omega) (by omega)
  have hidx : (dnsnameToLabelsLoop buf.length (fun _ _ => false) p6.1 12 (joinLabels labels)
      (some [])).index.toNat = 12 + enc.length := by
    rw [hw.index]
    rfl
  have hwlen := hw.length
  rw [hidx] at h
  obtain ⟨p7, h7, h⟩ := Option.bind_eq_some_iff.mp h
  obtain ⟨hpre7, hlen7, -⟩ := append16_keeps h7 (by simp only; omega)
  obtain ⟨hpre8, -, -⟩ := append16_keeps h (by simp only at hlen7; omega)
  simp only [hw.take] at hpre7
  obtain ⟨labels', n, hname, hn, hat⟩ := hw.named
  obtain rfl : n = 0 := by
    simp only [length_nil] at hn
    omega
  exact ⟨labels', _, hname, hat.mono (hpre7.trans hpre8)⟩

lemma NameAt.congr_drop {m m' : Bytes} {k pos stop : Nat} (hdrop : m.drop k = m'.drop k)
    (hk : k ≤ pos) (h : NameAt m pos labels 0 stop) : NameAt m' pos labels 0 stop := by
  have hat {pos : Nat} (hk : k ≤ pos) : m'.drop pos = m.drop pos := by
    obtain ⟨n, rfl⟩ : ∃ n, pos = k + n := ⟨pos - k, by omega⟩
    rw [← drop_drop, ← drop_drop, hdrop]
  generalize hzero : 0 = jumps at h
  induction h with
  | root h =>
    refine .root ?_
    rw [hat hk]
    exact h
  | label hpos hle h _ ih =>
    refine .label hpos hle ?_ (ih (by omega) hzero)
    rw [hat hk]
    exact h
  | jump _ _ _ _ => cases hzero

/-- The name in an inflight request is the one `request_new` has chosen. The first two bytes of the
packet may have been replaced by another transaction id. -/
lemma requestNew_name {on : Bool} {randbits fresh : Bytes} {sent : DnsRequest}
    (hreq : requestNew on randbits name fresh transId type = some sent)
    (hfresh : fresh.length = evdnsRequestLen name.length) {request : Bytes}
    (hdata : request.drop 2 = sent.request.drop 2) (hv : ValidDomain labels)
    (hname : name = joinLabels labels) :
    ∃ stop, nameParse request 12 256 = some (sentName on randbits name, stop) := by
  obtain ⟨labels', hsent, hv'⟩ := sentName_valid hv on randbits
  rw [← hname] at hsent
  have hlen : (joinLabels labels').length = name.length := by
    rw [← hsent]
    cases on with
    | false => rfl
    | true => exact length_mapIdx
  unfold requestNew at hreq
  split at hreq
  · cases hreq
  · obtain ⟨p, hp, rfl⟩ := Option.map_eq_some_iff.mp hreq
    rw [hsent, ← hfresh] at hp
    obtain ⟨labels'', stop, hjoin, hat⟩ :=
      evdnsRequestDataBuild_name hv' (by rw [hlen]; exact hfresh) hp
    have hdrop : (p.1.take p.2).drop 12 = request.drop 12 := by
      have h := congrArg (List.drop 10) hdata
      rw [drop_drop, drop_drop] at h
      exact h.symm
    have hat' := hat.congr_drop hdrop (Nat.le_refl _)
    refine ⟨stop, ?_⟩
    rw [hsent, ← hjoin]
    refine nameParse_of_nameAt hat' (Nat.zero_le _) ?_
    rw [hjoin]
    omega

end Request

lemma questionsLoop_one {request : Bytes} {j : Nat} {matched : Bool} :
    questionsLoop on packet request 1 12 false = some (j, matched) ↔
      ∃ q j' wire stop, nameParse packet 12 256 = some (q, j') ∧
        nameParse request 12 256 = some (wire, stop) ∧ j' + 4 ≤ packet.length ∧ j = j' + 4 ∧
        matched = nameMatches on q wire := by
  unfold questionsLoop
  constructor
  · intro h
    split at h
    · rename_i q j' wire stop hq hwire
      split at h
      · cases h
      · simp only [questionsLoop, Bool.false_or, Option.some.injEq, Prod.mk.injEq] at h
        exact ⟨q, j', wire, stop, hq, hwire, by omega, h.1.symm, h.2.symm⟩
    · cases h
  · rintro ⟨q, j', wire, stop, hq, hwire, hle, rfl, rfl⟩
    simp only [hq, hwire]
    rw [if_neg (by omega)]
    simp only [questionsLoop, Bool.false_or]

lemma replyParse_answered_iff {hostNameMax : Nat} {find : Nat → Option DnsRequest} {flags ttl : Nat}
    {reply : DnsReply} {cname : Option (Option Bytes)} :
    replyParse hostNameMax on find packet = .answered flags ttl reply cname ↔
      ∃ id questions answers authority additional req j, get16 packet 0 = some id ∧
        get16 packet 2 = some flags ∧ get16 packet 4 = some questions ∧
        get16 packet 6 = some answers ∧ get16 packet 8 = some authority ∧
        get16 packet 10 = some additional ∧ find id = some req ∧ flags &&& 0x8000 ≠ 0 ∧
        (flags &&& 0x020f = 0 ∨ flags &&& 0x020f = 3) ∧
        questionsLoop on packet req.request questions 12 false = some (j, true) ∧
        replySections hostNameMax packet req answers authority j = .ok (reply, ttl, cname) := by
  constructor
  · intro h
    unfold replyParse at h
    split at h
    · rename_i id flags' questions answers authority additional h0 h2 h4 h6 h8 h10
      split at h
      · cases h
      · rename_i req hfind
        split at h
        · cases h
        · rename_i hanswer
          split at h
          · cases h
          · rename_i herr
            split at h
            · rename_i j hq
              split at h
              · rename_i hsec
                cases h
                refine ⟨id, questions, answers, authority, additional, req, j, h0, h2, h4, h6, h8, h10,
                  hfind, hanswer, ?_, hq, hsec⟩
                by_contra hnot
                exact herr (not_or.mp hnot)
              · cases h
            · cases h
    · cases h
  · rintro ⟨id, questions, answers, authority, additional, req, j, h0, h2, h4, h6, h8, h10, hfind,
      hanswer, herr, hq, hsec⟩
    have herr' : ¬ (flags &&& 0x020f ≠ 0 ∧ flags &&& 0x020f ≠ 3) := by
      rintro ⟨hne, hne'⟩
      exact herr.elim hne hne'
    unfold replyParse
    simp only [h0, h2, h4, h6, h8, h10, hfind, if_neg hanswer, if_neg herr', hq, hsec]

/-- A packet with at most one question is taken as an answer only if its question name is the name that was
sent, up to the case of letters if that was randomised; then every correct answer whose question name differs
in case is taken as one. -/
theorem reply_question_checked {on : Bool} {randbits name fresh : Bytes} {transId type : Nat}
    {sent : DnsRequest} (hreq : requestNew on randbits name fresh transId type = some sent)
    (hfresh : fresh.length = evdnsRequestLen name.length) {find : Nat → Option DnsRequest}
    {req : DnsRequest} (hdata : req.request.drop 2 = sent.request.drop 2) {packet : Bytes}
    {id questions : Nat} (hid : get16 packet 0 = some id) (hfind : find id = some req)
    (hquestions : get16 packet 4 = some questions) (hone : questions ≤ 1) (hostNameMax : Nat) :
    (∀ labels, ValidDomain labels → name = joinLabels labels →
      ∃ stop, nameParse req.request 12 256 = some (sentName on randbits name, stop)) ∧
    ∀ wire stop, nameParse req.request 12 256 = some (wire, stop) →
      (∀ flags ttl reply cname,
        replyParse hostNameMax on find packet = .answered flags ttl reply cname →
        ∃ q j, nameParse packet 12 256 = some (q, j) ∧
          if on then asciiStrcaseeq q wire = true else cstring q = cstring wire) ∧
      (on → questions = 1 → ∀ q j flags answers authority additional reply ttl cname,
        nameParse packet 12 256 = some (q, j) → j + 4 ≤ packet.length →
        asciiStrcaseeq q wire → get16 packet 2 = some flags →
        get16 packet 6 = some answers → get16 packet 8 = some authority →
        get16 packet 10 = some additional → flags &&& 0x8000 ≠ 0 →
        (flags &&& 0x020f = 0 ∨ flags &&& 0x020f = 3) →
        replySections hostNameMax packet req answers authority (j + 4) = .ok (reply, ttl, cname) →
        replyParse hostNameMax on find packet = .answered flags ttl reply cname) := by
  refine ⟨fun labels hv hname => requestNew_name hreq hfresh hdata hv hname, ?_⟩
  intro wire stop hwire
  refine ⟨?_, ?_⟩
  · intro flags ttl reply cname hanswered
    obtain ⟨id', questions', answers, authority, additional, req', j, h0, -, h4, -, -, -, hfind', -,
      -, hloop, -⟩ := replyParse_answered_iff.mp hanswered
    obtain rfl : id' = id := Option.some.inj (h0.symm.trans hid)
    obtain rfl : questions' = questions := Option.some.inj (h4.symm.trans hquestions)
    obtain rfl : req' = req := Option.some.inj (hfind'.symm.trans hfind)
    obtain rfl | rfl : questions' = 0 ∨ questions' = 1 := by omega
    · cases hloop
    · obtain ⟨q, j', wire', stop', hq, hwire', -, -, hmatch⟩ := questionsLoop_one.mp hloop
      obtain rfl : wire' = wire := (Prod.mk.inj (Option.some.inj (hwire'.symm.trans hwire))).1
      refine ⟨q, j', hq, ?_⟩
      cases on with
      | true => exact hmatch.symm
      | false => simpa [nameMatches] using hmatch.symm
  · rintro rfl rfl q j flags answers authority additional reply ttl cname hq hle hcase h2 h6 h8 h10
      hanswer herr hsec
    have hloop : questionsLoop true packet req.request 1 12 false = some (j + 4, true) :=
      questionsLoop_one.mpr ⟨q, j, wire, stop, hq, hwire, hle, rfl, hcase.symm⟩
    exact replyParse_answered_iff.mpr ⟨id, 1, answers, authority, additional, req, j + 4, hid, h2,
      hquestions, h6, h8, h10, hfind, hanswer, herr, hloop, hsec⟩

def askedLower : DnsRequest :=
  ⟨[0, 7, 1, 0, 0, 1, 0, 0, 0, 0, 0, 0, 1, 97, 0, 0, 1, 0, 1], typeA, none⟩

def findLower (id : Nat) : Option DnsRequest :=
  if id = 7 then some askedLower else none

def upperReply : Bytes :=
  [0, 7, 0x81, 0x80, 0, 1, 0, 1, 0, 0, 0, 0, 1, 65, 0, 0, 1, 0, 1, 192, 12, 0, 1, 0, 1, 0, 0, 0, 60,
    0, 4, 192, 0, 2, 1]

theorem reply_question_checked_upper :
    ∃ flags ttl reply cname, replyParse 255 true findLower upperReply = .answered flags ttl reply cname := by
  have hreq : requestNew true [255] [97] (List.replicate 103 0) 7 typeA = some askedLower := by
    decide +kernel
  have hid : get16 upperReply 0 = some 7 := by decide
  have hfind : findLower 7 = some askedLower := by decide
  have hquestions : get16 upperReply 4 = some 1 := by decide
  obtain ⟨-, hparts⟩ :=
    reply_question_checked hreq rfl rfl hid hfind hquestions (Nat.le_refl 1) 255
  obtain ⟨-, haccept⟩ := hparts [97] 15 (by decide +kernel)
  refine ⟨0x8180, 60, ⟨true, [[192, 0, 2, 1]], []⟩, none, ?_⟩
  exact haccept rfl rfl [65] 15 _ 1 0 0 _ _ _ (by decide +kernel) (by decide) (by decide +kernel)
    rfl rfl rfl rfl (by decide) (by decide) (by decide +kernel)

/-- With randomised case an answer to a name in another case is taken as an answer, and without it
that answer is a failure. -/
theorem reply_case_ignored :
    requestNew true [255] [97] (List.replicate 103 0) 7 typeA = some askedLower ∧
    requestNew false [255] [97] (List.replicate 103 0) 7 typeA = some askedLower ∧
    nameParse askedLower.request 12 256 = some ([97], 15) ∧
    nameParse upperReply 12 256 = some ([65], 15) ∧
    replyParse 255 true findLower upperReply = .answered 0x8180 60 ⟨true, [[192, 0, 2, 1]], []⟩ none ∧
    replyParse 255 false findLower upperReply = .failed 0x8180 none := by
  decide +kernel

end MyLibevent.Proofs
