import MyLibevent.Getaddrinfo

/-!
# `evdns_getaddrinfo` answers once

A request is waiting for lookups, or the timeout has answered it while one lookup is still to report, or it is
done. Each step keeps this.
-/

namespace MyLibevent.Proofs
open GetaddrinfoState Function List

variable (hints : AddrinfoHints)

def found (port : Nat) (f : DnsFamily) (report : LookupReport) : List EvutilAddrinfo :=
  if report.result = .none then report.addresses.flatMap (newAddrinfos hints port f) else []

def answers (s : GetaddrinfoState) (f : DnsFamily) : List EvutilAddrinfo :=
  match s.lookup f with
  | .reported report => found s.data.hints s.data.port f report
  | _ => []

lemma newAddrinfos_ne_nil (port : Nat) (f : DnsFamily) (addr : Bytes) : newAddrinfos hints port f addr ≠ [] := by
  unfold newAddrinfos
  split
  · exact cons_ne_nil _ _
  · exact cons_ne_nil _ _

lemma found_eq_nil_iff (port : Nat) (f : DnsFamily)
    (report : LookupReport) :
    found hints port f report = [] ↔ report.result = .none → report.addresses = [] := by
  unfold found
  by_cases hres : report.result = .none
  · rw [if_pos hres, flatMap_eq_nil_iff]
    constructor
    · intro hall _
      cases haddr : report.addresses with
      | nil => rfl
      | cons a rest =>
        have hmem : a ∈ report.addresses := by simp [haddr]
        exact absurd (hall a hmem) (newAddrinfos_ne_nil hints port f a)
    · intro hnil
      simp [hnil hres]
  · simp [hres]

lemma addrinfoLoop_eq (port : Nat) (f : DnsFamily) (i : Nat)
    (addresses : List Bytes) (res : List EvutilAddrinfo) :
    addrinfoLoop hints port f (fun _ => true) i addresses res =
      some (res ++ addresses.flatMap (newAddrinfos hints port f)) := by
  induction addresses generalizing i res with
  | nil => simp [addrinfoLoop]
  | cons addr rest ih => simp [addrinfoLoop, evutilNewAddrinfo, ih]

variable {s : GetaddrinfoState} {f : DnsFamily}

lemma answers_eq_nil (h : (s.lookup f).outstanding) : answers s f = [] := by
  unfold answers
  cases hl : s.lookup f with
  | reported report =>
    rw [hl] at h
    cases h
  | absent | inflight => rfl
  | queued report => rfl

lemma other_other (f : DnsFamily) : f.other.other = f := by cases f <;> rfl

lemma other_ne (f : DnsFamily) : f.other ≠ f := by cases f <;> exact nofun

lemma eq_or_eq_other (f g : DnsFamily) : g = f ∨ g = f.other := by
  cases f <;> cases g <;> simp [DnsFamily.other]

def inOrder (f : DnsFamily) (mine others : List EvutilAddrinfo) : List EvutilAddrinfo :=
  match f with
  | .ipv4 => mine ++ others
  | .ipv6 => others ++ mine

lemma inOrder_answers (s : GetaddrinfoState) (f : DnsFamily) :
    inOrder f (answers s f) (answers s f.other) = answers s .ipv4 ++ answers s .ipv6 := by
  cases f <;> rfl

section Gotresolve

variable {s s' : GetaddrinfoState} {f : DnsFamily} {report : LookupReport}

def FirstReport (s s' : GetaddrinfoState) (f : DnsFamily) (report : LookupReport) : Prop :=
  ∃ timer pending err, s' = { s with data := { s.data with
      timeoutPending := timer, pendingResult := pending, pendingError := err } } ∧
    (s.data.userCanceled = false → s.data.pendingResult = [] → pending = found s.data.hints s.data.port f report)

def finalAnswer (s : GetaddrinfoState) (f : DnsFamily) (report : LookupReport) : List EvutilAddrinfo :=
  inOrder f (found s.data.hints s.data.port f report) s.data.pendingResult

def LastReport (s s' : GetaddrinfoState) (f : DnsFamily) (report : LookupReport) : Prop :=
  ∃ call pending cname, s' = { s with
      calls := s.calls ++ [call]
      frees := s.frees + 1
      data := { s.data with timeoutPending := false, pendingResult := pending, cnameResult := cname } } ∧
    (s.data.userCanceled = false → finalAnswer s f report ≠ [] →
      ∃ cname, call = (.ok, setCanonname cname (finalAnswer s f report)))

def reportErr (report : LookupReport) : EaiErr :=
  if report.result = .none then if report.addresses = [] then EaiErr.nodata else .ok
  else evdnsErrToGetaddrinfoErr report.result

lemma reportErr_eq_ok_iff (hints : AddrinfoHints) (port : Nat) (f : DnsFamily) :
    reportErr report = .ok ↔ found hints port f report ≠ [] := by
  rw [ne_eq, found_eq_nil_iff]
  unfold reportErr
  by_cases hres : report.result = .none
  · by_cases haddr : report.addresses = []
    · simp [hres, haddr]
    · simp [hres, haddr]
  · cases hr : report.result with
    | none => exact absurd hr hres
    | _ => simp [evdnsErrToGetaddrinfoErr]

lemma found_eq_of_ok (h : reportErr report = .ok) (hints : AddrinfoHints) (port : Nat) :
    found hints port f report = report.addresses.flatMap (newAddrinfos hints port f) := by
  have hne := (reportErr_eq_ok_iff hints port f).mp h
  unfold found at hne ⊢
  by_cases hres : report.result = .none
  · rw [if_pos hres]
  · exact absurd (if_neg hres) hne

/-- What a lookup that reports does to the request, if the other lookup is still to report and if not. -/
def Reports (s s' : GetaddrinfoState) (f : DnsFamily) (report : LookupReport) : Prop :=
  if s.data.r f.other then FirstReport s s' f report else LastReport s s' f report

lemma gotError_reports (hnil : reportErr report ≠ .ok) :
    Reports s (s.gotError f report.result s.data.userCanceled (reportErr report)) f report := by
  have hfound : found s.data.hints s.data.port f report = [] := by
    by_contra hne
    exact hnil ((reportErr_eq_ok_iff _ _ _).mpr hne)
  have hanswer : finalAnswer s f report = s.data.pendingResult := by
    unfold finalAnswer
    rw [hfound]
    cases f
    · rfl
    · exact append_nil _
  unfold gotError Reports
  by_cases hr : s.data.r f.other
  · rw [if_pos hr, if_pos hr]
    exact ⟨_, _, _, rfl, fun _ hpending => hpending.trans hfound.symm⟩
  rw [if_neg hr, if_neg hr]
  by_cases hcanceled : s.data.userCanceled
  · rw [if_pos hcanceled]
    exact ⟨_, _, _, rfl, fun hnot => absurd (hcanceled.symm.trans hnot) nofun⟩
  · rw [if_neg hcanceled]
    by_cases hpending : s.data.pendingResult = []
    · rw [if_neg (not_not.mpr hpending)]
      exact ⟨_, _, _, rfl, fun _ hne => absurd (hanswer.trans hpending) hne⟩
    · rw [if_pos hpending]
      refine ⟨_, _, _, rfl, ?_⟩
      rw [hanswer]
      exact fun _ _ => ⟨s.data.cnameResult, rfl⟩

lemma gotAddresses_reports (hok : reportErr report = .ok) :
    Reports s (s.gotAddresses f report.addresses fun _ => true) f report := by
  have hfound := found_eq_of_ok (f := f) hok s.data.hints s.data.port
  unfold gotAddresses Reports
  simp only [addrinfoLoop_eq, nil_append]
  by_cases hr : s.data.r f.other
  · rw [if_pos hr, if_pos hr]
    exact ⟨_, _, _, rfl, fun _ _ => hfound.symm⟩
  · rw [if_neg hr, if_neg hr]
    refine ⟨_, _, _, rfl, fun _ _ => ⟨s.data.cnameResult, ?_⟩⟩
    unfold finalAnswer
    rw [hfound]
    cases f <;> rfl

lemma gotresolve_eq (hcb : s.data.userCb)
    (hcancel : report.result = .cancel → s.data.userCanceled) :
    s.evdnsGetaddrinfoGotresolve f report (fun _ => true) =
      let s := s.clearSubrequest f report.result
      if reportErr report ≠ .ok then
        s.gotError f report.result s.data.userCanceled (reportErr report)
      else if s.data.userCanceled then
        if s.data.r f.other then s else (s.callUser .cancel []).freeGetaddrinfoRequest
      else s.gotAddresses f report.addresses fun _ => true := by
  have hcb' : (s.clearSubrequest f report.result).data.userCb := by
    unfold clearSubrequest
    split <;> exact hcb
  have hcanceled : (s.clearSubrequest f report.result).data.userCanceled = s.data.userCanceled := by
    unfold clearSubrequest
    split <;> rfl
  have hnot : ¬ (report.result = .cancel ∧ s.data.userCanceled = false) := by
    rintro ⟨hres, hfalse⟩
    rw [hcancel hres] at hfalse
    cases hfalse
  unfold evdnsGetaddrinfoGotresolve
  extract_lets uc s1 err
  rw [if_neg hnot, if_neg (by rw [hcb']; exact nofun)]
  change _ = if reportErr report ≠ .ok then _ else _
  rw [hcanceled]
  rfl

lemma gotresolve_reports (hcb : s.data.userCb)
    (hcancel : report.result = .cancel → s.data.userCanceled) :
    Reports (s.clearSubrequest f report.result) (s.evdnsGetaddrinfoGotresolve f report fun _ => true) f report := by
  rw [gotresolve_eq hcb hcancel]
  extract_lets s1
  by_cases hok : reportErr report = .ok
  · rw [if_neg (not_not.mpr hok)]
    by_cases hcanceled : s1.data.userCanceled
    · have hnot : s1.data.userCanceled ≠ false := by simp [hcanceled]
      rw [if_pos hcanceled]
      unfold Reports
      by_cases hr : s1.data.r f.other
      · rw [if_pos hr, if_pos hr]
        exact ⟨_, _, _, rfl, fun h => absurd h hnot⟩
      · rw [if_neg hr, if_neg hr]
        exact ⟨_, _, _, rfl, fun h => absurd h hnot⟩
    · rw [if_neg hcanceled]
      exact gotAddresses_reports hok
  · rw [if_pos hok]
    exact gotError_reports hok

end Gotresolve

structure Waiting (s : GetaddrinfoState) (f : DnsFamily) : Prop where
  outstanding : (s.lookup f).outstanding
  userCb : s.data.userCb
  calls : s.calls = []
  frees : s.frees = 0
  timedOut : s.timedOut = false
  timer : s.data.timeoutPending → (s.lookup f.other).outstanding = false
  pending : s.data.userCanceled = false → s.data.pendingResult = answers s f.other

structure Answered (s : GetaddrinfoState) (f : DnsFamily) : Prop where
  outstanding : (s.lookup f).outstanding
  other : (s.lookup f.other).outstanding = false
  userCb : s.data.userCb = false
  calls : s.calls.length = 1
  frees : s.frees = 0
  timer : s.data.timeoutPending = false
  timedOut : s.timedOut

structure Done (s : GetaddrinfoState) : Prop where
  outstanding (f : DnsFamily) : (s.lookup f).outstanding = false
  calls : s.calls.length = 1
  frees : s.frees = 1
  timer : s.data.timeoutPending = false
  answer : s.data.userCanceled = false → s.timedOut = false →
    answers s .ipv4 ++ answers s .ipv6 ≠ [] →
    ∃ cname, s.calls = [(.ok, setCanonname cname (answers s .ipv4 ++ answers s .ipv6))]

inductive Phase (s : GetaddrinfoState) : Prop where
  | waiting (f : DnsFamily) (h : Waiting s f)
  | answered (f : DnsFamily) (h : Answered s f)
  | done (h : Done s)

structure GetaddrinfoInv (hints : AddrinfoHints) (port : Nat) (s : GetaddrinfoState) : Prop where
  hints_eq : s.data.hints = hints
  port_eq : s.data.port = port
  r_eq (f : DnsFamily) : s.data.r f = (s.lookup f).outstanding
  cancel (f : DnsFamily) (report : LookupReport) : s.lookup f = .queued report →
    report.result = .cancel → s.data.userCanceled ∨ s.data.userCb = false
  phase : Phase s

lemma Waiting.swap (h : Waiting s f) (hother : (s.lookup f.other).outstanding) : Waiting s f.other where
  outstanding := hother
  userCb := h.userCb
  calls := h.calls
  frees := h.frees
  timedOut := h.timedOut
  timer htimer := by
    rw [h.timer htimer] at hother
    cases hother
  pending hcanceled := by
    rw [h.pending hcanceled, other_other, answers_eq_nil hother, answers_eq_nil h.outstanding]

lemma Waiting.of_outstanding {g : DnsFamily} (h : Waiting s f) (hg : (s.lookup g).outstanding) : Waiting s g := by
  rcases eq_or_eq_other f g with rfl | rfl
  · exact h
  · exact h.swap hg

section Report

variable {s s' : GetaddrinfoState} {f : DnsFamily} {report : LookupReport} {done base : Bool}

def reporting (s : GetaddrinfoState) (f : DnsFamily) (report : LookupReport) : GetaddrinfoState :=
  { s with lookup := update s.lookup f (.reported report) }

/-- The lookup `f` has started to report: it counts as reported and its subrequest is cleared. -/
def started (s : GetaddrinfoState) (f : DnsFamily) (report : LookupReport) (done base : Bool) : GetaddrinfoState :=
  { reporting s f report with
    data := { s.data with r := update s.data.r f false, requestDone := done, evdnsBase := base } }

lemma clearSubrequest_reporting (s : GetaddrinfoState) (f : DnsFamily) (report : LookupReport) :
    ∃ done base, (reporting s f report).clearSubrequest f report.result = started s f report done base := by
  unfold clearSubrequest
  split
  · exact ⟨_, _, rfl⟩
  · exact ⟨_, _, rfl⟩

lemma reporting_self : (reporting s f report).lookup f = .reported report := update_self ..

lemma reporting_other : (reporting s f report).lookup f.other = s.lookup f.other :=
  update_of_ne (other_ne f) ..

lemma answers_started_self : answers (started s f report done base) f = found s.data.hints s.data.port f report := by
  have hlookup : (started s f report done base).lookup f = .reported report := reporting_self
  unfold answers
  rw [hlookup]
  rfl

lemma answers_started_other : answers (started s f report done base) f.other = answers s f.other := by
  have hlookup : (started s f report done base).lookup f.other = s.lookup f.other := reporting_other
  unfold answers
  rw [hlookup]
  rfl

lemma reporting_outstanding (hother : (s.lookup f.other).outstanding = false) (g : DnsFamily) :
    ((reporting s f report).lookup g).outstanding = false := by
  rcases eq_or_eq_other f g with rfl | rfl
  · rw [reporting_self]
    rfl
  · rw [reporting_other, hother]

lemma Waiting.first (h : Waiting s f) (hother : (s.lookup f.other).outstanding)
    (hfirst : FirstReport (started s f report done base) s' f report) : Waiting s' f.other := by
  obtain ⟨timer, pending, err, rfl, hpending⟩ := hfirst
  refine ⟨?_, h.userCb, h.calls, h.frees, h.timedOut, fun _ => ?_, fun hnot => ?_⟩
  · exact (congrArg Lookup.outstanding reporting_other).trans hother
  · rw [other_other]
    exact congrArg Lookup.outstanding reporting_self
  · have hself : answers (started s f report done base) f = found s.data.hints s.data.port f report :=
      answers_started_self
    rw [other_other]
    exact (hpending hnot ((h.pending hnot).trans (answers_eq_nil hother))).trans hself.symm

lemma Waiting.last (h : Waiting s f) (hother : (s.lookup f.other).outstanding = false)
    (hlast : LastReport (started s f report done base) s' f report) : Done s' := by
  obtain ⟨call, pending, cname, rfl, hanswer⟩ := hlast
  have hcall : s.calls ++ [call] = [call] := by rw [h.calls, nil_append]
  refine ⟨reporting_outstanding hother, congrArg length hcall, congrArg (· + 1) h.frees, rfl, ?_⟩
  intro hnot _ hne
  have hfinal : finalAnswer (started s f report done base) f report =
      answers (started s f report done base) .ipv4 ++ answers (started s f report done base) .ipv6 := by
    rw [← inOrder_answers _ f, answers_started_self, answers_started_other, ← h.pending hnot]
    rfl
  obtain ⟨cname, heq⟩ := hanswer hnot (by rw [hfinal]; exact hne)
  refine ⟨cname, hcall.trans ?_⟩
  rw [heq, hfinal]
  rfl

lemma gotresolve_answered (report : LookupReport) (hcb : s.data.userCb = false) (hr : s.data.r f.other = false) :
    ∃ done base, (reporting s f report).evdnsGetaddrinfoGotresolve f report (fun _ => true) =
      (started s f report done base).freeGetaddrinfoRequest := by
  obtain ⟨done, base, hst⟩ := clearSubrequest_reporting s f report
  have hr' : (started s f report done base).data.r f.other = false :=
    (update_of_ne (other_ne f) ..).trans hr
  refine ⟨done, base, ?_⟩
  unfold evdnsGetaddrinfoGotresolve
  rw [hst]
  extract_lets uc s1 err
  by_cases hcancel : report.result = .cancel ∧ uc = false
  · rw [if_pos hcancel]
    exact if_neg (by rw [hr']; exact nofun)
  · rw [if_neg hcancel]
    exact if_pos hcb

end Report

section Steps

variable {hints : AddrinfoHints} {port : Nat} {s s' : GetaddrinfoState} {f : DnsFamily}
  {report : LookupReport} {l : DnsFamily → Lookup}

/-- Lookups have gone on, but none has reported. -/
def Ahead (l l' : DnsFamily → Lookup) : Prop :=
  ∀ g, l' g = l g ∨ (l g).outstanding ∧ (l' g).outstanding

lemma Ahead.outstanding (h : Ahead s.lookup l) (g : DnsFamily) : (l g).outstanding = (s.lookup g).outstanding := by
  rcases h g with heq | ⟨hg, hg'⟩
  · rw [heq]
  · rw [hg, hg']

lemma Ahead.answers (h : Ahead s.lookup l) (g : DnsFamily) : answers { s with lookup := l } g = answers s g := by
  rcases h g with heq | ⟨hg, hg'⟩
  · unfold Proofs.answers
    dsimp only
    rw [heq]
  · rw [answers_eq_nil hg, answers_eq_nil (s := { s with lookup := l }) hg']

lemma ahead_update {l : Lookup} (hf : (s.lookup f).outstanding) (hl : l.outstanding) :
    Ahead s.lookup (update s.lookup f l) := by
  intro g
  by_cases hg : g = f
  · rw [hg, update_self]
    exact .inr ⟨hf, hl⟩
  · exact .inl (update_of_ne hg ..)

lemma Phase.ahead (h : Phase s) (hl : Ahead s.lookup l) : Phase { s with lookup := l } := by
  have hout := hl.outstanding
  have hans := hl.answers
  cases h with
  | waiting f hw =>
    refine .waiting f { hw with outstanding := ?_, timer := ?_, pending := ?_ }
    · exact (hout f).trans hw.outstanding
    · exact fun htimer => (hout _).trans (hw.timer htimer)
    · rw [hans]
      exact hw.pending
  | answered f ha =>
    exact .answered f { ha with
      outstanding := (hout f).trans ha.outstanding
      other := (hout _).trans ha.other }
  | done hd =>
    refine .done { hd with outstanding := fun g => (hout g).trans (hd.outstanding g), answer := ?_ }
    rw [hans, hans]
    exact hd.answer

lemma evdnsCancelRequest_ahead (s : GetaddrinfoState) (f : DnsFamily) :
    ∃ l, s.evdnsCancelRequest f = { s with lookup := l } ∧ Ahead s.lookup l := by
  unfold evdnsCancelRequest
  split
  · rename_i hl
    refine ⟨_, rfl, ahead_update ?_ rfl⟩
    rw [hl]
    rfl
  · exact ⟨_, rfl, fun _ => .inl rfl⟩

def cancelOutstanding (s : GetaddrinfoState) : GetaddrinfoState :=
  let s := if s.data.r .ipv4 then s.evdnsCancelRequest .ipv4 else s
  if s.data.r .ipv6 then s.evdnsCancelRequest .ipv6 else s

lemma cancelOutstanding_spec (s : GetaddrinfoState) :
    ∃ l, cancelOutstanding s = { s with lookup := l } ∧ ∀ g, (l g).outstanding = (s.lookup g).outstanding := by
  have hone (s : GetaddrinfoState) (f : DnsFamily) :
      ∃ l, (if s.data.r f then s.evdnsCancelRequest f else s) = { s with lookup := l } ∧
        ∀ g, (l g).outstanding = (s.lookup g).outstanding := by
    split
    · obtain ⟨l, heq, hl⟩ := evdnsCancelRequest_ahead s f
      exact ⟨l, heq, hl.outstanding⟩
    · exact ⟨_, rfl, fun _ => rfl⟩
  obtain ⟨l, heq, hl⟩ := hone s .ipv4
  obtain ⟨l', heq', hl'⟩ := hone { s with lookup := l } .ipv6
  refine ⟨l', ?_, fun g => (hl' g).trans (hl g)⟩
  unfold cancelOutstanding
  rw [heq]
  exact heq'

def answerPending (s : GetaddrinfoState) : GetaddrinfoState :=
  let s :=
    if s.data.pendingResult ≠ [] then
      let s := s.callUserCname s.data.pendingResult
      { s with data := { s.data with pendingResult := [] } }
    else s.callUser (if s.data.pendingError = .ok then .again else s.data.pendingError) []
  { s with data := { s.data with userCb := false } }

lemma evdnsGetaddrinfoTimeoutCb_eq (hr : s.data.r f) (hother : s.data.r f.other = false) :
    s.evdnsGetaddrinfoTimeoutCb = some (answerPending (cancelOutstanding s)) := by
  cases f with
  | ipv4 =>
    have h6 : s.data.r .ipv6 = false := hother
    obtain ⟨l, heq, -⟩ := evdnsCancelRequest_ahead s .ipv4
    unfold evdnsGetaddrinfoTimeoutCb cancelOutstanding
    simp only [hr, heq, h6, if_true, Bool.false_eq_true, if_false, Bool.and_false, Bool.not_true, Bool.false_and]
    rfl
  | ipv6 =>
    have h4 : s.data.r .ipv4 = false := hother
    unfold evdnsGetaddrinfoTimeoutCb cancelOutstanding
    simp only [hr, h4, if_true, Bool.false_eq_true, if_false, Bool.false_and, Bool.not_true, Bool.and_false]
    rfl

lemma answerPending_spec (s : GetaddrinfoState) :
    ∃ call pending cname, answerPending s = { s with
      calls := s.calls ++ [call]
      data := { s.data with pendingResult := pending, cnameResult := cname, userCb := false } } := by
  unfold answerPending
  split
  · exact ⟨_, _, _, rfl⟩
  · exact ⟨_, _, _, rfl⟩

def timingOut (s : GetaddrinfoState) : GetaddrinfoState :=
  { s with data := { s.data with timeoutPending := false }, timedOut := true }

section

variable (h : GetaddrinfoInv hints port s)
include h

lemma timeout_inv (htimer : s.data.timeoutPending) :
    ∃ s', (timingOut s).evdnsGetaddrinfoTimeoutCb = some s' ∧ GetaddrinfoInv hints port s' := by
  obtain ⟨f, hw⟩ : ∃ f, Waiting s f := by
    cases h.phase with
    | waiting f hw => exact ⟨f, hw⟩
    | answered f ha => exact absurd (ha.timer.symm.trans htimer) nofun
    | done hd => exact absurd (hd.timer.symm.trans htimer) nofun
  have hother := hw.timer htimer
  have hr : (timingOut s).data.r f := (h.r_eq f).trans hw.outstanding
  have hr' : (timingOut s).data.r f.other = false := (h.r_eq f.other).trans hother
  obtain ⟨l, hcancel, hl⟩ := cancelOutstanding_spec (timingOut s)
  obtain ⟨call, pending, cname, hanswer⟩ := answerPending_spec { timingOut s with lookup := l }
  refine ⟨_, evdnsGetaddrinfoTimeoutCb_eq hr hr', ?_⟩
  rw [hcancel, hanswer]
  refine ⟨h.hints_eq, h.port_eq, fun g => (h.r_eq g).trans (hl g).symm, fun _ _ _ _ => .inr rfl,
    .answered f ⟨(hl f).trans hw.outstanding, (hl _).trans hother, rfl, ?_, hw.frees, rfl, rfl⟩⟩
  exact congrArg (fun calls => (calls ++ [call]).length) hw.calls

lemma cancel_inv (hcalls : s.calls = []) : GetaddrinfoInv hints port s.evdnsGetaddrinfoCancel := by
  obtain ⟨f, hw⟩ : ∃ f, Waiting s f := by
    cases h.phase with
    | waiting f hw => exact ⟨f, hw⟩
    | answered f ha => exact absurd (ha.calls.symm.trans (congrArg length hcalls)) nofun
    | done hd => exact absurd (hd.calls.symm.trans (congrArg length hcalls)) nofun
  unfold evdnsGetaddrinfoCancel
  split
  · exact h
  · obtain ⟨l, heq, hl⟩ := cancelOutstanding_spec
      { s with data := { s.data with timeoutPending := false, userCanceled := true } }
    change GetaddrinfoInv hints port (cancelOutstanding _)
    rw [heq]
    exact ⟨h.hints_eq, h.port_eq, fun g => (h.r_eq g).trans (hl g).symm, fun _ _ _ _ => .inl rfl,
      .waiting f ⟨(hl f).trans hw.outstanding, hw.userCb, hw.calls, hw.frees, hw.timedOut, nofun, nofun⟩⟩

lemma report_inv (hl : s.lookup f = .queued report) :
    GetaddrinfoInv hints port ((reporting s f report).evdnsGetaddrinfoGotresolve f report fun _ => true) := by
  have hf : (s.lookup f).outstanding := by
    rw [hl]
    rfl
  have hr (g : DnsFamily) : update s.data.r f false g = ((reporting s f report).lookup g).outstanding := by
    rcases eq_or_eq_other f g with rfl | rfl
    · rw [update_self, reporting_self]
      rfl
    · rw [update_of_ne (other_ne f), reporting_other, h.r_eq]
  have hcancel (g : DnsFamily) (rep : LookupReport) (hg : (reporting s f report).lookup g = .queued rep)
      (hres : rep.result = .cancel) : s.data.userCanceled ∨ s.data.userCb = false := by
    rcases eq_or_eq_other f g with rfl | rfl
    · rw [reporting_self] at hg
      cases hg
    · rw [reporting_other] at hg
      exact h.cancel _ rep hg hres
  cases h.phase with
  | waiting g hg =>
    have hw := hg.of_outstanding hf
    have hcanceled : report.result = .cancel → (reporting s f report).data.userCanceled := by
      intro hres
      rcases h.cancel f report hl hres with hc | hc
      · exact hc
      · rw [hw.userCb] at hc
        cases hc
    have hreports := gotresolve_reports (s := reporting s f report) (f := f) hw.userCb hcanceled
    obtain ⟨done, base, hst⟩ := clearSubrequest_reporting s f report
    have hother : (started s f report done base).data.r f.other = (s.lookup f.other).outstanding :=
      (update_of_ne (other_ne f) ..).trans (h.r_eq _)
    rw [hst, Reports, hother] at hreports
    split_ifs at hreports with hout
    · have hphase := hw.first hout hreports
      obtain ⟨timer, pending, err, heq, -⟩ := hreports
      rw [heq] at hphase ⊢
      exact ⟨h.hints_eq, h.port_eq, hr, hcancel, .waiting f.other hphase⟩
    · have hphase := hw.last (Bool.eq_false_iff.mpr hout) hreports
      obtain ⟨call, pending, cname, heq, -⟩ := hreports
      rw [heq] at hphase ⊢
      exact ⟨h.hints_eq, h.port_eq, hr, hcancel, .done hphase⟩
  | answered g ha =>
    obtain rfl : f = g := by
      rcases eq_or_eq_other g f with rfl | rfl
      · rfl
      · rw [ha.other] at hf
        cases hf
    obtain ⟨done, base, heq⟩ := gotresolve_answered report ha.userCb ((h.r_eq f.other).trans ha.other)
    rw [heq]
    exact ⟨h.hints_eq, h.port_eq, hr, hcancel, .done ⟨reporting_outstanding ha.other, ha.calls,
      congrArg (· + 1) ha.frees, rfl, fun _ htimedOut => absurd (ha.timedOut.symm.trans htimedOut) nofun⟩⟩
  | done hd =>
    rw [hd.outstanding] at hf
    cases hf

lemma ahead_inv (hl : Ahead s.lookup l) (cname : Option Bytes) (freed : Bool)
    (hcancel : ∀ g report, l g = .queued report → report.result = .cancel → s.lookup g = .queued report) :
    GetaddrinfoInv hints port
      { s with lookup := l, data := { s.data with cnameResult := cname }, baseFreed := freed } := by
  refine ⟨h.hints_eq, h.port_eq, fun g => (h.r_eq g).trans (hl.outstanding g).symm,
    fun g report hg hres => h.cancel g report (hcancel g report hg hres) hres, ?_⟩
  cases h.phase.ahead hl with
  | waiting f hw => exact .waiting f { hw with }
  | answered f ha => exact .answered f { ha with }
  | done hd => exact .done { hd with }

lemma step_inv_getaddrinfo {st : GetaddrinfoStep} (hst : s.Allowed st)
    (hstep : s.step st = some s') : GetaddrinfoInv hints port s' := by
  cases st with
  | cname f name =>
    simp only [GetaddrinfoState.step] at hstep
    split at hstep
    · cases hstep
      exact ahead_inv h (fun _ => .inl rfl) (some name) s.baseFreed fun _ _ hg _ => hg
    · cases hstep
  | result f report =>
    simp only [GetaddrinfoState.step] at hstep
    split at hstep
    · rename_i hl
      cases hstep
      have hf : (s.lookup f).outstanding := by
        rw [hl]
        rfl
      refine ahead_inv h (ahead_update hf rfl) s.data.cnameResult s.baseFreed ?_
      intro g rep hg hres
      by_cases hgf : g = f
      · rw [hgf, update_self] at hg
        cases hg
        exact absurd hres hst.1
      · rwa [update_of_ne hgf] at hg
    · cases hstep
  | report f =>
    simp only [GetaddrinfoState.step] at hstep
    split at hstep
    · rename_i report hl
      cases hstep
      exact report_inv h hl
    · cases hstep
  | timeout =>
    simp only [GetaddrinfoState.step] at hstep
    split at hstep
    · rename_i htimer
      obtain ⟨s'', hsome, hinv⟩ := timeout_inv h htimer
      cases hsome.symm.trans hstep
      exact hinv
    · cases hstep
  | cancel =>
    cases hstep
    exact cancel_inv h hst.1
  | freeBase =>
    cases hstep
    refine ahead_inv h (fun g => ?_) s.data.cnameResult true fun g report hg hres => ?_
    · cases hl : s.lookup g with
      | inflight => exact .inr ⟨rfl, rfl⟩
      | absent => exact .inl rfl
      | queued report | reported report => exact .inl rfl
    · cases hl : s.lookup g with
      | inflight =>
        rw [hl] at hg
        cases hg
        cases hres
      | absent | queued report | reported report =>
        rw [hl] at hg
        exact hg

end

lemma evdnsGetaddrinfo_inv {resolve : DnsFamily → Bool}
    (hstarted : (evdnsGetaddrinfo hints port resolve).lookup f = .inflight) :
    GetaddrinfoInv hints port (evdnsGetaddrinfo hints port resolve) := by
  revert hstarted
  unfold evdnsGetaddrinfo
  extract_lets r data s0
  intro hstarted
  have hlookup (g : DnsFamily) : s0.lookup g = if r g then .inflight else .absent := rfl
  have hout (g : DnsFamily) : (s0.lookup g).outstanding = r g := by
    rw [hlookup]
    cases r g <;> rfl
  have hf : r f := by
    by_contra hnot
    have habsent : s0.lookup f = .absent := by rw [hlookup, if_neg hnot]
    split at hstarted <;> exact absurd (habsent.symm.trans hstarted) nofun
  have hor : (r .ipv4 || r .ipv6) := by
    cases f
    · rw [hf, Bool.true_or]
    · rw [hf, Bool.or_true]
  rw [if_pos hor]
  refine ⟨rfl, rfl, fun g => (hout g).symm, ?_, .waiting f ⟨?_, rfl, rfl, rfl, rfl, nofun, ?_⟩⟩
  · intro g report hg
    rw [hlookup] at hg
    split at hg <;> cases hg
  · rw [hout, hf]
  · intro _
    unfold answers
    rw [hlookup]
    cases r f.other <;> rfl

end Steps

/-- In every run of a request that has started a lookup the user's callback is called at most once and the
request is freed at most once; both have happened when all lookups have reported. Two lookups that succeed in
time give the user the IPv4 addresses followed by the IPv6 addresses. -/
theorem getaddrinfo_answers_once {hints : AddrinfoHints} {port : Nat} {resolve : DnsFamily → Bool}
    {f : DnsFamily} (hstarted : (evdnsGetaddrinfo hints port resolve).lookup f = .inflight)
    {s : GetaddrinfoState} (hrun : GetaddrinfoState.Reached (evdnsGetaddrinfo hints port resolve) s) :
    s.calls.length ≤ 1 ∧ s.frees ≤ 1 ∧
      (0 < s.frees → (∀ g, (s.lookup g).outstanding = false) ∧ s.data.timeoutPending = false) ∧
      ((∀ g, (s.lookup g).outstanding = false) → s.calls.length = 1 ∧ s.frees = 1) ∧
      (s.data.timeoutPending → ∃ s', s.step .timeout = some s') ∧
      ∀ v4 v6, s.lookup .ipv4 = .reported ⟨.none, v4⟩ → s.lookup .ipv6 = .reported ⟨.none, v6⟩ →
        v4 ≠ [] → v6 ≠ [] → s.timedOut = false → s.data.userCanceled = false →
        ∃ cname, s.calls = [(.ok, setCanonname cname
          (v4.flatMap (newAddrinfos hints port .ipv4) ++ v6.flatMap (newAddrinfos hints port .ipv6)))] := by
  have h := hrun.invariant (evdnsGetaddrinfo_inv hstarted) fun _ _ _ h hst hstep => step_inv_getaddrinfo h hst hstep
  have htimeout : s.data.timeoutPending → ∃ s', s.step .timeout = some s' := by
    intro htimer
    obtain ⟨s', hsome, -⟩ := timeout_inv h htimer
    refine ⟨s', ?_⟩
    simp only [GetaddrinfoState.step, if_pos htimer]
    exact hsome
  cases h.phase with
  | waiting g hw =>
    refine ⟨by simp [hw.calls], by simp [hw.frees], by simp [hw.frees], ?_, htimeout, ?_⟩
    · intro hall
      exact absurd ((hall g).symm.trans hw.outstanding) nofun
    · intro v4 v6 h4 h6
      have hout := hw.outstanding
      cases g
      · rw [h4] at hout
        cases hout
      · rw [h6] at hout
        cases hout
  | answered g ha =>
    refine ⟨Nat.le_of_eq ha.calls, by simp [ha.frees], by simp [ha.frees], ?_, htimeout, ?_⟩
    · intro hall
      exact absurd ((hall g).symm.trans ha.outstanding) nofun
    · intro v4 v6 _ _ _ _ hnot
      exact absurd (ha.timedOut.symm.trans hnot) nofun
  | done hd =>
    refine ⟨Nat.le_of_eq hd.calls, Nat.le_of_eq hd.frees, fun _ => ⟨hd.outstanding, hd.timer⟩,
      fun _ => ⟨hd.calls, hd.frees⟩, htimeout, ?_⟩
    intro v4 v6 h4 h6 hne4 _ hnot hcanceled
    have ha4 : answers s .ipv4 = v4.flatMap (newAddrinfos hints port .ipv4) := by
      simp [answers, h4, found, h.hints_eq, h.port_eq]
    have ha6 : answers s .ipv6 = v6.flatMap (newAddrinfos hints port .ipv6) := by
      simp [answers, h6, found, h.hints_eq, h.port_eq]
    have hne : answers s .ipv4 ≠ [] := by
      intro hnil
      have hfound : found s.data.hints s.data.port .ipv4 ⟨.none, v4⟩ = [] := by
        rw [← hnil, answers, h4]
      exact hne4 ((found_eq_nil_iff _ _ _ _).mp hfound rfl)
    rw [← ha4, ← ha6]
    exact hd.answer hcanceled hnot (append_ne_nil_of_left_ne_nil hne _)

def webHints : AddrinfoHints := ⟨.unspec, sockStream, ipprotoTcp, false⟩

def bothFound : GetaddrinfoState :=
  ((((evdnsGetaddrinfo webHints 80 fun _ => true).step
      (.result .ipv6 ⟨.none, [[6]]⟩)).bind
    (·.step (.result .ipv4 ⟨.none, [[4]]⟩))).bind
    (·.step (.report .ipv6))).bind
    (·.step (.report .ipv4)) |>.getD (evdnsGetaddrinfo webHints 80 fun _ => true)

theorem getaddrinfo_answers_once_both :
    (∃ cname, bothFound.calls = [(.ok, setCanonname cname
      [⟨.ipv4, sockStream, ipprotoTcp, 80, [4], none⟩,
        ⟨.ipv6, sockStream, ipprotoTcp, 80, [6], none⟩])]) ∧ bothFound.frees = 1 := by
  have hstart : GetaddrinfoState.Reached (evdnsGetaddrinfo webHints 80 fun _ => true) _ := .start
  have hv6 := hstart.step (GetaddrinfoStep.result .ipv6 ⟨.none, [[6]]⟩) ⟨nofun, nofun, rfl⟩ rfl
  have hv4 := hv6.step (GetaddrinfoStep.result .ipv4 ⟨.none, [[4]]⟩) ⟨nofun, nofun, rfl⟩ rfl
  have hreport := hv4.step (GetaddrinfoStep.report .ipv6) nofun rfl
  have hrun : GetaddrinfoState.Reached (evdnsGetaddrinfo webHints 80 fun _ => true) bothFound :=
    hreport.step (GetaddrinfoStep.report .ipv4) nofun rfl
  obtain ⟨-, -, -, hdone, -, hboth⟩ :=
    getaddrinfo_answers_once (f := .ipv4) (by decide) hrun
  refine ⟨hboth [[4]] [[6]] rfl rfl nofun nofun rfl rfl, (hdone ?_).2⟩
  intro g
  cases g <;> rfl

end MyLibevent.Proofs
