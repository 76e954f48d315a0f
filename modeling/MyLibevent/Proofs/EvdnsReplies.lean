import MyLibevent.Proofs.EvdnsQueue

/-!
# Lookups and replies of a resolver

Only the continuation of a search does not keep all that the other operations keep: `search_try_next` makes
the new request before it finishes the old one, and the pump runs between the two.
-/

namespace MyLibevent.Proofs

open DnsBase List Function Option

section Lookups

variable {a b : DnsBase} {h s : Nat} {type : QueryType} {name : Bytes}

lemma keeps_allocHandle (hinv : DnsInv a) : Kept a a.allocHandle.2 := by
  refine ⟨{ hinv with current := ?_, fresh := fun x hx => Nat.lt_succ_of_lt (hinv.fresh x hx) }, fun _ => id,
    fun _ => id, fun _ => id, fun _ => id, .refl _, rfl, rfl⟩
  exact (forall_update_iff a.handle fun x q => q.currentReq → x ∈ a.inflight ++ a.reqWaiting).mpr
    ⟨nofun, fun x _ => hinv.current x⟩

lemma allocHandle_new (hinv : DnsInv a) :
    a.allocHandle.1 ∉ a.allocHandle.2.inflight ++ a.allocHandle.2.reqWaiting := by
  intro hx
  exact Nat.lt_irrefl _ (hinv.fresh _ hx)

lemma new_submit_keeps {probeOf : Option Nat} {req : Option PendingRequest} (hinv : DnsInv a)
    (hnew : h ∉ a.inflight ++ a.reqWaiting) (hfresh : h < a.nextHandle)
    (hn : a.requestNew type name probeOf = some (req, b)) :
    Kept a b ∧ ∀ r ∈ req, ∀ f, Kept a ((b.updateHandle h f).requestSubmit h r) := by
  obtain ⟨hsteady, -, -, hreq⟩ := requestNew_steady hinv hn
  have hkeeps := hsteady.keeps hinv
  refine ⟨hkeeps, fun r hr f => hkeeps.trans (requestSubmit_keeps hkeeps.inv ?_ ?_ (fun s hs => ?_)
    fun hnone _ => (hreq r hr).waits hnone)⟩
  · exact fun hx => hnew (hsteady.spares.perm.mem_iff.mp hx)
  · exact hsteady.spares.nextHandle ▸ hfresh
  · obtain ⟨hserver, hroom, hids⟩ := (hreq r hr).issued s hs
    exact ⟨hserver, fun _ _ => hroom, fun _ => hids⟩

lemma resolve_keeps {noSearch : Bool} (hinv : DnsInv a) (hr : a.resolve type name noSearch = some b) :
    Kept a b := by
  have halloc := keeps_allocHandle hinv
  have hnew := allocHandle_new hinv
  have hfresh : a.allocHandle.1 < a.allocHandle.2.nextHandle := Nat.lt_succ_self _
  have hsubmit {name : Bytes} {f : DnsHandle → DnsHandle} {submit}
      (hr : (a.allocHandle.2.requestNew type name none).bind submit = some b)
      (hnone : ∀ m, submit (none, m) = some m) (hsome : ∀ req m, submit (some req, m) =
        some ((m.updateHandle a.allocHandle.1 f).requestSubmit a.allocHandle.1 req)) : Kept a b := by
    obtain ⟨⟨req, m⟩, hn, hb⟩ := bind_eq_some_iff.mp hr
    obtain ⟨hkeeps, hsubmitted⟩ := new_submit_keeps halloc.inv hnew hfresh hn
    cases req with
    | none =>
      cases (hnone m).symm.trans hb
      exact halloc.trans hkeeps
    | some req =>
      cases (hsome req m).symm.trans hb
      exact halloc.trans (hsubmitted req rfl f)
  unfold resolve at hr
  dsimp only at hr
  split at hr
  · exact hsubmit hr (fun _ => rfl) fun _ _ => rfl
  · split at hr
    · cases hr
      exact halloc
    · exact hsubmit hr (fun _ => rfl) fun _ _ => rfl

lemma nameserverSendProbe_keeps (hinv : DnsInv a) (hs : s ∈ a.servers)
    (hp : a.nameserverSendProbe s = some b) : Kept a b := by
  have htimer := steady_updateNs a s (f := fun ns => { ns with probeTimer := false }) fun _ => ⟨rfl, rfl⟩
  have hinv1 := htimer.inv hinv
  have halloc := keeps_allocHandle hinv1
  have hnew := allocHandle_new hinv1
  have hstart := (htimer.keeps hinv).trans halloc
  unfold nameserverSendProbe at hp
  obtain ⟨⟨req, m⟩, hn, hrest⟩ := bind_eq_some_iff.mp hp
  obtain ⟨hsteady, -, -, hreq⟩ := requestNew_steady halloc.inv hn
  have hinv2 := hsteady.inv halloc.inv
  have hkeeps := hstart.trans (hsteady.keeps halloc.inv)
  cases req with
  | none =>
    cases hrest
    exact hkeeps
  | some r =>
    obtain ⟨⟨t, m'⟩, hpick, hb⟩ := bind_eq_some_iff.mp hrest
    cases hb
    -- the id is picked again, for the base that the probe is submitted to
    obtain ⟨⟨world, rfl⟩, hids⟩ := transactionIdPick_eq (by exact hinv2.filed) hpick
    have hprobe := steady_updateNs m s
      (f := fun ns => { ns with probeRequest := some (a.updateNs s fun ns =>
        { ns with probeTimer := false }).allocHandle.1 }) fun _ => ⟨rfl, rfl⟩
    have hready := hprobe.trans (steady_rotate (.refl _) world)
    have hinv3 := hready.inv hinv2
    have hserver : s ∈ m.servers := hkeeps.servers.mem_iff.mpr hs
    have hsubmit : Kept _ _ := requestSubmit_keeps
      (f := fun handle => { handle with currentReq := true }) (r := { r with transId := t, ns := some s })
      hinv3 (fun hx => hnew (hsteady.spares.perm.mem_iff.mp hx))
      (hsteady.spares.nextHandle ▸ Nat.lt_succ_self _) (fun x hx => ⟨some.inj hx ▸ hserver, ?_, fun _ => hids⟩) nofun
    · exact (hkeeps.trans (hready.keeps hinv2)).trans hsubmit
    · intro _ hnone
      rw [(hreq r rfl).probeOf] at hnone
      cases hnone

end Lookups

section Replies

variable {a b c : DnsBase} {h s : Nat} {err : DnsErr}
variable (base : DnsBase)

/-- There is nothing that the pump would send when a request in flight is finished, or there is no room
for a new request before that. -/
def QueueStill : Prop :=
  base.reqWaiting = [] ∨ base.globalMaxRequestsInflight ≤ base.globalRequestsInflight

lemma finish_submit_keeps {r : PendingRequest} {type : QueryType} {probeOf : Option Nat}
    {f : DnsHandle → DnsHandle} (hinv : DnsInv a) (hmem : h ∈ a.inflight)
    (hr : NewRequest a r type probeOf) (hf : a.requestFinished h true false = some b) :
    Keeps True (QueueStill a)
      (a.globalRequestsInflight + a.globalRequestsWaiting ≠ a.globalMaxRequestsInflight)
      a ((b.updateHandle h f).requestSubmit h r) := by
  obtain ⟨hkeeps, hspares, hsettled, hnone⟩ := requestFinished_keeps hinv hf hmem
  have hgone := hspares.not_mem hinv
  have hpending := hspares.pending hinv hkeeps.inv
  refine .trans (.of_kept hkeeps) (requestSubmit_keeps hkeeps.inv hgone ?_ (fun s hs => ?_) fun hs hfree => ?_)
  · exact hspares.nextHandle ▸ hinv.fresh h (mem_append_left _ hmem)
  · obtain ⟨hserver, hroom, hids⟩ := hr.issued s hs
    -- a request that got an id and a nameserver when it was made had room, so nothing waited
    have hreleased (hstill : QueueStill a) := hnone (hstill.resolve_right (Int.not_le.mpr hroom))
    refine ⟨hkeeps.servers.mem_iff.mpr hserver, fun hstill _ => ?_, fun hstill x hx => ?_⟩
    · have hlength : b.inflight.length ≤ a.inflight.length := (hreleased hstill).sublist.length_le
      have hcount := hinv.inflightCount
      have hcount' := hkeeps.inv.inflightCount
      rw [hkeeps.max]
      omega
    · rw [((hreleased hstill).same x).transId]
      exact hids x ((hreleased hstill).sublist.subset hx)
  · obtain ⟨s0, hs0, -⟩ := hinv.assigned h hmem
    have hfull : a.globalMaxRequestsInflight ≤ a.globalRequestsInflight := by
      refine (hr.waits hs).resolve_right fun hnil => ?_
      rw [hnil] at hs0
      cases hs0
    have hwaiting := hinv.waitingCount
    obtain hempty | hsettled := hsettled
    · have hzero := hkeeps.inv.waitingCount
      rw [hempty, length_nil] at hzero
      rw [hkeeps.max]
      simp only [Option.toList_some, length_singleton] at hpending
      omega
    · exact hsettled

def Continues (h : Nat) : Prop :=
  (base.req h).requestType ≠ .ptr ∧ ∃ state ∈ (base.handle h).searchState,
    (searchNext state ((base.handle h).searchIndex + 1) (base.handle h).searchOrigname).isSome

def SlotFree (cancelled : Int) : Prop :=
  base.globalRequestsInflight + base.globalRequestsWaiting - cancelled ≠ base.globalMaxRequestsInflight

lemma searchTryNext_keeps {submitted : Bool} (hinv : DnsInv a) (hmem : h ∈ a.inflight)
    (htype : (a.req h).requestType ≠ .ptr) (ht : a.searchTryNext h = some (submitted, b)) :
    submitted = false ∧ Kept a b ∧ h ∈ b.inflight ∨
      submitted ∧ Continues a h ∧ Keeps True (QueueStill a) (SlotFree a 0) a b := by
  have hunsubmitted (hb : some (false, a) = some (submitted, b)) :
      submitted = false ∧ Kept a b ∧ h ∈ b.inflight := by
    cases hb
    exact ⟨rfl, (Steady.refl a).keeps hinv, hmem⟩
  have hupdate {m : DnsBase} (hm : DnsInv m) {f : DnsHandle → DnsHandle}
      (hf : ∀ x, (f x).currentReq = x.currentReq) : Kept m (m.updateHandle h f) :=
    keeps_handle hm ((forall_update_iff m.handle fun x q => q.currentReq →
      (m.handle x).currentReq).mpr ⟨fun hx => (hf _).symm.trans hx, fun _ _ => id⟩)
  unfold searchTryNext at ht
  split at ht
  · exact .inl (hunsubmitted ht)
  rename_i state hstate
  have hindex := hupdate hinv (f := fun handle => { handle with searchIndex := handle.searchIndex + 1 })
    fun _ => rfl
  dsimp only at ht
  split at ht
  · cases ht
    exact .inl ⟨rfl, hindex, hmem⟩
  rename_i newName last hnext
  have hcontinues : Continues a h := by
    refine ⟨htype, state, hstate, ?_⟩
    have hnext' := congrArg isSome hnext
    simpa [updateHandle] using hnext'
  obtain ⟨⟨newreq, m⟩, hn, hrest⟩ := bind_eq_some_iff.mp ht
  obtain ⟨hsteady, -, -, hreq⟩ := requestNew_steady hindex.inv hn
  have hkeeps := hindex.trans (hsteady.keeps hindex.inv)
  have hmem' : h ∈ m.inflight := hsteady.inflight ▸ hmem
  cases newreq with
  | none =>
    cases hrest
    exact .inl ⟨rfl, hkeeps, hmem'⟩
  | some newreq =>
    right
    obtain ⟨m', hfinish, hb⟩ := bind_eq_some_iff.mp hrest
    cases hb
    refine ⟨rfl, hcontinues, ?_⟩
    have hlast : ∃ f : DnsHandle → DnsHandle, (∀ x, (f x).currentReq = x.currentReq) ∧
        (if last then m.updateHandle h fun handle =>
          { handle with searchState := none, searchOrigname := [] } else m) = m.updateHandle h f := by
      split
      · exact ⟨fun handle => { handle with searchState := none, searchOrigname := [] }, fun _ => rfl, rfl⟩
      · refine ⟨id, fun _ => rfl, ?_⟩
        simp [updateHandle]
    obtain ⟨f, hf, heq⟩ := hlast
    rw [heq] at hfinish
    have hend := hupdate hkeeps.inv hf
    have hstill : QueueStill a → QueueStill m := by
      rw [hsteady.same]
      exact id
    have hslot : SlotFree a 0 →
        m.globalRequestsInflight + m.globalRequestsWaiting ≠ m.globalMaxRequestsInflight := by
      unfold SlotFree
      rw [hsteady.same, Int.sub_zero]
      exact id
    have hnew : NewRequest (m.updateHandle h f) newreq (a.req h).requestType (a.req h).probeOf :=
      let hr := hreq newreq rfl
      ⟨hr.requestType, hr.probeOf, hr.issued, hr.waits⟩
    exact .trans (.of_kept (hkeeps.trans hend))
      ((finish_submit_keeps hend.inv hmem' hnew hfinish).mono id hstill hslot)

lemma replyFailed_keeps (hinv : DnsInv a) (hmem : h ∈ a.inflight)
    (hr : a.replyFailed h err = some b) :
    Keeps True (Continues a h → QueueStill a) (Continues a h → SlotFree a 0) a b := by
  have hfinish {m : DnsBase} (hm : DnsInv m) (hmem : h ∈ m.inflight)
      (hr : (m.replyScheduleCallback h err).requestFinished h true true = some b) : Kept m b :=
    (schedule_finished_keeps hm hr hmem).1
  unfold replyFailed at hr
  split_ifs at hr with hsearch
  · obtain ⟨⟨submitted, m⟩, ht, hrest⟩ := bind_eq_some_iff.mp hr
    obtain ⟨rfl, hkeeps, hmem'⟩ | ⟨rfl, hcontinues, hkeeps⟩ := searchTryNext_keeps hinv hmem hsearch.2 ht
    · exact .of_kept (hkeeps.trans (hfinish hkeeps.inv hmem' hrest))
    · cases hrest
      exact hkeeps.mono id (· hcontinues) (· hcontinues)
  · exact .of_kept (hfinish hinv hmem hr)

def probePending (s : Nat) : Bool :=
  (base.ns s).probeRequest.any fun probe =>
    (base.handle probe).currentReq && !(base.handle probe).pendingCb

/-- How many requests a good reply cancels: the probe of its nameserver, unless this is the reply to
the probe. -/
def cancelledByReply (h : Nat) : Int :=
  match (base.req h).ns with
  | none => 0
  | some s =>
    if (base.ns s).state = false ∧ (base.ns s).probeRequest ≠ some h ∧ probePending base s then 1 else 0

lemma cancelledByUp_length (s : Nat) : ((cancelledByUp base s).toList.length : Int) =
    if (base.ns s).state = false ∧ probePending base s then 1 else 0 := by
  unfold cancelledByUp probePending cancellable
  cases (base.ns s).state <;> cases (base.ns s).probeRequest <;> simp
  split <;> simp

lemma replyNameserverUp_keeps (hinv : DnsInv a) (hmem : h ∈ a.inflight)
    (hr : a.replyNameserverUp h = some b) :
    Kept a b ∧ h ∈ b.inflight ∧ b.handle h = a.handle h ∧
      (b.req h).requestType = (a.req h).requestType ∧
      b.globalRequestsInflight + b.globalRequestsWaiting =
        a.globalRequestsInflight + a.globalRequestsWaiting - cancelledByReply a h := by
  obtain ⟨s, hs, hns⟩ := hinv.assigned h hmem
  unfold replyNameserverUp at hr
  unfold cancelledByReply
  simp only [hns] at hr ⊢
  generalize hm : (if (a.ns s).probeRequest = some h then
      a.updateNs s fun ns => { ns with probeRequest := none } else a) = m
  rw [hm] at hr
  have hsteady : Steady a m := by
    subst hm
    split
    · exact steady_updateNs a s fun _ => ⟨rfl, rfl⟩
    · exact .refl a
  have hprobe : cancelledByUp m s ≠ some h ∧ ((cancelledByUp m s).toList.length : Int) =
      if (a.ns s).state = false ∧ (a.ns s).probeRequest ≠ some h ∧ probePending a s then 1 else 0 := by
    rw [cancelledByUp_length]
    subst hm
    unfold cancelledByUp probePending cancellable
    split
    · rename_i hown
      simp [updateNs, hown]
    · rename_i hother
      refine ⟨fun heq => ?_, by simp [hother]⟩
      split_ifs at heq
      obtain ⟨probe, hprobe, heq⟩ := bind_eq_some_iff.mp heq
      split_ifs at heq
      exact hother (heq ▸ hprobe)
  obtain ⟨hkeeps, c, n, good, hinv', hspares, rfl⟩ := nameserverUp_keeps (hsteady.inv hinv) hr
  have hserver : s ∈ m.servers := hsteady.servers.mem_iff.mpr hs
  have hpending := hspares.pending (hsteady.inv hinv) hinv'
  refine ⟨(hsteady.keeps hinv).trans (hkeeps.mono (fun _ => hserver) id id),
    hspares.inflight h (hsteady.inflight ▸ hmem) hprobe.1,
    (hspares.handle h hprobe.1).trans (hsteady.spares.handle h (by simp)),
    (hspares.requestType h).trans (hsteady.requestType h), ?_⟩
  rw [← hprobe.2]
  refine hpending.trans ?_
  rw [hsteady.same]

lemma evdnsRequestTimeoutCallback_keeps (hinv : DnsInv a) (hmem : h ∈ a.inflight)
    (ht : a.evdnsRequestTimeoutCallback h = some b) : Kept a b := by
  unfold evdnsRequestTimeoutCallback at ht
  split at ht
  · obtain ⟨s, hs, hns⟩ := hinv.assigned h hmem
    obtain ⟨m, hf, hrest⟩ := bind_eq_some_iff.mp ht
    obtain ⟨hkeeps, -⟩ := schedule_finished_keeps hinv hf hmem
    simp only [hns] at hrest
    cases hrest
    have hs' := hkeeps.servers.mem_iff.mpr hs
    exact hkeeps.trans ((steady_nameserverFailed hs' hkeeps.inv).keeps hkeeps.inv)
  · have htimer := steady_updateReq a h (f := fun req => { req with timer := false }) fun _ => ⟨rfl, rfl, rfl, rfl⟩
    have hswap := htimer.trans (steady_pick_swap (htimer.inflight ▸ hmem) (htimer.inv hinv))
    have hsend := hswap.trans (steady_evdnsRequestTransmit (hswap.inflight ▸ hmem) (hswap.inv hinv))
    dsimp only at ht
    split at ht
    · cases ht
      exact hsend.keeps hinv
    rename_i s hs
    have hserver := (hsend.inv hinv).server_mem (hsend.inflight ▸ hmem) hs
    have hcount := hsend.trans (steady_updateNs _ s
      (f := fun ns => { ns with timedout := ns.timedout + 1 }) fun _ => ⟨rfl, rfl⟩)
    split at ht
    · cases ht
      have hreset := hcount.trans (steady_updateNs _ s
        (f := fun ns => { ns with timedout := 0 }) fun _ => ⟨rfl, rfl⟩)
      exact (hreset.trans (steady_nameserverFailed hserver (hreset.inv hinv))).keeps hinv
    · cases ht
      exact hcount.keeps hinv

lemma steady_requestReissue (hmem : h ∈ a.inflight) (hinv : DnsInv a) : Steady a (a.requestReissue h).2 := by
  have hswap := steady_pick_swap hmem hinv
  unfold requestReissue
  dsimp only
  split
  · exact hswap
  · exact hswap.trans (steady_updateReq _ h (f := fun req =>
      { req with reissueCount := req.reissueCount + 1, txCount := 0, transmitMe := true })
      fun _ => ⟨rfl, rfl, rfl, rfl⟩)

lemma Continues.of_eq (hc : Continues b h) (hhandle : b.handle h = a.handle h)
    (htype : (b.req h).requestType = (a.req h).requestType) : Continues a h := by
  unfold Continues at hc ⊢
  rw [← hhandle, ← htype]
  exact hc

def FailsSearch (h : Nat) (err : DnsErr) : Prop :=
  err ≠ .serverFailed ∧ Continues base h

def cancelledByError (h : Nat) (err : DnsErr) : Int :=
  if err = .notImpl ∨ err = .refused then 0 else cancelledByReply base h

lemma replyFailed_steady_keeps {err' : DnsErr} (hs : Steady a b) (hinv : DnsInv a)
    (hmem : h ∈ a.inflight) (herr : err ≠ .serverFailed) (hzero : cancelledByError a h err = 0)
    (hr : b.replyFailed h err' = some c) : Keeps True (FailsSearch a h err → QueueStill a)
      (FailsSearch a h err → SlotFree a (cancelledByError a h err)) a c := by
  have hcontinues (hc : Continues b h) : FailsSearch a h err :=
    ⟨herr, hc.of_eq (hs.spares.handle h nofun) (hs.requestType h)⟩
  refine .trans (.of_kept (hs.keeps hinv)) ((replyFailed_keeps (hs.inv hinv) (hs.inflight ▸ hmem) hr).mono id
    (fun hq hc => ?_) fun hq hc => ?_)
  · have hq' := hq (hcontinues hc)
    rw [hs.same]
    exact hq'
  · have hq' := hq (hcontinues hc)
    rw [hzero] at hq'
    rw [hs.same]
    exact hq'

lemma replyHandle_keeps {flags : UInt16} {reply : Option Bool} (hinv : DnsInv a) (hmem : h ∈ a.inflight)
    (hr : a.replyHandle h flags reply = some b) :
    Keeps True (∀ err, replyError flags reply = some err → FailsSearch a h err → QueueStill a)
      (∀ err, replyError flags reply = some err → FailsSearch a h err →
        SlotFree a (cancelledByError a h err)) a b := by
  unfold replyHandle at hr
  split at hr
  · obtain ⟨m, hup, hf⟩ := bind_eq_some_iff.mp hr
    have hschedule : Kept a (a.replyScheduleCallback h .none) := keeps_schedule hinv .none
    have hmem' : h ∈ (a.replyScheduleCallback h .none).inflight := by
      obtain ⟨callbacks, heq⟩ := replyScheduleCallback_eq a h .none
      rw [heq]
      exact hmem
    obtain ⟨hkeeps, hmem', -⟩ := replyNameserverUp_keeps hschedule.inv hmem' hup
    have hfinish := (requestFinished_keeps hkeeps.inv hf hmem').1
    exact .of_kept ((hschedule.trans hkeeps).trans hfinish)
  · exact .of_kept (evdnsRequestTimeoutCallback_keeps hinv hmem hr)
  · rename_i err hfailed herr
    split at hr
    · rename_i hrefused
      have hzero : cancelledByError a h err = 0 := if_pos hrefused
      have hnone {m : DnsBase} (hs : Steady a m) (hr : m.replyFailed h err = some b) :
          Keeps True (∀ err, replyError flags reply = some err → FailsSearch a h err → QueueStill a)
            (∀ err, replyError flags reply = some err → FailsSearch a h err →
              SlotFree a (cancelledByError a h err)) a b :=
        (replyFailed_steady_keeps hs hinv hmem hfailed hzero hr).mono id (fun hq => hq err herr)
          fun hq => hq err herr
      split at hr
      · obtain ⟨s, hs, hns⟩ := hinv.assigned h hmem
        simp only [hns] at hr
        have hdown := steady_nameserverFailed hs hinv
        have hreissue := hdown.trans (steady_requestReissue (hdown.inflight ▸ hmem) (hdown.inv hinv))
        split at hr
        · cases hr
          exact .of_kept (hreissue.keeps hinv)
        · exact hnone hreissue hr
      · exact hnone (.refl a) hr
    · rename_i hgood
      obtain ⟨m, hup, hrest⟩ := bind_eq_some_iff.mp hr
      obtain ⟨hkeeps, hmem', hhandle, htype, hpending⟩ := replyNameserverUp_keeps hinv hmem hup
      have hcontinues (hc : Continues m h) : FailsSearch a h err := ⟨hfailed, hc.of_eq hhandle htype⟩
      refine .trans (.of_kept hkeeps) ((replyFailed_keeps hkeeps.inv hmem' hrest).mono id (fun hq hc => ?_)
        fun hq hc => ?_)
      · -- the queue is settled before, so it is settled after the probe is cancelled
        have hsettled := hkeeps.settled trivial ((hq err herr (hcontinues hc)).imp_right .inl)
        refine hsettled.imp_right fun hfull => hfull.resolve_right fun hnil => ?_
        obtain ⟨s, hs, -⟩ := hkeeps.inv.assigned h hmem'
        rw [hnil] at hs
        cases hs
      · have hq' := hq err herr (hcontinues hc)
        unfold SlotFree at hq' ⊢
        unfold cancelledByError at hq'
        rw [if_neg hgood] at hq'
        rw [hpending, hkeeps.max, Int.sub_zero]
        exact hq'

end Replies

end MyLibevent.Proofs
