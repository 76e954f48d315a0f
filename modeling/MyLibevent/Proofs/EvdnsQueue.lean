import MyLibevent.Proofs.Evdns

/-!
# The waiting queue of a resolver

The pump moves requests from the waiting queue into flight as long as there is room. The functions that
finish, cancel and submit requests are described by the list a request leaves or enters, and by the pump.
-/

namespace MyLibevent.Proofs

open DnsBase List Function Option

section Pump

variable {a b c : DnsBase} {h s : Nat} {rest : List Nat}

lemma transactionIdPick_eq {t : UInt16} (hinv : Buckets.Filed a.reqHeads fun x => a.reqHead (a.req x).transId)
    (hpick : a.transactionIdPick = some (t, b)) :
    (∃ world, b = { a with world := world }) ∧ ∀ x ∈ a.inflight, (a.req x).transId ≠ t := by
  have hfrom : ∀ rng rest, a.pickFrom rng = some (t, rest) → a.requestFindFromTransId t = none := by
    intro rng
    induction rng with
    | nil =>
      intro rest h
      cases h
    | cons x rng ih =>
      intro rest h
      unfold pickFrom at h
      split at h
      · exact ih rest h
      split_ifs at h with hnone
      · cases h
        exact isNone_iff_eq_none.mp hnone
      · exact ih rest h
  unfold transactionIdPick at hpick
  obtain ⟨⟨t', rest⟩, hrest, heq⟩ := map_eq_some_iff.mp hpick
  obtain ⟨rfl, rfl⟩ := Prod.mk.inj heq
  refine ⟨⟨_, rfl⟩, fun x hx hid => ?_⟩
  have hnone := hfrom _ _ hrest
  unfold requestFindFromTransId at hnone
  have hbucket := hinv.mem_iff.mp hx
  rw [hid] at hbucket
  have hfound := find?_eq_none.mp hnone x hbucket
  simp [hid] at hfound

lemma promote_eq (hinv : DnsInv a) (hwaiting : a.reqWaiting = h :: rest) (hnew : h ∉ a.inflight)
    (hp : a.promote h s = some b) :
    ∃ world t, b = ((linked a world a.handle h s { a.req h with ns := some s, transId := t
      }).evdnsRequestTransmit h).evdnsTransmit ∧ ∀ x ∈ a.inflight, (a.req x).transId ≠ t := by
  unfold promote at hp
  obtain ⟨⟨t, m⟩, hpick, hb⟩ := bind_eq_some_iff.mp hp
  obtain ⟨⟨world, rfl⟩, hids⟩ := transactionIdPick_eq (by exact hinv.filed_update hnew _) hpick
  refine ⟨world, t, ?_, fun x hx => ?_⟩
  · have hcount : a.globalRequestsWaiting - 1 = ((a.reqWaiting.erase h).length : Int) := by
      rw [hinv.waitingCount, hwaiting, length_cons, erase_cons_head]
      omega
    rw [← some.inj hb]
    simp only [linked, loaded, insertInflight, updateReq, updateNs, update_self, update_idem, hcount]
    rfl
  · have hid := hids x hx
    simp only [updateReq, updateNs] at hid
    rwa [req_update hnew _ x hx] at hid

lemma promote_pumps (hinv : DnsInv a) (hwaiting : a.reqWaiting = h :: rest) (hs : s ∈ a.servers)
    (hroom : a.globalRequestsInflight < a.globalMaxRequestsInflight) (hp : a.promote h s = some b) :
    Kept a b ∧ Spares none a b := by
  have hmem : h ∈ a.reqWaiting := hwaiting ▸ mem_cons_self
  have hnew : h ∉ a.inflight := fun hx => hinv.not_waiting hx hmem
  obtain ⟨world, t, rfl, hids⟩ := promote_eq hinv hwaiting hnew hp
  generalize hr : { a.req h with ns := some s, transId := t } = r
  have hlinked : Kept a (linked a world a.handle h s r) :=
    linked_keeps hinv hnew (hinv.fresh h (mem_append_right _ hmem)) (fun _ _ => rfl) hs (hr ▸ rfl)
      (fun _ => hr ▸ hids) fun _ _ => hroom
  have hperm : (linked a world a.handle h s r).inflight.Perm (h :: a.inflight) := linked_perm hinv
  have hspares : Spares none a (linked a world a.handle h s r) := by
    refine ⟨?_, fun x hx _ => hperm.mem_iff.mpr (mem_cons_of_mem h hx), fun _ _ => rfl, rfl, ?_,
      fun x hx => (loaded_apply ..).2.trans hx⟩
    · exact (hperm.append_right _).trans (perm_middle.symm.trans ((perm_cons_erase hmem).symm.append_left _))
    · exact (forall_update_iff a.req fun x q => q.requestType = (a.req x).requestType).mpr
        ⟨hr ▸ rfl, fun _ _ => rfl⟩
  have hsend := steady_evdnsRequestTransmit (hperm.mem_iff.mpr mem_cons_self) hlinked.inv
  have hsteady := hsend.trans (steady_evdnsTransmit (hsend.inv hlinked.inv))
  exact ⟨hlinked.trans (hsteady.keeps hlinked.inv), hspares.trans hsteady.spares⟩

lemma settled_of_stop (hinv : DnsInv a) (hstop : ¬ (a.globalRequestsInflight < a.globalMaxRequestsInflight ∧
    a.globalRequestsWaiting ≠ 0)) : QueueSettled a := by
  by_cases hroom : a.globalRequestsInflight < a.globalMaxRequestsInflight
  · left
    have hcount := hinv.waitingCount
    rw [← length_eq_zero_iff]
    omega
  · exact .inr (.inl (Int.not_lt.mp hroom))

lemma pumpLoop_pumps {turns : Nat} (hinv : DnsInv a) (hp : pumpLoop turns a = some b) :
    Kept a b ∧ Spares none a b ∧ QueueSettled b := by
  have hsame := Steady.refl a
  induction turns generalizing a with
  | zero =>
    unfold pumpLoop at hp
    split at hp
    · cases hp
    · rename_i hstop
      obtain rfl := some.inj hp
      exact ⟨hsame.keeps hinv, hsame.spares, settled_of_stop hinv hstop⟩
  | succ turns ih =>
    unfold pumpLoop at hp
    split_ifs at hp with hroom
    · cases hwaiting : a.reqWaiting with
      | nil =>
        rw [hwaiting] at hp
        cases hp
      | cons h rest =>
        rw [hwaiting] at hp
        obtain ⟨hnone, hpick⟩ | ⟨s, servers, hpick, hperm, hs⟩ := nameserverPick_cases a
        · simp only [hpick] at hp
          obtain rfl := some.inj hp
          exact ⟨hsame.keeps hinv, hsame.spares, .inr (.inr hnone)⟩
        · simp only [hpick] at hp
          obtain ⟨m, hm, hrest⟩ := bind_eq_some_iff.mp hp
          have hrotate := steady_rotate hperm a.world
          obtain ⟨hpromote, hspares⟩ :=
            promote_pumps (hrotate.inv hinv) hwaiting (hperm.mem_iff.mpr hs) hroom.1 hm
          obtain ⟨hloop, hloop', hsettled⟩ := ih hpromote.inv hrest (.refl m)
          exact ⟨((hrotate.keeps hinv).trans hpromote).trans hloop,
            (hrotate.spares.trans hspares).trans hloop', hsettled⟩
    · obtain rfl := some.inj hp
      exact ⟨hsame.keeps hinv, hsame.spares, settled_of_stop hinv hroom⟩

lemma pumpWaitingQueue_nil (hinv : DnsInv a) (hnone : a.reqWaiting = []) : a.pumpWaitingQueue = some a := by
  have hcount := hinv.waitingCount
  rw [hnone, length_nil] at hcount
  unfold pumpWaitingQueue pumpLoop
  rw [if_neg (by simp [hcount])]

end Pump

section Finishing

variable {a b : DnsBase} {h s : Nat} {wasInflight freeHandle : Bool}

lemma Released.settled_keeps {m : DnsBase} (hr : Released a m h) (hk : Kept m b)
    (hsettled : QueueSettled b) : Kept a b where
  inv := hk.inv
  good _ hgood := hk.good trivial (hr.good hgood)
  unique _ hids := by
    apply hk.unique trivial
    unfold UniqueIds at hids ⊢
    simp only [fun x => (hr.same x).transId]
    exact hids.sublist (hr.sublist.map _)
  bounded _ hbound := by
    apply hk.bounded trivial
    have hle := hr.sublist.countP_le (p := fun x => (a.req x).probeOf.isNone)
    unfold Bounded lookupsInflight at hbound ⊢
    simp only [fun x => (hr.same x).probeOf, hr.max]
    omega
  settled _ _ := hsettled
  servers := hr.servers ▸ hk.servers
  max := hk.max.trans hr.max
  suspended := hk.suspended.trans hr.suspended

lemma requestFinished_keeps (hinv : DnsInv a)
    (hf : a.requestFinished h wasInflight freeHandle = some b)
    (hmem : if wasInflight then h ∈ a.inflight else h ∈ a.reqWaiting) :
    Kept a b ∧ Spares (some h) a b ∧ QueueSettled b ∧ (a.reqWaiting = [] → Released a b h) := by
  have hr := unlinkRequest_released freeHandle hinv hmem
  obtain ⟨hkeeps, hspares, hsettled⟩ := pumpLoop_pumps hr.inv hf
  refine ⟨hr.settled_keeps hkeeps hsettled, hr.toSpares.trans hspares, hsettled, fun hnone => ?_⟩
  have hnil := hr.waiting
  rw [hnone, sublist_nil] at hnil
  obtain rfl := some.inj ((pumpWaitingQueue_nil hr.inv hnil).symm.trans hf)
  exact hr

lemma keeps_handle {handle : Nat → DnsHandle} {callbacks : List (Nat × DnsErr)} (hinv : DnsInv a)
    (hcurrent : ∀ x, (handle x).currentReq → (a.handle x).currentReq) :
    Kept a { a with handle := handle, probeCallbacks := callbacks } :=
  ⟨{ hinv with current := fun x hx => hinv.current x (hcurrent x hx) }, fun _ => id, fun _ => id, fun _ => id,
    fun _ => id, .refl _, rfl, rfl⟩

lemma replyScheduleCallback_eq (a : DnsBase) (h : Nat) (err : DnsErr) : ∃ callbacks,
    a.replyScheduleCallback h err = { a with
      handle := update a.handle h { a.handle h with pendingCb := true }
      probeCallbacks := callbacks } := by
  unfold replyScheduleCallback
  dsimp only
  split
  · exact ⟨_, rfl⟩
  · exact ⟨_, rfl⟩

lemma keeps_schedule (hinv : DnsInv a) (err : DnsErr) : Kept a (a.replyScheduleCallback h err) := by
  obtain ⟨callbacks, heq⟩ := replyScheduleCallback_eq a h err
  rw [heq]
  exact keeps_handle hinv ((forall_update_iff a.handle fun x q => q.currentReq →
    (a.handle x).currentReq).mpr ⟨id, fun _ _ => id⟩)

lemma schedule_finished_keeps {err : DnsErr} (hinv : DnsInv a)
    (hf : (a.replyScheduleCallback h err).requestFinished h wasInflight true = some b)
    (hmem : if wasInflight then h ∈ a.inflight else h ∈ a.reqWaiting) :
    Kept a b ∧ Spares (some h) a b := by
  have hschedule : Kept a (a.replyScheduleCallback h err) := keeps_schedule hinv err
  obtain ⟨callbacks, heq⟩ := replyScheduleCallback_eq a h err
  rw [heq] at hf hschedule
  obtain ⟨hkeeps, hspares, -⟩ := requestFinished_keeps hschedule.inv hf hmem
  refine ⟨hschedule.trans hkeeps, { hspares with handle := fun x hx => ?_ }⟩
  rw [hspares.handle x hx]
  exact update_of_ne (fun heq => hx (congrArg some heq.symm)) ..

/-- The request that `evdns_cancel_request` ends. -/
def cancellable (base : DnsBase) (h : Nat) : Option Nat :=
  if (base.handle h).currentReq && !(base.handle h).pendingCb then some h else none

lemma evdnsCancelRequest_keeps (hinv : DnsInv a) (hc : a.evdnsCancelRequest h = some b) :
    Kept a b ∧ Spares (cancellable a h) a b := by
  have hsame := Steady.refl a
  unfold evdnsCancelRequest at hc
  unfold cancellable
  split_ifs at hc with hnone
  · cases hc
    rw [if_neg (by simpa [or_iff_not_imp_left] using hnone)]
    exact ⟨hsame.keeps hinv, hsame.spares⟩
  · simp only [not_or, Bool.not_eq_false, Bool.not_eq_true] at hnone
    have hmem : if (a.req h).ns.isSome then h ∈ a.inflight else h ∈ a.reqWaiting := by
      obtain hx | hx := mem_append.mp (hinv.current h hnone.1)
      · obtain ⟨s, -, hns⟩ := hinv.assigned h hx
        rw [hns]
        exact hx
      · rw [hinv.unassigned h hx]
        exact hx
    rw [if_pos (by simp [hnone])]
    exact schedule_finished_keeps hinv hc hmem

lemma cancelProbe_keeps (hinv : DnsInv a) (hc : a.cancelProbe s = some b) :
    Kept a b ∧ Spares ((a.ns s).probeRequest.bind (cancellable a)) a b := by
  unfold cancelProbe at hc
  cases hrequest : (a.ns s).probeRequest with
  | none =>
    rw [hrequest] at hc
    cases hc
    exact ⟨(Steady.refl a).keeps hinv, (Steady.refl a).spares⟩
  | some probe =>
    rw [hrequest] at hc
    exact evdnsCancelRequest_keeps hinv hc

lemma keeps_up (hinv : DnsInv a) (hdown : (a.ns s).state = false) {f : Nameserver → Nameserver}
    (hf : ∀ n, (f n).requestsInflight = n.requestsInflight ∧ (f n).state) :
    Keeps (s ∈ a.servers) True True a { a.updateNs s f with
      globalGoodNameservers := (a.updateNs s f).globalGoodNameservers + 1 } := by
  refine ⟨{ hinv with load := ?_ }, fun hs hgood => goodCount_state a hinv hs hgood ?_, fun _ => id, fun _ => id,
    fun _ => id, .refl _, rfl, rfl⟩
  · exact (forall_update_iff a.ns fun x n => x ∈ a.servers → n.requestsInflight = _).mpr
      ⟨fun hs => (hf _).1.trans (hinv.load s hs), fun x _ => hinv.load x⟩
  · rw [hdown, (hf _).2]
    simp [updateNs]

/-- The request that `nameserver_up` cancels. -/
def cancelledByUp (base : DnsBase) (s : Nat) : Option Nat :=
  if (base.ns s).state then none else (base.ns s).probeRequest.bind (cancellable base)

lemma nameserverUp_keeps (hinv : DnsInv a) (hup : a.nameserverUp s = some b) :
    Keeps (s ∈ a.servers) True True a b ∧ ∃ m n good, DnsInv m ∧ Spares (cancelledByUp a s) a m ∧
      b = { m with ns := n, globalGoodNameservers := good } := by
  unfold nameserverUp at hup
  unfold cancelledByUp
  split_ifs at hup with hstate
  · cases hup
    rw [if_pos hstate]
    exact ⟨.of_kept ((Steady.refl a).keeps hinv), a, a.ns, a.globalGoodNameservers, hinv,
      (Steady.refl a).spares, rfl⟩
  have hdown : (a.ns s).state = false := Bool.eq_false_iff.mpr hstate
  have htimer := steady_updateNs a s (f := fun ns => { ns with probeTimer := false }) fun _ => ⟨rfl, rfl⟩
  obtain ⟨m, hm, hb⟩ := bind_eq_some_iff.mp hup
  cases hb
  obtain ⟨hcancel, hspares⟩ := cancelProbe_keeps (htimer.inv hinv) hm
  have hkeeps := keeps_up hcancel.inv (hspares.down s (htimer.down s hdown))
    (f := fun ns => { ns with probeRequest := none, state := true, timedout := 0 }) fun _ => ⟨rfl, rfl⟩
  refine ⟨.trans (.of_kept ((htimer.keeps hinv).trans hcancel))
    (hkeeps.mono hcancel.servers.mem_iff.mpr id id), m, _, _, hcancel.inv, ?_, rfl⟩
  rw [if_neg hstate]
  have hprobe : ((a.updateNs s fun ns => { ns with probeTimer := false }).ns s).probeRequest =
      (a.ns s).probeRequest := by simp [updateNs]
  rw [hprobe] at hspares
  exact { hspares with down := fun x hx => hspares.down x (htimer.down x hx) }

end Finishing

section NewRequests

variable {a b : DnsBase} {h s : Nat} {r : PendingRequest} {type : QueryType} {name : Bytes}
  {probeOf : Option Nat} {req : Option PendingRequest}

/-- What `request_new` gives: a request with a nameserver and a new id if there is room for it in
flight, and one without nameserver otherwise. -/
structure NewRequest (a : DnsBase) (r : PendingRequest) (type : QueryType) (probeOf : Option Nat) :
    Prop where
  requestType : r.requestType = type
  probeOf : r.probeOf = probeOf
  issued : ∀ s, r.ns = some s → s ∈ a.servers ∧
    a.globalRequestsInflight < a.globalMaxRequestsInflight ∧ ∀ x ∈ a.inflight, (a.req x).transId ≠ r.transId
  waits : r.ns = none → a.globalMaxRequestsInflight ≤ a.globalRequestsInflight ∨ a.servers = []

lemma requestNew_eq (hinv : DnsInv a) (hn : a.requestNew type name probeOf = some (req, b)) :
    (∃ world servers, b = { a with world := world, servers := servers } ∧ servers.Perm a.servers) ∧
      ∀ r ∈ req, NewRequest a r type probeOf := by
  unfold DnsBase.requestNew at hn
  obtain ⟨⟨t, m⟩, hpick, hrest⟩ := bind_eq_some_iff.mp hn
  by_cases hroom : a.globalRequestsInflight < a.globalMaxRequestsInflight
  · rw [if_pos hroom] at hpick
    obtain ⟨⟨world, rfl⟩, hids⟩ := transactionIdPick_eq hinv.filed hpick
    dsimp only at hrest
    split at hrest
    · cases hrest
      exact ⟨⟨world, a.servers, rfl, .refl _⟩, by simp⟩
    · obtain ⟨hnone, hpick⟩ | ⟨s, servers, hpick, hperm, hs⟩ := nameserverPick_cases { a with world := world }
      · rw [hpick] at hrest
        cases hrest
        refine ⟨⟨world, a.servers, rfl, .refl _⟩, ?_⟩
        intro r hr
        cases hr
        exact ⟨rfl, rfl, by simp, fun _ => .inr hnone⟩
      · rw [hpick] at hrest
        cases hrest
        refine ⟨⟨world, servers, rfl, hperm⟩, ?_⟩
        intro r hr
        cases hr
        refine ⟨rfl, rfl, fun s' hs' => ?_, by simp⟩
        cases hs'
        exact ⟨hs, hroom, hids⟩
  · rw [if_neg hroom] at hpick
    cases hpick
    dsimp only at hrest
    split at hrest
    · cases hrest
      exact ⟨⟨a.world, a.servers, rfl, .refl _⟩, by simp⟩
    · cases hrest
      refine ⟨⟨a.world, a.servers, rfl, .refl _⟩, ?_⟩
      intro r hr
      cases hr
      exact ⟨rfl, rfl, by simp, fun _ => .inl (Int.not_lt.mp hroom)⟩

lemma requestNew_steady (hinv : DnsInv a) (hn : a.requestNew type name probeOf = some (req, b)) :
    Steady a b ∧ b.req = a.req ∧ b.ns = a.ns ∧ ∀ r ∈ req, NewRequest b r type probeOf := by
  obtain ⟨⟨world, servers, rfl, hperm⟩, hreq⟩ := requestNew_eq hinv hn
  refine ⟨steady_rotate hperm world, rfl, rfl, fun r hr => ?_⟩
  have hnew := hreq r hr
  refine ⟨hnew.requestType, hnew.probeOf, fun s hs => ?_, fun hnone => ?_⟩
  · obtain ⟨hserver, hrest⟩ := hnew.issued s hs
    exact ⟨hperm.mem_iff.mpr hserver, hrest⟩
  · refine (hnew.waits hnone).imp_right fun hnil => ?_
    rw [hnil] at hperm
    exact hperm.eq_nil

lemma requestSubmit_keeps {fits served : Prop} {f : DnsHandle → DnsHandle} (hinv : DnsInv a)
    (hnew : h ∉ a.inflight ++ a.reqWaiting) (hfresh : h < a.nextHandle)
    (hissued : ∀ s, r.ns = some s → s ∈ a.servers ∧
      (fits → r.probeOf = none → a.globalRequestsInflight < a.globalMaxRequestsInflight) ∧
      (fits → ∀ x ∈ a.inflight, (a.req x).transId ≠ r.transId))
    (hwaits : r.ns = none → served → a.globalMaxRequestsInflight ≤ a.globalRequestsInflight ∨ a.servers = []) :
    Keeps True fits served a ((a.updateHandle h f).requestSubmit h r) := by
  have hhandle (x : Nat) (hx : x ≠ h) : (a.updateHandle h f).handle x = a.handle x := update_of_ne hx ..
  rw [mem_append, not_or] at hnew
  unfold requestSubmit
  dsimp only
  cases hns : r.ns with
  | some s =>
    obtain ⟨hs, hroom, hids⟩ := hissued s hns
    have hlinked : Keeps True fits True a (linked a a.world (a.updateHandle h f).handle h s r) :=
      linked_keeps hinv hnew.1 hfresh hhandle hs hns hids hroom
    have hsend := steady_evdnsRequestTransmit ((linked_perm hinv).mem_iff.mpr mem_cons_self) hlinked.inv
    have hkeeps := hlinked.trans (.of_kept (hsend.keeps hlinked.inv))
    have heq : linked a a.world (a.updateHandle h f).handle h s r = { { (a.updateHandle h f) with
        req := update a.req h r }.insertInflight h with
        globalRequestsInflight := a.globalRequestsInflight + 1 }.updateNs s
        fun ns => { ns with requestsInflight := ns.requestsInflight + 1 } := by
      simp [linked, loaded, updateNs, insertInflight, updateHandle, DnsBase.reqHead, erase_of_not_mem hnew.2,
        hinv.waitingCount]
    rw [heq] at hkeeps
    exact hkeeps.mono id id fun _ => trivial
  | none => exact (enqueued_keeps hinv hnew.1 hfresh hhandle hnew.2 hns (hwaits hns)).mono id (fun _ => trivial) id

end NewRequests

end MyLibevent.Proofs
