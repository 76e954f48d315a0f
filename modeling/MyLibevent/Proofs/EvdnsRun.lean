import MyLibevent.Proofs.EvdnsReplies

/-!
# Runs of a resolver

What holds of an `evdns_base` after any operations, and when ids stay unique, the limit of requests in flight
is kept and no request is left waiting. The exceptions are the continuation of a search, a raised limit, and
the callback of a probe whose nameserver is gone.
-/

namespace MyLibevent.Proofs

open DnsBase List

section Configuration

variable {a b : DnsBase} {s : Nat}

lemma nameserverProbeCallback_keeps {result : DnsErr} (hinv : DnsInv a)
    (hp : a.nameserverProbeCallback s result = some b) :
    Keeps (result = .none ∨ result = .notExist → s ∈ a.servers) True True a b := by
  have hforget := steady_updateNs a s (f := fun ns => { ns with probeRequest := none }) fun _ => ⟨rfl, rfl⟩
  unfold nameserverProbeCallback at hp
  split at hp
  · cases hp
    exact .of_kept ((Steady.refl a).keeps hinv)
  split_ifs at hp with hgood
  · have hup := (nameserverUp_keeps (hforget.inv hinv) hp).1
    exact .trans (.of_kept (hforget.keeps hinv)) (hup.mono (fun hs => hs hgood) id id)
  · cases hp
    have hfailed := hforget.trans (steady_updateNs _ s
      (f := fun ns => { ns with probeTimer := !ns.state }) fun _ => ⟨rfl, rfl⟩)
    exact .of_kept (hfailed.keeps hinv)

lemma nameserverAdd_inv (hinv : DnsInv a) : DnsInv a.nameserverAdd ∧ (GoodCount a → GoodCount a.nameserverAdd) := by
  have hperm : a.nameserverAdd.servers.Perm (a.nextServer :: a.servers) := by
    unfold nameserverAdd
    cases a.servers with
    | nil => exact .refl _
    | cons head rest => exact List.Perm.swap ..
  have hnew : a.nextServer ∉ a.servers := fun hs => Nat.lt_irrefl _ (hinv.serversFresh _ hs)
  have hother {x : Nat} (hx : x ∈ a.servers) : a.nameserverAdd.ns x = a.ns x := by
    unfold nameserverAdd
    apply Function.update_of_ne
    rintro rfl
    exact hnew hx
  constructor
  · refine { hinv with assigned := ?_, serversNodup := ?_, serversFresh := ?_, load := ?_ }
    · intro x hx
      obtain ⟨s, hs, hns⟩ := hinv.assigned x hx
      exact ⟨s, hperm.mem_iff.mpr (mem_cons_of_mem _ hs), hns⟩
    · rw [hperm.nodup_iff, nodup_cons]
      exact ⟨hnew, hinv.serversNodup⟩
    · intro x hx
      obtain rfl | hx := mem_cons.mp (hperm.mem_iff.mp hx)
      · exact Nat.lt_succ_self _
      · exact Nat.lt_succ_of_lt (hinv.serversFresh x hx)
    · intro x hx
      obtain rfl | hx := mem_cons.mp (hperm.mem_iff.mp hx)
      · have hnone : (a.inflight.countP fun y => (a.req y).ns = some a.nextServer) = 0 := by
          rw [countP_eq_zero]
          intro y hy heq
          obtain ⟨s, hs, hns⟩ := hinv.assigned y hy
          rw [hns, decide_eq_true_eq] at heq
          exact hnew (Option.some.inj heq ▸ hs)
        change _ = ((a.inflight.countP fun y => (a.req y).ns = some a.nextServer : Nat) : Int)
        rw [hnone]
        simp [nameserverAdd]
      · rw [hother hx]
        exact hinv.load x hx
  · intro hgood
    unfold GoodCount at hgood ⊢
    have hold : (a.servers.countP fun x => (a.nameserverAdd.ns x).state) =
        a.servers.countP fun x => (a.ns x).state :=
      countP_congr fun x hx => by rw [hother hx]
    have hstate : (a.nameserverAdd.ns a.nextServer).state := by simp [nameserverAdd]
    rw [hperm.countP_eq, countP_cons, hold, if_pos hstate]
    simp only [nameserverAdd]
    omega

lemma clearNameservers_keeps (servers : List Nat) (hinv : DnsInv a)
    (hc : servers.foldlM clearNameserver a = some b) : Kept a b := by
  induction servers generalizing a with
  | nil =>
    obtain rfl := Option.some.inj hc
    exact (Steady.refl a).keeps hinv
  | cons s rest ih =>
    rw [foldlM_cons] at hc
    obtain ⟨m, hm, hrest⟩ := Option.bind_eq_some_iff.mp hc
    unfold clearNameserver at hm
    have htimer := steady_updateNs a s (f := fun ns => { ns with probeTimer := false }) fun _ => ⟨rfl, rfl⟩
    obtain ⟨m', hcancel, hm'⟩ := Option.bind_eq_some_iff.mp hm
    cases hm'
    obtain ⟨hkeeps, -⟩ := cancelProbe_keeps (htimer.inv hinv) hcancel
    have hforget := steady_updateNs m' s (f := fun ns => { ns with probeRequest := none }) fun _ => ⟨rfl, rfl⟩
    have hfirst := ((htimer.keeps hinv).trans hkeeps).trans (hforget.keeps hkeeps.inv)
    exact hfirst.trans (ih hfirst.inv hrest)

lemma foldl_suspendRequest (l : List Nat) (a : DnsBase) : ∃ req,
    l.foldl suspendRequest a = { a with
      req := req
      globalRequestsWaiting := a.globalRequestsWaiting + l.length
      reqWaiting := l.reverse ++ a.reqWaiting } ∧
    ∀ x, x ∈ l ∨ (a.req x).ns = none → (req x).ns = none := by
  induction l generalizing a with
  | nil => exact ⟨a.req, by simp, by simp⟩
  | cons h l ih =>
    obtain ⟨req, heq, hreq⟩ := ih (a.suspendRequest h)
    refine ⟨req, ?_, fun x hx => hreq x ?_⟩
    · rw [foldl_cons, heq]
      have hcount : a.globalRequestsWaiting + 1 + (l.length : Int) =
          a.globalRequestsWaiting + ((h :: l).length : Int) := by
        rw [length_cons]
        omega
      simp only [suspendRequest, updateReq, hcount, reverse_cons, append_assoc, singleton_append]
    · by_cases hxh : x = h
      · subst hxh
        exact .inr (by simp [suspendRequest, updateReq])
      · obtain hx | hx := hx
        · exact .inl ((mem_cons.mp hx).resolve_left hxh)
        · exact .inr (by simpa [suspendRequest, updateReq, hxh] using hx)

lemma clearNameserversAndSuspend_spec (hinv : DnsInv a) (hc : a.clearNameserversAndSuspend = some b) :
    b = a ∨ DnsInv b ∧ GoodCount b ∧ b.inflight = [] ∧ b.suspended ∧
      b.globalMaxRequestsInflight = a.globalMaxRequestsInflight := by
  unfold clearNameserversAndSuspend at hc
  split at hc
  · exact .inl (Option.some.inj hc).symm
  right
  obtain ⟨m, hm, hb⟩ := Option.bind_eq_some_iff.mp hc
  have hkeeps := clearNameservers_keeps _ hinv hm
  have hinv' := hkeeps.inv
  obtain ⟨req, heq, hreq⟩ := foldl_suspendRequest
    { m with servers := [], globalGoodNameservers := 0 }.inflight
    { m with servers := [], globalGoodNameservers := 0 }
  obtain rfl : b = { m with
      servers := []
      globalGoodNameservers := 0
      req := req
      globalRequestsWaiting := m.globalRequestsWaiting + m.inflight.length
      reqWaiting := m.inflight.reverse ++ m.reqWaiting
      reqHeads := m.reqHeads.map fun _ => []
      globalRequestsInflight := 0
      suspended := true } := by
    rw [← Option.some.inj hb, heq]
    rfl
  have hnone : (m.reqHeads.map fun _ => ([] : List Nat)).flatten = [] := by simp
  have hall : (m.inflight.reverse ++ m.reqWaiting).Perm (m.inflight ++ m.reqWaiting) :=
    m.inflight.reverse_perm.append_right _
  refine ⟨?_, rfl, hnone, rfl, hkeeps.max⟩
  constructor
  case heads =>
    rw [length_map]
    exact hinv'.heads
  case filed => exact Buckets.filed_of_flatten_eq_nil hnone
  case inflightCount => simp [DnsBase.inflight]
  case waitingCount =>
    rw [length_append, length_reverse]
    simp only [hinv'.waitingCount]
    omega
  case serversNodup => exact nodup_nil
  case serversFresh | load => simp
  case unassigned =>
    exact fun x hx => hreq x ((mem_append.mp (hall.mem_iff.mp hx)).imp_right (hinv'.unassigned x))
  all_goals
    unfold DnsBase.inflight
    rw [hnone]
  case nodup => exact hall.nodup_iff.mpr hinv'.nodup
  case current => exact fun x hx => hall.mem_iff.mpr (hinv'.current x hx)
  case fresh => exact fun x hx => hinv'.fresh x (hall.mem_iff.mp hx)
  case assigned => exact nofun

lemma foldl_insertInflight (l : List Nat) : l.foldl insertInflight a = { a with
    reqHeads := l.foldl (fun L x => L.modify (a.reqHead (a.req x).transId) (· ++ [x])) a.reqHeads } := by
  induction l generalizing a with
  | nil => rfl
  | cons h l ih =>
    have hkey (t : UInt16) : (a.insertInflight h).reqHead t = a.reqHead t :=
      congrArg (t.toNat % ·) (length_modify ..)
    rw [foldl_cons, ih]
    simp only [hkey]
    rfl

lemma setMaxRequestsInflight_eq (a : DnsBase) (m : Int) : ∃ heads,
    a.setMaxRequestsInflight m = { a with
      reqHeads := heads, globalMaxRequestsInflight := if m < 1 then 1 else m } ∧
    0 < heads.length ∧ heads.flatten.Perm a.inflight ∧
    Buckets.Filed heads fun x => (a.req x).transId.toNat % heads.length := by
  unfold setMaxRequestsInflight
  generalize hm' : (if m < 1 then 1 else m) = m'
  dsimp only
  rw [foldl_insertInflight]
  generalize hL : List.replicate ((m' + 4) / 5).toNat ([] : List Nat) = L
  have hnone : L.flatten = [] := by simp [← hL]
  have hpos : 0 < L.length := by
    rw [← hL, length_replicate]
    omega
  have hstart : Buckets.Filed L fun x => (a.req x).transId.toNat % L.length :=
    Buckets.filed_of_flatten_eq_nil hnone
  obtain ⟨heads, heq, hlen, hfiled, hperm⟩ :=
    hstart.addAll perm_append_singleton a.inflight fun _ => Nat.mod_lt _ hpos
  rw [hnone, append_nil] at hperm
  refine ⟨heads, ?_, hlen ▸ hpos, hperm, ?_⟩
  · rw [← heq]
    rfl
  · rw [hlen]
    exact hfiled

lemma setMaxRequestsInflight_inv {m : Int} (hinv : DnsInv a) :
    DnsInv (a.setMaxRequestsInflight m) ∧ (a.setMaxRequestsInflight m).inflight.Perm a.inflight := by
  obtain ⟨heads, heq, hpos, hperm, hfiled⟩ := setMaxRequestsInflight_eq a m
  rw [heq]
  refine ⟨?_, hperm⟩
  have hmem (x : Nat) : x ∈ heads.flatten ↔ x ∈ a.inflight := hperm.mem_iff
  have hall : (heads.flatten ++ a.reqWaiting).Perm (a.inflight ++ a.reqWaiting) := hperm.append_right _
  exact { hinv with
    heads := hpos
    filed := hfiled
    nodup := hall.nodup_iff.mpr hinv.nodup
    current := fun x hx => hall.mem_iff.mpr (hinv.current x hx)
    fresh := fun x hx => hinv.fresh x (hall.mem_iff.mp hx)
    assigned := fun x hx => hinv.assigned x ((hmem x).mp hx)
    inflightCount := hinv.inflightCount.trans (congrArg _ hperm.length_eq.symm)
    load := fun s hs => (hinv.load s hs).trans (congrArg _ (hperm.countP_eq _).symm) }

lemma evdnsBaseNew_inv (config : DnsConfig) : DnsInv (evdnsBaseNew config) := by
  unfold evdnsBaseNew
  obtain ⟨heads, heq, hpos, hperm, hfiled⟩ := setMaxRequestsInflight_eq {
    config := config, world := ⟨[], [], fun _ => true⟩, reqHeads := [], reqWaiting := [], servers := []
    globalGoodNameservers := 0, globalRequestsInflight := 0, globalRequestsWaiting := 0
    globalMaxRequestsInflight := 0, req := fun _ => ⟨0, none, 0, 0, false, false, .a, none⟩
    handle := fun _ => newHandle, ns := fun _ => ⟨false, 0, false, none, false, 0⟩, nextHandle := 0
    nextServer := 0, probeCallbacks := [], suspended := false } 64
  have hnil : heads.flatten = [] := hperm.eq_nil
  rw [heq]
  constructor
  case heads => exact hpos
  case filed => exact hfiled
  case nodup => simp [DnsBase.inflight, hnil]
  case current => simp [newHandle]
  case fresh | assigned => simp [DnsBase.inflight, hnil]
  case inflightCount => simp [DnsBase.inflight, hnil]
  case waitingCount => rfl
  case unassigned | serversFresh | load => simp
  case serversNodup => exact nodup_nil

end Configuration

section Operations

variable {base b : DnsBase} {op : DnsBase.Op}

def ProbeFindsServer (base : DnsBase) : DnsBase.Op → Prop
  | .probeCallback => ∀ p ∈ base.probeCallbacks.head?, p.2 = .none ∨ p.2 = .notExist → p.1 ∈ base.servers
  | _ => True

def SearchStill (base : DnsBase) : DnsBase.Op → Prop
  | .reply _ transId flags reply => ∀ h ∈ base.requestFindFromTransId transId,
      ∀ err ∈ replyError flags reply, FailsSearch base h err → QueueStill base
  | _ => True

def LimitKept (base : DnsBase) : DnsBase.Op → Prop
  | .setMaxRequestsInflight m => base.globalMaxRequestsInflight ≤ max 1 m
  | _ => True

/-- When a search goes on, the requests that are not finished are not exactly as many as may be in
flight; a limit is not raised, and no first nameserver added, while requests wait that could be sent then. -/
def QueueServed (base : DnsBase) : DnsBase.Op → Prop
  | .reply _ transId flags reply => ∀ h ∈ base.requestFindFromTransId transId,
      ∀ err ∈ replyError flags reply, FailsSearch base h err → SlotFree base (cancelledByError base h err)
  | .setMaxRequestsInflight m => base.reqWaiting = [] ∨ max 1 m ≤ base.globalRequestsInflight ∨
      base.servers = [] ∨ base.suspended
  | .nameserverAdd => base.servers = [] → base.reqWaiting = [] ∨ base.suspended
  | _ => True

/-- A base that is not suspended leaves no request waiting that could be sent. -/
def NoStall (base : DnsBase) : Prop := base.suspended = false → QueueSettled base

structure OpKeeps (base : DnsBase) (op : DnsBase.Op) (b : DnsBase) : Prop where
  inv : DnsInv b
  good : ProbeFindsServer base op → GoodCount base → GoodCount b
  unique : SearchStill base op → UniqueIds base → UniqueIds b
  bounded : SearchStill base op → LimitKept base op → Bounded base → Bounded b
  noStall : QueueServed base op → NoStall base → NoStall b
  limit : 1 ≤ base.globalMaxRequestsInflight → 1 ≤ b.globalMaxRequestsInflight

lemma Keeps.opKeeps {up fits served : Prop} (hk : Keeps up fits served base b)
    (hup : ProbeFindsServer base op → up) (hfits : SearchStill base op → fits)
    (hserved : QueueServed base op → served) : OpKeeps base op b where
  inv := hk.inv
  good h := hk.good (hup h)
  unique h := hk.unique (hfits h)
  bounded h _ := hk.bounded (hfits h)
  noStall h hstall hactive := hk.settled (hserved h) (hstall (hk.suspended ▸ hactive))
  limit h := hk.max ▸ h

lemma OpKeeps.of_kept (hk : Kept base b) : OpKeeps base op b :=
  hk.opKeeps (fun _ => trivial) (fun _ => trivial) fun _ => trivial

lemma reply_keeps {s : Nat} {transId flags : UInt16} {reply : Option Bool} (hinv : DnsInv base)
    (hr : base.run (.reply s transId flags reply) = some b) :
    OpKeeps base (.reply s transId flags reply) b := by
  have hsteady := steady_updateNs base s (f := fun ns => { ns with timedout := 0 }) fun _ => ⟨rfl, rfl⟩
  unfold run at hr
  dsimp only at hr
  split at hr
  · cases hr
    exact .of_kept (hsteady.keeps hinv)
  rename_i h hfind
  have hmem : h ∈ base.inflight := by
    unfold requestFindFromTransId at hfind
    exact Buckets.mem_flatten_iff.mpr ⟨_, mem_of_find?_eq_some hfind⟩
  have hns (x : Nat) : ((base.updateNs s fun ns => { ns with timedout := 0 }).ns x).state = (base.ns x).state ∧
      ((base.updateNs s fun ns => { ns with timedout := 0 }).ns x).probeRequest = (base.ns x).probeRequest := by
    by_cases hx : x = s
    · subst hx
      simp [updateNs]
    · simp [updateNs, hx]
  have hcancelled (err : DnsErr) : cancelledByError (base.updateNs s fun ns => { ns with timedout := 0 }) h err =
      cancelledByError base h err := by
    unfold cancelledByError cancelledByReply probePending
    simp only [hns]
    rfl
  refine Keeps.opKeeps (.trans (.of_kept (hsteady.keeps hinv)) (replyHandle_keeps (hsteady.inv hinv) hmem hr))
    (fun _ => trivial) (fun hq err herr hfails => ?_) (fun hq err herr hfails => ?_)
  · exact hq h hfind err herr hfails
  · rw [hcancelled]
    exact hq h hfind err herr hfails

lemma run_keeps (hinv : DnsInv base) (hpossible : base.Possible op) (hr : base.run op = some b) :
    OpKeeps base op b := by
  cases op with
  | resolve type name noSearch => exact .of_kept (resolve_keeps hinv hr)
  | reply s transId flags reply => exact reply_keeps hinv hr
  | readError s =>
    cases hr
    exact .of_kept ((steady_nameserverFailed hpossible hinv).keeps hinv)
  | writeReady s =>
    cases hr
    have hready := steady_updateNs base s (f := fun ns => { ns with choked := false }) fun _ => ⟨rfl, rfl⟩
    exact .of_kept ((hready.trans (steady_evdnsTransmit (hready.inv hinv))).keeps hinv)
  | timeout h => exact .of_kept (evdnsRequestTimeoutCallback_keeps hinv hpossible.1 hr)
  | probeTimer s => exact .of_kept (nameserverSendProbe_keeps hinv hpossible.1 hr)
  | probeCallback =>
    unfold run at hr
    dsimp only at hr
    split at hr
    · rename_i hnone
      exact (hpossible hnone).elim
    · rename_i s result rest hcallbacks
      have hk := nameserverProbeCallback_keeps (a := { base with probeCallbacks := rest })
        { hinv with } hr
      have hk' : Keeps (result = .none ∨ result = .notExist → s ∈ base.servers) True True base b := { hk with }
      refine hk'.opKeeps (fun hfinds => ?_) (fun _ => trivial) fun _ => trivial
      exact hfinds (s, result) (by rw [hcallbacks]; rfl)
  | cancel h => exact .of_kept (evdnsCancelRequest_keeps hinv hr).1
  | nameserverAdd =>
    cases hr
    obtain ⟨hinv', hgood⟩ := nameserverAdd_inv hinv
    refine ⟨hinv', fun _ => hgood, fun _ => id, fun _ _ => id, fun hserved hstall hactive => ?_, id⟩
    obtain hempty | hfull | hnone := hstall hactive
    · exact .inl hempty
    · exact .inr (.inl hfull)
    · obtain hempty | hsuspended := hserved hnone
      · exact .inl hempty
      · exact absurd (hactive.symm.trans hsuspended) Bool.false_ne_true
  | clearNameserversAndSuspend =>
    obtain rfl | ⟨hinv', hgood, hnone, hsuspended, hmax⟩ := clearNameserversAndSuspend_spec hinv hr
    · exact .of_kept ((Steady.refl _).keeps hinv)
    · refine ⟨hinv', fun _ _ => hgood, fun _ _ => ?_, fun _ _ hbound => ?_, fun _ _ hactive => ?_,
        fun hlimit => hmax ▸ hlimit⟩
      · unfold UniqueIds
        rw [hnone]
        exact nodup_nil
      · unfold Bounded lookupsInflight at hbound ⊢
        rw [hnone, countP_nil, hmax]
        omega
      · exact absurd (hactive.symm.trans hsuspended) Bool.false_ne_true
  | resume =>
    obtain ⟨hk, -, hsettled⟩ := pumpLoop_pumps (a := { base with
      suspended := base.suspended && base.servers.isEmpty }) { hinv with } hr
    exact ⟨hk.inv, fun _ => hk.good trivial, fun _ => hk.unique trivial, fun _ _ => hk.bounded trivial,
      fun _ _ _ => hsettled, fun hlimit => hk.max ▸ hlimit⟩
  | setMaxRequestsInflight m =>
    cases hr
    obtain ⟨hinv', hperm⟩ := setMaxRequestsInflight_inv (m := m) hinv
    obtain ⟨heads, heq, -⟩ := setMaxRequestsInflight_eq base m
    have hmax : (if m < 1 then 1 else m) = max 1 m := by
      split <;> omega
    rw [heq] at hinv' hperm ⊢
    refine ⟨hinv', fun _ => id, fun _ hids => ?_, fun _ hlimit hbound => ?_, fun hserved hstall hactive => ?_,
      fun _ => by dsimp only; omega⟩
    · exact (hperm.map _).nodup_iff.mpr hids
    · have hcount := hperm.countP_eq fun h => (base.req h).probeOf.isNone
      have hlimit' : base.globalMaxRequestsInflight ≤ max 1 m := hlimit
      unfold Bounded lookupsInflight at hbound ⊢
      rw [hcount]
      dsimp only
      omega
    · unfold QueueSettled
      rw [hmax]
      obtain hempty | hfull | hnone | hsuspended := hserved
      · exact .inl hempty
      · exact .inr (.inl hfull)
      · exact .inr (.inr hnone)
      · exact absurd (hactive.symm.trans hsuspended) Bool.false_ne_true

end Operations

section Runs

variable {config : DnsConfig} {Cond : DnsBase → DnsBase.Op → Prop} {base : DnsBase}

lemma step_keeps {e : DnsWorld × DnsBase.Op} {b : DnsBase} (hinv : DnsInv base)
    (hpossible : base.Possible e.2) (hs : base.step e = some b) : OpKeeps base e.2 b := by
  have hinv' : DnsInv { base with world := e.1 } := { hinv with }
  have hk := run_keeps hinv' hpossible hs
  exact ⟨hk.inv, hk.good, hk.unique, hk.bounded, hk.noStall, hk.limit⟩

lemma reached_keeps {P : DnsBase → Prop} (hr : DnsBase.Reached config Cond base)
    (hstart : P (evdnsBaseNew config))
    (hstep : ∀ base op b, OpKeeps base op b → Cond base op → P base → P b) : DnsInv base ∧ P base := by
  refine hr.invariant (P := fun base => DnsInv base ∧ P base) ⟨evdnsBaseNew_inv config, hstart⟩ ?_
  intro base e b hinv hcond hs
  have hk := step_keeps hinv.1 hcond.1 hs
  exact ⟨hk.inv, hstep base e.2 b hk hcond.2 hinv.2⟩

lemma evdnsBaseNew_empty (config : DnsConfig) : (evdnsBaseNew config).inflight = [] ∧
    (evdnsBaseNew config).globalMaxRequestsInflight = 64 := by
  refine ⟨?_, rfl⟩
  have hcount := (evdnsBaseNew_inv config).inflightCount
  have hzero : (evdnsBaseNew config).globalRequestsInflight = 0 := rfl
  rw [hzero] at hcount
  exact length_eq_zero_iff.mp (by omega)

end Runs

section Given

variable (base : DnsBase) (op : DnsBase.Op)

instance : Decidable (base.Possible op) := by
  cases op <;> unfold Possible <;> infer_instance

instance : Decidable (ProbeFindsServer base op) := by
  cases op <;> unfold ProbeFindsServer <;> infer_instance

instance (h : Nat) (err : DnsErr) : Decidable (FailsSearch base h err) :=
  inferInstanceAs (Decidable (_ ∧ _ ∧ ∃ state ∈ (base.handle h).searchState, _))

instance : Decidable (QueueStill base) := inferInstanceAs (Decidable (_ ∨ _))

instance (n : Int) : Decidable (SlotFree base n) := inferInstanceAs (Decidable (_ ≠ _))

instance : Decidable (SearchStill base op) := by
  cases op <;> unfold SearchStill <;> infer_instance

instance : Decidable (LimitKept base op) := by
  cases op <;> unfold LimitKept <;> infer_instance

instance : Decidable (QueueServed base op) := by
  cases op <;> unfold QueueServed <;> infer_instance

abbrev DnsRun (config : DnsConfig) (Cond : DnsBase → DnsBase.Op → Prop)
    [∀ base op, Decidable (Cond base op)] (p : DnsBase → Bool) :=
  Runs.Given step (fun base (e : DnsWorld × DnsBase.Op) => base.Possible e.2 ∧ Cond base e.2)
    (evdnsBaseNew config) p

def searchConfig : DnsConfig where
  globalMaxReissues := 1
  globalMaxRetransmits := 3
  globalMaxNameserverTimeout := 3
  disableWhenInactive := false
  globalSearchState := some ⟨[bytes "example.com"], 1⟩

def ids (rng : List UInt16) : DnsWorld := ⟨rng, [], fun _ => true⟩

def probeRun : DnsRun searchConfig ProbeFindsServer (fun base => base.globalGoodNameservers == 1 &&
    base.globalRequestsInflight == 2) where
  events := [(ids [], .nameserverAdd), (ids [1], .resolve .a (bytes "www") false),
    (ids [2], .resolve .a (bytes "ftp") false), (ids [], .readError 0), (ids [3, 4], .probeTimer 0),
    (ids [], .reply 0 4 0x8180 (some true)), (ids [], .probeCallback)]
  leads := by decide +kernel

def freedServerRun : DnsRun searchConfig (fun _ _ => True) (fun base => base.globalGoodNameservers == 1 &&
    base.servers.isEmpty) where
  events := [(ids [], .nameserverAdd), (ids [], .readError 0), (ids [3, 4], .probeTimer 0),
    (ids [], .reply 0 4 0x8180 (some true)), (ids [], .readError 0), (ids [], .clearNameserversAndSuspend),
    (ids [], .probeCallback)]
  leads := by decide +kernel

def searchRun : DnsRun searchConfig (fun base op => SearchStill base op ∧ LimitKept base op)
    (fun base => base.globalRequestsInflight == 2) where
  events := [(ids [], .nameserverAdd), (ids [1], .resolve .a (bytes "www") false),
    (ids [2], .resolve .a (bytes "ftp") false), (ids [2, 1, 5], .reply 0 1 0x8183 none)]
  leads := by decide +kernel

/-- Two lookups wait when the limit is raised to two. Then the search of the lookup in flight goes on: the
waiting ones get the id of its new request and go in flight before it. -/
def sameIdRun : DnsRun searchConfig (fun _ _ => True) (fun base =>
    (base.inflight.map fun h => (base.req h).transId) == [7, 8, 7] && base.globalMaxRequestsInflight == 2) where
  events := [(ids [], .nameserverAdd), (ids [], .setMaxRequestsInflight 1),
    (ids [1], .resolve .a (bytes "www") false), (ids [], .resolve .a (bytes "ftp") false),
    (ids [], .resolve .a (bytes "git") false), (ids [], .setMaxRequestsInflight 2),
    (ids [7, 7, 8], .reply 0 1 0x8183 none)]
  leads := by decide +kernel

def queueRun : DnsRun searchConfig QueueServed (fun base => base.reqWaiting == [1] && base.servers == [0] &&
    !base.suspended) where
  events := [(ids [], .nameserverAdd), (ids [], .setMaxRequestsInflight 1),
    (ids [1], .resolve .a (bytes "www") false), (ids [], .resolve .a (bytes "ftp") false)]
  leads := by decide +kernel

def stalledRun : DnsRun searchConfig (fun _ _ => True) (fun base => base.reqWaiting == [0] &&
    base.globalRequestsInflight == 0 && base.servers == [0] && !base.suspended &&
    base.globalMaxRequestsInflight == 1) where
  events := [(ids [], .nameserverAdd), (ids [], .setMaxRequestsInflight 1),
    (ids [1], .resolve .a (bytes "www") false), (ids [], .reply 0 1 0x8183 none)]
  leads := by decide +kernel

end Given

section Results

variable {config : DnsConfig} {base : DnsBase}

/-- The lists and counters of a base agree, as long as the callback of a probe that went well does not
come after its nameserver has been freed. -/
theorem reached_counters (hr : DnsBase.Reached config ProbeFindsServer base) :
    (∀ i h, h ∈ base.reqHeads.getD i [] → (base.req h).transId.toNat % base.reqHeads.length = i) ∧
    (base.inflight ++ base.reqWaiting).Nodup ∧
    (∀ h ∈ base.reqWaiting, (base.req h).ns = none) ∧
    base.globalRequestsInflight = base.inflight.length ∧
    base.globalRequestsWaiting = base.reqWaiting.length ∧
    (∀ s ∈ base.servers, (base.ns s).requestsInflight = base.inflight.countP fun h => (base.req h).ns = some s) ∧
    base.globalGoodNameservers = base.servers.countP fun s => (base.ns s).state := by
  obtain ⟨hinv, hgood⟩ := reached_keeps (P := GoodCount) hr rfl fun _ _ _ hk => hk.good
  exact ⟨hinv.filed, hinv.nodup, hinv.unassigned, hinv.inflightCount, hinv.waitingCount, hinv.load, hgood⟩

theorem reached_counters_probe : ∃ base, DnsBase.Reached searchConfig ProbeFindsServer base ∧
    base.inflight.length = 2 ∧ (base.servers.countP fun s => (base.ns s).state) = 1 := by
  obtain ⟨base, hr, hp⟩ := probeRun.reached
  obtain ⟨-, -, -, hinflight, -, -, hgood⟩ := reached_counters hr
  simp only [Bool.and_eq_true, beq_iff_eq] at hp
  exact ⟨base, hr, by omega, by omega⟩

/-- The callback of a probe counts a nameserver that is not there any more. -/
theorem freed_server_counted : ∃ base, DnsBase.Reached searchConfig (fun _ _ => True) base ∧
    base.servers = [] ∧
    base.globalGoodNameservers ≠ base.servers.countP fun s => (base.ns s).state := by
  obtain ⟨base, hr, hp⟩ := freedServerRun.reached
  simp only [Bool.and_eq_true, beq_iff_eq, List.isEmpty_iff] at hp
  refine ⟨base, hr, hp.2, ?_⟩
  rw [hp.1, hp.2, countP_nil]
  decide

/-- Ids are unique, and the limit of lookups in flight is kept, as long as no search goes on while
requests wait that could be sent. -/
theorem reached_ids_unique (config : DnsConfig) :
    (∀ base, DnsBase.Reached config SearchStill base → (base.inflight.map fun h => (base.req h).transId).Nodup) ∧
    ∀ base, DnsBase.Reached config (fun base op => SearchStill base op ∧ LimitKept base op) base →
      ((base.inflight.countP fun h => (base.req h).probeOf.isNone : Nat) : Int) ≤
        base.globalMaxRequestsInflight := by
  obtain ⟨hempty, hmax⟩ := evdnsBaseNew_empty config
  constructor
  · intro base hr
    have hstart : UniqueIds (evdnsBaseNew config) := by
      unfold UniqueIds
      rw [hempty]
      exact nodup_nil
    exact (reached_keeps hr hstart fun _ _ _ hk => hk.unique).2
  · intro base hr
    have hstart : Bounded (evdnsBaseNew config) := by
      unfold Bounded lookupsInflight
      rw [hempty, hmax, countP_nil]
      decide
    exact (reached_keeps (P := Bounded) hr hstart fun _ _ _ hk hcond => hk.bounded hcond.1 hcond.2).2

theorem reached_ids_unique_search : ∃ base,
    DnsBase.Reached searchConfig (fun base op => SearchStill base op ∧ LimitKept base op) base ∧
    base.globalRequestsInflight = 2 ∧ (base.inflight.map fun h => (base.req h).transId).Nodup ∧
    ((base.inflight.countP fun h => (base.req h).probeOf.isNone : Nat) : Int) ≤ base.globalMaxRequestsInflight := by
  obtain ⟨base, hr, hp⟩ := searchRun.reached
  obtain ⟨hunique, hbounded⟩ := reached_ids_unique searchConfig
  refine ⟨base, hr, by simpa using hp, hunique base ?_, hbounded base hr⟩
  exact hr.mono fun _ _ hcond => ⟨hcond.1, hcond.2.1⟩

/-- Two requests in flight with the same id, and three when two may be in flight. -/
theorem search_same_id : ∃ base, DnsBase.Reached searchConfig (fun _ _ => True) base ∧
    ¬ (base.inflight.map fun h => (base.req h).transId).Nodup ∧
    base.globalMaxRequestsInflight < base.inflight.length := by
  obtain ⟨base, hr, hp⟩ := sameIdRun.reached
  simp only [Bool.and_eq_true, beq_iff_eq] at hp
  obtain ⟨hids, hmax⟩ := hp
  have hlength := congrArg List.length hids
  rw [length_map] at hlength
  refine ⟨base, hr, ?_, ?_⟩
  · rw [hids]
    decide
  · rw [hmax, hlength]
    decide

/-- A request waits only while as many are in flight as may be. -/
theorem reached_no_stall (hr : DnsBase.Reached config QueueServed base) (hservers : base.servers ≠ [])
    (hactive : base.suspended = false) (hwaiting : base.reqWaiting ≠ []) :
    base.globalMaxRequestsInflight ≤ base.inflight.length ∧ base.inflight ≠ [] := by
  obtain ⟨-, hmax⟩ := evdnsBaseNew_empty config
  have hstart : NoStall (evdnsBaseNew config) ∧ 1 ≤ (evdnsBaseNew config).globalMaxRequestsInflight :=
    ⟨fun _ => .inr (.inr rfl), by rw [hmax]; decide⟩
  obtain ⟨hinv, hstall, hlimit⟩ := reached_keeps
    (P := fun base => NoStall base ∧ 1 ≤ base.globalMaxRequestsInflight) hr hstart
    fun _ _ _ hk hcond hP => ⟨hk.noStall hcond hP.1, hk.limit hP.2⟩
  have hfull := ((hstall hactive).resolve_left hwaiting).resolve_right hservers
  rw [hinv.inflightCount] at hfull
  refine ⟨hfull, ?_⟩
  rintro hnil
  rw [hnil, length_nil] at hfull
  omega

theorem reached_no_stall_queue : ∃ base, DnsBase.Reached searchConfig QueueServed base ∧
    base.reqWaiting = [1] ∧ base.globalMaxRequestsInflight ≤ base.inflight.length ∧ base.inflight ≠ [] := by
  obtain ⟨base, hr, hp⟩ := queueRun.reached
  simp only [Bool.and_eq_true, beq_iff_eq, Bool.not_eq_true'] at hp
  obtain ⟨⟨hwaiting, hservers⟩, hactive⟩ := hp
  exact ⟨base, hr, hwaiting, reached_no_stall hr (by simp [hservers]) hactive (by simp [hwaiting])⟩

/-- A request waits with nothing in flight. -/
theorem search_stalls : ∃ base, DnsBase.Reached searchConfig (fun _ _ => True) base ∧
    base.servers ≠ [] ∧ base.suspended = false ∧ base.reqWaiting ≠ [] ∧
    base.globalRequestsInflight < base.globalMaxRequestsInflight ∧ base.globalRequestsInflight = 0 := by
  obtain ⟨base, hr, hp⟩ := stalledRun.reached
  simp only [Bool.and_eq_true, beq_iff_eq, Bool.not_eq_true'] at hp
  obtain ⟨⟨⟨⟨hwaiting, hinflight⟩, hservers⟩, hactive⟩, hmax⟩ := hp
  exact ⟨base, hr, by simp [hservers], hactive, by simp [hwaiting], by omega, hinflight⟩

end Results

end MyLibevent.Proofs
