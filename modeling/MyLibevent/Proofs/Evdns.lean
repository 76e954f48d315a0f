import MyLibevent.Evdns
import MyLibevent.Lib.Buckets

/-!
# Lists and counters of a resolver

The invariant of `struct evdns_base`, and what the functions that send requests, assign them to
nameservers and move them between the lists do to it.
-/

namespace MyLibevent.Proofs

open DnsBase List Function

section Invariant

/-- Each request is in one list, filed by its id if it is in flight; the counters are the lengths of
the lists, and those of the nameservers count the requests that are assigned to them. -/
structure DnsInv (base : DnsBase) : Prop where
  heads : 0 < base.reqHeads.length
  filed : Buckets.Filed base.reqHeads fun h => base.reqHead (base.req h).transId
  nodup : (base.inflight ++ base.reqWaiting).Nodup
  current : ∀ h, (base.handle h).currentReq → h ∈ base.inflight ++ base.reqWaiting
  fresh : ∀ h ∈ base.inflight ++ base.reqWaiting, h < base.nextHandle
  assigned : ∀ h ∈ base.inflight, ∃ s ∈ base.servers, (base.req h).ns = some s
  unassigned : ∀ h ∈ base.reqWaiting, (base.req h).ns = none
  inflightCount : base.globalRequestsInflight = base.inflight.length
  waitingCount : base.globalRequestsWaiting = base.reqWaiting.length
  serversNodup : base.servers.Nodup
  serversFresh : ∀ s ∈ base.servers, s < base.nextServer
  load : ∀ s ∈ base.servers, (base.ns s).requestsInflight = base.inflight.countP fun h => (base.req h).ns = some s

variable {base : DnsBase} {x s : Nat}

lemma DnsInv.inflight_nodup (h : DnsInv base) : base.inflight.Nodup :=
  (nodup_append.mp h.nodup).1

lemma DnsInv.not_waiting (h : DnsInv base) (hx : x ∈ base.inflight) :
    x ∉ base.reqWaiting := fun hx' => (nodup_append.mp h.nodup).2.2 x hx x hx' rfl

lemma DnsInv.server_mem (h : DnsInv base) (hx : x ∈ base.inflight) (hns : (base.req x).ns = some s) :
    s ∈ base.servers := by
  obtain ⟨s', hs', hns'⟩ := h.assigned x hx
  rw [hns] at hns'
  exact Option.some.inj hns' ▸ hs'

def GoodCount (base : DnsBase) : Prop :=
  base.globalGoodNameservers = base.servers.countP fun s => (base.ns s).state

def UniqueIds (base : DnsBase) : Prop := (base.inflight.map fun h => (base.req h).transId).Nodup

def lookupsInflight (base : DnsBase) : Nat := base.inflight.countP fun h => (base.req h).probeOf.isNone

/-- Lookups in flight, as opposed to probes, are not more than may be. -/
def Bounded (base : DnsBase) : Prop := (lookupsInflight base : Int) ≤ base.globalMaxRequestsInflight

structure SameRequest (r r' : PendingRequest) : Prop where
  transId : r.transId = r'.transId
  ns : r.ns = r'.ns
  probeOf : r.probeOf = r'.probeOf
  requestType : r.requestType = r'.requestType

structure SameServer (n n' : Nameserver) : Prop where
  load : n.requestsInflight = n'.requestsInflight
  state : n.state = n'.state

/-- All requests stay in their lists. -/
structure Steady (a b : DnsBase) : Prop where
  same : b = { a with
    world := b.world
    servers := b.servers
    req := b.req
    ns := b.ns
    globalGoodNameservers := b.globalGoodNameservers }
  servers : b.servers.Perm a.servers
  transId : ∀ h, (b.req h).transId = (a.req h).transId
  probeOf : ∀ h, (b.req h).probeOf = (a.req h).probeOf
  requestType : ∀ h, (b.req h).requestType = (a.req h).requestType
  inv : DnsInv a → DnsInv b
  good : DnsInv a → GoodCount a → GoodCount b
  down : ∀ s, (a.ns s).state = false → (b.ns s).state = false

variable {a b c : DnsBase}

lemma Steady.refl (a : DnsBase) : Steady a a :=
  ⟨rfl, .refl _, fun _ => rfl, fun _ => rfl, fun _ => rfl, id, fun _ => id, fun _ => id⟩

section

variable (h : Steady a b)
include h

lemma Steady.trans (h' : Steady b c) : Steady a c where
  same := h'.same.trans (by rw [h.same])
  servers := h'.servers.trans h.servers
  transId x := (h'.transId x).trans (h.transId x)
  probeOf x := (h'.probeOf x).trans (h.probeOf x)
  requestType x := (h'.requestType x).trans (h.requestType x)
  inv hinv := h'.inv (h.inv hinv)
  good hinv hgood := h'.good (h.inv hinv) (h.good hinv hgood)
  down s hs := h'.down s (h.down s hs)

lemma Steady.inflight : b.inflight = a.inflight := by
  rw [h.same]
  rfl

lemma Steady.uniqueIds (hids : UniqueIds a) : UniqueIds b := by
  unfold UniqueIds at hids ⊢
  simpa only [h.inflight, h.transId] using hids

lemma Steady.bounded (hbound : Bounded a) : Bounded b := by
  unfold Bounded lookupsInflight at hbound ⊢
  simp only [h.inflight, h.probeOf]
  rw [h.same]
  exact hbound

end

lemma steady_foldl {f : DnsBase → Nat → DnsBase} (l : List Nat)
    (hstep : ∀ b, ∀ x ∈ l, DnsInv b → b.inflight = a.inflight → Steady b (f b x)) (hinv : DnsInv a) :
    Steady a (l.foldl f a) := by
  suffices hgen : ∀ (l' : List Nat) (b : DnsBase), (∀ x ∈ l', x ∈ l) → DnsInv b →
      b.inflight = a.inflight → Steady b (l'.foldl f b) from hgen l a (fun _ hx => hx) hinv rfl
  intro l'
  induction l' with
  | nil =>
    intro b _ _ _
    exact .refl b
  | cons x l' ih =>
    intro b hmem hinv' hsame
    have hx := hstep b x (hmem x mem_cons_self) hinv' hsame
    refine hx.trans (ih (f b x) (fun y hy => hmem y (mem_cons_of_mem x hy)) (hx.inv hinv') ?_)
    rw [hx.inflight, hsame]

end Invariant

section Sending

variable {base : DnsBase} {h s : Nat}

lemma steady_adjust {world : DnsWorld} {servers : List Nat} {req : Nat → PendingRequest}
    {ns : Nat → Nameserver} (hservers : servers.Perm base.servers)
    (hreq : ∀ h, SameRequest (req h) (base.req h)) (hns : ∀ s, SameServer (ns s) (base.ns s)) :
    Steady base { base with world := world, servers := servers, req := req, ns := ns } where
  same := rfl
  servers := hservers
  transId h := (hreq h).transId
  probeOf h := (hreq h).probeOf
  requestType h := (hreq h).requestType
  inv hinv := { hinv with
    filed := fun i x hx => (congrArg base.reqHead (hreq x).transId).trans (hinv.filed i x hx)
    assigned := by
      intro x hx
      obtain ⟨s, hs, hxs⟩ := hinv.assigned x hx
      exact ⟨s, hservers.mem_iff.mpr hs, (hreq x).ns.trans hxs⟩
    unassigned := fun x hx => (hreq x).ns.trans (hinv.unassigned x hx)
    serversNodup := hservers.nodup_iff.mpr hinv.serversNodup
    serversFresh := fun s hs => hinv.serversFresh s (hservers.mem_iff.mp hs)
    load := by
      intro s hs
      simp only [fun x => (hreq x).ns]
      exact (hns s).load.trans (hinv.load s (hservers.mem_iff.mp hs)) }
  good _ hgood := by
    unfold GoodCount at hgood ⊢
    simp only [fun x => (hns x).state, hservers.countP_eq]
    exact hgood
  down s hs := (hns s).state.trans hs

lemma steady_updateReq (base : DnsBase) (h : Nat) {f : PendingRequest → PendingRequest}
    (hf : ∀ r, SameRequest (f r) r) : Steady base (base.updateReq h f) :=
  steady_adjust (.refl _) ((forall_update_iff base.req fun x r => SameRequest r (base.req x)).mpr
    ⟨hf _, fun _ _ => ⟨rfl, rfl, rfl, rfl⟩⟩) fun _ => ⟨rfl, rfl⟩

lemma steady_updateNs (base : DnsBase) (s : Nat) {f : Nameserver → Nameserver}
    (hf : ∀ n, SameServer (f n) n) : Steady base (base.updateNs s f) :=
  steady_adjust (.refl _) (fun _ => ⟨rfl, rfl, rfl, rfl⟩)
    ((forall_update_iff base.ns fun x n => SameServer n (base.ns x)).mpr ⟨hf _, fun _ _ => ⟨rfl, rfl⟩⟩)

lemma steady_rotate {servers : List Nat} (hperm : servers.Perm base.servers) (world : DnsWorld) :
    Steady base { base with servers := servers, world := world } :=
  steady_adjust hperm (fun _ => ⟨rfl, rfl, rfl, rfl⟩) fun _ => ⟨rfl, rfl⟩

lemma nameserverPick_cases (base : DnsBase) :
    (base.servers = [] ∧ base.nameserverPick = (none, base)) ∨
      ∃ s servers, base.nameserverPick = (some s, { base with servers := servers }) ∧
        servers.Perm base.servers ∧ s ∈ base.servers := by
  unfold nameserverPick
  cases hservers : base.servers with
  | nil => exact .inl ⟨rfl, rfl⟩
  | cons s rest =>
    right
    have hrotate : (rest ++ [s]).Perm (s :: rest) := perm_append_singleton s rest
    dsimp only
    split
    · cases hrest : rest ++ [s] with
      | nil => simp at hrest
      | cons next l =>
        rw [hrest] at hrotate
        exact ⟨next, next :: l, rfl, hrotate, hrotate.mem_iff.mp mem_cons_self⟩
    · have hsplit := takeWhile_append_dropWhile (p := fun s => !(base.ns s).state) (l := s :: rest)
      split
      · rename_i picked after hdrop
        rw [hdrop] at hsplit
        refine ⟨picked, _, rfl, ?_, ?_⟩
        · nth_rewrite 2 [← hsplit]
          exact (perm_append_singleton picked _).trans ((perm_append_comm.cons picked).trans perm_middle.symm)
        · rw [← hsplit]
          exact mem_append_right _ mem_cons_self
      · exact ⟨s, rest ++ [s], rfl, hrotate, mem_cons_self⟩

def loaded (ns : Nat → Nameserver) (s : Nat) (d : Int) : Nat → Nameserver :=
  update ns s { ns s with requestsInflight := (ns s).requestsInflight + d }

lemma loaded_apply (ns : Nat → Nameserver) (s x : Nat) (d : Int) :
    (loaded ns s d x).requestsInflight = (ns x).requestsInflight + (if some s = some x then d else 0) ∧
      (loaded ns s d x).state = (ns x).state := by
  unfold loaded
  by_cases hx : x = s
  · subst hx
    simp
  · simp [hx, Ne.symm hx]

lemma steady_requestSwapNs {ns : Option Nat} (hinflight : h ∈ base.inflight)
    (hns : ∀ s ∈ ns, s ∈ base.servers) (hinv : DnsInv base) : Steady base (base.requestSwapNs h ns) := by
  obtain ⟨old, hold, hreq⟩ := hinv.assigned h hinflight
  cases ns with
  | none => exact .refl base
  | some new =>
    simp only [requestSwapNs, hreq]
    split
    · exact .refl base
    have hother (p : Nat → PendingRequest → Prop) (hp : p h { base.req h with ns := some new })
        (hp' : ∀ x, x ≠ h → p x (base.req x)) :
        ∀ x, p x (update base.req h { base.req h with ns := some new } x) :=
      (forall_update_iff base.req p).mpr ⟨hp, hp'⟩
    have hid := hother (fun x r => r.transId = (base.req x).transId) rfl fun _ _ => rfl
    have hstate (x : Nat) : (loaded (loaded base.ns old (-1)) new 1 x).state = (base.ns x).state := by
      rw [(loaded_apply ..).2, (loaded_apply ..).2]
    have hload (s : Nat) (hs : s ∈ base.servers) :
        (loaded (loaded base.ns old (-1)) new 1 s).requestsInflight = base.inflight.countP fun x =>
          (update base.req h { base.req h with ns := some new } x).ns = some s := by
      have hcount := Buckets.countP_update hinv.inflight_nodup hinflight (fun x => (base.req x).ns) (some new)
        (some s)
      have hupdate : update (fun x => (base.req x).ns) h (some new) =
          fun x => (update base.req h { base.req h with ns := some new } x).ns :=
        funext fun x => (apply_update (fun _ r => PendingRequest.ns r) base.req h
          { base.req h with ns := some new } x).symm
      rw [hupdate] at hcount
      beta_reduce at hcount
      rw [hreq] at hcount
      rw [(loaded_apply ..).1, (loaded_apply ..).1, hinv.load s hs]
      split_ifs at hcount ⊢ <;> omega
    refine ⟨rfl, .refl _, hid, hother (fun x r => r.probeOf = (base.req x).probeOf) rfl fun _ _ => rfl,
      hother (fun x r => r.requestType = (base.req x).requestType) rfl fun _ _ => rfl, fun _ => ?_,
      fun _ hgood => ?_, fun x hx => (hstate x).trans hx⟩
    · exact { hinv with
        filed := fun i x hx => (congrArg base.reqHead (hid x)).trans (hinv.filed i x hx)
        assigned := hother (fun x r => x ∈ base.inflight → ∃ s ∈ base.servers, r.ns = some s)
          (fun _ => ⟨new, hns new rfl, rfl⟩) fun x _ => hinv.assigned x
        unassigned := hother (fun x r => x ∈ base.reqWaiting → r.ns = none)
          (fun hx => absurd hx (hinv.not_waiting hinflight)) fun x _ => hinv.unassigned x
        load := hload }
    · exact hgood.trans (congrArg _ (countP_congr fun x _ => by rw [← hstate x]; rfl))

lemma steady_pick_swap (hinflight : h ∈ base.inflight) (hinv : DnsInv base) :
    Steady base (base.nameserverPick.2.requestSwapNs h base.nameserverPick.1) := by
  obtain ⟨hnone, hpick⟩ | ⟨s, servers, hpick, hperm, hs⟩ := nameserverPick_cases base
  · rw [hpick]
    exact .refl base
  · rw [hpick]
    have hrotate := steady_rotate hperm base.world
    refine hrotate.trans (steady_requestSwapNs hinflight ?_ (hrotate.inv hinv))
    intro s' hs'
    cases hs'
    exact hperm.mem_iff.mpr hs

lemma steady_reassign (hinflight : h ∈ base.inflight) (hinv : DnsInv base) : Steady base (reassign s base h) := by
  unfold reassign
  split
  · exact steady_pick_swap hinflight hinv
  · exact .refl base

lemma goodCount_state (base : DnsBase) {good : Int} {n : Nameserver} (hinv : DnsInv base) (hs : s ∈ base.servers)
    (hgood : GoodCount base)
    (hcount : good + (if (base.ns s).state then 1 else 0) = base.globalGoodNameservers + if n.state then 1 else 0) :
    GoodCount { base with globalGoodNameservers := good, ns := update base.ns s n } := by
  have hupdate := apply_update (fun _ n => Nameserver.state n) base.ns s n
  have hcount' := Buckets.countP_update hinv.serversNodup hs (fun x => (base.ns x).state) n.state true
  simp only [Bool.decide_eq_true] at hcount'
  unfold GoodCount at hgood ⊢
  simp only [hupdate]
  split_ifs at hcount hcount' <;> omega

lemma steady_nameserverFailed (hs : s ∈ base.servers) (hinv : DnsInv base) :
    Steady base (base.nameserverFailed s) := by
  unfold nameserverFailed
  split
  · exact .refl base
  rename_i hup
  have hdown : Steady base ({ base with
      globalGoodNameservers := base.globalGoodNameservers - 1 }.updateNs s fun ns =>
      { ns with state := false, probeTimer := true }) := by
    refine ⟨rfl, .refl _, fun _ => rfl, fun _ => rfl, fun _ => rfl, fun hinv => { hinv with load := ?_ },
      fun hinv hgood => goodCount_state base hinv hs hgood ?_, ?_⟩
    · exact (forall_update_iff base.ns fun x n => x ∈ base.servers → n.requestsInflight = _).mpr
        ⟨hinv.load s, fun x _ => hinv.load x⟩
    · rw [if_pos (Bool.not_eq_false _ ▸ hup)]
      simp
    · exact (forall_update_iff base.ns fun x n => (base.ns x).state = false → n.state = false).mpr
        ⟨fun _ => rfl, fun _ _ => id⟩
  dsimp only
  split
  · exact hdown
  · exact hdown.trans (steady_foldl _ (fun b x hx hinv' hsame => steady_reassign (hsame ▸ hx) hinv')
      (hdown.inv hinv))

lemma steady_evdnsRequestTransmit (hinflight : h ∈ base.inflight) (hinv : DnsInv base) :
    Steady base (base.evdnsRequestTransmit h) := by
  have hmark : Steady base (base.updateReq h fun req => { req with transmitMe := true }) :=
    steady_updateReq base h fun _ => ⟨rfl, rfl, rfl, rfl⟩
  have hsent (b : DnsBase) : Steady b (b.updateReq h fun req =>
      { req with timer := true, txCount := req.txCount + 1, transmitMe := false }) :=
    steady_updateReq b h fun _ => ⟨rfl, rfl, rfl, rfl⟩
  unfold evdnsRequestTransmit
  dsimp only
  generalize base.updateReq h (fun req => { req with transmitMe := true }) = marked at hmark ⊢
  split
  · exact hmark
  rename_i s hs
  split
  · exact hmark
  have hnext : Steady marked marked.nextSend.2 := by
    unfold nextSend
    split
    · exact .refl marked
    · exact steady_rotate (.refl _) _
  have hserver : s ∈ marked.nextSend.2.servers := by
    exact hnext.servers.mem_iff.mpr ((hmark.inv hinv).server_mem (hmark.inflight ▸ hinflight) hs)
  have hnext' := hmark.trans hnext
  split
  · exact hnext'.trans (steady_updateNs _ s fun _ => ⟨rfl, rfl⟩)
  · exact (hnext'.trans (steady_nameserverFailed hserver (hnext'.inv hinv))).trans (hsent _)
  · exact hnext'.trans (hsent _)

lemma steady_evdnsTransmit (hinv : DnsInv base) : Steady base base.evdnsTransmit := by
  apply steady_foldl _ _ hinv
  intro b x hx hinv' hsame
  split
  · exact steady_evdnsRequestTransmit (hsame ▸ hx) hinv'
  · exact .refl b

end Sending

section Keeping

def QueueSettled (base : DnsBase) : Prop :=
  base.reqWaiting = [] ∨ base.globalMaxRequestsInflight ≤ base.globalRequestsInflight ∨ base.servers = []

/-- What an operation keeps, and under which conditions it keeps the count of good nameservers, the
ids and the limit, and a queue in which nothing waits that could be sent. -/
structure Keeps (up fits served : Prop) (a b : DnsBase) : Prop where
  inv : DnsInv b
  good : up → GoodCount a → GoodCount b
  unique : fits → UniqueIds a → UniqueIds b
  bounded : fits → Bounded a → Bounded b
  settled : served → QueueSettled a → QueueSettled b
  servers : b.servers.Perm a.servers
  max : b.globalMaxRequestsInflight = a.globalMaxRequestsInflight
  suspended : b.suspended = a.suspended

abbrev Kept : DnsBase → DnsBase → Prop := Keeps True True True

/-- What is left of the requests when one of them is gone, or none. -/
structure Spares (gone : Option Nat) (a b : DnsBase) : Prop where
  perm : (gone.toList ++ (b.inflight ++ b.reqWaiting)).Perm (a.inflight ++ a.reqWaiting)
  inflight : ∀ x ∈ a.inflight, gone ≠ some x → x ∈ b.inflight
  handle : ∀ x, gone ≠ some x → b.handle x = a.handle x
  nextHandle : b.nextHandle = a.nextHandle
  requestType : ∀ x, (b.req x).requestType = (a.req x).requestType
  down : ∀ s, (a.ns s).state = false → (b.ns s).state = false

variable {up fits served up' fits' served' : Prop} {a b c : DnsBase} {gone : Option Nat} {h : Nat}

lemma Keeps.trans (h1 : Keeps up fits served a b) (h2 : Keeps up fits served b c) : Keeps up fits served a c where
  inv := h2.inv
  good hup hgood := h2.good hup (h1.good hup hgood)
  unique hfits hids := h2.unique hfits (h1.unique hfits hids)
  bounded hfits hbound := h2.bounded hfits (h1.bounded hfits hbound)
  settled hserved hsettled := h2.settled hserved (h1.settled hserved hsettled)
  servers := h2.servers.trans h1.servers
  max := h2.max.trans h1.max
  suspended := h2.suspended.trans h1.suspended

lemma Keeps.mono (hk : Keeps up fits served a b) (hup : up' → up) (hfits : fits' → fits)
    (hserved : served' → served) : Keeps up' fits' served' a b :=
  { hk with
    good := fun h => hk.good (hup h)
    unique := fun h => hk.unique (hfits h)
    bounded := fun h => hk.bounded (hfits h)
    settled := fun h => hk.settled (hserved h) }

lemma Keeps.of_kept (hk : Kept a b) : Keeps up fits served a b :=
  hk.mono (fun _ => trivial) (fun _ => trivial) fun _ => trivial

lemma Spares.trans (h1 : Spares gone a b) (h2 : Spares none b c) : Spares gone a c where
  perm := (h2.perm.append_left _).trans h1.perm
  inflight x hx hgone := h2.inflight x (h1.inflight x hx hgone) nofun
  handle x hgone := (h2.handle x nofun).trans (h1.handle x hgone)
  nextHandle := h2.nextHandle.trans h1.nextHandle
  requestType x := (h2.requestType x).trans (h1.requestType x)
  down s hs := h2.down s (h1.down s hs)

lemma Spares.pending (hs : Spares gone a b) (hinv : DnsInv a) (hinv' : DnsInv b) :
    b.globalRequestsInflight + b.globalRequestsWaiting =
      a.globalRequestsInflight + a.globalRequestsWaiting - gone.toList.length := by
  have hlength := hs.perm.length_eq
  simp only [length_append] at hlength
  rw [hinv.inflightCount, hinv.waitingCount, hinv'.inflightCount, hinv'.waitingCount]
  omega

lemma Spares.not_mem (hs : Spares (some h) a b) (hinv : DnsInv a) : h ∉ b.inflight ++ b.reqWaiting :=
  (nodup_cons.mp (hs.perm.nodup_iff.mpr hinv.nodup)).1

section

variable (hs : Steady a b)
include hs

lemma Steady.settled (hsettled : QueueSettled a) : QueueSettled b := by
  have hperm := hs.servers
  unfold QueueSettled at hsettled ⊢
  rw [hs.same]
  refine hsettled.imp_right (Or.imp_right fun hnone => ?_)
  rw [hnone] at hperm
  exact hperm.eq_nil

lemma Steady.keeps (hinv : DnsInv a) : Kept a b :=
  ⟨hs.inv hinv, fun _ => hs.good hinv, fun _ => hs.uniqueIds, fun _ => hs.bounded, fun _ => hs.settled,
    hs.servers, by rw [hs.same], by rw [hs.same]⟩

lemma Steady.spares : Spares none a b where
  perm := by
    rw [hs.inflight, hs.same]
    exact .refl _
  inflight x hx _ := hs.inflight ▸ hx
  handle x _ := by rw [hs.same]
  nextHandle := by rw [hs.same]
  requestType := hs.requestType
  down := hs.down

end

end Keeping

section Moving

variable {a b : DnsBase} {h s : Nat} {r : PendingRequest} {world : DnsWorld} {handle : Nat → DnsHandle}
  {ns : Nat → Nameserver}

lemma req_update (hnew : h ∉ a.inflight) (r : PendingRequest) : ∀ x ∈ a.inflight, update a.req h r x = a.req x := by
  intro x hx
  apply update_of_ne
  rintro rfl
  exact hnew hx

lemma DnsInv.filed_update (hinv : DnsInv a) (hnew : h ∉ a.inflight) (r : PendingRequest) :
    Buckets.Filed a.reqHeads fun x => a.reqHead (update a.req h r x).transId := by
  intro i x hx
  have heq := req_update hnew r x (Buckets.mem_flatten_iff.mpr ⟨i, hx⟩)
  exact (congrArg (fun r => a.reqHead r.transId) heq).trans (hinv.filed i x hx)

lemma countP_update_req (hnew : h ∉ a.inflight) (r : PendingRequest) (p : PendingRequest → Bool) :
    (a.inflight.countP fun x => p (update a.req h r x)) = a.inflight.countP fun x => p (a.req x) :=
  countP_congr fun x hx => by rw [req_update hnew r x hx]

/-- The base with a request put in flight, from the waiting queue or as a new one. -/
def linked (a : DnsBase) (world : DnsWorld) (handle : Nat → DnsHandle) (h s : Nat) (r : PendingRequest) : DnsBase :=
  { a with
    world := world
    reqHeads := a.reqHeads.modify (a.reqHead r.transId) (· ++ [h])
    reqWaiting := a.reqWaiting.erase h
    globalRequestsInflight := a.globalRequestsInflight + 1
    globalRequestsWaiting := (a.reqWaiting.erase h).length
    req := update a.req h r
    handle := handle
    ns := loaded a.ns s 1 }

lemma linked_perm (hinv : DnsInv a) : (linked a world handle h s r).inflight.Perm (h :: a.inflight) :=
  Buckets.add_perm (Nat.mod_lt _ hinv.heads) (perm_append_singleton h)

section

variable (hinv : DnsInv a) (hnew : h ∉ a.inflight) (hfresh : h < a.nextHandle)
  (hhandle : ∀ x, x ≠ h → handle x = a.handle x)
include hinv hnew hfresh hhandle

lemma linked_inv (hs : s ∈ a.servers) (hns : r.ns = some s) : DnsInv (linked a world handle h s r) := by
  have hperm : (linked a world handle h s r).inflight.Perm (h :: a.inflight) := linked_perm hinv
  have hlength : (linked a world handle h s r).reqHeads.length = a.reqHeads.length := length_modify ..
  have hwaiting {x : Nat} (hx : x ∈ a.reqWaiting.erase h) : x ≠ h ∧ x ∈ a.reqWaiting :=
    (List.Nodup.mem_erase_iff (nodup_append.mp hinv.nodup).2.1).mp hx
  refine { hinv with
    heads := hlength ▸ hinv.heads, filed := ?_, nodup := ?_, current := ?_, fresh := ?_, assigned := ?_
    unassigned := ?_, inflightCount := ?_, waitingCount := rfl, load := ?_ }
  · have hinsert := (hinv.filed_update hnew r).add (perm_append_singleton h)
    simp only [update_self] at hinsert
    unfold DnsBase.reqHead at hinsert ⊢
    rw [hlength]
    exact hinsert
  · rw [(hperm.append_right _).nodup_iff, cons_append, nodup_cons]
    refine ⟨?_, hinv.nodup.sublist (erase_sublist.append_left _)⟩
    rw [mem_append, not_or]
    exact ⟨hnew, fun hx => (hwaiting hx).1 rfl⟩
  · intro x hx
    rw [(hperm.append_right _).mem_iff, cons_append, mem_cons]
    by_cases hxh : x = h
    · exact .inl hxh
    · have hx' : (handle x).currentReq := hx
      rw [hhandle x hxh] at hx'
      exact .inr ((mem_append.mp (hinv.current x hx')).elim (mem_append_left _)
        fun hw => mem_append_right _ ((mem_erase_of_ne hxh).mpr hw))
  · intro x hx
    rw [(hperm.append_right _).mem_iff, cons_append, mem_cons] at hx
    obtain rfl | hx := hx
    · exact hfresh
    · exact hinv.fresh x ((mem_append.mp hx).elim (mem_append_left _) fun hw => mem_append_right _ (hwaiting hw).2)
  · intro x hx
    obtain rfl | hx := mem_cons.mp (hperm.mem_iff.mp hx)
    · exact ⟨s, hs, (congrArg PendingRequest.ns (update_self ..)).trans hns⟩
    · obtain ⟨s', hs', hreq⟩ := hinv.assigned x hx
      exact ⟨s', hs', (congrArg PendingRequest.ns (req_update hnew r x hx)).trans hreq⟩
  · intro x hx
    obtain ⟨hxh, hx⟩ := hwaiting hx
    exact (congrArg PendingRequest.ns (update_of_ne hxh ..)).trans (hinv.unassigned x hx)
  · rw [hperm.length_eq, length_cons]
    simp only [linked, hinv.inflightCount]
    omega
  · intro x hx
    have hself : ((linked a world handle h s r).req h).ns = some s :=
      (congrArg PendingRequest.ns (update_self ..)).trans hns
    refine (loaded_apply ..).1.trans ?_
    rw [hperm.countP_eq, countP_cons, hinv.load x hx, hself, ← countP_update_req hnew r fun q => q.ns = some x]
    simp only [decide_eq_true_eq]
    split_ifs <;> rfl

lemma linked_keeps {fits : Prop} (hs : s ∈ a.servers) (hns : r.ns = some s)
    (hids : fits → ∀ x ∈ a.inflight, (a.req x).transId ≠ r.transId)
    (hroom : fits → r.probeOf = none → a.globalRequestsInflight < a.globalMaxRequestsInflight) :
    Keeps True fits True a (linked a world handle h s r) where
  inv := linked_inv hinv hnew hfresh hhandle hs hns
  good _ hgood := hgood.trans (congrArg _ (countP_congr fun x _ => by rw [← (loaded_apply a.ns s x 1).2]; rfl))
  unique hfits hunique := by
    have hold : (a.inflight.map fun x => (update a.req h r x).transId) = a.inflight.map fun x =>
        (a.req x).transId := map_congr_left fun x hx => by rw [req_update hnew r x hx]
    unfold UniqueIds at hunique ⊢
    rw [((linked_perm hinv).map _).nodup_iff, map_cons, nodup_cons]
    simp only [linked, update_self, hold]
    refine ⟨fun hmem => ?_, hunique⟩
    obtain ⟨x, hx, heq⟩ := mem_map.mp hmem
    exact hids hfits x hx heq
  bounded hfits hbound := by
    have hcount := countP_update_req hnew r fun q => q.probeOf.isNone
    have hle : lookupsInflight a ≤ a.inflight.length := countP_le_length
    have htotal := hinv.inflightCount
    unfold Bounded lookupsInflight at hbound hle ⊢
    rw [(linked_perm hinv).countP_eq, countP_cons]
    simp only [linked, update_self, hcount]
    split_ifs with hnone
    · have hlt := hroom hfits (Option.isNone_iff_eq_none.mp hnone)
      omega
    · omega
  settled _ hsettled := by
    refine hsettled.imp (fun hnil => ?_) (Or.imp_left fun hfull => ?_)
    · change a.reqWaiting.erase h = []
      rw [hnil, erase_nil]
    · exact Int.le_add_one hfull
  servers := .refl _
  max := rfl
  suspended := rfl

lemma enqueued_keeps {served : Prop} (hwaiting : h ∉ a.reqWaiting) (hns : r.ns = none)
    (hwaits : served → a.globalMaxRequestsInflight ≤ a.globalRequestsInflight ∨ a.servers = []) :
    Keeps True True served a { a with
      handle := handle
      req := update a.req h r
      reqWaiting := a.reqWaiting ++ [h]
      globalRequestsWaiting := a.globalRequestsWaiting + 1 } := by
  have hperm : (a.inflight ++ (a.reqWaiting ++ [h])).Perm (h :: (a.inflight ++ a.reqWaiting)) := by
    rw [← append_assoc]
    exact perm_append_singleton h _
  have hinv' : DnsInv { a with
      handle := handle
      req := update a.req h r
      reqWaiting := a.reqWaiting ++ [h]
      globalRequestsWaiting := a.globalRequestsWaiting + 1 } := by
    refine { hinv with
      filed := hinv.filed_update hnew r, nodup := ?_, current := ?_, fresh := ?_, assigned := ?_
      unassigned := ?_, waitingCount := ?_, load := ?_ }
    · refine hperm.nodup_iff.mpr (nodup_cons.mpr ⟨fun hx => ?_, hinv.nodup⟩)
      exact (mem_append.mp hx).elim hnew hwaiting
    · intro x hx
      refine hperm.mem_iff.mpr (mem_cons.mpr ?_)
      by_cases hxh : x = h
      · exact .inl hxh
      · exact .inr (hinv.current x (hhandle x hxh ▸ hx))
    · intro x hx
      obtain rfl | hx := mem_cons.mp (hperm.mem_iff.mp hx)
      · exact hfresh
      · exact hinv.fresh x hx
    · intro x hx
      obtain ⟨s, hs, hreq⟩ := hinv.assigned x hx
      exact ⟨s, hs, (congrArg PendingRequest.ns (req_update hnew r x hx)).trans hreq⟩
    · refine (forall_update_iff a.req fun x q => x ∈ a.reqWaiting ++ [h] → q.ns = none).mpr
        ⟨fun _ => hns, fun x hxh hx => hinv.unassigned x ?_⟩
      exact (mem_append.mp hx).resolve_right fun hx => hxh (mem_singleton.mp hx)
    · rw [length_append, length_singleton]
      simp only [hinv.waitingCount]
      omega
    · intro x hx
      exact (hinv.load x hx).trans (congrArg _ (countP_update_req hnew r fun q => q.ns = some x).symm)
  refine ⟨hinv', fun _ => id, fun _ hunique => ?_, fun _ hbound => ?_, fun hserved _ => .inr (hwaits hserved),
    .refl _, rfl, rfl⟩
  · unfold UniqueIds at hunique ⊢
    rwa [← map_congr_left fun x hx => congrArg PendingRequest.transId (req_update hnew r x hx)] at hunique
  · have hcount := countP_update_req hnew r fun q => q.probeOf.isNone
    unfold Bounded lookupsInflight at hbound ⊢
    rw [← hcount] at hbound
    exact hbound

end

/-- A request has left its list: that of the requests in flight or the waiting queue. -/
structure Released (a b : DnsBase) (h : Nat) : Prop extends Spares (some h) a b where
  inv : DnsInv b
  good : GoodCount a → GoodCount b
  sublist : b.inflight.Sublist a.inflight
  waiting : b.reqWaiting.Sublist a.reqWaiting
  same : ∀ x, SameRequest (b.req x) (a.req x)
  servers : b.servers = a.servers
  max : b.globalMaxRequestsInflight = a.globalMaxRequestsInflight
  suspended : b.suspended = a.suspended

section

variable (hinv : DnsInv a) (hhandle : ∀ x, x ≠ h → handle x = a.handle x) (hdone : (handle h).currentReq = false)
include hinv hhandle hdone

lemma DnsInv.current_without {l : List Nat} (hperm : (h :: l).Perm (a.inflight ++ a.reqWaiting)) (x : Nat)
    (hx : (handle x).currentReq) : x ∈ l := by
  have hxh : x ≠ h := by
    rintro rfl
    exact absurd (hdone.symm.trans hx) Bool.false_ne_true
  rw [hhandle x hxh] at hx
  exact (mem_cons.mp (hperm.mem_iff.mpr (hinv.current x hx))).resolve_left hxh

lemma released_waiting (hmem : h ∈ a.reqWaiting) (hns : ∀ x, SameServer (ns x) (a.ns x)) :
    Released a { a with
      reqWaiting := a.reqWaiting.erase h
      globalRequestsWaiting := a.globalRequestsWaiting - 1
      ns := ns
      handle := handle } h := by
  have hperm : (h :: (a.inflight ++ a.reqWaiting.erase h)).Perm (a.inflight ++ a.reqWaiting) :=
    perm_middle.symm.trans ((perm_cons_erase hmem).symm.append_left _)
  have hsub : (a.inflight ++ a.reqWaiting.erase h).Sublist (a.inflight ++ a.reqWaiting) :=
    erase_sublist.append_left _
  refine ⟨⟨hperm, fun x hx _ => hx, fun x hx => hhandle x fun h => hx (congrArg some h.symm), rfl, fun _ => rfl,
    fun x hx => (hns x).state.trans hx⟩, ?_, fun hgood => ?_, .refl _, erase_sublist,
    fun _ => ⟨rfl, rfl, rfl, rfl⟩, rfl, rfl, rfl⟩
  · exact { hinv with
      nodup := hinv.nodup.sublist hsub
      current := hinv.current_without hhandle hdone hperm
      fresh := fun x hx => hinv.fresh x (hsub.subset hx)
      unassigned := fun x hx => hinv.unassigned x (mem_of_mem_erase hx)
      waitingCount := by
        have hpos := length_pos_of_mem hmem
        have hcount := hinv.waitingCount
        rw [length_erase_of_mem hmem]
        dsimp only
        omega
      load := fun x hx => (hns x).load.trans (hinv.load x hx) }
  · unfold GoodCount at hgood ⊢
    simp only [fun x => (hns x).state]
    exact hgood

lemma released_inflight (hmem : h ∈ a.inflight)
    (hns : ∀ x, (ns x).requestsInflight = (a.ns x).requestsInflight - (if (a.req h).ns = some x then 1 else 0) ∧
      (ns x).state = (a.ns x).state) :
    Released a { a with
      reqHeads := a.reqHeads.modify (a.reqHead (a.req h).transId) (·.erase h)
      req := update a.req h { a.req h with timer := false }
      globalRequestsInflight := a.globalRequestsInflight - 1
      ns := ns
      handle := handle } h := by
  obtain ⟨heads, hheads⟩ : ∃ heads, a.reqHeads.modify (a.reqHead (a.req h).transId) (·.erase h) = heads := ⟨_, rfl⟩
  have hlength : heads.length = a.reqHeads.length := by
    rw [← hheads, length_modify]
  have hfiled : Buckets.Filed heads fun x => a.reqHead (a.req x).transId := hheads ▸ hinv.filed.erase _
  have hsub : heads.flatten.Sublist a.inflight := hheads ▸ Buckets.erase_flatten_sublist ..
  have herase : (h :: heads.flatten).Perm a.inflight :=
    hheads ▸ Buckets.erase_perm (Nat.mod_lt _ hinv.heads) ((Buckets.Filed.mem_iff hinv.filed).mp hmem)
  have hperm : (h :: (heads.flatten ++ a.reqWaiting)).Perm (a.inflight ++ a.reqWaiting) :=
    herase.append_right _
  have hsame : ∀ x, SameRequest (update a.req h { a.req h with timer := false } x) (a.req x) :=
    (forall_update_iff a.req fun x q => SameRequest q (a.req x)).mpr
      ⟨⟨rfl, rfl, rfl, rfl⟩, fun _ _ => ⟨rfl, rfl, rfl, rfl⟩⟩
  rw [hheads]
  refine ⟨⟨hperm, fun x hx hne => ?_, fun x hx => hhandle x fun h => hx (congrArg some h.symm), rfl,
    fun x => (hsame x).requestType, fun x hx => (hns x).2.trans hx⟩, ?_, fun hgood => ?_, hsub, .refl _,
    hsame, rfl, rfl, rfl⟩
  · exact (mem_cons.mp (herase.mem_iff.mpr hx)).resolve_left fun h => hne (congrArg some h.symm)
  · refine { hinv with
      heads := hlength ▸ hinv.heads
      filed := fun i x hx => ?_
      nodup := hinv.nodup.sublist (hsub.append_right _)
      current := hinv.current_without hhandle hdone hperm
      fresh := fun x hx => hinv.fresh x ((hsub.append_right _).subset hx)
      assigned := fun x hx => (hsame x).ns ▸ hinv.assigned x (hsub.subset hx)
      unassigned := fun x hx => (hsame x).ns.trans (hinv.unassigned x hx)
      inflightCount := ?_
      load := fun x hx => ?_ }
    · have hkey := hfiled i x hx
      unfold DnsBase.reqHead at hkey ⊢
      dsimp only at hkey ⊢
      rw [hlength, (hsame x).transId, hkey]
    · have hcount := hinv.inflightCount
      have hlen := herase.length_eq
      unfold DnsBase.inflight at hcount hlen ⊢
      rw [length_cons] at hlen
      dsimp only
      omega
    · have hcount := hinv.load x hx
      rw [← herase.countP_eq, countP_cons] at hcount
      unfold DnsBase.inflight
      simp only [fun y => (hsame y).ns, (hns x).1, hcount, decide_eq_true_eq]
      split_ifs <;> omega
  · unfold GoodCount at hgood ⊢
    simp only [fun x => (hns x).2]
    exact hgood

end

lemma watchNameserver_eq (a : DnsBase) (h : Nat) : ∃ ns, a.watchNameserver h = { a with ns := ns } ∧
    ∀ x, SameServer (ns x) (a.ns x) := by
  unfold watchNameserver
  split
  · exact ⟨a.ns, rfl, fun _ => ⟨rfl, rfl⟩⟩
  rename_i s hs
  split
  · exact ⟨_, rfl, (forall_update_iff a.ns fun x n => SameServer n (a.ns x)).mpr
      ⟨⟨rfl, rfl⟩, fun _ _ => ⟨rfl, rfl⟩⟩⟩
  · exact ⟨a.ns, rfl, fun _ => ⟨rfl, rfl⟩⟩

lemma unlinkRequest_released {wasInflight : Bool} (freeHandle : Bool) (hinv : DnsInv a)
    (hmem : if wasInflight then h ∈ a.inflight else h ∈ a.reqWaiting) :
    Released a (((a.unlinkRequest h wasInflight).watchNameserver h).releaseHandle h freeHandle) h := by
  obtain ⟨ns, hwatch, hns⟩ := watchNameserver_eq (a.unlinkRequest h wasInflight) h
  obtain ⟨n, hn⟩ : ∃ n : DnsHandle, n = if freeHandle then
    { a.handle h with currentReq := false, searchState := none, searchOrigname := [] }
    else { a.handle h with currentReq := false } := ⟨_, rfl⟩
  have hhandle (x : Nat) (hx : x ≠ h) : update a.handle h n x = a.handle x := update_of_ne hx ..
  have hdone : (update a.handle h n h).currentReq = false := by
    rw [update_self, hn]
    split <;> rfl
  rw [hwatch]
  unfold releaseHandle updateHandle
  cases wasInflight with
  | false =>
    rw [hn] at hhandle hdone
    exact released_waiting hinv hhandle hdone hmem hns
  | true =>
    obtain ⟨s, -, hs⟩ := hinv.assigned h hmem
    have hunlink : a.unlinkRequest h true = { a with
        reqHeads := a.reqHeads.modify (a.reqHead (a.req h).transId) (·.erase h)
        req := update a.req h { a.req h with timer := false }
        globalRequestsInflight := a.globalRequestsInflight - 1
        ns := loaded a.ns s (-1) } := by
      simp [unlinkRequest, removeInflight, updateReq, hs, updateNs, loaded, Int.sub_eq_add_neg]
    rw [hunlink] at hns ⊢
    rw [hn] at hhandle hdone
    refine released_inflight hinv hhandle hdone hmem fun x => ?_
    obtain ⟨hload, hstate⟩ := loaded_apply a.ns s x (-1)
    refine ⟨(hns x).load.trans (hload.trans ?_), (hns x).state.trans hstate⟩
    rw [hs]
    split_ifs <;> omega

end Moving

end MyLibevent.Proofs
