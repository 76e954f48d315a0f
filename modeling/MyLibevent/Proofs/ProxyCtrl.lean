import MyLibevent.Lib.PairedMaps
import MyLibevent.Lib.Runs
import MyLibevent.Proofs.ServerCommEngine
import MyLibevent.ProxyCtrl

/-!
# The maps of the proxy

The two maps are the inverse of each other, and all registered sockets are those of connections.
-/

namespace MyLibevent.Proofs

open ProxyCtrl PairedMaps List Function

variable {α : Type} {config : ProxyConfig α} {a b ctrl : ProxyCtrl} {socket : Nat}
  {netWork : NetWork} {acceptor : ProxyAcceptor} {nCodeLength : BitVec 16} {now : Int}
  {stack : Nat → UInt8}

lemma connected_iff : ctrl.Connected socket ↔ ∃ netWork, ∃ entry ∈ ctrl.mapAcceptor netWork, entry.1 = socket := by
  unfold Connected
  rw [map_append, mem_append, mem_map, mem_map]
  constructor
  · rintro (h | h)
    · exact ⟨.singleton, h⟩
    · exact ⟨.created, h⟩
  · rintro ⟨netWork, h⟩
    cases netWork with
    | singleton => exact Or.inl h
    | created => exact Or.inr h

lemma mem_of_findAcceptor (h : ctrl.findAcceptor netWork socket = some acceptor) :
    (socket, acceptor) ∈ ctrl.mapAcceptor netWork := by
  unfold findAcceptor at h
  rw [lookup_eq_some_iff] at h
  obtain ⟨before, behind, hsplit, -⟩ := h
  rw [hsplit]
  simp

structure ProxyInv (ctrl : ProxyCtrl) : Prop where
  paired : Paired ctrl.mapRegister ctrl.mapSocket2Key
  connected : ∀ key socket, ctrl.mapRegister key = some socket → ctrl.Connected socket
  -- an acceptor is stored under its descriptor
  stored : ∀ netWork, ∀ entry ∈ ctrl.mapAcceptor netWork, entry.2.socket = entry.1

structure SameConnections (a b : ProxyCtrl) : Prop where
  mapRegister : b.mapRegister = a.mapRegister
  mapSocket2Key : b.mapSocket2Key = a.mapSocket2Key
  sockets : ∀ netWork, (b.mapAcceptor netWork).map (fun entry => (entry.1, entry.2.socket)) =
    (a.mapAcceptor netWork).map (fun entry => (entry.1, entry.2.socket))

lemma SameConnections.refl (ctrl : ProxyCtrl) : SameConnections ctrl ctrl := ⟨rfl, rfl, fun _ => rfl⟩

section

variable (h : SameConnections a b)
include h

lemma SameConnections.trans {c : ProxyCtrl} (h' : SameConnections b c) : SameConnections a c :=
  ⟨h'.mapRegister.trans h.mapRegister, h'.mapSocket2Key.trans h.mapSocket2Key,
    fun netWork => (h'.sockets netWork).trans (h.sockets netWork)⟩

lemma SameConnections.exists_entry {entry : Nat × ProxyAcceptor}
    (hentry : entry ∈ b.mapAcceptor netWork) :
    ∃ entry' ∈ a.mapAcceptor netWork, entry'.1 = entry.1 ∧ entry'.2.socket = entry.2.socket := by
  have hmem : (entry.1, entry.2.socket) ∈ (b.mapAcceptor netWork).map (fun entry => (entry.1, entry.2.socket)) :=
    mem_map_of_mem hentry
  rw [h.sockets netWork, mem_map] at hmem
  obtain ⟨entry', hentry', heq⟩ := hmem
  rw [Prod.mk.injEq] at heq
  exact ⟨entry', hentry', heq⟩

lemma SameConnections.symm : SameConnections b a :=
  ⟨h.mapRegister.symm, h.mapSocket2Key.symm, fun netWork => (h.sockets netWork).symm⟩

lemma SameConnections.connected (hc : a.Connected socket) : b.Connected socket := by
  rw [connected_iff] at hc ⊢
  obtain ⟨netWork, entry, hentry, rfl⟩ := hc
  obtain ⟨entry', hentry', hsocket, -⟩ := h.symm.exists_entry hentry
  exact ⟨netWork, entry', hentry', hsocket⟩

end

lemma ProxyInv.same (hinv : ProxyInv a) (h : SameConnections a b) : ProxyInv b := by
  constructor
  · rw [h.mapRegister, h.mapSocket2Key]
    exact hinv.paired
  · intro key socket hkey
    rw [h.mapRegister] at hkey
    exact h.connected (hinv.connected key socket hkey)
  · intro netWork entry hentry
    obtain ⟨entry', hentry', hsocket, hacceptor⟩ := h.exists_entry hentry
    rw [← hacceptor, ← hsocket]
    exact hinv.stored netWork entry' hentry'

lemma sameConnections_modifyAcceptor {f : ProxyAcceptor → ProxyAcceptor}
    (hf : ∀ acceptor, (f acceptor).socket = acceptor.socket) :
    SameConnections ctrl (ctrl.modifyAcceptor netWork socket f) := by
  refine ⟨rfl, rfl, ?_⟩
  intro netWork'
  unfold modifyAcceptor
  dsimp only
  by_cases hsame : netWork' = netWork
  · subst hsame
    rw [update_self, map_map]
    apply map_congr_left
    intro entry _
    dsimp only [comp]
    split_ifs
    · rw [hf]
    · rfl
  · rw [update_of_ne hsame]

lemma sameConnections_sendOneCodeTo {code : Nat → UInt8} {key : BitVec 32} {keepAlive : Bool} :
    SameConnections ctrl (ctrl.sendOneCodeTo netWork nCodeLength code key keepAlive now).2 := by
  unfold sendOneCodeTo
  split
  · exact SameConnections.refl ctrl
  split
  · exact SameConnections.refl ctrl
  rename_i socket acceptor _
  have hsend : SameConnections ctrl (ctrl.send socket (ByteBlock.read code 0 nCodeLength.toInt.toNat)).2 := by
    unfold send
    split
    · exact SameConnections.refl ctrl
    · exact ⟨rfl, rfl, fun _ => rfl⟩
  dsimp only
  split
  · refine hsend.trans ?_
    dsimp only
    apply sameConnections_modifyAcceptor
    intro acceptor
    rfl
  · exact hsend

lemma sameConnections_transferOneCode {recvBuff : ByteBuff} :
    SameConnections ctrl (ctrl.transferOneCode config recvBuff nCodeLength now stack).2 := by
  unfold transferOneCode
  split
  · exact SameConnections.refl ctrl
  split
  · exact SameConnections.refl ctrl
  split
  · split
    · unfold answerKeepAlive
      dsimp only
      split
      · exact SameConnections.refl ctrl
      · exact sameConnections_sendOneCodeTo
    · exact SameConnections.refl ctrl
  · exact sameConnections_sendOneCodeTo

structure Unregistered (a b : ProxyCtrl) (socket : Nat) : Prop where
  inv : ProxyInv b
  mapAcceptor : b.mapAcceptor = a.mapAcceptor
  gone : ∀ key, b.mapRegister key ≠ some socket
  fewer : ∀ key other, b.mapRegister key = some other → a.mapRegister key = some other

section

variable (hinv : ProxyInv ctrl)
include hinv

lemma unregistered_unregister (socket : Nat) : Unregistered ctrl (ctrl.unregister socket) socket := by
  unfold unregister
  cases hkey : ctrl.mapSocket2Key socket with
  | none =>
    refine ⟨hinv, rfl, ?_, fun _ _ h => h⟩
    intro key hsome
    rw [hinv.paired key socket, hkey] at hsome
    cases hsome
  | some key =>
    have hpaired := hinv.paired.erase hkey
    have hfewer : ∀ key' other, update ctrl.mapRegister key none key' = some other →
        ctrl.mapRegister key' = some other := by
      intro key' other hother
      by_cases hsame : key' = key
      · rw [hsame, update_self] at hother
        cases hother
      · rwa [update_of_ne hsame] at hother
    refine ⟨⟨hpaired, ?_, hinv.stored⟩, rfl, ?_, hfewer⟩
    · intro key' other hother
      exact hinv.connected key' other (hfewer key' other hother)
    · intro key' hsome
      have hnone := (hpaired key' socket).mp hsome
      rw [update_self] at hnone
      cases hnone

lemma ProxyInv.setAcceptors {entries : List (Nat × ProxyAcceptor)}
    (hkept : ∀ entry ∈ ctrl.mapAcceptor netWork, ∀ key, ctrl.mapRegister key = some entry.1 → entry ∈ entries)
    (hstored : ∀ entry ∈ entries, entry.2.socket = entry.1) :
    ProxyInv { ctrl with mapAcceptor := update ctrl.mapAcceptor netWork entries } := by
  refine ⟨hinv.paired, ?_, ?_⟩
  · intro key other hother
    obtain ⟨netWork', entry, hentry, rfl⟩ := connected_iff.mp (hinv.connected key other hother)
    refine connected_iff.mpr ⟨netWork', entry, ?_, rfl⟩
    dsimp only
    by_cases hsame : netWork' = netWork
    · subst hsame
      rw [update_self]
      exact hkept entry hentry key hother
    · rwa [update_of_ne hsame]
  · intro netWork' entry hentry
    dsimp only at hentry
    by_cases hsame : netWork' = netWork
    · subst hsame
      rw [update_self] at hentry
      exact hstored entry hentry
    · rw [update_of_ne hsame] at hentry
      exact hinv.stored netWork' entry hentry

lemma ProxyInv.shutDownAcceptor (hgone : ∀ key, ctrl.mapRegister key ≠ some socket) :
    ProxyInv (ctrl.shutDownAcceptor netWork socket) := by
  apply hinv.setAcceptors
  · intro entry hentry key hkey
    refine mem_filter.mpr ⟨hentry, decide_eq_true ?_⟩
    rintro rfl
    exact hgone key hkey
  · intro entry hentry
    exact hinv.stored netWork entry (mem_filter.mp hentry).1

lemma ProxyInv.closed (netWork : NetWork) (socket : Nat) :
    ProxyInv ((ctrl.unregister socket).shutDownAcceptor netWork socket) := by
  have hunregistered := unregistered_unregister hinv socket
  exact hunregistered.inv.shutDownAcceptor hunregistered.gone

lemma ProxyInv.regist (hconnected : ctrl.Connected socket)
    (hfree : ctrl.mapSocket2Key socket = none) (srcFe srcId : BitVec 32) :
    ProxyInv (ctrl.regist config socket srcFe srcId).2 := by
  unfold ProxyCtrl.regist
  dsimp only
  split
  · exact hinv.closed config.pNetWork socket
  · rename_i hkey
    rw [Option.not_isSome_iff_eq_none] at hkey
    rw [hfree]
    refine ⟨hinv.paired.insert hkey hfree, ?_, hinv.stored⟩
    intro key other hother
    dsimp only at hother
    by_cases hsame : key = makeConnKey srcFe srcId
    · rw [hsame, update_self, Option.some.injEq] at hother
      rw [← hother]
      exact hconnected
    · rw [update_of_ne hsame] at hother
      exact hinv.connected key other hother

lemma ProxyInv.dealRegisterMes (hconnected : ctrl.Connected socket)
    (hfree : ctrl.mapSocket2Key socket = none) (recvBuff : ByteBuff) :
    ProxyInv (ctrl.dealRegisterMes config socket recvBuff).2 := by
  unfold ProxyCtrl.dealRegisterMes
  split
  · exact hinv
  split
  · exact hinv.closed config.pNetWork socket
  · exact hinv.regist hconnected hfree _ _

lemma ProxyInv.onCnsSomeDataRecv (hconnected : ctrl.Connected acceptor.socket)
    (hrecv : ctrl.onCnsSomeDataRecv config acceptor now stack = some b) : ProxyInv b := by
  unfold ProxyCtrl.onCnsSomeDataRecv at hrecv
  dsimp only at hrecv
  split at hrecv
  · cases hrecv
    exact hinv.same (sameConnections_modifyAcceptor fun _ => rfl)
  split at hrecv
  · cases hrecv
  generalize hbase : ((acceptor.toAcceptor.isPackageComplete.2).recvData
    (acceptor.toAcceptor.isPackageComplete.2.recvPackLen - 2).toNat).2.currentPackRecved = base
  rw [hbase] at hrecv
  generalize hnext : ctrl.modifyAcceptor .singleton acceptor.socket
    (fun acceptor => { acceptor with toAcceptor := base }) = next
  have hsame : SameConnections ctrl next := by
    rw [← hnext]
    exact sameConnections_modifyAcceptor fun _ => rfl
  rw [hnext] at hrecv
  split at hrecv
  · cases hrecv
    exact (hinv.same hsame).same sameConnections_transferOneCode
  · rename_i hfree
    rw [Option.not_isSome_iff_eq_none] at hfree
    cases hrecv
    exact (hinv.same hsame).dealRegisterMes (hsame.connected hconnected) hfree _

end

structure TimedOut (entries kept : List (Nat × ProxyAcceptor)) (a b : ProxyCtrl) : Prop where
  inv : ProxyInv b
  mapAcceptor : b.mapAcceptor = a.mapAcceptor
  subset : ∀ entry ∈ kept, entry ∈ entries
  gone : ∀ entry ∈ entries, entry ∈ kept ∨ ∀ key, b.mapRegister key ≠ some entry.2.socket
  fewer : ∀ key other, b.mapRegister key = some other → a.mapRegister key = some other

lemma timedOut_closeTimedOut (config : ProxyConfig α) (now : Int) (entries : List (Nat × ProxyAcceptor))
    (hinv : ProxyInv ctrl) :
    TimedOut entries (closeTimedOut config now entries ctrl).1 ctrl (closeTimedOut config now entries ctrl).2 := by
  induction entries generalizing ctrl with
  | nil => exact ⟨hinv, rfl, fun _ h => h, fun _ h => Or.inl h, fun _ _ h => h⟩
  | cons entry entries ih =>
    rw [closeTimedOut]
    split
    · have hunregistered := unregistered_unregister hinv entry.2.socket
      have hrest := ih hunregistered.inv
      refine ⟨hrest.inv, hrest.mapAcceptor.trans hunregistered.mapAcceptor,
        fun other hother => mem_cons_of_mem _ (hrest.subset other hother), ?_,
        fun key other h => hunregistered.fewer key other (hrest.fewer key other h)⟩
      intro other hother
      obtain rfl | hother := mem_cons.mp hother
      · right
        intro key hkey
        exact hunregistered.gone key (hrest.fewer key _ hkey)
      · exact hrest.gone other hother
    · have hrest := ih hinv
      refine ⟨hrest.inv, hrest.mapAcceptor, ?_, ?_, hrest.fewer⟩
      · exact forall_mem_cons.mpr ⟨mem_cons_self, fun other h => mem_cons_of_mem _ (hrest.subset other h)⟩
      · refine forall_mem_cons.mpr ⟨.inl mem_cons_self, fun other hother => ?_⟩
        exact (hrest.gone other hother).imp (mem_cons_of_mem _) id

lemma ProxyInv.onAcceptorTimeOut (hinv : ProxyInv ctrl) (now : Int) :
    ProxyInv (ctrl.onAcceptorTimeOut config now) := by
  have hout := timedOut_closeTimedOut config now (ctrl.mapAcceptor config.pNetWork) hinv
  unfold ProxyCtrl.onAcceptorTimeOut
  dsimp only
  generalize (closeTimedOut config now (ctrl.mapAcceptor config.pNetWork) ctrl).1 = kept at hout ⊢
  generalize (closeTimedOut config now (ctrl.mapAcceptor config.pNetWork) ctrl).2 = next at hout ⊢
  apply hout.inv.setAcceptors
  · intro entry hentry key hkey
    rw [← hout.inv.stored _ entry hentry] at hkey
    rw [hout.mapAcceptor] at hentry
    rcases hout.gone entry hentry with hkept | hgone
    · exact hkept
    · exact absurd hkey (hgone key)
  · intro entry hentry
    exact hinv.stored _ entry (hout.subset entry hentry)

lemma ProxyInv.insertNewAcceptor (hinv : ProxyInv ctrl) (hsocket : acceptor.socket = socket) :
    ProxyInv (ctrl.insertNewAcceptor netWork socket acceptor) := by
  unfold ProxyCtrl.insertNewAcceptor
  split
  · exact hinv
  apply hinv.setAcceptors
  · intro entry hentry _ _
    exact mem_cons_of_mem _ hentry
  · exact forall_mem_cons.mpr ⟨hsocket, hinv.stored netWork⟩

lemma proxyInv_start : ProxyInv ProxyCtrl.start := by
  refine ⟨paired_empty, ?_, ?_⟩
  · intro key socket h
    cases h
  · intro netWork entry hentry
    cases hentry

lemma ProxyInv.step (hinv : ProxyInv a) {event : ProxyEvent} (hstep : a.step config event = some b) : ProxyInv b := by
  cases event with
  | accept socket now =>
    unfold ProxyCtrl.step at hstep
    dsimp only at hstep
    split at hstep
    · cases hstep
    · cases hstep
      exact hinv.insertNewAcceptor rfl
  | recv socket bytes now stack =>
    obtain ⟨acceptor, hfind, hrecv⟩ := Option.bind_eq_some_iff.mp hstep
    have hentry := mem_of_findAcceptor hfind
    refine hinv.onCnsSomeDataRecv ?_ hrecv
    exact connected_iff.mpr ⟨.singleton, _, hentry, (hinv.stored _ _ hentry).symm⟩
  | transfer recvBuff nCodeLength now stack =>
    cases hstep
    exact hinv.same sameConnections_transferOneCode
  | disconnected socket =>
    obtain ⟨acceptor, -, hrest⟩ := Option.bind_eq_some_iff.mp hstep
    cases hrest
    exact hinv.closed .singleton acceptor.socket
  | timeOut now =>
    cases hstep
    exact hinv.onAcceptorTimeOut now

abbrev ReachedProxy (config : ProxyConfig α) : ProxyCtrl → Prop :=
  Runs.Reached (ProxyCtrl.step config) (fun _ _ => True) ProxyCtrl.start

/-- In every run, a key has a socket if and only if the socket has the key, and registered sockets are those of
connections. -/
theorem reachedProxy_registered (config : ProxyConfig α) {ctrl : ProxyCtrl} (hr : ReachedProxy config ctrl) :
    (∀ key socket, ctrl.mapRegister key = some socket ↔ ctrl.mapSocket2Key socket = some key) ∧
      ∀ key socket, ctrl.mapRegister key = some socket → ctrl.Connected socket := by
  have hinv : ProxyInv ctrl := hr.invariant (P := ProxyInv) proxyInv_start fun _ _ _ hinv _ hstep => hinv.step hstep
  exact ⟨hinv.paired, hinv.connected⟩

def proxyHead (srcFe srcId dstFe dstId : BitVec 32) (time : BitVec 64) (cmd : Nat) : List (UInt8 × BitVec 64) :=
  [(0x08, srcFe.setWidth 64), (0x10, srcId.setWidth 64), (0x18, dstFe.setWidth 64), (0x20, dstId.setWidth 64),
    (0x28, time), (0x30, BitVec.ofNat 64 cmd)]

def cmdValue : MessageCmd → Nat
  | .null => 0
  | .regist => 1
  | .keepAlive => 2
  | .logic => 3

def wireHeads : ProxyHeads proxyHeadFormat.Message where
  codec := proxyHeadFormat.codec
  srcFe head := BitVec.ofNat 32 (head.field 0x08)
  srcId head := BitVec.ofNat 32 (head.field 0x10)
  dstFe head := BitVec.ofNat 32 (head.field 0x18)
  dstId head := BitVec.ofNat 32 (head.field 0x20)
  opFlag head := match head.field 0x30 with
    | 1 => .regist
    | 2 => .keepAlive
    | 3 => .logic
    | _ => .null
  setProxy srcFe srcId dstFe dstId time cmd :=
    ⟨fieldBytes (proxyHead srcFe srcId dstFe dstId time (cmdValue cmd)), by
      refine accepts_fieldBytes ?_ (by simp [proxyHead, proxyHeadFormat])
      cases cmd <;> simp [proxyHead, proxyHeadFormat, cmdValue]⟩

def wireProxy (netWork : NetWork) : ProxyConfig proxyHeadFormat.Message := ⟨wireHeads, true, 1, 60000, netWork⟩

/-- A packet of one head, of 18 bytes. -/
def headPacket (srcFe srcId dstFe dstId cmd : UInt8) : Bytes :=
  [0, 18, 0, 0, 0, 12, 0x08, srcFe, 0x10, srcId, 0x18, dstFe, 0x20, dstId, 0x28, 0, 0x30, cmd]

def registersOne : Runs.Given (ProxyCtrl.step (wireProxy .created)) (fun _ _ => True) ProxyCtrl.start
    (fun ctrl => ctrl.mapRegister (makeConnKey 2 7) == some 3) where
  events := [.accept 3 0, .recv 3 (headPacket 2 7 5 1 1) 10 (fun _ => 0)]
  leads := by decide +kernel

/-- A registered connection, from both sides. -/
theorem reachedProxy_registered_one : ∃ ctrl, ReachedProxy (wireProxy .created) ctrl ∧
    ctrl.mapRegister (makeConnKey 2 7) = some 3 ∧ ctrl.mapSocket2Key 3 = some (makeConnKey 2 7) ∧
      ctrl.Connected 3 := by
  obtain ⟨ctrl, hr, hleads⟩ := registersOne.reached
  have hkey : ctrl.mapRegister (makeConnKey 2 7) = some 3 := by simpa using hleads
  have h := reachedProxy_registered (wireProxy .created) hr
  exact ⟨ctrl, hr, hkey, (h.1 _ _).mp hkey, h.2 _ _ hkey⟩

end MyLibevent.Proofs
