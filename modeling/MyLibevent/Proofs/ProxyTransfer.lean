import MyLibevent.Proofs.ProxyCtrl

/-!
# Packets between servers

`IsPackageComplete` reads the length of a packet and does not keep it, so that `GetRecvPackLen` is 0 whenever
`lcb_OnCnsSomeDataRecv` asks for it, and `TransferOneCode` returns at once.
-/

namespace MyLibevent.Proofs

open ProxyCtrl List Function

variable {α : Type} {config : ProxyConfig α} {a b ctrl : ProxyCtrl} {socket : Nat} {netWork : NetWork}

/-- Nothing has been sent, and no connection has kept the length of a packet. -/
structure Silent (ctrl : ProxyCtrl) : Prop where
  sent : ctrl.sent = []
  recvPackLen : ∀ netWork, ∀ entry ∈ ctrl.mapAcceptor netWork, entry.2.recvPackLen = 0

/-- Nothing has been sent since, and there is no new connection. -/
structure OnlyClosed (a b : ProxyCtrl) : Prop where
  sent : b.sent = a.sent
  acceptors : ∀ netWork, b.mapAcceptor netWork ⊆ a.mapAcceptor netWork

lemma OnlyClosed.refl (ctrl : ProxyCtrl) : OnlyClosed ctrl ctrl := ⟨rfl, fun _ => Subset.refl _⟩

lemma OnlyClosed.trans {c : ProxyCtrl} (h : OnlyClosed a b) (h' : OnlyClosed b c) : OnlyClosed a c :=
  ⟨h'.sent.trans h.sent, fun netWork => Subset.trans (h'.acceptors netWork) (h.acceptors netWork)⟩

lemma OnlyClosed.silent (h : OnlyClosed a b) (hsilent : Silent a) : Silent b :=
  ⟨h.sent.trans hsilent.sent, fun netWork entry hentry =>
    hsilent.recvPackLen netWork entry (h.acceptors netWork hentry)⟩

lemma onlyClosed_update {entries : List (Nat × ProxyAcceptor)} (h : entries ⊆ ctrl.mapAcceptor netWork) :
    OnlyClosed ctrl { ctrl with mapAcceptor := update ctrl.mapAcceptor netWork entries } := by
  refine ⟨rfl, fun other => ?_⟩
  by_cases hother : other = netWork
  · subst hother
    dsimp only
    rwa [update_self]
  · dsimp only
    rw [update_of_ne hother]
    exact Subset.refl _

lemma onlyClosed_unregister : OnlyClosed ctrl (ctrl.unregister socket) := by
  unfold unregister
  split
  · exact .refl ctrl
  · exact ⟨rfl, fun _ => Subset.refl _⟩

lemma onlyClosed_closed : OnlyClosed ctrl ((ctrl.unregister socket).shutDownAcceptor netWork socket) :=
  onlyClosed_unregister.trans (onlyClosed_update (filter_subset_self _))

lemma onlyClosed_dealRegisterMes {recvBuff : ByteBuff} :
    OnlyClosed ctrl (ctrl.dealRegisterMes config socket recvBuff).2 := by
  unfold dealRegisterMes
  split
  · exact .refl ctrl
  split
  · exact onlyClosed_closed
  unfold ProxyCtrl.regist
  dsimp only
  split
  · exact onlyClosed_closed
  · exact ⟨rfl, fun _ => Subset.refl _⟩

lemma onlyClosed_closeTimedOut (now : Int) (entries : List (Nat × ProxyAcceptor)) :
    (closeTimedOut config now entries ctrl).1 ⊆ entries ∧
      (closeTimedOut config now entries ctrl).2.mapAcceptor = ctrl.mapAcceptor ∧
      OnlyClosed ctrl (closeTimedOut config now entries ctrl).2 := by
  induction entries generalizing ctrl with
  | nil => exact ⟨Subset.refl _, rfl, .refl ctrl⟩
  | cons entry entries ih =>
    rw [closeTimedOut]
    split
    · obtain ⟨hkept, hsame, hclosed⟩ := @ih (ctrl.unregister entry.2.socket)
      refine ⟨subset_cons_of_subset _ hkept, hsame.trans ?_, onlyClosed_unregister.trans hclosed⟩
      unfold unregister
      split <;> rfl
    · obtain ⟨hkept, hsame, hclosed⟩ := @ih ctrl
      exact ⟨cons_subset_cons _ hkept, hsame, hclosed⟩

lemma onlyClosed_onAcceptorTimeOut (now : Int) : OnlyClosed ctrl (ctrl.onAcceptorTimeOut config now) := by
  obtain ⟨hkept, hsame, hclosed⟩ :=
    @onlyClosed_closeTimedOut α config ctrl now (ctrl.mapAcceptor config.pNetWork)
  refine hclosed.trans (onlyClosed_update ?_)
  rwa [hsame]

lemma Silent.modifyAcceptor (h : Silent ctrl) {f : ProxyAcceptor → ProxyAcceptor}
    (hf : ∀ acceptor, (f acceptor).recvPackLen = 0) : Silent (ctrl.modifyAcceptor netWork socket f) := by
  refine ⟨h.sent, fun other entry hentry => ?_⟩
  unfold ProxyCtrl.modifyAcceptor at hentry
  dsimp only at hentry
  by_cases hother : other = netWork
  · subst hother
    rw [update_self, mem_map] at hentry
    obtain ⟨entry', hentry', rfl⟩ := hentry
    split_ifs
    · exact hf entry'.2
    · exact h.recvPackLen other entry' hentry'
  · rw [update_of_ne hother] at hentry
    exact h.recvPackLen other entry hentry

lemma recvPackLen_isPackageComplete {acceptor : Acceptor} (h : acceptor.recvPackLen = 0) :
    acceptor.isPackageComplete.2.recvPackLen = 0 := by
  have hread : acceptor.readRecvPackLen.2.recvPackLen = 0 := by
    unfold Acceptor.readRecvPackLen
    split <;> exact h
  unfold Acceptor.isPackageComplete
  rw [if_pos h]
  dsimp only
  split <;> exact hread

/-- The length that is passed to `TransferOneCode` is 0. -/
lemma Silent.onCnsSomeDataRecv (h : Silent ctrl) {acceptor : ProxyAcceptor} {now : Int} {stack : Nat → UInt8}
    (hlen : acceptor.recvPackLen = 0) (hrecv : ctrl.onCnsSomeDataRecv config acceptor now stack = some b) :
    Silent b := by
  have hzero := recvPackLen_isPackageComplete hlen
  unfold ProxyCtrl.onCnsSomeDataRecv at hrecv
  dsimp only at hrecv
  split at hrecv
  · cases hrecv
    exact h.modifyAcceptor fun _ => hzero
  split at hrecv
  · cases hrecv
  split at hrecv
  · rw [hzero, transferOneCode, if_pos (by decide)] at hrecv
    obtain rfl := Option.some.inj hrecv
    dsimp only
    exact h.modifyAcceptor fun _ => rfl
  · obtain rfl := Option.some.inj hrecv
    exact onlyClosed_dealRegisterMes.silent (h.modifyAcceptor fun _ => rfl)

lemma Silent.step (h : Silent a) {event : ProxyEvent} (hnet : event.fromNetwork)
    (hstep : a.step config event = some b) : Silent b := by
  cases event with
  | accept socket now =>
    unfold ProxyCtrl.step at hstep
    dsimp only at hstep
    split at hstep
    · cases hstep
    cases hstep
    unfold insertNewAcceptor
    split
    · exact h
    refine ⟨h.sent, fun other entry hentry => ?_⟩
    dsimp only at hentry
    by_cases hother : other = .singleton
    · subst hother
      rw [update_self] at hentry
      obtain rfl | hentry := mem_cons.mp hentry
      · rfl
      · exact h.recvPackLen .singleton entry hentry
    · rw [update_of_ne hother] at hentry
      exact h.recvPackLen other entry hentry
  | recv socket bytes now stack =>
    obtain ⟨acceptor, hfind, hrecv⟩ := Option.bind_eq_some_iff.mp hstep
    have hlen : ({ acceptor with input := acceptor.input ++ bytes } : ProxyAcceptor).recvPackLen = 0 :=
      h.recvPackLen _ _ (mem_of_findAcceptor hfind)
    exact h.onCnsSomeDataRecv hlen hrecv
  | transfer recvBuff nCodeLength now stack => cases hnet
  | disconnected socket =>
    obtain ⟨acceptor, -, hrest⟩ := Option.bind_eq_some_iff.mp hstep
    cases hrest
    exact onlyClosed_closed.silent h
  | timeOut now =>
    cases hstep
    exact (onlyClosed_onAcceptorTimeOut now).silent h

/-- The states of the proxy that events from the network lead to. -/
abbrev ReachedByNetwork (config : ProxyConfig α) : ProxyCtrl → Prop :=
  Runs.Reached (ProxyCtrl.step config) (fun _ event => event.fromNetwork) ProxyCtrl.start

lemma ReachedByNetwork.silent (hr : ReachedByNetwork config ctrl) : Silent ctrl :=
  hr.invariant (P := Silent) ⟨rfl, fun _ _ hentry => by cases hentry⟩ fun _ _ _ h hnet hstep => h.step hnet hstep

/-- Two servers register, and the first has a packet for the second, which is not sent when it arrives. -/
def twoServers : Runs.Given (ProxyCtrl.step (wireProxy .created)) (fun _ event => event.fromNetwork)
    ProxyCtrl.start fun ctrl =>
      ctrl.mapRegister (makeConnKey 3 7) == some 4 && ctrl.mapSocket2Key 3 == some (makeConnKey 2 7) &&
        (ctrl.findAcceptor .singleton 3).map (·.input) == some [] &&
        (ctrl.step (wireProxy .created) (.recv 3 (headPacket 2 7 3 7 3) 30 fun _ => 0)).any (·.sent == []) where
  events := [.accept 3 0, .accept 4 0, .recv 3 (headPacket 2 7 5 1 1) 10 (fun _ => 0),
    .recv 4 (headPacket 3 7 5 1 1) 20 (fun _ => 0)]
  leads := by decide +kernel

lemma exists_packetTo_second : ∃ ctrl, ReachedByNetwork (wireProxy .created) ctrl ∧
    PacketTo (wireProxy .created) ctrl 3 (headPacket 2 7 3 7 3) 4 ∧
    ∃ ctrl', ctrl.step (wireProxy .created) (.recv 3 (headPacket 2 7 3 7 3) 30 fun _ => 0) = some ctrl' ∧
      ctrl'.sent = [] := by
  obtain ⟨ctrl, hr, hctrl⟩ := twoServers.reached
  simp only [Bool.and_eq_true, beq_iff_eq, Option.any_eq_true] at hctrl
  obtain ⟨⟨⟨hdst, hsender⟩, hinput⟩, hlost⟩ := hctrl
  refine ⟨ctrl, hr, ⟨by rw [hsender]; rfl, hinput, by decide, by decide, ?_⟩, hlost⟩
  have hdecoded : (ServerCommEngine.convertStreamToMsg true (messages (wireProxy .created)) false
      ⟨ByteBlock.write ByteBuff.clear.data 0 (headPacket 2 7 3 7 3), 0, 18⟩).toOption.any (fun result =>
        makeConnKey (wireHeads.dstFe result.1.msgHead) (wireHeads.dstId result.1.msgHead) == makeConnKey 3 7) := by
    decide +kernel
  cases hmsg : ServerCommEngine.convertStreamToMsg true (messages (wireProxy .created)) false
      ⟨ByteBlock.write ByteBuff.clear.data 0 (headPacket 2 7 3 7 3), 0, 18⟩ with
  | error =>
    rw [hmsg] at hdecoded
    cases hdecoded
  | ok result =>
    rw [hmsg] at hdecoded
    refine ⟨result.1, result.2, hmsg, ?_⟩
    rw [← hdst]
    exact congrArg ctrl.mapRegister (beq_iff_eq.mp hdecoded)

end MyLibevent.Proofs
