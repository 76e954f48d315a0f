import MyLibevent.GateDisconnect
import MyLibevent.Proofs.CodeQueue

/-!
# Disconnecting the clients of the gate server does not end

The game server is told of a client that is gone. The pipe never takes the message, and `DisConnect` then
clears the same socket again.
-/

namespace MyLibevent.Proofs
open GateServer List

section Heads

variable {α : Type} (little : Bool) (heads : GateHeads α)

lemma varint_length (bytes n : Nat) : (varint bytes n).length ≤ bytes := by
  induction bytes generalizing n with
  | zero => exact Nat.le_refl 0
  | succ bytes ih =>
    unfold varint
    split
    · exact Nat.succ_le_succ (Nat.zero_le _)
    · exact Nat.succ_le_succ (ih _)

lemma socketInfoBytes_length (socketId : BitVec 32) (createTime : BitVec 64) (state : BitVec 32) :
    (socketInfoBytes socketId createTime state).length ≤ 33 := by
  have hid := varint_length 10 (socketId.signExtend 64).toNat
  have htime := varint_length 10 createTime.toNat
  have hstate := varint_length 10 (state.signExtend 64).toNat
  unfold socketInfoBytes intField
  simp only [length_append, length_cons]
  omega

lemma convertToGameStream_ofSocketInfo {β : Type} (body : MessageCodec β) (socketId : BitVec 32)
    (createTime : BitVec 64) (state : BitVec 32) :
    ∃ buff, ClientCommEngine.convertToGameStream little heads.codec body
      ⟨heads.ofSocketInfo socketId createTime state, none⟩ = .ok buff := by
  have hinfo := socketInfoBytes_length socketId createTime state
  have hlength : (heads.codec.serialize (heads.ofSocketInfo socketId createTime state)).length ≤ 44 := by
    have hvarint := varint_length 10 (socketInfoBytes socketId createTime state).length
    rw [heads.serialize_ofSocketInfo]
    simp only [length_append, length_cons]
    omega
  unfold ClientCommEngine.convertToGameStream
  dsimp only
  rw [if_neg]
  · exact ⟨_, rfl⟩
  · -- two bytes are written after the six that are left free
    change ¬ ((61440 : Int) - (8 : Nat) - (6 : Nat) < _)
    omega

end Heads

section Clear

variable {α : Type} (little : Bool) (heads : GateHeads α) (server : GateServer)
  (acceptor : GateAcceptor) {error : BitVec 16}

lemma sendToGame_fails (data : Bytes) : ∃ ret, ret ≠ 0 ∧ server.sendToGame data = (ret, server) := by
  obtain ⟨hfails, hsame⟩ := appendOneCode_fails server.c2sCodeQueue data
  refine ⟨_, hfails, ?_⟩
  unfold sendToGame
  dsimp only
  rw [hsame]

lemma disConnect_eq (clear : GateServer → GateAcceptor → BitVec 16 → Option GateServer) :
    disConnect little heads clear server acceptor error = clear server acceptor errSendToMainSvrd := by
  unfold disConnect
  dsimp only
  obtain ⟨buff, hbuff⟩ := convertToGameStream_ofSocketInfo little heads noPara
    acceptor.socket acceptor.createTime (error.signExtend 32)
  rw [hbuff]
  obtain ⟨ret, hret, hsend⟩ := sendToGame_fails server
    (ByteBlock.read buff.data buff.readIndex (buff.writeIndex - buff.readIndex))
  dsimp only
  rw [hsend]
  exact if_neg hret

lemma clearSocket_none (fuel : Nat) (herror : error ≠ clientSucceed) :
    clearSocket little heads fuel server acceptor error = none := by
  induction fuel generalizing error with
  | zero => rfl
  | succ fuel ih =>
    unfold clearSocket
    rw [if_pos herror.symm, disConnect_eq, ih (by decide)]
    rfl

variable {server acceptor}

/-- `ClearSocket` of a connected client does what it should only if the game server has asked for
it; for any other reason it does not return. -/
theorem clears_iff_clientSucceed (error : BitVec 16)
    (hfound : server.mapAcceptor acceptor.socket = some acceptor)
    (hconnected : acceptor.connected) :
    Clears little heads server acceptor error ↔ error = clientSucceed := by
  constructor
  · rintro ⟨fuel, server', hclear, -⟩
    by_contra herror
    rw [clearSocket_none little heads server acceptor fuel herror] at hclear
    cases hclear
  · rintro rfl
    refine ⟨1, server.shutDownAcceptor acceptor.socket, rfl, ?_⟩
    unfold shutDownAcceptor
    rw [hfound]
    dsimp only
    rw [if_pos hconnected]
    refine ⟨Function.update_self .., rfl, ?_⟩
    intro socket hne
    exact Function.update_of_ne hne ..

end Clear

section Example

def rawGateHeads : GateHeads Bytes where
  codec := ⟨id, some, fun _ _ => Option.some_inj.trans eq_comm⟩
  ofSocketInfo socketId createTime state :=
    0x12 :: varint 10 (socketInfoBytes socketId createTime state).length ++
      socketInfoBytes socketId createTime state
  serialize_ofSocketInfo _ _ _ := rfl

def client7 : GateAcceptor := ⟨⟨[], 0⟩, 7, 1500000000000, true⟩

def oneClient : GateServer where
  mapAcceptor := Function.update (fun _ => none) 7 (some client7)
  c2sCodeQueue := ⟨1024, codeQueueSize, 0, 0, fun _ => 0⟩
  closed := []

theorem clears_iff_clientSucceed_client7 :
    oneClient.mapAcceptor client7.socket = some client7 ∧ client7.connected ∧
      Clears true rawGateHeads oneClient client7 clientSucceed :=
  ⟨rfl, rfl, (clears_iff_clientSucceed true rawGateHeads clientSucceed rfl rfl).mpr rfl⟩

/-- The client closes its connection. -/
theorem not_clears_clientClose :
    oneClient.mapAcceptor client7.socket = some client7 ∧ client7.connected ∧
      ¬ Clears true rawGateHeads oneClient client7 errClientClose := by
  refine ⟨rfl, rfl, ?_⟩
  rintro ⟨fuel, server', hclear, -⟩
  rw [clearSocket_none true rawGateHeads oneClient client7 fuel (by decide)] at hclear
  cases hclear

end Example

end MyLibevent.Proofs
