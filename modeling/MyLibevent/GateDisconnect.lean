import MyLibevent.ClientCommEngine
import MyLibevent.CodeQueue
import MyLibevent.GateServer

/-!
# Disconnecting the clients of the gate server

`ClearSocket` and `DisConnect` of `gateserver/src/net_manager.cpp`, with the table of acceptors of
`framework/net/net_work.cpp` and the pipe to the game server. The two functions call each other; the
depth of the calls is bounded by `fuel`, and a call that goes deeper gives nothing.
-/

namespace MyLibevent

/-- A client's `CAcceptor`, with the data that identify its socket. -/
structure GateAcceptor extends Acceptor where
  socket : BitVec 32
  createTime : BitVec 64
  connected : Bool

/-- The `m_mapAcceptor` of the network, `m_C2SCodeQueue`, and the sockets that `CAcceptor::ShutDown`
has closed. -/
structure GateServer where
  mapAcceptor : BitVec 32 → Option GateAcceptor
  c2sCodeQueue : CodeQueue
  closed : List (BitVec 32)

def clientSucceed : BitVec 16 := 0

def errClientClose : BitVec 16 := BitVec.ofInt 16 (-1)

def errSendToMainSvrd : BitVec 16 := BitVec.ofInt 16 (-5)

def socketInfoBytes (socketId : BitVec 32) (createTime : BitVec 64) (state : BitVec 32) : Bytes :=
  intField 0x08 (socketId.signExtend 64) ++ intField 0x10 createTime ++ intField 0x18 (state.signExtend 64)

/-- The codec of `MessageHead`, which puts a `SocketInfo` in its second field. -/
structure GateHeads (α : Type) where
  codec : MessageCodec α
  ofSocketInfo : BitVec 32 → BitVec 64 → BitVec 32 → α
  serialize_ofSocketInfo : ∀ socketId createTime state,
    codec.serialize (ofSocketInfo socketId createTime state) =
      0x12 :: varint 10 (socketInfoBytes socketId createTime state).length ++
        socketInfoBytes socketId createTime state

namespace GateServer

def shutDownAcceptor (server : GateServer) (uId : BitVec 32) : GateServer :=
  match server.mapAcceptor uId with
  | none => server
  | some acceptor =>
    { server with
      mapAcceptor := Function.update server.mapAcceptor uId none
      closed := if acceptor.connected then server.closed ++ [acceptor.socket] else server.closed }

def sendToGame (server : GateServer) (data : Bytes) : Int × GateServer :=
  let (ret, queue) := server.c2sCodeQueue.appendOneCode data
  (ret, { server with c2sCodeQueue := queue })

variable {α : Type} (little : Bool) (heads : GateHeads α)

def disConnect (clear : GateServer → GateAcceptor → BitVec 16 → Option GateServer)
    (server : GateServer) (acceptor : GateAcceptor) (error : BitVec 16) : Option GateServer :=
  let head := heads.ofSocketInfo acceptor.socket acceptor.createTime (error.signExtend 32)
  match ClientCommEngine.convertToGameStream little heads.codec noPara ⟨head, none⟩ with
  | .error _ => some server
  | .ok buff =>
    let data := ByteBlock.read buff.data buff.readIndex (buff.writeIndex - buff.readIndex)
    let (ret, server) := server.sendToGame data
    if ret = 0 then some server else clear server acceptor errSendToMainSvrd

def clearSocket : Nat → GateServer → GateAcceptor → BitVec 16 → Option GateServer
  | 0, _, _, _ => none
  | fuel + 1, server, acceptor, error =>
    (if clientSucceed ≠ error then
      disConnect little heads (clearSocket fuel) server acceptor error
    else some server).map (·.shutDownAcceptor acceptor.socket)

/-- `ClearSocket` returns, the acceptor is gone, its socket was closed once, and no other
connection is touched. -/
def Clears (server : GateServer) (acceptor : GateAcceptor) (error : BitVec 16) : Prop :=
  ∃ fuel server', clearSocket little heads fuel server acceptor error = some server' ∧
    server'.mapAcceptor acceptor.socket = none ∧
    server'.closed = server.closed ++ [acceptor.socket] ∧
    ∀ socket ≠ acceptor.socket, server'.mapAcceptor socket = server.mapAcceptor socket

end GateServer

end MyLibevent
