import MyLibevent.GateServer
import MyLibevent.ServerCommEngine

/-!
# The proxy between the servers

`proxyserver/src/proxy_ctrl.cpp` with the tables of acceptors of `framework/net/net_work.cpp`. An accepted
connection is stored in the table of the singleton of `CNetWork`, while some of the functions use the network
that the constructor of `CProxyCtrl` has made; which network `m_pNetWork` is, is a parameter. A read that does not
fit into the receive buffer goes beyond the allocated memory; the model ends there.
-/

namespace MyLibevent

open Function

inductive MessageCmd
  | null
  | regist
  | keepAlive
  | logic
  deriving DecidableEq, Repr

/-- `CProxyHead`: how it is serialized, the fields that the proxy reads, and a new head with the fields that
`pbmsg_setproxy` sets. -/
structure ProxyHeads (α : Type) where
  codec : MessageCodec α
  srcFe : α → BitVec 32
  srcId : α → BitVec 32
  dstFe : α → BitVec 32
  dstId : α → BitVec 32
  opFlag : α → MessageCmd
  setProxy : BitVec 32 → BitVec 32 → BitVec 32 → BitVec 32 → BitVec 64 → MessageCmd → α

def feProxyServer : BitVec 32 := 5

/-- A server's `CAcceptor` and the time it was last heard of. -/
structure ProxyAcceptor extends Acceptor where
  socket : Nat
  lastKeepAlive : Int

/-- The singleton of `CNetWork`, or the one that `CProxyCtrl` has made. -/
inductive NetWork
  | singleton
  | created
  deriving DecidableEq, Repr

/-- What does not change while the proxy runs: the messages, the order of the bytes of the machine, the id of the
proxy and the time of keep-alive of the configuration, and `m_pNetWork`. -/
structure ProxyConfig (α : Type) where
  heads : ProxyHeads α
  little : Bool
  serverId : BitVec 32
  tcpKeepAlive : Int
  pNetWork : NetWork

/-- `CProxyCtrl` with the `m_mapAcceptor` of the networks, and the data that has been written to sockets. -/
structure ProxyCtrl where
  mapRegister : BitVec 32 → Option Nat
  mapSocket2Key : Nat → Option (BitVec 32)
  mapAcceptor : NetWork → List (Nat × ProxyAcceptor)
  sent : List (Nat × Bytes)

namespace ProxyCtrl

def start : ProxyCtrl := ⟨fun _ => none, fun _ => none, fun _ => [], []⟩

variable (ctrl : ProxyCtrl)

def findAcceptor (netWork : NetWork) (socket : Nat) : Option ProxyAcceptor :=
  (ctrl.mapAcceptor netWork).lookup socket

def insertNewAcceptor (netWork : NetWork) (socket : Nat) (acceptor : ProxyAcceptor) : ProxyCtrl :=
  if (ctrl.findAcceptor netWork socket).isSome then ctrl
  else { ctrl with
    mapAcceptor := update ctrl.mapAcceptor netWork ((socket, acceptor) :: ctrl.mapAcceptor netWork) }

def shutDownAcceptor (netWork : NetWork) (socket : Nat) : ProxyCtrl :=
  { ctrl with
    mapAcceptor := update ctrl.mapAcceptor netWork
      ((ctrl.mapAcceptor netWork).filter fun entry => entry.1 ≠ socket) }

def modifyAcceptor (netWork : NetWork) (socket : Nat) (f : ProxyAcceptor → ProxyAcceptor) : ProxyCtrl :=
  { ctrl with
    mapAcceptor := update ctrl.mapAcceptor netWork
      ((ctrl.mapAcceptor netWork).map fun entry => if entry.1 = socket then (entry.1, f entry.2) else entry) }

def unregister (socket : Nat) : ProxyCtrl :=
  match ctrl.mapSocket2Key socket with
  | none => ctrl
  | some key => { ctrl with
      mapRegister := update ctrl.mapRegister key none
      mapSocket2Key := update ctrl.mapSocket2Key socket none }

def makeConnKey (nType nId : BitVec 32) : BitVec 32 :=
  ((nType.setWidth 16).signExtend 32 <<< 16) ||| (nId.setWidth 16).signExtend 32

variable (netWork : NetWork)

def closeConnection (ctrl : ProxyCtrl) (socket : Nat) : ProxyCtrl :=
  (ctrl.unregister socket).shutDownAcceptor netWork socket

def getConnByKey (ctrl : ProxyCtrl) (key : BitVec 32) : Option (Nat × ProxyAcceptor) := do
  let socket ← ctrl.mapRegister key
  let acceptor ← ctrl.findAcceptor netWork socket
  return (socket, acceptor)

def send (socket : Nat) (code : Bytes) : Int × ProxyCtrl :=
  if maxPackageLen < code.length then (-2, ctrl)
  else (0, { ctrl with sent := ctrl.sent ++ [(socket, code)] })

def sendOneCodeTo (ctrl : ProxyCtrl) (nCodeLength : BitVec 16) (code : Nat → UInt8)
    (key : BitVec 32) (keepAlive : Bool) (now : Int) : Int × ProxyCtrl :=
  if nCodeLength.toInt ≤ 0 then (-1, ctrl)
  else
    match ctrl.getConnByKey netWork key with
    | none => (-1, ctrl)
    | some (socket, _) =>
      let (ret, ctrl) := ctrl.send socket (ByteBlock.read code 0 nCodeLength.toInt.toNat)
      if ret = 0 ∧ keepAlive then
        (ret, ctrl.modifyAcceptor netWork socket fun acceptor => { acceptor with lastKeepAlive := now })
      else (ret, ctrl)

section Config

variable {α : Type} (config : ProxyConfig α)
variable (ctrl : ProxyCtrl)

/-- The end of `DealRegisterMes`: the connection is registered if its key is free, and closed otherwise. -/
def regist (socket : Nat) (srcFe srcId : BitVec 32) : Int × ProxyCtrl :=
  let key := makeConnKey srcFe srcId
  if (ctrl.mapRegister key).isSome then (-1, ctrl.closeConnection config.pNetWork socket)
  else
    (0, { ctrl with
      mapRegister := update ctrl.mapRegister key (some socket)
      mapSocket2Key :=
        if (ctrl.mapSocket2Key socket).isSome then ctrl.mapSocket2Key
        else update ctrl.mapSocket2Key socket (some key) })

def dealRegisterMes (socket : Nat) (recvBuff : ByteBuff) : Int × ProxyCtrl :=
  match ServerCommEngine.convertStreamToProxy config.little config.heads.codec recvBuff with
  | .error _ => (-1, ctrl)
  | .ok (head, _) =>
    if config.heads.dstFe head ≠ feProxyServer ∨ config.heads.dstId head ≠ config.serverId ∨
        config.heads.opFlag head ≠ .regist then
      (-1, ctrl.closeConnection config.pNetWork socket)
    else ctrl.regist config socket (config.heads.srcFe head) (config.heads.srcId head)

def messages : ServerMessages α Empty := ⟨config.heads.codec, fun _ => 0, fun _ => none⟩

/-- The answer to a keep-alive: `ConvertMsgToStream` to a buffer on the stack and `SendOneCodeTo`. -/
def answerKeepAlive (head : α) (now : Int) (stack : Nat → UInt8) : ProxyCtrl :=
  let answer := config.heads.setProxy feProxyServer config.serverId (config.heads.srcFe head)
    (config.heads.srcId head) (BitVec.ofInt 64 now) .keepAlive
  match ServerCommEngine.convertMsgToStream config.little config.heads.codec noPara ⟨answer, none⟩ stack 1024 with
  | .error _ => ctrl
  | .ok (buffer, totalLen) =>
    (ctrl.sendOneCodeTo config.pNetWork totalLen buffer
      (makeConnKey (config.heads.srcFe head) (config.heads.srcId head)) true now).2

def transferOneCode (recvBuff : ByteBuff) (nCodeLength : BitVec 16) (now : Int)
    (stack : Nat → UInt8) : Int × ProxyCtrl :=
  if nCodeLength.toNat ≤ 0 then (-1, ctrl)
  else
    match ServerCommEngine.convertStreamToMsg config.little (messages config) false recvBuff with
    | .error _ => (-1, ctrl)
    | .ok (msg, _) =>
      if config.heads.dstFe msg.msgHead = feProxyServer then
        match config.heads.opFlag msg.msgHead with
        | .keepAlive => (0, ctrl.answerKeepAlive config msg.msgHead now stack)
        | _ => (0, ctrl)
      else
        let recvBuff := recvBuff.setReadIndex 0
        (0, (ctrl.sendOneCodeTo config.pNetWork nCodeLength (fun i => recvBuff.data (recvBuff.readIndex + i))
          (makeConnKey (config.heads.dstFe msg.msgHead) (config.heads.dstId msg.msgHead)) true now).2)

def onCnsSomeDataRecv (acceptor : ProxyAcceptor) (now : Int) (stack : Nat → UInt8) : Option ProxyCtrl :=
  let socket := acceptor.socket
  let (complete, base) := acceptor.toAcceptor.isPackageComplete
  if complete = false then
    some (ctrl.modifyAcceptor .singleton socket fun acceptor => { acceptor with toAcceptor := base })
  else
    let packLen := base.recvPackLen
    let recvBuff := ByteBuff.clear.writeUnShort config.little packLen.toBitVec 0
    let dataLen := packLen - 2
    let (bytes, base) := base.recvData dataLen.toNat
    if maxPackageLen < recvBuff.writeIndex + bytes.length then none
    else
      let recvBuff := { recvBuff with data := ByteBlock.write recvBuff.data recvBuff.writeIndex bytes }
      let recvBuff := recvBuff.writeLen dataLen.toNat
      let ctrl := ctrl.modifyAcceptor .singleton socket fun acceptor =>
        { acceptor with toAcceptor := base.currentPackRecved }
      if (ctrl.mapSocket2Key socket).isSome then
        some (ctrl.transferOneCode config recvBuff packLen.toBitVec now stack).2
      else some (ctrl.dealRegisterMes config socket recvBuff).2

def onCnsDisconnected (socket : Nat) : ProxyCtrl :=
  (ctrl.unregister socket).shutDownAcceptor .singleton socket

def closeTimedOut (now : Int) : List (Nat × ProxyAcceptor) → ProxyCtrl → List (Nat × ProxyAcceptor) × ProxyCtrl
  | [], ctrl => ([], ctrl)
  | entry :: entries, ctrl =>
    if config.tcpKeepAlive < now - entry.2.lastKeepAlive then
      closeTimedOut now entries (ctrl.unregister entry.2.socket)
    else
      let (kept, ctrl) := closeTimedOut now entries ctrl
      (entry :: kept, ctrl)

def onAcceptorTimeOut (now : Int) : ProxyCtrl :=
  let (kept, ctrl) := closeTimedOut config now (ctrl.mapAcceptor config.pNetWork) ctrl
  { ctrl with mapAcceptor := update ctrl.mapAcceptor config.pNetWork kept }

def Connected (socket : Nat) : Prop :=
  socket ∈ (ctrl.mapAcceptor .singleton ++ ctrl.mapAcceptor .created).map Prod.fst

instance (ctrl : ProxyCtrl) (socket : Nat) : Decidable (ctrl.Connected socket) :=
  inferInstanceAs (Decidable (socket ∈ (ctrl.mapAcceptor .singleton ++ ctrl.mapAcceptor .created).map Prod.fst))

end Config

end ProxyCtrl

/-- What happens to the proxy. `transfer` is a call of `TransferOneCode` with any length, which
`lcb_OnCnsSomeDataRecv` does not make. -/
inductive ProxyEvent
  | accept (socket : Nat) (now : Int)
  | recv (socket : Nat) (bytes : Bytes) (now : Int) (stack : Nat → UInt8)
  | transfer (recvBuff : ByteBuff) (nCodeLength : BitVec 16) (now : Int) (stack : Nat → UInt8)
  | disconnected (socket : Nat)
  | timeOut (now : Int)

def ProxyEvent.fromNetwork : ProxyEvent → Bool
  | .transfer .. => false
  | _ => true

namespace ProxyCtrl

/-- A new connection has a descriptor that is not in use, and other events are those of connections. -/
def step {α : Type} (config : ProxyConfig α) (ctrl : ProxyCtrl) : ProxyEvent → Option ProxyCtrl
  | .accept socket now =>
    if ctrl.Connected socket then none
    else some (ctrl.insertNewAcceptor .singleton socket ⟨⟨[], 0⟩, socket, now⟩)
  | .recv socket bytes now stack => do
    let acceptor ← ctrl.findAcceptor .singleton socket
    ctrl.onCnsSomeDataRecv config { acceptor with input := acceptor.input ++ bytes } now stack
  | .transfer recvBuff nCodeLength now stack => some (ctrl.transferOneCode config recvBuff nCodeLength now stack).2
  | .disconnected socket => do
    let acceptor ← ctrl.findAcceptor .singleton socket
    return ctrl.onCnsDisconnected acceptor.socket
  | .timeOut now => some (ctrl.onAcceptorTimeOut config now)

section Delivery

variable {α : Type} (config : ProxyConfig α)

/-- The bytes are a packet within the limit, and the server that it is addressed to is registered with the socket
`dst`. They arrive on a registered connection of which nothing else is to be read. -/
structure PacketTo (ctrl : ProxyCtrl) (socket : Nat) (packet : Bytes) (dst : Nat) : Prop where
  sender : (ctrl.mapSocket2Key socket).isSome
  input : (ctrl.findAcceptor .singleton socket).map (·.input) = some []
  length : packet.length ≤ maxPackageLen
  total : (Acceptor.unShort packet).toNat = packet.length
  registered : ∃ msg buff, ServerCommEngine.convertStreamToMsg config.little (messages config) false
    ⟨ByteBlock.write ByteBuff.clear.data 0 packet, 0, packet.length⟩ = .ok (msg, buff) ∧
      ctrl.mapRegister (makeConnKey (config.heads.dstFe msg.msgHead) (config.heads.dstId msg.msgHead)) = some dst

/-- Every packet to a registered server is sent as it is to the socket of the server and to no other. -/
def Delivers (ctrl : ProxyCtrl) : Prop :=
  ∀ socket packet dst now stack, PacketTo config ctrl socket packet dst →
    ∃ ctrl', ctrl.step config (.recv socket packet now stack) = some ctrl' ∧ ctrl'.sent = ctrl.sent ++ [(dst, packet)]

end Delivery

end ProxyCtrl

end MyLibevent
