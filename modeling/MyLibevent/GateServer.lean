import MyLibevent.ByteBuff

/-!
# Packets of the clients of the gate server

The receiving side of `framework/net/buffev_interface.cpp` and
`gateserver/src/net_manager.cpp`. The input of a connection is the list of bytes in its evbuffer. What is
handed over to `DealClientData` is the buffer of the manager and the number of bytes in it. A read that
does not fit into this buffer goes beyond the allocated memory; the model ends there.
-/

namespace MyLibevent

/-- `CAcceptor`: what has arrived, and the length of the current packet. -/
structure Acceptor where
  input : Bytes
  recvPackLen : UInt16

namespace Acceptor

variable (acceptor : Acceptor)

def recvData (size : Nat) : Bytes × Acceptor :=
  (acceptor.input.take size, { acceptor with input := acceptor.input.drop size })

def getRecvDataSize : Nat := acceptor.input.length % 2 ^ 32

def unShort (bytes : Bytes) : UInt16 :=
  UInt16.ofNat ((bytes.getD 0 0).toNat * 256 + (bytes.getD 1 0).toNat)

def readRecvPackLen : UInt16 × Acceptor :=
  if acceptor.getRecvDataSize < 2 then (0, acceptor)
  else (unShort (acceptor.recvData 2).1, (acceptor.recvData 2).2)

def isPackageComplete : Bool × Acceptor :=
  let (packLen, acceptor) :=
    if acceptor.recvPackLen = 0 then acceptor.readRecvPackLen else (acceptor.recvPackLen, acceptor)
  if packLen = 0 then (false, acceptor)
  else (decide ((packLen - 2).toNat ≤ acceptor.getRecvDataSize), acceptor)

def currentPackRecved : Acceptor := { acceptor with recvPackLen := 0 }

end Acceptor

/-- A connection of the gate and the packets that it has handed on. -/
structure GateConn where
  acceptor : Acceptor
  recvBuff : ByteBuff
  handed : List Bytes

namespace GateConn

def dealClientData (conn : GateConn) (lastLen : UInt16) : GateConn :=
  { conn with handed := conn.handed ++ [ByteBlock.read conn.recvBuff.data 0 lastLen.toNat] }

def recvClientData (conn : GateConn) : Option GateConn :=
  let (complete, acceptor) := conn.acceptor.isPackageComplete
  if complete = false then some { conn with acceptor := acceptor }
  else
    let packLen := acceptor.recvPackLen
    let tmpLen : Int := packLen.toNat - 2
    -- `WriteUnShort` stores the same bytes on every machine
    let buff := ByteBuff.clear.writeUnShort true packLen.toBitVec 0
    -- a negative length is a large number of bytes
    let (bytes, acceptor) := acceptor.recvData (tmpLen % 2 ^ 32).toNat
    if maxPackageLen < bytes.length then none
    else
      let buff := { buff with data := ByteBlock.write buff.data 0 bytes }
      some ({ conn with
        acceptor := acceptor.currentPackRecved
        recvBuff := buff.writeLen bytes.length }.dealClientData (UInt16.ofNat bytes.length))

def receive (conn : GateConn) (bytes : Bytes) : Option GateConn :=
  { conn with acceptor := { conn.acceptor with input := conn.acceptor.input ++ bytes } }.recvClientData

def start : GateConn := ⟨⟨[], 0⟩, ByteBuff.clear, []⟩

end GateConn

end MyLibevent
