import MyLibevent.ServerCommEngine

/-!
# Messages of the clients

`framework/net/client_comm_engine.cpp`: the streams between the gate server and the game server. The pointers that
the functions check for NULL are not NULL, and the buffers have the capacity of the default constructor.
-/

namespace MyLibevent

/-- The codec of message heads and the factory of bodies by command. -/
structure ClientMessages (α β : Type) where
  head : MessageCodec α
  cmd : α → Int
  createMessage : Int → Option (MessageCodec β)

namespace ClientCommEngine

variable {α β : Type} (little : Bool)

def writeableDataLen (buff : ByteBuff) : Int := (maxPackageLen : Int) - buff.writeIndex

def serializeTo (buff : ByteBuff) (bytes : Bytes) : ByteBuff :=
  { buff with
    data := ByteBlock.write buff.data buff.writeIndex bytes
    writeIndex := buff.writeIndex + bytes.length }

def addLen (unLength : BitVec 16) : Nat := if 0 < unLength.toNat % 8 then 8 - unLength.toNat % 8 else 0

def finishStream (buff : ByteBuff) (unLength : BitVec 16) : ByteBuff :=
  let total := unLength + BitVec.ofNat 16 (addLen unLength)
  let buff := buff.setWriteIndex 0
  let buff := buff.writeUnShort little total 0
  let buff := buff.writeUnShort little (BitVec.ofNat 16 (addLen unLength)) 0
  buff.setWriteIndex total.toNat

variable (head : MessageCodec α)

def convertToGameStreamRaw (data : Bytes) (unDataLen : BitVec 16) (msgHead : α) : Except Int ByteBuff :=
  let headBytes := head.serialize msgHead
  let unLength : BitVec 16 := 2 + 2
  let buff := ByteBuff.clear.writeUnShort little (BitVec.ofNat 16 headBytes.length) unLength.toNat
  let unLength := unLength + 2
  if writeableDataLen buff < headBytes.length then .error (-2)
  else
    let buff := serializeTo buff headBytes
    let unLength := unLength + BitVec.ofNat 16 headBytes.length
    let buff := buff.writeUnShort little unDataLen 0
    let unLength := unLength + 2
    let buff := buff.writeBytes (data.take unDataLen.toNat)
    let unLength := unLength + unDataLen
    -- `memset` of the bytes that are added
    let buff := { buff with
      data := ByteBlock.write buff.data buff.writeIndex (List.replicate (addLen unLength) 0) }
    .ok (finishStream little buff unLength)

def convertToGameStream (body : MessageCodec β) (msg : ProxyMessage α β) : Except Int ByteBuff :=
  let headBytes := head.serialize msg.msgHead
  let unLength : BitVec 16 := 2 + 2
  let unLength := unLength + 2
  let buff := ByteBuff.clear.writeUnShort little (BitVec.ofNat 16 headBytes.length) unLength.toNat
  if writeableDataLen buff - unLength.toNat < headBytes.length then .error (-1)
  else
    let buff := serializeTo buff headBytes
    let unLength := unLength + BitVec.ofNat 16 headBytes.length
    match msg.msgPara with
    | none => .ok (finishStream little buff unLength)
    | some msgPara =>
      let paraBytes := body.serialize msgPara
      if maxPackageLen < paraBytes.length then .error (-1)
      else
        let buff := buff.writeUnShort little (BitVec.ofNat 16 paraBytes.length) 0
        let unLength := unLength + 2
        let buff := buff.writeBytes paraBytes
        .ok (finishStream little buff (unLength + BitVec.ofNat 16 paraBytes.length))

variable (messages : ClientMessages α β)

/-- `ConvertStreamToMessage`. `ParseFromArray` does not set the cached size of a message, so `GetCachedSize` of
the head is what it was before. -/
def convertStreamToMessage (factory : Bool) (cachedSize : Nat) (buff : ByteBuff)
    (unBuffLen : BitVec 16) : Except Int (ProxyMessage α β × ByteBuff) :=
  let (totalLen, buff) := buff.readUnShort little
  if totalLen ≠ unBuffLen then .error (-1)
  else
    let (addLen, buff) := buff.readUnShort little
    let (headLen, buff) := buff.readUnShort little
    match messages.head.parse (ByteBlock.read buff.data buff.readIndex headLen.toNat) with
    | none => .error (-1)
    | some msgHead =>
      let buff := buff.readLen cachedSize
      let (dataLen, buff) := buff.readUnShort little
      let useLen : BitVec 16 := 2 + 2 + 2 + BitVec.ofNat 16 cachedSize + 2 + addLen
      if useLen.toNat < totalLen.toNat ∧ factory then
        match messages.createMessage (messages.cmd msgHead) with
        | none => .error (-1)
        | some body =>
          match body.parse (ByteBlock.read buff.data buff.readIndex dataLen.toNat) with
          | none => .error (-1)
          -- `ReadLen` of the cached size of a message that has just been created
          | some msgPara => .ok (⟨msgHead, some msgPara⟩, buff.readLen 0)
      else .ok (⟨msgHead, none⟩, buff)

def packageSize (body : MessageCodec β) (msgHead : α) (msgPara : β) : Nat :=
  (8 + (head.serialize msgHead).length + (body.serialize msgPara).length + 7) / 8 * 8

/-- A stream has its length at the start, in a multiple of 8, and the message is decoded from it into a new
`CMessage`. -/
def Decodes (msg : ProxyMessage α β) (buff : ByteBuff) : Prop :=
  (buff.readUnShort little).1.toNat = buff.writeIndex ∧ buff.writeIndex % 8 = 0 ∧
    ∃ buff', convertStreamToMessage little messages true 0 buff (BitVec.ofNat 16 buff.writeIndex) = .ok (msg, buff')

/-- Both forms of `ConvertToGameStream` make a stream of which the message is decoded. -/
def RoundTrip (body : MessageCodec β) (msgHead : α) (msgPara : β) : Prop :=
  (∃ buff, convertToGameStream little messages.head body ⟨msgHead, some msgPara⟩ = .ok buff ∧
    Decodes little messages ⟨msgHead, some msgPara⟩ buff) ∧
  ∃ buff, convertToGameStreamRaw little messages.head (body.serialize msgPara)
      (BitVec.ofNat 16 (body.serialize msgPara).length) msgHead = .ok buff ∧
    Decodes little messages ⟨msgHead, some msgPara⟩ buff

end ClientCommEngine

end MyLibevent
