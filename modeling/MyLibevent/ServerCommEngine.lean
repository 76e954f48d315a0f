import MyLibevent.ByteBuff

/-!
# Messages between servers

`framework/net/server_comm_engine.cpp`. The messages of protobuf are a parameter: a type of messages with
functions to serialize and to parse them. A message stands for its wire bytes: other bytes that the generated
parser takes for the same values are another message. The pointers that the functions check for NULL are not NULL.
-/

namespace MyLibevent

/-- `SerializeToArray` and `ParseFromArray` of a type of messages. `GetCachedSize` after `ByteSize` is the number
of the serialized bytes. -/
structure MessageCodec (α : Type) where
  serialize : α → Bytes
  parse : Bytes → Option α
  inverse : ∀ bytes message, parse bytes = some message ↔ serialize message = bytes

def noPara : MessageCodec Empty := ⟨fun _ => [], fun _ => none, by intro _ message; cases message⟩

section Wire

/-- A number in the wire format of the messages, which has at most the given number of bytes. -/
def varint : Nat → Nat → Bytes
  | 0, _ => []
  | bytes + 1, n =>
    if n < 128 then [UInt8.ofNat n] else UInt8.ofNat (n % 128 + 128) :: varint bytes (n / 128)

def intField (tag : UInt8) (value : BitVec 64) : Bytes := tag :: varint 10 value.toNat

/-- The number at the start, which has at most the given number of bytes, and what follows it. -/
def readVarint : Nat → Bytes → Option (Nat × Bytes)
  | 0, _ => none
  | _ + 1, [] => none
  | bytes + 1, c :: rest =>
    if c.toNat < 128 then some (c.toNat, rest)
    else (readVarint bytes rest).map fun (n, rest) => (c.toNat - 128 + 128 * n, rest)

/-- The fields of a message all of whose fields are numbers, with at most so many fields. -/
def readFields (allowed : UInt8 → Nat → Bool) : Nat → Bytes → Option (List (UInt8 × Nat))
  | _, [] => some []
  | 0, _ :: _ => none
  | fuel + 1, tag :: rest =>
    match readVarint 10 rest with
    | none => none
    | some (value, rest) =>
      if allowed tag value then (readFields allowed fuel rest).map ((tag, value) :: ·) else none

/-- A type of messages by the fields and values that it can have and the fields that it has to have. -/
structure WireFormat where
  allowed : UInt8 → Nat → Bool
  required : Bytes

namespace WireFormat

variable (format : WireFormat)

def fields (bytes : Bytes) : Option (List (UInt8 × Nat)) :=
  readFields format.allowed bytes.length bytes

def accepts (bytes : Bytes) : Bool :=
  (format.fields bytes).any fun fields => format.required.all (fields.map Prod.fst).contains

abbrev Message : Type := { bytes : Bytes // format.accepts bytes = true }

def codec : MessageCodec format.Message where
  serialize := Subtype.val
  parse bytes := if h : format.accepts bytes then some ⟨bytes, h⟩ else none
  inverse := by
    intro bytes message
    constructor
    · intro h
      split at h
      · exact congrArg Subtype.val (Option.some.inj h).symm
      · cases h
    · rintro rfl
      exact dif_pos message.2

/-- The last value that a message has for a field. -/
def Message.field {format : WireFormat} (message : format.Message) (tag : UInt8) : Nat :=
  (((format.fields message.1).getD []).reverse.lookup tag).getD 0

end WireFormat

/-- The numbers of `CProxyHead`; the last two are optional. -/
def proxyHeadFormat : WireFormat where
  allowed tag value := [0x08, 0x10, 0x18, 0x20, 0x28, 0x38].contains tag || tag == 0x30 && value < 4
  required := [0x08, 0x10, 0x18, 0x20, 0x28]

/-- The numbers of `CMesHead`: `opFlag`, and the optional ones. -/
def mesHeadFormat : WireFormat where
  allowed tag value := [0x18, 0x20, 0x28].contains tag || tag == 0x08 && value < 4
  required := [0x08]

/-- The numbers of `CSocketInfo`. -/
def socketInfoFormat : WireFormat where
  allowed tag _ := [0x08, 0x10, 0x18].contains tag
  required := []

end Wire

/-- A `CProxyMessage` or a `CMessage`. -/
structure ProxyMessage (α β : Type) where
  msgHead : α
  msgPara : Option β

/-- The messages between servers: the heads, and the factory that makes a body for the id in a head. -/
structure ServerMessages (α β : Type) where
  head : MessageCodec α
  messageId : α → Int
  createMessage : Int → Option (MessageCodec β)

namespace ServerCommEngine

variable {α β : Type}

section Machine

variable (little : Bool)

def storeUnShort (memory : Nat → UInt8) (pos value : Nat) : Nat → UInt8 :=
  ByteBlock.write memory pos (ByteBuff.stored little 2 value)

def finishStream (memory : Nat → UInt8) (len : BitVec 16) : (Nat → UInt8) × BitVec 16 :=
  let addLen := if 0 < len.toNat % 8 then 8 - len.toNat % 8 else 0
  let memory := storeUnShort little memory 0 (len.toNat + addLen)
  let memory := storeUnShort little memory 2 addLen
  (memory, BitVec.ofNat 16 (len.toNat + addLen))

def convertMsgToStream (head : MessageCodec α) (body : MessageCodec β) (msg : ProxyMessage α β)
    (memory : Nat → UInt8) (buffLen : BitVec 16) : Except Int ((Nat → UInt8) × BitVec 16) :=
  if buffLen.toNat < 8 then .error (-1)
  else
    let headBytes := head.serialize msg.msgHead
    let memory := storeUnShort little memory 4 headBytes.length
    let len : BitVec 16 := 6
    if (buffLen.toNat : Int) - len.toNat < headBytes.length then .error (-2)
    else
      let memory := ByteBlock.write memory 6 headBytes
      let len := len + BitVec.ofNat 16 headBytes.length
      match msg.msgPara with
      | none => .ok (finishStream little memory len)
      | some msgPara =>
        let paraBytes := body.serialize msgPara
        let memory := storeUnShort little memory (6 + headBytes.length) paraBytes.length
        let len := len + 2
        if (buffLen.toNat : Int) - len.toNat < paraBytes.length then .error (-5)
        else
          let memory := ByteBlock.write memory (8 + headBytes.length) paraBytes
          .ok (finishStream little memory (len + BitVec.ofNat 16 paraBytes.length))

/-- `ConvertStreamToProxy`, with what is left of the total length. The test for a negative length does not hold
for an `unsigned short`. -/
def convertStreamToProxy (head : MessageCodec α) (buff : ByteBuff) : Except Int (α × BitVec 16 × ByteBuff) :=
  let (totalLen, buff) := buff.readUnShort little
  let (addLen, buff) := buff.readUnShort little
  if 8 ≤ addLen.toNat then .error (-3)
  else
    let (tmpLen, buff) := buff.readUnShort little
    match head.parse (ByteBlock.read buff.data buff.readIndex tmpLen.toNat) with
    | none => .error (-4)
    | some msgHead => .ok (msgHead, totalLen - 2 - 2 - addLen - 2 - tmpLen, buff.readLen tmpLen.toNat)

variable (messages : ServerMessages α β)

def convertPara (factory : Bool) (msgHead : α) (totalLen : BitVec 16)
    (buff : ByteBuff) : Except Int (ProxyMessage α β × ByteBuff) :=
  if totalLen = 0 then .ok (⟨msgHead, none⟩, buff)
  else
    let (tmpLen, buff) := buff.readUnShort little
    if totalLen - 2 ≠ tmpLen then .error (-7)
    else if factory = false then .ok (⟨msgHead, none⟩, buff)
    else
      match messages.createMessage (messages.messageId msgHead) with
      | none => .error (-8)
      | some body =>
        match body.parse (ByteBlock.read buff.data buff.readIndex tmpLen.toNat) with
        | none => .error (-9)
        | some msgPara => .ok (⟨msgHead, some msgPara⟩, buff.readLen tmpLen.toNat)

def convertStreamToMsg (factory : Bool) (buff : ByteBuff) : Except Int (ProxyMessage α β × ByteBuff) := do
  let (msgHead, totalLen, buff) ← convertStreamToProxy little messages.head buff
  convertPara little messages factory msgHead totalLen buff

/-- A message is encoded, the bytes are received in a buffer and decoded again, with the same total length. -/
def RoundTrip (body : MessageCodec β) (msg : ProxyMessage α β)
    (memory : Nat → UInt8) (buffLen : BitVec 16) : Prop :=
  ∃ memory' len, convertMsgToStream little messages.head body msg memory buffLen = .ok (memory', len) ∧
    let buff : ByteBuff := ⟨ByteBlock.write ByteBuff.clear.data 0 (ByteBlock.read memory' 0 len.toNat), 0, len.toNat⟩
    (buff.readUnShort little).1 = len ∧ ∃ buff', convertStreamToMsg little messages true buff = .ok (msg, buff')

variable (buff : ByteBuff)

/-- The number that a decoder reads at a distance from the start. -/
def lengthAt (pos : Nat) : BitVec 16 := ((buff.readLen pos).readUnShort little).1

def headLen : Nat := (lengthAt little buff 4).toNat

/-- What is left of the total length for the body. -/
def leftLen : BitVec 16 :=
  lengthAt little buff 0 - 2 - 2 - lengthAt little buff 2 - 2 - lengthAt little buff 4

/-- The end of the last length that `ConvertStreamToMsg` reads, and of what the length is for. -/
def lengthsEnd : Nat :=
  if leftLen little buff = 0 then 6 + headLen little buff
  else 8 + headLen little buff + (lengthAt little buff (6 + headLen little buff)).toNat

/-- A decoder that succeeds stays within the declared total length. So many bytes are given, the lengths that it
reads add up to no more, and no byte behind the total has an influence on the result. -/
def Contained {γ δ : Type} (decode : ByteBuff → Except Int (γ × δ)) (lengths : Nat) : Prop :=
  ∀ result, decode buff = .ok result →
    let total := (lengthAt little buff 0).toNat
    total ≤ buff.writeIndex - buff.readIndex ∧ lengths ≤ total ∧
      ∀ data : Nat → UInt8, (∀ i < total, data (buff.readIndex + i) = buff.data (buff.readIndex + i)) →
        ∃ rest, decode { buff with data := data } = .ok (result.1, rest)

end Machine

def contentSize (head : MessageCodec α) (body : MessageCodec β) (msg : ProxyMessage α β) : Nat :=
  6 + (head.serialize msg.msgHead).length + (match msg.msgPara with
    | none => 0
    | some msgPara => 2 + (body.serialize msgPara).length)

def packageSize (head : MessageCodec α) (body : MessageCodec β) (msg : ProxyMessage α β) : Nat :=
  (contentSize head body msg + 7) / 8 * 8

end ServerCommEngine

end MyLibevent
