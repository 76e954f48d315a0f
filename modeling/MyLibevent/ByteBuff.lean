import MyLibevent.Bytes
import MyLibevent.Lib.ByteBlock
import MyLibevent.Lib.WordBytes

/-!
# Buffers of bytes

`CByteBuff` of `framework/net/byte_buff.cpp`. The memory of a buffer is a function of the index, so that the
model says nothing about indices beyond the capacity. A word of a C++ type is the number of its bits; signed
and unsigned types of one size have the same bytes.
-/

namespace MyLibevent

def maxPackageLen : Nat := 1024 * 60

/-- `CByteBuff`: the memory and the two indices into it. -/
structure ByteBuff where
  data : Nat → UInt8
  readIndex : Nat
  writeIndex : Nat

namespace ByteBuff

def clear : ByteBuff := ⟨fun _ => 0, 0, 0⟩

variable (buff : ByteBuff)

def writeLen (len : Nat) : ByteBuff := { buff with writeIndex := buff.writeIndex + len }

def readLen (len : Nat) : ByteBuff := { buff with readIndex := buff.readIndex + len }

def setWriteIndex (index : Nat) : ByteBuff := { buff with writeIndex := index }

def setReadIndex (index : Nat) : ByteBuff := { buff with readIndex := index }

section Machine

-- `m_bIsLittleEndian`
variable (little : Bool)

def stored (width value : Nat) : Bytes :=
  if little then WordBytes.bytes width value else (WordBytes.bytes width value).reverse

def loaded (bytes : Bytes) : Nat :=
  if little then WordBytes.value bytes else WordBytes.value bytes.reverse

def flip (bytes : Bytes) : Bytes := if little then bytes.reverse else bytes

def writeT (width : Nat) (buff : ByteBuff) (value offset : Nat) : ByteBuff :=
  let index := buff.writeIndex + offset
  { buff with
    data := ByteBlock.write buff.data index (flip little (stored little width value))
    writeIndex := index + width }

def readT (width : Nat) (buff : ByteBuff) : Nat × ByteBuff :=
  (loaded little (flip little (ByteBlock.read buff.data buff.readIndex width)), buff.readLen width)

variable (buff : ByteBuff)

def writeShort (value : BitVec 16) (offset : Nat) : ByteBuff :=
  writeT little 2 buff value.toNat offset

def writeInt (value : BitVec 32) (offset : Nat) : ByteBuff :=
  writeT little 4 buff value.toNat offset

def writeLong (value : BitVec 64) (offset : Nat) : ByteBuff :=
  writeT little 8 buff value.toNat offset

def writeLongLong (value : BitVec 64) (offset : Nat) : ByteBuff :=
  writeT little 8 buff value.toNat offset

def writeUnShort (value : BitVec 16) (offset : Nat) : ByteBuff :=
  writeT little 2 buff value.toNat offset

def writeUnInt (value : BitVec 32) (offset : Nat) : ByteBuff :=
  writeT little 2 buff (value.setWidth 16).toNat offset

def writeUnLong (value : BitVec 64) (offset : Nat) : ByteBuff :=
  writeT little 8 buff value.toNat offset

def writeUnLongLong (value : BitVec 64) (offset : Nat) : ByteBuff :=
  writeT little 8 buff value.toNat offset

def readShort : BitVec 16 × ByteBuff :=
  let (value, buff) := readT little 2 buff
  (BitVec.ofNat 16 value, buff)

def readInt : BitVec 32 × ByteBuff :=
  let (value, buff) := readT little 4 buff
  (BitVec.ofNat 32 value, buff)

def readLong : BitVec 64 × ByteBuff :=
  let (value, buff) := readT little 8 buff
  (BitVec.ofNat 64 value, buff)

def readLongLong : BitVec 64 × ByteBuff :=
  let (value, buff) := readT little 8 buff
  (BitVec.ofNat 64 value, buff)

def readUnShort : BitVec 16 × ByteBuff :=
  let (value, buff) := readT little 2 buff
  (BitVec.ofNat 16 value, buff)

def readUnInt : BitVec 32 × ByteBuff :=
  let (value, buff) := readT little 4 buff
  (BitVec.ofNat 32 value, buff)

def readUnLong : BitVec 64 × ByteBuff :=
  let (value, buff) := readT little 8 buff
  (BitVec.ofNat 64 value, buff)

def readUnLongLong : BitVec 64 × ByteBuff :=
  let (value, buff) := readT little 8 buff
  (BitVec.ofNat 64 value, buff)

end Machine

def writeBytes (bytes : Bytes) : ByteBuff :=
  { buff with data := ByteBlock.write buff.data 0 bytes, writeIndex := buff.writeIndex + bytes.length }

def readBytes (len : Nat) : Bytes × ByteBuff :=
  (ByteBlock.read buff.data buff.readIndex len, buff.readLen len)

end ByteBuff

/-- The types of fixed size that can be written and read. -/
inductive WordType
  | short
  | int
  | long
  | longLong
  | unShort
  | unInt
  | unLong
  | unLongLong
  deriving DecidableEq, Repr

def WordType.size : WordType → Nat
  | short => 2
  | int => 4
  | long => 8
  | longLong => 8
  | unShort => 2
  | unInt => 4
  | unLong => 8
  | unLongLong => 8

inductive BuffValue
  | word (type : WordType) (value : BitVec (8 * type.size))
  | bytes (data : Bytes)

inductive BuffType
  | word (type : WordType)
  | bytes (len : Nat)

def BuffValue.type : BuffValue → BuffType
  | word type _ => .word type
  | bytes data => .bytes data.length

namespace ByteBuff

section Values

variable (little : Bool)
variable (buff : ByteBuff)

def writeValue : BuffValue → ByteBuff
  | .word .short value => buff.writeShort little value 0
  | .word .int value => buff.writeInt little value 0
  | .word .long value => buff.writeLong little value 0
  | .word .longLong value => buff.writeLongLong little value 0
  | .word .unShort value => buff.writeUnShort little value 0
  | .word .unInt value => buff.writeUnInt little value 0
  | .word .unLong value => buff.writeUnLong little value 0
  | .word .unLongLong value => buff.writeUnLongLong little value 0
  | .bytes data => buff.writeBytes data

def readWord : (type : WordType) → BitVec (8 * type.size) × ByteBuff
  | .short => buff.readShort little
  | .int => buff.readInt little
  | .long => buff.readLong little
  | .longLong => buff.readLongLong little
  | .unShort => buff.readUnShort little
  | .unInt => buff.readUnInt little
  | .unLong => buff.readUnLong little
  | .unLongLong => buff.readUnLongLong little

def readValue : BuffType → BuffValue × ByteBuff
  | .word type =>
    let (value, buff) := buff.readWord little type
    (.word type value, buff)
  | .bytes len =>
    let (data, buff) := buff.readBytes len
    (.bytes data, buff)

def writeValues (values : List BuffValue) : ByteBuff := values.foldl (writeValue little) buff

def readValues (buff : ByteBuff) : List BuffType → List BuffValue × ByteBuff
  | [] => ([], buff)
  | type :: types =>
    let (value, buff) := buff.readValue little type
    let (values, buff) := readValues buff types
    (value :: values, buff)

/-- Values that are written to a fresh buffer are read again, and nothing is left to read. The constructors fill
the memory with zeros or with given bytes. -/
def RoundTrips (memory : Nat → UInt8) (values : List BuffValue) : Prop :=
  let (values', buff) := ((⟨memory, 0, 0⟩ : ByteBuff).writeValues little values).readValues little
    (values.map BuffValue.type)
  values' = values ∧ buff.readIndex = buff.writeIndex

end Values

end ByteBuff

end MyLibevent
