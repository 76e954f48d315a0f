import MyLibevent.Bytes
import MyLibevent.Lib.ByteBlock

/-!
# The queue of codes in shared memory

`CCodeQueue` of `framework/mem/code_queue.cpp`: a ring of bytes between one process that appends
codes and one that takes them. The pointers to a code and to the place for it are not NULL; the memory
of the ring, at `GetPipeAddr`, is a function of the index.
-/

namespace MyLibevent

def queueReserveLength : Int := 8

def codeQueueSize : Int := 32

/-- `CCodeQueue`: the indices and the ring of bytes. -/
structure CodeQueue where
  size : Int
  codeBufOffSet : Int
  readIndex : Int
  writeIndex : Int
  codeBuf : Nat → UInt8

namespace CodeQueue

/-- `Initialize`, where the shared memory has room; it fails for a size that is not positive. -/
def initializeQueue (nTotalSize : Int) (memory : Nat → UInt8) : Option CodeQueue :=
  if nTotalSize ≤ 0 then none
  else some {
    size := nTotalSize
    codeBufOffSet := codeQueueSize
    readIndex := 0
    writeIndex := 0
    codeBuf := memory }

variable (q : CodeQueue)

def setCriticalData (readIndex writeIndex : Int) : CodeQueue :=
  { q with
    readIndex := if 0 ≤ readIndex ∧ readIndex < q.size then readIndex else q.readIndex
    writeIndex := if 0 ≤ writeIndex ∧ writeIndex < q.size then writeIndex else q.writeIndex }

def getCanReadLen : Int :=
  if q.readIndex = q.writeIndex then 0
  else if q.readIndex < q.writeIndex then q.writeIndex - q.readIndex
  else q.size - (q.readIndex - q.writeIndex)

def unused : Int :=
  if q.readIndex = q.writeIndex then q.size
  else if q.readIndex > q.writeIndex then q.readIndex - q.writeIndex
  else q.size - q.writeIndex + q.readIndex

def getCanWriteLen : Int := q.unused - queueReserveLength

def isQueueFull : Bool := !decide (0 < q.unused - queueReserveLength)

/-- The `memcpy` of a code into the ring, in two parts if it does not fit before the end. -/
def copyIn (code : Bytes) : Nat → UInt8 :=
  let tail := (q.size - q.writeIndex).toNat
  if q.readIndex > q.writeIndex then ByteBlock.write q.codeBuf q.writeIndex.toNat code
  else if code.length > q.size - q.writeIndex then
    ByteBlock.write (ByteBlock.write q.codeBuf q.writeIndex.toNat (code.take tail)) 0 (code.drop tail)
  else ByteBlock.write q.codeBuf q.writeIndex.toNat code

def appendOneCode (code : Bytes) : Int × CodeQueue :=
  let inLength : Int := code.length
  if inLength ≤ 0 then (-1, q)
  else if q.codeBufOffSet ≤ 0 ∨ q.size ≤ 0 then (-1, q)
  else if q.isQueueFull then (-2, q)
  else if q.readIndex < 0 ∨ q.readIndex ≥ q.size ∨ q.writeIndex < 0 ∨ q.writeIndex ≥ q.size then (-3, q)
  else
    let maxLength := 0 - q.getCanWriteLen
    if inLength > maxLength ∨ inLength > 0xFFFF then (-2, q)
    else
      let q' := { q with codeBuf := q.copyIn code }
      (0, q'.setCriticalData (-1) ((q.writeIndex + inLength).tmod q.size))

def headLength : Int := (q.codeBuf 0).toNat * 256 + (q.codeBuf 1).toNat

def copyOut (outLength : Int) : Bytes :=
  if q.readIndex < q.writeIndex then ByteBlock.read q.codeBuf q.readIndex.toNat outLength.toNat
  else if q.size - q.readIndex < outLength then
    ByteBlock.read q.codeBuf q.readIndex.toNat (q.size - q.readIndex).toNat ++
      ByteBlock.read q.codeBuf 0 (outLength - (q.size - q.readIndex)).toNat
  else ByteBlock.read q.codeBuf q.readIndex.toNat outLength.toNat

def getHeadCode : Int × Bytes × CodeQueue :=
  if q.codeBufOffSet ≤ 0 ∨ q.size ≤ 0 then (-1, [], q)
  else
    let maxLength := q.getCanReadLen
    if maxLength = 0 then (-2, [], q)
    else if maxLength < 2 then (-3, [], q.setCriticalData q.writeIndex (-1))
    else
      let outLength := q.headLength
      if outLength > maxLength - 2 then (-3, [], q.setCriticalData q.writeIndex (-1))
      else (0, q.copyOut outLength, q.setCriticalData ((q.readIndex + outLength).tmod q.size) (-1))

/-- `PeekHeadCode`, which subtracts the readable length from zero; `maxLength < sizeof(unsigned short)` is a
comparison of unsigned numbers. -/
def peekHeadCode : Int × Bytes × CodeQueue :=
  if q.codeBufOffSet ≤ 0 ∨ q.size ≤ 0 then (-1, [], q)
  else
    let maxLength := 0 - q.getCanReadLen
    if maxLength = 0 then (-2, [], q)
    else if 0 ≤ maxLength ∧ maxLength < 2 then (-3, [], q)
    else
      let outLength := q.headLength
      if outLength > maxLength then (-3, [], q) else (0, q.copyOut outLength, q)

def isQueueEmpty : Bool := decide (q.readIndex = q.writeIndex)

def cleanQueue : CodeQueue := { q with readIndex := 0, writeIndex := 0 }

/-- `DeleteHeadCode`, with the length in a `short`. -/
def deleteHeadCode : Int × CodeQueue :=
  if q.codeBufOffSet ≤ 0 ∨ q.size ≤ 0 then (-1, q)
  else if q.isQueueEmpty then (0, q.cleanQueue)
  else
    let maxLength := q.getCanReadLen
    if maxLength < 2 then (-3, q.setCriticalData q.writeIndex (-1))
    else
      let tempShort := q.headLength.bmod (2 ^ 16)
      if tempShort > maxLength - 2 ∨ tempShort < 0 then (-3, q.setCriticalData q.writeIndex (-1))
      else (0, q.setCriticalData ((q.readIndex + tempShort).tmod q.size) (-1))

/-- The consumer leaves the write index alone and the producer the read index. -/
structure OwnIndices (q : CodeQueue) : Prop where
  append : ∀ code, (q.appendOneCode code).2.readIndex = q.readIndex
  get : q.getHeadCode.2.2.writeIndex = q.writeIndex
  peek : q.peekHeadCode.2.2.writeIndex = q.writeIndex
  delete : q.deleteHeadCode.2.writeIndex = q.writeIndex

def readable : Bytes :=
  (List.range q.getCanReadLen.toNat).map fun i => q.codeBuf ((q.readIndex.toNat + i) % q.size.toNat)

/-- The readable bytes are codes, each of which begins with its length. -/
structure HoldsCodes (q : CodeQueue) (codes : List Bytes) : Prop where
  offset : 0 < q.codeBufOffSet
  read : 0 ≤ q.readIndex ∧ q.readIndex < q.size
  write : 0 ≤ q.writeIndex ∧ q.writeIndex < q.size
  some : codes ≠ []
  length : ∀ code ∈ codes, 2 ≤ code.length ∧
    (code.headD 0).toNat * 256 + ((code.drop 1).headD 0).toNat = code.length
  readable : q.readable = codes.flatten

/-- `PeekHeadCode` and then `DeleteHeadCode` do what `GetHeadCode` does. -/
def PeeksAndDeletes : Prop :=
  let peeked := q.peekHeadCode
  let deleted := peeked.2.2.deleteHeadCode
  (peeked.1, peeked.2.1, deleted.2) = q.getHeadCode ∧ deleted.1 = q.getHeadCode.1

inductive Op where
  | append (code : Bytes)
  | get

/-- The calls of a list give what a queue of codes with the same free length gives, which holds
`codes` before: an append succeeds if there is room for the code, and a get takes the oldest code. -/
def Fifo : CodeQueue → List Bytes → List Op → Prop
  | _, _, [] => True
  | q, codes, .append code :: ops =>
    let appended := q.appendOneCode code
    (appended.1 = 0 ↔ 0 < code.length ∧ code.length ≤ q.getCanWriteLen ∧ code.length ≤ 0xFFFF) ∧
      Fifo appended.2 (if appended.1 = 0 then codes ++ [code] else codes) ops
  | q, [], .get :: ops => q.getHeadCode.1 ≠ 0 ∧ Fifo q.getHeadCode.2.2 [] ops
  | q, code :: codes, .get :: ops =>
    q.getHeadCode.1 = 0 ∧ q.getHeadCode.2.1 = code ∧ Fifo q.getHeadCode.2.2 codes ops

end CodeQueue

end MyLibevent
