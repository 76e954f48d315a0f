import MyLibevent.Bytes
import MyLibevent.Time

/-!
# Tagged data

`event_tagging.c`: a stream of items, each a tag (seven bits a byte, lowest first, the high bit
of a byte telling that another follows), a length and a payload. Integers are a count of
nibbles followed by the nibbles, lowest first. An evbuffer is the list of its bytes;
`UInt32` and `UInt64` values are natural numbers, reduced where the source converts.
-/

namespace MyLibevent

section Integers

/-- Store the low nibble of `x` at nibble position `off`: the low half of byte `off / 2` if `off`
is odd, else its high half. -/
def setNibble (data : Nat → Nat) (off x : Nat) : Nat → Nat :=
  if off % 2 = 1 then Function.update data (off / 2) ((data (off / 2) &&& 0xf0) ||| (x &&& 0x0f))
  else Function.update data (off / 2) ((data (off / 2) &&& 0x0f) ||| ((x &&& 0x0f) <<< 4))

def encodeNibbles (data : Nat → Nat) (off number : Nat) : (Nat → Nat) × Nat :=
  if number = 0 then (data, off)
  else encodeNibbles (setNibble data off number) (off + 1) (number >>> 4)
termination_by number
decreasing_by
  rw [Nat.shiftRight_eq_div_pow]
  omega

/-- `encode_int_internal` and `encode_int64_internal`: the bytes they return the number of. -/
def encodeIntInternal (number : Nat) : Bytes :=
  let (data, off) := encodeNibbles (fun _ => 0) 1 number
  let nibbles := if 2 < off then off - 2 else 0
  let data := setNibble data 0 nibbles
  (List.range ((off + 1) / 2)).map fun i => UInt8.ofNat (data i)

def nibbleAt (data : Nat → Nat) (i : Nat) : Nat :=
  if i % 2 = 1 then data (i / 2) &&& 0x0f else (data (i / 2) &&& 0xf0) >>> 4

def decodeNibbles (data : Nat → Nat) : Nat → Nat → Nat
  | 0, number => number
  | nibbles + 1, number =>
    decodeNibbles data nibbles ((number <<< 4) ||| nibbleAt data (nibbles + 1))

def bytesAt (evbuf : Bytes) (offset i : Nat) : Nat := (evbuf.getD (offset + i) 0).toNat

def decodeIntInternal (maxnibbles : Nat) (evbuf : Bytes) (offset : Nat) : Option (Nat × Nat) :=
  let len := evbuf.length - offset
  if len = 0 then none
  else
    let data := bytesAt evbuf offset
    let nibbles := ((data 0 &&& 0xf0) >>> 4) + 1
    if maxnibbles < nibbles ∨ len < (nibbles >>> 1) + 1 then none
    else some (decodeNibbles data nibbles 0, (nibbles >>> 1) + 1)

def evtagEncodeInt (evbuf : Bytes) (number : Nat) : Bytes :=
  evbuf ++ encodeIntInternal number

def evtagDecodeInt (evbuf : Bytes) : Option Nat × Bytes :=
  match decodeIntInternal 8 evbuf 0 with
  | none => (none, evbuf)
  | some (number, res) => (some number, evbuf.drop res)

end Integers

section Tags

def encodeTagBytes (tag : Nat) : Bytes :=
  if tag >>> 7 = 0 then [UInt8.ofNat (tag &&& 0x7f)]
  else UInt8.ofNat ((tag &&& 0x7f) ||| 0x80) :: encodeTagBytes (tag >>> 7)
termination_by tag
decreasing_by
  rw [Nat.shiftRight_eq_div_pow] at *
  omega

def evtagEncodeTag (evbuf : Bytes) (tag : Nat) : Bytes := evbuf ++ encodeTagBytes tag

/-- The loop of `decode_tag_internal`; `none` is the return value −1. -/
def decodeTagLoop : Bytes → Nat → Nat → Nat → Option (Nat × Nat)
  | [], _, _, _ => none
  | lower :: data, shift, number, count =>
    if 28 ≤ shift ∧ (28 < shift ∨ 15 < (lower.toNat &&& 0x7f)) then none
    else
      let number := number ||| ((lower.toNat &&& 0x7f) <<< shift)
      if lower.toNat &&& 0x80 = 0 then some (number, count + 1)
      else decodeTagLoop data (shift + 7) number (count + 1)

/-- `decode_tag_internal`: the tag and the number of its bytes, which the callers that drain
remove. -/
def decodeTagInternal (evbuf : Bytes) : Option (Nat × Nat) := decodeTagLoop evbuf 0 0 0

end Tags

section Marshal

variable (evbuf : Bytes)

def evtagMarshal (tag : Nat) (data : Bytes) (len : Nat) : Bytes :=
  evtagEncodeInt (evtagEncodeTag evbuf tag) len ++ data.take len

def evtagMarshalBuffer (tag : Nat) (data : Bytes) : Bytes :=
  evtagEncodeInt (evtagEncodeTag evbuf tag) (data.length % 2 ^ 32) ++ data

def evtagMarshalInt (tag integer : Nat) : Bytes :=
  let data := encodeIntInternal integer
  evtagEncodeInt (evtagEncodeTag evbuf tag) data.length ++ data

def strlen (string : Bytes) : Nat := (string.takeWhile (· != 0)).length

def evtagMarshalString (tag : Nat) (string : Bytes) : Bytes :=
  evtagMarshal evbuf tag string (strlen string % 2 ^ 32)

def evtagMarshalTimeval (tag : Nat) (tv : Timeval) : Bytes :=
  let data := encodeIntInternal (tv.sec % 2 ^ 32).toNat ++ encodeIntInternal (tv.usec % 2 ^ 32)
  evtagMarshal evbuf tag data data.length

end Marshal

section Unmarshal

variable (evbuf : Bytes)

/-- `evtag_unmarshal_header`: the return value, which is the 32-bit length converted to `int`,
the tag (0 if it was not decoded) and what is left of the buffer. -/
def evtagUnmarshalHeader : Int × Nat × Bytes :=
  match decodeTagInternal evbuf with
  | none => (-1, 0, evbuf)
  | some (tag, count) =>
    match evtagDecodeInt (evbuf.drop count) with
    | (none, evbuf) => (-1, tag, evbuf)
    | (some len, evbuf) =>
      if evbuf.length < len then (-1, tag, evbuf) else (Int.bmod len (2 ^ 32), tag, evbuf)

def drainInt (len : Int) : Bytes :=
  if len < 0 then [] else evbuf.drop len.toNat

/-- `evtag_unmarshal`: the return value, the tag and the two buffers. With a negative length
`evbuffer_add` is asked for nearly 2^64 bytes and refuses. -/
def evtagUnmarshal (src dst : Bytes) : Int × Nat × Bytes × Bytes :=
  match evtagUnmarshalHeader src with
  | (len, tag, src) =>
    if len < 0 then (-1, tag, src, dst)
    else (len, tag, drainInt src len, dst ++ src.take len.toNat)

/-- `evtag_unmarshal_int` and `evtag_unmarshal_int64`, up to the number of nibbles. -/
def unmarshalIntWith (maxnibbles : Nat) (evbuf : Bytes) (needTag : Nat) : Option Nat × Bytes :=
  match decodeTagInternal evbuf with
  | none => (none, evbuf)
  | some (tag, count) =>
    if needTag ≠ tag then (none, evbuf.drop count)
    else
      match evtagDecodeInt (evbuf.drop count) with
      | (none, evbuf) => (none, evbuf)
      | (some len, evbuf) =>
        if evbuf.length < len then (none, evbuf)
        else
          match decodeIntInternal maxnibbles evbuf 0 with
          | none => (none, evbuf.drop len)
          | some (integer, result) =>
            (if len < result then none else some integer, evbuf.drop len)

def evtagUnmarshalInt (needTag : Nat) : Option Nat × Bytes :=
  unmarshalIntWith 8 evbuf needTag

def evtagUnmarshalInt64 (needTag : Nat) : Option Nat × Bytes :=
  unmarshalIntWith 16 evbuf needTag

def evtagUnmarshalFixed (src : Bytes) (needTag len : Nat) : Option Bytes × Bytes :=
  match evtagUnmarshalHeader src with
  | (tagLen, tag, src) =>
    if tagLen < 0 ∨ tag ≠ needTag then (none, src)
    else if tagLen.toNat ≠ len then (none, src)
    else (some (src.take len), src.drop len)

/-- `evtag_unmarshal_string`: the bytes written to the new string, its terminator included.
`mm_malloc(tag_len + 1)` of a negative `int` asks for nearly 2^64 bytes and gives `NULL`. -/
def evtagUnmarshalString (needTag : Nat) : Option Bytes × Bytes :=
  match evtagUnmarshalHeader evbuf with
  | (tagLen, tag, evbuf) =>
    if tagLen = -1 ∨ tag ≠ needTag then (none, evbuf)
    else if Int.bmod (tagLen + 1) (2 ^ 32) < 0 then (none, evbuf)
    else (some (evbuf.take tagLen.toNat ++ [0]), evbuf.drop tagLen.toNat)

def evtagUnmarshalTimeval (needTag : Nat) : Option Timeval × Bytes :=
  match evtagUnmarshalHeader evbuf with
  | (len, tag, evbuf) =>
    if len = -1 then (none, evbuf)
    else if tag ≠ needTag then (none, drainInt evbuf len)
    else
      match decodeIntInternal 8 evbuf 0 with
      | none => (none, drainInt evbuf len)
      | some (sec, offset) =>
        match decodeIntInternal 8 evbuf offset with
        | none => (none, drainInt evbuf len)
        | some (usec, offset2) =>
          (if len < offset + offset2 then none else some ⟨sec, usec⟩, drainInt evbuf len)

end Unmarshal

section Streams

/-- Something that can be marshalled. `bytes` and `fixed` are written by `evtag_marshal`,
`buffer` by `evtag_marshal_buffer`. -/
inductive TagItem where
  | int (integer : Nat)
  | int64 (integer : Nat)
  | bytes (data : Bytes)
  | buffer (data : Bytes)
  | fixed (data : Bytes)
  | string (chars : Bytes)
  | timeval (tv : Timeval)

inductive TagRequest where
  | int
  | int64
  | bytes
  | buffer
  | fixed (len : Nat)
  | string
  | timeval

def TagItem.request : TagItem → TagRequest
  | .int _ => .int
  | .int64 _ => .int64
  | .bytes _ => .bytes
  | .buffer _ => .buffer
  | .fixed data => .fixed data.length
  | .string _ => .string
  | .timeval _ => .timeval

def marshalItem (evbuf : Bytes) (tag : Nat) : TagItem → Bytes
  | .int integer => evtagMarshalInt evbuf tag integer
  | .int64 integer => evtagMarshalInt evbuf tag integer
  | .bytes data => evtagMarshal evbuf tag data data.length
  | .buffer data => evtagMarshalBuffer evbuf tag data
  | .fixed data => evtagMarshal evbuf tag data data.length
  | .string chars => evtagMarshalString evbuf tag (chars ++ [0])
  | .timeval tv => evtagMarshalTimeval evbuf tag tv

/-- The tag and the item that a call gives, or `none` if it fails, and the bytes left.
A string is read up to its terminator; `evtag_unmarshal` fills an empty buffer. -/
def unmarshalItem (evbuf : Bytes) (tag : Nat) : TagRequest → Option (Nat × TagItem) × Bytes
  | .int =>
    let (integer, evbuf) := evtagUnmarshalInt evbuf tag
    (integer.map fun n => (tag, .int n), evbuf)
  | .int64 =>
    let (integer, evbuf) := evtagUnmarshalInt64 evbuf tag
    (integer.map fun n => (tag, .int64 n), evbuf)
  | .bytes =>
    let (len, tag, evbuf, dst) := evtagUnmarshal evbuf []
    (if len = -1 then none else some (tag, .bytes dst), evbuf)
  | .buffer =>
    let (len, tag, evbuf, dst) := evtagUnmarshal evbuf []
    (if len = -1 then none else some (tag, .buffer dst), evbuf)
  | .fixed len =>
    let (data, evbuf) := evtagUnmarshalFixed evbuf tag len
    (data.map fun d => (tag, .fixed d), evbuf)
  | .string =>
    let (string, evbuf) := evtagUnmarshalString evbuf tag
    (string.map fun s => (tag, .string (s.takeWhile (· != 0))), evbuf)
  | .timeval =>
    let (tv, evbuf) := evtagUnmarshalTimeval evbuf tag
    (tv.map fun t => (tag, .timeval t), evbuf)

def marshalAll (evbuf : Bytes) (items : List (Nat × TagItem)) : Bytes :=
  items.foldl (fun evbuf item => marshalItem evbuf item.1 item.2) evbuf

def unmarshalAll (evbuf : Bytes) : List (Nat × TagRequest) → Option (List (Nat × TagItem)) × Bytes
  | [] => (some [], evbuf)
  | request :: requests =>
    match unmarshalItem evbuf request.1 request.2 with
    | (none, evbuf) => (none, evbuf)
    | (some item, evbuf) =>
      let (items, evbuf) := unmarshalAll evbuf requests
      (items.map (item :: ·), evbuf)

end Streams

end MyLibevent
