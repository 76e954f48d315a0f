import MyLibevent.Numbers
import MyLibevent.Util

/-!
# Socket addresses in text

`evutil_inet_ntop`, `evutil_inet_pton`, `evutil_format_sockaddr_port_` and
`evutil_parse_sockaddr_port` of `evutil.c`, where the first two are the internal ones. A C string is
the list of its bytes before the terminator, and a pointer into it is the list of the bytes from
there on. Ports and IPv4 addresses are numbers in host order.
-/

namespace MyLibevent

abbrev In6Addr := Vector UInt8 16

/-- A `struct sockaddr` by its family. -/
inductive Sockaddr where
  | inet (addr : UInt32) (port : UInt16)
  | inet6 (addr : In6Addr) (port : UInt16) (flowinfo scopeId : UInt32)
  | other (family : Nat)
deriving DecidableEq

def cutText (size : Nat) (text : Bytes) : Bytes := text.take (size - 1)

/-! ## Writing addresses -/

def formatQuad (a b c d : Nat) : Bytes :=
  formatDecimal a ++ bytes "." ++ formatDecimal b ++ bytes "." ++ formatDecimal c ++ bytes "." ++ formatDecimal d

def evutilInetNtop4 (a : UInt32) (len : Nat) : Option Bytes :=
  let text := formatQuad (a >>> 24 &&& 0xff).toNat (a >>> 16 &&& 0xff).toNat
    (a >>> 8 &&& 0xff).toNat (a &&& 0xff).toNat
  if len ≤ text.length then none else some text

variable (addr : In6Addr)

def In6Addr.words : Vector UInt16 8 :=
  Vector.ofFn fun i => (addr[2 * i.val].toUInt16 <<< 8) + addr[2 * i.val + 1].toUInt16

/-- The position and the length of the longest gap so far, where `i` is the index of the first of
the words that are left. The position is -1 while there is none. -/
def longestGap (i : Nat) (longestGapPos : Int) (longestGapLen : Nat) : List UInt16 → Int × Nat
  | [] => (longestGapPos, longestGapLen)
  | w :: words =>
    if w = 0 then
      let curGapLen := 1 + (words.takeWhile (· == 0)).length
      let next := words.dropWhile (· == 0)
      if curGapLen > longestGapLen then longestGap (i + curGapLen) i curGapLen next
      else longestGap (i + curGapLen) longestGapPos longestGapLen next
    else longestGap (i + 1) longestGapPos longestGapLen words
termination_by words => words.length
decreasing_by
  all_goals
    have := (List.dropWhile_suffix (l := words) (· == 0)).length_le
    simp only [List.length_cons]
    omega

def formatWords (longestGapPos : Int) (i : Nat) (cp : Bytes) : List UInt16 → Bytes
  | [] => cp
  | w :: words =>
    if w = 0 ∧ longestGapPos = i then
      let cp := if i = 0 then cp ++ bytes ":" else cp
      formatWords longestGapPos (i + (1 + (words.takeWhile (· == 0)).length)) (cp ++ bytes ":")
        (words.dropWhile (· == 0))
    else
      let cp := cp ++ cutText (64 - cp.length) (formatHex w.toNat)
      formatWords longestGapPos (i + 1) (if i ≠ 7 then cp ++ bytes ":" else cp) words
termination_by words => words.length
decreasing_by
  all_goals
    have := (List.dropWhile_suffix (l := words) (· == 0)).length_le
    simp only [List.length_cons]
    omega

/-- The addresses that are written with an IPv4 address at the end. -/
def In6Addr.isV4 : Bool :=
  let words := addr.words
  words[0] == 0 && words[1] == 0 && words[2] == 0 && words[3] == 0 && words[4] == 0 &&
    ((words[5] == 0 && words[6] != 0 && words[7] != 0) || words[5] == 0xffff)

def In6Addr.quad : Bytes :=
  formatQuad addr[12].toNat addr[13].toNat addr[14].toNat addr[15].toNat

def ntopBuf : Bytes :=
  let words := addr.words
  if addr.isV4 then
    let quad := addr.quad
    if words[5] = 0 then cutText 64 (bytes "::" ++ quad)
    else cutText 64 (bytes "::" ++ formatHex words[5].toNat ++ bytes ":" ++ quad)
  else
    let (longestGapPos, longestGapLen) := longestGap 0 (-1) 0 words.toList
    formatWords (if longestGapLen ≤ 1 then -1 else longestGapPos) 0 [] words.toList

def evutilInetNtop6 (len : Nat) : Option Bytes :=
  let buf := ntopBuf addr
  if buf.length > len then none else some (cutText len buf)

def sockaddrPortText (sa : Sockaddr) : Bytes :=
  match sa with
  | .inet addr port =>
    match evutilInetNtop4 addr 128 with
    | some b => b ++ bytes ":" ++ formatDecimal port.toNat
    | none => bytes "<addr with socktype " ++ formatDecimal 2 ++ bytes ">"
  | .inet6 addr port _ _ =>
    match evutilInetNtop6 addr 128 with
    | some b => bytes "[" ++ b ++ bytes "]:" ++ formatDecimal port.toNat
    | none => bytes "<addr with socktype " ++ formatDecimal 10 ++ bytes ">"
  | .other family => bytes "<addr with socktype " ++ formatDecimal family ++ bytes ">"

def evutilFormatSockaddrPort (sa : Sockaddr) (outlen : Nat) : Bytes :=
  cutText outlen (sockaddrPortText sa)

/-! ## Reading addresses -/

variable (s : Bytes)

def scanUnsigned : Option (UInt32 × Bytes) :=
  let (neg, s) := skipSign (s.dropWhile isSpace)
  if isDigit (s.headD 0) then
    let (n, rest) := readDigits 10 0 s
    let n := if 2 ^ 64 ≤ n then 2 ^ 64 - 1 else if neg then 2 ^ 64 - n else n
    some (UInt32.ofNat n, rest)
  else none

def scanDot : Option Bytes :=
  if s.headD 0 = byte '.' then some (s.drop 1) else none

/-- `sscanf(s, "%u.%u.%u.%u%c", ...)` where the result is 4: the four numbers, and nothing after
them. -/
def scanQuad : Option (UInt32 × UInt32 × UInt32 × UInt32) := do
  let (a, s) ← scanUnsigned s
  let s ← scanDot s
  let (b, s) ← scanUnsigned s
  let s ← scanDot s
  let (c, s) ← scanUnsigned s
  let s ← scanDot s
  let (d, s) ← scanUnsigned s
  if s = [] then some (a, b, c, d) else none

def readQuad : Option (UInt32 × UInt32 × UInt32 × UInt32) :=
  match scanQuad s with
  | none => none
  | some (a, b, c, d) =>
    if a > 255 ∨ b > 255 ∨ c > 255 ∨ d > 255 then none else some (a, b, c, d)

def evutilInetPton4 (src : Bytes) : Except Int UInt32 :=
  match readQuad src with
  | none => .error 0
  | some (a, b, c, d) => .ok ((a <<< 24) ||| (b <<< 16) ||| (c <<< 8) ||| d)

/-- The locals of `evutil_inet_pton` for an IPv6 address. -/
structure WordScan where
  words : Vector UInt16 8
  i : Nat
  gapPos : Option Nat
  setWords : Nat

def scanWords (st : WordScan) (src : Bytes) (left : Nat) : Option WordScan :=
  if left = 0 then some st
  else if h : st.i > 7 then none
  else if isXdigit (src.headD 0) then
    let (r, next) := strtoll 16 src
    let len := src.length - next.length
    if len > 4 then none
    else if len = 0 then none
    else if r < 0 ∨ r > 65536 then none
    else if next.headD 0 ≠ byte ':' ∧ len ≠ left then none
    else
      have hi : st.i < 8 := Nat.lt_succ_of_le (Nat.not_lt.mp h)
      scanWords { st with
          words := st.words.set st.i (UInt16.ofNat r.toNat) hi
          i := st.i + 1
          setWords := st.setWords + 1 }
        (next.drop 1) (left - (len + 1))
  else if src.headD 0 = byte ':' ∧ st.i > 0 ∧ st.gapPos = none then
    scanWords { st with gapPos := some st.i } (src.drop 1) (left - 1)
  else if src.headD 0 = byte ':' ∧ st.i = 0 ∧ (src.drop 1).headD 0 = byte ':' ∧ st.gapPos = none then
    scanWords { st with gapPos := some st.i } (src.drop 2) (left - 2)
  else none
termination_by left

variable (words : Vector UInt16 8)

def openGap (gapPos gapLen nToMove : Nat) : Vector UInt16 8 :=
  Vector.ofFn fun j =>
    if gapPos ≤ j.val ∧ j.val < gapPos + gapLen then 0
    else if gapPos + gapLen ≤ j.val ∧ j.val < gapPos + gapLen + nToMove then
      words.toList.getD (j.val - gapLen) 0
    else words[j]

def wordsAddr : In6Addr :=
  Vector.ofFn fun k =>
    if k.val % 2 = 0 then (words[k.val / 2] >>> 8).toUInt8 else (words[k.val / 2] &&& 0xff).toUInt8

/-- The end of `evutil_inet_pton` for `AF_INET6`, where `dot` tells whether there is a dot. -/
def finishWords (st : WordScan) (dot : Bool) : Except Int In6Addr :=
  if st.setWords > 8 ∨ (st.setWords = 8 ∧ st.gapPos ≠ none) ∨ (st.setWords < 8 ∧ st.gapPos = none) then .error 0
  else
    match st.gapPos with
    | none => .ok (wordsAddr st.words)
    | some gapPos =>
      let nToMove : Int := st.setWords - (if dot then 2 else 0) - gapPos
      let gapLen := 8 - st.setWords
      if nToMove < 0 then .error (-1)
      else .ok (wordsAddr (openGap st.words gapPos gapLen nToMove.toNat))

def evutilInetPton6 (src : Bytes) : Except Int In6Addr :=
  match strsep (byte '.') src with
  | (_, none) =>
    match scanWords ⟨words, 0, none, 0⟩ src src.length with
    | none => .error 0
    | some st => finishWords st false
  | (front, some _) =>
    if front = [] then .error 0
    else
      -- `eow` is before the digits that stand before the dot
      let eow := (front.rdropWhile isDigit).length
      match readQuad (src.drop eow) with
      | none => .error 0
      | some (byte1, byte2, byte3, byte4) =>
        let words := words.set 6 ((byte1 <<< 8) ||| byte2).toUInt16
        let words := words.set 7 ((byte3 <<< 8) ||| byte4).toUInt16
        match scanWords ⟨words, 0, none, 2⟩ src eow with
        | none => .error 0
        | some st => finishWords st true

def atoi : Int := cInt (strtoll 10 s).1

/-- The three kinds of text `evutil_parse_sockaddr_port` tells apart: `is_ipv6`, the part with the
address and the part with the port. -/
def splitSockaddr (ipAsString : Bytes) : Option (Bool × Bytes × Option Bytes) :=
  if ipAsString.headD 0 = byte '[' then
    match strsep (byte ']') (ipAsString.drop 1) with
    | (_, none) => none
    | (addrPart, some rest) =>
      if addrPart.length > 127 then none
      else some (true, addrPart, if rest.headD 0 = byte ':' then some (rest.drop 1) else none)
  else
    match strsep (byte ':') ipAsString with
    | (_, none) => some (false, ipAsString, none)
    | (addrPart, some rest) =>
      if byte ':' ∈ rest then some (true, ipAsString, none)
      else if addrPart.length > 127 then none
      else some (false, addrPart, some rest)

def parsePortPart : Option Bytes → Option UInt16
  | none => some 0
  | some portPart =>
    let port := atoi portPart
    if port ≤ 0 ∨ port > 65535 then none else some (UInt16.ofNat port.toNat)

def evutilParseSockaddrPort (ipAsString : Bytes) (outlen : Int) : Option (Sockaddr × Int) :=
  match splitSockaddr ipAsString with
  | none => none
  | some (isIpv6, addrPart, portPart) =>
    match parsePortPart portPart with
    | none => none
    | some port =>
      if isIpv6 then
        match evutilInetPton6 words addrPart with
        | .error _ => none
        | .ok addr => if 28 > outlen then none else some (.inet6 addr port 0 0, 28)
      else
        match evutilInetPton4 addrPart with
        | .error _ => none
        | .ok addr => if 16 > outlen then none else some (.inet addr port, 16)

/-- An IPv4 or IPv6 address with a port from 1 on, and with flow and scope zero. -/
def Sockaddr.Plain : Sockaddr → Prop
  | .inet _ port => port ≠ 0
  | .inet6 _ port flowinfo scopeId => port ≠ 0 ∧ flowinfo = 0 ∧ scopeId = 0
  | .other _ => False

def Sockaddr.size : Sockaddr → Int
  | .inet .. => 16
  | .inet6 .. => 28
  | .other _ => 0

end MyLibevent
