import MyLibevent.Lines

/-!
# Numbers in text

How `printf` writes numbers and `strtoll` reads them.
-/

namespace MyLibevent

def hexDigit (d : Nat) : UInt8 :=
  if d < 10 then UInt8.ofNat (48 + d) else UInt8.ofNat (87 + d)

def formatHex (n : Nat) : Bytes :=
  if n = 0 then bytes "0" else (Nat.digits 16 n).reverse.map hexDigit

def formatDecimal (n : Nat) : Bytes :=
  if n = 0 then bytes "0" else (Nat.digits 10 n).reverse.map hexDigit

def upperHexDigit (d : Nat) : UInt8 :=
  if d < 10 then UInt8.ofNat (48 + d) else UInt8.ofNat (55 + d)

def digitValue (base : Nat) (c : UInt8) : Option Nat :=
  let d :=
    if 48 ≤ c.toNat ∧ c.toNat ≤ 57 then c.toNat - 48
    else if 97 ≤ c.toNat ∧ c.toNat ≤ 122 then c.toNat - 87
    else if 65 ≤ c.toNat ∧ c.toNat ≤ 90 then c.toNat - 55
    else base
  if d < base then some d else none

/-- Digits up to the first character that is none, and the characters from there on. -/
def readDigits (base : Nat) (acc : Nat) : Bytes → Nat × Bytes
  | [] => (acc, [])
  | c :: s =>
    match digitValue base c with
    | none => (acc, c :: s)
    | some d => readDigits base (acc * base + d) s

def isSpace (c : UInt8) : Bool := c == byte ' ' || (9 ≤ c.toNat && c.toNat ≤ 13)

def skipSign : Bytes → Bool × Bytes
  | [] => (false, [])
  | c :: s =>
    if c = byte '-' then (true, s) else if c = byte '+' then (false, s) else (false, c :: s)

def skipHexPrefix (base : Nat) : Bytes → Bytes
  | c :: x :: d :: s =>
    if base = 16 ∧ c = byte '0' ∧ (x = byte 'x' ∨ x = byte 'X') ∧ (digitValue base d).isSome then
      d :: s
    else c :: x :: d :: s
  | s => s

/-- `strtoll` for base 10 or 16: the value, limited to 64 bits, and the end pointer. Without
digits the value is 0 and the end pointer is the string. -/
def strtoll (base : Nat) (string : Bytes) : Int × Bytes :=
  let (neg, s) := skipSign (string.dropWhile isSpace)
  match skipHexPrefix base s with
  | [] => (0, string)
  | c :: t =>
    if (digitValue base c).isNone then (0, string)
    else
      let (n, endp) := readDigits base 0 (c :: t)
      (if neg then max (-(n : Int)) (-2 ^ 63) else min (n : Int) (2 ^ 63 - 1), endp)

end MyLibevent
