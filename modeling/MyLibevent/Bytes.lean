import Mathlib

/-!
# Bytes and characters

The byte of an ASCII character and the classes of characters that `evutil.c` and `http.c` use.
-/

namespace MyLibevent

abbrev Bytes := List UInt8

def byte (c : Char) : UInt8 := UInt8.ofNat c.toNat

def bytes (s : String) : Bytes := s.toList.map byte

variable (c : UInt8)

def isBlank : Bool := c == byte ' ' || c == byte '\t'

def isCrlf : Bool := c == byte '\r' || c == byte '\n'

def isAlpha : Bool :=
  (byte 'a' ≤ c && c ≤ byte 'z') || (byte 'A' ≤ c && c ≤ byte 'Z')

def isDigit : Bool := byte '0' ≤ c && c ≤ byte '9'

def isAlnum : Bool := isAlpha c || isDigit c

def isXdigit : Bool :=
  isDigit c || (byte 'a' ≤ c && c ≤ byte 'f') || (byte 'A' ≤ c && c ≤ byte 'F')

def toLower : UInt8 := if byte 'A' ≤ c && c ≤ byte 'Z' then c + 32 else c

end MyLibevent
