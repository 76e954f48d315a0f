import MyLibevent.Lines
import MyLibevent.Util

/-!
# Escaping of HTML

`html_replace` and `evhttp_htmlescape` of `http.c`, for a string that is not NULL.
-/

namespace MyLibevent

def quotByte : UInt8 := 34

def aposByte : UInt8 := 39

/-- `html_replace`: the size of the replacement, and `*escaped` after the call. -/
def htmlReplace (ch : UInt8) (escaped : Bytes) : Nat × Bytes :=
  if ch = byte '<' then (4, bytes "&lt;")
  else if ch = byte '>' then (4, bytes "&gt;")
  else if ch = quotByte then (6, bytes "&quot;")
  else if ch = aposByte then (6, bytes "&#039;")
  else if ch = byte '&' then (5, bytes "&amp;")
  else (1, escaped)

/-- The first loop of `evhttp_htmlescape`. -/
def escapedSize (newSize : Nat) : Bytes → Option Nat
  | [] => some newSize
  | ch :: rest =>
    let replaceSize := (htmlReplace ch []).1
    if replaceSize > evSizeMax - newSize then none else escapedSize (newSize + replaceSize) rest

/-- What the second loop writes. -/
def writeEscaped : Bytes → Bytes
  | [] => []
  | ch :: rest =>
    let (len, replaced) := htmlReplace ch (ch :: rest)
    replaced.take len ++ writeEscaped rest

def evhttpHtmlescape (malloc : Nat → Bool) (html : Bytes) : Option Bytes :=
  (escapedSize 0 html).bind fun newSize =>
    if newSize = evSizeMax then none
    else if malloc (newSize + 1) then some (writeEscaped html)
    else none

end MyLibevent
