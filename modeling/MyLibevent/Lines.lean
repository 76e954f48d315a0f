import MyLibevent.Bytes

/-!
# Lines and C strings

Reading lines from a buffer with `evbuffer_readln` and the string functions that `http.c`
applies to a line. A buffer is the list of its bytes. A C string is the list of its bytes
without the terminator.
-/

namespace MyLibevent

def cstring (line : Bytes) : Bytes := line.takeWhile (· != 0)

def asciiStrcaseeq (s t : Bytes) : Bool :=
  (cstring s).map toLower = (cstring t).map toLower

def dropCr (line : Bytes) : Bytes :=
  if line.getLast? = some (byte '\r') then line.dropLast else line

def evbufferReadln (buffer : Bytes) : Option (Bytes × Bytes) :=
  match buffer.dropWhile (· != byte '\n') with
  | [] => none
  | _ :: rest => some (dropCr (buffer.takeWhile (· != byte '\n')), rest)

def rtrimLws (str : Bytes) : Bytes := str.rdropWhile isBlank

def ltrimLws (str : Bytes) : Bytes := str.dropWhile isBlank

/-- What `evbuffer_add_printf` adds to the buffer for a formatted text. From 2^31 - 1 bytes on the
length of the text, or the room for it and a terminator, leaves the `int`: nothing is added, and
callers do not look at the result. A last chain that has so much room already is not considered. -/
def evbufferAddPrintf (text : Bytes) : Bytes :=
  if text.length < 2 ^ 31 - 1 then text else []

/-- `strsep(&str, ":")`: what stands before the first separator, and what follows it, if there
is one. -/
def strsep (sep : UInt8) (str : Bytes) : Bytes × Option Bytes :=
  match str.dropWhile (· != sep) with
  | [] => (str, none)
  | _ :: rest => (str.takeWhile (· != sep), some rest)

lemma length_evbufferReadln {buffer line rest : Bytes}
    (h : evbufferReadln buffer = some (line, rest)) : rest.length < buffer.length := by
  unfold evbufferReadln at h
  have hlen := (List.dropWhile_suffix (l := buffer) (· != byte '\n')).length_le
  split at h
  · cases h
  · rename_i heq
    cases h
    rw [heq, List.length_cons] at hlen
    omega

end MyLibevent
