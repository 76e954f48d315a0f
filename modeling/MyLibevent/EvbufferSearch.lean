import MyLibevent.Lib.Segments
import MyLibevent.Lines
import MyLibevent.Util

/-!
# Searching in an evbuffer

`evbuffer_search_range`, `evbuffer_search_eol`, `evbuffer_readln` and the functions they use. A buffer is
the list of its chains and a chain is the list of its bytes; a pointer to a chain is the number of chains
before it. `memchr` and `memcmp` are given in terms of lists.
-/

namespace MyLibevent

open Segments List

/-- `struct evbuffer_ptr`, with the number of its chain. -/
structure EvbufferPtr where
  pos : Int
  chain : Option Nat
  posInChain : Nat
  deriving DecidableEq

/-- A buffer as the data of its chains. -/
structure SplitBuffer where
  chains : List Bytes
  freezeStart : Bool
  fits : chains.flatten.length ≤ evSsizeMax

namespace SplitBuffer

def content (buf : SplitBuffer) : Bytes := buf.chains.flatten

end SplitBuffer

def ptrNotFound : EvbufferPtr := ⟨-1, none, 0⟩

variable (chains : List Bytes)

def nextChain (i : Nat) : Option Nat :=
  if i + 1 < chains.length then some (i + 1) else none

def firstChain : Option Nat := if chains = [] then none else some 0

def startPtr : EvbufferPtr := ⟨0, firstChain chains, 0⟩

def memchr (data : Bytes) (chr : UInt8) : Option Nat := data.findIdx? (· == chr)

def ptrSetLoop : List Bytes → Nat → Nat → Nat → Option Nat × Nat × Nat
  | [], _, position, left => (none, position, left)
  | chain :: chains, i, position, left =>
    if chain.length ≤ position + left then
      ptrSetLoop chains (i + 1) 0 (left - (chain.length - position))
    else (some i, position, left)

inductive EvbufferPtrHow
  | set
  | add
  deriving DecidableEq

def ptrSetFrom (chain : Option Nat) (pos : Int) (position left : Nat) : Int × EvbufferPtr :=
  let r := match chain with
    | none => (none, position, left)
    | some i => ptrSetLoop (chains.drop i) i position left
  match r with
  | (some i, position, left) => (0, ⟨pos, some i, position + left⟩)
  | (none, _, left) => if left = 0 then (0, ⟨pos, none, 0⟩) else (-1, ptrNotFound)

def evbufferPtrSet (pos : EvbufferPtr) (position : Nat) : EvbufferPtrHow → Int × EvbufferPtr
  | .set => ptrSetFrom chains (firstChain chains) position 0 position
  | .add =>
    if pos.pos < 0 ∨ evSizeMax - position < pos.pos then (-1, pos)
    else ptrSetFrom chains pos.chain (pos.pos + position) pos.posInChain position

def evbufferPtrSubtract (pos : EvbufferPtr) (howfar : Nat) : Int × EvbufferPtr :=
  if pos.pos < 0 then (-1, pos)
  else if pos.pos < howfar then (-1, pos)
  else if pos.chain ≠ none ∧ howfar ≤ pos.posInChain then
    (0, { pos with pos := pos.pos - howfar, posInChain := pos.posInChain - howfar })
  else evbufferPtrSet chains pos (pos.pos - howfar).toNat .set

def ptrMemcmpLoop : List Bytes → Nat → Bytes → Bool
  | [], _, _ => true
  | chain :: chains, position, mem =>
    if mem = [] then true
    else
      let nComparable := if chain.length < mem.length + position then chain.length - position else mem.length
      if (chain.drop position).take nComparable = mem.take nComparable then
        ptrMemcmpLoop chains 0 (mem.drop nComparable)
      else false

def evbufferPtrMemcmp (pos : EvbufferPtr) (mem : Bytes) : Bool :=
  if pos.pos < 0 ∨ evSizeMax - mem.length < pos.pos ∨ chains.flatten.length < pos.pos + mem.length then
    false
  else
    match pos.chain with
    | none => true
    | some i => ptrMemcmpLoop (chains.drop i) pos.posInChain mem

def searchLoop (chains : List Bytes) (what : Bytes) (endAt : Option EvbufferPtr) : Nat → EvbufferPtr → EvbufferPtr
  | 0, _ => ptrNotFound
  | k + 1, pos =>
    match pos.chain with
    | none => ptrNotFound
    | some i =>
      match memchr ((segment chains i).drop pos.posInChain) (what.headD 0) with
      | some d =>
        let pos := { pos with pos := pos.pos + d, posInChain := pos.posInChain + d }
        if evbufferPtrMemcmp chains pos what then
          if endAt.any fun e => e.pos < pos.pos + what.length then ptrNotFound else pos
        else if pos.posInChain + 1 = (segment chains i).length then
          searchLoop chains what endAt k ⟨pos.pos + 1, nextChain chains i, 0⟩
        else searchLoop chains what endAt k ⟨pos.pos + 1, some i, pos.posInChain + 1⟩
      | none =>
        if endAt.any fun e => e.chain = some i then ptrNotFound
        else
          searchLoop chains what endAt k
            ⟨pos.pos + ((segment chains i).length - pos.posInChain : Nat), nextChain chains i, 0⟩

/-- `evbuffer_search_range`; a null pointer is `none`. Every turn of the loop goes on to another byte or to
another chain. -/
def evbufferSearchRange (what : Bytes) (start endAt : Option EvbufferPtr) : EvbufferPtr :=
  let pos := start.getD (startPtr chains)
  if what = [] ∨ evSsizeMax < what.length then pos
  else searchLoop chains what endAt (chains.flatten.length + chains.length + 1) pos

def evbufferSearch (what : Bytes) (start : Option EvbufferPtr) : EvbufferPtr :=
  evbufferSearchRange chains what start none

def scanLoop (find : Bytes → Option Nat) : List Bytes → Nat → Nat → Int → Option EvbufferPtr
  | [], _, _, _ => none
  | chain :: chains, i, posInChain, pos =>
    match find (chain.drop posInChain) with
    | some d => some ⟨pos + d, some i, posInChain + d⟩
    | none => scanLoop find chains (i + 1) 0 (pos + (chain.length - posInChain : Nat))

def scanFrom (find : Bytes → Option Nat) (chains : List Bytes) (it : EvbufferPtr) : Option EvbufferPtr :=
  match it.chain with
  | none => none
  | some i => scanLoop find (chains.drop i) i it.posInChain it.pos

def evbufferStrchr (it : EvbufferPtr) (chr : UInt8) : Option EvbufferPtr :=
  scanFrom (memchr · chr) chains it

def chunkSz : Nat := 128

def findEolCharLoop : Nat → Bytes → Nat → Option Nat
  | 0, _, _ => none
  | k + 1, s, start =>
    if s = [] then none
    else
      let chunk := s.take chunkSz
      match memchr chunk (byte '\r'), memchr chunk (byte '\n') with
      | some cr, some lf => if lf < cr then some (start + lf) else some (start + cr)
      | some cr, none => some (start + cr)
      | none, some lf => some (start + lf)
      | none, none => findEolCharLoop k (s.drop chunkSz) (start + chunkSz)

def findEolChar (s : Bytes) : Option Nat := findEolCharLoop (s.length + 1) s 0

def evbufferFindEolChar (it : EvbufferPtr) : Option EvbufferPtr :=
  scanFrom findEolChar chains it

def strspnLoop (inSet : UInt8 → Bool) (ptr : EvbufferPtr) : List Bytes → Nat → Nat → Nat → Nat × EvbufferPtr
  | [], _, _, count => (count, ptr)
  | chain :: chains, i, posInChain, count =>
    let n := ((chain.drop posInChain).takeWhile inSet).length
    if posInChain + n < chain.length then
      (count + n, ⟨ptr.pos + cInt (count + n : Nat), some i, posInChain + n⟩)
    else if chains = [] then (count + n, ⟨ptr.pos + cInt (count + n : Nat), some i, 0⟩)
    else strspnLoop inSet ptr chains (i + 1) 0 (count + n)

def evbufferStrspn (ptr : EvbufferPtr) (inSet : UInt8 → Bool) : Int × EvbufferPtr :=
  match ptr.chain with
  | none => (0, ptr)
  | some i =>
    let r := strspnLoop inSet ptr (chains.drop i) i ptr.posInChain 0
    (cInt r.1, r.2)

def evbufferGetchr (it : EvbufferPtr) : Int :=
  match it.chain with
  | none => -1
  | some i => ((segment chains i).getD it.posInChain 0).toNat

inductive EvbufferEolStyle
  | any
  | crlf
  | crlfStrict
  | lf
  | nul
  deriving DecidableEq

def intToSize (n : Int) : Nat := (n % 2 ^ 64).toNat

def searchEolFrom (it : EvbufferPtr) : EvbufferEolStyle → Option (EvbufferPtr × Nat)
  | .any =>
    (evbufferFindEolChar chains it).map fun it => (it, intToSize (evbufferStrspn chains it isCrlf).1)
  | .crlfStrict =>
    let it := evbufferSearch chains [byte '\r', byte '\n'] (some it)
    if it.pos < 0 then none else some (it, 2)
  | .crlf =>
    (evbufferStrchr chains it (byte '\n')).map fun lf =>
      if lf.pos = it.pos then (lf, 1)
      else
        let r := evbufferPtrSubtract chains lf 1
        if r.1 < 0 then (lf, 1)
        else if evbufferGetchr chains r.2 = (byte '\r').toNat then (r.2, 2)
        else (lf, 1)
  | .lf => (evbufferStrchr chains it (byte '\n')).map fun it => (it, 1)
  | .nul => (evbufferStrchr chains it 0).map fun it => (it, 1)

/-- `evbuffer_search_eol` with the length of the end of line; a null `start` is `none`. -/
def evbufferSearchEol (start : Option EvbufferPtr) (eolStyle : EvbufferEolStyle) : EvbufferPtr × Nat :=
  (searchEolFrom chains (start.getD (startPtr chains)) eolStyle).getD (ptrNotFound, 0)

def drainLoopChains : List Bytes → Nat → List Bytes
  | [], _ => []
  | chain :: chains, remaining =>
    if chain.length ≤ remaining then drainLoopChains chains (remaining - chain.length)
    else chain.drop remaining :: chains

def drainChains (len : Nat) : List Bytes :=
  if chains.flatten.length = 0 then chains
  else if chains.flatten.length ≤ len then []
  else drainLoopChains chains len

def copyoutChains : List Bytes → Nat → Bytes
  | [], _ => []
  | chain :: chains, datlen =>
    if chain.length ≤ datlen then chain ++ copyoutChains chains (datlen - chain.length)
    else chain.take datlen

/-- The loop of `evbuffer_drain` takes bytes from the front. -/
lemma flatten_drainLoopChains (len : Nat) : (drainLoopChains chains len).flatten = chains.flatten.drop len := by
  induction chains generalizing len with
  | nil => simp [drainLoopChains]
  | cons chain chains ih =>
    unfold drainLoopChains
    split_ifs with hle
    · rw [ih, flatten_cons, drop_append, drop_of_length_le hle, nil_append]
    · rw [flatten_cons, flatten_cons, drop_append_of_le_length (by omega)]

lemma flatten_drainChains (len : Nat) : (drainChains chains len).flatten = chains.flatten.drop len := by
  unfold drainChains
  split
  · rename_i hnil
    rw [length_eq_zero_iff] at hnil
    rw [hnil, drop_nil]
  · split_ifs with hle
    · rw [flatten_nil, drop_of_length_le hle]
    · exact flatten_drainLoopChains chains len

namespace SplitBuffer

variable (buf : SplitBuffer)

def drain (len : Nat) : SplitBuffer where
  chains := drainChains buf.chains len
  freezeStart := buf.freezeStart
  fits := by
    rw [flatten_drainChains]
    have hfits := buf.fits
    rw [length_drop]
    omega

def remove (datlen : Nat) : Bytes × SplitBuffer :=
  (copyoutChains buf.chains datlen, if 0 < datlen then buf.drain datlen else buf)

/-- `evbuffer_readln`; `malloc` says whether the memory for the line is there. -/
def readln (eolStyle : EvbufferEolStyle) (malloc : Bool) : Option Bytes × SplitBuffer :=
  if buf.freezeStart then (none, buf)
  else
    let r := evbufferSearchEol buf.chains none eolStyle
    if r.1.pos < 0 then (none, buf)
    else if malloc = false then (none, buf)
    else
      let line := buf.remove r.1.pos.toNat
      (some line.1, line.2.drain r.2)

end SplitBuffer

end MyLibevent
