import MyLibevent.Bytes
import MyLibevent.Util
import MyLibevent.Lib.ByteBlock

/-!
Evbuffers (`buffer.c`, `evbuffer-internal.h`): chains of data blocks, linked through `next`, with
a pointer into the middle of the list. Locks and callbacks are absent: the buffers have no
callbacks, so that `evbuffer_invoke_callbacks_` only clears the two counters. Chains that refer to
memory of others (references, file segments, multicast) are not built by these functions.
-/

namespace MyLibevent

open Function

abbrev BufId := Nat

abbrev ChainId := Nat

def evbufferChainMax : Nat := evSsizeMax

def evbufferChainSize : Nat := 48

def minBufferSize : Nat := 1024

def evbufferChainMaxAutoSize : Nat := 4096

def maxToRealignInExpand : Nat := 2048

/-- The `EVBUFFER_*` bits of a chain that this part of the code reads. -/
structure ChainFlags where
  immutable : Bool := false
  memPinnedR : Bool := false
  memPinnedW : Bool := false
  dangling : Bool := false
  deriving DecidableEq

/-- `struct evbuffer_chain` but for `next`, which is a cell of the memory. -/
structure EvbufferChain where
  bufferLen : Nat
  misalign : Nat
  off : Nat
  flags : ChainFlags
  refcnt : Nat
  buffer : ChainId
  deriving DecidableEq

def EvbufferChain.drained (ch : EvbufferChain) (n : Nat) : EvbufferChain :=
  { ch with misalign := ch.misalign + n, off := ch.off - n }

/-- What a `struct evbuffer_chain **` can point at: the `first` field of a buffer or the `next`
field of a chain. -/
inductive ChainPtr
  | first (b : BufId)
  | next (c : ChainId)
  deriving DecidableEq

/-- `struct evbuffer` but for `first`, which is a cell of the memory. -/
structure Evbuffer where
  last : Option ChainId
  lastWithDatap : ChainPtr
  totalLen : Nat
  nAddForCb : Nat
  nDelForCb : Nat
  freezeStart : Bool
  freezeEnd : Bool
  deriving DecidableEq

/-- The buffers, the chains and their blocks. `live` lists the allocated chains with `size` the
bytes handed out for each, `grant` says which calls of the allocator succeed, `oom` records that
some allocation has failed, and `fault` that an assertion failed, a null pointer was followed or a
loop over a list did not end. -/
structure Memory where
  buf : BufId → Evbuffer
  cell : ChainPtr → Option ChainId
  chain : ChainId → EvbufferChain
  block : ChainId → Nat → UInt8
  size : ChainId → Nat
  live : List ChainId
  fresh : ChainId
  grant : Nat → Bool
  oom : Bool
  fault : Bool

namespace Memory

variable (m : Memory)

def setCell (p : ChainPtr) (v : Option ChainId) : Memory :=
  { m with cell := update m.cell p v }

def modifyBuf (b : BufId) (f : Evbuffer → Evbuffer) : Memory :=
  { m with buf := update m.buf b (f (m.buf b)) }

def modifyChain (c : ChainId) (f : EvbufferChain → EvbufferChain) : Memory :=
  { m with chain := update m.chain c (f (m.chain c)) }

def memcpy (dst : ChainId) (pos : Nat) (data : Bytes) : Memory :=
  { m with block := update m.block dst (ByteBlock.write (m.block dst) pos data) }

def data (c : ChainId) : Bytes :=
  ByteBlock.read (m.block (m.chain c).buffer) (m.chain c).misalign (m.chain c).off

def evutilAssert (p : Prop) [Decidable p] : Memory :=
  if p then m else { m with fault := true }

def crash : Memory := { m with fault := true }

def fuel : Nat := m.live.length + 1

def used : Nat := (m.live.map m.size).sum

def lastWithData (b : BufId) : Option ChainId := m.cell (m.buf b).lastWithDatap

def chainPinned (c : ChainId) : Bool :=
  (m.chain c).flags.memPinnedR || (m.chain c).flags.memPinnedW

def chainPinnedR (c : ChainId) : Bool := (m.chain c).flags.memPinnedR

def chainSpaceLen (c : ChainId) : Nat :=
  if (m.chain c).flags.immutable then 0
  else (m.chain c).bufferLen - ((m.chain c).misalign + (m.chain c).off)

end Memory

def addSize (a n : Nat) : Nat := (a + n) % 2 ^ 64

def growToAlloc (size : Nat) : Nat → Nat → Nat
  | 0, toAlloc => toAlloc
  | k + 1, toAlloc => if toAlloc < size then growToAlloc size k (2 * toAlloc) else toAlloc

def chainAlloc (size : Nat) : Nat :=
  if size < evbufferChainMax / 2 then growToAlloc size 64 minBufferSize else size

variable (m : Memory)

/-- The call `mm_malloc(toAlloc)`: the allocated blocks lie side by side in the user half of a
64-bit address space. -/
def mmMalloc (toAlloc : Nat) : Bool :=
  m.grant m.fresh && decide (m.used + toAlloc ≤ evSsizeMax)

def evbufferChainNew (size : Nat) : Option ChainId × Memory :=
  if evbufferChainMax - evbufferChainSize < size then (none, { m with oom := true })
  else
    let toAlloc := chainAlloc (size + evbufferChainSize)
    if mmMalloc m toAlloc then
      (some m.fresh,
        { m with
          cell := update m.cell (.next m.fresh) none
          chain := update m.chain m.fresh
            { bufferLen := toAlloc - evbufferChainSize, misalign := 0, off := 0, flags := {},
              refcnt := 1, buffer := m.fresh }
          size := update m.size m.fresh toAlloc
          live := m.fresh :: m.live
          fresh := m.fresh + 1 })
    else (none, { m with fresh := m.fresh + 1, oom := true })

def mmFree (c : ChainId) : Memory :=
  { m with
    cell := update m.cell (.next c) none
    chain := update m.chain c
      { bufferLen := 0, misalign := 0, off := 0, flags := {}, refcnt := 0, buffer := c }
    live := m.live.erase c }

def evbufferChainFree (c : ChainId) : Memory :=
  let m := m.evutilAssert (0 < (m.chain c).refcnt)
  let m := m.modifyChain c fun ch => { ch with refcnt := ch.refcnt - 1 }
  if 0 < (m.chain c).refcnt then m
  else if m.chainPinned c then
    m.modifyChain c fun ch =>
      { ch with refcnt := ch.refcnt + 1, flags := { ch.flags with dangling := true } }
  else mmFree m c

def freeAllChains : Nat → Memory → Option ChainId → Memory
  | _, m, none => m
  | 0, m, some _ => m.crash
  | k + 1, m, some c => freeAllChains k (evbufferChainFree m c) (m.cell (.next c))

def evbufferFreeAllChains (chain : Option ChainId) : Memory :=
  freeAllChains m.fuel m chain

def firstVictim : Nat → Memory → ChainPtr → Memory × ChainPtr
  | 0, m, ch => (m.crash, ch)
  | k + 1, m, ch =>
    match m.cell ch with
    | some c =>
      if (m.chain c).off ≠ 0 ∨ m.chainPinned c then firstVictim k m (.next c) else (m, ch)
    | none => (m, ch)

def chainsAllEmpty (m : Memory) : Nat → Option ChainId → Bool
  | _, none => true
  | 0, some _ => false
  | k + 1, some c => (m.chain c).off == 0 && chainsAllEmpty m k (m.cell (.next c))

def evbufferFreeTrailingEmptyChains (b : BufId) : Memory × ChainPtr :=
  let r := firstVictim m.fuel m (m.buf b).lastWithDatap
  let m := r.1
  match m.cell r.2 with
  | some c =>
    let m := m.evutilAssert (chainsAllEmpty m m.fuel (some c))
    ((evbufferFreeAllChains m (some c)).setCell r.2 none, r.2)
  | none => (m, r.2)

def evbufferChainInsert (b : BufId) (c : ChainId) : Memory :=
  let m :=
    match m.lastWithData b with
    | none =>
      let m := m.evutilAssert ((m.buf b).lastWithDatap = ChainPtr.first b)
      let m := m.evutilAssert (m.cell (ChainPtr.first b) = none)
      (m.setCell (.first b) (some c)).modifyBuf b fun s => { s with last := some c }
    | some _ =>
      let r := evbufferFreeTrailingEmptyChains m b
      let m := r.1.setCell r.2 (some c)
      m.modifyBuf b fun s =>
        { s with
          lastWithDatap := if (m.chain c).off ≠ 0 then r.2 else s.lastWithDatap
          last := some c }
  m.modifyBuf b fun s => { s with totalLen := addSize s.totalLen (m.chain c).off }

def evbufferInvokeCallbacks (b : BufId) : Memory :=
  m.modifyBuf b fun s => { s with nAddForCb := 0, nDelForCb := 0 }

def advanceLastWithDataLoop (b : BufId) : Nat → Memory → Memory
  | 0, m => m.crash
  | k + 1, m =>
    match m.lastWithData b with
    | none => m.crash
    | some c =>
      match m.cell (.next c) with
      | none => m
      | some d =>
        if (m.chain d).off ≠ 0 then
          advanceLastWithDataLoop b k (m.modifyBuf b fun s => { s with lastWithDatap := .next c })
        else m

def advanceLastWithData (b : BufId) : Memory :=
  match m.lastWithData b with
  | none => m
  | some _ => advanceLastWithDataLoop b m.fuel m

def hasPinnedR (b : BufId) : Bool :=
  match (m.buf b).last with
  | none => false
  | some c => m.chainPinnedR c

def zeroChain (b : BufId) : Memory :=
  (m.setCell (.first b) none).modifyBuf b fun s =>
    { s with last := none, lastWithDatap := .first b, totalLen := 0 }

def loadChain (t : ChainId) (data : Bytes) : Memory :=
  (m.memcpy (m.chain t).buffer 0 data).modifyChain t fun ch => { ch with off := data.length }

/-- The helper `PRESERVE_PINNED`: the first and last read-pinned chains, or `none` when the
allocation failed. -/
def preservePinned (src : BufId) : Option (Option ChainId × Option ChainId) × Memory :=
  if !hasPinnedR m src then (some (none, none), m)
  else
    match m.lastWithData src with
    | none => (some (none, none), m.crash)
    | some d =>
      let pinned := if m.chainPinnedR d then (m.buf src).lastWithDatap else .next d
      match m.cell pinned with
      | none => (some (none, none), m.crash)
      | some c =>
        let m := m.evutilAssert (m.chainPinnedR c)
        let last := (m.buf src).last
        if (m.chain c).off ≠ 0 then
          let m := m.evutilAssert (pinned = (m.buf src).lastWithDatap)
          match evbufferChainNew m (m.chain c).off with
          | (none, m) => (none, m)
          | (some t, m) =>
            let m := loadChain m t (m.data c)
            let m := m.setCell (m.buf src).lastWithDatap (some t)
            let m := m.modifyBuf src fun s => { s with last := some t }
            let m := m.modifyChain c fun ch =>
              { ch with misalign := ch.misalign + ch.off, off := 0 }
            (some (some c, last), m)
        else
          let m := m.modifyBuf src fun s => { s with last := m.lastWithData src }
          (some (some c, last), m.setCell pinned none)

def restorePinned (src : BufId) (pinned last : Option ChainId) : Memory :=
  match pinned with
  | none => zeroChain m src
  | some c =>
    (m.setCell (.first src) (some c)).modifyBuf src fun s =>
      { s with last := last, lastWithDatap := .first src, totalLen := 0 }

def copyChain (dst src : BufId) : Memory :=
  let s := m.buf src
  (m.setCell (.first dst) (m.cell (.first src))).modifyBuf dst fun d =>
    { d with
      lastWithDatap := if s.lastWithDatap = .first src then .first dst else s.lastWithDatap
      last := s.last
      totalLen := s.totalLen }

def appendChain (dst src : BufId) : Memory :=
  let r := evbufferFreeTrailingEmptyChains m dst
  let m := r.1.setCell r.2 (r.1.cell (.first src))
  let s := m.buf src
  m.modifyBuf dst fun d =>
    { d with
      lastWithDatap := if s.lastWithDatap = .first src then r.2 else s.lastWithDatap
      last := s.last
      totalLen := addSize d.totalLen s.totalLen }

def prependChain (dst src : BufId) : Memory :=
  match (m.buf src).last with
  | none => m.crash
  | some t =>
    let m := m.setCell (.next t) (m.cell (.first dst))
    let m := m.setCell (.first dst) (m.cell (.first src))
    let s := m.buf src
    let m := m.modifyBuf dst fun d => { d with totalLen := addSize d.totalLen s.totalLen }
    m.modifyBuf dst fun d =>
      { d with
        lastWithDatap :=
          if m.lastWithData dst = none then
            if s.lastWithDatap = .first src then .first dst else s.lastWithDatap
          else if d.lastWithDatap = .first dst then .next t
          else d.lastWithDatap }

def evbufferAddBuffer (outbuf inbuf : BufId) : Int × Memory :=
  let inTotalLen := (m.buf inbuf).totalLen
  let outTotalLen := (m.buf outbuf).totalLen
  if inTotalLen = 0 ∨ outbuf = inbuf then (0, m)
  else if (m.buf outbuf).freezeEnd ∨ (m.buf inbuf).freezeStart then (-1, m)
  else
    match preservePinned m inbuf with
    | (none, m) => (-1, m)
    | (some (pinned, last), m) =>
      let m :=
        if outTotalLen = 0 then
          copyChain (evbufferFreeAllChains m (m.cell (.first outbuf))) outbuf inbuf
        else appendChain m outbuf inbuf
      let m := restorePinned m inbuf pinned last
      let m := m.modifyBuf inbuf fun s => { s with nDelForCb := addSize s.nDelForCb inTotalLen }
      let m := m.modifyBuf outbuf fun s => { s with nAddForCb := addSize s.nAddForCb inTotalLen }
      (0, evbufferInvokeCallbacks (evbufferInvokeCallbacks m inbuf) outbuf)

def evbufferPrependBuffer (outbuf inbuf : BufId) : Int × Memory :=
  let inTotalLen := (m.buf inbuf).totalLen
  let outTotalLen := (m.buf outbuf).totalLen
  if inTotalLen = 0 ∨ inbuf = outbuf then (0, m)
  else if (m.buf outbuf).freezeStart ∨ (m.buf inbuf).freezeStart then (-1, m)
  else
    match preservePinned m inbuf with
    | (none, m) => (-1, m)
    | (some (pinned, last), m) =>
      let m :=
        if outTotalLen = 0 then
          copyChain (evbufferFreeAllChains m (m.cell (.first outbuf))) outbuf inbuf
        else prependChain m outbuf inbuf
      let m := restorePinned m inbuf pinned last
      let m := m.modifyBuf inbuf fun s => { s with nDelForCb := addSize s.nDelForCb inTotalLen }
      let m := m.modifyBuf outbuf fun s => { s with nAddForCb := addSize s.nAddForCb inTotalLen }
      (0, evbufferInvokeCallbacks (evbufferInvokeCallbacks m inbuf) outbuf)

def drainLoop (b : BufId) : Nat → Memory → Option ChainId → Nat → Memory × Option ChainId × Nat
  | 0, m, chain, remaining => (m.crash, chain, remaining)
  | _ + 1, m, none, remaining => (m.crash, none, remaining)
  | k + 1, m, some c, remaining =>
    if (m.chain c).off ≤ remaining then
      let next := m.cell (.next c)
      let remaining := remaining - (m.chain c).off
      let m :=
        if m.lastWithData b = some c then
          m.modifyBuf b fun s => { s with lastWithDatap := .first b }
        else m
      let m :=
        if (m.buf b).lastWithDatap = .next c then
          m.modifyBuf b fun s => { s with lastWithDatap := .first b }
        else m
      if m.chainPinnedR c then
        let m := m.evutilAssert (remaining = 0)
        (m.modifyChain c fun ch => { ch with misalign := ch.misalign + ch.off, off := 0 }, some c, remaining)
      else drainLoop b k (evbufferChainFree m c) next remaining
    else (m, some c, remaining)

def drainPart (b : BufId) (len : Nat) : Memory :=
  let m := m.modifyBuf b fun s => { s with totalLen := s.totalLen - len }
  match drainLoop b m.fuel m (m.cell (.first b)) len with
  | (m, none, _) => m.crash
  | (m, some c, remaining) =>
    let m := m.setCell (.first b) (some c)
    let m := m.evutilAssert (remaining ≤ (m.chain c).off)
    m.modifyChain c fun ch => ch.drained remaining

def evbufferDrain (b : BufId) (len : Nat) : Int × Memory :=
  let oldLen := (m.buf b).totalLen
  if oldLen = 0 then (0, m)
  else if (m.buf b).freezeStart then (-1, m)
  else
    let m :=
      if oldLen ≤ len ∧ !hasPinnedR m b then
        zeroChain (evbufferFreeAllChains m (m.cell (.first b))) b
      else drainPart m b (min len oldLen)
    let m := m.modifyBuf b fun s => { s with nDelForCb := addSize s.nDelForCb (min len oldLen) }
    (0, evbufferInvokeCallbacks m b)

/-- The loop of `evbuffer_copyout_from` over the chains that are copied whole: the bytes copied,
the chain and the count left. -/
def copyoutLoop : Nat → Memory → Option ChainId → Nat → Bytes → Memory × Bytes × Option ChainId × Nat
  | 0, m, chain, datlen, data => (m.crash, data, chain, datlen)
  | k + 1, m, chain, datlen, data =>
    if datlen = 0 then (m, data, chain, datlen)
    else
      match chain with
      | none => (m.crash, data, none, datlen)
      | some c =>
        if (m.chain c).off ≤ datlen then
          let left := datlen - (m.chain c).off
          let m := m.evutilAssert (m.cell (.next c) ≠ none ∨ left = 0)
          copyoutLoop k m (m.cell (.next c)) left (data ++ m.data c)
        else (m, data, chain, datlen)

/-- The function `evbuffer_copyout_from` with a null position: the result, the bytes stored at
`data_out`, and the memory. -/
def evbufferCopyout (b : BufId) (datlen : Nat) : (Int × Bytes) × Memory :=
  let datlen := min datlen (m.buf b).totalLen
  if datlen = 0 then ((0, []), m)
  else if (m.buf b).freezeStart then ((-1, []), m)
  else
    match copyoutLoop m.fuel m (m.cell (.first b)) datlen [] with
    | (m, data, chain, left) =>
      if left = 0 then ((datlen, data), m)
      else
        match chain with
        | none => ((datlen, data), m.crash)
        | some c =>
          let m := m.evutilAssert (left ≤ (m.chain c).off)
          ((datlen, data ++ ByteBlock.read (m.block (m.chain c).buffer) (m.chain c).misalign left), m)

def evbufferRemove (b : BufId) (datlen : Nat) : (Int × Bytes) × Memory :=
  match evbufferCopyout m b datlen with
  | ((n, data), m) =>
    if 0 < n then
      match evbufferDrain m b n.toNat with
      | (r, m) => ((if r < 0 then -1 else toInt n.toNat, data), m)
    else ((n, data), m)

def evbufferChainAlign (c : ChainId) : Memory :=
  let m := m.evutilAssert (!(m.chain c).flags.immutable)
  let m := m.evutilAssert (!m.chainPinned c)
  (m.memcpy (m.chain c).buffer 0 (m.data c)).modifyChain c fun ch => { ch with misalign := 0 }

def evbufferChainShouldRealign (ch : EvbufferChain) (datlen : Nat) : Bool :=
  datlen ≤ ch.bufferLen - ch.off && ch.off < ch.bufferLen / 2 && ch.off ≤ maxToRealignInExpand

def fillChain (b : BufId) (c : ChainId) (data : Bytes) : Memory :=
  let m := m.memcpy (m.chain c).buffer ((m.chain c).misalign + (m.chain c).off) data
  let m := m.modifyChain c fun ch => { ch with off := ch.off + data.length }
  m.modifyBuf b fun s =>
    { s with
      totalLen := addSize s.totalLen data.length
      nAddForCb := addSize s.nAddForCb data.length }

/-- The last part of `evbuffer_add`: the room left in `chain` is used up and the new chain `tmp`
takes the rest. -/
def addRest (b : BufId) (c t : ChainId) (remain : Nat) (data : Bytes) : Memory :=
  let m := if remain ≠ 0 then fillChain m b c (data.take remain) else m
  let data := data.drop remain
  let m := evbufferChainInsert (loadChain m t data) b t
  m.modifyBuf b fun s => { s with nAddForCb := addSize s.nAddForCb data.length }

def addNewChain (b : BufId) (c : ChainId) (remain : Nat) (data : Bytes) : Int × Memory :=
  let toAlloc := (m.chain c).bufferLen
  let toAlloc := if toAlloc ≤ evbufferChainMaxAutoSize / 2 then 2 * toAlloc else toAlloc
  match evbufferChainNew m (max toAlloc data.length) with
  | (none, m) => (-1, m)
  | (some t, m) => (0, evbufferInvokeCallbacks (addRest m b c t remain data) b)

def addToChain (b : BufId) (c : ChainId) (data : Bytes) : Int × Memory :=
  if !(m.chain c).flags.immutable then
    let m := m.evutilAssert ((m.chain c).misalign ≤ evbufferChainMax)
    let remain := (m.chain c).bufferLen - (m.chain c).misalign - (m.chain c).off
    if data.length ≤ remain then (0, evbufferInvokeCallbacks (fillChain m b c data) b)
    else if !m.chainPinned c ∧ evbufferChainShouldRealign (m.chain c) data.length then
      (0, evbufferInvokeCallbacks (fillChain (evbufferChainAlign m c) b c data) b)
    else addNewChain m b c remain data
  else addNewChain m b c 0 data

def evbufferAdd (b : BufId) (data : Bytes) : Int × Memory :=
  if (m.buf b).freezeEnd then (-1, m)
  else if evSizeMax - (m.buf b).totalLen < data.length then (-1, m)
  else
    match (m.lastWithData b).or (m.buf b).last with
    | some c => addToChain m b c data
    | none =>
      match evbufferChainNew m data.length with
      | (none, m) => (-1, m)
      | (some c, m) => addToChain (evbufferChainInsert m b c) b c data

def prependRest (b : BufId) (c t : ChainId) (data : Bytes) : Memory :=
  let m := m.setCell (.first b) (some t)
  let m := m.modifyBuf b fun s =>
    { s with lastWithDatap := if s.lastWithDatap = .first b then .next t else s.lastWithDatap }
  let m := m.setCell (.next t) (some c)
  let m := m.evutilAssert (data.length ≤ (m.chain t).bufferLen)
  let m := m.modifyChain t fun ch =>
    { ch with off := data.length, misalign := ch.bufferLen - data.length }
  let m := m.memcpy (m.chain t).buffer (m.chain t).misalign data
  m.modifyBuf b fun s =>
    { s with
      totalLen := addSize s.totalLen data.length
      nAddForCb := addSize s.nAddForCb data.length }

def prependNewChain (b : BufId) (c : ChainId) (data : Bytes) : Int × Memory :=
  match evbufferChainNew m data.length with
  | (none, m) => (-1, m)
  | (some t, m) => (0, evbufferInvokeCallbacks (prependRest m b c t data) b)

def fillChainFront (b : BufId) (c : ChainId) (data : Bytes) : Memory :=
  let m := m.memcpy (m.chain c).buffer ((m.chain c).misalign - data.length) data
  let m := m.modifyChain c fun ch =>
    { ch with off := ch.off + data.length, misalign := ch.misalign - data.length }
  m.modifyBuf b fun s =>
    { s with
      totalLen := addSize s.totalLen data.length
      nAddForCb := addSize s.nAddForCb data.length }

def prependToChain (b : BufId) (c : ChainId) (data : Bytes) : Int × Memory :=
  if !(m.chain c).flags.immutable then
    let m := m.evutilAssert ((m.chain c).misalign ≤ evbufferChainMax)
    let m :=
      if (m.chain c).off = 0 then m.modifyChain c fun ch => { ch with misalign := ch.bufferLen }
      else m
    if data.length ≤ (m.chain c).misalign then
      (0, evbufferInvokeCallbacks (fillChainFront m b c data) b)
    else if (m.chain c).misalign ≠ 0 then
      let fit := data.length - (m.chain c).misalign
      prependNewChain (fillChainFront m b c (data.drop fit)) b c (data.take fit)
    else prependNewChain m b c data
  else prependNewChain m b c data

def evbufferPrepend (b : BufId) (data : Bytes) : Int × Memory :=
  if (m.buf b).freezeStart then (-1, m)
  else if evSizeMax - (m.buf b).totalLen < data.length then (-1, m)
  else
    match m.cell (.first b) with
    | some c => prependToChain m b c data
    | none =>
      match evbufferChainNew m data.length with
      | (none, m) => (-1, m)
      | (some c, m) => prependToChain (evbufferChainInsert m b c) b c data

/-- The loop of `evbuffer_remove_buffer` over the chains that change buffers: `chain`,
`previous`, `nread` and `datlen`. -/
def removeBufferLoop (src : BufId) : Nat → Memory → Option ChainId → Option ChainId → Nat → Nat →
    Memory × Option ChainId × Option ChainId × Nat × Nat
  | 0, m, chain, previous, nread, datlen => (m.crash, chain, previous, nread, datlen)
  | _ + 1, m, none, previous, nread, datlen => (m.crash, none, previous, nread, datlen)
  | k + 1, m, some c, previous, nread, datlen =>
    if (m.chain c).off ≤ datlen then
      let m := m.evutilAssert (m.lastWithData src ≠ some c)
      let m :=
        if (m.buf src).lastWithDatap = .next c then
          m.modifyBuf src fun s => { s with lastWithDatap := .first src }
        else m
      removeBufferLoop src k m (m.cell (.next c)) (some c) (nread + (m.chain c).off) (datlen - (m.chain c).off)
    else (m, some c, previous, nread, datlen)

def relinkChains (src dst : BufId) (chp : ChainPtr) (chain previous : Option ChainId) : Memory :=
  let m :=
    if m.cell (.first dst) = none then m.setCell (.first dst) (m.cell (.first src))
    else m.setCell chp (m.cell (.first src))
  let m := m.modifyBuf dst fun s => { s with last := previous }
  let m :=
    match previous with
    | none => m.crash
    | some p => m.setCell (.next p) none
  m.setCell (.first src) chain

def moveChains (src dst : BufId) (chain previous : Option ChainId) (nread : Nat) : Memory :=
  let r := evbufferFreeTrailingEmptyChains m dst
  let m := relinkChains r.1 src dst r.2 chain previous
  let m := advanceLastWithData m dst
  m.modifyBuf dst fun s =>
    { s with totalLen := addSize s.totalLen nread, nAddForCb := addSize s.nAddForCb nread }

def removeBufferRest (src dst : BufId) (c : ChainId) (nread datlen : Nat) : Int × Memory :=
  let m := (evbufferAdd m dst (ByteBlock.read (m.block (m.chain c).buffer) (m.chain c).misalign datlen)).2
  let m := m.modifyChain c fun ch => ch.drained datlen
  let nread := nread + datlen
  let m := m.modifyBuf src fun s =>
    { s with totalLen := s.totalLen - nread, nDelForCb := addSize s.nDelForCb nread }
  (toInt nread, if nread ≠ 0 then evbufferInvokeCallbacks (evbufferInvokeCallbacks m dst) src else m)

def evbufferRemoveBuffer (src dst : BufId) (datlen : Nat) : Int × Memory :=
  if datlen = 0 ∨ dst = src then (0, m)
  else if (m.buf dst).freezeEnd ∨ (m.buf src).freezeStart then (-1, m)
  else if (m.buf src).totalLen ≤ datlen then
    (toInt (m.buf src).totalLen, (evbufferAddBuffer m dst src).2)
  else
    match removeBufferLoop src m.fuel m (m.cell (.first src)) (m.cell (.first src)) 0 datlen with
    | (m, none, _, _, _) => (0, m.crash)
    | (m, some c, previous, nread, datlen) =>
      let m := if nread ≠ 0 then moveChains m src dst (some c) previous nread else m
      removeBufferRest m src dst c nread datlen

def pullupPinned : Nat → Memory → Option ChainId → Nat → Memory × Bool
  | _, m, none, _ => (m, false)
  | 0, m, some _, _ => (m.crash, false)
  | k + 1, m, some c, remaining =>
    if m.chainPinned c then (m, true)
    else if remaining ≤ (m.chain c).off then (m, false)
    else pullupPinned k m (m.cell (.next c)) (remaining - (m.chain c).off)

/-- What the copying loop of `evbuffer_pullup` carries along: `chain`, `size`, the position that
`buffer` points at, and the two `removed_` flags. -/
structure PullupCopy where
  chain : Option ChainId
  size : Nat
  pos : Nat
  removedLastWithData : Bool := false
  removedLastWithDatap : Bool := false

def pullupLoop (b : BufId) (buffer : ChainId) (lastWithData : Option ChainId) :
    Nat → Memory → PullupCopy → Memory × PullupCopy
  | 0, m, s => (m.crash, s)
  | k + 1, m, s =>
    match s.chain with
    | none => (m, s)
    | some c =>
      if (m.chain c).off ≤ s.size then
        let next := m.cell (.next c)
        let m' := m.memcpy buffer s.pos (m.data c)
        pullupLoop b buffer lastWithData k (evbufferChainFree m' c)
          { chain := next
            size := s.size - (m.chain c).off
            pos := s.pos + (m.chain c).off
            removedLastWithData := s.removedLastWithData || lastWithData == some c
            removedLastWithDatap :=
              s.removedLastWithDatap || (m.buf b).lastWithDatap == .next c }
      else (m, s)

/-- The part of `evbuffer_pullup` behind the loop: the rest is copied from the chain the loop has
stopped at, which then follows `tmp`. -/
def pullupTail (b : BufId) (tmp : ChainId) (s : PullupCopy) : Memory :=
  let m :=
    match s.chain with
    | some c =>
      let m := m.memcpy (m.chain tmp).buffer s.pos
        (ByteBlock.read (m.block (m.chain c).buffer) (m.chain c).misalign s.size)
      m.modifyChain c fun ch => ch.drained s.size
    | none => m.modifyBuf b fun s => { s with last := some tmp }
  m.setCell (.next tmp) s.chain

def pullupInto (b : BufId) (tmp : ChainId) (s : PullupCopy) : Option (ChainId × Nat) × Memory :=
  let r := pullupLoop b (m.chain tmp).buffer (m.lastWithData b) m.fuel m s
  let m := pullupTail r.1 b tmp r.2
  let lastWithDatap :=
    if r.2.removedLastWithData then .first b
    else if r.2.removedLastWithDatap then
      match m.cell (.first b) with
      | none => .first b
      | some f =>
        match m.cell (.next f) with
        | some d => if (m.chain d).off ≠ 0 then .next f else .first b
        | none => .first b
    else (m.buf b).lastWithDatap
  (some ((m.chain tmp).buffer, (m.chain tmp).misalign),
    m.modifyBuf b fun s => { s with lastWithDatap := lastWithDatap })

def pullupInPlace (b : BufId) (c : ChainId) (size : Nat) : Option (ChainId × Nat) × Memory :=
  let oldOff := (m.chain c).off
  let pos := (m.chain c).misalign + oldOff
  let m := m.modifyChain c fun ch => { ch with off := size }
  pullupInto m b c { chain := m.cell (.next c), size := size - oldOff, pos := pos }

def pullupSize (totalLen : Nat) (size : Int) : Nat := if size < 0 then totalLen else size.toNat

def evbufferPullup (b : BufId) (size : Int) : Option (ChainId × Nat) × Memory :=
  let n := pullupSize (m.buf b).totalLen size
  if n = 0 ∨ (m.buf b).totalLen < n then (none, m)
  else
    match m.cell (.first b) with
    | none => (none, m.crash)
    | some c =>
      if n ≤ (m.chain c).off then (some ((m.chain c).buffer, (m.chain c).misalign), m)
      else
        let m := m.evutilAssert (n - (m.chain c).off ≤ evSsizeMax)
        match pullupPinned m.fuel m (m.cell (.next c)) (n - (m.chain c).off) with
        | (m, true) => (none, m)
        | (m, false) =>
          if m.chainPinned c then
            if m.chainSpaceLen c < n - (m.chain c).off then (none, m) else pullupInPlace m b c n
          else if n ≤ (m.chain c).bufferLen - (m.chain c).misalign then pullupInPlace m b c n
          else
            match evbufferChainNew m n with
            | (none, m) => (none, m)
            | (some t, m) =>
              let m := m.modifyChain t fun ch => { ch with off := n }
              let m := m.setCell (.first b) (some t)
              pullupInto m b t { chain := some c, size := n, pos := 0 }

inductive EvbufferCall
  | add (b : BufId) (data : Bytes)
  | prepend (b : BufId) (data : Bytes)
  | drain (b : BufId) (len : Nat)
  | copyout (b : BufId) (datlen : Nat)
  | remove (b : BufId) (datlen : Nat)
  | addBuffer (outbuf inbuf : BufId)
  | prependBuffer (outbuf inbuf : BufId)
  | removeBuffer (src dst : BufId) (datlen : Nat)
  | pullup (b : BufId) (size : Int)

/-- What the caller gets: a result, bytes copied out, or the bytes behind the pointer that
`evbuffer_pullup` returned. -/
inductive EvbufferReply
  | code (result : Int)
  | bytes (result : Int) (data : Bytes)
  | region (data : Option Bytes)
  deriving DecidableEq

def EvbufferCall.run : EvbufferCall → EvbufferReply × Memory
  | .add b data =>
    let r := evbufferAdd m b data
    (.code r.1, r.2)
  | .prepend b data =>
    let r := evbufferPrepend m b data
    (.code r.1, r.2)
  | .drain b len =>
    let r := evbufferDrain m b len
    (.code r.1, r.2)
  | .copyout b datlen =>
    let r := evbufferCopyout m b datlen
    (.bytes r.1.1 r.1.2, r.2)
  | .remove b datlen =>
    let r := evbufferRemove m b datlen
    (.bytes r.1.1 r.1.2, r.2)
  | .addBuffer outbuf inbuf =>
    let r := evbufferAddBuffer m outbuf inbuf
    (.code r.1, r.2)
  | .prependBuffer outbuf inbuf =>
    let r := evbufferPrependBuffer m outbuf inbuf
    (.code r.1, r.2)
  | .removeBuffer src dst datlen =>
    let r := evbufferRemoveBuffer m src dst datlen
    (.code r.1, r.2)
  | .pullup b size =>
    let r := evbufferPullup m b size
    (.region (r.1.map fun p =>
      ByteBlock.read (r.2.block p.1) p.2 (pullupSize (m.buf b).totalLen size)), r.2)

/-- The calls of a program one after the other, as long as no allocation fails. -/
def evbufferRun : List EvbufferCall → Memory → Option (List EvbufferReply × Memory)
  | [], m => some ([], m)
  | call :: calls, m =>
    let r := call.run m
    if r.2.oom then none else (evbufferRun calls r.2).map fun s => (r.1 :: s.1, s.2)

/-- Buffers as `evbuffer_new` makes them, in a memory with arbitrary contents. -/
def Memory.start (grant : Nat → Bool) (chain : ChainId → EvbufferChain)
    (block : ChainId → Nat → UInt8) : Memory where
  buf b :=
    { last := none, lastWithDatap := .first b, totalLen := 0, nAddForCb := 0, nDelForCb := 0,
      freezeStart := false, freezeEnd := false }
  cell _ := none
  chain := chain
  block := block
  size _ := 0
  live := []
  fresh := 0
  grant := grant
  oom := false
  fault := false

abbrev ByteBuffers := BufId → Bytes

def EvbufferCall.spec (s : ByteBuffers) : EvbufferCall → EvbufferReply × ByteBuffers
  | .add b data =>
    if evSizeMax < (s b).length + data.length then (.code (-1), s)
    else (.code 0, update s b (s b ++ data))
  | .prepend b data =>
    if evSizeMax < (s b).length + data.length then (.code (-1), s)
    else (.code 0, update s b (data ++ s b))
  | .drain b len => (.code 0, update s b ((s b).drop len))
  | .copyout b datlen => (.bytes (min datlen (s b).length : Nat) ((s b).take datlen), s)
  | .remove b datlen =>
    (.bytes (toInt (min datlen (s b).length)) ((s b).take datlen), update s b ((s b).drop datlen))
  | .addBuffer outbuf inbuf =>
    if outbuf = inbuf then (.code 0, s)
    else
      (.code 0, update (update s outbuf (s outbuf ++ s inbuf)) inbuf [])
  | .prependBuffer outbuf inbuf =>
    if outbuf = inbuf then (.code 0, s)
    else
      (.code 0, update (update s outbuf (s inbuf ++ s outbuf)) inbuf [])
  | .removeBuffer src dst datlen =>
    if dst = src then (.code 0, s)
    else
      (.code (toInt (min datlen (s src).length)),
        update (update s dst (s dst ++ (s src).take datlen)) src ((s src).drop datlen))
  | .pullup b size =>
    let n := pullupSize (s b).length size
    (.region (if n = 0 ∨ (s b).length < n then none else some ((s b).take n)), s)

def EvbufferCall.specRun : List EvbufferCall → ByteBuffers → List EvbufferReply × ByteBuffers
  | [], s => ([], s)
  | call :: calls, s =>
    let r := call.spec s
    let rest := specRun calls r.2
    (r.1 :: rest.1, rest.2)

end MyLibevent
