import MyLibevent.Time
import MyLibevent.Util

/-!
# Rate limits

`bufferevent_ratelim.c` for one bufferevent that is in no group, and the bucket of a group. The limits are the signed
64-bit numbers of the source, the rates and maxima its `size_t`s, and the tick number has 32
bits. `now` is what `event_base_gettimeofday_cached` gives, `add` whether `event_add` succeeds.
-/

namespace MyLibevent

def evRateLimitMax : Nat := evSsizeMax

def toSsize (n : Int) : Int := n.bmod (2 ^ 64)

/-- `struct ev_token_bucket_cfg`. `bufferevent_set_rate_limit` compares configurations by their
address. -/
structure EvTokenBucketCfg where
  addr : Nat
  readRate : Nat
  readMaximum : Nat
  writeRate : Nat
  writeMaximum : Nat
  tickTimeout : Timeval
  msecPerTick : Nat
deriving DecidableEq, Repr

/-- `struct ev_token_bucket`; the limits can fall below 0. -/
@[ext]
structure EvTokenBucket where
  readLimit : Int
  writeLimit : Int
  lastUpdated : UInt32
deriving DecidableEq, Repr

def EvTokenBucketCfg.rate (cfg : EvTokenBucketCfg) (isWrite : Bool) : Nat :=
  if isWrite then cfg.writeRate else cfg.readRate

def EvTokenBucketCfg.maximum (cfg : EvTokenBucketCfg) (isWrite : Bool) : Nat :=
  if isWrite then cfg.writeMaximum else cfg.readMaximum

variable (bucket : EvTokenBucket)

def EvTokenBucket.lim (isWrite : Bool) : Int :=
  if isWrite then bucket.writeLimit else bucket.readLimit

def evTokenBucketInit (cfg : EvTokenBucketCfg) (currentTick : UInt32) ( reinitialize : Bool) : EvTokenBucket :=
  if reinitialize then
    { bucket with
      readLimit := if bucket.readLimit > toSsize cfg.readMaximum then toSsize cfg.readMaximum else bucket.readLimit
      writeLimit := if bucket.writeLimit > toSsize cfg.writeMaximum then toSsize cfg.writeMaximum
        else bucket.writeLimit }
  else ⟨toSsize cfg.readRate, toSsize cfg.writeRate, currentTick⟩

/-- One direction of `ev_token_bucket_update_`. The subtraction, the product and the sum are
taken modulo 2^64. -/
def refillLimit (limit : Int) (maximum rate nTicks : Nat) : Int :=
  if ((maximum - limit) % 2 ^ 64).toNat / nTicks < rate then toSsize maximum
  else toSsize (limit + nTicks * rate)

def evTokenBucketUpdate (cfg : EvTokenBucketCfg) (currentTick : UInt32) : EvTokenBucket :=
  let nTicks := (currentTick - bucket.lastUpdated).toNat
  -- no tick has passed, or the time has rolled back
  if nTicks = 0 ∨ nTicks > 2 ^ 31 - 1 then bucket
  else
    { readLimit := refillLimit bucket.readLimit cfg.readMaximum cfg.readRate nTicks
      writeLimit := refillLimit bucket.writeLimit cfg.writeMaximum cfg.writeRate nTicks
      lastUpdated := currentTick }

/-- The division of `ev_token_bucket_get_tick_`, before the number is cut to 32 bits. For a tick of less
than a millisecond `msec_per_tick` is 0 and the program dies there; the model has tick 0. -/
def tickCount (tv : Timeval) (cfg : EvTokenBucketCfg) : Nat :=
  ((tv.sec * 1000 + (tv.usec / 1000 : Nat)) % 2 ^ 64).toNat / cfg.msecPerTick

def evTokenBucketGetTick (tv : Timeval) (cfg : EvTokenBucketCfg) : UInt32 :=
  UInt32.ofNat (tickCount tv cfg)

def evTokenBucketCfgNew (readRate readBurst writeRate writeBurst : Nat) (tickLen : Option Timeval)
    (calloc : Option Nat) : Option EvTokenBucketCfg :=
  let tickLen := tickLen.getD ⟨1, 0⟩
  if readRate > readBurst ∨ writeRate > writeBurst ∨ readRate < 1 ∨ writeRate < 1 then none
  else if readRate > evRateLimitMax ∨ writeRate > evRateLimitMax ∨ readBurst > evRateLimitMax ∨
      writeBurst > evRateLimitMax then none
  else
    match calloc with
    | none => none
    | some addr => some
        { addr := addr
          readRate := readRate
          readMaximum := readBurst
          writeRate := writeRate
          writeMaximum := writeBurst
          tickTimeout := tickLen
          msecPerTick :=
            ((tickLen.sec * 1000 + (tickLen.masked.usec / 1000 : Nat)) % 2 ^ 32).toNat }

/-- `struct bufferevent_rate_limit` without its group. -/
structure BuffereventRateLimit where
  cfg : Option EvTokenBucketCfg
  limit : EvTokenBucket
  refillBucketEventPending : Bool
deriving DecidableEq, Repr

/-- What the rate limits read and write of `struct bufferevent_private`. The two suspension
fields are the bit `BEV_SUSPEND_BW` of `read_suspended` and `write_suspended`. -/
structure RateLimitedBev where
  rateLimiting : Option BuffereventRateLimit
  readSuspendedBw : Bool
  writeSuspendedBw : Bool
  maxSingleRead : Int
  maxSingleWrite : Int
deriving DecidableEq, Repr

variable (bev : RateLimitedBev)

def RateLimitedBev.suspendedBw (isWrite : Bool) : Bool :=
  if isWrite then bev.writeSuspendedBw else bev.readSuspendedBw

/-- `bufferevent_suspend_read_` and `bufferevent_suspend_write_`, and their inverses, as far as
`BEV_SUSPEND_BW` goes. -/
def RateLimitedBev.setSuspendedBw (isWrite v : Bool) : RateLimitedBev :=
  if isWrite then { bev with writeSuspendedBw := v } else { bev with readSuspendedBw := v }

def buffereventUpdateBuckets (rlim : BuffereventRateLimit) (cfg : EvTokenBucketCfg)
    (now : Timeval) : BuffereventRateLimit :=
  let tick := evTokenBucketGetTick now cfg
  if tick ≠ rlim.limit.lastUpdated then
    { rlim with limit := evTokenBucketUpdate rlim.limit cfg tick }
  else rlim

def buffereventGetRlimMax (isWrite : Bool) (now : Timeval) : Int × RateLimitedBev :=
  let maxSoFar := if isWrite then bev.maxSingleWrite else bev.maxSingleRead
  match bev.rateLimiting with
  | none => (maxSoFar, bev)
  | some rlim =>
    match rlim.cfg with
    | none => (if maxSoFar < 0 then 0 else maxSoFar, bev)
    | some cfg =>
      let rlim := buffereventUpdateBuckets rlim cfg now
      let maxSoFar := rlim.limit.lim isWrite
      (if maxSoFar < 0 then 0 else maxSoFar, { bev with rateLimiting := some rlim })

def buffereventGetReadMax (now : Timeval) : Int × RateLimitedBev :=
  buffereventGetRlimMax bev false now

def buffereventGetWriteMax (now : Timeval) : Int × RateLimitedBev :=
  buffereventGetRlimMax bev true now

def EvTokenBucket.decrement (isWrite : Bool) (bytes : Int) : EvTokenBucket :=
  if isWrite then { bucket with writeLimit := bucket.writeLimit - bytes }
  else { bucket with readLimit := bucket.readLimit - bytes }

/-- The common body of `bufferevent_decrement_read_buckets_` and
`bufferevent_decrement_write_buckets_`. -/
def decrementBuckets (isWrite : Bool) (bev : RateLimitedBev) (bytes : Int) (add : Bool) : Int × RateLimitedBev :=
  match bev.rateLimiting with
  | none => (0, bev)
  | some rlim =>
    match rlim.cfg with
    | none => (0, bev)
    | some _ =>
      let rlim := { rlim with limit := rlim.limit.decrement isWrite bytes }
      if rlim.limit.lim isWrite ≤ 0 then
        let bev := bev.setSuspendedBw isWrite true
        if add then
          (0, { bev with rateLimiting := some { rlim with refillBucketEventPending := true } })
        else (-1, { bev with rateLimiting := some rlim })
      else if bev.suspendedBw isWrite then
        -- the refill event stays for the other direction if that one is suspended too
        let pending := rlim.refillBucketEventPending && bev.suspendedBw !isWrite
        (0, { bev.setSuspendedBw isWrite false with
          rateLimiting := some { rlim with refillBucketEventPending := pending } })
      else (0, { bev with rateLimiting := some rlim })

def buffereventDecrementReadBuckets (bytes : Int) (add : Bool) : Int × RateLimitedBev :=
  decrementBuckets false bev bytes add

def buffereventDecrementWriteBuckets (bytes : Int) (add : Bool) : Int × RateLimitedBev :=
  decrementBuckets true bev bytes add

def getLimit (isWrite : Bool) (bev : RateLimitedBev) (now : Timeval) : Int × RateLimitedBev :=
  match bev.rateLimiting with
  | none => (evSsizeMax, bev)
  | some rlim =>
    match rlim.cfg with
    | none => (evSsizeMax, bev)
    | some cfg =>
      let rlim := buffereventUpdateBuckets rlim cfg now
      (rlim.limit.lim isWrite, { bev with rateLimiting := some rlim })

def buffereventGetReadLimit (now : Timeval) : Int × RateLimitedBev :=
  getLimit false bev now

def buffereventGetWriteLimit (now : Timeval) : Int × RateLimitedBev :=
  getLimit true bev now

/-- The common body of `bufferevent_decrement_read_limit` and `bufferevent_decrement_write_limit`;
`none` is the failed assertion that a rate limit is set. -/
def decrementLimit (isWrite : Bool) (bev : RateLimitedBev) (decr : Int) (add : Bool) :
    Option (Int × RateLimitedBev) :=
  match bev.rateLimiting with
  | none => none
  | some rlim =>
    match rlim.cfg with
    | none => none
    | some _ =>
      let oldLimit := rlim.limit.lim isWrite
      let rlim := { rlim with limit := rlim.limit.decrement isWrite decr }
      let newLimit := rlim.limit.lim isWrite
      if oldLimit > 0 ∧ newLimit ≤ 0 then
        let bev := bev.setSuspendedBw isWrite true
        if add then
          some (0, { bev with rateLimiting := some { rlim with refillBucketEventPending := true } })
        else some (-1, { bev with rateLimiting := some rlim })
      else if oldLimit ≤ 0 ∧ newLimit > 0 then
        let pending := rlim.refillBucketEventPending && bev.suspendedBw !isWrite
        some (0, { bev.setSuspendedBw isWrite false with
          rateLimiting := some { rlim with refillBucketEventPending := pending } })
      else some (0, { bev with rateLimiting := some rlim })

def buffereventDecrementReadLimit (decr : Int) (add : Bool) : Option (Int × RateLimitedBev) :=
  decrementLimit false bev decr add

def buffereventDecrementWriteLimit (decr : Int) (add : Bool) : Option (Int × RateLimitedBev) :=
  decrementLimit true bev decr add

/-- The part of `bev_refill_callback_` that lifts the suspension of one direction; the Boolean
is `again`. -/
def refillUnsuspend (limit : EvTokenBucket) (isWrite : Bool) : Bool × RateLimitedBev :=
  if bev.suspendedBw isWrite then
    if limit.lim isWrite > 0 then (false, bev.setSuspendedBw isWrite false) else (true, bev)
  else (false, bev)

/-- `bev_refill_callback_`. It runs when the refill event has fired, so that the event is no
longer pending. -/
def bevRefillCallback (now : Timeval) (add : Bool) : RateLimitedBev :=
  match bev.rateLimiting with
  | none => bev
  | some rlim =>
    match rlim.cfg with
    | none => { bev with rateLimiting := some { rlim with refillBucketEventPending := false } }
    | some cfg =>
      let limit := evTokenBucketUpdate rlim.limit cfg (evTokenBucketGetTick now cfg)
      let (againRead, bev) := refillUnsuspend bev limit false
      let (againWrite, bev) := refillUnsuspend bev limit true
      { bev with
        rateLimiting := some
          { rlim with
            limit := limit
            refillBucketEventPending := (againRead || againWrite) && add } }

/-- The end of `bufferevent_set_rate_limit`: each direction is suspended or not by its limit, and
the refill event is added if one is. -/
def suspendByLimit (rlim : BuffereventRateLimit) (add : Bool) : RateLimitedBev :=
  let readSuspended := decide (rlim.limit.readLimit ≤ 0)
  let writeSuspended := decide (rlim.limit.writeLimit ≤ 0)
  { bev with
    readSuspendedBw := readSuspended
    writeSuspendedBw := writeSuspended
    rateLimiting := some
      { rlim with refillBucketEventPending := (readSuspended || writeSuspended) && add } }

/-- `bufferevent_set_rate_limit`: the return value and the bufferevent. `calloc` tells whether
there is memory for the rate limit. -/
def buffereventSetRateLimit (cfg : Option EvTokenBucketCfg) (now : Timeval)
    (calloc add : Bool) : Int × RateLimitedBev :=
  match cfg with
  | none =>
    match bev.rateLimiting with
    | none => (0, bev)
    | some rlim => (0, { bev with
        rateLimiting := some { rlim with cfg := none, refillBucketEventPending := false }
        readSuspendedBw := false
        writeSuspendedBw := false })
  | some cfg =>
    let tick := evTokenBucketGetTick now cfg
    match bev.rateLimiting with
    | none =>
      if calloc then
        let limit := evTokenBucketInit ⟨0, 0, 0⟩ cfg tick false
        (0, suspendByLimit bev ⟨some cfg, limit, false⟩ add)
      else (-1, bev)
    | some rlim =>
      if rlim.cfg.map (·.addr) = some cfg.addr then (0, bev)
      else
        let reinit := rlim.cfg.isSome
        let limit := evTokenBucketInit rlim.limit cfg tick reinit
        (0, suspendByLimit bev { rlim with cfg := some cfg, limit := limit } add)

/-- The configuration and the bucket of `struct bufferevent_rate_limit_group`. -/
structure BuffereventRateLimitGroup where
  rateLimitCfg : EvTokenBucketCfg
  rateLimit : EvTokenBucket
deriving DecidableEq, Repr

def buffereventRateLimitGroupSetCfg (g : BuffereventRateLimitGroup) (cfg : EvTokenBucketCfg) :
    BuffereventRateLimitGroup :=
  { rateLimitCfg := cfg
    rateLimit := { g.rateLimit with
      readLimit := if g.rateLimit.readLimit > toSsize cfg.readMaximum then toSsize cfg.readMaximum
        else g.rateLimit.readLimit
      writeLimit := if g.rateLimit.writeLimit > toSsize cfg.writeMaximum then
        toSsize cfg.writeMaximum else g.rateLimit.writeLimit } }

def bevGroupRefillCallback (g : BuffereventRateLimitGroup) (now : Timeval) : BuffereventRateLimitGroup :=
  { g with rateLimit :=
      evTokenBucketUpdate g.rateLimit g.rateLimitCfg (evTokenBucketGetTick now g.rateLimitCfg) }

/-! ## Runs -/

/-- What happens to a bufferevent whose rate limit stays set: its maximum is asked for, bytes are
transferred after asking for the maximum, as the callbacks of a socket do, the refill event fires,
or time passes. -/
inductive RateStep where
  | query (isWrite : Bool) (now : Timeval)
  | transfer (isWrite : Bool) (now : Timeval) (bytes : Nat) (add : Bool)
  | refill (now : Timeval) (add : Bool)
  | pass (now : Timeval)

/-- A bufferevent, the present time, the time of the last update of its bucket and the bytes it has
transferred in each direction. -/
structure RateRun where
  bev : RateLimitedBev
  now : Timeval
  updated : Timeval
  moved : Bool → Nat

namespace RateRun

def start (bev : RateLimitedBev) (now : Timeval) : RateRun := ⟨bev, now, now, fun _ => 0⟩

def step (r : RateRun) : RateStep → RateRun
  | .query isWrite now => ⟨(buffereventGetRlimMax r.bev isWrite now).2, now, now, r.moved⟩
  | .transfer isWrite now bytes add =>
    let bev := (buffereventGetRlimMax r.bev isWrite now).2
    ⟨(decrementBuckets isWrite bev bytes add).2, now, now,
      Function.update r.moved isWrite (r.moved isWrite + bytes)⟩
  | .refill now add => ⟨bevRefillCallback r.bev now add, now, now, r.moved⟩
  | .pass now => { r with now := now }

variable (cfg : EvTokenBucketCfg)

/-- The ticks do not go back, and fewer than 2^31 of them have passed since the last update. -/
def MayUpdate (r : RateRun) (now : Timeval) : Prop :=
  tickCount r.now cfg ≤ tickCount now cfg ∧ tickCount now cfg < tickCount r.updated cfg + 2 ^ 31

/-- The steps of the runs considered: a transfer moves no more bytes than the maximum asked for
just before. -/
def Allowed (r : RateRun) : RateStep → Prop
  | .query _ now => r.MayUpdate cfg now
  | .transfer isWrite now bytes _ =>
    r.MayUpdate cfg now ∧ (bytes : Int) ≤ (buffereventGetRlimMax r.bev isWrite now).1
  | .refill now _ => r.MayUpdate cfg now
  | .pass now => tickCount r.now cfg ≤ tickCount now cfg

def Next (r r' : RateRun) : Prop :=
  ∃ st, r.Allowed cfg st ∧ r' = r.step st

end RateRun

/-! ## Runs that change the rate limit -/

/-- The configurations there are: those `ev_token_bucket_cfg_new` has returned. -/
def NewCfg := { cfg : EvTokenBucketCfg // ∃ readRate readBurst writeRate writeBurst tickLen addr,
  evTokenBucketCfgNew readRate readBurst writeRate writeBurst tickLen (some addr) = some cfg }

/-- What can happen to the rate limit of a bufferevent. A read or a write asks for the maximum
and, if bytes were transferred, decrements the bucket. -/
inductive LimitEvent where
  | setRateLimit (cfg : Option NewCfg) (now : Timeval) (calloc : Bool)
  | getMax (isWrite : Bool) (now : Timeval)
  | getLimit (isWrite : Bool) (now : Timeval)
  | decrementBuckets (isWrite : Bool) (bytes : Int)
  | decrementLimit (isWrite : Bool) (decr : Int)
  | refill (now : Timeval)

namespace RateLimitedBev

def fresh (maxSingleRead maxSingleWrite : Int) : RateLimitedBev :=
  ⟨none, false, false, maxSingleRead, maxSingleWrite⟩

variable (bev : RateLimitedBev)

/-- The limits are numbers an `ev_ssize_t` holds. A signed subtraction that leaves the range has
no defined result. -/
def InRange : Prop :=
  ∀ rlim ∈ bev.rateLimiting, ∀ w, -(evRateLimitMax : Int) - 1 ≤ rlim.limit.lim w ∧ rlim.limit.lim w ≤ evRateLimitMax

instance : Decidable bev.InRange := by
  unfold InRange
  infer_instance

def inRange? : Option RateLimitedBev :=
  if bev.InRange then some bev else none

def refillPending : Bool :=
  bev.rateLimiting.any (·.refillBucketEventPending)

def limitStep : LimitEvent → Option RateLimitedBev
  | .setRateLimit cfg now calloc =>
    some (buffereventSetRateLimit bev (cfg.map Subtype.val) now calloc true).2
  | .getMax isWrite now => some (buffereventGetRlimMax bev isWrite now).2
  | .getLimit isWrite now => some (MyLibevent.getLimit isWrite bev now).2
  | .decrementBuckets isWrite bytes =>
    (MyLibevent.decrementBuckets isWrite bev bytes true).2.inRange?
  | .decrementLimit isWrite decr =>
    (MyLibevent.decrementLimit isWrite bev decr true).bind (·.2.inRange?)
  | .refill now => if bev.refillPending then some (bevRefillCallback bev now true) else none

/-- A direction of a set rate limit whose bucket is empty is suspended, and while a direction is
suspended the refill event is pending. -/
def DueForRefill : Prop :=
  (∀ rlim ∈ bev.rateLimiting, rlim.cfg.isSome → ∀ w, rlim.limit.lim w ≤ 0 → bev.suspendedBw w) ∧
  ∀ w, bev.suspendedBw w → bev.refillPending

instance : Decidable bev.DueForRefill := by
  unfold DueForRefill
  infer_instance

/-- A bucket that has been raised above its maximum still holds its limit after the ticks up to
`now`. -/
def RefillFits (now : Timeval) : Prop :=
  ∀ rlim ∈ bev.rateLimiting, ∀ cfg ∈ rlim.cfg, ∀ w,
    (evTokenBucketGetTick now cfg - rlim.limit.lastUpdated).toNat ≤ 2 ^ 31 - 1 →
      (cfg.maximum w : Int) < rlim.limit.lim w → rlim.limit.lim w +
        (evTokenBucketGetTick now cfg - rlim.limit.lastUpdated).toNat * cfg.rate w ≤ evRateLimitMax

instance (now : Timeval) : Decidable (bev.RefillFits now) := by
  unfold RefillFits
  infer_instance

def Refillable : LimitEvent → Prop
  | .getMax _ now => bev.RefillFits now
  | .getLimit _ now => bev.RefillFits now
  | .refill now => bev.RefillFits now
  | _ => True

instance (e : LimitEvent) : Decidable (bev.Refillable e) := by
  cases e <;> unfold Refillable <;> infer_instance

end RateLimitedBev

end MyLibevent
