import MyLibevent.Lib.TokenBucket
import MyLibevent.RateLimit

/-!
# Rate limits: a bucket is a token bucket

`refillLimit` is `TokenBucket.fill` on the limits an accepted configuration can lead to. What is transferred
is accounted for by the level of the buckets, counted up to the current tick.
-/

namespace MyLibevent.Proofs
open TokenBucket Function

structure CfgOk (cfg : EvTokenBucketCfg) : Prop where
  rate_le (w : Bool) : cfg.rate w ≤ cfg.maximum w
  le_max (w : Bool) : cfg.maximum w ≤ evRateLimitMax

structure CfgMade (cfg : EvTokenBucketCfg) : Prop extends CfgOk cfg where
  rate_pos (w : Bool) : 0 < cfg.rate w

variable {cfg : EvTokenBucketCfg} {updated tick : Nat} {bucket : EvTokenBucket}

lemma evTokenBucketCfgNew_made {readRate readBurst writeRate writeBurst : Nat}
    {tickLen : Option Timeval} {calloc : Option Nat}
    (h : evTokenBucketCfgNew readRate readBurst writeRate writeBurst tickLen calloc = some cfg) :
    CfgMade cfg := by
  unfold evTokenBucketCfgNew at h
  extract_lets at h
  split at h
  · cases h
  · split at h
    · cases h
    · cases calloc with
      | none => cases h
      | some addr =>
        cases h
        refine ⟨⟨?_, ?_⟩, ?_⟩
        all_goals
          intro w
          cases w <;> simp [EvTokenBucketCfg.rate, EvTokenBucketCfg.maximum] <;> omega

def FitsSsize (n : Int) : Prop := -(evRateLimitMax : Int) - 1 ≤ n ∧ n ≤ evRateLimitMax

lemma toSsize_of_fits {n : Int} (h : FitsSsize n) : toSsize n = n := by
  have hmax : (evRateLimitMax : Int) = 2 ^ 63 - 1 := rfl
  obtain ⟨hlo, hhi⟩ := h
  unfold toSsize
  rw [Int.bmod_eq_of_le] <;> omega

lemma refillLimit_eq_fill {limit : Int} {maximum rate nTicks : Nat} (hn : 0 < nTicks)
    (hmax : maximum ≤ evRateLimitMax) (hlo : -(evRateLimitMax : Int) - 1 ≤ limit)
    (hle : limit ≤ maximum) :
    refillLimit limit maximum rate nTicks = fill maximum rate nTicks limit := by
  have hbound : evRateLimitMax = 2 ^ 63 - 1 := rfl
  obtain ⟨room, hroom⟩ : ∃ room : Nat, (maximum : Int) - limit = room :=
    ⟨(maximum - limit).toNat, by omega⟩
  have hmod : (((maximum : Int) - limit) % 2 ^ 64).toNat = room := by
    rw [hroom, Int.emod_eq_of_lt (by omega) (by omega), Int.toNat_natCast]
  have hdiv : room / nTicks < rate ↔ room < nTicks * rate := by
    rw [Nat.div_lt_iff_lt_mul hn, Nat.mul_comm]
  unfold refillLimit fill
  rw [hmod]
  by_cases hfull : room / nTicks < rate
  · have hover : (room : Int) < nTicks * rate := by exact_mod_cast hdiv.mp hfull
    rw [if_pos hfull, toSsize_of_fits ⟨by omega, by omega⟩, min_eq_right (by omega)]
  · have hfits : (nTicks : Int) * rate ≤ room := by
      exact_mod_cast Nat.not_lt.mp (mt hdiv.mpr hfull)
    rw [if_neg hfull, toSsize_of_fits ⟨by omega, by omega⟩, min_eq_left (by omega)]

/-- The ticks by which an update moves a bucket on: none if the time seems to have rolled back. -/
def ticksCounted (last current : UInt32) : Nat :=
  if (current - last).toNat > 2 ^ 31 - 1 then 0 else (current - last).toNat

def lastCounted (last current : UInt32) : UInt32 :=
  if (current - last).toNat > 2 ^ 31 - 1 then last else current

lemma evTokenBucketUpdate_lim (hcfg : CfgOk cfg) {w : Bool} (current : UInt32)
    (hlo : -(evRateLimitMax : Int) - 1 ≤ bucket.lim w) (hle : bucket.lim w ≤ cfg.maximum w) :
    (evTokenBucketUpdate bucket cfg current).lim w =
      fill (cfg.maximum w) (cfg.rate w) (ticksCounted bucket.lastUpdated current) (bucket.lim w) := by
  unfold evTokenBucketUpdate ticksCounted
  extract_lets nTicks
  by_cases hzero : nTicks = 0 ∨ nTicks > 2 ^ 31 - 1
  · have hnone : (if nTicks > 2 ^ 31 - 1 then 0 else nTicks) = 0 := by
      split_ifs <;> omega
    rw [if_pos hzero, hnone, fill_zero hle]
  · rw [if_neg hzero, if_neg (by omega), ← refillLimit_eq_fill (by omega) (hcfg.le_max w) hlo hle]
    cases w <;> rfl

lemma evTokenBucketUpdate_last (current : UInt32) :
    (evTokenBucketUpdate bucket cfg current).lastUpdated = lastCounted bucket.lastUpdated current := by
  unfold evTokenBucketUpdate lastCounted
  extract_lets nTicks
  by_cases hzero : nTicks = 0
  · have hsame : current - bucket.lastUpdated = 0 := UInt32.toNat_inj.mp hzero
    rw [if_pos (Or.inl hzero), if_neg (by omega), ← UInt32.sub_add_cancel current, hsame, UInt32.zero_add]
  · split_ifs <;> first | rfl | omega

structure BucketOk (cfg : EvTokenBucketCfg) (updated : Nat) (bucket : EvTokenBucket) : Prop where
  nonneg (w : Bool) : 0 ≤ bucket.lim w
  le_maximum (w : Bool) : bucket.lim w ≤ cfg.maximum w
  last : bucket.lastUpdated = UInt32.ofNat updated

lemma ticks_between (hle : updated ≤ tick) (hlt : tick < updated + 2 ^ 31) :
    (UInt32.ofNat tick - UInt32.ofNat updated).toNat = tick - updated := by
  rw [UInt32.toNat_sub, UInt32.toNat_ofNat', UInt32.toNat_ofNat']
  omega

section

variable (hb : BucketOk cfg updated bucket) (hle : updated ≤ tick) (hlt : tick < updated + 2 ^ 31)
include hb hle hlt

lemma BucketOk.update_lim (hcfg : CfgOk cfg) (w : Bool) :
    (evTokenBucketUpdate bucket cfg (UInt32.ofNat tick)).lim w =
      fill (cfg.maximum w) (cfg.rate w) (tick - updated) (bucket.lim w) := by
  have hticks := ticks_between hle hlt
  have hnonneg := hb.nonneg w
  rw [evTokenBucketUpdate_lim hcfg _ (by omega) (hb.le_maximum w), hb.last, ticksCounted, if_neg (by omega), hticks]

lemma BucketOk.update (hcfg : CfgOk cfg) :
    BucketOk cfg tick (evTokenBucketUpdate bucket cfg (UInt32.ofNat tick)) where
  nonneg w := by
    rw [hb.update_lim hle hlt hcfg]
    exact (hb.nonneg w).trans (le_fill (Int.natCast_nonneg _) (hb.le_maximum w) _)
  le_maximum w := by
    rw [hb.update_lim hle hlt hcfg]
    exact fill_le _
  last := by
    have hticks := ticks_between hle hlt
    rw [evTokenBucketUpdate_last, hb.last, lastCounted, if_neg (by omega)]

end

def HasBucket (cfg : EvTokenBucketCfg) (bev : RateLimitedBev) (bucket : EvTokenBucket) : Prop :=
  ∃ pending, bev.rateLimiting = some ⟨some cfg, bucket, pending⟩

section Functions

variable {cfg : EvTokenBucketCfg} {bev : RateLimitedBev} {bucket : EvTokenBucket} {now : Timeval}
  {w : Bool}

lemma buffereventUpdateBuckets_eq (rlim : BuffereventRateLimit) :
    buffereventUpdateBuckets rlim cfg now =
      { rlim with limit := evTokenBucketUpdate rlim.limit cfg (evTokenBucketGetTick now cfg) } := by
  unfold buffereventUpdateBuckets
  extract_lets tick
  by_cases htick : tick = rlim.limit.lastUpdated
  · have hsame : evTokenBucketUpdate rlim.limit cfg tick = rlim.limit := by
      simp [evTokenBucketUpdate, htick]
    rw [if_neg (not_not.mpr htick), hsame]
  · rw [if_pos htick]

section

variable (h : HasBucket cfg bev bucket)
include h

lemma buffereventGetRlimMax_bucket (w : Bool) :
    HasBucket cfg (buffereventGetRlimMax bev w now).2
      (evTokenBucketUpdate bucket cfg (evTokenBucketGetTick now cfg)) := by
  obtain ⟨pending, hset⟩ := h
  unfold buffereventGetRlimMax
  simp only [hset, buffereventUpdateBuckets_eq]
  exact ⟨pending, rfl⟩

lemma buffereventGetRlimMax_fst (w : Bool) :
    (buffereventGetRlimMax bev w now).1 =
      max ((evTokenBucketUpdate bucket cfg (evTokenBucketGetTick now cfg)).lim w) 0 := by
  obtain ⟨pending, hset⟩ := h
  unfold buffereventGetRlimMax
  simp only [hset, buffereventUpdateBuckets_eq]
  split <;> omega

lemma decrementBuckets_bucket (w : Bool) (bytes : Int) (add : Bool) :
    HasBucket cfg (decrementBuckets w bev bytes add).2 (bucket.decrement w bytes) := by
  obtain ⟨pending, hset⟩ := h
  unfold decrementBuckets
  simp only [hset]
  split
  · cases add
    · exact ⟨pending, rfl⟩
    · exact ⟨true, rfl⟩
  · split
    · exact ⟨_, rfl⟩
    · exact ⟨pending, rfl⟩

lemma bevRefillCallback_bucket (add : Bool) :
    HasBucket cfg (bevRefillCallback bev now add)
      (evTokenBucketUpdate bucket cfg (evTokenBucketGetTick now cfg)) := by
  obtain ⟨pending, hset⟩ := h
  unfold bevRefillCallback
  simp only [hset]
  exact ⟨_, rfl⟩

end

lemma buffereventSetRateLimit_bucket {bev' : RateLimitedBev} {calloc add : Bool}
    (hnone : bev.rateLimiting.bind (·.cfg) = none)
    (hset : buffereventSetRateLimit bev (some cfg) now calloc add = (0, bev')) :
    HasBucket cfg bev' ⟨toSsize cfg.readRate, toSsize cfg.writeRate, evTokenBucketGetTick now cfg⟩ := by
  unfold buffereventSetRateLimit at hset
  cases hr : bev.rateLimiting with
  | none =>
    simp only [hr] at hset
    cases calloc with
    | false => cases hset
    | true =>
      cases hset
      exact ⟨_, rfl⟩
  | some rlim =>
    have hcfg : rlim.cfg = none := by
      rw [hr] at hnone
      exact hnone
    simp only [hr, hcfg] at hset
    cases hset
    exact ⟨_, rfl⟩

lemma decrement_lim (bytes : Int) (w' : Bool) :
    (bucket.decrement w bytes).lim w' = bucket.lim w' - if w' = w then bytes else 0 := by
  cases w <;> cases w' <;> simp [EvTokenBucket.decrement, EvTokenBucket.lim]

lemma BucketOk.decrement {updated : Nat} (hb : BucketOk cfg updated bucket) {bytes : Nat}
    (hle : (bytes : Int) ≤ bucket.lim w) : BucketOk cfg updated (bucket.decrement w bytes) where
  nonneg w' := by
    have hnonneg := hb.nonneg w'
    rw [decrement_lim]
    split_ifs with hw
    · rw [hw]
      omega
    · omega
  le_maximum w' := by
    have hmax := hb.le_maximum w'
    rw [decrement_lim]
    split_ifs <;> omega
  last := by
    rw [← hb.last]
    cases w <;> rfl

end Functions

/-- The rate limit `cfg` is set, with a bucket last updated at the time the run records. -/
structure RateInv (cfg : EvTokenBucketCfg) (r : RateRun) (bucket : EvTokenBucket) : Prop where
  has : HasBucket cfg r.bev bucket
  ok : BucketOk cfg (tickCount r.updated cfg) bucket
  le_now : tickCount r.updated cfg ≤ tickCount r.now cfg

def level (cfg : EvTokenBucketCfg) (r : RateRun) (bucket : EvTokenBucket) (w : Bool) : Int :=
  fill (cfg.maximum w) (cfg.rate w) (tickCount r.now cfg - tickCount r.updated cfg) (bucket.lim w)

section Run

variable {cfg : EvTokenBucketCfg} {r r' : RateRun} {bucket bucket' : EvTokenBucket} {now : Timeval}

lemma RateInv.fill_level (h : RateInv cfg r bucket)
    (hle : tickCount r.now cfg ≤ tickCount now cfg) (w : Bool) :
    fill (cfg.maximum w) (cfg.rate w) (tickCount now cfg - tickCount r.updated cfg) (bucket.lim w) =
    fill (cfg.maximum w) (cfg.rate w) (tickCount now cfg - tickCount r.now cfg) (level cfg r bucket w) := by
  have hnow := h.le_now
  unfold level
  rw [fill_fill (Int.natCast_nonneg _)]
  congr 1
  omega

lemma RateInv.update_lim (hcfg : CfgOk cfg) (h : RateInv cfg r bucket) (hmay : r.MayUpdate cfg now)
    (w : Bool) :
    (evTokenBucketUpdate bucket cfg (evTokenBucketGetTick now cfg)).lim w =
      fill (cfg.maximum w) (cfg.rate w) (tickCount now cfg - tickCount r.updated cfg) (bucket.lim w) :=
  h.ok.update_lim (h.le_now.trans hmay.1) hmay.2 hcfg w

lemma RateInv.update_ok (hcfg : CfgOk cfg) (h : RateInv cfg r bucket) (hmay : r.MayUpdate cfg now) :
    BucketOk cfg (tickCount now cfg) (evTokenBucketUpdate bucket cfg (evTokenBucketGetTick now cfg)) :=
  h.ok.update (h.le_now.trans hmay.1) hmay.2 hcfg

structure Accounted (cfg : EvTokenBucketCfg) (r r' : RateRun) (bucket bucket' : EvTokenBucket) :
    Prop where
  inv : RateInv cfg r' bucket'
  ticks_le : tickCount r.now cfg ≤ tickCount r'.now cfg
  account (w : Bool) : level cfg r' bucket' w + r'.moved w ≤
    level cfg r bucket w + (tickCount r'.now cfg - tickCount r.now cfg : Nat) * cfg.rate w + r.moved w

lemma Accounted.of_update (hcfg : CfgOk cfg) (h : RateInv cfg r bucket) (hmay : r.MayUpdate cfg now)
    (taken : Bool → Nat) (hnow : r'.now = now) (hupdated : r'.updated = now)
    (hhas : HasBucket cfg r'.bev bucket') (hok : BucketOk cfg (tickCount now cfg) bucket')
    (htaken : ∀ w, bucket'.lim w + taken w = (evTokenBucketUpdate bucket cfg (evTokenBucketGetTick now cfg)).lim w)
    (hmoved : ∀ w, r'.moved w = r.moved w + taken w) : Accounted cfg r r' bucket bucket' where
  inv := by
    constructor
    · exact hhas
    · rw [hupdated]
      exact hok
    · rw [hupdated, hnow]
  ticks_le := by
    rw [hnow]
    exact hmay.1
  account w := by
    have hlevel : level cfg r' bucket' w = bucket'.lim w := by
      unfold level
      rw [hnow, hupdated, Nat.sub_self, fill_zero (hok.le_maximum w)]
    have hpaid : bucket'.lim w + taken w ≤
        level cfg r bucket w + (tickCount now cfg - tickCount r.now cfg : Nat) * cfg.rate w := by
      rw [htaken, h.update_lim hcfg hmay, h.fill_level hmay.1]
      exact fill_le_add _
    have hm := hmoved w
    rw [hlevel, hnow, hm]
    omega

lemma step_accounted (hcfg : CfgOk cfg) (h : RateInv cfg r bucket) {st : RateStep}
    (hst : r.Allowed cfg st) : ∃ bucket', Accounted cfg r (r.step st) bucket bucket' := by
  cases st with
  | query w now =>
    refine ⟨_, Accounted.of_update hcfg h hst (fun _ => 0) rfl rfl
      (buffereventGetRlimMax_bucket h.has w) (h.update_ok hcfg hst) ?_ ?_⟩
    · intro w'
      simp
    · intro w'
      rfl
  | transfer w now bytes add =>
    obtain ⟨hmay, hbytes⟩ := hst
    have hok := h.update_ok hcfg hmay
    have hle : (bytes : Int) ≤ (evTokenBucketUpdate bucket cfg (evTokenBucketGetTick now cfg)).lim w := by
      rw [buffereventGetRlimMax_fst h.has, max_eq_left (hok.nonneg w)] at hbytes
      exact hbytes
    refine ⟨_, Accounted.of_update hcfg h hmay (fun w' => if w' = w then bytes else 0) rfl rfl
      (decrementBuckets_bucket (buffereventGetRlimMax_bucket h.has w) w bytes add)
      (hok.decrement hle) ?_ ?_⟩
    · intro w'
      rw [decrement_lim]
      split_ifs <;> omega
    · intro w'
      change update r.moved w (r.moved w + bytes) w' = _
      rw [update_apply]
      split_ifs with hw
      · rw [hw]
      · rfl
  | refill now add =>
    refine ⟨_, Accounted.of_update hcfg h hst (fun _ => 0) rfl rfl
      (bevRefillCallback_bucket h.has add) (h.update_ok hcfg hst) ?_ ?_⟩
    · intro w'
      simp
    · intro w'
      rfl
  | pass now =>
    have hle : tickCount r.now cfg ≤ tickCount now cfg := hst
    refine ⟨bucket, ⟨h.has, h.ok, h.le_now.trans hle⟩, hle, ?_⟩
    intro w
    have hfill : level cfg (r.step (.pass now)) bucket w =
        fill (cfg.maximum w) (cfg.rate w) (tickCount now cfg - tickCount r.now cfg)
          (level cfg r bucket w) := h.fill_level hle w
    rw [hfill]
    exact Int.add_le_add_right (fill_le_add _) _

lemma Accounted.trans {r'' : RateRun} {bucket'' : EvTokenBucket}
    (h : Accounted cfg r r' bucket bucket') (h' : Accounted cfg r' r'' bucket' bucket'') :
    Accounted cfg r r'' bucket bucket'' where
  inv := h'.inv
  ticks_le := h.ticks_le.trans h'.ticks_le
  account w := by
    have hle := h.ticks_le
    have hle' := h'.ticks_le
    have hsplit : ((tickCount r''.now cfg - tickCount r.now cfg : Nat) : Int) * cfg.rate w =
        (tickCount r'.now cfg - tickCount r.now cfg : Nat) * cfg.rate w +
          (tickCount r''.now cfg - tickCount r'.now cfg : Nat) * cfg.rate w := by
      rw [← add_mul]
      congr 1
      omega
    have ha := h.account w
    have ha' := h'.account w
    omega

lemma run_accounted (hcfg : CfgOk cfg) (h : RateInv cfg r bucket)
    (hrun : Relation.ReflTransGen (RateRun.Next cfg) r r') :
    ∃ bucket', Accounted cfg r r' bucket bucket' := by
  induction hrun with
  | refl =>
    refine ⟨bucket, h, le_refl _, ?_⟩
    intro w
    rw [Nat.sub_self]
    simp
  | tail _ hnext ih =>
    obtain ⟨bucket1, hacc⟩ := ih
    obtain ⟨st, hst, rfl⟩ := hnext
    obtain ⟨bucket2, hacc'⟩ := step_accounted hcfg hacc.inv hst
    exact ⟨bucket2, hacc.trans hacc'⟩

lemma rateRun_start_inv {bev₀ bev : RateLimitedBev} {calloc add : Bool} (hcfg : CfgOk cfg)
    (hnone : bev₀.rateLimiting.bind (·.cfg) = none)
    (hset : buffereventSetRateLimit bev₀ (some cfg) now calloc add = (0, bev)) :
    RateInv cfg (RateRun.start bev now)
      ⟨toSsize cfg.readRate, toSsize cfg.writeRate, evTokenBucketGetTick now cfg⟩ := by
  have hrate (w : Bool) : toSsize (cfg.rate w) = cfg.rate w := by
    have hle := hcfg.rate_le w
    have hmax := hcfg.le_max w
    exact toSsize_of_fits ⟨by omega, by omega⟩
  have hlim (w : Bool) : (EvTokenBucket.mk (toSsize cfg.readRate) (toSsize cfg.writeRate)
      (evTokenBucketGetTick now cfg)).lim w = cfg.rate w := by
    have hread := hrate false
    have hwrite := hrate true
    cases w
    · simpa [EvTokenBucket.lim, EvTokenBucketCfg.rate] using hread
    · simpa [EvTokenBucket.lim, EvTokenBucketCfg.rate] using hwrite
  refine ⟨buffereventSetRateLimit_bucket hnone hset, ⟨?_, ?_, rfl⟩, le_refl _⟩
  · intro w
    rw [hlim]
    omega
  · intro w
    have hle := hcfg.rate_le w
    rw [hlim]
    omega

/-- In every run of a bufferevent whose own rate limit stays set, an update computes `min (limit + elapsed *
rate) maximum` over the integers, the limits stay between 0 and the maxima, and in `k` ticks at most `maximum
+ k * rate` bytes are transferred. -/
theorem rate_limit_respected {readRate readBurst writeRate writeBurst : Nat}
    {tickLen : Option Timeval} {alloc : Option Nat} {bev₀ bev : RateLimitedBev} {calloc add : Bool}
    (hnew : evTokenBucketCfgNew readRate readBurst writeRate writeBurst tickLen alloc = some cfg ∧
      1 ≤ cfg.msecPerTick)
    (hnone : bev₀.rateLimiting.bind (·.cfg) = none)
    (hset : buffereventSetRateLimit bev₀ (some cfg) now calloc add = (0, bev))
    (hrun : Relation.ReflTransGen (RateRun.Next cfg) (RateRun.start bev now) r) :
    ∃ rlim, r.bev.rateLimiting = some rlim ∧ rlim.cfg = some cfg ∧
      (∀ w, 0 ≤ rlim.limit.lim w ∧ rlim.limit.lim w ≤ cfg.maximum w) ∧
      (∀ now', r.MayUpdate cfg now' → ∀ w,
        (evTokenBucketUpdate rlim.limit cfg (evTokenBucketGetTick now' cfg)).lim w =
          min (rlim.limit.lim w +
            ((tickCount now' cfg : Int) - tickCount r.updated cfg) * cfg.rate w) (cfg.maximum w) ∧
        (buffereventUpdateBuckets rlim cfg now').limit =
          evTokenBucketUpdate rlim.limit cfg (evTokenBucketGetTick now' cfg)) ∧
      ∀ r', Relation.ReflTransGen (RateRun.Next cfg) r r' → ∀ w,
        (r'.moved w : Int) - r.moved w ≤
          cfg.maximum w + ((tickCount r'.now cfg : Int) - tickCount r.now cfg) * cfg.rate w := by
  have hcfg := (evTokenBucketCfgNew_made hnew.1).toCfgOk
  obtain ⟨bucket, hacc⟩ := run_accounted hcfg (rateRun_start_inv hcfg hnone hset) hrun
  have hinv := hacc.inv
  obtain ⟨pending, hrlim⟩ := hinv.has
  refine ⟨_, hrlim, rfl, ?_, ?_, ?_⟩
  · intro w
    exact ⟨hinv.ok.nonneg w, hinv.ok.le_maximum w⟩
  · intro now' hmay w
    have hle := hinv.le_now.trans hmay.1
    refine ⟨?_, ?_⟩
    · rw [hinv.update_lim hcfg hmay, fill, Nat.cast_sub hle]
    · rw [buffereventUpdateBuckets_eq]
  · intro r' hrun' w
    obtain ⟨bucket', hacc'⟩ := run_accounted hcfg hinv hrun'
    -- what is left in the end counts as nothing, what was there at first as a full bucket
    have hleft : 0 ≤ level cfg r' bucket' w :=
      (hacc'.inv.ok.nonneg w).trans (le_fill (Int.natCast_nonneg _) (hacc'.inv.ok.le_maximum w) _)
    have hfull : level cfg r bucket w ≤ cfg.maximum w := fill_le _
    have haccount := hacc'.account w
    rw [Nat.cast_sub hacc'.ticks_le] at haccount
    omega

end Run

def slowCfg : EvTokenBucketCfg := ⟨0, 10, 20, 10, 20, ⟨1, 0⟩, 1000⟩

def slowBev : RateLimitedBev :=
  (buffereventSetRateLimit ⟨none, false, false, 16384, 16384⟩ (some slowCfg) ⟨2 ^ 32 - 1, 0⟩ true true).2

/-- Ten bytes are read in the last tick before the tick number wraps around. -/
def slowRun : RateRun := (RateRun.start slowBev ⟨2 ^ 32 - 1, 0⟩).step (.transfer false ⟨2 ^ 32 - 1, 0⟩ 10 true)

theorem rate_limit_respected_wrap :
    slowRun.MayUpdate slowCfg ⟨2 ^ 32, 0⟩ ∧ slowRun.moved false = 10 ∧
      ∃ rlim, slowRun.bev.rateLimiting = some rlim ∧ rlim.limit.lim false = 0 ∧
        (evTokenBucketUpdate rlim.limit slowCfg (evTokenBucketGetTick ⟨2 ^ 32, 0⟩ slowCfg)).lim false = 10 := by
  have hmay : slowRun.MayUpdate slowCfg ⟨2 ^ 32, 0⟩ := by
    unfold RateRun.MayUpdate
    decide +kernel
  have hnext : RateRun.Next slowCfg (RateRun.start slowBev ⟨2 ^ 32 - 1, 0⟩) slowRun := by
    refine ⟨_, ?_, rfl⟩
    unfold RateRun.Allowed RateRun.MayUpdate
    decide +kernel
  refine ⟨hmay, rfl, ?_⟩
  have hnew : evTokenBucketCfgNew 10 20 10 20 none (some 0) = some slowCfg ∧ 1 ≤ slowCfg.msecPerTick := by
    decide +kernel
  have hbev : buffereventSetRateLimit ⟨none, false, false, 16384, 16384⟩ (some slowCfg)
      ⟨2 ^ 32 - 1, 0⟩ true true = (0, slowBev) := by
    decide +kernel
  obtain ⟨rlim, hset, hcfg, hbounds, hupdate, hmoved⟩ :=
    rate_limit_respected hnew rfl hbev (.single hnext)
  have hstart : slowRun.bev.rateLimiting = some ⟨some slowCfg, ⟨0, 10, UInt32.ofNat (2 ^ 32 - 1)⟩, true⟩ := by
    decide +kernel
  obtain rfl := Option.some.inj (hstart.symm.trans hset)
  refine ⟨_, hset, rfl, ?_⟩
  rw [(hupdate _ hmay false).1]
  decide +kernel

end MyLibevent.Proofs
