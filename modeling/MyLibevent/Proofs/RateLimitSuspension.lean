import MyLibevent.Lib.Runs
import MyLibevent.Proofs.RateLimit

/-!
# Rate limits: a suspended bufferevent is due to be examined

`Due` ties the refill event, which serves both directions, to the two flags and the two limits. An update only
raises a limit that is not above its maximum, so that it never empties a bucket behind the back of the flag.
-/

namespace MyLibevent.Proofs
open RateLimitedBev Runs TokenBucket

variable {cfg : EvTokenBucketCfg}

lemma NewCfg.made (cfg : NewCfg) : CfgMade cfg.val := by
  obtain ⟨cfg, readRate, readBurst, writeRate, writeBurst, tickLen, addr, hnew⟩ := cfg
  exact evTokenBucketCfgNew_made hnew

lemma CfgMade.maximum_fits (h : CfgMade cfg) (w : Bool) :
    FitsSsize (cfg.maximum w) ∧ 0 < (cfg.maximum w : Int) := by
  have hle := h.le_max w
  have hrate := h.rate_le w
  have hpos := h.rate_pos w
  constructor
  · constructor <;> omega
  · omega

lemma refillLimit_keeps {limit : Int} {maximum rate nTicks : Nat} (hn : 0 < nTicks)
    (hmax : FitsSsize maximum) (hpos : 0 < (maximum : Int)) (hlimit : FitsSsize limit)
    (hfits : (maximum : Int) < limit → limit + nTicks * rate ≤ evRateLimitMax) :
    FitsSsize (refillLimit limit maximum rate nTicks) ∧
      (0 < limit → 0 < refillLimit limit maximum rate nTicks) := by
  have hgain : 0 ≤ (nTicks : Int) * rate := Int.natCast_nonneg (nTicks * rate)
  obtain ⟨hlo, _⟩ := hlimit
  by_cases hover : (maximum : Int) < limit
  · have hfit : FitsSsize (limit + nTicks * rate) := ⟨by omega, hfits hover⟩
    unfold refillLimit
    rw [toSsize_of_fits hmax, toSsize_of_fits hfit]
    split_ifs
    · exact ⟨hmax, fun _ => hpos⟩
    · exact ⟨hfit, by omega⟩
  · have hle : fill maximum rate nTicks limit ≤ maximum := fill_le _
    have hge := le_fill (Int.natCast_nonneg rate) (not_lt.mp hover) nTicks
    rw [refillLimit_eq_fill hn (by have := hmax.2; omega) hlo (not_lt.mp hover)]
    exact ⟨⟨by omega, hle.trans hmax.2⟩, by omega⟩

def BucketFits (cfg : EvTokenBucketCfg) (bucket : EvTokenBucket) (now : Timeval) : Prop :=
  ∀ w, (evTokenBucketGetTick now cfg - bucket.lastUpdated).toNat ≤ 2 ^ 31 - 1 →
    (cfg.maximum w : Int) < bucket.lim w → bucket.lim w +
      (evTokenBucketGetTick now cfg - bucket.lastUpdated).toNat * cfg.rate w ≤ evRateLimitMax

lemma evTokenBucketUpdate_keeps {bucket : EvTokenBucket} {now : Timeval} (hcfg : CfgMade cfg)
    (hrange : ∀ w, FitsSsize (bucket.lim w)) (hfits : BucketFits cfg bucket now) (w : Bool) :
    FitsSsize ((evTokenBucketUpdate bucket cfg (evTokenBucketGetTick now cfg)).lim w) ∧
      (0 < bucket.lim w → 0 < (evTokenBucketUpdate bucket cfg (evTokenBucketGetTick now cfg)).lim w) := by
  unfold evTokenBucketUpdate
  extract_lets nTicks
  split
  · exact ⟨hrange w, id⟩
  · rename_i hticks
    obtain ⟨hmax, hpos⟩ := hcfg.maximum_fits w
    have hlim := refillLimit_keeps  (show 0 < nTicks by omega) hmax hpos
      (hrange w) (hfits w (show nTicks ≤ 2 ^ 31 - 1 by omega))
    cases w
    · exact hlim
    · exact hlim

@[simp] lemma suspendedBw_setSuspendedBw (bev : RateLimitedBev) (w v : Bool) :
    (bev.setSuspendedBw w v).suspendedBw = Function.update bev.suspendedBw w v := by
  funext w'
  cases w <;> cases w' <;> rfl

@[simp] lemma suspendedBw_rateLimiting (bev : RateLimitedBev) (r : Option BuffereventRateLimit) :
    ({ bev with rateLimiting := r } : RateLimitedBev).suspendedBw = bev.suspendedBw := funext fun _ => rfl

/-- The flags and the refill event of a bufferevent with bucket `bucket`. -/
structure Due (bucket : EvTokenBucket) (suspended : Bool → Bool) (pending : Bool) : Prop where
  fits (w : Bool) : FitsSsize (bucket.lim w)
  flagged (w : Bool) : bucket.lim w ≤ 0 → suspended w
  pending (w : Bool) : suspended w → pending

structure Limited (cfg : EvTokenBucketCfg) (bucket : EvTokenBucket) (pending : Bool)
    (bev : RateLimitedBev) : Prop where
  set : bev.rateLimiting = some ⟨some cfg, bucket, pending⟩
  made : CfgMade cfg
  due : Due bucket bev.suspendedBw pending

structure Unlimited (bev : RateLimitedBev) : Prop where
  unset : bev.rateLimiting.bind (·.cfg) = none
  free (w : Bool) : bev.suspendedBw w = false

def FlagsSettled (bev : RateLimitedBev) : Prop :=
  Unlimited bev ∨ ∃ cfg bucket pending, Limited cfg bucket pending bev

lemma Unlimited.cfg_eq_none {bev : RateLimitedBev} {rlim : BuffereventRateLimit} (h : Unlimited bev)
    (hr : bev.rateLimiting = some rlim) : rlim.cfg = none := by
  have hunset := h.unset
  rwa [hr] at hunset

lemma FlagsSettled.dueForRefill {bev : RateLimitedBev} (h : FlagsSettled bev) : bev.DueForRefill := by
  rcases h with h | ⟨cfg, bucket, pending, h⟩
  · constructor
    · intro rlim hrlim hcfg
      rw [h.cfg_eq_none hrlim] at hcfg
      cases hcfg
    · intro w hw
      rw [h.free w] at hw
      cases hw
  · constructor
    · intro rlim hrlim _ w hlim
      rw [h.set] at hrlim
      cases hrlim
      exact h.due.flagged w hlim
    · intro w hw
      unfold refillPending
      rw [h.set]
      exact h.due.pending w hw

section Steps

variable {cfg : EvTokenBucketCfg} {bucket bucket' : EvTokenBucket} {pending w : Bool}
  {suspended : Bool → Bool} {bev bev' : RateLimitedBev} {now : Timeval} {bytes : Int}

lemma Due.update (h : Due bucket suspended pending) (hcfg : CfgMade cfg)
    (hfits : BucketFits cfg bucket now) :
    Due (evTokenBucketUpdate bucket cfg (evTokenBucketGetTick now cfg)) suspended pending where
  fits w := (evTokenBucketUpdate_keeps hcfg h.fits hfits w).1
  flagged w hlim := by
    have hkeeps := (evTokenBucketUpdate_keeps hcfg h.fits hfits w).2
    exact h.flagged w (by omega)
  pending := h.pending

structure OtherKept (w : Bool) (bucket bucket' : EvTokenBucket) : Prop where
  fits : FitsSsize (bucket'.lim w)
  other (w' : Bool) : w' ≠ w → bucket'.lim w' = bucket.lim w'

section

variable (h : Due bucket suspended pending) (hkept : OtherKept w bucket bucket')
include h hkept

lemma Due.fits_of_otherKept (w' : Bool) : FitsSsize (bucket'.lim w') := by
  by_cases hw : w' = w
  · rw [hw]
    exact hkept.fits
  · rw [hkept.other w' hw]
    exact h.fits w'

lemma Due.flagged_of_otherKept {w' : Bool} (hw : w' ≠ w) (hlim : bucket'.lim w' ≤ 0) : suspended w' := by
  rw [hkept.other w' hw] at hlim
  exact h.flagged w' hlim

lemma Due.suspend : Due bucket' (Function.update suspended w true) true where
  fits := h.fits_of_otherKept hkept
  flagged w' hlim := by
    by_cases hw : w' = w
    · rw [hw, Function.update_self]
    · rw [Function.update_of_ne hw]
      exact h.flagged_of_otherKept hkept hw hlim
  pending _ _ := rfl

lemma Due.unsuspend (hpos : 0 < bucket'.lim w) :
    Due bucket' (Function.update suspended w false) (pending && suspended !w) where
  fits := h.fits_of_otherKept hkept
  flagged w' hlim := by
    by_cases hw : w' = w
    · rw [hw] at hlim
      omega
    · rw [Function.update_of_ne hw]
      exact h.flagged_of_otherKept hkept hw hlim
  pending w' hsus := by
    by_cases hw : w' = w
    · rw [hw, Function.update_self] at hsus
      cases hsus
    · rw [Function.update_of_ne hw] at hsus
      rw [h.pending w' hsus, Bool.true_and, ← Bool.eq_not.mpr hw]
      exact hsus

lemma Due.keep (hflag : bucket'.lim w ≤ 0 → suspended w) : Due bucket' suspended pending where
  fits := h.fits_of_otherKept hkept
  flagged w' hlim := by
    by_cases hw : w' = w
    · rw [hw] at hlim ⊢
      exact hflag hlim
    · exact h.flagged_of_otherKept hkept hw hlim
  pending := h.pending

end

lemma Limited.bucketFits (h : Limited cfg bucket pending bev) (hfits : bev.RefillFits now) :
    BucketFits cfg bucket now :=
  hfits _ h.set cfg rfl

lemma Limited.update (h : Limited cfg bucket pending bev) (hfits : bev.RefillFits now) :
    FlagsSettled { bev with
      rateLimiting := some (buffereventUpdateBuckets ⟨some cfg, bucket, pending⟩ cfg now) } := by
  rw [buffereventUpdateBuckets_eq]
  exact .inr ⟨cfg, _, pending, rfl, h.made, h.due.update h.made (h.bucketFits hfits)⟩

lemma buffereventGetRlimMax_settled (h : FlagsSettled bev) (hfits : bev.RefillFits now) (w : Bool) :
    FlagsSettled (buffereventGetRlimMax bev w now).2 := by
  rcases h with h | ⟨cfg, bucket, pending, h⟩
  · have hsame : (buffereventGetRlimMax bev w now).2 = bev := by
      unfold buffereventGetRlimMax
      cases hr : bev.rateLimiting with
      | none => rfl
      | some rlim => simp only [h.cfg_eq_none hr]
    rw [hsame]
    exact .inl h
  · have hupdate := h.update hfits
    unfold buffereventGetRlimMax
    simp only [h.set]
    exact hupdate

lemma getLimit_snd (w : Bool) : (getLimit w bev now).2 = (buffereventGetRlimMax bev w now).2 := by
  unfold getLimit buffereventGetRlimMax
  cases bev.rateLimiting with
  | none => rfl
  | some rlim => cases hc : rlim.cfg <;> simp only [hc]

lemma decrement_otherKept (hset : bev.InRange)
    (h : ∃ pending, bev.rateLimiting = some ⟨some cfg, bucket.decrement w bytes, pending⟩) :
    OtherKept w bucket (bucket.decrement w bytes) := by
  obtain ⟨pending, h⟩ := h
  refine ⟨hset _ h w, fun w' hw => ?_⟩
  rw [decrement_lim, if_neg hw, sub_zero]

lemma inRange?_eq_some (h : bev.inRange? = some bev') : bev.InRange ∧ bev' = bev := by
  unfold inRange? at h
  split at h
  · rename_i hrange
    exact ⟨hrange, (Option.some.inj h).symm⟩
  · cases h

lemma decrementBuckets_settled (h : FlagsSettled bev)
    (hrange : (decrementBuckets w bev bytes true).2.InRange) :
    FlagsSettled (decrementBuckets w bev bytes true).2 := by
  rcases h with h | ⟨cfg, bucket, pending, h⟩
  · have hsame : (decrementBuckets w bev bytes true).2 = bev := by
      unfold decrementBuckets
      cases hr : bev.rateLimiting with
      | none => rfl
      | some rlim => simp only [h.cfg_eq_none hr]
    rw [hsame]
    exact .inl h
  · have hkept : OtherKept w bucket (bucket.decrement w bytes) :=
      decrement_otherKept hrange (decrementBuckets_bucket ⟨pending, h.set⟩ w bytes true)
    unfold decrementBuckets
    simp only [h.set]
    split
    · exact .inr ⟨cfg, _, true, rfl, h.made, by simpa using h.due.suspend hkept⟩
    · rename_i hpos
      split
      · exact .inr ⟨cfg, _, _, rfl, h.made, by simpa using h.due.unsuspend hkept (by omega)⟩
      · exact .inr ⟨cfg, _, pending, rfl, h.made, h.due.keep hkept (fun hle => absurd hle hpos)⟩

lemma decrementLimit_settled (h : FlagsSettled bev) {decr r : Int}
    (hstep : decrementLimit w bev decr true = some (r, bev')) (hrange : bev'.InRange) :
    FlagsSettled bev' := by
  rcases h with h | ⟨cfg, bucket, pending, h⟩
  · unfold decrementLimit at hstep
    cases hr : bev.rateLimiting with
    | none =>
      rw [hr] at hstep
      cases hstep
    | some rlim =>
      simp only [hr, h.cfg_eq_none hr] at hstep
      cases hstep
  · unfold decrementLimit at hstep
    simp only [h.set, if_true] at hstep
    split at hstep
    · cases hstep
      have hkept := decrement_otherKept hrange ⟨_, rfl⟩
      exact .inr ⟨cfg, _, true, rfl, h.made, by simpa using h.due.suspend hkept⟩
    · rename_i hdown
      split_ifs at hstep with hup
      · cases hstep
        have hkept := decrement_otherKept hrange ⟨_, rfl⟩
        exact .inr ⟨cfg, _, _, rfl, h.made, by simpa using h.due.unsuspend hkept hup.2⟩
      · cases hstep
        have hkept := decrement_otherKept hrange ⟨_, rfl⟩
        have hflag : (bucket.decrement w decr).lim w ≤ 0 → bev.suspendedBw w := by
          intro hle
          exact h.due.flagged w (by omega)
        exact .inr ⟨cfg, _, pending, rfl, h.made, h.due.keep hkept hflag⟩

lemma refillUnsuspend_eq (bev : RateLimitedBev) (limit : EvTokenBucket) (w : Bool) :
    refillUnsuspend bev limit w =
      (bev.suspendedBw w && decide (limit.lim w ≤ 0),
        bev.setSuspendedBw w (bev.suspendedBw w && decide (limit.lim w ≤ 0))) := by
  have hsame : bev.setSuspendedBw w (bev.suspendedBw w) = bev := by
    cases w <;> rfl
  unfold refillUnsuspend
  by_cases hsus : bev.suspendedBw w
  · by_cases hpos : limit.lim w > 0
    · have hne : ¬ limit.lim w ≤ 0 := by omega
      simp [hsus, hpos, hne]
    · have hle : limit.lim w ≤ 0 := by omega
      rw [hsus] at hsame
      simp [hsus, hpos, hle, hsame]
  · have hfree : bev.suspendedBw w = false := by simpa using hsus
    rw [hfree] at hsame
    simp [hfree, hsame]

lemma bevRefillCallback_settled (h : FlagsSettled bev) (hfits : bev.RefillFits now) :
    FlagsSettled (bevRefillCallback bev now true) := by
  rcases h with h | ⟨cfg, bucket, pending, h⟩
  · unfold bevRefillCallback
    cases hr : bev.rateLimiting with
    | none => exact .inl h
    | some rlim =>
      simp only [h.cfg_eq_none hr]
      exact .inl ⟨rfl, h.free⟩
  · have hupdate := h.due.update h.made (h.bucketFits hfits)
    unfold bevRefillCallback
    simp only [h.set, refillUnsuspend_eq, Bool.and_true]
    refine .inr ⟨cfg, _, _, rfl, h.made, ?_⟩
    obtain ⟨limit, hlimit⟩ :
        ∃ limit, evTokenBucketUpdate bucket cfg (evTokenBucketGetTick now cfg) = limit := ⟨_, rfl⟩
    rw [hlimit] at hupdate
    simp only [hlimit, suspendedBw_rateLimiting, suspendedBw_setSuspendedBw]
    constructor
    · exact hupdate.fits
    · intro w hlim
      have hflag := hupdate.flagged w hlim
      cases w <;> simp [hflag, hlim]
    · intro w hw
      cases w
      · simpa using Or.inl hw
      · simpa using Or.inr hw

lemma evTokenBucketInit_fits (hcfg : CfgMade cfg) {tick : UInt32} {again : Bool}
    (hbucket : again → ∀ w, FitsSsize (bucket.lim w)) (w : Bool) :
    FitsSsize ((evTokenBucketInit bucket cfg tick again).lim w) := by
  obtain ⟨hmax, hpos⟩ := hcfg.maximum_fits w
  cases again with
  | false =>
    have hrate := hcfg.rate_le w
    obtain ⟨hlo, hhi⟩ := hmax
    have hfit : FitsSsize (cfg.rate w) := ⟨by omega, by omega⟩
    have hlim : (evTokenBucketInit bucket cfg tick false).lim w = toSsize (cfg.rate w) := by
      cases w <;> simp [evTokenBucketInit, EvTokenBucket.lim, EvTokenBucketCfg.rate]
    rw [hlim, toSsize_of_fits hfit]
    exact hfit
  | true =>
    have hfit := hbucket rfl w
    have hlim : (evTokenBucketInit bucket cfg tick true).lim w =
        if bucket.lim w > toSsize (cfg.maximum w) then toSsize (cfg.maximum w)
        else bucket.lim w := by
      cases w <;> simp [evTokenBucketInit, EvTokenBucket.lim, EvTokenBucketCfg.maximum]
    rw [hlim, toSsize_of_fits hmax]
    split
    · exact hmax
    · exact hfit

lemma suspendByLimit_settled (hcfg : CfgMade cfg) (hfits : ∀ w, FitsSsize (bucket.lim w)) :
    FlagsSettled (suspendByLimit bev ⟨some cfg, bucket, pending⟩ true) := by
  refine .inr ⟨cfg, bucket, _, rfl, hcfg, hfits, ?_, ?_⟩
  · intro w hlim
    cases w
    · exact decide_eq_true hlim
    · exact decide_eq_true hlim
  · intro w hw
    rw [Bool.and_true, Bool.or_eq_true]
    cases w
    · exact .inl hw
    · exact .inr hw

lemma buffereventSetRateLimit_settled (h : FlagsSettled bev) (newCfg : Option NewCfg)
    (calloc : Bool) :
    FlagsSettled (buffereventSetRateLimit bev (newCfg.map Subtype.val) now calloc true).2 := by
  unfold buffereventSetRateLimit
  cases newCfg with
  | none =>
    cases hr : bev.rateLimiting with
    | none => exact h
    | some rlim =>
      refine .inl ⟨rfl, ?_⟩
      intro w
      cases w <;> rfl
  | some newCfg =>
    have hmade := NewCfg.made newCfg
    cases hr : bev.rateLimiting with
    | none =>
      cases calloc with
      | false => exact h
      | true => exact suspendByLimit_settled hmade (evTokenBucketInit_fits hmade (by simp))
    | some rlim =>
      dsimp only [Option.map]
      split
      · exact h
      · refine suspendByLimit_settled hmade (evTokenBucketInit_fits hmade ?_)
        intro hset
        rcases h with h | ⟨cfg, bucket, pending, h⟩
        · have hunset := h.unset
          rw [hr] at hunset
          change rlim.cfg = none at hunset
          rw [hunset] at hset
          cases hset
        · have hrlim := h.set
          rw [hr] at hrlim
          cases hrlim
          exact h.due.fits

lemma limitStep_settled {e : LimitEvent} (h : FlagsSettled bev) (hcond : bev.Refillable e)
    (hstep : bev.limitStep e = some bev') : FlagsSettled bev' := by
  cases e with
  | setRateLimit cfg now calloc =>
    cases hstep
    exact buffereventSetRateLimit_settled h cfg calloc
  | getMax w now =>
    cases hstep
    exact buffereventGetRlimMax_settled h hcond w
  | getLimit w now =>
    cases hstep
    rw [getLimit_snd]
    exact buffereventGetRlimMax_settled h hcond w
  | decrementBuckets w bytes =>
    obtain ⟨hrange, rfl⟩ := inRange?_eq_some hstep
    exact decrementBuckets_settled h hrange
  | decrementLimit w decr =>
    obtain ⟨⟨r, next⟩, hdecr, hnext⟩ := Option.bind_eq_some_iff.mp hstep
    obtain ⟨hrange, rfl⟩ := inRange?_eq_some hnext
    exact decrementLimit_settled h hdecr hrange
  | refill now =>
    change (if bev.refillPending then some (bevRefillCallback bev now true) else none) = _ at hstep
    split at hstep
    · cases hstep
      exact bevRefillCallback_settled h hcond
    · cases hstep

end Steps

lemma fresh_settled (maxSingleRead maxSingleWrite : Int) : FlagsSettled (fresh maxSingleRead maxSingleWrite) := by
  refine .inl ⟨rfl, ?_⟩
  intro w
  cases w <;> rfl

theorem reachedLimit_dueForRefill (maxSingleRead maxSingleWrite : Int) (bev : RateLimitedBev)
    (hr : Reached limitStep Refillable (fresh maxSingleRead maxSingleWrite) bev) :
    bev.DueForRefill := by
  have hsettled : FlagsSettled bev :=
    hr.invariant (P := FlagsSettled) (fresh_settled maxSingleRead maxSingleWrite)
      (fun _ _ _ hs hcond hstep => limitStep_settled hs hcond hstep)
  exact hsettled.dueForRefill

def oneByteCfg : NewCfg :=
  ⟨⟨0, 1, 1, 1, 1, ⟨1, 0⟩, 1000⟩, 1, 1, 1, 1, none, 0, rfl⟩

/-- One byte is read and empties the bucket, the maximum is asked for while the direction is
suspended, and the limit is lowered and raised by hand. -/
def suspendedRun : Given limitStep Refillable (fresh 16384 16384)
    (fun bev => bev.suspendedBw false && bev.refillPending) where
  events := [.setRateLimit (some oneByteCfg) ⟨100, 0⟩ true, .getMax false ⟨100, 0⟩,
    .decrementBuckets false 1, .getMax false ⟨101, 0⟩, .decrementLimit false 3,
    .decrementLimit false (-5), .decrementBuckets false 4]
  leads := by decide +kernel

theorem reachedLimit_dueForRefill_seven : ∃ bev,
    Reached limitStep Refillable (fresh 16384 16384) bev ∧
      (bev.suspendedBw false && bev.refillPending) ∧ bev.DueForRefill := by
  obtain ⟨bev, hr, hp⟩ := suspendedRun.reached
  exact ⟨bev, hr, hp, reachedLimit_dueForRefill 16384 16384 bev hr⟩

def overflowRun : Given limitStep (fun _ _ => True) (fresh 16384 16384) (fun bev => !decide bev.DueForRefill) where
  events := [.setRateLimit (some oneByteCfg) ⟨100, 0⟩ true,
    .decrementLimit false (1 - evRateLimitMax), .getLimit false ⟨101, 0⟩]
  leads := by decide +kernel

theorem raised_limit_overflows : ∃ bev,
    Reached limitStep (fun _ _ => True) (fresh 16384 16384) bev ∧ ¬ bev.DueForRefill := by
  obtain ⟨bev, hr, hp⟩ := overflowRun.reached
  exact ⟨bev, hr, by simpa using hp⟩

end MyLibevent.Proofs
