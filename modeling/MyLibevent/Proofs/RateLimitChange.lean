import MyLibevent.Proofs.RateLimitSuspension

/-!
# Rate limits: a change of the tick length

A new configuration leaves the number of the tick of the last update as it is. The first update after the
change compares it with the number of a tick of the new length.
-/

namespace MyLibevent.Proofs

open TokenBucket List

section Due

variable (cfg : EvTokenBucketCfg) (last : UInt32) (old : EvTokenBucket) (since : Timeval) (times : List Timeval)

/-- The whole ticks that pass from `since` to the last of the times. -/
def wholeTicks : Nat :=
  let now := times.getLastD since
  let usec : Int := (now.sec - since.sec) * 1000000 + (now.usec - since.usec)
  (usec / (1000 * cfg.msecPerTick)).toNat

/-- A tick has a millisecond at least, the clock does not go back after `since`, and fewer than 2^31
ticks pass. -/
structure TimesPass : Prop where
  msec : 0 < cfg.msecPerTick
  sorted : (since :: times).Pairwise fun s t => tickCount s cfg ≤ tickCount t cfg
  few : ∀ now ∈ times, tickCount now cfg < tickCount since cfg + 2 ^ 31

/-- How far the tick number that the bucket keeps is behind that of the change, as a signed number of
32 bits. -/
def keptBehind : Int :=
  ((tickCount since cfg : Int) - last.toNat).bmod (2 ^ 32)

def ticksBehind (now : Timeval) : Int :=
  keptBehind cfg last since + (tickCount now cfg - tickCount since cfg)

/-- The ticks that updates at these times count in a bucket last updated in the tick `last`: none if
the first update finds so many that it takes them for a clock that has gone back. -/
def ticksGained : List Timeval → Nat
  | [] => 0
  | first :: times =>
    if ticksBehind cfg last since first < 2 ^ 31 then
      (ticksBehind cfg last since (times.getLastD first)).toNat
    else 0

/-- The ticks gained differ by at most one from the whole ticks, or both fill the bucket. -/
def GainsDue (w : Bool) : Prop :=
  let gained := ticksGained cfg old.lastUpdated since times
  let whole := wholeTicks cfg since times
  let level := min (old.lim w) (cfg.maximum w)
  (whole ≤ gained + 1 ∧ gained ≤ whole + 1) ∨
    cfg.maximum w ≤ level + gained * cfg.rate w ∧ cfg.maximum w ≤ level + (whole + 1 : Nat) * cfg.rate w

/-- The level after a number of ticks that differs by at most one from the whole ticks. -/
def LevelDue (w : Bool) (level : Int) : Prop :=
  ∃ ticks, wholeTicks cfg since times ≤ ticks + 1 ∧ ticks ≤ wholeTicks cfg since times + 1 ∧
    level = fill (cfg.maximum w) (cfg.rate w) ticks (min (old.lim w) (cfg.maximum w))

end Due

section Ticks

variable {cfg : EvTokenBucketCfg} {last : UInt32} {since now : Timeval} {times : List Timeval}

/-- The ticks that the updates count one after the other. -/
def countedTicks (cfg : EvTokenBucketCfg) (last : UInt32) : List Timeval → Nat
  | [] => 0
  | now :: times =>
    let tick := evTokenBucketGetTick now cfg
    ticksCounted last tick + countedTicks cfg (lastCounted last tick) times

lemma keptBehind_bounds : -2 ^ 31 ≤ keptBehind cfg last since ∧ keptBehind cfg last since < 2 ^ 31 :=
  ⟨Int.le_bmod (by decide), Int.bmod_lt (by decide)⟩

lemma toNat_getTick_sub : ((evTokenBucketGetTick now cfg - last).toNat : Int) =
    ticksBehind cfg last since now % 2 ^ 32 := by
  have hlast := last.toNat_lt
  have hmod := @Int.bmod_emod ((tickCount since cfg : Int) - last.toNat) (2 ^ 32)
  unfold ticksBehind keptBehind evTokenBucketGetTick
  rw [UInt32.toNat_sub, UInt32.toNat_ofNat']
  omega

lemma TimesPass.tail (h : TimesPass cfg since (now :: times)) :
    TimesPass cfg since times ∧ TimesPass cfg now times := by
  have hsorted := pairwise_cons.mp h.sorted
  have hnow := hsorted.1 now mem_cons_self
  refine ⟨⟨h.msec, h.sorted.sublist (by simp), fun t ht => h.few t (mem_cons_of_mem _ ht)⟩,
    h.msec, hsorted.2, fun t ht => ?_⟩
  have hfew := h.few t (mem_cons_of_mem _ ht)
  omega

lemma ticksBehind_self {t : Timeval} : ticksBehind cfg (evTokenBucketGetTick now cfg) now t =
    tickCount t cfg - tickCount now cfg := by
  have hzero : keptBehind cfg (evTokenBucketGetTick now cfg) now = 0 := by
    unfold keptBehind evTokenBucketGetTick
    rw [UInt32.toNat_ofNat', ← Int.emod_bmod]
    have hmod : ((tickCount now cfg : Int) - (tickCount now cfg % 2 ^ 32 : Nat)) % (2 ^ 32 : Nat) = 0 := by omega
    rw [hmod]
    rfl
  unfold ticksBehind
  rw [hzero, zero_add]

/-- The updates count nothing until one finds the bucket behind, and everything from then on. -/
lemma countedTicks_eq (h : TimesPass cfg since times) :
    countedTicks cfg last times = ticksGained cfg last since times := by
  induction times generalizing since last with
  | nil => rfl
  | cons now times ih =>
    obtain ⟨hsince, hnow⟩ := h.tail
    have hticks := @toNat_getTick_sub cfg last since now
    obtain ⟨hlow, hhigh⟩ := @keptBehind_bounds cfg last since
    have hfew := h.few now mem_cons_self
    have hle := (pairwise_cons.mp h.sorted).1 now mem_cons_self
    have hbehind : ∀ t, ticksBehind cfg last since t =
      keptBehind cfg last since + (tickCount t cfg - tickCount since cfg) := fun _ => rfl
    have hlater := (pairwise_cons.mp hnow.sorted).1
    have hv := hbehind now
    change ticksCounted last _ + countedTicks cfg (lastCounted last _) times =
      if ticksBehind cfg last since now < 2 ^ 31 then _ else 0
    unfold ticksCounted lastCounted
    by_cases hin : 0 ≤ ticksBehind cfg last since now ∧ ticksBehind cfg last since now < 2 ^ 31
    · -- the update counts, and the bucket has the tick of `now`
      rw [if_neg (by omega), if_neg (by omega), if_pos hin.2, ih hnow]
      cases times with
      | nil =>
        simp only [ticksGained, getLastD_nil]
        omega
      | cons first times =>
        have hfirst := hnow.few first mem_cons_self
        have hlast := hlater (times.getLastD first) getLastD_mem_cons
        have hv' := hbehind (times.getLastD first)
        simp only [ticksGained, getLastD_cons, ticksBehind_self]
        rw [if_pos (by omega)]
        omega
    · rw [if_pos (by omega), if_pos (by omega), zero_add, ih hsince]
      cases times with
      | nil =>
        simp only [ticksGained, getLastD_nil]
        split <;> omega
      | cons first times =>
        have hfirst := hlater first mem_cons_self
        have hfew' := hsince.few first mem_cons_self
        have hv' := hbehind first
        simp only [ticksGained, getLastD_cons]
        split_ifs <;> omega

end Ticks

def updateAll (cfg : EvTokenBucketCfg) (bucket : EvTokenBucket) (times : List Timeval) : EvTokenBucket :=
  times.foldl (fun b now => evTokenBucketUpdate b cfg (evTokenBucketGetTick now cfg)) bucket

variable {cfg : EvTokenBucketCfg} {bucket old : EvTokenBucket} {w : Bool}

lemma updateAll_lim (hcfg : CfgOk cfg) (times : List Timeval)
    (hlo : -(evRateLimitMax : Int) - 1 ≤ bucket.lim w) (hle : bucket.lim w ≤ cfg.maximum w) :
    (updateAll cfg bucket times).lim w =
      fill (cfg.maximum w) (cfg.rate w) (countedTicks cfg bucket.lastUpdated times) (bucket.lim w) := by
  induction times generalizing bucket with
  | nil => exact (fill_zero hle).symm
  | cons now times ih =>
    have hstep := evTokenBucketUpdate_lim hcfg (evTokenBucketGetTick now cfg) hlo hle
    have hge := le_fill (Int.natCast_nonneg (cfg.rate w)) hle
    unfold updateAll at ih ⊢
    rw [foldl_cons, ih, hstep, fill_fill (Int.natCast_nonneg _), evTokenBucketUpdate_last, countedTicks]
    · rw [hstep]
      exact hlo.trans (hge _)
    · rw [hstep]
      exact fill_le _

lemma evTokenBucketInit_lim (hcfg : CfgOk cfg) (tick : UInt32) :
    (evTokenBucketInit old cfg tick true).lim w = min (old.lim w) (cfg.maximum w) := by
  have hmax := hcfg.le_max w
  have hclip : toSsize (cfg.maximum w) = cfg.maximum w := toSsize_of_fits ⟨by omega, by omega⟩
  have hlim : (evTokenBucketInit old cfg tick true).lim w =
      if old.lim w > toSsize (cfg.maximum w) then toSsize (cfg.maximum w) else old.lim w := by
    cases w <;> simp [evTokenBucketInit, EvTokenBucket.lim, EvTokenBucketCfg.maximum]
  rw [hlim, hclip]
  split_ifs <;> omega

lemma updateAll_due_iff (hcfg : CfgMade cfg) (hfits : FitsSsize (old.lim w)) (tick : UInt32)
    {since : Timeval} {times : List Timeval} (htimes : TimesPass cfg since times) :
    LevelDue cfg old since times w ((updateAll cfg (evTokenBucketInit old cfg tick true) times).lim w) ↔
      GainsDue cfg old since times w := by
  have hlim : (evTokenBucketInit old cfg tick true).lim w = _ :=
    evTokenBucketInit_lim hcfg.toCfgOk tick
  have hlo := hfits.1
  have hlast : (evTokenBucketInit old cfg tick true).lastUpdated = old.lastUpdated := rfl
  have hrate : (0 : Int) < cfg.rate w := Int.natCast_pos.mpr (hcfg.rate_pos w)
  rw [updateAll_lim hcfg.toCfgOk _ (by omega) (by omega), hlim, hlast, countedTicks_eq htimes]
  unfold LevelDue GainsDue
  simp only [fill_eq_fill_iff hrate]
  constructor
  · rintro ⟨ticks, hlow, hhigh, rfl | ⟨hgained, hticks⟩⟩
    · exact .inl ⟨hlow, hhigh⟩
    · have hmore := mul_le_mul_of_nonneg_right (Int.ofNat_le.mpr hhigh) hrate.le
      exact .inr ⟨hgained, by omega⟩
  · rintro (⟨hlow, hhigh⟩ | ⟨hgained, hwhole⟩)
    · exact ⟨_, hlow, hhigh, .inl rfl⟩
    · exact ⟨_, by omega, le_rfl, .inr ⟨hgained, hwhole⟩⟩

/-- The time at which a step updates the bucket; a transfer does not occur in the runs considered. -/
def updateTime : RateStep → Option Timeval
  | .query _ now => some now
  | .refill now _ => some now
  | .transfer .. => none
  | .pass _ => none

def NoTransfer : RateStep → Prop
  | .transfer .. => False
  | _ => True

lemma idle_bucket {r : RateRun} (h : HasBucket cfg r.bev bucket) {steps : List RateStep}
    (hidle : ∀ st ∈ steps, NoTransfer st) :
    HasBucket cfg (steps.foldl RateRun.step r).bev (updateAll cfg bucket (steps.filterMap updateTime)) := by
  induction steps generalizing r bucket with
  | nil => exact h
  | cons st steps ih =>
    obtain ⟨hst, hrest⟩ := forall_mem_cons.mp hidle
    cases st with
    | query isWrite now => exact ih (buffereventGetRlimMax_bucket h isWrite) hrest
    | transfer => cases hst
    | refill now add => exact ih (bevRefillCallback_bucket h add) hrest
    | pass now => exact ih h hrest

lemma buffereventSetRateLimit_changed {bev : RateLimitedBev} {cfg₀ : EvTokenBucketCfg}
    (h : HasBucket cfg₀ bev old) (hne : cfg₀.addr ≠ cfg.addr) (now : Timeval) (calloc add : Bool) :
    HasBucket cfg (buffereventSetRateLimit bev (some cfg) now calloc add).2
      (evTokenBucketInit old cfg (evTokenBucketGetTick now cfg) true) := by
  obtain ⟨pending, hset⟩ := h
  unfold buffereventSetRateLimit
  simp only [hset, Option.map_some, Option.some.injEq, hne, if_false]
  exact ⟨_, rfl⟩

lemma group_bucket (g : BuffereventRateLimitGroup) (times : List Timeval) :
    (times.foldl bevGroupRefillCallback g).rateLimit = updateAll g.rateLimitCfg g.rateLimit times := by
  induction times generalizing g with
  | nil => rfl
  | cons now times ih => exact ih _

def tickCfg (addr : Nat) (tickLen : Timeval) : NewCfg :=
  ⟨(evTokenBucketCfgNew 1 1000 1 1000 (some tickLen) (some addr)).get rfl,
    1, 1000, 1, 1000, tickLen, addr, (Option.some_get _).symm⟩

def tickBev (cfg : NewCfg) (last : UInt32) : RateLimitedBev :=
  ⟨some ⟨some cfg.val, ⟨1, 1, last⟩, false⟩, false, false, 16384, 16384⟩

end MyLibevent.Proofs
