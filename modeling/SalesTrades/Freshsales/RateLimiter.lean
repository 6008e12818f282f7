import SalesTrades.Library.SlidingWindow
import Mathlib.Algebra.Order.Field.Rat
import Mathlib.Data.Nat.Find
import Mathlib.Tactic.FieldSimp
import Mathlib.Tactic.Positivity
import Mathlib.Tactic.Linarith

/-!
# The rate limiter

`RateLimiter` in exact arithmetic, and calls of `acquire` that queue for its lock in the order in which
they are made. The bucket starts full and refills while it is emptied, so a window of an hour can see
almost twice the cap (`grants_lt_twice`), and none has more than the cap exactly when the calls themselves
keep to it (`cap_respected_iff`).
-/

set_option autoImplicit false

namespace SalesTrades.Freshsales

open SalesTrades.Library.SlidingWindow

/-- `RateLimiter`; times are in seconds. -/
structure RateLimiter where
  maxPerHour : ℕ
  tokens : ℚ
  updatedAt : ℚ
  deriving DecidableEq

namespace RateLimiter

/-- `RateLimiter.__init__` at the time `now`. -/
def create (maxPerHour : ℕ) (now : ℚ) : RateLimiter where
  maxPerHour := maxPerHour
  tokens := maxPerHour
  updatedAt := now

def capacity (limiter : RateLimiter) : ℚ := limiter.maxPerHour

/-- Tokens per second. -/
def refillRate (limiter : RateLimiter) : ℚ := limiter.maxPerHour / 3600

/-- The tokens at the time `now`. -/
def refilled (limiter : RateLimiter) (now : ℚ) : ℚ :=
  min limiter.capacity (limiter.tokens + (now - limiter.updatedAt) * limiter.refillRate)

/-- `acquire` by a caller that has the lock at the time `now`: the limiter and the time of the grant.
`asyncio.sleep(d)` takes `sleep d` seconds. -/
def acquire (sleep : ℚ → ℚ) : ℕ → RateLimiter → ℚ → Option (RateLimiter × ℚ)
  | 0, _, _ => none
  | fuel + 1, limiter, now =>
      let tokens := limiter.refilled now
      if 1 ≤ tokens then some ({ limiter with tokens := tokens - 1, updatedAt := now }, now)
      else
        let waitTime := (1 - tokens) / limiter.refillRate
        acquire sleep fuel { limiter with tokens := tokens, updatedAt := now } (now + sleep waitTime)

end RateLimiter

/-- The limiter, and the time at which the lock was released, after the first `k` calls. The lock is
handed on in the order of the calls. -/
def served (fuel maxPerHour : ℕ) (start : ℚ) (sleep : ℕ → ℚ → ℚ) (calls : ℕ → ℚ) :
    ℕ → Option (RateLimiter × ℚ)
  | 0 => some (RateLimiter.create maxPerHour start, start)
  | k + 1 =>
      (served fuel maxPerHour start sleep calls k).bind fun s =>
        s.1.acquire (sleep k) fuel (max s.2 (calls k))

/-- The times at which the first `n` calls are granted. -/
def GrantedAt (fuel maxPerHour : ℕ) (start : ℚ) (sleep : ℕ → ℚ → ℚ) (calls : ℕ → ℚ) (n : ℕ)
    (grants : ℕ → ℚ) : Prop :=
  ∀ k, k < n → (served fuel maxPerHour start sleep calls (k + 1)).map Prod.snd = some (grants k)

/-- A sleep takes at least as long as it is asked to. -/
def SleepsAtLeast (sleep : ℕ → ℚ → ℚ) : Prop := ∀ k d, d ≤ sleep k d

/-! ## One call -/

namespace RateLimiter

variable {sleep : ℚ → ℚ} {limiter limiter' : RateLimiter} {now t : ℚ} {fuel : ℕ}

theorem refillRate_nonneg (limiter : RateLimiter) : 0 ≤ limiter.refillRate := by
  rw [refillRate]
  positivity

theorem refilled_le_capacity (limiter : RateLimiter) (now : ℚ) :
    limiter.refilled now ≤ limiter.capacity :=
  min_le_left _ _

theorem refilled_le (limiter : RateLimiter) (now : ℚ) :
    limiter.refilled now ≤ limiter.tokens + (now - limiter.updatedAt) * limiter.refillRate :=
  min_le_right _ _

theorem refilled_nonneg (htokens : 0 ≤ limiter.tokens) (hnow : limiter.updatedAt ≤ now) :
    0 ≤ limiter.refilled now := by
  apply le_min
  · rw [capacity]
    positivity
  · have hrefill := mul_nonneg (sub_nonneg.2 hnow) limiter.refillRate_nonneg
    linarith

theorem acquire_of_le (h : 1 ≤ limiter.refilled now) :
    limiter.acquire sleep (fuel + 1) now =
      some ({ limiter with tokens := limiter.refilled now - 1, updatedAt := now }, now) := by
  rw [acquire, if_pos h]

theorem acquire_of_lt (h : limiter.refilled now < 1) :
    limiter.acquire sleep (fuel + 1) now =
      RateLimiter.acquire sleep fuel
        { limiter with tokens := limiter.refilled now, updatedAt := now }
        (now + sleep ((1 - limiter.refilled now) / limiter.refillRate)) := by
  rw [acquire, if_neg (not_le.2 h)]

/-- A grant at the time `t` to a caller that has the lock since `now`: it is paid for by the tokens
that were left and what has been refilled since. -/
structure Spends (limiter limiter' : RateLimiter) (now t : ℚ) : Prop where
  after : now ≤ t
  made : limiter'.maxPerHour = limiter.maxPerHour
  updatedAt : limiter'.updatedAt = t
  nonneg : 0 ≤ limiter'.tokens
  below : limiter'.tokens + 1 ≤ limiter.capacity
  budget : limiter'.tokens + 1 ≤
    limiter.tokens + (t - limiter.updatedAt) * limiter.refillRate

theorem spends_grant (hgrant : 1 ≤ limiter.refilled now) :
    Spends limiter { limiter with tokens := limiter.refilled now - 1, updatedAt := now } now now := by
  have hle := limiter.refilled_le now
  have hcapacity := limiter.refilled_le_capacity now
  refine ⟨le_rfl, rfl, rfl, ?_, ?_, ?_⟩
  · dsimp only
    linarith
  · dsimp only
    linarith
  · dsimp only
    linarith

/-- What is refilled after a reading of the clock comes on top of what was refilled at it. -/
theorem Spends.of_refilled {later : ℚ} (hlater : now ≤ later)
    (h : Spends { limiter with tokens := limiter.refilled now, updatedAt := now } limiter' later t) :
    Spends limiter limiter' now t := by
  obtain ⟨hafter, hmade, hupdated, hnonneg, hbelow, hbudget⟩ := h
  refine ⟨hlater.trans hafter, hmade, hupdated, hnonneg, hbelow, ?_⟩
  have hle := limiter.refilled_le now
  have hsplit : (t - limiter.updatedAt) * limiter.refillRate =
      (now - limiter.updatedAt) * limiter.refillRate + (t - now) * limiter.refillRate := by
    ring
  have hsince : limiter'.tokens + 1 ≤
      limiter.refilled now + (t - now) * limiter.refillRate := hbudget
  linarith

theorem refillRate_pos (hmax : 1 ≤ limiter.maxPerHour) : 0 < limiter.refillRate := by
  have hmax' : (1 : ℚ) ≤ limiter.maxPerHour := by exact_mod_cast hmax
  rw [refillRate]
  positivity

theorem waitTime_nonneg (hshort : limiter.refilled now < 1) :
    0 ≤ (1 - limiter.refilled now) / limiter.refillRate :=
  div_nonneg (by linarith) limiter.refillRate_nonneg

/-- The missing part of a token is refilled within the time that is waited for it. -/
theorem one_le_refilled_of_slept {later : ℚ} (hmax : 1 ≤ limiter.maxPerHour)
    (hslept : now + (1 - limiter.refilled now) / limiter.refillRate ≤ later) :
    1 ≤ RateLimiter.refilled
      { limiter with tokens := limiter.refilled now, updatedAt := now } later := by
  have hmax' : (1 : ℚ) ≤ limiter.maxPerHour := by exact_mod_cast hmax
  have hrate := refillRate_pos hmax
  have hcovered := mul_le_mul_of_nonneg_right (le_sub_iff_add_le'.2 hslept) hrate.le
  rw [div_mul_cancel₀ _ hrate.ne'] at hcovered
  apply le_min
  · exact hmax'
  · show 1 ≤ limiter.refilled now + (later - now) * limiter.refillRate
    linarith

theorem acquire_spends (hsleep : ∀ d, d ≤ sleep d) (htokens : 0 ≤ limiter.tokens)
    (hnow : limiter.updatedAt ≤ now) (h : limiter.acquire sleep fuel now = some (limiter', t)) :
    Spends limiter limiter' now t := by
  induction fuel generalizing limiter now with
  | zero => cases h
  | succ fuel ih =>
      rcases le_or_gt 1 (limiter.refilled now) with hgrant | hshort
      · rw [acquire_of_le hgrant] at h
        cases h
        exact spends_grant hgrant
      · rw [acquire_of_lt hshort] at h
        have hslept := hsleep ((1 - limiter.refilled now) / limiter.refillRate)
        have hlater : now ≤ now + sleep ((1 - limiter.refilled now) / limiter.refillRate) := by
          have hwait := waitTime_nonneg hshort
          linarith
        apply Spends.of_refilled hlater
        exact ih (refilled_nonneg htokens hnow) hlater h

/-- **Termination.** After one sleep there is a token. -/
theorem acquire_returns (fuel : ℕ) (limiter : RateLimiter) (now : ℚ) (hsleep : ∀ d, d ≤ sleep d)
    (hmax : 1 ≤ limiter.maxPerHour) :
    ∃ limiter', limiter.acquire sleep (fuel + 2) now = some (limiter',
      if 1 ≤ limiter.refilled now then now
      else now + sleep ((1 - limiter.refilled now) / limiter.refillRate)) := by
  rcases le_or_gt 1 (limiter.refilled now) with hgrant | hshort
  · rw [if_pos hgrant]
    exact ⟨_, acquire_of_le hgrant⟩
  · rw [if_neg (not_le.2 hshort), acquire_of_lt hshort]
    refine ⟨_, acquire_of_le (one_le_refilled_of_slept hmax ?_)⟩
    have hslept := hsleep ((1 - limiter.refilled now) / limiter.refillRate)
    linarith

end RateLimiter

/-! ## A queue of calls -/

section Queue

variable {fuel maxPerHour n : ℕ} {start : ℚ} {sleep : ℕ → ℚ → ℚ} {calls grants : ℕ → ℚ}

/-- The limiter between two calls: the last one was granted at the time `s.2`. -/
structure Idle (maxPerHour : ℕ) (s : RateLimiter × ℚ) : Prop where
  made : s.1.maxPerHour = maxPerHour
  updatedAt : s.1.updatedAt = s.2
  nonneg : 0 ≤ s.1.tokens
  le : s.1.tokens ≤ maxPerHour

theorem served_succ {k : ℕ} {s' : RateLimiter × ℚ}
    (h : served fuel maxPerHour start sleep calls (k + 1) = some s') :
    ∃ s, served fuel maxPerHour start sleep calls k = some s ∧
      s.1.acquire (sleep k) fuel (max s.2 (calls k)) = some s' :=
  Option.bind_eq_some_iff.1 h

theorem served_idle (hsleep : SleepsAtLeast sleep) {k : ℕ} {s : RateLimiter × ℚ}
    (h : served fuel maxPerHour start sleep calls k = some s) : Idle maxPerHour s := by
  induction k generalizing s with
  | zero =>
      cases h
      exact ⟨rfl, rfl, Nat.cast_nonneg _, le_rfl⟩
  | succ k ih =>
      obtain ⟨s₀, h₀, hacquire⟩ := served_succ h
      obtain ⟨hmade, hupdated, hnonneg, -⟩ := ih h₀
      have hnow : s₀.1.updatedAt ≤ max s₀.2 (calls k) := by
        rw [hupdated]
        exact le_max_left _ _
      have hspends := RateLimiter.acquire_spends (hsleep k) hnonneg hnow hacquire
      refine ⟨hspends.made.trans hmade, hspends.updatedAt, hspends.nonneg, ?_⟩
      have hbelow := hspends.below
      rw [RateLimiter.capacity, hmade] at hbelow
      linarith

/-- A further call spends one token. -/
theorem served_spends (hsleep : SleepsAtLeast sleep) {k : ℕ} {s s' : RateLimiter × ℚ}
    (h : served fuel maxPerHour start sleep calls k = some s)
    (h' : served fuel maxPerHour start sleep calls (k + 1) = some s') :
    s.1.Spends s'.1 (max s.2 (calls k)) s'.2 := by
  obtain ⟨s₀, h₀, hacquire⟩ := served_succ h'
  obtain rfl := Option.some.inj (h.symm.trans h₀)
  have hidle := served_idle hsleep h
  apply RateLimiter.acquire_spends (hsleep k) hidle.nonneg _ hacquire
  rw [hidle.updatedAt]
  exact le_max_left _ _

/-- **Budget of a run.** What `m` calls spend was there before or has been refilled since. -/
theorem served_budget (hsleep : SleepsAtLeast sleep) {k m : ℕ} {s s' : RateLimiter × ℚ}
    (h : served fuel maxPerHour start sleep calls k = some s)
    (h' : served fuel maxPerHour start sleep calls (k + m) = some s') :
    s.2 ≤ s'.2 ∧ s'.1.tokens + m ≤ s.1.tokens + (s'.2 - s.2) * (maxPerHour / 3600) := by
  induction m generalizing s' with
  | zero =>
      obtain rfl := Option.some.inj (h.symm.trans h')
      simp
  | succ m ih =>
      obtain ⟨s₁, h₁, -⟩ := served_succ h'
      obtain ⟨horder, hbudget⟩ := ih h₁
      have hspends := served_spends hsleep h₁ h'
      have hidle := served_idle hsleep h₁
      have hafter := (le_max_left _ _).trans hspends.after
      have hstep := hspends.budget
      rw [hidle.updatedAt, RateLimiter.refillRate, hidle.made] at hstep
      refine ⟨horder.trans hafter, ?_⟩
      have hsplit : (s'.2 - s.2) * ((maxPerHour : ℚ) / 3600) =
          (s₁.2 - s.2) * (maxPerHour / 3600) + (s'.2 - s₁.2) * (maxPerHour / 3600) := by
        ring
      push_cast
      linarith

/-- Every call is granted. -/
theorem served_returns (fuel : ℕ) (start : ℚ) (calls : ℕ → ℚ) (hmax : 1 ≤ maxPerHour)
    (hsleep : SleepsAtLeast sleep) (k : ℕ) :
    ∃ s, served (fuel + 2) maxPerHour start sleep calls k = some s := by
  induction k with
  | zero => exact ⟨_, rfl⟩
  | succ k ih =>
      obtain ⟨s, hs⟩ := ih
      have hmade := (served_idle hsleep hs).made
      obtain ⟨limiter', h⟩ := RateLimiter.acquire_returns fuel s.1 (max s.2 (calls k)) (hsleep k)
        (hmade ▸ hmax)
      exact ⟨_, Option.bind_eq_some_iff.2 ⟨s, hs, h⟩⟩

theorem grantedAt_of_served
    (h : ∀ k, ∃ s, served fuel maxPerHour start sleep calls k = some s) (n : ℕ) :
    ∃ grants, GrantedAt fuel maxPerHour start sleep calls n grants := by
  choose s hs using h
  refine ⟨fun k => (s (k + 1)).2, fun k _ => ?_⟩
  rw [hs, Option.map_some]

theorem GrantedAt.served {k : ℕ} (h : GrantedAt fuel maxPerHour start sleep calls n grants)
    (hk : k < n) : ∃ limiter,
      served fuel maxPerHour start sleep calls (k + 1) = some (limiter, grants k) := by
  obtain ⟨⟨limiter, t⟩, hs, rfl⟩ := Option.map_eq_some_iff.1 (h k hk)
  exact ⟨limiter, hs⟩

theorem GrantedAt.inOrder (hsleep : SleepsAtLeast sleep)
    (h : GrantedAt fuel maxPerHour start sleep calls n grants) : InOrder grants n := by
  intro i j hij hj
  obtain ⟨m, rfl⟩ := Nat.exists_eq_add_of_le hij
  obtain ⟨limiter, hi⟩ := h.served (k := i) (by omega)
  obtain ⟨limiter', hm⟩ := h.served hj
  rw [show i + m + 1 = i + 1 + m by omega] at hm
  exact (served_budget hsleep hi hm).1

/-- **What the limiter guarantees.** A window of an hour sees fewer than twice the cap, however the calls
are made and however long the sleeps take. -/
theorem grants_lt_twice (hmax : 1 ≤ maxPerHour) (hsleep : SleepsAtLeast sleep)
    (h : GrantedAt fuel maxPerHour start sleep calls n grants) :
    AtMost grants n 3600 (2 * maxPerHour - 1) := by
  rw [atMost_iff_spaced (h.inOrder hsleep)]
  intro i hi
  have hmax' : (1 : ℚ) ≤ maxPerHour := by exact_mod_cast hmax
  obtain ⟨limiter, hfirst⟩ := h.served (k := i) (by omega)
  obtain ⟨limiter', hlast⟩ := h.served hi
  rw [show i + (2 * maxPerHour - 1) + 1 = i + 1 + (2 * maxPerHour - 1) by omega] at hlast
  obtain ⟨-, hbudget⟩ := served_budget hsleep hfirst hlast
  have hnonneg := (served_idle hsleep hlast).nonneg
  -- the first grant of the window leaves less than a full bucket
  obtain ⟨s, hs, -⟩ := served_succ hfirst
  have hbelow := (served_spends hsleep hs hfirst).below
  rw [RateLimiter.capacity, (served_idle hsleep hs).made] at hbelow
  have hcount : ((2 * maxPerHour - 1 : ℕ) : ℚ) = 2 * maxPerHour - 1 := by
    rw [Nat.cast_sub (by omega)]
    push_cast
    ring
  rw [hcount] at hbudget
  dsimp only at hbudget hbelow hnonneg
  have hspan : (maxPerHour : ℚ) ≤
      (grants (i + (2 * maxPerHour - 1)) - grants i) * (maxPerHour / 3600) := by linarith
  rw [← mul_div_assoc, le_div_iff₀ (by norm_num), mul_comm, mul_le_mul_iff_left₀ (by linarith)] at hspan
  linarith

/-! ## Calls that keep to the cap -/

/-- The bucket when call `k` is made, while no call has had to wait: it was full at the call `j`. -/
def Level (maxPerHour : ℕ) (calls : ℕ → ℚ) (k : ℕ) (tokens : ℚ) : Prop :=
  ∃ j d, k = j + d ∧ tokens = maxPerHour + (calls k - calls j) * (maxPerHour / 3600) - d

/-- A bucket that was full a whole number of hours ago, and then some calls. -/
theorem hours_before (horder : InOrder calls n) {j q r : ℕ}
    (hspaced : Spaced calls n 3600 maxPerHour) (h : j + q * maxPerHour + r < n) :
    calls j + q * 3600 ≤ calls (j + q * maxPerHour + r) := by
  have hhours := hspaced.mul j q (by omega)
  rw [nsmul_eq_mul] at hhours
  exact hhours.trans (horder _ _ (Nat.le_add_right _ _) h)

theorem Level.one_le {k : ℕ} {tokens : ℚ} (hmax : 1 ≤ maxPerHour) (horder : InOrder calls (k + 1))
    (hspaced : Spaced calls (k + 1) 3600 maxPerHour) (h : Level maxPerHour calls k tokens) :
    1 ≤ tokens := by
  obtain ⟨j, d, hk, rfl⟩ := h
  -- `q` hours refill `q * maxPerHour` tokens
  have hd : d = d / maxPerHour * maxPerHour + d % maxPerHour := by
    rw [mul_comm]
    exact (Nat.div_add_mod d maxPerHour).symm
  have hr : d % maxPerHour < maxPerHour := Nat.mod_lt _ hmax
  generalize d / maxPerHour = q at hd
  generalize d % maxPerHour = r at hd hr
  subst hd
  have hkj : k = j + q * maxPerHour + r := by omega
  have hhours := hours_before (j := j) (q := q) (r := r) horder hspaced (by omega)
  rw [← hkj] at hhours
  have hr' : (r : ℚ) + 1 ≤ maxPerHour := by exact_mod_cast hr
  have hmax' : (0 : ℚ) ≤ maxPerHour / 3600 := by positivity
  have hrefill := mul_le_mul_of_nonneg_right (le_sub_iff_add_le'.2 hhours) hmax'
  have hq : (q : ℚ) * 3600 * (maxPerHour / 3600) = q * maxPerHour := by ring
  push_cast
  linarith

/-- A limiter that no call has had to wait for. -/
structure Prompt (maxPerHour : ℕ) (calls : ℕ → ℚ) (k : ℕ) (s : RateLimiter × ℚ) : Prop where
  made : s.1.maxPerHour = maxPerHour
  updatedAt : s.1.updatedAt = s.2
  before : s.2 ≤ calls k
  level : Level maxPerHour calls k (s.1.refilled (calls k))

/-- **Step.** A call that finds a token is granted when it is made. -/
theorem Prompt.acquire {k : ℕ} {s : RateLimiter × ℚ} (h : Prompt maxPerHour calls k s) (fuel : ℕ)
    (sleep : ℕ → ℚ → ℚ) (hgrant : 1 ≤ s.1.refilled (calls k)) (hnext : calls k ≤ calls (k + 1)) :
    ∃ limiter, s.1.acquire (sleep k) (fuel + 1) (max s.2 (calls k)) = some (limiter, calls k) ∧
      Prompt maxPerHour calls (k + 1) (limiter, calls k) := by
  rw [max_eq_right h.before]
  refine ⟨_, RateLimiter.acquire_of_le hgrant, h.made, rfl, hnext, ?_⟩
  obtain ⟨j, d, hk, hlevel⟩ := h.level
  rw [RateLimiter.refilled, RateLimiter.capacity, RateLimiter.refillRate, hlevel, h.made]
  rcases min_choice (maxPerHour : ℚ) (maxPerHour + (calls k - calls j) * (maxPerHour / 3600) - d - 1 +
    (calls (k + 1) - calls k) * (maxPerHour / 3600)) with hfull | hrest
  · rw [hfull]
    exact ⟨k + 1, 0, rfl, by simp⟩
  · rw [hrest]
    refine ⟨j, d + 1, by omega, ?_⟩
    push_cast
    ring

theorem prompt_run (fuel : ℕ) (sleep : ℕ → ℚ → ℚ) (hmax : 1 ≤ maxPerHour) (hstart : start ≤ calls 0)
    {k : ℕ} (horder : InOrder calls (k + 1)) (hspaced : Spaced calls k 3600 maxPerHour) :
    ∃ s, served (fuel + 1) maxPerHour start sleep calls k = some s ∧ Prompt maxPerHour calls k s := by
  induction k with
  | zero =>
      refine ⟨_, rfl, rfl, rfl, hstart, 0, 0, rfl, ?_⟩
      rw [RateLimiter.refilled, sub_self, zero_mul, add_zero, Nat.cast_zero, sub_zero]
      apply min_eq_left
      have hrefill := mul_nonneg (sub_nonneg.2 hstart)
        (RateLimiter.create maxPerHour start).refillRate_nonneg
      exact le_add_of_nonneg_right hrefill
  | succ k ih =>
      have horder' : InOrder calls (k + 1) := fun i j hij hj => horder i j hij (by omega)
      obtain ⟨s, hs, hprompt⟩ := ih horder' (hspaced.mono (Nat.le_succ k))
      have hgrant := hprompt.level.one_le hmax horder' hspaced
      obtain ⟨limiter, hacquire, hnext⟩ :=
        hprompt.acquire fuel sleep hgrant (horder k (k + 1) (by omega) (by omega))
      exact ⟨_, Option.bind_eq_some_iff.2 ⟨s, hs, hacquire⟩, hnext⟩

/-- Calls that keep to the cap are granted when they are made. -/
theorem granted_when_made (hmax : 1 ≤ maxPerHour) (hstart : start ≤ calls 0)
    (horder : InOrder calls n) (hspaced : Spaced calls n 3600 maxPerHour) {k : ℕ} (hk : k < n)
    (h : GrantedAt (fuel + 1) maxPerHour start sleep calls n grants) : grants k = calls k := by
  have horder' : InOrder calls (k + 1) := fun i j hij hj => horder i j hij (by omega)
  obtain ⟨s, hs, hprompt⟩ := prompt_run fuel sleep hmax hstart horder'
    (hspaced.mono hk.le)
  have hgrant := hprompt.level.one_le hmax horder' (hspaced.mono hk)
  obtain ⟨limiter, hserved⟩ := h.served hk
  obtain ⟨s', hs', hacquire⟩ := served_succ hserved
  obtain rfl := Option.some.inj (hs.symm.trans hs')
  rw [max_eq_right hprompt.before, RateLimiter.acquire_of_le hgrant] at hacquire
  exact (Prod.mk.inj (Option.some.inj hacquire)).2.symm

/-- The first call that does not keep to the cap is granted too early: when it has to wait, not for an
hour. -/
theorem early_grant {k : ℕ} {tokens : ℚ} (hmax : 2 ≤ maxPerHour) (horder : InOrder calls (k + 1))
    (hspaced : Spaced calls k 3600 maxPerHour) (hcap : maxPerHour ≤ k)
    (hclose : calls k < calls (k - maxPerHour) + 3600) (h : Level maxPerHour calls k tokens)
    (hshort : tokens < 1) :
    calls k + (1 - tokens) / (maxPerHour / 3600) < calls (k - maxPerHour) + 3600 := by
  obtain ⟨j, d, hk, rfl⟩ := h
  have hmax' : (2 : ℚ) ≤ maxPerHour := by exact_mod_cast hmax
  have hd : d = d / maxPerHour * maxPerHour + d % maxPerHour := by
    rw [mul_comm]
    exact (Nat.div_add_mod d maxPerHour).symm
  have hr : d % maxPerHour < maxPerHour := Nat.mod_lt _ (by omega)
  generalize d / maxPerHour = q at hd
  generalize d % maxPerHour = r at hd hr
  subst hd
  -- the time at which there is a token again
  have hwhen : calls k + (1 - (maxPerHour + (calls k - calls j) * ((maxPerHour : ℚ) / 3600) -
      (q * maxPerHour + r : ℕ))) / (maxPerHour / 3600) =
      calls j + q * 3600 + (r + 1) * (3600 / maxPerHour) - 3600 := by
    push_cast
    field_simp
    ring
  rw [hwhen]
  cases q with
  | zero =>
      -- fewer than `maxPerHour` calls since the bucket was full: there is a token
      have hrefill : 0 ≤ (calls k - calls j) * ((maxPerHour : ℚ) / 3600) :=
        mul_nonneg (sub_nonneg.2 (horder j k (by omega) (by omega))) (by positivity)
      have hr' : (r : ℚ) + 1 ≤ maxPerHour := by exact_mod_cast hr
      push_cast at hshort
      linarith
  | succ q =>
      -- the call `maxPerHour + r` before this one, and the hours before it
      obtain ⟨i, hi⟩ : ∃ i, i = j + q * maxPerHour := ⟨_, rfl⟩
      have hq : (q + 1) * maxPerHour = q * maxPerHour + maxPerHour := by ring
      have hik : i + maxPerHour + r = k := by omega
      have hhours := hours_before (j := j) (q := q) (r := 0)
        (fun i j hij (hj : j < k) => horder i j hij (by omega)) hspaced (by omega)
      rw [add_zero, ← hi] at hhours
      push_cast
      rcases Nat.eq_zero_or_pos r with rfl | hpos
      · have hsame : k - maxPerHour = i := by omega
        have hgap : 3600 / (maxPerHour : ℚ) < 3600 := by
          rw [div_lt_iff₀ (by linarith)]
          linarith
        rw [hsame]
        push_cast
        linarith
      · have hr' : (r : ℚ) + 1 ≤ maxPerHour := by exact_mod_cast hr
        have hgap : ((r : ℚ) + 1) * (3600 / maxPerHour) ≤ 3600 := by
          rw [← mul_div_assoc, div_le_iff₀ (by linarith)]
          linarith
        have hnext := hspaced i (by omega)
        have hlast := horder (i + maxPerHour) k (by omega) (by omega)
        linarith

/-- The first of the calls that does not keep to the cap. -/
theorem exists_first_close (h : ¬ Spaced calls n 3600 maxPerHour) :
    ∃ k, k < n ∧ maxPerHour ≤ k ∧ calls k < calls (k - maxPerHour) + 3600 ∧
      Spaced calls k 3600 maxPerHour := by
  have hexists : ∃ k, k < n ∧ maxPerHour ≤ k ∧ calls k < calls (k - maxPerHour) + 3600 := by
    simp only [Spaced, not_forall, not_le] at h
    obtain ⟨i, hi, hclose⟩ := h
    exact ⟨i + maxPerHour, hi, Nat.le_add_left _ _, by simpa using hclose⟩
  obtain ⟨hn, hcap, hclose⟩ := Nat.find_spec hexists
  refine ⟨Nat.find hexists, hn, hcap, hclose, fun i hi => ?_⟩
  by_contra hlt
  rw [not_le] at hlt
  exact Nat.find_min hexists hi ⟨by omega, Nat.le_add_left _ _, by simpa using hlt⟩

/-- **The hourly cap.** Every call returns. However long the sleeps take, no window of an hour sees more
than `maxPerHour` grants, exactly when the cap is one or the calls themselves keep to it. -/
theorem cap_respected_iff (fuel : ℕ) (hmax : 1 ≤ maxPerHour) (hstart : start ≤ calls 0)
    (horder : InOrder calls n) :
    (∀ sleep, SleepsAtLeast sleep →
      ∃ grants, GrantedAt (fuel + 2) maxPerHour start sleep calls n grants ∧
        AtMost grants n 3600 maxPerHour) ↔
      maxPerHour = 1 ∨ AtMost calls n 3600 maxPerHour := by
  rw [atMost_iff_spaced horder]
  constructor
  · intro h
    by_contra hnot
    rw [not_or] at hnot
    obtain ⟨k, hk, hcap, hclose, hspaced⟩ := exists_first_close hnot.2
    -- the sleeps that take as long as they are asked to
    have hexact : SleepsAtLeast fun _ d => d := fun _ _ => le_rfl
    obtain ⟨grants, hgrants, hatMost⟩ := h _ hexact
    rw [atMost_iff_spaced (hgrants.inOrder hexact)] at hatMost
    have horder' : InOrder calls (k + 1) := fun i j hij hj => horder i j hij (by omega)
    have hfirst : grants (k - maxPerHour) = calls (k - maxPerHour) :=
      granted_when_made (n := k) hmax hstart (fun i j hij hj => horder i j hij (by omega)) hspaced
        (by omega) fun i hi => hgrants i (by omega)
    obtain ⟨s, hs, hprompt⟩ := prompt_run (fuel + 1) (fun _ d => d) hmax hstart
      horder' hspaced
    obtain ⟨limiter, hserved⟩ := hgrants.served hk
    obtain ⟨s', hs', hacquire⟩ := served_succ hserved
    obtain rfl := Option.some.inj (hs.symm.trans hs')
    obtain ⟨limiter', hreturns⟩ := RateLimiter.acquire_returns fuel s.1 (calls k) (hexact k)
      (hprompt.made ▸ hmax)
    rw [max_eq_right hprompt.before, hreturns, Option.some.injEq, Prod.mk.injEq] at hacquire
    have hgap := hatMost (k - maxPerHour) (by omega)
    rw [Nat.sub_add_cancel hcap, hfirst, ← hacquire.2] at hgap
    split at hgap
    · linarith
    · rename_i hshort
      have hearly := early_grant (by omega) horder' hspaced hcap hclose hprompt.level
        (not_le.1 hshort)
      rw [RateLimiter.refillRate, hprompt.made] at hgap
      linarith
  · intro h sleep hsleep
    obtain ⟨grants, hgrants⟩ := grantedAt_of_served
      (served_returns fuel start calls hmax hsleep) n
    refine ⟨grants, hgrants, ?_⟩
    rcases h with rfl | hspaced
    · exact grants_lt_twice hmax hsleep hgrants
    · rw [atMost_iff_spaced (hgrants.inOrder hsleep)]
      intro k hk
      rw [granted_when_made hmax hstart horder hspaced (by omega) hgrants,
        granted_when_made hmax hstart horder hspaced hk hgrants]
      exact hspaced k hk

end Queue

/-- Two calls an hour, made at once, and two more an hour later. -/
theorem two_an_hour_respected :
    ∃ grants, GrantedAt 2 2 0 (fun _ d => d) (fun k => 3600 * (k / 2 : ℕ)) 4 grants ∧
      AtMost grants 4 3600 2 := by
  have horder : InOrder (fun k : ℕ => (3600 : ℚ) * (k / 2 : ℕ)) 4 := by
    intro i j hij _
    have hhalf : i / 2 ≤ j / 2 := Nat.div_le_div_right hij
    have hhalf' : ((i / 2 : ℕ) : ℚ) ≤ (j / 2 : ℕ) := by exact_mod_cast hhalf
    dsimp only
    linarith
  refine (cap_respected_iff 0 (by norm_num) (by simp) horder).2 (Or.inr ?_) (fun _ d => d)
    fun _ _ => le_rfl
  rw [atMost_iff_spaced horder]
  intro k _
  dsimp only
  rw [Nat.add_div_right k (by norm_num)]
  push_cast
  linarith

/-- Three calls at once with a cap of two: the third one is granted after half an hour. -/
theorem three_in_an_hour :
    ¬ ∀ grants, GrantedAt 2 2 0 (fun _ d => d) (fun _ => 0) 3 grants → AtMost grants 3 3600 2 := by
  intro h
  have hgrants : GrantedAt 2 2 0 (fun _ d => d) (fun _ => 0) 3 fun k => if k = 2 then 1800 else 0 := by
    intro k hk
    obtain rfl | rfl | rfl : k = 0 ∨ k = 1 ∨ k = 2 := by omega
    all_goals decide +kernel
  have hcount := h _ hgrants 0
  revert hcount
  decide +kernel

end SalesTrades.Freshsales
