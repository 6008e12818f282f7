import SalesTrades.Freshsales.RateLimiter

/-!
# The loop of `acquire`

One call of `acquire` pass by pass, on any readings of the clock, with the sleeps it has asked for and
the division that could fail. A call ends in its second pass at the latest, and whatever it has done
by then keeps the bucket between empty and full (`acquire_sound`). `loop_acquire` says that the calls
of the queue are such calls.
-/

set_option autoImplicit false

namespace SalesTrades.Freshsales

namespace RateLimiter

/-- Whether a call is in its loop, has been granted at some time, or has raised `ZeroDivisionError`. -/
inductive LoopStatus where
  | looping
  | granted (time : ℚ)
  | zeroDivision
  deriving DecidableEq

/-- The limiter after some passes of a call, and the sleeps that the call has asked for. -/
structure LoopState where
  limiter : RateLimiter
  sleeps : List ℚ
  status : LoopStatus
  deriving DecidableEq

/-- The next pass through the loop, in which the clock reads `now`. A call that has ended makes none. -/
def pass (now : ℚ) (s : LoopState) : LoopState :=
  match s.status with
  | .looping =>
      let tokens := s.limiter.refilled now
      let limiter := { s.limiter with tokens := tokens, updatedAt := now }
      if 1 ≤ tokens then ⟨{ limiter with tokens := tokens - 1 }, s.sleeps, .granted now⟩
      else if limiter.refillRate = 0 then ⟨limiter, s.sleeps, .zeroDivision⟩
      else ⟨limiter, s.sleeps ++ [(1 - tokens) / limiter.refillRate], .looping⟩
  | _ => s

/-- A call after `n` passes; `clock i` is the reading of the clock in pass `i`. -/
def loop (clock : ℕ → ℚ) (limiter : RateLimiter) : ℕ → LoopState
  | 0 => ⟨limiter, [], .looping⟩
  | n + 1 => pass (clock n) (loop clock limiter n)

/-- Every sleep of the call lasts at least as long as it is asked to. -/
def SleepsServed (clock : ℕ → ℚ) (limiter : RateLimiter) : Prop :=
  ∀ n, (loop clock limiter (n + 1)).status = .looping →
    ∀ d ∈ (loop clock limiter (n + 1)).sleeps.getLast?, clock n + d ≤ clock (n + 1)

variable {clock : ℕ → ℚ} {limiter : RateLimiter} {now : ℚ} {sleeps : List ℚ}

theorem pass_of_le (h : 1 ≤ limiter.refilled now) :
    pass now ⟨limiter, sleeps, .looping⟩ =
      ⟨{ limiter with tokens := limiter.refilled now - 1, updatedAt := now }, sleeps,
        .granted now⟩ := by
  simp only [pass, if_pos h]

theorem pass_of_lt (hmax : 1 ≤ limiter.maxPerHour) (h : limiter.refilled now < 1) :
    pass now ⟨limiter, sleeps, .looping⟩ =
      ⟨{ limiter with tokens := limiter.refilled now, updatedAt := now },
        sleeps ++ [(1 - limiter.refilled now) / limiter.refillRate], .looping⟩ := by
  have hrate : RateLimiter.refillRate
      { limiter with tokens := limiter.refilled now, updatedAt := now } ≠ 0 := (refillRate_pos hmax).ne'
  simp only [pass, if_neg (not_le.2 h), if_neg hrate]
  rfl

/-- Where a call is after `n` passes: before the first, in its only sleep, or granted. -/
inductive Acquiring (clock : ℕ → ℚ) (limiter : RateLimiter) : ℕ → LoopState → Prop where
  | start : Acquiring clock limiter 0 ⟨limiter, [], .looping⟩
  | asleep (hshort : limiter.refilled (clock 0) < 1) : Acquiring clock limiter 1
      ⟨{ limiter with tokens := limiter.refilled (clock 0), updatedAt := clock 0 },
        [(1 - limiter.refilled (clock 0)) / limiter.refillRate], .looping⟩
  | granted {n : ℕ} {limiter' : RateLimiter} {sleeps : List ℚ} {t : ℚ} (hfew : sleeps.length ≤ 1)
      (hnonneg : ∀ d ∈ sleeps, 0 ≤ d) (hspends : Spends limiter limiter' (clock 0) t) :
      Acquiring clock limiter (n + 1) ⟨limiter', sleeps, .granted t⟩

/-- **Step.** The sleep of a call covers what is missing of a token. -/
theorem Acquiring.pass {n : ℕ} {s : LoopState} (h : Acquiring clock limiter n s)
    (hmax : 1 ≤ limiter.maxPerHour) (horder : clock 0 ≤ clock 1)
    (hslept : s.status = .looping → ∀ d ∈ s.sleeps.getLast?, clock (n - 1) + d ≤ clock n) :
    Acquiring clock limiter (n + 1) (pass (clock n) s) := by
  cases h with
  | start =>
      rcases le_or_gt 1 (limiter.refilled (clock 0)) with hgrant | hshort
      · rw [pass_of_le hgrant]
        exact .granted (Nat.zero_le 1) (List.forall_mem_nil _) (spends_grant hgrant)
      · rw [pass_of_lt hmax hshort]
        exact .asleep hshort
  | asleep hshort =>
      -- the second pass finds the token that the first one waited for
      have hcovered := one_le_refilled_of_slept hmax (hslept rfl _ rfl)
      rw [pass_of_le hcovered]
      apply Acquiring.granted le_rfl
      · intro d hd
        rw [List.mem_singleton.1 hd]
        exact waitTime_nonneg hshort
      · exact (spends_grant hcovered).of_refilled horder
  | granted hfew hnonneg hspends => exact .granted hfew hnonneg hspends

theorem acquiring_loop (hmax : 1 ≤ limiter.maxPerHour) (horder : clock 0 ≤ clock 1)
    (hslept : SleepsServed clock limiter) (n : ℕ) :
    Acquiring clock limiter n (loop clock limiter n) := by
  induction n with
  | zero => exact .start
  | succ n ih =>
      apply ih.pass hmax horder
      cases n with
      | zero =>
          intro _ d hd
          cases hd
      | succ n => exact hslept n

/-- What holds of a call after any number of passes. -/
structure CallSound (limiter : RateLimiter) (n : ℕ) (s : LoopState) : Prop where
  divides : s.status ≠ .zeroDivision
  nonneg_sleeps : ∀ d ∈ s.sleeps, 0 ≤ d
  one_sleep : s.sleeps.length ≤ 1
  nonneg_tokens : 0 ≤ s.limiter.tokens
  tokens_le : s.limiter.tokens ≤ limiter.capacity
  returns : 2 ≤ n → ∃ t, s.status = .granted t
  /-- A grant takes a full token from what was there and what has been refilled since. -/
  accrued : ∀ t, s.status = .granted t →
    s.limiter.tokens + 1 ≤ limiter.tokens + (t - limiter.updatedAt) * limiter.refillRate

/-- **A call of `acquire`.** It never divides by zero, asks for no negative sleep and sleeps at most
once, keeps the bucket between empty and full, is granted in its second pass at the latest, and not
before a full token has accrued. -/
theorem acquire_sound (hmax : 1 ≤ limiter.maxPerHour) (hnonneg : 0 ≤ limiter.tokens)
    (hle : limiter.tokens ≤ limiter.capacity) (hnow : limiter.updatedAt ≤ clock 0)
    (horder : Monotone clock) (hslept : SleepsServed clock limiter) (n : ℕ) :
    CallSound limiter n (loop clock limiter n) := by
  have h := acquiring_loop hmax (horder (Nat.zero_le 1)) hslept n
  generalize loop clock limiter n = s at h
  cases h with
  | start =>
      exact
        { divides := LoopStatus.noConfusion
          nonneg_sleeps := List.forall_mem_nil _
          one_sleep := Nat.zero_le 1
          nonneg_tokens := hnonneg
          tokens_le := hle
          returns := fun h => by omega
          accrued := fun t h => by cases h }
  | asleep hshort =>
      refine
        { divides := LoopStatus.noConfusion
          nonneg_sleeps := ?_
          one_sleep := le_rfl
          nonneg_tokens := refilled_nonneg hnonneg hnow
          tokens_le := limiter.refilled_le_capacity (clock 0)
          returns := fun h => by omega
          accrued := fun t h => by cases h }
      intro d hd
      rw [List.mem_singleton.1 hd]
      exact waitTime_nonneg hshort
  | granted hfew hsleeps hspends =>
      refine
        { divides := LoopStatus.noConfusion
          nonneg_sleeps := hsleeps
          one_sleep := hfew
          nonneg_tokens := hspends.nonneg
          tokens_le := ?_
          returns := fun _ => ⟨_, rfl⟩
          accrued := ?_ }
      · have hbelow := hspends.below
        dsimp only
        linarith
      · intro t h
        cases h
        exact hspends.budget

/-- An empty bucket with one token an hour: the call sleeps for an hour. -/
theorem acquire_sound_hourly :
    CallSound ⟨1, 0, 0⟩ 2 (loop (fun i => 3600 * i) ⟨1, 0, 0⟩ 2) := by
  have hsecond : (loop (fun i => 3600 * i) ⟨1, 0, 0⟩ 2).status = .granted 3600 := by
    decide +kernel
  have hended : ∀ n, (loop (fun i => 3600 * i) ⟨1, 0, 0⟩ (n + 2)).status = .granted 3600 := by
    intro n
    induction n with
    | zero => exact hsecond
    | succ n ih => rw [loop, pass, ih]; exact ih
  apply acquire_sound
  · exact le_rfl
  · exact le_rfl
  · decide +kernel
  · norm_num
  · intro i j hij
    have hcast : (i : ℚ) ≤ j := by exact_mod_cast hij
    dsimp only
    linarith
  · intro n hlooping d hd
    cases n with
    | zero =>
        have hfirst : (loop (fun i => 3600 * i) ⟨1, 0, 0⟩ 1).sleeps = [3600] := by decide +kernel
        rw [hfirst] at hd
        cases hd
        norm_num
    | succ n =>
        rw [hended n] at hlooping
        cases hlooping

/-! ## The calls of the queue -/

/-- A call that has been granted makes no more passes. -/
theorem loop_of_granted {n : ℕ} {s : LoopState} {t : ℚ} (h : loop clock limiter n = s)
    (hgranted : s.status = .granted t) (k : ℕ) : loop clock limiter (n + k) = s := by
  induction k with
  | zero => exact h
  | succ k ih => rw [← Nat.add_assoc, loop, ih, pass, hgranted]

/-- A call of the queue is the loop, on readings of the clock that are as far apart as its sleeps
take. -/
theorem loop_acquire {sleep : ℚ → ℚ} {fuel n : ℕ} {limiter₀ limiter' : RateLimiter} {t : ℚ}
    (hmax : 1 ≤ limiter.maxPerHour)
    (hclock : ∀ i, (loop clock limiter₀ (i + 1)).status = .looping →
      ∀ d ∈ (loop clock limiter₀ (i + 1)).sleeps.getLast?, clock (i + 1) = clock i + sleep d)
    (hn : loop clock limiter₀ n = ⟨limiter, sleeps, .looping⟩)
    (h : limiter.acquire sleep fuel (clock n) = some (limiter', t)) :
    ∃ sleeps', loop clock limiter₀ (n + fuel) = ⟨limiter', sleeps', .granted t⟩ := by
  induction fuel generalizing n limiter sleeps with
  | zero => cases h
  | succ fuel ih =>
      rw [Nat.add_comm fuel 1, ← Nat.add_assoc]
      have hnext : loop clock limiter₀ (n + 1) = pass (clock n) ⟨limiter, sleeps, .looping⟩ :=
        congrArg (pass (clock n)) hn
      rcases le_or_gt 1 (limiter.refilled (clock n)) with hgrant | hshort
      · rw [acquire_of_le hgrant] at h
        cases h
        rw [pass_of_le hgrant] at hnext
        exact ⟨sleeps, loop_of_granted hnext rfl fuel⟩
      · rw [acquire_of_lt hshort] at h
        rw [pass_of_lt hmax hshort] at hnext
        -- the next reading of the clock is the time at which the sleep ends
        have hreading : clock (n + 1) =
            clock n + sleep ((1 - limiter.refilled (clock n)) / limiter.refillRate) := by
          apply hclock n
          · rw [hnext]
          · rw [hnext, List.getLast?_concat]
            rfl
        rw [← hreading] at h
        apply ih _ hnext h
        exact hmax

end RateLimiter

end SalesTrades.Freshsales
