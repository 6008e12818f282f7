import Mathlib.Algebra.Order.Field.Rat
import Mathlib.Data.List.Pairwise
import Mathlib.Tactic.Linarith
import SalesTrades.Library.Interleaving

/-!
# A cache with a time to live

Requests look a key up in a cache that they share. Where its entry is too old, or missing, a request fetches
the value itself and stores it, under the time at which it came in. The lookup and the store are atomic, the
fetch between them is not. An answer is never older than the time to live (`Sound.answers`), but several
requests may fetch the same key at once: the fetches of a key start at least the time to live apart exactly
when no request comes in that finds a younger fetch of its key without its value in the cache
(`spaced_iff`).
-/

set_option autoImplicit false

namespace SalesTrades.Library.TtlCache

open SalesTrades.Library.Run SalesTrades.Library.Interleaving

universe u v w x

variable {ι : Type u} {κ : Type v} {ε : Type w} {α : Type x}

/-- The last reading of the clock, the cache, and the fetches so far with what those that went through have
brought. -/
structure World (κ : Type v) (α : Type x) where
  clock : ℚ
  cache : κ → Option (ℚ × α)
  fetches : List (κ × ℚ)
  values : List (κ × ℚ × α)

/-- An answer says when the request came in and when the value was asked for. -/
inductive Request (κ : Type v) (ε : Type w) (α : Type x) where
  | idle
  | fetching (key : κ) (start : ℚ)
  | answered (key : κ) (arrival start : ℚ) (value : α)
  | failed (key : κ) (error : ε)

inductive Input (κ : Type v) (ε : Type w) (α : Type x) where
  | arrive (key : κ) (now : ℚ)
  | finish (result : Except ε α)

/-- The value of an entry that is young enough. -/
def live (ttl now : ℚ) : Option (ℚ × α) → Option (ℚ × α)
  | some entry => if now - entry.1 < ttl then some entry else none
  | none => none

theorem live_eq_some_iff {ttl now : ℚ} {entry : Option (ℚ × α)} {found : ℚ × α} :
    live ttl now entry = some found ↔ entry = some found ∧ now - found.1 < ttl := by
  cases entry with
  | none => exact iff_of_false (fun h => Option.some_ne_none _ h.symm) fun h => Option.some_ne_none _ h.1.symm
  | some entry =>
      rw [live]
      by_cases hlive : now - entry.1 < ttl
      · rw [if_pos hlive]
        refine ⟨fun h => ⟨h, ?_⟩, And.left⟩
        rwa [← Option.some.inj h]
      · rw [if_neg hlive]
        refine iff_of_false (fun h => Option.some_ne_none _ h.symm) ?_
        rintro ⟨h, hyoung⟩
        rw [Option.some.inj h] at hlive
        exact hlive hyoung

variable [DecidableEq κ]

/-- A statement of a request. The clock never goes back. -/
def step (ttl : ℚ) (input : Input κ ε α) (w : World κ α) (request : Request κ ε α) :
    Option (World κ α × Request κ ε α) :=
  match request, input with
  | .idle, .arrive key now =>
      if now < w.clock then none
      else
        match live ttl now (w.cache key) with
        | some entry => some ({ w with clock := now }, .answered key now entry.1 entry.2)
        | none => some ({ w with clock := now, fetches := (key, now) :: w.fetches }, .fetching key now)
  | .fetching key start, .finish (.ok value) =>
      some ({ w with
        cache := Function.update w.cache key (some (start, value))
        values := (key, start, value) :: w.values }, .answered key start start value)
  | .fetching key _, .finish (.error e) => some (w, .failed key e)
  | _, _ => none

section Requests

variable [DecidableEq ι] {ttl : ℚ} {es : List (ι × Input κ ε α)} {e : ι × Input κ ε α}
  {c c' : Config ι (World κ α) (Request κ ε α)}

/-- Fetches do not start before the clock says so, and what is in the cache, or in an answer, has been
fetched. -/
structure Sound (ttl : ℚ) (c : Config ι (World κ α) (Request κ ε α)) : Prop where
  started : ∀ f ∈ c.shared.fetches, f.2 ≤ c.shared.clock
  cached : ∀ key start value, c.shared.cache key = some (start, value) →
    (key, start, value) ∈ c.shared.values
  fetched : ∀ v ∈ c.shared.values, (v.1, v.2.1) ∈ c.shared.fetches
  fetching : ∀ i key start, c.proc i = .fetching key start → (key, start) ∈ c.shared.fetches
  answers : ∀ i key arrival start value, c.proc i = .answered key arrival start value →
    (key, start, value) ∈ c.shared.values ∧ arrival - start < ttl

/-- Two fetches are of different keys, or start at least the time to live apart. -/
def Apart (ttl : ℚ) (f g : κ × ℚ) : Prop := f.1 = g.1 → ttl ≤ |f.2 - g.2|

omit [DecidableEq κ] in
theorem apart_symm : Std.Symm (Apart ttl : κ × ℚ → κ × ℚ → Prop) :=
  ⟨fun f g h hkey => by rw [abs_sub_comm]; exact h hkey.symm⟩

def Spaced (ttl : ℚ) (c : Config ι (World κ α) (Request κ ε α)) : Prop :=
  c.shared.fetches.Pairwise (Apart ttl)

/-- A request that comes in finds the value of every younger fetch of its key in the cache. -/
def FindsYounger (ttl : ℚ) (e : ι × Input κ ε α) (c : Config ι (World κ α) (Request κ ε α)) : Prop :=
  ∀ key now, e.2 = .arrive key now → ∀ start, (key, start) ∈ c.shared.fetches → now - start < ttl →
    ∃ value, c.shared.cache key = some (start, value)

/-- What a statement does. -/
theorem step_cases {input : Input κ ε α} {w w' : World κ α} {request request' : Request κ ε α}
    (h : step ttl input w request = some (w', request')) :
    (∃ key now entry, input = .arrive key now ∧ w.clock ≤ now ∧
      (w.cache key = some entry ∧ now - entry.1 < ttl) ∧ w' = { w with clock := now } ∧
      request' = .answered key now entry.1 entry.2) ∨
    (∃ key now, input = .arrive key now ∧ w.clock ≤ now ∧
      (∀ entry, w.cache key = some entry → ttl ≤ now - entry.1) ∧
      w' = { w with clock := now, fetches := (key, now) :: w.fetches } ∧ request' = .fetching key now) ∨
    (∃ key start value, request = .fetching key start ∧ input = .finish (.ok value) ∧
      w' = { w with
        cache := Function.update w.cache key (some (start, value))
        values := (key, start, value) :: w.values } ∧ request' = .answered key start start value) ∨
    ∃ key start error, request = .fetching key start ∧ input = .finish (.error error) ∧ w' = w ∧
      request' = .failed key error := by
  unfold step at h
  split at h
  · rename_i key now
    split at h
    · cases h
    · rename_i hclock
      split at h
      · rename_i entry hlive
        cases h
        exact Or.inl ⟨key, now, entry, rfl, not_lt.1 hclock, live_eq_some_iff.1 hlive, rfl, rfl⟩
      · rename_i hnone
        cases h
        refine Or.inr (Or.inl ⟨key, now, rfl, not_lt.1 hclock, fun entry hentry => ?_, rfl, rfl⟩)
        by_contra hyoung
        rw [live_eq_some_iff.2 ⟨hentry, not_le.1 hyoung⟩] at hnone
        cases hnone
  · rename_i key start value
    cases h
    exact Or.inr (Or.inr (Or.inl ⟨key, start, value, rfl, rfl, rfl, rfl⟩))
  · rename_i key start error
    cases h
    exact Or.inr (Or.inr (Or.inr ⟨key, start, error, rfl, rfl, rfl, rfl⟩))
  · cases h

omit [DecidableEq κ] in
/-- The requests after a step: the one that moved, and the others. -/
theorem proc_cases {request' : Request κ ε α} {i : ι} {r : Request κ ε α}
    (h : Function.update c.proc e.1 request' i = r) : (i = e.1 ∧ request' = r) ∨ c.proc i = r := by
  by_cases hi : i = e.1
  · subst hi
    rw [Function.update_self] at h
    exact Or.inl ⟨rfl, h⟩
  · rw [Function.update_of_ne hi] at h
    exact Or.inr h

/-- **Soundness** is kept. -/
theorem sound_fire (httl : 0 < ttl) (h : Sound ttl c) (hfire : fire (step ttl) e c = some c') :
    Sound ttl c' := by
  obtain ⟨w', request', hstep, rfl⟩ := fire_eq_some.1 hfire
  rcases step_cases hstep with ⟨key, now, entry, -, hclock, ⟨hentry, hyoung⟩, rfl, rfl⟩ |
    ⟨key, now, -, hclock, -, rfl, rfl⟩ | ⟨key, start, value, hrequest, -, rfl, rfl⟩ |
    ⟨key, start, error, hrequest, -, rfl, rfl⟩
  · refine ⟨fun f hf => (h.started f hf).trans hclock, h.cached, h.fetched, ?_, ?_⟩
    · intro i k start hi
      rcases proc_cases hi with ⟨-, heq⟩ | hi
      · cases heq
      · exact h.fetching i k start hi
    · intro i k arrival start value hi
      rcases proc_cases hi with ⟨-, heq⟩ | hi
      · cases heq
        exact ⟨h.cached key entry.1 entry.2 hentry, hyoung⟩
      · exact h.answers i k arrival start value hi
  · refine ⟨?_, h.cached, fun v hv => List.mem_cons_of_mem _ (h.fetched v hv), ?_, ?_⟩
    · intro f hf
      rcases List.mem_cons.1 hf with rfl | hf
      · exact le_rfl
      · exact (h.started f hf).trans hclock
    · intro i k start hi
      rcases proc_cases hi with ⟨-, heq⟩ | hi
      · cases heq
        exact List.mem_cons_self
      · exact List.mem_cons_of_mem _ (h.fetching i k start hi)
    · intro i k arrival start value hi
      rcases proc_cases hi with ⟨-, heq⟩ | hi
      · cases heq
      · exact h.answers i k arrival start value hi
  · refine ⟨h.started, ?_, ?_, ?_, ?_⟩
    · intro k start' value' hk
      by_cases hkey : k = key
      · subst hkey
        simp only [Function.update_self, Option.some.injEq, Prod.mk.injEq] at hk
        obtain ⟨rfl, rfl⟩ := hk
        exact List.mem_cons_self
      · simp only [Function.update_of_ne hkey] at hk
        exact List.mem_cons_of_mem _ (h.cached k start' value' hk)
    · intro v hv
      rcases List.mem_cons.1 hv with rfl | hv
      · exact h.fetching e.1 key start hrequest
      · exact h.fetched v hv
    · intro i k start' hi
      rcases proc_cases hi with ⟨-, heq⟩ | hi
      · cases heq
      · exact h.fetching i k start' hi
    · intro i k arrival start' value' hi
      rcases proc_cases hi with ⟨-, heq⟩ | hi
      · cases heq
        exact ⟨List.mem_cons_self, by rwa [sub_self]⟩
      · obtain ⟨hmem, hage⟩ := h.answers i k arrival start' value' hi
        exact ⟨List.mem_cons_of_mem _ hmem, hage⟩
  · refine ⟨h.started, h.cached, h.fetched, ?_, ?_⟩
    · intro i k start' hi
      rcases proc_cases hi with ⟨-, heq⟩ | hi
      · cases heq
      · exact h.fetching i k start' hi
    · intro i k arrival start' value hi
      rcases proc_cases hi with ⟨-, heq⟩ | hi
      · cases heq
      · exact h.answers i k arrival start' value hi

omit [DecidableEq κ] in
/-- Two young fetches of a key are the same one. -/
theorem start_eq_of_young {fetches : List (κ × ℚ)} (hspaced : fetches.Pairwise (Apart ttl)) {key : κ}
    {now start start' : ℚ} (hmem : (key, start) ∈ fetches) (hmem' : (key, start') ∈ fetches)
    (hstart : start ≤ now) (hstart' : start' ≤ now) (hyoung : now - start < ttl)
    (hyoung' : now - start' < ttl) : start = start' := by
  by_contra hne
  have hpair : (key, start) ≠ (key, start') := fun heq => hne (congrArg Prod.snd heq)
  have hsymm := @apart_symm κ ttl
  have hapart : Apart ttl (key, start) (key, start') := hspaced.forall hmem hmem' hpair
  have hclose : |start - start'| < ttl := by
    rw [abs_lt]
    constructor
    · linarith only [hyoung, hstart']
    · linarith only [hyoung', hstart]
  exact absurd hclose (not_lt.2 (hapart rfl))

/-- A step keeps the fetches apart exactly when a request that comes in finds younger values. -/
theorem spaced_fire_iff (hsound : Sound ttl c) (h : Spaced ttl c) (hfire : fire (step ttl) e c = some c') :
    Spaced ttl c' ↔ FindsYounger ttl e c := by
  obtain ⟨w', request', hstep, rfl⟩ := fire_eq_some.1 hfire
  rcases step_cases hstep with ⟨key, now, entry, hinput, hclock, ⟨hentry, hlive⟩, rfl, rfl⟩ |
    ⟨key, now, hinput, hclock, hold, rfl, rfl⟩ | ⟨key, start, value, -, hinput, rfl, rfl⟩ |
    ⟨key, start, error, -, hinput, rfl, rfl⟩
  · -- the entry is that of the only young fetch
    refine iff_of_true h ?_
    intro k now' harrive start hmem hyoung
    rw [hinput] at harrive
    cases harrive
    have hcached := hsound.fetched _ (hsound.cached key entry.1 entry.2 hentry)
    have hstart := (hsound.started _ hmem).trans hclock
    have hentryStart := (hsound.started _ hcached).trans hclock
    rw [start_eq_of_young h hmem hcached hstart hentryStart hyoung hlive]
    exact ⟨entry.2, hentry⟩
  · have hspaced : Spaced ttl (⟨{ c.shared with clock := now, fetches := (key, now) :: c.shared.fetches },
        Function.update c.proc e.1 (.fetching key now)⟩ : Config ι (World κ α) (Request κ ε α)) ↔
          ∀ start, (key, start) ∈ c.shared.fetches → ttl ≤ now - start := by
      rw [Spaced, List.pairwise_cons]
      refine (and_iff_left h).trans ?_
      constructor
      · intro hall start hmem
        have hapart := hall (key, start) hmem rfl
        have hstart := (hsound.started _ hmem).trans hclock
        rwa [abs_of_nonneg (sub_nonneg.2 hstart)] at hapart
      · intro hall f hf hkey
        have hstart := (hsound.started f hf).trans hclock
        rw [abs_of_nonneg (sub_nonneg.2 hstart)]
        dsimp only at hkey
        exact hall f.2 (hkey ▸ hf)
    rw [hspaced]
    constructor
    · intro hall k now' harrive start hmem hyoung
      rw [hinput] at harrive
      cases harrive
      exact absurd hyoung (not_lt.2 (hall start hmem))
    · intro hfinds start hmem
      by_contra hyoung
      obtain ⟨value, hvalue⟩ := hfinds key now hinput start hmem (not_le.1 hyoung)
      exact hyoung (hold _ hvalue)
  · refine iff_of_true h ?_
    intro k now harrive
    rw [hinput] at harrive
    cases harrive
  · refine iff_of_true h ?_
    intro k now harrive
    rw [hinput] at harrive
    cases harrive

/-- **Fetches.** In every run: the answers stay young, and the fetches of each key start at least the time to
live apart exactly when no request finds a younger fetch of its key whose value is not in the cache. -/
theorem spaced_iff (httl : 0 < ttl) (hsound : Sound ttl c) (hspaced : Spaced ttl c)
    (hrun : exec (fire (step ttl)) es c = some c') :
    Sound ttl c' ∧ (Always (fire (step ttl)) (Spaced ttl) es c ↔
      Guarded (fire (step ttl)) (FindsYounger ttl) es c) := by
  refine ⟨exec_invariant (fun e s t h hfire => sound_fire httl h hfire) hsound hrun, ?_⟩
  refine always_iff_guarded_of_exact (J := Sound ttl) (H := fun _ _ => True) ?_ ?_ hsound hspaced
    (guarded_of_forall (fun _ _ => trivial) c) hrun
  · exact fun e s t h _ hfire => sound_fire httl h hfire
  · exact fun e s t hs h _ hfire => spaced_fire_iff hs h hfire

end Requests

end SalesTrades.Library.TtlCache
