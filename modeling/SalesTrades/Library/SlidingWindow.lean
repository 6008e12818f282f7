import Mathlib.Algebra.Order.Group.Defs
import Mathlib.Data.Finset.Max
import Mathlib.Order.Interval.Finset.Nat
import Mathlib.Tactic.Ring

/-!
# Counts in a sliding window

How many of the first `n` times of a sequence lie in a half-open window. For times in order, no window of
length `len` has more than `cap` of them exactly when any two that are `cap` apart are `len` apart
(`atMost_iff_spaced`).
-/

set_option autoImplicit false

namespace SalesTrades.Library.SlidingWindow

variable {α : Type*} [AddCommGroup α] [LinearOrder α]

/-- The first `n` times do not go back. -/
def InOrder (times : ℕ → α) (n : ℕ) : Prop :=
  ∀ i j, i ≤ j → j < n → times i ≤ times j

/-- The indices below `n` whose times lie in `[start, start + len)`. -/
def inWindow (times : ℕ → α) (n : ℕ) (len start : α) : Finset ℕ :=
  (Finset.range n).filter fun i => start ≤ times i ∧ times i < start + len

/-- No window of length `len` has more than `cap` of the first `n` times. -/
def AtMost (times : ℕ → α) (n : ℕ) (len : α) (cap : ℕ) : Prop :=
  ∀ start, (inWindow times n len start).card ≤ cap

/-- Any two of the first `n` times that are `cap` apart are `len` apart. -/
def Spaced (times : ℕ → α) (n : ℕ) (len : α) (cap : ℕ) : Prop :=
  ∀ k, k + cap < n → times k + len ≤ times (k + cap)

variable {times : ℕ → α} {n cap : ℕ} {len : α}

theorem Spaced.mono {m : ℕ} (h : Spaced times n len cap) (hm : m ≤ n) : Spaced times m len cap :=
  fun k hk => h k (Nat.lt_of_lt_of_le hk hm)

variable [IsOrderedAddMonoid α]

/-- Times that are a multiple of `cap` apart. -/
theorem Spaced.mul (h : Spaced times n len cap) (k q : ℕ) (hk : k + q * cap < n) :
    times k + q • len ≤ times (k + q * cap) := by
  induction q with
  | zero => simp
  | succ q ih =>
      have hstep : k + (q + 1) * cap = k + q * cap + cap := by ring
      rw [hstep] at hk ⊢
      calc times k + (q + 1) • len = times k + q • len + len := by rw [succ_nsmul, add_assoc]
        _ ≤ times (k + q * cap) + len := by
          have hq := ih (by omega)
          gcongr
        _ ≤ times (k + q * cap + cap) := h _ hk

/-- **Window rule.** -/
theorem atMost_iff_spaced (horder : InOrder times n) :
    AtMost times n len cap ↔ Spaced times n len cap := by
  constructor
  · intro h k hk
    by_contra hclose
    rw [not_le] at hclose
    -- the window that starts with the first of them holds `cap + 1`
    have hsub : Finset.Icc k (k + cap) ⊆ inWindow times n len (times k) := by
      intro i hi
      obtain ⟨hki, hik⟩ := Finset.mem_Icc.1 hi
      rw [inWindow, Finset.mem_filter, Finset.mem_range]
      exact ⟨by omega, horder k i hki (by omega), (horder i _ hik hk).trans_lt hclose⟩
    have hcard := (Finset.card_le_card hsub).trans (h (times k))
    rw [Nat.card_Icc] at hcard
    omega
  · intro h start
    by_contra hmany
    rw [not_le] at hmany
    have hne : (inWindow times n len start).Nonempty := Finset.card_pos.1 (by omega)
    -- between the first and the last index of the window there are at least `cap`
    let first := (inWindow times n len start).min' hne
    let last := (inWindow times n len start).max' hne
    have hfirst := Finset.mem_filter.1 ((inWindow times n len start).min'_mem hne)
    have hlast := Finset.mem_filter.1 ((inWindow times n len start).max'_mem hne)
    have hsub : inWindow times n len start ⊆ Finset.Icc first last := by
      intro i hi
      exact Finset.mem_Icc.2 ⟨Finset.min'_le _ i hi, Finset.le_max' _ i hi⟩
    have hcard := Finset.card_le_card hsub
    rw [Nat.card_Icc] at hcard
    have hfar : first + cap ≤ last := by omega
    have hrange : last < n := Finset.mem_range.1 hlast.1
    have hspaced := h first (by omega)
    have hend : times (first + cap) < times first + len :=
      calc times (first + cap) ≤ times last := horder _ _ hfar hrange
        _ < start + len := hlast.2.2
        _ ≤ times first + len := by
          have := hfirst.2.1
          gcongr
    exact absurd hspaced (not_le.2 hend)

end SalesTrades.Library.SlidingWindow
