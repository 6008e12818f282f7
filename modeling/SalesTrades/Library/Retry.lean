import Mathlib.Data.Nat.Count
import Mathlib.Data.Finset.Card

/-!
# Retried calls

A call that is made again while it fails in a way that may be retried, up to a limit. The answers of the
attempts are a stream, of which the loop reads a prefix: attempt `j` is made exactly when the limit
allows it and every attempt before it has failed so (`le_lastMade_iff`). Every attempt that is made may
change the state of the other side, whatever its answer is (`retry_eq`).
-/

set_option autoImplicit false

namespace SalesTrades.Library.Retry

universe u v w

variable {ε : Type u} {α : Type v} {S : Type w} (retryable : ε → Bool)

/-- Up to `left` further attempts after the first one; the last error is raised again. -/
def retry : ℕ → (ℕ → Except ε α) → (ℕ → S → S) → S → Except ε α × S
  | 0, answer, effect, s => (answer 0, effect 0 s)
  | left + 1, answer, effect, s =>
      match answer 0 with
      | .ok a => (.ok a, effect 0 s)
      | .error e =>
          if retryable e then
            retry left (fun i => answer (i + 1)) (fun i => effect (i + 1)) (effect 0 s)
          else (.error e, effect 0 s)

/-- The attempt fails in a way that may be retried. -/
def Retryable (result : Except ε α) : Prop := ∃ e, result = .error e ∧ retryable e = true

instance : DecidablePred (Retryable (α := α) retryable)
  | .ok _ => isFalse (by rintro ⟨_, ⟨⟩, _⟩)
  | .error e => decidable_of_iff (retryable e = true)
      ⟨fun h => ⟨e, rfl, h⟩, by rintro ⟨_, ⟨⟩, h⟩; exact h⟩

/-- The last attempt that is made. -/
def lastMade : ℕ → (ℕ → Except ε α) → ℕ
  | 0, _ => 0
  | left + 1, answer =>
      if Retryable retryable (answer 0) then lastMade left (fun i => answer (i + 1)) + 1 else 0

/-- The attempts `0`, ..., `n - 1` have been made. -/
def afterAttempts (effect : ℕ → S → S) (n : ℕ) (s : S) : S :=
  (List.range n).foldl (fun s i => effect i s) s

theorem afterAttempts_succ (effect : ℕ → S → S) (n : ℕ) (s : S) :
    afterAttempts effect (n + 1) s = afterAttempts (fun i => effect (i + 1)) n (effect 0 s) := by
  rw [afterAttempts, List.range_succ_eq_map, List.foldl_cons, List.foldl_map]
  rfl

variable {retryable}

/-- The answer of the call is that of its last attempt, and every attempt that was made had its
effect. -/
theorem retry_eq (left : ℕ) (answer : ℕ → Except ε α) (effect : ℕ → S → S) (s : S) :
    retry retryable left answer effect s =
      (answer (lastMade retryable left answer),
        afterAttempts effect (lastMade retryable left answer + 1) s) := by
  induction left generalizing answer effect s with
  | zero => rfl
  | succ left ih =>
      rw [retry, lastMade]
      cases hanswer : answer 0 with
      | ok a =>
          have hstop : ¬ Retryable retryable (.ok a : Except ε α) := by rintro ⟨_, ⟨⟩, _⟩
          rw [if_neg hstop, hanswer]
          rfl
      | error e =>
          by_cases he : retryable e = true
          · have hagain : Retryable retryable (.error e : Except ε α) := ⟨e, rfl, he⟩
            rw [if_pos hagain, afterAttempts_succ]
            exact (if_pos he).trans (ih _ _ _)
          · have hstop : ¬ Retryable retryable (.error e : Except ε α) := by
              rintro ⟨_, ⟨⟩, h⟩
              exact he h
            rw [if_neg hstop, hanswer]
            exact if_neg he

/-- **Prefix rule.** -/
theorem le_lastMade_iff {left : ℕ} {answer : ℕ → Except ε α} {j : ℕ} :
    j ≤ lastMade retryable left answer ↔ j ≤ left ∧ ∀ i < j, Retryable retryable (answer i) := by
  induction left generalizing answer j with
  | zero =>
      rw [lastMade, Nat.le_zero]
      refine ⟨?_, And.left⟩
      rintro rfl
      exact ⟨rfl, fun i hi => absurd hi (Nat.not_lt_zero i)⟩
  | succ left ih =>
      rw [lastMade]
      cases j with
      | zero => simp
      | succ j =>
          split
          · rename_i hagain
            rw [Nat.add_le_add_iff_right, ih, Nat.add_le_add_iff_right]
            refine and_congr_right fun _ => ⟨fun h i hi => ?_, fun h i hi => h (i + 1) (by omega)⟩
            cases i with
            | zero => exact hagain
            | succ i => exact h i (by omega)
          · rename_i hstop
            simp only [Nat.le_zero, Nat.add_eq_zero_iff, one_ne_zero, and_false, false_iff, not_and]
            exact fun _ h => hstop (h 0 (by omega))

/-- Attempts that append an entry when they are carried out. -/
theorem afterAttempts_append {β : Type*} (carriedOut : ℕ → Bool) (entry : β) (n : ℕ) (entries : List β) :
    afterAttempts (fun i es => if carriedOut i then es ++ [entry] else es) n entries =
      entries ++ List.replicate (Nat.count (fun i => carriedOut i = true) n) entry := by
  induction n with
  | zero => simp [afterAttempts]
  | succ n ih =>
      rw [afterAttempts, List.range_succ, List.foldl_append, ← afterAttempts, ih, Nat.count_succ]
      simp only [List.foldl_cons, List.foldl_nil]
      split
      · rw [List.replicate_succ', List.append_assoc]
      · rfl

/-- At most one of the attempts is carried out. -/
theorem count_le_one_iff (p : ℕ → Prop) [DecidablePred p] (n : ℕ) :
    Nat.count p n ≤ 1 ↔ ∀ i j, i < j → j < n → ¬ (p i ∧ p j) := by
  rw [Nat.count_eq_card_filter_range, Finset.card_le_one]
  simp only [Finset.mem_filter, Finset.mem_range]
  constructor
  · rintro h i j hij hj ⟨hi', hj'⟩
    exact absurd (h i ⟨hij.trans hj, hi'⟩ j ⟨hj, hj'⟩) hij.ne
  · rintro h i ⟨hi, hi'⟩ j ⟨hj, hj'⟩
    by_contra hne
    rcases Nat.lt_or_gt_of_ne hne with hij | hji
    · exact h i j hij hj ⟨hi', hj'⟩
    · exact h j i hji hi ⟨hj', hi'⟩

end SalesTrades.Library.Retry
