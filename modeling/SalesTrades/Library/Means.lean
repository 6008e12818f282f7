import Mathlib.Algebra.CharZero.Defs
import Mathlib.Algebra.Field.Basic
import Mathlib.Tactic.FieldSimp
import Mathlib.Tactic.Ring
import SalesTrades.Library.GroupBy

/-!
# Means of groups

The mean over all rows, recovered from the means of groups: each mean times a weight, over the sum of the
weights. With the number of measured rows as the weight this is the mean. Where the weight counts rows
without a measure too, such a row stands in with the mean of its group, and the result is the mean exactly
when the stand-ins have that mean themselves (`recombined_eq_mean_iff`).
-/

set_option autoImplicit false

namespace SalesTrades.Library.Means

open GroupBy

universe u v w

variable {α : Type u} {κ : Type v} {F : Type w} [DecidableEq κ]

/-! ## Weights -/

/-- The rows that count and have no measure. -/
def unmeasured (measure : α → Option F) (counted : α → Bool) (rows : List α) : List α :=
  rows.filter fun r => counted r && (measure r).isNone

/-- The sum of the weights. -/
def totalWeight (key : α → κ) (counted : α → Bool) (rows : List α) : ℕ :=
  ((groups key rows).map fun g => g.2.countP counted).sum

section Weights

variable {key : α → κ} {measure : α → Option F} {counted : α → Bool} {rows : List α}

theorem totalWeight_eq : totalWeight key counted rows = rows.countP counted := by
  rw [countP_eq_sum]
  exact sum_map_groups _ _ (fun g => countP_eq_sum counted g.2) rows

/-- Each row that counts has a measure or has none. -/
theorem countP_counted (hcounted : ∀ r ∈ rows, (measure r).isSome = true → counted r = true) :
    rows.countP counted =
      (rows.filterMap measure).length + (unmeasured measure counted rows).length := by
  rw [List.countP_eq_countP_filter_add _ _ fun r => (measure r).isSome, List.length_filterMap_eq_countP,
    unmeasured, ← List.countP_eq_length_filter, List.countP_filter, List.countP_filter]
  congr 1
  · apply List.countP_congr
    intro r hr
    rw [Bool.and_eq_true]
    exact ⟨fun h => h.2, fun h => ⟨hcounted r hr h, h⟩⟩
  · apply List.countP_congr
    intro r _
    rw [Option.not_isSome]

end Weights

/-! ## Means -/

variable [Field F]

/-- The mean of some numbers, none when there are none. -/
def mean (values : List F) : Option F :=
  if values.isEmpty then none else some (values.sum / values.length)

section Groups

variable (key : α → κ) (measure : α → Option F) (counted : α → Bool) (rows : List α)

/-- The mean over the rows of a key. -/
def groupMean (k : κ) : Option F := mean ((rows.filter fun r => key r = k).filterMap measure)

/-- The means of the groups times their weights. -/
def weightedSum : F := ((groups key rows).filterMap fun g =>
  (mean (g.2.filterMap measure)).map fun m => m * (g.2.countP counted : F)).sum

/-- The mean as recovered from the means of the groups. -/
def recombined : Option F :=
  if totalWeight key counted rows = 0 then none
  else some (weightedSum key measure counted rows / totalWeight key counted rows)

/-- What the rows without a measure stand in with. -/
def standIns : F := ((unmeasured measure counted rows).map fun r =>
  (groupMean key measure rows (key r)).getD 0).sum

/-- Where there is nothing to measure nothing counts, and the groups of the rows without a measure have
the mean of all rows on average. -/
structure Balanced : Prop where
  nothing : rows.filterMap measure = [] → unmeasured measure counted rows = []
  average : standIns key measure counted rows * (rows.filterMap measure).length =
    (rows.filterMap measure).sum * (unmeasured measure counted rows).length

end Groups

variable {key : α → κ} {measure : α → Option F} {counted : α → Bool} {rows : List α}

theorem mean_nil : mean ([] : List F) = none := rfl

theorem mean_of_ne_nil {values : List F} (h : values ≠ []) :
    mean values = some (values.sum / values.length) := by
  cases values with
  | nil => exact absurd rfl h
  | cons x xs => rfl

section CharZero

variable [CharZero F]

theorem length_ne_zero {values : List F} (h : values ≠ []) : (values.length : F) ≠ 0 :=
  Nat.cast_ne_zero.2 fun hzero => h (List.length_eq_zero_iff.1 hzero)

/-- A mean times the number of its values is their sum. -/
theorem getD_mean_mul (values : List F) : (mean values).getD 0 * values.length = values.sum := by
  by_cases h : values = []
  · rw [h, List.length_nil, Nat.cast_zero, mul_zero, List.sum_nil]
  · rw [mean_of_ne_nil h, Option.getD_some, div_mul_cancel₀ _ (length_ne_zero h)]

/-- A group adds its measures, and its mean for each row that counts without a measure. -/
theorem weighted_group {g : κ × List α} (hg : g ∈ groups key rows)
    (hcounted : ∀ r ∈ rows, (measure r).isSome = true → counted r = true) :
    ((mean (g.2.filterMap measure)).map fun m => m * (g.2.countP counted : F)).getD 0 =
      (g.2.map fun r => (measure r).getD 0 +
        if counted r && (measure r).isNone then (groupMean key measure rows (key r)).getD 0
        else 0).sum := by
  obtain ⟨-, hrows⟩ := mem_groups.1 hg
  have hmap : ((mean (g.2.filterMap measure)).map fun m => m * (g.2.countP counted : F)).getD 0 =
      (mean (g.2.filterMap measure)).getD 0 * (g.2.countP counted : F) := by
    cases mean (g.2.filterMap measure) with
    | none => rw [Option.map_none, Option.getD_none, zero_mul]
    | some m => rfl
  have hin : ∀ r ∈ g.2, r ∈ rows ∧ key r = g.1 := by
    intro r hr
    rw [hrows] at hr
    obtain ⟨hmem, hkey⟩ := List.mem_filter.1 hr
    exact ⟨hmem, of_decide_eq_true hkey⟩
  have hown : groupMean key measure rows g.1 = mean (g.2.filterMap measure) := by
    rw [groupMean, ← hrows]
  -- a row without a measure stands in with the mean of its group
  have hstand : (g.2.map fun r => if counted r && (measure r).isNone then
      (groupMean key measure rows (key r)).getD 0 else 0).sum =
        (mean (g.2.filterMap measure)).getD 0 * ((unmeasured measure counted g.2).length : F) := by
    have hsame : (g.2.map fun r => if counted r && (measure r).isNone then
        (groupMean key measure rows (key r)).getD 0 else 0) =
          g.2.map fun r => if counted r && (measure r).isNone then
            (mean (g.2.filterMap measure)).getD 0 else 0 := by
      apply List.map_congr_left
      intro r hr
      rw [(hin r hr).2, hown]
    rw [hsame, ← sum_map_filter, ← unmeasured, List.map_const', List.sum_replicate, nsmul_eq_mul,
      mul_comm]
  rw [hmap, countP_counted fun r hr => hcounted r (hin r hr).1, Nat.cast_add, mul_add, getD_mean_mul,
    List.sum_map_add, hstand, sum_filterMap]

/-- The measures of all rows, with the stand-ins. -/
theorem weightedSum_eq (hcounted : ∀ r ∈ rows, (measure r).isSome = true → counted r = true) :
    weightedSum key measure counted rows =
      (rows.filterMap measure).sum + standIns key measure counted rows := by
  rw [weightedSum, sum_filterMap, List.map_congr_left fun g hg => weighted_group hg hcounted,
    sum_groups, List.sum_map_add, sum_filterMap, standIns, unmeasured, sum_map_filter]

/-- **Recombination rule.** -/
theorem recombined_eq_mean_iff
    (hcounted : ∀ r ∈ rows, (measure r).isSome = true → counted r = true) :
    recombined key measure counted rows = mean (rows.filterMap measure) ↔
      Balanced key measure counted rows := by
  rw [recombined, weightedSum_eq hcounted, totalWeight_eq, countP_counted hcounted]
  by_cases hnil : rows.filterMap measure = []
  · rw [hnil, mean_nil, List.length_nil, Nat.zero_add]
    constructor
    · intro h
      split at h
      next hzero =>
        have hnone := List.length_eq_zero_iff.1 hzero
        refine ⟨fun _ => hnone, ?_⟩
        rw [hnil, hnone]
        simp
      next => cases h
    · intro h
      rw [h.nothing hnil, List.length_nil, if_pos rfl]
  · have hmeasured := length_ne_zero hnil
    have htotal : ((rows.filterMap measure).length : F) + (unmeasured measure counted rows).length ≠
        0 := by
      rw [← Nat.cast_add]
      apply Nat.cast_ne_zero.2
      have hpos := List.length_pos_iff.2 hnil
      omega
    rw [mean_of_ne_nil hnil, if_neg (by rw [← Nat.cast_add] at htotal; exact_mod_cast htotal),
      Option.some.injEq, Nat.cast_add, div_eq_div_iff htotal hmeasured]
    constructor
    · intro h
      refine ⟨fun hnone => absurd hnone hnil, ?_⟩
      rw [add_mul, mul_add] at h
      exact add_left_cancel h
    · intro h
      rw [add_mul, mul_add, h.average]

end CharZero

end SalesTrades.Library.Means
