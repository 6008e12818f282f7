import Mathlib.Algebra.BigOperators.Group.List.Basic
import Mathlib.Algebra.BigOperators.Group.List.Lemmas
import Mathlib.Algebra.GroupWithZero.Nat
import Mathlib.Data.List.Dedup

/-!
# Grouped queries

`GROUP BY` on a list of rows, with the aggregates `count(*)` and `sum`, both with a `FILTER`. The groups
partition the rows, so a column that adds up over the rows of each group adds up over all of them,
whatever the rows are grouped by (`sum_groups`, `sum_map_groups`). Counts and sums are such columns
(`countP_eq_sum`, `getD_sumFilter`).
-/

set_option autoImplicit false

namespace SalesTrades.Library.GroupBy

universe u v w

variable {α : Type u} {κ : Type v} [DecidableEq κ] {key : α → κ} {rows : List α}

/-- One group for each key that a row has: the key with its rows. -/
def groups (key : α → κ) (rows : List α) : List (κ × List α) :=
  (rows.map key).dedup.map fun k => (k, rows.filter fun r => key r = k)

theorem mem_groups {g : κ × List α} :
    g ∈ groups key rows ↔ (∃ r ∈ rows, key r = g.1) ∧ g.2 = rows.filter fun r => key r = g.1 := by
  simp only [groups, List.mem_map, List.mem_dedup]
  constructor
  · rintro ⟨k, hk, rfl⟩
    exact ⟨hk, rfl⟩
  · rintro ⟨hk, hrows⟩
    exact ⟨g.1, hk, Prod.ext rfl hrows.symm⟩

theorem keys_groups : (groups key rows).map Prod.fst = (rows.map key).dedup := by
  rw [groups, List.map_map]
  exact List.map_id _

theorem nodup_keys_groups : ((groups key rows).map Prod.fst).Nodup := by
  rw [keys_groups]
  exact List.nodup_dedup _

/-- Grouping rows that are computed from others. -/
theorem groups_map {β : Type*} (f : β → α) (rows : List β) :
    groups key (rows.map f) = (groups (fun b => key (f b)) rows).map fun g => (g.1, g.2.map f) := by
  rw [groups, groups, List.map_map, List.map_map]
  apply List.map_congr_left
  intro k _
  rw [Function.comp_apply, List.filter_map]
  rfl

section Sums

variable {M : Type w} [AddCommMonoid M]

/-- Rows added up key by key, for keys that include all of theirs. -/
theorem sum_over_keys (weight : α → M) {keys : List κ} (hnodup : keys.Nodup)
    (hall : ∀ r ∈ rows, key r ∈ keys) :
    (keys.map fun k => ((rows.filter fun r => key r = k).map weight).sum).sum =
      (rows.map weight).sum := by
  induction rows with
  | nil => simp
  | cons r rows ih =>
      obtain ⟨hr, hrows⟩ := List.forall_mem_cons.1 hall
      -- the row counts for its own key
      have hsplit : ∀ k, (((r :: rows).filter fun r => key r = k).map weight).sum =
          (if key r = k then weight r else 0) +
            ((rows.filter fun r => key r = k).map weight).sum := by
        intro k
        by_cases hk : key r = k
        · rw [List.filter_cons_of_pos (by simpa using hk), List.map_cons, List.sum_cons, if_pos hk]
        · rw [List.filter_cons_of_neg (by simpa using hk), if_neg hk, zero_add]
      have hown : (keys.map fun k => if key r = k then weight r else 0).sum = weight r := by
        rw [List.sum_map_eq_nsmul_single (key r) _ fun k hk _ => if_neg (Ne.symm hk),
          List.count_eq_one_of_mem hnodup hr, one_nsmul, if_pos rfl]
      simp only [hsplit, List.sum_map_add, hown, ih hrows, List.map_cons, List.sum_cons]

/-- **Partition rule.** -/
theorem sum_groups (weight : α → M) (rows : List α) :
    ((groups key rows).map fun g => (g.2.map weight).sum).sum = (rows.map weight).sum := by
  rw [groups, List.map_map]
  apply sum_over_keys weight (List.nodup_dedup _)
  intro r hr
  exact List.mem_dedup.2 (List.mem_map_of_mem hr)

/-- The partition rule for the groups of some keys. -/
theorem sum_filter_groups (keep : κ → Bool) (weight : α → M) (rows : List α) :
    (((groups key rows).filter fun g => keep g.1).map fun g => (g.2.map weight).sum).sum =
      ((rows.filter fun r => keep (key r)).map weight).sum := by
  have hkeys : (((rows.map key).dedup.filter keep).map fun k =>
      (((rows.filter fun r => keep (key r)).filter fun r => key r = k).map weight).sum).sum =
        ((rows.filter fun r => keep (key r)).map weight).sum := by
    apply sum_over_keys weight ((List.nodup_dedup (rows.map key)).filter keep)
    intro r hr
    obtain ⟨hmem, hkeep⟩ := List.mem_filter.1 hr
    exact List.mem_filter.2 ⟨List.mem_dedup.2 (List.mem_map_of_mem hmem), hkeep⟩
  rw [groups, List.filter_map, List.map_map, ← hkeys]
  apply congrArg List.sum
  apply List.map_congr_left
  intro k hk
  -- the rows of a key that is kept are all kept
  have hkeep : keep k = true := (List.mem_filter.1 hk).2
  rw [List.filter_filter, Function.comp_apply]
  congr 2
  apply List.filter_congr
  intro r _
  by_cases hr : key r = k
  · rw [hr, hkeep, Bool.and_true]
  · rw [decide_eq_false hr, Bool.false_and]

/-- The partition rule for a column of a report that adds up in each group. -/
theorem sum_map_groups (column : κ × List α → M) (weight : α → M)
    (hcolumn : ∀ g, column g = (g.2.map weight).sum) (rows : List α) :
    ((groups key rows).map column).sum = (rows.map weight).sum := by
  rw [funext hcolumn]
  exact sum_groups weight rows

/-- `sum(value) FILTER (WHERE p)`: null when no such row has a value. -/
def sumFilter (p : α → Bool) (value : α → Option M) (rows : List α) : Option M :=
  match (rows.filter p).filterMap value with
  | [] => none
  | x :: xs => some (x :: xs).sum

theorem getD_sumFilter_eq (p : α → Bool) (value : α → Option M) (rows : List α) :
    (sumFilter p value rows).getD 0 = ((rows.filter p).filterMap value).sum := by
  rw [sumFilter]
  cases (rows.filter p).filterMap value with
  | nil => rfl
  | cons x xs => rfl

/-- `coalesce(sum(value) FILTER (WHERE p), 0)` adds up over the rows. -/
theorem getD_sumFilter (p : α → Bool) (value : α → Option M) (rows : List α) :
    (sumFilter p value rows).getD 0 =
      (rows.map fun r => if p r then (value r).getD 0 else 0).sum := by
  rw [getD_sumFilter_eq]
  induction rows with
  | nil => rfl
  | cons r rows ih =>
      rw [List.map_cons, List.sum_cons, ← ih]
      by_cases hp : p r = true
      · rw [List.filter_cons_of_pos hp, if_pos hp]
        cases hvalue : value r with
        | none => rw [List.filterMap_cons_none hvalue, Option.getD_none, zero_add]
        | some v => rw [List.filterMap_cons_some hvalue, List.sum_cons, Option.getD_some]
      · rw [List.filter_cons_of_neg hp, if_neg hp, zero_add]

/-- The sum over the rows that a filter takes. -/
theorem sum_map_filter (p : α → Bool) (weight : α → M) (rows : List α) :
    ((rows.filter p).map weight).sum = (rows.map fun r => if p r then weight r else 0).sum := by
  have hsum := getD_sumFilter_eq p (fun r => some (weight r)) rows
  rw [getD_sumFilter, List.filterMap_eq_map'] at hsum
  exact hsum.symm

theorem sum_filterMap (value : α → Option M) (rows : List α) :
    (rows.filterMap value).sum = (rows.map fun r => (value r).getD 0).sum := by
  have hsum := getD_sumFilter_eq (fun _ => true) value rows
  rw [List.filter_true, getD_sumFilter] at hsum
  exact hsum.symm

end Sums

/-- `count(*) FILTER (WHERE p)` adds up over the rows. -/
theorem countP_eq_sum (p : α → Bool) (rows : List α) :
    rows.countP p = (rows.map fun r => if p r then 1 else 0).sum := by
  induction rows with
  | nil => rfl
  | cons r rows ih => rw [List.countP_cons, ih, List.map_cons, List.sum_cons, add_comm]

/-- Of two filters, one of them wider, the counts are the same when both take the same rows. -/
theorem countP_eq_iff {p q : α → Bool} (hwider : ∀ r ∈ rows, p r = true → q r = true) :
    rows.countP p = rows.countP q ↔ ∀ r ∈ rows, q r = true → p r = true := by
  constructor
  · intro hcount
    -- the rows that `q` takes beyond those of `p` are none
    have hboth : (rows.filter q).countP p = (rows.filter q).length := by
      rw [← List.countP_eq_length_filter, ← hcount, List.countP_filter]
      apply List.countP_congr
      intro r hr
      rw [Bool.and_eq_true]
      exact ⟨fun h => h.1, fun h => ⟨h, hwider r hr h⟩⟩
    intro r hr hq
    exact List.countP_eq_length.1 hboth r (List.mem_filter.2 ⟨hr, hq⟩)
  · intro h
    apply List.countP_congr
    exact fun r hr => ⟨hwider r hr, h r hr⟩

end SalesTrades.Library.GroupBy
