import Mathlib.Tactic.Abel
import SalesTrades.Library.GroupBy
import SalesTrades.Library.Keyed

/-!
# Sums over keyed lists

A list that is put into a dictionary loses the entries that a later one of their key replaces
(`sum_putAll`), and a sum over what the keys of another list find loses the entries without such a key
(`sum_find`). So where two lists are compared key by key, over the keys of the first, the differences add
up to the difference of the two sums, but for what has been lost (`sum_differences`).
-/

set_option autoImplicit false

namespace SalesTrades.Library.Keyed

universe u v w

variable {α : Type u} {κ : Type v} [DecidableEq κ] {key : α → κ} {M : Type w} {xs ys : List α}

section Monoid

variable [AddCommMonoid M]

theorem sum_lasting (weight : α → M) (xs : List α) :
    ((lasting key xs).map weight).sum + ((replaced key xs).map weight).sum = (xs.map weight).sum := by
  induction xs with
  | nil => simp [lasting, replaced]
  | cons x xs ih =>
      rw [lasting, replaced, List.map_cons, List.sum_cons, ← ih]
      split
      · rw [List.map_cons, List.sum_cons, add_left_comm]
      · rw [List.map_cons, List.sum_cons, add_assoc]

theorem sum_putAll (weight : α → M) (xs : List α) :
    ((putAll key xs []).map weight).sum + ((replaced key xs).map weight).sum =
      (xs.map weight).sum := by
  rw [(putAll_perm.map weight).sum_eq, sum_lasting]

/-- What a key finds. -/
def found (key : α → κ) (weight : α → M) (ys : List α) (k : κ) : M :=
  ((ys.find? fun y => decide (key y = k)).map weight).getD 0

/-- In a list whose keys are all different a key finds the only entry that has it. -/
theorem found_eq_sum (weight : α → M) (hnodup : (ys.map key).Nodup) (k : κ) :
    found key weight ys k = ((ys.filter fun y => decide (key y = k)).map weight).sum := by
  induction ys with
  | nil => rfl
  | cons y ys ih =>
      obtain ⟨hnot, hrest⟩ := List.nodup_cons.1 hnodup
      by_cases hk : key y = k
      · have hothers : (ys.filter fun y => decide (key y = k)) = [] := by
          apply List.filter_eq_nil_iff.2
          intro z hz hzk
          rw [hk, ← of_decide_eq_true hzk] at hnot
          exact hnot (List.mem_map_of_mem hz)
        rw [found, List.find?_cons_of_pos (by simpa using hk),
          List.filter_cons_of_pos (by simpa using hk), hothers]
        simp
      · rw [List.filter_cons_of_neg (by simpa using hk), ← ih hrest, found, found,
          List.find?_cons_of_neg (by simpa using hk)]

theorem sum_found (weight : α → M) (hxs : (xs.map key).Nodup) (hys : (ys.map key).Nodup) :
    (xs.map fun x => found key weight ys (key x)).sum =
      ((ys.filter fun y => decide (key y ∈ xs.map key)).map weight).sum := by
  have hall : ∀ y ∈ ys.filter fun y => decide (key y ∈ xs.map key), key y ∈ xs.map key := by
    intro y hy
    exact of_decide_eq_true (List.mem_filter.1 hy).2
  rw [← GroupBy.sum_over_keys weight hxs hall]
  rw [List.map_map]
  congr 1
  apply List.map_congr_left
  intro x hx
  rw [found_eq_sum weight hys, Function.comp_apply, List.filter_filter]
  congr 2
  apply List.filter_congr
  intro y _
  have hkey : key x ∈ xs.map key := List.mem_map_of_mem hx
  by_cases hy : key y = key x
  · simp [hy, hkey]
  · simp [hy]

theorem sum_filter_add (weight : α → M) (p : α → Bool) (ys : List α) :
    ((ys.filter p).map weight).sum + ((ys.filter fun y => !p y).map weight).sum =
      (ys.map weight).sum := by
  induction ys with
  | nil => simp
  | cons y ys ih =>
      rw [List.map_cons, List.sum_cons, ← ih]
      cases hp : p y with
      | true =>
          rw [List.filter_cons_of_pos hp, List.filter_cons_of_neg (by simp [hp]), List.map_cons,
            List.sum_cons, add_assoc]
      | false =>
          rw [List.filter_cons_of_neg (by simp [hp]), List.filter_cons_of_pos (by simp [hp]),
            List.map_cons, List.sum_cons, add_left_comm]

end Monoid

/-- The entries of `ys` that a comparison over the keys of `xs` leaves out: those that are replaced, and
those that no key finds. -/
def leftOut (key : α → κ) (xs ys : List α) : List α :=
  replaced key ys ++ (lasting key ys).filter fun y => !decide (key y ∈ xs.map key)

/-- **Comparison rule.** The differences over the keys of `xs`, with what the dictionaries have lost. -/
theorem sum_differences [AddCommGroup M] (weight : α → M) (xs ys : List α) :
    ((putAll key xs []).map fun x => weight x - found key weight (putAll key ys []) (key x)).sum =
      (xs.map weight).sum - (ys.map weight).sum -
        (((replaced key xs).map weight).sum - ((leftOut key xs ys).map weight).sum) := by
  have hkeys : ∀ zs : List α, ((putAll key zs []).map key).Nodup := fun zs =>
    nodup_putAll List.nodup_nil
  have hfound : ((putAll key xs []).map fun x => found key weight (putAll key ys []) (key x)).sum =
      (((lasting key ys).filter fun y => decide (key y ∈ xs.map key)).map weight).sum := by
    rw [sum_found weight (hkeys xs) (hkeys ys)]
    have hmem : ∀ y, key y ∈ (putAll key xs []).map key ↔ key y ∈ xs.map key := by
      intro y
      rw [(putAll_perm.map key).mem_iff, mem_keys_lasting]
    simp only [hmem]
    exact ((putAll_perm.filter _).map weight).sum_eq
  have hsplit : ((putAll key xs []).map fun x =>
        weight x - found key weight (putAll key ys []) (key x)).sum =
      ((putAll key xs []).map weight).sum -
        ((putAll key xs []).map fun x => found key weight (putAll key ys []) (key x)).sum := by
    rw [eq_sub_iff_add_eq, ← List.sum_map_add]
    simp only [sub_add_cancel]
  have hxs : ((putAll key xs []).map weight).sum + ((replaced key xs).map weight).sum =
      (xs.map weight).sum := sum_putAll weight xs
  have hys : ((lasting key ys).map weight).sum + ((replaced key ys).map weight).sum =
      (ys.map weight).sum := sum_lasting weight ys
  rw [hsplit, hfound, ← hxs, ← hys, leftOut, List.map_append, List.sum_append,
    ← sum_filter_add weight (fun y => decide (key y ∈ xs.map key)) (lasting key ys)]
  abel

end SalesTrades.Library.Keyed
