import Mathlib.Data.List.Nodup
import Mathlib.Data.Set.Card
import Mathlib.Order.MinMax
import Mathlib.Tactic.Common

/-!
# Aggregates kept while a log grows

A counter, a latest value and a list of distinct values can be kept next to an append-only log and
updated entry by entry. Here is what such an update must do to agree with the aggregate of the whole
log (`max?_append_singleton`, `Distinct.append_old`, `Distinct.append_new`, `Counts.insert`).
-/

set_option autoImplicit false

namespace SalesTrades.Library

universe u

variable {α : Type u}

section Latest

variable [LinearOrder α]

/-- The latest value after one more: the old one unless it is earlier. -/
def later (current : Option α) (a : α) : Option α :=
  if current.all (fun c => decide (c < a)) = true then some a else current

theorem later_some (c a : α) : later (some c) a = some (max c a) := by
  unfold later
  by_cases h : c < a
  · simp [h, max_eq_right h.le]
  · simp [h, max_eq_left (not_lt.1 h)]

/-- The maximum of a log that grows by one entry. -/
theorem max?_append_singleton (xs : List α) (a : α) : (xs ++ [a]).max? = later xs.max? a := by
  cases xs with
  | nil => rfl
  | cons x xs =>
      rw [List.cons_append, List.max?_cons', List.max?_cons', later_some]
      simp [List.foldl_append]

/-- The maximum depends on the set of entries only. -/
theorem max?_eq_of_same_members {xs ys : List α} (h : ∀ a, a ∈ xs ↔ a ∈ ys) :
    xs.max? = ys.max? := by
  apply Option.ext
  intro a
  simp only [List.max?_eq_some_iff, h]

end Latest

/-- `xs` lists the values that satisfy `p`, each of them once. -/
structure Distinct (xs : List α) (p : α → Prop) : Prop where
  nodup : xs.Nodup
  mem_iff : ∀ a, a ∈ xs ↔ p a

namespace Distinct

variable {xs : List α} {p q : α → Prop}

/-- Nothing is listed when nothing satisfies the property. -/
theorem nil (h : ∀ a, ¬ p a) : Distinct [] p where
  nodup := List.nodup_nil
  mem_iff a := by simp [h a]

theorem congr (hd : Distinct xs p) (h : ∀ a, q a ↔ p a) : Distinct xs q where
  nodup := hd.nodup
  mem_iff a := (hd.mem_iff a).trans (h a).symm

/-- A value that is listed is not appended again. -/
theorem append_old (hd : Distinct xs p) {a : α} (ha : a ∈ xs) (hq : ∀ b, q b ↔ p b ∨ b = a) :
    Distinct xs q := by
  apply hd.congr
  intro b
  rw [hq b, or_iff_left_iff_imp]
  rintro rfl
  exact (hd.mem_iff b).1 ha

/-- A value that is not listed is appended. -/
theorem append_new (hd : Distinct xs p) {a : α} (ha : a ∉ xs) (hq : ∀ b, q b ↔ p b ∨ b = a) :
    Distinct (xs ++ [a]) q where
  nodup := by
    rw [List.nodup_append]
    refine ⟨hd.nodup, List.nodup_singleton a, ?_⟩
    intro b hb c hc
    rw [List.mem_singleton.1 hc]
    rintro rfl
    exact ha hb
  mem_iff b := by rw [List.mem_append, List.mem_singleton, hq b, hd.mem_iff b]

end Distinct

/-- The counter `n` is the number of values that satisfy `p`. -/
def Counts (n : Int) (p : α → Prop) : Prop :=
  ∃ counted : Finset α, (∀ a, a ∈ counted ↔ p a) ∧ n = counted.card

namespace Counts

variable {n : Int} {p q : α → Prop}

theorem zero (h : ∀ a, ¬ p a) : Counts 0 p :=
  ⟨∅, fun a => by simp [h a], rfl⟩

theorem congr (hc : Counts n p) (h : ∀ a, q a ↔ p a) : Counts n q := by
  obtain ⟨counted, hmem, hn⟩ := hc
  exact ⟨counted, fun a => (hmem a).trans (h a).symm, hn⟩

/-- The counter goes up with a value that was not counted. -/
theorem insert [DecidableEq α] (hc : Counts n p) {a : α} (ha : ¬ p a)
    (hq : ∀ b, q b ↔ p b ∨ b = a) : Counts (n + 1) q := by
  obtain ⟨counted, hmem, hn⟩ := hc
  refine ⟨Insert.insert a counted, ?_, ?_⟩
  · intro b
    rw [Finset.mem_insert, hmem, hq b, or_comm]
  · rw [Finset.card_insert_of_notMem (fun h => ha ((hmem a).1 h)), hn]
    push_cast
    rfl

theorem eq_ncard (hc : Counts n p) : n = {a | p a}.ncard := by
  obtain ⟨counted, hmem, hn⟩ := hc
  have hset : {a | p a} = (counted : Set α) := by
    ext a
    exact (hmem a).symm
  rw [hset, Set.ncard_coe_finset, hn]

end Counts

end SalesTrades.Library
