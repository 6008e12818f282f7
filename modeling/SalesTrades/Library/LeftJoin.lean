import Mathlib.Data.List.Nodup
import Mathlib.Tactic.Common

/-!
# Left joins on a key

`LEFT JOIN right ON fk = pk`: every row with the entries of the right table that its reference names, or
with nothing. A null reference names nothing. Where `pk` is a key of the right table, the join gives
every row once (`leftJoin_eq_map`).
-/

set_option autoImplicit false

namespace SalesTrades.Library.LeftJoin

universe u v w

variable {α : Type u} {β : Type v} {κ : Type w} [DecidableEq κ] {fk : α → Option κ} {pk : β → κ}
  {rows : List α} {right : List β}

def leftJoin (fk : α → Option κ) (pk : β → κ) (rows : List α) (right : List β) :
    List (α × Option β) :=
  rows.flatMap fun a =>
    match right.filter fun b => fk a = some (pk b) with
    | [] => [(a, none)]
    | matched => matched.map fun b => (a, some b)

/-- The entry that a reference names. -/
def lookup (pk : β → κ) (right : List β) (k : Option κ) : Option β :=
  right.find? fun b => k = some (pk b)

/-- A null names nothing. -/
theorem lookup_none : lookup pk right none = none := by
  apply List.find?_eq_none.2
  intro b _ hsome
  cases of_decide_eq_true hsome

/-- A key names one entry at most. -/
theorem filter_eq_toList_lookup (hnodup : (right.map pk).Nodup) (k : Option κ) :
    (right.filter fun b => k = some (pk b)) = (lookup pk right k).toList := by
  induction right with
  | nil => rfl
  | cons b right ih =>
      obtain ⟨hnot, hrest⟩ := List.nodup_cons.1 hnodup
      by_cases hk : k = some (pk b)
      · subst hk
        -- the others have other keys
        have hothers : (right.filter fun b' => some (pk b) = some (pk b')) = [] := by
          apply List.filter_eq_nil_iff.2
          intro b' hb' hsame
          rw [Option.some.inj (of_decide_eq_true hsame)] at hnot
          exact hnot (List.mem_map_of_mem hb')
        rw [List.filter_cons, if_pos (decide_eq_true rfl), hothers, lookup, List.find?_cons,
          decide_eq_true rfl, Option.toList_some]
      · have hother : decide (k = some (pk b)) = false := decide_eq_false hk
        rw [List.filter_cons, hother, if_neg Bool.false_ne_true, ih hrest, lookup, lookup,
          List.find?_cons, hother]

/-- **Join rule.** -/
theorem leftJoin_eq_map (hnodup : (right.map pk).Nodup) :
    leftJoin fk pk rows right = rows.map fun a => (a, lookup pk right (fk a)) := by
  rw [leftJoin, List.map_eq_flatMap]
  congr 1
  funext a
  rw [filter_eq_toList_lookup hnodup]
  cases lookup pk right (fk a) with
  | none => rfl
  | some b => rfl

end SalesTrades.Library.LeftJoin
