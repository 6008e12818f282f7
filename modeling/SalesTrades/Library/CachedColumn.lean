import Mathlib.Order.Basic
import SalesTrades.Library.Table

/-!
# Columns that cache a value

A column that holds a value computed from other columns and from the time. It is current when it is
what the computation gives at some time not before the last change of the columns that it reads.
`stamp` keeps these times while the tables change. Where each row is rewritten by a known function, the
rules say which rows have to meet what for all of them to be current (`allCurrent_kept_iff` for writes
that leave the cached value alone, `allCurrent_recomputed` for writes that compute it again).
-/

set_option autoImplicit false

namespace SalesTrades.Library

universe u v w x y

variable {ρ : Type u} {κ : Type v} {key : ρ → Option κ} {t t' : Table key} {id : Nat} {r : ρ}

namespace Table

/-! ## Times of change -/

variable {β : Type w} [DecidableEq β] {τ : Type x} {view : ρ → β} {now changedAt : Nat → τ}

/-- When the part `view` of each row last changed, after a step that writes the row `id` at `now id`. -/
def stamp (view : ρ → β) (t t' : Table key) (now changedAt : Nat → τ) (id : Nat) : τ :=
  if (t.get? id).map (fun q => view q.2) = (t'.get? id).map (fun q => view q.2) then changedAt id
  else now id

theorem stamp_of_mem {r r' : ρ} (hr : (id, r) ∈ t.rows) (hr' : (id, r') ∈ t'.rows) :
    stamp view t t' now changedAt id = if view r = view r' then changedAt id else now id := by
  unfold stamp
  rw [get?_eq_some_iff.2 hr, get?_eq_some_iff.2 hr', Option.map_some, Option.map_some]
  simp only [Option.some.injEq]

/-- A row that is rewritten with the same view keeps its time. -/
theorem stamp_of_same (now changedAt : Nat → τ) {f : Nat × ρ → ρ} (h : Rewritten f t t')
    (hview : ∀ q ∈ t.rows, q.1 = id → view (f q) = view q.2) :
    stamp view t t' now changedAt id = changedAt id := by
  rw [stamp, if_pos]
  rw [rewritten_iff_get?.1 h id, Option.map_map]
  cases hget : t.get? id with
  | none => rfl
  | some q =>
      obtain ⟨hq, hid⟩ := mem_of_get? hget
      exact congrArg some (hview q hq hid).symm

/-- A new row has changed when it was written. -/
theorem stamp_insert [DecidableEq κ] (h : t.insert r = some (id, t')) :
    stamp view t t' now changedAt id = now id := by
  obtain ⟨rfl, -, -⟩ := insert_eq_some h
  have hnone : t.get? t.nextId = none := by
    rw [Option.eq_none_iff_forall_ne_some]
    intro q hq
    obtain ⟨hmem, hid⟩ := mem_of_get? hq
    have hlt := t.id_lt q hmem
    omega
  have hnew : t'.get? t.nextId = some (t.nextId, r) :=
    get?_eq_some_iff.2 ((mem_of_insert h).2 (Or.inr rfl))
  rw [stamp, hnone, hnew, if_neg]
  simp

/-- A step stamps with the times before it or with its own. -/
theorem stamp_le [LE τ] (now : Nat → τ) {c : τ} (hchanged : changedAt id ≤ c) (hnow : now id ≤ c) :
    stamp view t t' now changedAt id ≤ c := by
  unfold stamp
  split
  · exact hchanged
  · exact hnow

end Table

/-! ## Cached columns -/

/-- The cached value of a row, the part of the row that it is computed from, and the computation. -/
structure CachedColumn (ρ : Type u) (β : Type w) (τ : Type x) (ν : Type y) where
  cached : ρ → ν
  inputs : ρ → β
  compute : ρ → τ → ν
  compute_congr : ∀ {r r' : ρ}, inputs r = inputs r' → compute r = compute r'

namespace CachedColumn

open Table

variable {β : Type w} {τ : Type x} [LE τ] {ν : Type y}
  (column : CachedColumn ρ β τ ν) {now changedAt : Nat → τ} {f : Nat × ρ → ρ}

/-- The cached value is the one of a time not before `changed`. -/
def Current (r : ρ) (changed : τ) : Prop :=
  ∃ time, changed ≤ time ∧ column.cached r = column.compute r time

def AllCurrent (t : Table key) (changedAt : Nat → τ) : Prop :=
  ∀ q ∈ t.rows, column.Current q.2 (changedAt q.1)

variable {column}

/-- A row that keeps its value and all that the value is computed from stays as current as it was. -/
theorem current_kept {r r' : ρ} {changed : τ} (hcached : column.cached r' = column.cached r)
    (hinputs : column.inputs r' = column.inputs r) :
    column.Current r' changed ↔ column.Current r changed := by
  unfold Current
  rw [hcached, column.compute_congr hinputs]

variable [DecidableEq β]

/-- **Writes that leave the cached value alone.** All rows stay current exactly when each one keeps its
inputs too, or has by chance the value of a time from the write on. -/
theorem allCurrent_kept_iff (now : Nat → τ) (hcurrent : column.AllCurrent t changedAt) (hrows : Rewritten f t t')
    (hcached : ∀ q ∈ t.rows, column.cached (f q) = column.cached q.2) :
    column.AllCurrent t' (stamp column.inputs t t' now changedAt) ↔
      ∀ q ∈ t.rows, column.inputs (f q) = column.inputs q.2 ∨ column.Current (f q) (now q.1) := by
  have hstamp : ∀ q ∈ t.rows, stamp column.inputs t t' now changedAt q.1 =
      if column.inputs q.2 = column.inputs (f q) then changedAt q.1 else now q.1 :=
    fun q hq => stamp_of_mem hq (hrows.mem hq)
  constructor
  · intro h q hq
    have hafter := h _ (hrows.mem hq)
    dsimp only at hafter
    rw [hstamp q hq] at hafter
    by_cases hsame : column.inputs q.2 = column.inputs (f q)
    · exact Or.inl hsame.symm
    · rw [if_neg hsame] at hafter
      exact Or.inr hafter
  · intro h q' hq'
    obtain ⟨q, hq, rfl⟩ := (hrows q').1 hq'
    dsimp only
    rw [hstamp q hq]
    by_cases hsame : column.inputs q.2 = column.inputs (f q)
    · rw [if_pos hsame, current_kept (hcached q hq) hsame.symm]
      exact hcurrent q hq
    · rw [if_neg hsame]
      exact (h q hq).resolve_left (Ne.symm hsame)

/-- **Writes that compute the value again.** A row that is left as it was stays current, and so does
one whose value is that of a time from its stamps on. -/
theorem allCurrent_recomputed (hcurrent : column.AllCurrent t changedAt) (hrows : Rewritten f t t')
    (hwrites : ∀ q ∈ t.rows, f q = q.2 ∨ ∃ time, changedAt q.1 ≤ time ∧ now q.1 ≤ time ∧
      column.cached (f q) = column.compute (f q) time) :
    column.AllCurrent t' (stamp column.inputs t t' now changedAt) := by
  intro q' hq'
  obtain ⟨q, hq, rfl⟩ := (hrows q').1 hq'
  rcases hwrites q hq with hsame | ⟨time, hchanged, hnow, hvalue⟩
  · dsimp only
    rw [stamp_of_mem hq hq', hsame, if_pos rfl]
    exact hcurrent q hq
  · exact ⟨time, stamp_le now hchanged hnow, hvalue⟩

/-- A row that comes in with a computed value is current. -/
theorem allCurrent_insert [DecidableEq κ] {time : τ} (hcurrent : column.AllCurrent t changedAt)
    (h : t.insert r = some (id, t')) (hnow : now id ≤ time)
    (hvalue : column.cached r = column.compute r time) :
    column.AllCurrent t' (stamp column.inputs t t' now changedAt) := by
  intro q hq
  rcases (mem_of_insert h).1 hq with hold | rfl
  · rw [stamp_of_mem hold hq, if_pos rfl]
    exact hcurrent q hold
  · rw [stamp_insert h]
    exact ⟨time, hnow, hvalue⟩

end CachedColumn

end SalesTrades.Library
