import SalesTrades.Library.PartialRecord

/-!
# Replaying a log of upserts

A store keeps a partial record under each key. A log of upserts is played over it in order, each laying
its data over the row of its key. What a column holds afterwards is the last value the log writes to it
(`held_replay`), so a log that has been played in part may be played again from its start, over whatever
the part has left: the store ends as if the log had been played once (`replay_absorbs`).
-/

set_option autoImplicit false

namespace SalesTrades.Library

universe u v w

variable {K : Type w} {C : Type u} {V : C → Type v}

/-- The rows by key. -/
abbrev Store (K : Type w) (V : C → Type v) : Type (max u v w) := K → Option (PartialRecord V)

/-- Data for the row of a key. -/
abbrev Upsert (K : Type w) (V : C → Type v) : Type (max u v w) := K × PartialRecord V

namespace Replay

/-- The value of a column of a row. -/
def held (rows : Store K V) (k : K) (c : C) : Option (V c) := (rows k).bind fun row => row c

/-- Stores with the same keys and the same values are equal. -/
theorem store_ext {rows rows' : Store K V} (hkeys : ∀ k, (rows k).isSome = (rows' k).isSome)
    (hheld : ∀ k c, held rows k c = held rows' k c) : rows = rows' := by
  funext k
  have hkey := hkeys k
  have hvalues := hheld k
  unfold held at hvalues
  cases hrow : rows k with
  | none =>
      rw [hrow, Option.isSome_none] at hkey
      exact (Option.not_isSome_iff_eq_none.1 (by simp [← hkey])).symm
  | some row =>
      rw [hrow, Option.isSome_some] at hkey
      obtain ⟨row', hrow'⟩ := Option.isSome_iff_exists.1 hkey.symm
      rw [hrow', Option.some.injEq]
      funext c
      have hc := hvalues c
      rw [hrow, hrow', Option.bind_some, Option.bind_some] at hc
      exact hc

section Replaying

variable [DecidableEq K]

/-- One upsert. -/
def put (rows : Store K V) (op : Upsert K V) : Store K V :=
  Function.update rows op.1
    (some (PartialRecord.overlay op.2 ((rows op.1).getD PartialRecord.empty)))

/-- The upserts of the log, in order. -/
def replay (log : List (Upsert K V)) (rows : Store K V) : Store K V := log.foldl put rows

/-- The last value that the log writes to a column. -/
def lastWritten : List (Upsert K V) → K → (c : C) → Option (V c)
  | [], _, _ => none
  | op :: rest, k, c => (lastWritten rest k c).or (if op.1 = k then op.2 c else none)

variable {log log' : List (Upsert K V)} {rows : Store K V} {k : K} {c : C}

theorem replay_append : replay (log ++ log') rows = replay log' (replay log rows) := by
  exact List.foldl_append ..

theorem isSome_put (op : Upsert K V) :
    (put rows op k).isSome = (decide (op.1 = k) || (rows k).isSome) := by
  unfold put
  by_cases hk : op.1 = k
  · subst hk
    rw [Function.update_self]
    simp
  · rw [Function.update_of_ne (Ne.symm hk)]
    simp [hk]

theorem held_put (op : Upsert K V) :
    held (put rows op) k c = (if op.1 = k then op.2 c else none).or (held rows k c) := by
  unfold held put
  by_cases hk : op.1 = k
  · subst hk
    rw [Function.update_self, if_pos rfl, Option.bind_some]
    cases rows op.1 <;> rfl
  · rw [Function.update_of_ne (Ne.symm hk), if_neg hk, Option.none_or]

/-- A row is there when it was or the log is about it. -/
theorem isSome_replay :
    (replay log rows k).isSome = true ↔ (∃ op ∈ log, op.1 = k) ∨ (rows k).isSome = true := by
  induction log generalizing rows with
  | nil => simp [replay]
  | cons op log ih =>
      have hrest : (replay (op :: log) rows k).isSome = (replay log (put rows op) k).isSome := rfl
      rw [hrest, ih, isSome_put, Bool.or_eq_true, decide_eq_true_eq, ← or_assoc]
      apply or_congr_left
      simp only [List.mem_cons, exists_eq_or_imp, or_comm]

/-- A column holds the last value that was written to it. -/
theorem held_replay : held (replay log rows) k c = (lastWritten log k c).or (held rows k c) := by
  induction log generalizing rows with
  | nil => rfl
  | cons op log ih =>
      have hrest : held (replay (op :: log) rows) k c = held (replay log (put rows op)) k c := rfl
      rw [hrest, ih, held_put, lastWritten, Option.or_assoc]

/-- A log writes a value to every column that one of its upserts has one for. -/
theorem lastWritten_eq_none_iff :
    lastWritten log k c = none ↔ ∀ op ∈ log, op.1 = k → op.2 c = none := by
  induction log with
  | nil => simp [lastWritten]
  | cons op log ih =>
      rw [lastWritten, Option.or_eq_none_iff, ih, List.forall_mem_cons]
      by_cases hk : op.1 = k
      · simp [hk, and_comm]
      · simp [hk]

/-- **Playing a log again.** Upserts that are all in the log leave nothing that playing the log does
not write over. -/
theorem replay_absorbs (hpart : ∀ op ∈ log', op ∈ log) :
    replay log (replay log' rows) = replay log rows := by
  apply store_ext
  · intro k
    rw [Bool.eq_iff_iff, isSome_replay, isSome_replay, isSome_replay, ← or_assoc]
    apply or_congr_left
    apply or_iff_left_of_imp
    rintro ⟨op, hop, hkey⟩
    exact ⟨op, hpart op hop, hkey⟩
  · intro k c
    rw [held_replay, held_replay, held_replay]
    cases hlast : lastWritten log k c with
    | some v => rfl
    | none =>
        -- a column the whole log is silent about, a part of it is silent about too
        have hsilent : lastWritten log' k c = none := by
          apply lastWritten_eq_none_iff.2
          intro op hop
          exact lastWritten_eq_none_iff.1 hlast op (hpart op hop)
        rw [hsilent, Option.none_or]

end Replaying

end Replay

end SalesTrades.Library
