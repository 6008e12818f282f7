import Mathlib.Logic.Function.Basic

/-!
# Locks of sessions

A lock server. A lock is free or belongs to one session, which may take it again and has then to give it
back as often. When a session ends, all its locks are free. A table of locks cannot give one lock to two
sessions (`Held.unique`), and a session that holds a lock once frees it when it gives it back
(`giveBack_once`).
-/

set_option autoImplicit false

namespace SalesTrades.Library.SessionLocks

universe u v

variable {κ : Type u} {σ : Type v} [DecidableEq κ] [DecidableEq σ]

/-- The holder of each lock, with the number of times it has taken the lock beyond the first. -/
abbrev Locks (κ : Type u) (σ : Type v) : Type (max u v) := κ → Option (σ × Nat)

variable {t : Locks κ σ} {k l : κ} {s r : σ} {n : Nat}

/-- The session holds the lock. -/
def Held (t : Locks κ σ) (k : κ) (s : σ) : Prop := ∃ n, t k = some (s, n)

omit [DecidableEq κ] [DecidableEq σ] in
/-- **Exclusion.** A lock has one holder. -/
theorem Held.unique (hs : Held t k s) (hr : Held t k r) : s = r := by
  obtain ⟨n, hn⟩ := hs
  obtain ⟨m, hm⟩ := hr
  exact congrArg Prod.fst (Option.some.inj (hn.symm.trans hm))

/-! ## Taking a lock -/

/-- The lock is taken where it is free or already the session's own; otherwise nothing happens. -/
def take (k : κ) (s : σ) (t : Locks κ σ) : Bool × Locks κ σ :=
  match t k with
  | none => (true, Function.update t k (some (s, 0)))
  | some (holder, n) =>
      if holder = s then (true, Function.update t k (some (s, n + 1))) else (false, t)

theorem take_free (h : t k = none) : take k s t = (true, Function.update t k (some (s, 0))) := by
  rw [take, h]

theorem take_other (h : t k = some (r, n)) (hne : r ≠ s) : take k s t = (false, t) := by
  simp only [take, h, if_neg hne]

/-! ## Giving a lock back -/

/-- The answer tells whether the session held the lock. -/
def giveBack (k : κ) (s : σ) (t : Locks κ σ) : Bool × Locks κ σ :=
  match t k with
  | none => (false, t)
  | some (holder, n) =>
      if holder = s then
        (true, Function.update t k (match n with | 0 => none | n + 1 => some (s, n)))
      else (false, t)

/-- A lock that was taken once is free. -/
theorem giveBack_once (h : t k = some (s, 0)) : giveBack k s t = (true, Function.update t k none) := by
  simp only [giveBack, h, if_true]

/-! ## The end of a session -/

/-- The locks of the session are free. -/
def endSession (s : σ) (t : Locks κ σ) : Locks κ σ := fun k =>
  match t k with
  | none => none
  | some (holder, n) => if holder = s then none else some (holder, n)

omit [DecidableEq κ] in
theorem endSession_eq_some_iff {lock : σ × Nat} :
    endSession s t k = some lock ↔ t k = some lock ∧ lock.1 ≠ s := by
  rw [endSession]
  cases t k with
  | none => simp
  | some held =>
      obtain ⟨holder, n⟩ := held
      dsimp only
      by_cases heq : holder = s
      · rw [if_pos heq]
        refine iff_of_false nofun ?_
        rintro ⟨hlock, hne⟩
        exact hne (Option.some.inj hlock ▸ heq)
      · rw [if_neg heq]
        constructor
        · rintro hlock
          exact ⟨hlock, Option.some.inj hlock ▸ heq⟩
        · exact fun h => h.1

end SalesTrades.Library.SessionLocks
