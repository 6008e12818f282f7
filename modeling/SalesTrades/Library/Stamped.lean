import Mathlib.Order.Lattice
import Mathlib.Order.MinMax
import SalesTrades.Library.Keyed

/-!
# Rows with the time they came in

A keyed list whose rows have a column with a default, such as `DEFAULT now()`, that an upsert does not
set where the row is there already. A row has the time of the upsert that brought it in, whatever has
been written to it since. So the newest time is one of the last upserts exactly when one of them brought
in a row (`newest_putAll_iff`).
-/

set_option autoImplicit false

namespace SalesTrades.Library

universe u v w

/-- A value with a time. -/
structure Stamped (α : Type u) (τ : Type w) where
  value : α
  time : τ
  deriving DecidableEq

namespace Stamped

variable {α : Type u} {κ : Type v} {τ : Type w} [DecidableEq κ] {key : α → κ} {x y : Stamped α τ}
  {rows ys : List (Stamped α τ)}

/-- The keys of some rows. -/
def keys (key : α → κ) (rows : List (Stamped α τ)) : List κ := rows.map fun r => key r.value

/-- The upsert of `x`: on conflict the row keeps its time. -/
def put (key : α → κ) (x : Stamped α τ) (rows : List (Stamped α τ)) : List (Stamped α τ) :=
  if key x.value ∈ keys key rows then
    rows.map fun r => if key r.value = key x.value then ⟨x.value, r.time⟩ else r
  else rows ++ [x]

/-- The upserts of a list, one after another. -/
def putAll (key : α → κ) (ys rows : List (Stamped α τ)) : List (Stamped α τ) :=
  ys.foldl (fun rows y => put key y rows) rows

/-- Without the times, it is the upsert of a keyed list. -/
theorem values_put : (put key x rows).map value = Keyed.put key x.value (rows.map value) := by
  have hkeys : (rows.map value).map key = keys key rows := List.map_map
  rw [put, Keyed.put, hkeys]
  split
  · rw [List.map_map, List.map_map]
    apply List.map_congr_left
    intro r _
    simp only [Function.comp_apply]
    split <;> rfl
  · rw [List.map_append, List.map_singleton]

theorem values_putAll :
    (putAll key ys rows).map value = Keyed.putAll key (ys.map value) (rows.map value) := by
  induction ys generalizing rows with
  | nil => rfl
  | cons y ys ih =>
      have hstep : putAll key (y :: ys) rows = putAll key ys (put key y rows) := rfl
      rw [hstep, ih, values_put]
      rfl

omit [DecidableEq κ] in
theorem keys_eq (rows : List (Stamped α τ)) : keys key rows = (rows.map value).map key :=
  List.map_map.symm

theorem mem_keys_put {k : κ} : k ∈ keys key (put key x rows) ↔ k ∈ keys key rows ∨ k = key x.value := by
  rw [keys_eq, values_put, Keyed.mem_keys_put, keys_eq]

theorem mem_keys_putAll {k : κ} :
    k ∈ keys key (putAll key ys rows) ↔ k ∈ keys key rows ∨ k ∈ keys key ys := by
  induction ys generalizing rows with
  | nil => simp [putAll, keys]
  | cons y ys ih =>
      have hstep : putAll key (y :: ys) rows = putAll key ys (put key y rows) := rfl
      rw [hstep, ih, mem_keys_put, keys, keys, keys, List.map_cons, List.mem_cons, or_assoc]

/-- A row of the table afterwards has its time from a row with its key, or is the upserted one. -/
theorem time_of_mem_put (h : y ∈ put key x rows) :
    (∃ r ∈ rows, key r.value = key y.value ∧ r.time = y.time) ∨
      (key x.value ∉ keys key rows ∧ y = x) := by
  rw [put] at h
  split at h
  · obtain ⟨r, hr, rfl⟩ := List.mem_map.1 h
    left
    refine ⟨r, hr, ?_⟩
    split
    · exact ⟨‹_›, rfl⟩
    · exact ⟨rfl, rfl⟩
  · rename_i hnew
    rw [List.mem_append, List.mem_singleton] at h
    rcases h with hold | rfl
    · exact Or.inl ⟨y, hold, rfl, rfl⟩
    · exact Or.inr ⟨hnew, rfl⟩

theorem time_of_mem_putAll (h : y ∈ putAll key ys rows) :
    (∃ r ∈ rows, key r.value = key y.value ∧ r.time = y.time) ∨
      (key y.value ∉ keys key rows ∧ ∃ z ∈ ys, z.time = y.time) := by
  induction ys generalizing rows with
  | nil => exact Or.inl ⟨y, h, rfl, rfl⟩
  | cons z ys ih =>
      rcases ih h with ⟨r, hr, hkey, htime⟩ | ⟨hnew, z', hz', htime⟩
      · rcases time_of_mem_put hr with ⟨r', hr', hkey', htime'⟩ | ⟨hnew, rfl⟩
        · exact Or.inl ⟨r', hr', hkey'.trans hkey, htime'.trans htime⟩
        · rw [hkey] at hnew
          exact Or.inr ⟨hnew, r, List.mem_cons_self, htime⟩
      · right
        refine ⟨fun hold => hnew (mem_keys_put.2 (Or.inl hold)), z', ?_, htime⟩
        exact List.mem_cons_of_mem z hz'

section Newest

variable [LinearOrder τ] {start stop : τ}

/-- `max(time)`. -/
def newest (rows : List (Stamped α τ)) : Option τ := (rows.map time).max?

theorem newest_eq_some_iff {t : τ} :
    newest rows = some t ↔ (∃ r ∈ rows, r.time = t) ∧ ∀ r ∈ rows, r.time ≤ t := by
  rw [newest, List.max?_eq_some_iff, List.mem_map, List.forall_mem_map]

/-- The newest time is one from `start` on exactly when some row has such a time. -/
theorem exists_newest_iff :
    (∃ t, newest rows = some t ∧ start ≤ t) ↔ ∃ r ∈ rows, start ≤ r.time := by
  constructor
  · rintro ⟨t, ht, hle⟩
    obtain ⟨⟨r, hr, rfl⟩, -⟩ := newest_eq_some_iff.1 ht
    exact ⟨r, hr, hle⟩
  · rintro ⟨r, hr, hle⟩
    cases hnewest : newest rows with
    | none =>
        rw [newest, List.max?_eq_none_iff, List.map_eq_nil_iff] at hnewest
        rw [hnewest] at hr
        cases hr
    | some t => exact ⟨t, rfl, hle.trans ((newest_eq_some_iff.1 hnewest).2 r hr)⟩

/-- **Newest time.** Where all rows were older, the newest time after some upserts is one of theirs
exactly when one of them brought in a row. -/
theorem newest_putAll_iff (hold : ∀ r ∈ rows, r.time < start) (hys : ∀ y ∈ ys, start ≤ y.time) :
    (∃ t, newest (putAll key ys rows) = some t ∧ start ≤ t) ↔
      ∃ y ∈ ys, key y.value ∉ keys key rows := by
  rw [exists_newest_iff]
  constructor
  · rintro ⟨r, hr, hle⟩
    have hkey : key r.value ∈ keys key (putAll key ys rows) := List.mem_map_of_mem hr
    rcases time_of_mem_putAll hr with ⟨r', hr', -, htime⟩ | ⟨hnew, -⟩
    · exact absurd (htime ▸ hold r' hr') (not_lt.2 hle)
    · rcases mem_keys_putAll.1 hkey with hmem | hmem
      · exact absurd hmem hnew
      · obtain ⟨y, hy, hsame⟩ := List.mem_map.1 hmem
        exact ⟨y, hy, by rwa [hsame]⟩
  · rintro ⟨y, hy, hnew⟩
    have hkey : key y.value ∈ keys key (putAll key ys rows) :=
      mem_keys_putAll.2 (Or.inr (List.mem_map_of_mem hy))
    obtain ⟨r, hr, hsame⟩ := List.mem_map.1 hkey
    refine ⟨r, hr, ?_⟩
    rcases time_of_mem_putAll hr with ⟨r', hr', hsame', -⟩ | ⟨-, z, hz, htime⟩
    · -- the key was not there before
      rw [← hsame, ← hsame'] at hnew
      exact absurd (List.mem_map_of_mem hr') hnew
    · exact htime ▸ hys z hz

/-- All times are at most `stop` when they were, and those of the upserts are. -/
theorem time_putAll_le (hold : ∀ r ∈ rows, r.time ≤ stop) (hys : ∀ y ∈ ys, y.time ≤ stop) :
    ∀ r ∈ putAll key ys rows, r.time ≤ stop := by
  intro r hr
  rcases time_of_mem_putAll hr with ⟨r', hr', -, htime⟩ | ⟨-, z, hz, htime⟩
  · exact htime ▸ hold r' hr'
  · exact htime ▸ hys z hz

end Newest

end Stamped

end SalesTrades.Library
