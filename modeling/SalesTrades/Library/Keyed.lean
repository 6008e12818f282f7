import Mathlib.Data.List.Nodup
import Mathlib.Tactic.Common

/-!
# Lists with a key

`put` is the upsert of a keyed list: an entry replaces the one that has its key, and is appended where
no entry has it. Keys that are all different stay so, and the other entries stay as they are
(`nodup_put`, `mem_put`). `putAll` puts the entries of a list one after another. Of entries with one key
the last one remains (`putAll_perm`).
-/

set_option autoImplicit false

namespace SalesTrades.Library.Keyed

universe u v

variable {α : Type u} {κ : Type v} [DecidableEq κ] {key : α → κ} {x y : α} {xs ys : List α} {k : κ}

/-- `x` in the place of the entry with its key, or at the end. -/
def put (key : α → κ) (x : α) (xs : List α) : List α :=
  if key x ∈ xs.map key then xs.map fun y => if key y = key x then x else y else xs ++ [x]

theorem mem_put : y ∈ put key x xs ↔ (y ∈ xs ∧ key y ≠ key x) ∨ y = x := by
  unfold put
  split
  · rename_i hmem
    obtain ⟨z, hz, hkey⟩ := List.mem_map.1 hmem
    rw [List.mem_map]
    constructor
    · rintro ⟨w, hw, rfl⟩
      split
      · exact Or.inr rfl
      · exact Or.inl ⟨hw, ‹_›⟩
    · rintro (⟨hy, hne⟩ | rfl)
      · exact ⟨y, hy, if_neg hne⟩
      · exact ⟨z, hz, if_pos hkey⟩
  · rename_i hmem
    rw [List.mem_append, List.mem_singleton]
    have hother : y ∈ xs → key y ≠ key x := by
      intro hy hkey
      rw [← hkey] at hmem
      exact hmem (List.mem_map_of_mem hy)
    rw [and_iff_left_of_imp hother]

/-- The keys are those that were there, and the one of the entry. -/
theorem keys_put : (put key x xs).map key =
    if key x ∈ xs.map key then xs.map key else xs.map key ++ [key x] := by
  unfold put
  split
  · rw [List.map_map]
    apply List.map_congr_left
    intro y _
    simp only [Function.comp_apply]
    split
    · exact Eq.symm ‹_›
    · rfl
  · simp

theorem mem_keys_put : k ∈ (put key x xs).map key ↔ k ∈ xs.map key ∨ k = key x := by
  rw [keys_put]
  split
  · rename_i hmem
    exact (or_iff_left_of_imp fun hk => hk ▸ hmem).symm
  · simp

theorem nodup_put (h : (xs.map key).Nodup) : ((put key x xs).map key).Nodup := by
  rw [keys_put]
  split
  · exact h
  · rename_i hmem
    rw [List.nodup_append]
    refine ⟨h, List.nodup_singleton _, fun a ha b hb => ?_⟩
    obtain rfl := List.mem_singleton.1 hb
    exact fun hab => hmem (hab ▸ ha)

/-- The keys of an upsert are an upsert of the key. -/
theorem map_key_put : (put key x xs).map key = put id (key x) (xs.map key) := by
  have hmem : id (key x) ∈ (xs.map key).map id ↔ key x ∈ xs.map key := by rw [List.map_id, id]
  by_cases hkey : key x ∈ xs.map key
  · rw [keys_put, if_pos hkey, put, if_pos (hmem.2 hkey)]
    symm
    apply List.map_id''
    intro k
    split
    · exact Eq.symm ‹_›
    · rfl
  · rw [keys_put, if_neg hkey, put, if_neg (mt hmem.1 hkey)]

/-- The entries of a list, put one after another. -/
def putAll (key : α → κ) (ys xs : List α) : List α := ys.foldl (fun xs y => put key y xs) xs

theorem nodup_putAll (h : (xs.map key).Nodup) : ((putAll key ys xs).map key).Nodup := by
  induction ys generalizing xs with
  | nil => exact h
  | cons y ys ih => exact ih (nodup_put h)

/-- Of entries with different keys all are there in the end, with those that have none of their keys. -/
theorem mem_putAll (hnodup : (ys.map key).Nodup) :
    y ∈ putAll key ys xs ↔ y ∈ ys ∨ (y ∈ xs ∧ key y ∉ ys.map key) := by
  induction ys generalizing xs with
  | nil => simp [putAll]
  | cons z ys ih =>
      obtain ⟨hnot, hrest⟩ := List.nodup_cons.1 hnodup
      have hstep : putAll key (z :: ys) xs = putAll key ys (put key z xs) := rfl
      rw [hstep, ih hrest, mem_put, List.mem_cons, List.map_cons, List.mem_cons, not_or]
      constructor
      · rintro (h | ⟨⟨hy, hne⟩ | rfl, hnotin⟩)
        · exact Or.inl (Or.inr h)
        · exact Or.inr ⟨hy, hne, hnotin⟩
        · exact Or.inl (Or.inl rfl)
      · rintro ((rfl | h) | ⟨hy, hne, hnotin⟩)
        · exact Or.inr ⟨Or.inr rfl, hnot⟩
        · exact Or.inl h
        · exact Or.inr ⟨Or.inl ⟨hy, hne⟩, hnotin⟩

/-! ## Entries of one key -/

/-- The entries whose key no later entry has. -/
def lasting (key : α → κ) : List α → List α
  | [] => []
  | x :: xs => if key x ∈ xs.map key then lasting key xs else x :: lasting key xs

/-- The entries whose key a later entry has. -/
def replaced (key : α → κ) : List α → List α
  | [] => []
  | x :: xs => if key x ∈ xs.map key then x :: replaced key xs else replaced key xs

theorem mem_of_mem_lasting (h : y ∈ lasting key xs) : y ∈ xs := by
  induction xs with
  | nil => cases h
  | cons x xs ih =>
      rw [lasting] at h
      split at h
      · exact List.mem_cons_of_mem x (ih h)
      · rcases List.mem_cons.1 h with rfl | h
        · exact List.mem_cons_self
        · exact List.mem_cons_of_mem x (ih h)

/-- Entries whose keys are all different stay. -/
theorem replaced_eq_nil (h : (xs.map key).Nodup) : replaced key xs = [] := by
  induction xs with
  | nil => rfl
  | cons x xs ih =>
      obtain ⟨hnot, hrest⟩ := List.nodup_cons.1 h
      rw [replaced, if_neg hnot]
      exact ih hrest

theorem mem_keys_lasting : k ∈ (lasting key xs).map key ↔ k ∈ xs.map key := by
  induction xs with
  | nil => exact Iff.rfl
  | cons x xs ih =>
      rw [lasting, List.map_cons, List.mem_cons]
      split
      · rename_i hlater
        rw [ih]
        exact (or_iff_right_of_imp fun hk => hk ▸ hlater).symm
      · rw [List.map_cons, List.mem_cons, ih]

theorem nodup_lasting : ((lasting key xs).map key).Nodup := by
  induction xs with
  | nil => exact List.nodup_nil
  | cons x xs ih =>
      rw [lasting]
      split
      · exact ih
      · rename_i hlast
        rw [List.map_cons, List.nodup_cons, mem_keys_lasting]
        exact ⟨hlast, ih⟩

/-- What is there in the end: the last entry of each key, and what had none of the keys. -/
theorem mem_putAll_iff : y ∈ putAll key ys xs ↔ y ∈ lasting key ys ∨ (y ∈ xs ∧ key y ∉ ys.map key) := by
  induction ys generalizing xs with
  | nil => simp [putAll, lasting]
  | cons z ys ih =>
      have hstep : putAll key (z :: ys) xs = putAll key ys (put key z xs) := rfl
      rw [hstep, ih, mem_put, lasting, List.map_cons, List.mem_cons, not_or]
      split
      · rename_i hlater
        constructor
        · rintro (h | ⟨⟨hy, hne⟩ | rfl, hnot⟩)
          · exact Or.inl h
          · exact Or.inr ⟨hy, hne, hnot⟩
          · exact absurd hlater hnot
        · rintro (h | ⟨hy, hne, hnot⟩)
          · exact Or.inl h
          · exact Or.inr ⟨Or.inl ⟨hy, hne⟩, hnot⟩
      · rename_i hlast
        rw [List.mem_cons]
        constructor
        · rintro (h | ⟨⟨hy, hne⟩ | rfl, hnot⟩)
          · exact Or.inl (Or.inr h)
          · exact Or.inr ⟨hy, hne, hnot⟩
          · exact Or.inl (Or.inl rfl)
        · rintro ((rfl | h) | ⟨hy, hne, hnot⟩)
          · exact Or.inr ⟨Or.inr rfl, hlast⟩
          · exact Or.inl h
          · exact Or.inr ⟨Or.inl ⟨hy, hne⟩, hnot⟩

/-- The entries that are put into an empty list are in the end the last ones of their keys. -/
theorem putAll_perm : (putAll key xs []).Perm (lasting key xs) := by
  have hput : (putAll key xs []).Nodup := List.Nodup.of_map key (nodup_putAll List.nodup_nil)
  have hlasting : (lasting key xs).Nodup := List.Nodup.of_map key nodup_lasting
  rw [List.perm_ext_iff_of_nodup hput hlasting]
  intro y
  rw [mem_putAll_iff]
  simp

end SalesTrades.Library.Keyed
