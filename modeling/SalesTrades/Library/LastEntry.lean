import SalesTrades.Library.Keyed
import Mathlib.Data.List.Basic

/-!
# The last entry of a key

Entries that are put one after another leave the last entry of each key, `lastWith`. When the lists of a
family are put one after another and one of them alone has the key, the last entry is that of this list
(`lastWith_flatMap`). Entries whose last ones are there change nothing (`putAll_absorbed`).
-/

set_option autoImplicit false

namespace SalesTrades.Library.Keyed

universe u v w

variable {α : Type u} {κ : Type v} {γ : Type w} [DecidableEq κ] {key : α → κ} {x y : α}
  {xs ys : List α} {k : κ}

/-- The last entry with the key `k`. -/
def lastWith (key : α → κ) (k : κ) (xs : List α) : Option α :=
  xs.reverse.find? fun x => key x = k

@[simp]
theorem lastWith_nil : lastWith key k [] = none :=
  rfl

theorem lastWith_append : lastWith key k (xs ++ ys) = (lastWith key k ys).or (lastWith key k xs) := by
  rw [lastWith, List.reverse_append, List.find?_append]
  rfl

theorem lastWith_cons :
    lastWith key k (x :: xs) = (lastWith key k xs).or (if key x = k then some x else none) := by
  rw [← List.singleton_append, lastWith_append]
  congr 1
  rw [lastWith, List.reverse_singleton, List.find?_singleton]
  simp only [decide_eq_true_eq]

theorem lastWith_eq_none_iff : lastWith key k xs = none ↔ k ∉ xs.map key := by
  rw [lastWith, List.find?_eq_none]
  simp

theorem lastWith_spec (h : lastWith key k xs = some x) : x ∈ xs ∧ key x = k := by
  obtain ⟨hmem, hkey⟩ := And.intro (List.mem_of_find?_eq_some h) (List.find?_some h)
  exact ⟨List.mem_reverse.1 hmem, of_decide_eq_true hkey⟩

theorem exists_lastWith (hx : x ∈ xs) :
    ∃ y ∈ xs, key y = key x ∧ lastWith key (key x) xs = some y := by
  cases hlast : lastWith key (key x) xs with
  | none => exact absurd (List.mem_map_of_mem hx) (lastWith_eq_none_iff.1 hlast)
  | some y =>
      obtain ⟨hy, hkey⟩ := lastWith_spec hlast
      exact ⟨y, hy, hkey, rfl⟩

theorem mem_lasting_iff : x ∈ lasting key xs ↔ lastWith key (key x) xs = some x := by
  induction xs with
  | nil => simp [lasting]
  | cons y ys ih =>
      rw [lasting, lastWith_cons]
      split
      · rename_i hlater
        rw [ih]
        cases hlast : lastWith key (key x) ys with
        | some z => rw [Option.some_or]
        | none =>
            have hne : key y ≠ key x := by
              intro heq
              rw [heq] at hlater
              exact lastWith_eq_none_iff.1 hlast hlater
            simp [hne]
      · rename_i hlast
        rw [List.mem_cons, ih]
        by_cases hkey : key y = key x
        · rw [← hkey, lastWith_eq_none_iff.2 hlast, Option.none_or, if_pos rfl]
          simp [eq_comm]
        · rw [if_neg hkey, Option.or_none, or_iff_right]
          rintro rfl
          exact hkey rfl

/-- What is put after a map is the image of what would have been put. -/
theorem lastWith_map {f : γ → α} {zs : List γ} :
    lastWith key k (zs.map f) = (lastWith (fun z => key (f z)) k zs).map f := by
  rw [lastWith, ← List.map_reverse, List.find?_map]
  rfl

/-- Of several lists one after another, only one of which has the key, it has the last entry. -/
theorem lastWith_flatMap {f : γ → List α} {cs : List γ} {c : γ} (hmem : c ∈ cs)
    (hothers : ∀ d ∈ cs, d ≠ c → lastWith key k (f d) = none) :
    lastWith key k (cs.flatMap f) = lastWith key k (f c) := by
  induction cs with
  | nil => cases hmem
  | cons d cs ih =>
      obtain ⟨hd, hrest⟩ := List.forall_mem_cons.1 hothers
      rw [List.flatMap_cons, lastWith_append]
      by_cases hc : c ∈ cs
      · rw [ih hc hrest]
        by_cases heq : d = c
        · rw [heq, Option.or_self]
        · rw [hd heq, Option.or_none]
      · obtain rfl : c = d := (List.mem_cons.1 hmem).resolve_right hc
        have hnone : lastWith key k (cs.flatMap f) = none := by
          rw [lastWith_eq_none_iff, List.mem_map]
          rintro ⟨y, hy, hkey⟩
          obtain ⟨d, hmem, hyd⟩ := List.mem_flatMap.1 hy
          have hne : d ≠ c := fun heq => hc (heq ▸ hmem)
          exact lastWith_eq_none_iff.1 (hrest d hmem hne) (hkey ▸ List.mem_map_of_mem hyd)
        rw [hnone, Option.none_or]

/-! ## Putting what is there -/

omit [DecidableEq κ] in
/-- Lists with the same keys, all different, one of which holds the entries of the other. -/
theorem eq_of_keys (hkeys : xs.map key = ys.map key) (hnodup : (ys.map key).Nodup)
    (h : ∀ x ∈ xs, x ∈ ys) : xs = ys := by
  induction xs generalizing ys with
  | nil => exact (List.map_eq_nil_iff.1 hkeys.symm).symm
  | cons x xs ih =>
      cases ys with
      | nil => cases hkeys
      | cons y ys =>
          obtain ⟨hhead, htail⟩ := List.cons.inj hkeys
          obtain ⟨hnew, hnodup⟩ := List.nodup_cons.1 hnodup
          obtain ⟨hx, hxs⟩ := List.forall_mem_cons.1 h
          have hxy : x = y := by
            refine (List.mem_cons.1 hx).resolve_right fun hmem => ?_
            exact hnew (hhead ▸ List.mem_map_of_mem hmem)
          have hrest : ∀ z ∈ xs, z ∈ ys := by
            intro z hz
            refine (List.mem_cons.1 (hxs z hz)).resolve_left ?_
            rintro rfl
            exact hnew (htail ▸ List.mem_map_of_mem hz)
          rw [hxy, ih htail hnodup hrest]

theorem putAll_append {zs : List α} :
    putAll key (ys ++ zs) xs = putAll key zs (putAll key ys xs) :=
  List.foldl_append

theorem keys_putAll (h : ∀ y ∈ ys, key y ∈ xs.map key) :
    (putAll key ys xs).map key = xs.map key := by
  induction ys generalizing xs with
  | nil => rfl
  | cons y ys ih =>
      obtain ⟨hy, hys⟩ := List.forall_mem_cons.1 h
      have hput : (put key y xs).map key = xs.map key := by rw [keys_put, if_pos hy]
      exact (ih (hput.symm ▸ hys)).trans hput

/-- **Putting changes nothing** where the last entry of each key is there. -/
theorem putAll_absorbed (hnodup : (xs.map key).Nodup) (h : ∀ y ∈ lasting key ys, y ∈ xs) :
    putAll key ys xs = xs := by
  have hpresent : ∀ y ∈ ys, key y ∈ xs.map key := by
    intro y hy
    have hkeys : key y ∈ (lasting key ys).map key := mem_keys_lasting.2 (List.mem_map_of_mem hy)
    obtain ⟨z, hz, hkey⟩ := List.mem_map.1 hkeys
    exact hkey ▸ List.mem_map_of_mem (h z hz)
  apply eq_of_keys (keys_putAll hpresent) hnodup
  intro y hy
  rcases mem_putAll_iff.1 hy with hlast | ⟨hold, -⟩
  · exact h y hlast
  · exact hold

/-- Conversely the last entry of each key is there afterwards. -/
theorem mem_putAll_of_lastWith (h : lastWith key k ys = some y) : y ∈ putAll key ys xs := by
  obtain ⟨-, rfl⟩ := lastWith_spec h
  exact mem_putAll_iff.2 (Or.inl (mem_lasting_iff.2 h))

end SalesTrades.Library.Keyed
