import Mathlib.Data.List.Induction
import Mathlib.Data.List.Nodup
import Mathlib.Data.List.Perm.Basic
import Mathlib.Tactic.Common

/-!
# Buckets in the order of their keys

A dictionary of lists that is filled with `setdefault(key, []).append(value)`. The buckets stand in the
order in which their keys occur first, no two have the same key, and together they hold every value once
(`perm_flatMap_items`).
-/

set_option autoImplicit false

namespace SalesTrades.Library.Buckets

universe u v

/-- A bucket, which is never empty. -/
structure Bucket (κ : Type u) (α : Type v) where
  key : κ
  first : α
  others : List α

variable {κ : Type u} {α : Type v} [DecidableEq κ] {k : κ} {x : α} {b : Bucket κ α}
  {bs : List (Bucket κ α)} {entries : List (κ × α)}

def Bucket.items (b : Bucket κ α) : List α := b.first :: b.others

/-- `setdefault(k, []).append(x)`. -/
def append (k : κ) (x : α) : List (Bucket κ α) → List (Bucket κ α)
  | [] => [⟨k, x, []⟩]
  | b :: bs =>
      if b.key = k then { b with others := b.others ++ [x] } :: bs else b :: append k x bs

def buckets (entries : List (κ × α)) : List (Bucket κ α) :=
  entries.foldl (fun bs e => append e.1 e.2 bs) []

theorem buckets_concat (entries : List (κ × α)) (e : κ × α) :
    buckets (entries ++ [e]) = append e.1 e.2 (buckets entries) := by
  rw [buckets, List.foldl_append]
  rfl

/-! ## Keys -/

/-- A new key comes last. -/
theorem keys_append : (k ∈ bs.map Bucket.key ∧ (append k x bs).map Bucket.key = bs.map Bucket.key) ∨
    (k ∉ bs.map Bucket.key ∧ (append k x bs).map Bucket.key = bs.map Bucket.key ++ [k]) := by
  induction bs with
  | nil => exact Or.inr ⟨List.not_mem_nil, rfl⟩
  | cons b bs ih =>
      rw [append, List.map_cons]
      by_cases hb : b.key = k
      · rw [if_pos hb]
        exact Or.inl ⟨hb ▸ List.mem_cons_self, rfl⟩
      · rw [if_neg hb, List.map_cons, List.mem_cons, or_iff_right (Ne.symm hb)]
        exact ih.imp (And.imp_right (congrArg _)) (And.imp_right (congrArg _))

theorem nodup_keys_append (h : (bs.map Bucket.key).Nodup) :
    ((append k x bs).map Bucket.key).Nodup := by
  rcases @keys_append κ α _ k x bs with ⟨-, hkeys⟩ | ⟨hk, hkeys⟩
  · rwa [hkeys]
  · rw [hkeys, ← List.concat_eq_append]
    exact h.concat hk

/-- No two buckets have the same key. -/
theorem nodup_keys_buckets (entries : List (κ × α)) :
    ((buckets entries).map Bucket.key).Nodup := by
  induction entries using List.reverseRecOn with
  | nil => exact List.nodup_nil
  | append_singleton entries e ih =>
      rw [buckets_concat]
      exact nodup_keys_append ih

/-! ## Values -/

/-- A bucket after a value has been added: the one of its key has got the value, the others stay. -/
theorem append_cases (hkeys : (bs.map Bucket.key).Nodup) (hb : b ∈ append k x bs) :
    (b.key ≠ k ∧ b ∈ bs) ∨
      (b.key = k ∧ ∃ b' ∈ bs, b'.key = k ∧ b.items = b'.items ++ [x]) ∨
      (b.key = k ∧ k ∉ bs.map Bucket.key ∧ b.items = [x]) := by
  induction bs with
  | nil =>
      obtain rfl := List.mem_singleton.1 hb
      exact Or.inr (Or.inr ⟨rfl, List.not_mem_nil, rfl⟩)
  | cons b' bs ih =>
      obtain ⟨hnew, hkeys⟩ := List.nodup_cons.1 hkeys
      rw [append] at hb
      by_cases hkey : b'.key = k
      · rw [if_pos hkey] at hb
        rcases List.mem_cons.1 hb with rfl | hb
        · exact Or.inr (Or.inl ⟨hkey, b', List.mem_cons_self, hkey, rfl⟩)
        · refine Or.inl ⟨?_, List.mem_cons_of_mem b' hb⟩
          rintro rfl
          exact hnew (hkey ▸ List.mem_map_of_mem hb)
      · rw [if_neg hkey] at hb
        rcases List.mem_cons.1 hb with rfl | hb
        · exact Or.inl ⟨hkey, List.mem_cons_self⟩
        · rcases ih hkeys hb with ⟨hne, hold⟩ | ⟨heq, b'', hb'', hgrown⟩ | ⟨heq, habsent, hitems⟩
          · exact Or.inl ⟨hne, List.mem_cons_of_mem b' hold⟩
          · exact Or.inr (Or.inl ⟨heq, b'', List.mem_cons_of_mem b' hb'', hgrown⟩)
          · refine Or.inr (Or.inr ⟨heq, ?_, hitems⟩)
            rw [List.map_cons, List.mem_cons, not_or]
            exact ⟨Ne.symm hkey, habsent⟩

/-- There is a bucket for each key that occurs. -/
theorem mem_keys_buckets : k ∈ (buckets entries).map Bucket.key ↔ k ∈ entries.map Prod.fst := by
  induction entries using List.reverseRecOn with
  | nil => exact Iff.rfl
  | append_singleton entries e ih =>
      rw [buckets_concat, List.map_append, List.mem_append, ← ih]
      rcases @keys_append κ α _ e.1 e.2 (buckets entries) with ⟨hmem, hkeys⟩ | ⟨-, hkeys⟩
      · rw [hkeys]
        refine ⟨Or.inl, ?_⟩
        rintro (h | h)
        · exact h
        · rw [List.mem_singleton.1 h]
          exact hmem
      · rw [hkeys, List.mem_append]
        exact Iff.rfl

/-- **A bucket** holds the values of its key, in the order of the entries. -/
theorem items_eq_filter (hb : b ∈ buckets entries) :
    b.items = (entries.filter fun e => e.1 = b.key).map Prod.snd := by
  induction entries using List.reverseRecOn generalizing b with
  | nil => cases hb
  | append_singleton entries e ih =>
      rw [buckets_concat] at hb
      rw [List.filter_append, List.map_append]
      rcases append_cases (nodup_keys_buckets entries) hb with
        ⟨hne, hold⟩ | ⟨heq, b', hb', hkey, hgrown⟩ | ⟨heq, habsent, hitems⟩
      · rw [List.filter_singleton, decide_eq_false (Ne.symm hne), cond_false, List.map_nil,
          List.append_nil]
        exact ih hold
      · rw [hgrown, ih hb', hkey, heq, List.filter_singleton, decide_eq_true rfl, cond_true]
        rfl
      · have hnone : (entries.filter fun e' => e'.1 = b.key) = [] := by
          rw [List.filter_eq_nil_iff]
          intro e' he' hkey
          rw [mem_keys_buckets] at habsent
          exact habsent (heq ▸ of_decide_eq_true hkey ▸ List.mem_map_of_mem he')
        rw [hitems, hnone, heq, List.filter_singleton, decide_eq_true rfl, cond_true]
        rfl

theorem perm_append : ((append k x bs).flatMap Bucket.items).Perm (bs.flatMap Bucket.items ++ [x]) := by
  induction bs with
  | nil => exact List.Perm.refl _
  | cons b bs ih =>
      rw [append]
      split
      · rw [List.flatMap_cons, List.flatMap_cons, Bucket.items, ← List.cons_append, List.append_assoc,
          List.append_assoc]
        exact List.Perm.append_left _ List.perm_append_comm
      · rw [List.flatMap_cons, List.flatMap_cons, List.append_assoc]
        exact ih.append_left _

/-- The buckets hold every value once. -/
theorem perm_flatMap_items (entries : List (κ × α)) :
    ((buckets entries).flatMap Bucket.items).Perm (entries.map Prod.snd) := by
  induction entries using List.reverseRecOn with
  | nil => exact List.Perm.refl _
  | append_singleton entries e ih =>
      rw [buckets_concat, List.map_append]
      exact perm_append.trans (ih.append_right _)

end SalesTrades.Library.Buckets
