import Mathlib.Algebra.Group.Prod
import SalesTrades.Library.GroupBy

/-!
# Tallies

`grouped[key] += amount` over a list of rows, in a dictionary whose entries start at zero: one entry for
each key, in the order in which the keys first come up. An entry holds the amounts of all rows with its
key (`mem_tally`), so a tally shares out what the rows add up to (`sum_tally`).
-/

set_option autoImplicit false

namespace SalesTrades.Library.Tally

universe u v w

variable {α : Type u} {κ : Type v} {M : Type w} [DecidableEq κ] [AddCommMonoid M]

/-- `grouped[k] += amount`. -/
def add (k : κ) (amount : M) : List (κ × M) → List (κ × M)
  | [] => [(k, amount)]
  | e :: es => if e.1 = k then (k, e.2 + amount) :: es else e :: add k amount es

def tally (key : α → κ) (amount : α → M) (rows : List α) : List (κ × M) :=
  rows.foldl (fun es r => add (key r) (amount r) es) []

/-- What the entries of a key hold. -/
def held (k : κ) (es : List (κ × M)) : M := ((es.filter fun e => e.1 = k).map Prod.snd).sum

variable {k k' : κ} {amount : M} {es : List (κ × M)}

theorem held_cons (e : κ × M) : held k (e :: es) = (if e.1 = k then e.2 else 0) + held k es := by
  by_cases he : e.1 = k
  · rw [held, List.filter_cons_of_pos (by simpa using he), List.map_cons, List.sum_cons, if_pos he, held]
  · rw [held, List.filter_cons_of_neg (by simpa using he), if_neg he, zero_add, held]

theorem held_of_perm {es' : List (κ × M)} (h : es.Perm es') : held k es = held k es' :=
  ((h.filter _).map _).sum_eq

/-- **Addition rule.** -/
theorem held_add : held k' (add k amount es) = held k' es + if k = k' then amount else 0 := by
  induction es with
  | nil => rw [add, held_cons, add_comm]
  | cons e es ih =>
      rw [add]
      split
      next he =>
        rw [held_cons, held_cons, he]
        by_cases hk : k = k'
        · rw [if_pos hk, if_pos hk, if_pos hk, add_right_comm]
        · rw [if_neg hk, if_neg hk, if_neg hk, add_zero]
      next => rw [held_cons, held_cons, ih, add_assoc]

theorem mem_keys_add : k' ∈ (add k amount es).map Prod.fst ↔ k' = k ∨ k' ∈ es.map Prod.fst := by
  induction es with
  | nil => simp [add]
  | cons e es ih =>
      rw [add]
      split
      next he => rw [List.map_cons, List.map_cons, List.mem_cons, List.mem_cons, he, ← or_assoc, or_self]
      next => rw [List.map_cons, List.map_cons, List.mem_cons, List.mem_cons, ih, or_left_comm]

theorem nodup_keys_add (h : (es.map Prod.fst).Nodup) : ((add k amount es).map Prod.fst).Nodup := by
  induction es with
  | nil => exact List.nodup_singleton k
  | cons e es ih =>
      obtain ⟨hnot, hes⟩ := List.nodup_cons.1 h
      rw [add]
      split
      next he => exact List.nodup_cons.2 ⟨he ▸ hnot, hes⟩
      next hne =>
        apply List.nodup_cons.2
        refine ⟨?_, ih hes⟩
        rw [mem_keys_add]
        exact fun hin => hin.elim hne hnot

/-- Where the keys differ, a key has one entry at most. -/
theorem held_of_mem (h : (es.map Prod.fst).Nodup) {e : κ × M} (he : e ∈ es) : held e.1 es = e.2 := by
  induction es with
  | nil => cases he
  | cons e' es ih =>
      obtain ⟨hnot, hes⟩ := List.nodup_cons.1 h
      have habsent : ∀ k, k ∉ es.map Prod.fst → held k es = 0 := by
        intro k hk
        have hnone : (es.filter fun e => e.1 = k) = [] := by
          apply List.filter_eq_nil_iff.2
          intro e he hsame
          exact hk (List.mem_map.2 ⟨e, he, of_decide_eq_true hsame⟩)
        rw [held, hnone, List.map_nil, List.sum_nil]
      rw [held_cons]
      rcases List.mem_cons.1 he with rfl | hin
      · rw [if_pos rfl, habsent _ hnot, add_zero]
      · have hne : e'.1 ≠ e.1 := fun hsame => hnot (hsame ▸ List.mem_map_of_mem hin)
        rw [if_neg hne, zero_add, ih hes hin]

variable {key : α → κ} {amounts : α → M} {rows : List α}

theorem tally_concat (r : α) :
    tally key amounts (rows ++ [r]) = add (key r) (amounts r) (tally key amounts rows) := by
  rw [tally, tally, List.foldl_append, List.foldl_cons, List.foldl_nil]

theorem held_tally :
    held k (tally key amounts rows) = ((rows.filter fun r => key r = k).map amounts).sum := by
  induction rows using List.reverseRecOn with
  | nil => rfl
  | append_singleton rows r ih =>
      rw [tally_concat, held_add, ih, List.filter_append, List.map_append, List.sum_append]
      by_cases hk : key r = k
      · rw [if_pos hk, List.filter_cons_of_pos (by simpa using hk), List.filter_nil, List.map_cons,
          List.map_nil, List.sum_cons, List.sum_nil, add_zero]
      · rw [if_neg hk, List.filter_cons_of_neg (by simpa using hk), List.filter_nil, List.map_nil,
          List.sum_nil]

theorem mem_keys_tally : k ∈ (tally key amounts rows).map Prod.fst ↔ ∃ r ∈ rows, key r = k := by
  induction rows using List.reverseRecOn with
  | nil => simp [tally]
  | append_singleton rows r ih =>
      rw [tally_concat, mem_keys_add, ih]
      constructor
      · rintro (rfl | ⟨r', hr', hk⟩)
        · exact ⟨r, List.mem_append_right _ List.mem_cons_self, rfl⟩
        · exact ⟨r', List.mem_append_left _ hr', hk⟩
      · rintro ⟨r', hr', hk⟩
        rcases List.mem_append.1 hr' with hin | hlast
        · exact Or.inr ⟨r', hin, hk⟩
        · exact Or.inl (by rw [← hk, List.mem_singleton.1 hlast])

theorem nodup_keys_tally : ((tally key amounts rows).map Prod.fst).Nodup := by
  induction rows using List.reverseRecOn with
  | nil => exact List.nodup_nil
  | append_singleton rows r ih =>
      rw [tally_concat]
      exact nodup_keys_add ih

/-- **Tally rule.** An entry holds the amounts of the rows with its key. -/
theorem mem_tally {e : κ × M} (he : e ∈ tally key amounts rows) :
    e.2 = ((rows.filter fun r => key r = e.1).map amounts).sum := by
  rw [← held_of_mem nodup_keys_tally he, held_tally]

/-- Each row is counted under one key. -/
theorem sum_tally : ((tally key amounts rows).map Prod.snd).sum = (rows.map amounts).sum := by
  have hentries : (tally key amounts rows).map Prod.snd =
      ((tally key amounts rows).map Prod.fst).map fun k =>
        ((rows.filter fun r => key r = k).map amounts).sum := by
    rw [List.map_map]
    apply List.map_congr_left
    exact fun e he => mem_tally he
  rw [hentries]
  apply GroupBy.sum_over_keys amounts nodup_keys_tally
  exact fun r hr => mem_keys_tally.2 ⟨r, hr, rfl⟩

/-- A tally of two amounts is a tally of each. -/
theorem sum_pairs {N : Type*} [AddCommMonoid N] (es : List (M × N)) :
    es.sum = ((es.map Prod.fst).sum, (es.map Prod.snd).sum) :=
  Prod.ext (map_list_sum (AddMonoidHom.fst M N) es) (map_list_sum (AddMonoidHom.snd M N) es)

end SalesTrades.Library.Tally
