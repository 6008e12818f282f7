import SalesTrades.Library.Table

/-!
# Deletion under a foreign key

Rows of a table that other rows refer to by their ids. A foreign key without an action rejects the whole
DELETE statement when one of the rows it matches is referred to (`deleteRestrict_eq_none_iff`); otherwise
the statement removes what it matches, and no reference is left dangling (`References.deleteRestrict`).
-/

set_option autoImplicit false

namespace SalesTrades.Library.Table

universe u v

variable {ρ : Type u} {κ : Type v} {key : ρ → Option κ} {t t' : Table key} {p : Nat × ρ → Bool}
  {refs : List Nat}

/-- Every reference leads to a row. -/
def References (refs : List Nat) (t : Table key) : Prop := ∀ id ∈ refs, ∃ q ∈ t.rows, q.1 = id

/-- The table without the rows that `p` matches. Ids are not used again. -/
def delete (t : Table key) (p : Nat × ρ → Bool) : Table key where
  rows := t.rows.filter fun q => !p q
  nextId := t.nextId
  id_lt := fun q hq => t.id_lt q (List.mem_of_mem_filter hq)
  nodup := t.nodup.sublist (List.filter_sublist.map Prod.fst)
  unique := t.unique.sublist List.filter_sublist

theorem mem_delete {q : Nat × ρ} : q ∈ (t.delete p).rows ↔ q ∈ t.rows ∧ p q = false := by
  simp [delete]

/-- The DELETE statement where the ids `refs` are referred to, `none` when the foreign key rejects it. -/
def deleteRestrict (refs : List Nat) (t : Table key) (p : Nat × ρ → Bool) : Option (Table key) :=
  if t.rows.any fun q => p q && refs.contains q.1 then none else some (t.delete p)

theorem deleteRestrict_eq_none_iff :
    deleteRestrict refs t p = none ↔ ∃ q ∈ t.rows, p q = true ∧ q.1 ∈ refs := by
  simp [deleteRestrict]

theorem deleteRestrict_eq_some_iff : deleteRestrict refs t p = some t' ↔
    (∀ q ∈ t.rows, p q = true → q.1 ∉ refs) ∧ t' = t.delete p := by
  cases h : deleteRestrict refs t p with
  | none =>
      obtain ⟨q, hq, hp, hrefs⟩ := deleteRestrict_eq_none_iff.1 h
      exact iff_of_false (fun heq => nomatch heq) fun hfree => hfree.1 q hq hp hrefs
  | some t₁ =>
      have hfree : ∀ q ∈ t.rows, p q = true → q.1 ∉ refs := by
        intro q hq hp hrefs
        have hnone := deleteRestrict_eq_none_iff.2 ⟨q, hq, hp, hrefs⟩
        rw [h] at hnone
        cases hnone
      unfold deleteRestrict at h
      split at h
      · cases h
      · rw [← h, Option.some.injEq, eq_comm]
        exact (and_iff_right hfree).symm

/-- A deletion that goes through leaves no reference without its row. -/
theorem References.deleteRestrict (hrefs : References refs t)
    (h : Table.deleteRestrict refs t p = some t') : References refs t' := by
  obtain ⟨hfree, rfl⟩ := deleteRestrict_eq_some_iff.1 h
  intro id hid
  obtain ⟨q, hq, rfl⟩ := hrefs id hid
  refine ⟨q, mem_delete.2 ⟨hq, ?_⟩, rfl⟩
  rw [Bool.eq_false_iff]
  exact fun hp => hfree q hq hp hid

/-- A table that keeps the ids keeps the references. -/
theorem References.mono (hrefs : References refs t) (h : ∀ q ∈ t.rows, ∃ q' ∈ t'.rows, q'.1 = q.1) :
    References refs t' := by
  intro id hid
  obtain ⟨q, hq, rfl⟩ := hrefs id hid
  exact h q hq

end SalesTrades.Library.Table
