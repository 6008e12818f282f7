import SalesTrades.Library.Deletion

/-!
# Replacing the rows of a key

Tables without a key to upsert on. The rows of a key are replaced in one transaction: a DELETE removes those
that it has seen when it started, then the new rows are inserted. What another transaction has committed
since the DELETE started stays, so the key has the new rows alone exactly when nothing has
(`valuesOf_replaced_eq_iff`). Other keys keep their rows (`valuesOf_replaced_of_ne`).
-/

set_option autoImplicit false

namespace SalesTrades.Library.Table

universe u v

variable {ρ : Type u} {κ : Type v}

/-- No unique index but the one of the ids. -/
def noIndex : ρ → Option Unit := fun _ => none

variable {t : Table (noIndex : ρ → Option Unit)} {r : ρ} {rs : List ρ}

/-! ## Inserting -/

/-- An INSERT, which no index rejects. -/
def append (t : Table (noIndex : ρ → Option Unit)) (r : ρ) : Table (noIndex : ρ → Option Unit) :=
  ((t.insert r).map Prod.snd).getD t

theorem rows_append : (t.append r).rows = t.rows ++ [(t.nextId, r)] := by
  cases hinsert : t.insert r with
  | none =>
      -- no row has a key
      obtain ⟨q, -, k, hkey, -⟩ := insert_eq_none_iff.1 hinsert
      cases hkey
  | some inserted =>
      obtain ⟨-, hrows, -⟩ := insert_eq_some hinsert
      rw [append, hinsert]
      exact hrows

def appendAll (t : Table (noIndex : ρ → Option Unit)) (rs : List ρ) :
    Table (noIndex : ρ → Option Unit) :=
  rs.foldl append t

theorem filter_appendAll (p : ρ → Bool) :
    ((t.appendAll rs).rows.filter fun q => p q.2).map Prod.snd =
      (t.rows.filter fun q => p q.2).map Prod.snd ++ rs.filter p := by
  induction rs generalizing t with
  | nil => exact (List.append_nil _).symm
  | cons r rs ih =>
      rw [appendAll, List.foldl_cons]
      refine ih.trans ?_
      rw [rows_append, List.filter_append, List.map_append, List.append_assoc]
      congr 1
      -- the row that goes in first
      cases hp : p r with
      | true => simp [hp]
      | false => simp [hp]

/-! ## The rows of a key -/

variable [DecidableEq κ] {key : ρ → κ} {k l : κ} {seen : List Nat}

/-- The rows of a key, in the order of the table. -/
def valuesOf (key : ρ → κ) (k : κ) (t : Table (noIndex : ρ → Option Unit)) : List ρ :=
  (t.rows.filter fun q => key q.2 = k).map Prod.snd

/-- What a DELETE of the rows of a key sees. -/
def idsOf (key : ρ → κ) (k : κ) (t : Table (noIndex : ρ → Option Unit)) : List Nat :=
  (t.rows.filter fun q => key q.2 = k).map Prod.fst

/-- The table after a DELETE that has seen `seen` and the INSERTs of the new rows. -/
def replaced (key : ρ → κ) (k : κ) (seen : List Nat) (rs : List ρ)
    (t : Table (noIndex : ρ → Option Unit)) : Table (noIndex : ρ → Option Unit) :=
  (t.delete fun q => key q.2 = k && q.1 ∈ seen).appendAll rs

/-- What stays and what is new. -/
theorem valuesOf_replaced (hrs : ∀ r ∈ rs, key r = k) : valuesOf key k (replaced key k seen rs t) =
    (t.rows.filter fun q => key q.2 = k && q.1 ∉ seen).map Prod.snd ++ rs := by
  have hnew : (rs.filter fun r => key r = k) = rs := by
    rw [List.filter_eq_self]
    exact fun r hr => decide_eq_true (hrs r hr)
  have hold : ((t.delete fun q => key q.2 = k && q.1 ∈ seen).rows.filter fun q => key q.2 = k) =
      t.rows.filter fun q => key q.2 = k && q.1 ∉ seen := by
    rw [delete, List.filter_filter]
    apply List.filter_congr
    intro q _
    by_cases hkey : key q.2 = k <;> simp [hkey]
  rw [valuesOf, replaced, filter_appendAll fun r => decide (key r = k), hold, hnew]

/-- **A replacement is exact** when and only when all rows of the key were there when the DELETE started. -/
theorem valuesOf_replaced_eq_iff (hrs : ∀ r ∈ rs, key r = k) :
    valuesOf key k (replaced key k seen rs t) = rs ↔ ∀ q ∈ t.rows, key q.2 = k → q.1 ∈ seen := by
  rw [valuesOf_replaced hrs, List.append_left_eq_self, List.map_eq_nil_iff, List.filter_eq_nil_iff]
  refine forall₂_congr fun q _ => ?_
  simp

theorem valuesOf_replaced_of_ne (hne : l ≠ k) (hrs : ∀ r ∈ rs, key r = k) :
    valuesOf key l (replaced key k seen rs t) = valuesOf key l t := by
  have hnew : (rs.filter fun r => key r = l) = [] := by
    rw [List.filter_eq_nil_iff]
    intro r hr hkey
    exact hne ((of_decide_eq_true hkey).symm.trans (hrs r hr))
  have hold : ((t.delete fun q => key q.2 = k && q.1 ∈ seen).rows.filter fun q => key q.2 = l) =
      t.rows.filter fun q => key q.2 = l := by
    rw [delete, List.filter_filter]
    apply List.filter_congr
    intro q _
    by_cases hkey : key q.2 = l
    · simp [hkey, hne]
    · simp [hkey]
  rw [valuesOf, replaced, filter_appendAll fun r => decide (key r = l), hold, hnew, List.append_nil]
  rfl

end SalesTrades.Library.Table
