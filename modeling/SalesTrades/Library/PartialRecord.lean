import Mathlib.Data.Option.Basic
import Mathlib.Data.Option.NAry

/-!
# Partial records

A record whose fields may be absent is a function from its columns to optional values. An upsert
lays the data it is given over the stored row: a column the data leaves out keeps what it held.
`Shows` compares a row with an image, in which a column is either not spoken of or has a required
content, the required content being possibly empty.
-/

set_option autoImplicit false

namespace SalesTrades.Library

universe u v

variable {C : Type u} {V : C → Type v}

/-- A value for some of the columns. -/
abbrev PartialRecord (V : C → Type v) : Type (max u v) := ∀ c, Option (V c)

namespace PartialRecord

/-- The record without any value. -/
def empty : PartialRecord V := fun _ => none

/-- `data` laid over `row`. -/
def overlay (data row : PartialRecord V) : PartialRecord V := fun c => (data c).or (row c)

theorem overlay_of_none {data row : PartialRecord V} {c : C} (h : data c = none) :
    overlay data row c = row c := by
  simp [overlay, h]

theorem overlay_of_some {data row : PartialRecord V} {c : C} {v : V c} (h : data c = some v) :
    overlay data row c = some v := by
  simp [overlay, h]

/-- A column with a value keeps one. -/
theorem overlay_eq_none_iff {data row : PartialRecord V} {c : C} :
    overlay data row c = none ↔ data c = none ∧ row c = none := by
  simp [overlay]

/-- A column holds afterwards what the data says of it, unless the data is silent and the row is
not. -/
theorem overlay_eq_data_iff {data row : PartialRecord V} {c : C} :
    overlay data row c = data c ↔ (data c = none → row c = none) := by
  cases hdata : data c with
  | none => simp [overlay_of_none hdata]
  | some v => simp [overlay_of_some hdata]

/-- What is required of the columns: `none` where nothing is, `some none` where the column must be
empty. -/
abbrev Image (V : C → Type v) : Type (max u v) := ∀ c, Option (Option (V c))

/-- The row has the required contents. -/
def Shows (image : Image V) (row : PartialRecord V) : Prop :=
  ∀ c v, image c = some v → row c = v

/-- When the data agrees with an image, laying it over a row makes the row show the image exactly
when the row holds nothing in the columns that must become empty. -/
theorem shows_overlay_iff {image : Image V} {data row : PartialRecord V}
    (hdata : ∀ c v, image c = some v → data c = v) :
    Shows image (overlay data row) ↔ ∀ c, image c = some none → row c = none := by
  constructor
  · intro hshows c hc
    have hempty : overlay data row c = none := hshows c none hc
    exact (overlay_eq_none_iff.1 hempty).2
  · intro hrow c v hc
    have hv := hdata c v hc
    rw [← hv]
    apply overlay_eq_data_iff.2
    intro hnone
    apply hrow c
    rw [hc, ← hv, hnone]

end PartialRecord

end SalesTrades.Library
