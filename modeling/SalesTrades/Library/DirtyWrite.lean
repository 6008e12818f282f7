/-!
# Writes of changed attributes only

A session that loaded a row, changed its copy and flushes it sends only the attributes whose new
value differs from the loaded one. On a row that other sessions have changed in the meantime the
result is, attribute by attribute, the new value where the copy was changed and the current value
where it was not.
-/

set_option autoImplicit false

namespace SalesTrades.Library

universe u

variable {α : Type u} [DecidableEq α]

/-- The value of one attribute after the flush of a copy that loaded `loaded` and holds `new`, when
the row now holds `current`. -/
def dirtyWrite (loaded new current : α) : α := if new = loaded then current else new

@[simp]
theorem dirtyWrite_current_loaded (loaded new : α) : dirtyWrite loaded new loaded = new := by
  unfold dirtyWrite
  split <;> simp_all

@[simp]
theorem dirtyWrite_current_new (loaded new : α) : dirtyWrite loaded new new = new := by
  unfold dirtyWrite
  split <;> simp_all

@[simp]
theorem dirtyWrite_unchanged (loaded current : α) : dirtyWrite loaded loaded current = current :=
  if_pos rfl

/-- The flush leaves the new value exactly when an attribute it does not send already has it. -/
theorem dirtyWrite_eq_new_iff {loaded new current : α} :
    dirtyWrite loaded new current = new ↔ (new = loaded → current = loaded) := by
  unfold dirtyWrite
  split <;> simp_all

end SalesTrades.Library
