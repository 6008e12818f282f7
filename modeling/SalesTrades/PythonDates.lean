import SalesTrades.Library.Strptime
import SalesTrades.Python

/-!
# Dates of the Python code

The functions of `datetime` on the values of `Python`: the microseconds of a wall clock are counted
from the midnight of 1 January 1970.
-/

set_option autoImplicit false

namespace SalesTrades

open SalesTrades.Library SalesTrades.Library.CivilDate SalesTrades.Library.DateText

/-- The number of 1 January 1970. -/
def epochOrdinal : ℤ := 719163

def microsPerDay : ℤ := 86400000000

/-- The wall clock at `micros` on a day. -/
def wallAt (day micros : ℕ) : ℤ := (day - epochOrdinal) * microsPerDay + micros

def datetimeOf (s : Stamp) : Datetime := ⟨wallAt s.day s.micros, s.offset⟩

def stampOf (dt : Datetime) : Stamp :=
  ⟨(dt.wall / microsPerDay + epochOrdinal).toNat, (dt.wall % microsPerDay).toNat, dt.offset⟩

/-- `datetime.fromisoformat`; `none` is a `ValueError`. -/
def datetimeFromIsoformat (s : String) : Option Datetime := (fromisoformat s.toList).map datetimeOf

/-- `datetime.strptime`; `none` is a `ValueError`. -/
def datetimeStrptime (s format : String) : Option Datetime :=
  (Strptime.strptime isWhitespace s.toList format.toList).map datetimeOf

/-- `datetime.isoformat`. -/
def datetimeIsoformat (dt : Datetime) : String := String.ofList (isoformat (stampOf dt))

theorem wallAt_div (day : ℕ) {micros : ℕ} (h : micros < 86400000000) :
    wallAt day micros / microsPerDay = day - epochOrdinal ∧
      wallAt day micros % microsPerDay = micros := by
  unfold wallAt microsPerDay
  omega

theorem stampOf_datetimeOf {s : Stamp} (h : s.micros < 86400000000) : stampOf (datetimeOf s) = s := by
  obtain ⟨day, micros, offset⟩ := s
  obtain ⟨hday, hmicros⟩ := wallAt_div day h
  simp only [stampOf, datetimeOf, hday, hmicros, Stamp.mk.injEq, Int.toNat_natCast, and_true]
  omega

/-- A wall clock is that of one day and one time. -/
theorem wallAt_inj {day day' micros micros' : ℕ} (h : micros < 86400000000)
    (h' : micros' < 86400000000) :
    wallAt day micros = wallAt day' micros' ↔ day = day' ∧ micros = micros' := by
  unfold wallAt microsPerDay
  omega

/-- What is written is read back. -/
theorem datetimeFromIsoformat_isoformat (d : Date) {micros : ℕ} (hmicros : micros < 86400000000)
    {offset : Option ℤ} (hoffset : ∀ o ∈ offset, IsOffset o) :
    datetimeFromIsoformat
        (datetimeIsoformat ⟨wallAt (ordinal d.year d.month d.day) micros, offset⟩) =
      some ⟨wallAt (ordinal d.year d.month d.day) micros, offset⟩ := by
  have hstamp : stampOf ⟨wallAt (ordinal d.year d.month d.day) micros, offset⟩ =
      ⟨ordinal d.year d.month d.day, micros, offset⟩ :=
    stampOf_datetimeOf (s := ⟨ordinal d.year d.month d.day, micros, offset⟩) hmicros
  rw [datetimeFromIsoformat, datetimeIsoformat, String.toList_ofList, hstamp,
    fromisoformat_isoformat d hmicros hoffset]
  rfl

end SalesTrades
