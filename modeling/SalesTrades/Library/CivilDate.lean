import Mathlib.Algebra.Group.Nat.Defs
import Mathlib.Data.Nat.Find
import Mathlib.Order.Monotone.Basic
import Mathlib.Tactic.Common

/-!
# Calendar dates and times of day

The proleptic Gregorian calendar with days numbered from 1 January of year 1, and times of day in
microseconds. A date is determined by the number of its day (`yearOf_ordinal`, `monthOf_ordinal`,
`dayOf_ordinal`), a time of day by its microseconds (`ofMicros_micros`).
-/

set_option autoImplicit false

namespace SalesTrades.Library.CivilDate

/-! ## The calendar -/

def isLeap (year : ℕ) : Bool := year % 4 = 0 && (year % 100 ≠ 0 || year % 400 = 0)

/-- The days of a month. -/
def daysInMonth (leap : Bool) (month : ℕ) : ℕ :=
  match month with
  | 2 => if leap then 29 else 28
  | 4 | 6 | 9 | 11 => 30
  | _ => 31

/-- The days before the first of January of a year. -/
def daysBeforeYear (year : ℕ) : ℕ :=
  365 * (year - 1) + (year - 1) / 4 - (year - 1) / 100 + (year - 1) / 400

/-- The days of a year before the first of a month. -/
def daysBeforeMonth (leap : Bool) (month : ℕ) : ℕ :=
  ([0, 0, 31, 59, 90, 120, 151, 181, 212, 243, 273, 304, 334, 365].getD month 365) +
    if leap ∧ 2 < month then 1 else 0

/-- A date of the years 1 to 9999. -/
structure Date where
  year : ℕ
  month : ℕ
  day : ℕ
  year_pos : 1 ≤ year
  year_le : year ≤ 9999
  month_pos : 1 ≤ month
  month_le : month ≤ 12
  day_pos : 1 ≤ day
  day_le : day ≤ daysInMonth (isLeap year) month

/-- The number of the day `year`-`month`-`day`. -/
def ordinal (year month day : ℕ) : ℕ :=
  daysBeforeYear year + daysBeforeMonth (isLeap year) month + day

/-- The last index whose start lies before `n`. -/
def place (start : ℕ → ℕ) (bound n : ℕ) : ℕ := Nat.findGreatest (fun i => start i < n) bound

/-- The year of a day. -/
def yearOf (n : ℕ) : ℕ := place daysBeforeYear (n / 365 + 1) n

/-- The month of a day. -/
def monthOf (n : ℕ) : ℕ :=
  place (daysBeforeMonth (isLeap (yearOf n))) 12 (n - daysBeforeYear (yearOf n))

/-- The day of its month. -/
def dayOf (n : ℕ) : ℕ :=
  n - daysBeforeYear (yearOf n) - daysBeforeMonth (isLeap (yearOf n)) (monthOf n)

theorem place_eq {start : ℕ → ℕ} {bound n k : ℕ} (hle : k ≤ bound) (hstart : start k < n)
    (hnext : ∀ i, k < i → i ≤ bound → n ≤ start i) : place start bound n = k := by
  apply Nat.findGreatest_eq_iff.2
  refine ⟨hle, fun _ => hstart, fun i hi hbound => ?_⟩
  exact Nat.not_lt.2 (hnext i hi hbound)

theorem isLeap_iff {year : ℕ} : isLeap year = true ↔ 4 ∣ year ∧ (¬ 100 ∣ year ∨ 400 ∣ year) := by
  simp [isLeap, Nat.dvd_iff_mod_eq_zero]

/-- A year is over: its leap day is the one that the three divisions count. -/
theorem daysBeforeYear_succ {year : ℕ} (h : 1 ≤ year) :
    daysBeforeYear (year + 1) = daysBeforeYear year + if isLeap year then 366 else 365 := by
  obtain ⟨k, rfl⟩ : ∃ k, year = k + 1 := ⟨year - 1, by omega⟩
  have hcenturies : k / 100 ≤ k / 4 := Nat.div_le_div_left (by decide) (by decide)
  have h100 : 100 ∣ k + 1 → 4 ∣ k + 1 := Nat.dvd_trans (by decide)
  have h400 : 400 ∣ k + 1 → 100 ∣ k + 1 := Nat.dvd_trans (by decide)
  simp only [daysBeforeYear, isLeap_iff, Nat.add_sub_cancel, Nat.succ_div]
  by_cases hfour : 4 ∣ k + 1
  · by_cases hhundred : 100 ∣ k + 1
    · by_cases hfourHundred : 400 ∣ k + 1
      · simp only [hfour, hhundred, hfourHundred, if_true, not_true_eq_false, or_true, and_self]
        omega
      · simp only [hfour, hhundred, hfourHundred, if_true, if_false, not_true_eq_false, or_self,
          and_false]
        omega
    · have hnot : ¬ 400 ∣ k + 1 := fun hdvd => hhundred (h400 hdvd)
      simp only [hfour, hhundred, hnot, if_true, if_false, not_false_eq_true, true_or, and_self]
      omega
  · have hnot : ¬ 100 ∣ k + 1 := fun hdvd => hfour (h100 hdvd)
    have hnot' : ¬ 400 ∣ k + 1 := fun hdvd => hnot (h400 hdvd)
    simp only [hfour, hnot, hnot', if_false, false_and]
    omega

theorem daysBeforeYear_mono : Monotone daysBeforeYear := by
  apply monotone_nat_of_le_succ
  intro year
  unfold daysBeforeYear
  omega

theorem daysBeforeMonth_succ (leap : Bool) {month : ℕ} (hpos : 1 ≤ month) (hle : month ≤ 12) :
    daysBeforeMonth leap (month + 1) = daysBeforeMonth leap month + daysInMonth leap month := by
  have hall : ∀ leap, ∀ m < 13, 1 ≤ m →
      daysBeforeMonth leap (m + 1) = daysBeforeMonth leap m + daysInMonth leap m := by decide
  exact hall leap month (by omega) hpos

theorem daysBeforeMonth_mono (leap : Bool) {m m' : ℕ} (hle : m ≤ m') (hbound : m' ≤ 13) :
    daysBeforeMonth leap m ≤ daysBeforeMonth leap m' := by
  have hall : ∀ leap, ∀ m' < 14, ∀ m < m' + 1, daysBeforeMonth leap m ≤ daysBeforeMonth leap m' := by
    decide
  exact hall leap m' (by omega) m (by omega)

theorem daysBeforeMonth_end (leap : Bool) :
    daysBeforeMonth leap 13 = if leap then 366 else 365 := by
  cases leap <;> rfl

namespace Date

variable (d : Date)

/-- The day of a date lies in its month. -/
theorem day_le_next : daysBeforeMonth (isLeap d.year) d.month + d.day ≤
    daysBeforeMonth (isLeap d.year) (d.month + 1) := by
  rw [daysBeforeMonth_succ _ d.month_pos d.month_le]
  exact Nat.add_le_add_left d.day_le _

/-- The day of a date lies in its year. -/
theorem day_le_year : daysBeforeMonth (isLeap d.year) d.month + d.day ≤
    if isLeap d.year then 366 else 365 := by
  rw [← daysBeforeMonth_end]
  exact d.day_le_next.trans (daysBeforeMonth_mono _ (Nat.succ_le_succ d.month_le) le_rfl)

theorem yearOf_ordinal : yearOf (ordinal d.year d.month d.day) = d.year := by
  have hpos := d.day_pos
  have hend := d.day_le_year
  have hnext := daysBeforeYear_succ d.year_pos
  apply place_eq
  · -- the bound: a year has 365 days at least
    have hle : 365 * (d.year - 1) ≤ daysBeforeYear d.year := by
      unfold daysBeforeYear
      omega
    rw [ordinal]
    omega
  · rw [ordinal]
    omega
  · intro i hi _
    have hi' : daysBeforeYear (d.year + 1) ≤ daysBeforeYear i := daysBeforeYear_mono hi
    rw [ordinal]
    omega

theorem monthOf_ordinal : monthOf (ordinal d.year d.month d.day) = d.month := by
  have hpos := d.day_pos
  rw [monthOf, yearOf_ordinal]
  apply place_eq d.month_le
  · rw [ordinal]
    omega
  · intro i hi hbound
    have hi' : daysBeforeMonth (isLeap d.year) (d.month + 1) ≤ daysBeforeMonth (isLeap d.year) i :=
      daysBeforeMonth_mono _ hi (by omega)
    have hnext := d.day_le_next
    rw [ordinal]
    omega

theorem dayOf_ordinal : dayOf (ordinal d.year d.month d.day) = d.day := by
  rw [dayOf, monthOf_ordinal, yearOf_ordinal, ordinal]
  omega

/-- The numbers of two digits. -/
theorem month_lt : d.month < 10 ^ 2 := by
  have := d.month_le
  omega

theorem day_lt : d.day < 10 ^ 2 := by
  have hle := d.day_le
  have hall : ∀ leap, ∀ m < 13, daysInMonth leap m ≤ 31 := by decide
  have h31 := hall (isLeap d.year) d.month (Nat.lt_succ_of_le d.month_le)
  omega

theorem year_lt : d.year < 10 ^ 4 := by
  have := d.year_le
  omega

end Date

/-- `year`-`month`-`day` is a date. -/
def Valid (year month day : ℕ) : Prop :=
  (1 ≤ year ∧ year ≤ 9999) ∧ (1 ≤ month ∧ month ≤ 12) ∧
    1 ≤ day ∧ day ≤ daysInMonth (isLeap year) month

instance (year month day : ℕ) : Decidable (Valid year month day) := inferInstanceAs (Decidable (_ ∧ _))

theorem Date.valid (d : Date) : Valid d.year d.month d.day :=
  ⟨⟨d.year_pos, d.year_le⟩, ⟨d.month_pos, d.month_le⟩, d.day_pos, d.day_le⟩

def Date.ofValid {year month day : ℕ} (h : Valid year month day) : Date :=
  ⟨year, month, day, h.1.1, h.1.2, h.2.1.1, h.2.1.2, h.2.2.1, h.2.2.2⟩

/-! ## Times of day -/

/-- Hours, minutes, seconds and microseconds. -/
structure Clock where
  hour : ℕ
  minute : ℕ
  second : ℕ
  microsecond : ℕ

namespace Clock

def micros (c : Clock) : ℕ :=
  ((c.hour * 60 + c.minute) * 60 + c.second) * 1000000 + c.microsecond

def Valid (c : Clock) : Prop :=
  c.hour < 24 ∧ c.minute < 60 ∧ c.second < 60 ∧ c.microsecond < 1000000

instance (c : Clock) : Decidable c.Valid := inferInstanceAs (Decidable (_ ∧ _))

def ofMicros (n : ℕ) : Clock :=
  ⟨n / 3600000000, n / 60000000 % 60, n / 1000000 % 60, n % 1000000⟩

theorem micros_lt {c : Clock} (h : c.Valid) : c.micros < 86400000000 := by
  obtain ⟨hhour, hminute, hsecond, hmicro⟩ := h
  unfold micros
  omega

/-- What is less than a day is the time of a clock. -/
theorem valid_ofMicros {n : ℕ} (h : n < 86400000000) : (ofMicros n).Valid ∧ (ofMicros n).micros = n := by
  refine ⟨⟨?_, ?_, ?_, ?_⟩, ?_⟩
  · simp only [ofMicros]
    omega
  · exact Nat.mod_lt _ (by decide)
  · exact Nat.mod_lt _ (by decide)
  · exact Nat.mod_lt _ (by decide)
  · simp only [micros, ofMicros]
    omega

end Clock

end SalesTrades.Library.CivilDate
