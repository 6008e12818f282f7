import SalesTrades.Library.DateText

/-!
# The website chart

`_run_blocking` asks Google Analytics for the days of a window and of the window before it. The two
windows are adjacent, and each point of the chart has the counts of its own day (`point_own`). But the
window up to today has one day more than the window before it, and the days of the two are paired by the
places of their rows, of which a day without traffic has none. So the chart never compares windows of
one length (`not_chartMatches`), and the overlay is shifted by one number of days when the gaps of the
two windows are the same (`overlay_of_sameGaps`).
-/

set_option autoImplicit false

namespace SalesTrades.Analytics.WebTraffic

open SalesTrades.Library.CivilDate SalesTrades.Library.DateText

/-! ## Reports -/

/-- A date of a `DateRange`. -/
inductive RelativeDate where
  | today
  | daysAgo (n : ℕ)
  deriving DecidableEq

structure DateRange where
  startDate : RelativeDate
  endDate : RelativeDate

/-- `current`. -/
def current (days : ℕ) : DateRange := ⟨.daysAgo days, .today⟩

/-- `previous`. -/
def previous (days : ℕ) : DateRange := ⟨.daysAgo (2 * days), .daysAgo (days + 1)⟩

/-- The analytics property: the day of the report, and the values of `activeUsers` and `sessions` on the
days with traffic. Days are numbered as `date.toordinal` does. -/
structure Property where
  today : ℤ
  metrics : ℤ → Option (String × String)

def RelativeDate.resolve (today : ℤ) : RelativeDate → ℤ
  | .today => today
  | .daysAgo n => today - n

/-- The days from the first to the last. -/
def daysFrom (first last : ℤ) : List ℤ :=
  (List.range (last + 1 - first).toNat).map fun n : ℕ => first + (n : ℤ)

/-- Both dates of a range belong to it. -/
def Property.days (ga : Property) (range : DateRange) : List ℤ :=
  daysFrom (range.startDate.resolve ga.today) (range.endDate.resolve ga.today)

/-- A row of a report with the dimension `date`. -/
structure ReportRow where
  date : String
  activeUsers : String
  sessions : String

/-- The dimension `date`: `YYYYMMDD`. -/
def gaDate (day : ℤ) : String :=
  String.ofList (padded 4 (yearOf day.toNat) ++ padded 2 (monthOf day.toNat) ++
    padded 2 (dayOf day.toNat))

/-- The rows of these days, in their order; a day without traffic has none. -/
def Property.rows (ga : Property) (days : List ℤ) : List ReportRow :=
  days.filterMap fun day => (ga.metrics day).map fun values => ⟨gaDate day, values.1, values.2⟩

/-! ## The series -/

structure WebTimePoint where
  date : String
  activeUsers : ℤ
  sessions : ℤ
  activeUsersPrev : ℤ
  sessionsPrev : ℤ

/-- `_iso`. -/
def iso (date : String) : String :=
  let cs := date.toList
  if cs.length = 8 then
    String.ofList (cs.take 4 ++ '-' :: ((cs.drop 4).take 2 ++ '-' :: (cs.drop 6).take 2))
  else date

section Series

-- `_i`, the number that a value of a metric spells
variable (i : String → ℤ)

/-- `timeseries`, from the rows of the two windows. -/
def timeseries (cur prev : List ReportRow) : List WebTimePoint :=
  let curSeries := cur.map fun row => (iso row.date, i row.activeUsers, i row.sessions)
  let prevSeries := prev.map fun row => (i row.activeUsers, i row.sessions)
  curSeries.mapIdx fun idx point =>
    let prevPoint := prevSeries.getD idx (0, 0)
    ⟨point.1, point.2.1, point.2.2, prevPoint.1, prevPoint.2⟩

/-- The series of `_run_blocking`. -/
def runBlocking (ga : Property) (days : ℕ) : List WebTimePoint :=
  timeseries i (ga.rows (ga.days (current days))) (ga.rows (ga.days (previous days)))

/-- The counts of a day, 0 for one without traffic. -/
def Property.counts (ga : Property) (day : ℤ) : ℤ × ℤ :=
  ((ga.metrics day).map fun values => (i values.1, i values.2)).getD (0, 0)

end Series

/-- The day as the response writes it: `YYYY-MM-DD`. -/
def isoDay (day : ℤ) : String :=
  String.ofList (dateText (yearOf day.toNat) (monthOf day.toNat) (dayOf day.toNat))

/-- The point of a day, with the counts of the day itself. -/
structure WebTimePoint.Of (i : String → ℤ) (ga : Property) (day : ℤ) (p : WebTimePoint) : Prop where
  date : p.date = isoDay day
  counts : (p.activeUsers, p.sessions) = ga.counts i day

/-- The chart compares day with matching day. -/
structure ChartMatches (i : String → ℤ) (ga : Property) (days : ℕ) : Prop where
  own : ∀ p ∈ runBlocking i ga days, ∃ day ∈ ga.days (current days), p.Of i ga day
  overlay : ∃ shift > 0, ∀ p ∈ runBlocking i ga days, ∃ day ∈ ga.days (current days), p.Of i ga day ∧
    (p.activeUsersPrev, p.sessionsPrev) = ga.counts i (day - shift)
  sameLength : (ga.days (current days)).length = (ga.days (previous days)).length
  adjacent : ((ga.days (previous days)).getLast?.map fun day => day + 1) =
    (ga.days (current days)).head?

/-! ## The windows -/

section Windows

variable (ga : Property) (days : ℕ)

theorem days_current : ga.days (current days) =
    (List.range (days + 1)).map fun n : ℕ => ga.today - days + (n : ℤ) := by
  have hlength : (ga.today + 1 - (ga.today - days)).toNat = days + 1 := by omega
  simp only [Property.days, current, RelativeDate.resolve, daysFrom, hlength]

theorem days_previous : ga.days (previous days) =
    (List.range days).map fun n : ℕ => ga.today - 2 * days + (n : ℤ) := by
  have hlength : (ga.today - ((days + 1 : ℕ) : ℤ) + 1 - (ga.today - ((2 * days : ℕ) : ℤ))).toNat =
      days := by omega
  have hfirst : ga.today - ((2 * days : ℕ) : ℤ) = ga.today - 2 * days := by omega
  rw [Property.days, previous, RelativeDate.resolve, RelativeDate.resolve, daysFrom, hlength, hfirst]

/-- The window up to today is that before it, moved to its end, and today. -/
theorem days_current_eq_append : ga.days (current days) =
    ((ga.days (previous days)).map fun day => day + (days : ℤ)) ++ [ga.today] := by
  rw [days_current, days_previous, List.range_succ, List.map_append, List.map_map]
  congr 1
  · apply List.map_congr_left
    intro n _
    simp only [Function.comp_apply]
    omega
  · rw [List.map_singleton]
    congr 1
    omega

/-- The windows never have the same length. -/
theorem length_days_current : (ga.days (current days)).length =
    (ga.days (previous days)).length + 1 := by
  rw [days_current_eq_append, List.length_append, List.length_map, List.length_singleton]

/-- The one ends on the day before the other begins. -/
theorem days_adjacent (h : 1 ≤ days) : ((ga.days (previous days)).getLast?.map fun day => day + 1) =
    (ga.days (current days)).head? := by
  obtain ⟨n, rfl⟩ : ∃ n, days = n + 1 := ⟨days - 1, by omega⟩
  rw [days_current, days_previous, List.range_succ, List.map_append, List.map_singleton,
    List.getLast?_concat, List.range_succ_eq_map, List.map_cons, List.head?_cons, Option.map_some]
  congr 1
  push_cast
  omega

end Windows

/-! ## The points -/

section Points

variable {i : String → ℤ} {ga : Property} {day : ℤ} {values : String × String}

theorem iso_gaDate (day : ℤ) : iso (gaDate day) = isoDay day := by
  have hyear := length_padded 4 (yearOf day.toNat)
  have hmonth := length_padded 2 (monthOf day.toNat)
  have hday := length_padded 2 (dayOf day.toNat)
  have hlength : (padded 4 (yearOf day.toNat) ++ padded 2 (monthOf day.toNat) ++
      padded 2 (dayOf day.toNat)).length = 8 := by
    rw [List.length_append, List.length_append, hyear, hmonth, hday]
  have hdrop : (padded 4 (yearOf day.toNat) ++ padded 2 (monthOf day.toNat) ++
      padded 2 (dayOf day.toNat)).drop 6 = padded 2 (dayOf day.toNat) := by
    apply List.drop_left'
    rw [List.length_append, hyear, hmonth]
  rw [iso, gaDate, String.toList_ofList]
  simp only [hlength, if_true, hdrop]
  rw [List.append_assoc, List.take_left' hyear, List.drop_left' hyear, List.take_left' hmonth,
    List.take_of_length_le hday.le]
  rfl

theorem rows_cons_none (h : ga.metrics day = none) (days : List ℤ) :
    ga.rows (day :: days) = ga.rows days := by
  rw [Property.rows, List.filterMap_cons_none (by rw [h, Option.map_none])]
  rfl

theorem rows_cons_some (h : ga.metrics day = some values) (days : List ℤ) :
    ga.rows (day :: days) = ⟨gaDate day, values.1, values.2⟩ :: ga.rows days := by
  rw [Property.rows, List.filterMap_cons_some (by rw [h, Option.map_some])]
  rfl

theorem counts_of_some (h : ga.metrics day = some values) :
    ga.counts i day = (i values.1, i values.2) := by
  rw [Property.counts, h]
  rfl

theorem counts_of_none (h : ga.metrics day = none) : ga.counts i day = (0, 0) := by
  rw [Property.counts, h]
  rfl

/-- The first rows are paired, and then the others. -/
theorem timeseries_cons (row : ReportRow) (cur prev : List ReportRow) :
    timeseries i (row :: cur) prev =
      ⟨iso row.date, i row.activeUsers, i row.sessions,
        ((prev.head?.map fun r => (i r.activeUsers, i r.sessions)).getD (0, 0)).1,
        ((prev.head?.map fun r => (i r.activeUsers, i r.sessions)).getD (0, 0)).2⟩ ::
        timeseries i cur prev.tail := by
  simp only [timeseries, List.map_cons, List.mapIdx_cons]
  cases prev with
  | nil => rfl
  | cons r prev => rfl

/-- The point of a row. -/
theorem of_row (h : ga.metrics day = some values) (prevPoint : ℤ × ℤ) :
    WebTimePoint.Of i ga day
      ⟨iso (gaDate day), i values.1, i values.2, prevPoint.1, prevPoint.2⟩ := by
  constructor
  · dsimp only
    rw [iso_gaDate]
  · dsimp only
    rw [counts_of_some h]

/-- **Own counts.** -/
theorem point_own {days : List ℤ} {prev : List ReportRow} {p : WebTimePoint}
    (hp : p ∈ timeseries i (ga.rows days) prev) : ∃ day ∈ days, p.Of i ga day := by
  induction days generalizing prev with
  | nil => cases hp
  | cons day days ih =>
      cases hmetrics : ga.metrics day with
      | none =>
          rw [rows_cons_none hmetrics] at hp
          obtain ⟨day', hmem, hof⟩ := ih hp
          exact ⟨day', List.mem_cons_of_mem day hmem, hof⟩
      | some values =>
          rw [rows_cons_some hmetrics, timeseries_cons] at hp
          rcases List.mem_cons.1 hp with rfl | hp
          · exact ⟨day, List.mem_cons_self, of_row hmetrics _⟩
          · obtain ⟨day', hmem, hof⟩ := ih hp
            exact ⟨day', List.mem_cons_of_mem day hmem, hof⟩

/-! ### The overlay -/

/-- The gaps of the window before are those of the window up to today, which has the first day of
that window once more: there is no traffic today, or there was none that many days ago. -/
structure SameGaps (ga : Property) (days : ℕ) : Prop where
  gaps : ∀ day ∈ ga.days (previous days),
    (ga.metrics day).isSome = (ga.metrics (day + days)).isSome
  today : ga.metrics ga.today = none ∨ ga.metrics (ga.today - days) = none

/-- Rows with the same gaps are paired by their days. -/
theorem overlay_of_gaps {shift last : ℤ} {days : List ℤ} {p : WebTimePoint}
    (hgaps : ∀ day ∈ days, (ga.metrics day).isSome = (ga.metrics (day + shift)).isSome)
    (hlast : ga.metrics last = none ∨ ga.metrics (last - shift) = none)
    (hp : p ∈ timeseries i (ga.rows ((days.map fun day => day + shift) ++ [last])) (ga.rows days)) :
    ∃ day ∈ (days.map fun day => day + shift) ++ [last], p.Of i ga day ∧
      (p.activeUsersPrev, p.sessionsPrev) = ga.counts i (day - shift) := by
  induction days with
  | nil =>
      rw [List.map_nil, List.nil_append] at hp ⊢
      cases hmetrics : ga.metrics last with
      | none =>
          rw [rows_cons_none hmetrics] at hp
          cases hp
      | some values =>
          have hnone : ga.metrics (last - shift) = none := by
            rcases hlast with hlast | hlast
            · rw [hmetrics] at hlast
              cases hlast
            · exact hlast
          rw [rows_cons_some hmetrics, timeseries_cons] at hp
          rcases List.mem_cons.1 hp with rfl | hp
          · exact ⟨last, List.mem_singleton_self last, of_row hmetrics _, (counts_of_none hnone).symm⟩
          · cases hp
  | cons day days ih =>
      obtain ⟨hgap, hgaps⟩ := List.forall_mem_cons.1 hgaps
      rw [List.map_cons, List.cons_append] at hp ⊢
      cases hmetrics : ga.metrics day with
      | none =>
          rw [hmetrics, Option.isSome_none] at hgap
          have hmoved : ga.metrics (day + shift) = none := by
            rw [← Option.not_isSome_iff_eq_none, ← hgap]
            exact Bool.false_ne_true
          rw [rows_cons_none hmetrics, rows_cons_none hmoved] at hp
          obtain ⟨day', hmem, hof⟩ := ih hgaps hp
          exact ⟨day', List.mem_cons_of_mem _ hmem, hof⟩
      | some values =>
          rw [hmetrics, Option.isSome_some] at hgap
          obtain ⟨values', hmoved⟩ := Option.isSome_iff_exists.1 hgap.symm
          rw [rows_cons_some hmetrics, rows_cons_some hmoved, timeseries_cons] at hp
          rcases List.mem_cons.1 hp with rfl | hp
          · refine ⟨day + shift, List.mem_cons_self, of_row hmoved _, ?_⟩
            rw [add_sub_cancel_right, counts_of_some hmetrics]
            rfl
          · obtain ⟨day', hmem, hof⟩ := ih hgaps hp
            exact ⟨day', List.mem_cons_of_mem _ hmem, hof⟩

/-- With the same gaps in both windows, every point is compared with the day `days` days earlier. -/
theorem overlay_of_sameGaps {days : ℕ} (h : SameGaps ga days) {p : WebTimePoint}
    (hp : p ∈ runBlocking i ga days) : ∃ day ∈ ga.days (current days), p.Of i ga day ∧
      (p.activeUsersPrev, p.sessionsPrev) = ga.counts i (day - days) := by
  rw [runBlocking, days_current_eq_append] at hp
  rw [days_current_eq_append]
  exact overlay_of_gaps h.gaps h.today hp

end Points

/-- On no property and for no number of days does the chart compare windows of one length. -/
theorem not_chartMatches (i : String → ℤ) (ga : Property) (days : ℕ) : ¬ ChartMatches i ga days := by
  intro h
  have hlength := h.sameLength
  rw [length_days_current] at hlength
  omega

/-! ## A missing day -/

/-- `_i` on digits. -/
def decimal (text : String) : ℤ :=
  (text.toList.foldl (fun n c => 10 * n + (c.toNat - 48)) 0 : ℕ)

/-- Traffic on the three days before the day of the report, and on no other day. -/
def threeDays : Property where
  today := 739000
  metrics day :=
    if day = 738997 then some ("5", "5")
    else if day = 738998 then some ("10", "10")
    else if day = 738999 then some ("20", "20")
    else none

/-- Two days ago is compared with the day before, and yesterday with a day without traffic, although
there was traffic on the day before yesterday. -/
theorem threeDays_not_chartMatches : ¬ ChartMatches decimal threeDays 2 := by
  rintro ⟨-, ⟨shift, -, hshift⟩, -, -⟩
  have hseries : runBlocking decimal threeDays 2 =
      [⟨isoDay 738998, 10, 10, 5, 5⟩, ⟨isoDay 738999, 20, 20, 0, 0⟩] := rfl
  have hdays : threeDays.days (current 2) = [738998, 738999, 739000] := rfl
  rw [hseries, hdays] at hshift
  obtain ⟨⟨day, hday, hof, hprev⟩, hrest⟩ := List.forall_mem_cons.1 hshift
  obtain ⟨day', hday', hof', hprev'⟩ := hrest _ List.mem_cons_self
  simp only [List.mem_cons, List.not_mem_nil, or_false] at hday hday'
  have hfirst : day = 738998 := by
    have hcounts := hof.counts
    rcases hday with rfl | rfl | rfl
    · rfl
    · cases hcounts
    · cases hcounts
  have hsecond : day' = 738999 := by
    have hcounts := hof'.counts
    rcases hday' with rfl | rfl | rfl
    · cases hcounts
    · rfl
    · cases hcounts
  subst hfirst hsecond
  -- the only day with 5 users is one day earlier
  have hone : shift = 1 := by
    simp only [Property.counts, threeDays] at hprev
    split at hprev
    · omega
    · split at hprev
      · cases hprev
      · split at hprev
        · cases hprev
        · cases hprev
  subst hone
  cases hprev'

end SalesTrades.Analytics.WebTraffic
