import SalesTrades.Analytics.Model
import SalesTrades.Library.KeyedSums
import Mathlib.Algebra.Ring.Rat
import Mathlib.Data.List.Sort

/-!
# Trends

The trends endpoint adds up the daily snapshot by date, and compares the latest date with the latest one
at least seven days before it, stage by stage. The series has every row, while the comparison goes over
the stages of the latest date, with one row for each stage id. So the deltas add up to the change of the
series exactly when what the two dictionaries leave out balances (`trends_explained_iff`).
-/

set_option autoImplicit false

namespace SalesTrades.Analytics

open SalesTrades.Library SalesTrades.Library.LeftJoin SalesTrades.Deals

/-! ## The query -/

/-- A row of `pipeline_daily_snapshot`, whose columns beside the key may be null. -/
structure PipelineDailySnapshot where
  snapshotDate : Date
  pipelineId : Int
  stageId : Int
  dealCount : Option Int
  totalValue : Option ℚ

/-- The primary key. -/
def PipelineDailySnapshot.key (s : PipelineDailySnapshot) : Date × Int × Int :=
  (s.snapshotDate, s.pipelineId, s.stageId)

/-- The tables of the query, the snapshot in the order in which the database goes through it. -/
structure TrendsDb where
  snapshots : List PipelineDailySnapshot
  pipelines : List Pipeline
  stages : List Stage
  snapshots_nodup : (snapshots.map PipelineDailySnapshot.key).Nodup
  pipelines_nodup : (pipelines.map fun p => p.id).Nodup
  stages_nodup : (stages.map fun s => s.id).Nodup

structure TrendsRow where
  snapshotDate : Date
  pipelineName : String
  stageName : String
  stagePosition : Int
  stageId : Int
  dealCount : Option Int
  totalValue : Option ℚ

/-- The two clauses that the filters can bring. -/
def trendsWhere (filters : AnalyticsFilters) (s : PipelineDailySnapshot) (p : Pipeline) : Bool :=
  (filters.businessLine.all fun line => p.businessLine = line) &&
    filters.pipelineId.all fun id => s.pipelineId = id

/-- `JOIN pipelines p ON s.pipeline_id = p.id JOIN stages st ON s.stage_id = st.id`. -/
def trendsJoin (db : TrendsDb) (filters : AnalyticsFilters) : List TrendsRow :=
  db.snapshots.filterMap fun s => do
    let p ← lookup (fun p => p.id) db.pipelines (some s.pipelineId)
    let st ← lookup (fun st => st.id) db.stages (some s.stageId)
    if trendsWhere filters s p then
      some
        { snapshotDate := s.snapshotDate
          pipelineName := p.name
          stageName := st.name
          stagePosition := st.position
          stageId := s.stageId
          dealCount := s.dealCount
          totalValue := s.totalValue }
    else none

/-- `get_trends_rows`. -/
def getTrendsRows (db : TrendsDb) (filters : AnalyticsFilters) : List TrendsRow :=
  (trendsJoin db filters).insertionSort fun a b => a.snapshotDate.day ≤ b.snapshotDate.day

/-! ## The endpoint -/

/-- `row["deal_count"] or 0`. -/
def TrendsRow.count (r : TrendsRow) : Int := r.dealCount.getD 0

/-- `float(row["total_value"] or 0)`. -/
def TrendsRow.value (r : TrendsRow) : ℚ := r.totalValue.getD 0

structure TrendPoint where
  snapshotDate : Date
  dealCount : Int
  totalValue : ℚ

structure StageTrendRow where
  pipelineName : String
  stageName : String
  stagePosition : Int
  currentDealCount : Int
  currentValue : ℚ
  prevDealCount : Int
  prevValue : ℚ
  valueDelta : ℚ

/-- `TrendsResponse`. -/
structure TrendsResponse where
  currentDate : Option Date
  comparisonDate : Option Date
  series : List TrendPoint
  weekOverWeek : List StageTrendRow

/-- The rows of a date, none when there is no date. -/
def onDate (rows : List TrendsRow) (date : Option Date) : List TrendsRow :=
  rows.filter fun r => some r.snapshotDate = date

/-- `sorted(series_map)`. -/
def trendDates (rows : List TrendsRow) : List Date :=
  (rows.map TrendsRow.snapshotDate).dedup.insertionSort fun a b => a.day ≤ b.day

/-- The entry of `series_map`. -/
def trendPoint (rows : List TrendsRow) (date : Date) : TrendPoint where
  snapshotDate := date
  dealCount := ((onDate rows (some date)).map TrendsRow.count).sum
  totalValue := ((onDate rows (some date)).map TrendsRow.value).sum

/-- `dates[-1] if dates else None`. -/
def latestDate (rows : List TrendsRow) : Option Date := (trendDates rows).getLast?

/-- The first day of the calendar, 1 January of the year 1. -/
def minDay : Int := -719162

/-- `current_date - timedelta(days=7)`. -/
def weekBefore (date : Date) : Except PyError Date :=
  if date.day - 7 < minDay then .error .overflowError else .ok ⟨date.day - 7⟩

/-- `max((d for d in dates if d <= limit), default=None)`. -/
def latestUpTo (dates : List Date) (limit : Date) : Option Date :=
  (((dates.filter fun d => d.day ≤ limit.day).map Date.day).max?).map Date.mk

def comparisonDateOf (rows : List TrendsRow) : Option Date → Except PyError (Option Date)
  | some current => do return latestUpTo (trendDates rows) (← weekBefore current)
  | none => .ok none

/-- `{r["stage_id"]: r for r in rows if r["snapshot_date"] == date}`, in the order of the keys. -/
def byStage (rows : List TrendsRow) (date : Option Date) : List TrendsRow :=
  Keyed.putAll TrendsRow.stageId (onDate rows date) []

/-- The row of a stage of the latest date. -/
def stageTrend (previous : List TrendsRow) (row : TrendsRow) : StageTrendRow :=
  let prev := previous.find? fun r => r.stageId = row.stageId
  { pipelineName := row.pipelineName
    stageName := row.stageName
    stagePosition := row.stagePosition
    currentDealCount := row.count
    currentValue := row.value
    prevDealCount := (prev.map TrendsRow.count).getD 0
    prevValue := (prev.map TrendsRow.value).getD 0
    valueDelta := row.value - (prev.map TrendsRow.value).getD 0 }

/-- `(r.pipeline_name or "", r.stage_position or 0)` is not after that of the other row. -/
def StageTrendRow.notAfter (a b : StageTrendRow) : Prop :=
  a.pipelineName < b.pipelineName ∨
    (a.pipelineName = b.pipelineName ∧ a.stagePosition ≤ b.stagePosition)

instance : DecidableRel StageTrendRow.notAfter := fun _ _ => inferInstanceAs (Decidable (_ ∨ _))

/-- `trends` on the rows of the query. -/
def trendsOf (rows : List TrendsRow) : Except PyError TrendsResponse := do
  let current := latestDate rows
  let comparison ← comparisonDateOf rows current
  return {
    currentDate := current
    comparisonDate := comparison
    series := (trendDates rows).map (trendPoint rows)
    weekOverWeek := ((byStage rows current).map
      (stageTrend (byStage rows comparison))).insertionSort StageTrendRow.notAfter }

/-- `trends`. -/
def trends (db : TrendsDb) (filters : AnalyticsFilters) : Except PyError TrendsResponse :=
  trendsOf (getTrendsRows db filters)

/-! ## What the deltas should explain -/

/-- The total value of the series on a date, 0 when there is no date. -/
def TrendsResponse.seriesValue (resp : TrendsResponse) (date : Option Date) : ℚ :=
  ((resp.series.find? fun p => some p.snapshotDate = date).map TrendPoint.totalValue).getD 0

def TrendsResponse.seriesCount (resp : TrendsResponse) (date : Option Date) : Int :=
  ((resp.series.find? fun p => some p.snapshotDate = date).map TrendPoint.dealCount).getD 0

/-- `date` is the latest date of a snapshot at least seven days before `current`. -/
def IsComparisonDate (rows : List TrendsRow) (current date : Date) : Prop :=
  date ∈ trendDates rows ∧ date.day ≤ current.day - 7 ∧
    ∀ d ∈ trendDates rows, d.day ≤ current.day - 7 → d.day ≤ date.day

/-- The response explains its series. -/
structure Explained (rows : List TrendsRow) (resp : TrendsResponse) : Prop where
  values : (resp.weekOverWeek.map StageTrendRow.valueDelta).sum =
    resp.seriesValue resp.currentDate - resp.seriesValue resp.comparisonDate
  counts : (resp.weekOverWeek.map fun r => r.currentDealCount - r.prevDealCount).sum =
    resp.seriesCount resp.currentDate - resp.seriesCount resp.comparisonDate
  comparison : ∀ date, resp.comparisonDate = some date ↔
    ∃ current, resp.currentDate = some current ∧ IsComparisonDate rows current date

/-- The comparison date that the rows have. -/
def comparisonDay (rows : List TrendsRow) : Option Date :=
  (latestDate rows).bind fun current => latestUpTo (trendDates rows) ⟨current.day - 7⟩

/-- The rows of the latest date that a row of the same stage id replaces. -/
def hiddenNow (rows : List TrendsRow) : List TrendsRow :=
  Keyed.replaced TrendsRow.stageId (onDate rows (latestDate rows))

/-- The rows of the comparison date that a row of the same stage id replaces, and those whose stage has
no row on the latest date. -/
def hiddenBefore (rows : List TrendsRow) : List TrendsRow :=
  Keyed.leftOut TrendsRow.stageId (onDate rows (latestDate rows)) (onDate rows (comparisonDay rows))

/-- What is hidden of the latest date balances what is hidden of the comparison date. -/
structure HiddenBalances (rows : List TrendsRow) : Prop where
  values : ((hiddenNow rows).map TrendsRow.value).sum = ((hiddenBefore rows).map TrendsRow.value).sum
  counts : ((hiddenNow rows).map TrendsRow.count).sum = ((hiddenBefore rows).map TrendsRow.count).sum

variable {rows : List TrendsRow} {resp : TrendsResponse} {date : Option Date}

/-! ## Dates -/

theorem latestUpTo_eq_some {dates : List Date} {limit date : Date} :
    latestUpTo dates limit = some date ↔
      date ∈ dates ∧ date.day ≤ limit.day ∧ ∀ d ∈ dates, d.day ≤ limit.day → d.day ≤ date.day := by
  rw [latestUpTo, Option.map_eq_some_iff]
  simp only [List.max?_eq_some_iff, List.mem_map, List.mem_filter, decide_eq_true_eq]
  constructor
  · rintro ⟨_, ⟨⟨d, ⟨hd, hle⟩, rfl⟩, hmax⟩, rfl⟩
    exact ⟨hd, hle, fun d' hd' hle' => hmax _ ⟨d', ⟨hd', hle'⟩, rfl⟩⟩
  · rintro ⟨hd, hle, hmax⟩
    refine ⟨date.day, ⟨⟨date, ⟨hd, hle⟩, rfl⟩, ?_⟩, rfl⟩
    rintro _ ⟨d', ⟨hd', hle'⟩, rfl⟩
    exact hmax d' hd' hle'

theorem mem_trendDates {d : Date} : d ∈ trendDates rows ↔ ∃ r ∈ rows, r.snapshotDate = d := by
  rw [trendDates, List.mem_insertionSort, List.mem_dedup, List.mem_map]

/-- What the endpoint answers, when the week before the latest date is in the calendar. -/
theorem trendsOf_eq_ok (h : trendsOf rows = .ok resp) : resp =
    { currentDate := latestDate rows
      comparisonDate := comparisonDay rows
      series := (trendDates rows).map (trendPoint rows)
      weekOverWeek := ((byStage rows (latestDate rows)).map
        (stageTrend (byStage rows (comparisonDay rows)))).insertionSort StageTrendRow.notAfter } := by
  rw [trendsOf, bind_eq_ok] at h
  obtain ⟨comparison, hcomparison, h⟩ := h
  have hday : comparison = comparisonDay rows := by
    rw [comparisonDay]
    cases hlatest : latestDate rows with
    | none =>
        rw [hlatest] at hcomparison
        cases hcomparison
        rfl
    | some current =>
        rw [hlatest, comparisonDateOf, bind_eq_ok] at hcomparison
        obtain ⟨limit, hlimit, hdone⟩ := hcomparison
        rw [weekBefore] at hlimit
        split at hlimit
        · cases hlimit
        · cases hlimit
          cases hdone
          rfl
  cases h
  rw [hday]

/-! ## The series -/

/-- The series has on a date what its rows add up to, and nothing on a date without rows. -/
theorem sum_series {M : Type*} [AddCommMonoid M] (rows : List TrendsRow) (f : TrendPoint → M)
    (g : TrendsRow → M)
    (hpoint : ∀ d, f (trendPoint rows d) = ((onDate rows (some d)).map g).sum) (date : Option Date) :
    ((((trendDates rows).map (trendPoint rows)).find? fun p => some p.snapshotDate = date).map
      f).getD 0 = ((onDate rows date).map g).sum := by
  rw [List.find?_map]
  cases hfind : (trendDates rows).find?
      ((fun p : TrendPoint => decide (some p.snapshotDate = date)) ∘ trendPoint rows) with
  | some d =>
      have hfound := List.find?_some hfind
      have hd : some d = date := of_decide_eq_true hfound
      rw [← hd]
      exact hpoint d
  | none =>
      have hnone : onDate rows date = [] := by
        apply List.filter_eq_nil_iff.2
        intro r hr hdate
        apply List.find?_eq_none.1 hfind r.snapshotDate (mem_trendDates.2 ⟨r, hr, rfl⟩)
        exact hdate
      rw [hnone]
      rfl

/-- The rows of the comparison add up as they do before they are sorted. -/
theorem sum_weekOverWeek {M : Type*} [AddCommGroup M] (rows : List TrendsRow)
    (delta : StageTrendRow → M) (g : TrendsRow → M)
    (hdelta : ∀ previous row, delta (stageTrend previous row) =
      g row - Keyed.found TrendsRow.stageId g previous row.stageId) (now before : Option Date) :
    ((((byStage rows now).map (stageTrend (byStage rows before))).insertionSort
      StageTrendRow.notAfter).map delta).sum =
    ((onDate rows now).map g).sum - ((onDate rows before).map g).sum -
      (((Keyed.replaced TrendsRow.stageId (onDate rows now)).map g).sum -
        ((Keyed.leftOut TrendsRow.stageId (onDate rows now) (onDate rows before)).map g).sum) := by
  rw [((List.perm_insertionSort _ _).map delta).sum_eq, List.map_map,
    ← Keyed.sum_differences g (onDate rows now) (onDate rows before)]
  congr 1
  apply List.map_congr_left
  intro row _
  exact hdelta _ row

/-! ## Exactness -/

/-- **Trends.** The comparison date is always the right one. The deltas add up to the change of the
series, in value and in deals, exactly when what the comparison hides balances. -/
theorem trends_explained_iff {db : TrendsDb} {filters : AnalyticsFilters} {resp : TrendsResponse}
    (h : trends db filters = .ok resp) :
    Explained (getTrendsRows db filters) resp ↔ HiddenBalances (getTrendsRows db filters) := by
  have hresp := trendsOf_eq_ok h
  generalize getTrendsRows db filters = rows at hresp ⊢
  subst hresp
  have hvalues := sum_weekOverWeek rows StageTrendRow.valueDelta TrendsRow.value
    (fun _ _ => rfl) (latestDate rows) (comparisonDay rows)
  have hcounts := sum_weekOverWeek rows
    (fun r => r.currentDealCount - r.prevDealCount) TrendsRow.count
    (fun _ _ => rfl) (latestDate rows) (comparisonDay rows)
  have hseriesValue := sum_series rows TrendPoint.totalValue TrendsRow.value fun _ => rfl
  have hseriesCount := sum_series rows TrendPoint.dealCount TrendsRow.count fun _ => rfl
  constructor
  · rintro ⟨hv, hc, -⟩
    refine ⟨?_, ?_⟩
    · dsimp only [TrendsResponse.seriesValue] at hv
      rw [hvalues, hseriesValue, hseriesValue, sub_eq_self, sub_eq_zero] at hv
      exact hv
    · dsimp only [TrendsResponse.seriesCount] at hc
      rw [hcounts, hseriesCount, hseriesCount, sub_eq_self, sub_eq_zero] at hc
      exact hc
  · rintro ⟨hv, hc⟩
    refine ⟨?_, ?_, ?_⟩
    · dsimp only [TrendsResponse.seriesValue]
      rw [hvalues, hseriesValue, hseriesValue, sub_eq_self, sub_eq_zero]
      exact hv
    · dsimp only [TrendsResponse.seriesCount]
      rw [hcounts, hseriesCount, hseriesCount, sub_eq_self, sub_eq_zero]
      exact hc
    · intro date
      dsimp only [comparisonDay]
      rw [Option.bind_eq_some_iff]
      apply exists_congr
      intro current
      apply and_congr_right
      intro _
      exact latestUpTo_eq_some

/-- Where every stage of the comparison date still has a row and no stage id occurs twice on a date, the
deltas explain the series. -/
theorem hiddenBalances_of_distinct {rows : List TrendsRow}
    (hnow : ((onDate rows (latestDate rows)).map TrendsRow.stageId).Nodup)
    (hbefore : ((onDate rows (comparisonDay rows)).map TrendsRow.stageId).Nodup)
    (hkept : ∀ r ∈ onDate rows (comparisonDay rows),
      r.stageId ∈ (onDate rows (latestDate rows)).map TrendsRow.stageId) : HiddenBalances rows := by
  have hhidden : hiddenNow rows = [] := Keyed.replaced_eq_nil hnow
  have hleft : hiddenBefore rows = [] := by
    rw [hiddenBefore, Keyed.leftOut, Keyed.replaced_eq_nil hbefore, List.nil_append,
      List.filter_eq_nil_iff]
    intro r hr
    simpa using hkept r (Keyed.mem_of_mem_lasting hr)
  exact ⟨by rw [hhidden, hleft], by rw [hhidden, hleft]⟩

/-! ## An emptied stage -/

def trendsPipeline : Pipeline where
  id := 1
  name := "Rental"
  isDefault := true
  isActive := true
  businessLine := "Leasing"

def trendsStage (id : Int) (name : String) : Stage where
  id := id
  pipelineId := 1
  name := name
  position := id
  forecastType := "Open"
  probability := none

def stageSnapshot (day stageId : Int) (count : Int) (value : ℚ) : PipelineDailySnapshot :=
  ⟨⟨day⟩, 1, stageId, some count, some value⟩

/-- Two stages of one pipeline, with these snapshots. -/
def trendsDb (snapshots : List PipelineDailySnapshot)
    (h : (snapshots.map PipelineDailySnapshot.key).Nodup) : TrendsDb where
  snapshots := snapshots
  pipelines := [trendsPipeline]
  stages := [trendsStage 10 "Negotiation", trendsStage 11 "Lease"]
  snapshots_nodup := h
  pipelines_nodup := by decide
  stages_nodup := by decide

/-- Both stages have deals a week ago and today. -/
def steadyWeek : TrendsDb :=
  trendsDb [stageSnapshot 20293 10 3 3000, stageSnapshot 20293 11 1 500,
    stageSnapshot 20300 10 5 5000, stageSnapshot 20300 11 2 900] (by decide)

/-- Their deltas explain the series. -/
theorem steady_week_explained : ∃ resp, trends steadyWeek {} = .ok resp ∧
    Explained (getTrendsRows steadyWeek {}) resp := by
  cases h : trends steadyWeek {} with
  | error e =>
      have hok : (trends steadyWeek {}).isOk = true := by decide
      rw [h] at hok
      cases hok
  | ok resp =>
      refine ⟨resp, rfl, (trends_explained_iff h).2 (hiddenBalances_of_distinct ?_ ?_ ?_)⟩
      · decide
      · decide
      · decide

/-- The deal of the first stage has moved on to the second. -/
def emptiedStage : TrendsDb :=
  trendsDb [stageSnapshot 20293 10 1 1000, stageSnapshot 20300 11 1 1000] (by decide)

/-- The series stays at 1000, and the only delta is that of the second stage. -/
theorem emptied_stage_unexplained : ∃ resp, trends emptiedStage {} = .ok resp ∧
    ¬ Explained (getTrendsRows emptiedStage {}) resp := by
  cases h : trends emptiedStage {} with
  | error e =>
      have hok : (trends emptiedStage {}).isOk = true := by decide
      rw [h] at hok
      cases hok
  | ok resp =>
      refine ⟨resp, rfl, fun hexplained => ?_⟩
      have hvalues := hexplained.values
      rw [trendsOf_eq_ok h] at hvalues
      revert hvalues
      decide +kernel

end SalesTrades.Analytics
