import Mathlib.Data.List.Infix
import SalesTrades.Analytics.Activity

/-!
# The reports agree

Overview, funnel, active pipeline and revenue forecast group the deals in scope by different columns,
nulls included, and the reports on owners, staleness and next actions join them to other tables. Each of
them has every deal in one place, so their counts and values add up to the same totals
(`reports_agree`). The rows of a report stand in no particular order here.
-/

set_option autoImplicit false

namespace SalesTrades.Analytics

open SalesTrades.Library SalesTrades.Library.GroupBy SalesTrades.Library.LeftJoin SalesTrades.Deals

/-! ## Overview -/

/-- `coalesce(business_line, 'Unassigned')`. -/
def orUnassigned (businessLine : Option String) : String := businessLine.getD "Unassigned"

structure OverviewRow where
  businessLine : String
  totalDeals : Nat
  openDeals : Nat
  openValue : ℚ
  wonDeals : Nat
  wonValue : ℚ
  lostDeals : Nat

def overviewRow (g : String × List EnrichedDeal) : OverviewRow where
  businessLine := g.1
  totalDeals := g.2.countP fun _ => true
  openDeals := g.2.countP (EnrichedDeal.hasForecast "Open")
  openValue := (sumFilter (EnrichedDeal.hasForecast "Open") EnrichedDeal.value g.2).getD 0
  wonDeals := g.2.countP (EnrichedDeal.hasForecast "Closed Won")
  wonValue := (sumFilter (EnrichedDeal.hasForecast "Closed Won") EnrichedDeal.value g.2).getD 0
  lostDeals := g.2.countP (EnrichedDeal.hasForecast "Closed Lost")

def getOverview (db : Db) (filters : AnalyticsFilters) (ownerScope : Option Int) :
    List OverviewRow :=
  (groups (fun d => orUnassigned d.businessLine) (scope db filters ownerScope)).map overviewRow

structure BusinessLineHealth extends OverviewRow where
  winRate : Option ℚ
  isBlended : Bool := false

/-- `_to_health`. -/
def toHealth (row : OverviewRow) : BusinessLineHealth :=
  { row with winRate := winRate row.wonDeals row.lostDeals }

/-- The total over the business lines. -/
def blendedRow (lines : List BusinessLineHealth) : BusinessLineHealth where
  businessLine := "All business lines"
  totalDeals := (lines.map fun line => line.totalDeals).sum
  openDeals := (lines.map fun line => line.openDeals).sum
  openValue := (lines.map fun line => line.openValue).sum
  wonDeals := (lines.map fun line => line.wonDeals).sum
  wonValue := (lines.map fun line => line.wonValue).sum
  lostDeals := (lines.map fun line => line.lostDeals).sum
  winRate := winRate (lines.map fun line => line.wonDeals).sum (lines.map fun line => line.lostDeals).sum
  isBlended := true

/-- The endpoint `overview`. -/
def overview (db : Db) (filters : AnalyticsFilters) (ownerScope : Option Int) :
    List BusinessLineHealth :=
  let lines := (getOverview db filters ownerScope).map toHealth
  if lines.isEmpty then lines else lines ++ [blendedRow lines]

/-! ## Funnel -/

/-- What the funnel is grouped by. -/
structure FunnelKey where
  businessLine : Option String
  pipelineId : Option Int
  pipelineName : Option String
  stageId : Option Int
  stageName : Option String
  stagePosition : Option Int
  forecastType : Option String
  deriving DecidableEq

def funnelKey (d : EnrichedDeal) : FunnelKey where
  businessLine := d.businessLine
  pipelineId := d.deal.row.pipelineId
  pipelineName := d.pipelineName
  stageId := d.deal.row.stageId
  stageName := d.stageName
  stagePosition := d.stagePosition
  forecastType := d.forecastType

structure StageFunnelRow where
  businessLine : String
  pipelineId : Option Int
  pipelineName : Option String
  stageId : Option Int
  stageName : Option String
  stagePosition : Option Int
  forecastType : Option String
  dealCount : Nat
  totalValue : ℚ

def stageFunnelRow (g : FunnelKey × List EnrichedDeal) : StageFunnelRow where
  businessLine := orUnassigned g.1.businessLine
  pipelineId := g.1.pipelineId
  pipelineName := g.1.pipelineName
  stageId := g.1.stageId
  stageName := g.1.stageName
  stagePosition := g.1.stagePosition
  forecastType := g.1.forecastType
  dealCount := g.2.countP fun _ => true
  totalValue := (sumFilter (fun _ => true) EnrichedDeal.value g.2).getD 0

/-- The endpoint `pipeline`, with the rows of `get_pipeline_funnel`. -/
def pipeline (db : Db) (filters : AnalyticsFilters) (ownerScope : Option Int) :
    List StageFunnelRow :=
  (groups funnelKey (scope db filters ownerScope)).map stageFunnelRow

/-! ## Active pipeline -/

/-- `ILIKE '%...%'`, with the lower case of the database's locale. -/
def ilike (lower : String → String) (text pattern : String) : Bool :=
  (lower pattern).toList <:+: (lower text).toList

/-- Why an open deal is not live. -/
def excludeReason (lower : String → String) (d : EnrichedDeal) : Option String :=
  if (d.deal.row .cfDealStatus).any fun status =>
      ilike lower status "dead" || ilike lower status "duplicate" then some "dead/duplicate"
  else if (d.deal.row .ageDays).any fun age => (730 : Int) < age then some "dormant (age > 730d)"
  else none

structure ActiveRow where
  dealId : Int
  value : Option ℚ
  excludeReason : Option String

def activeRow (lower : String → String) (d : EnrichedDeal) : ActiveRow where
  dealId := d.deal.dealId
  value := d.value
  excludeReason := excludeReason lower d

def getActivePipeline (lower : String → String) (db : Db) (filters : AnalyticsFilters)
    (ownerScope : Option Int) : List ActiveRow :=
  (select (openWhere filters ownerScope) (dealsEnriched db)).map (activeRow lower)

structure ExcludedDeal where
  dealId : Int
  reason : String

structure ActivePipelineResponse where
  liveDeals : Nat
  liveValue : ℚ
  excludedCount : Nat
  excluded : List ExcludedDeal

/-- The endpoint `active_pipeline`. -/
def activePipeline (lower : String → String) (db : Db) (filters : AnalyticsFilters)
    (ownerScope : Option Int) : ActivePipelineResponse :=
  let rows := getActivePipeline lower db filters ownerScope
  let live := rows.filter fun row => row.excludeReason.isNone
  { liveDeals := live.length
    liveValue := (live.map fun row => row.value.getD 0).sum
    excludedCount := (rows.filter fun row => row.excludeReason.isSome).length
    excluded := rows.filterMap fun row => row.excludeReason.map fun reason => ⟨row.dealId, reason⟩ }

/-! ## Revenue -/

/-- Year and month of a day of the proleptic Gregorian calendar. -/
def yearMonth (date : Date) : Int × Int :=
  -- days since the first of March of the year 0, in cycles of 400 years
  let z := date.day + 719468
  let era := z / 146097
  let dayOfEra := z % 146097
  let yearOfEra := (dayOfEra - dayOfEra / 1460 + dayOfEra / 36524 - dayOfEra / 146096) / 365
  let dayOfYear := dayOfEra - (365 * yearOfEra + yearOfEra / 4 - yearOfEra / 100)
  let march := (5 * dayOfYear + 2) / 153
  let month := if march < 10 then march + 3 else march - 9
  (yearOfEra + era * 400 + (if month ≤ 2 then 1 else 0), month)

def padLeft (width : Nat) (n : Int) : String :=
  String.ofList (List.replicate (width - (toString n).length) '0') ++ toString n

/-- `to_char(date, 'YYYY-MM')`, which counts the years before the year 1 backwards. -/
def closeMonth (date : Date) : String :=
  let (year, month) := yearMonth date
  padLeft 4 (if year ≤ 0 then 1 - year else year) ++ "-" ++ padLeft 2 month

example : closeMonth ⟨19782⟩ = "2024-02" := by decide

structure RevenueMonthRow where
  businessLine : String
  closeMonth : Option String
  wonValue : ℚ
  openValue : ℚ
  weightedOpenValue : ℚ

/-- A deal without a close date is in the group without a month. -/
def revenueKey (d : EnrichedDeal) : Option String × Option String :=
  (d.businessLine, (d.deal.row .expectedCloseDate).map closeMonth)

def revenueMonthRow (g : (Option String × Option String) × List EnrichedDeal) : RevenueMonthRow where
  businessLine := orUnassigned g.1.1
  closeMonth := g.1.2
  wonValue := (sumFilter (EnrichedDeal.hasForecast "Closed Won") EnrichedDeal.value g.2).getD 0
  openValue := (sumFilter (EnrichedDeal.hasForecast "Open") EnrichedDeal.value g.2).getD 0
  weightedOpenValue := (sumFilter (EnrichedDeal.hasForecast "Open")
    (fun d => d.value.map fun value => value * d.stageProbability.getD 0 / 100) g.2).getD 0

/-- The endpoint `revenue`, with the rows of `get_revenue_forecast`. -/
def revenue (db : Db) (filters : AnalyticsFilters) (ownerScope : Option Int) :
    List RevenueMonthRow :=
  (groups revenueKey (scope db filters ownerScope)).map revenueMonthRow

/-! ## Totals -/

variable {M : Type*} [AddCommMonoid M] {lower : String → String} {db : Db} {now : Int}
  {filters : AnalyticsFilters} {ownerScope : Option Int}

/-- The rows of the overview that are not the total. -/
def businessLines (db : Db) (filters : AnalyticsFilters) (ownerScope : Option Int) :
    List BusinessLineHealth :=
  (overview db filters ownerScope).filter fun line => !line.isBlended

theorem businessLines_eq (db : Db) (filters : AnalyticsFilters) (ownerScope : Option Int) :
    businessLines db filters ownerScope = (getOverview db filters ownerScope).map toHealth := by
  have hlines : ((getOverview db filters ownerScope).map toHealth).filter (fun line =>
      !line.isBlended) = (getOverview db filters ownerScope).map toHealth := by
    apply List.filter_eq_self.2
    intro line hline
    obtain ⟨row, -, rfl⟩ := List.mem_map.1 hline
    rfl
  rw [businessLines, overview]
  split
  · exact hlines
  · rw [List.filter_append, hlines]
    simp [blendedRow]

/-- The total follows the lines, where there are any. -/
theorem overview_eq (db : Db) (filters : AnalyticsFilters) (ownerScope : Option Int) :
    overview db filters ownerScope = businessLines db filters ownerScope ++
      if (businessLines db filters ownerScope).isEmpty then []
      else [blendedRow (businessLines db filters ownerScope)] := by
  rw [businessLines_eq, overview]
  split
  · rw [List.append_nil]
  · rfl

theorem blended_eq {b : BusinessLineHealth} (hb : b ∈ overview db filters ownerScope)
    (hblended : b.isBlended = true) : b = blendedRow (businessLines db filters ownerScope) := by
  rw [overview_eq, List.mem_append] at hb
  rcases hb with hline | htotal
  · rw [businessLines_eq, List.mem_map] at hline
    obtain ⟨row, -, rfl⟩ := hline
    cases hblended
  · split at htotal
    · cases htotal
    · exact List.mem_singleton.1 htotal

/-- What adds up over the deals of a business line adds up over the lines. -/
theorem sum_businessLines (f : BusinessLineHealth → M) (weight : EnrichedDeal → M)
    (hf : ∀ g, f (toHealth (overviewRow g)) = (g.2.map weight).sum) :
    ((businessLines db filters ownerScope).map f).sum =
      ((scope db filters ownerScope).map weight).sum := by
  rw [businessLines_eq, getOverview, List.map_map, List.map_map]
  exact sum_map_groups _ weight hf _

theorem sum_pipeline (f : StageFunnelRow → M) (weight : EnrichedDeal → M)
    (hf : ∀ g, f (stageFunnelRow g) = (g.2.map weight).sum) :
    ((pipeline db filters ownerScope).map f).sum = ((scope db filters ownerScope).map weight).sum := by
  rw [pipeline, List.map_map]
  exact sum_map_groups _ weight hf _

theorem sum_revenue (f : RevenueMonthRow → M) (weight : EnrichedDeal → M)
    (hf : ∀ g, f (revenueMonthRow g) = (g.2.map weight).sum) :
    ((revenue db filters ownerScope).map f).sum = ((scope db filters ownerScope).map weight).sum := by
  rw [revenue, List.map_map]
  exact sum_map_groups _ weight hf _

/-- The value of the deals with a forecast type. -/
def forecastValue (forecast : String) (d : EnrichedDeal) : ℚ :=
  if d.hasForecast forecast then d.value.getD 0 else 0

theorem getD_sumFilter_forecast (forecast : String) (rows : List EnrichedDeal) :
    (sumFilter (EnrichedDeal.hasForecast forecast) EnrichedDeal.value rows).getD 0 =
      (rows.map (forecastValue forecast)).sum :=
  getD_sumFilter _ _ _

theorem length_openScope : (openScope db filters ownerScope).length =
    ((scope db filters ownerScope).map fun d => if d.hasForecast "Open" then 1 else 0).sum := by
  rw [openScope, ← List.countP_eq_length_filter, countP_eq_sum]

/-! ## Live and excluded deals -/

theorem getActivePipeline_eq (lower : String → String) :
    getActivePipeline lower db filters ownerScope =
      (openScope db filters ownerScope).map (activeRow lower) := by
  rw [getActivePipeline, select_openWhere, openScope]

/-- A report has a deal once. -/
theorem nodup_openScope (db : Db) (filters : AnalyticsFilters) (ownerScope : Option Int) :
    ((openScope db filters ownerScope).map fun d => d.deal.dealId).Nodup := by
  have hsub : (openScope db filters ownerScope).Sublist (dealsEnriched db) :=
    List.filter_sublist.trans List.filter_sublist
  apply List.Nodup.sublist (hsub.map fun d => d.deal.dealId)
  have hids : ((dealsEnriched db).map fun d => d.deal.dealId) =
      db.deals.rows.map StoredDeal.dealId := by
    rw [← map_deal_dealsEnriched db, List.map_map]
    rfl
  rw [hids]
  exact db.deals.nodup

theorem activePipeline_liveDeals : (activePipeline lower db filters ownerScope).liveDeals =
    (openScope db filters ownerScope).countP fun d => (excludeReason lower d).isNone := by
  rw [activePipeline, getActivePipeline_eq]
  dsimp only
  rw [← List.countP_eq_length_filter, List.countP_map]
  rfl

theorem activePipeline_excludedCount : (activePipeline lower db filters ownerScope).excludedCount =
    (openScope db filters ownerScope).countP fun d => (excludeReason lower d).isSome := by
  rw [activePipeline, getActivePipeline_eq]
  dsimp only
  rw [← List.countP_eq_length_filter, List.countP_map]
  rfl

/-- The ids of the deals that are reported as excluded. -/
def excludedIds (lower : String → String) (db : Db) (filters : AnalyticsFilters)
    (ownerScope : Option Int) : List Int :=
  (activePipeline lower db filters ownerScope).excluded.map ExcludedDeal.dealId

theorem excludedIds_eq (lower : String → String) (db : Db) (filters : AnalyticsFilters)
    (ownerScope : Option Int) : excludedIds lower db filters ownerScope =
    ((openScope db filters ownerScope).filter fun d => (excludeReason lower d).isSome).map fun d =>
      d.deal.dealId := by
  rw [excludedIds, activePipeline, getActivePipeline_eq]
  dsimp only
  induction openScope db filters ownerScope with
  | nil => rfl
  | cons d rows ih =>
      cases hreason : excludeReason lower d with
      | none =>
          rw [List.filter_cons_of_neg (by simp [hreason]), ← ih, List.map_cons,
            List.filterMap_cons_none (by rw [activeRow, hreason]; rfl)]
      | some reason =>
          rw [List.filter_cons_of_pos (by simp [hreason]), List.map_cons, List.map_cons, ← ih,
            List.filterMap_cons_some (by rw [activeRow, hreason]; rfl), List.map_cons]

/-- An open deal is reported as excluded when it has a reason. -/
theorem mem_excludedIds_iff {d : EnrichedDeal} (hd : d ∈ openScope db filters ownerScope) :
    d.deal.dealId ∈ excludedIds lower db filters ownerScope ↔ (excludeReason lower d).isSome = true := by
  rw [excludedIds_eq, List.mem_map]
  constructor
  · rintro ⟨d', hd', hid⟩
    obtain ⟨hmem, hreason⟩ := List.mem_filter.1 hd'
    obtain rfl : d' = d :=
      List.inj_on_of_nodup_map (nodup_openScope db filters ownerScope) hmem hd hid
    exact hreason
  · exact fun hreason => ⟨d, List.mem_filter.2 ⟨hd, hreason⟩, rfl⟩

/-! ## The agreement -/

/-- The reports on one state of the tables, with one set of filters, have the same open deals, the same
number of deals and the same open and won values. -/
structure ReportsAgree (lower : String → String) (db : Db) (now : Int) (filters : AnalyticsFilters)
    (ownerScope : Option Int) : Prop where
  blended : businessLines db filters ownerScope ≠ [] →
    ∃ b ∈ overview db filters ownerScope, b.isBlended = true
  blended_totalDeals : ∀ b ∈ overview db filters ownerScope, b.isBlended = true →
    b.totalDeals = ((businessLines db filters ownerScope).map fun line => line.totalDeals).sum
  blended_openDeals : ∀ b ∈ overview db filters ownerScope, b.isBlended = true →
    b.openDeals = ((businessLines db filters ownerScope).map fun line => line.openDeals).sum
  blended_openValue : ∀ b ∈ overview db filters ownerScope, b.isBlended = true →
    b.openValue = ((businessLines db filters ownerScope).map fun line => line.openValue).sum
  blended_wonValue : ∀ b ∈ overview db filters ownerScope, b.isBlended = true →
    b.wonValue = ((businessLines db filters ownerScope).map fun line => line.wonValue).sum
  owners_openDeals : ((owners db now filters ownerScope).map fun o => o.openDeals).sum =
    ((businessLines db filters ownerScope).map fun line => line.openDeals).sum
  staleness_openDeals : (staleness db now filters ownerScope).openDeals =
    ((businessLines db filters ownerScope).map fun line => line.openDeals).sum
  nextActions_openDeals : (nextActions db now filters ownerScope).openDeals =
    ((businessLines db filters ownerScope).map fun line => line.openDeals).sum
  activePipeline_openDeals : (activePipeline lower db filters ownerScope).liveDeals +
      (activePipeline lower db filters ownerScope).excludedCount =
    ((businessLines db filters ownerScope).map fun line => line.openDeals).sum
  excluded_length : (activePipeline lower db filters ownerScope).excluded.length =
    (activePipeline lower db filters ownerScope).excludedCount
  excluded_once : (excludedIds lower db filters ownerScope).Nodup
  excluded_open : ∀ id ∈ excludedIds lower db filters ownerScope,
    ∃ d ∈ openScope db filters ownerScope, d.deal.dealId = id
  live_others : (activePipeline lower db filters ownerScope).liveDeals =
    (openScope db filters ownerScope).countP fun d =>
      d.deal.dealId ∉ excludedIds lower db filters ownerScope
  pipeline_totalDeals : ((pipeline db filters ownerScope).map StageFunnelRow.dealCount).sum =
    ((businessLines db filters ownerScope).map fun line => line.totalDeals).sum
  owners_totalDeals : ((owners db now filters ownerScope).map fun o => o.totalDeals).sum =
    ((businessLines db filters ownerScope).map fun line => line.totalDeals).sum
  owners_openValue : ((owners db now filters ownerScope).map fun o => o.openValue).sum =
    ((businessLines db filters ownerScope).map fun line => line.openValue).sum
  owners_wonValue : ((owners db now filters ownerScope).map fun o => o.wonValue).sum =
    ((businessLines db filters ownerScope).map fun line => line.wonValue).sum
  revenue_openValue : ((revenue db filters ownerScope).map RevenueMonthRow.openValue).sum =
    ((businessLines db filters ownerScope).map fun line => line.openValue).sum
  revenue_wonValue : ((revenue db filters ownerScope).map RevenueMonthRow.wonValue).sum =
    ((businessLines db filters ownerScope).map fun line => line.wonValue).sum

theorem sum_businessLines_openDeals :
    ((businessLines db filters ownerScope).map fun line => line.openDeals).sum =
      (openScope db filters ownerScope).length := by
  rw [length_openScope]
  exact sum_businessLines _ _ fun g => countP_eq_sum _ g.2

theorem sum_businessLines_totalDeals :
    ((businessLines db filters ownerScope).map fun line => line.totalDeals).sum =
      (scope db filters ownerScope).countP fun _ => true := by
  rw [countP_eq_sum]
  exact sum_businessLines _ _ fun g => countP_eq_sum _ g.2

theorem sum_owners_openDeals :
    ((owners db now filters ownerScope).map fun o => o.openDeals).sum =
      (openScope db filters ownerScope).length := by
  rw [openScope, ← List.countP_eq_length_filter]
  exact sum_countP_owners _ _ _ (fun _ _ => rfl) fun _ _ => rfl

/-- The value of an owner's deals with a forecast type, over all owners. -/
theorem sum_owners_forecastValue (f : OwnerAccountability → ℚ) (forecast : String)
    (hf : ∀ g winRate, f { ownerRow filters.staleDays.1 g with winRate } =
      (sumFilter (OwnerBase.hasForecast forecast) OwnerBase.value g.2).getD 0) :
    ((owners db now filters ownerScope).map f).sum =
      ((scope db filters ownerScope).map (forecastValue forecast)).sum :=
  sum_owners f (fun b => if b.hasForecast forecast then b.value.getD 0 else 0) fun g winRate => by
    rw [hf, getD_sumFilter]

/-- **The agreement of the reports.** -/
theorem reports_agree (lower : String → String) (db : Db) (now : Int) (filters : AnalyticsFilters)
    (ownerScope : Option Int) : ReportsAgree lower db now filters ownerScope where
  blended hlines := by
    refine ⟨blendedRow (businessLines db filters ownerScope), ?_, rfl⟩
    rw [overview_eq, if_neg (by simpa using hlines)]
    exact List.mem_append_right _ (List.mem_singleton_self _)
  blended_totalDeals b hb hblended := by rw [blended_eq hb hblended]; rfl
  blended_openDeals b hb hblended := by rw [blended_eq hb hblended]; rfl
  blended_openValue b hb hblended := by rw [blended_eq hb hblended]; rfl
  blended_wonValue b hb hblended := by rw [blended_eq hb hblended]; rfl
  owners_openDeals := by rw [sum_owners_openDeals, sum_businessLines_openDeals]
  staleness_openDeals := by
    rw [sum_businessLines_openDeals, staleness, getStaleness, selectWithOwner_eq_map,
      select_openWhere, ← openScope]
    dsimp only
    rw [List.length_map, List.length_map]
  nextActions_openDeals := by
    rw [sum_businessLines_openDeals, nextActions, select_openWhere, ← openScope]
  activePipeline_openDeals := by
    rw [activePipeline_liveDeals, activePipeline_excludedCount, sum_businessLines_openDeals,
      List.length_eq_countP_add_countP fun d => (excludeReason lower d).isNone]
    congr 1
    apply List.countP_congr
    intro d _
    cases excludeReason lower d <;> simp
  excluded_length := by
    have hids := congrArg List.length (excludedIds_eq lower db filters ownerScope)
    rw [activePipeline_excludedCount, List.countP_eq_length_filter]
    simpa [excludedIds] using hids
  excluded_once := by
    rw [excludedIds_eq]
    exact (nodup_openScope db filters ownerScope).sublist (List.filter_sublist.map _)
  excluded_open id hid := by
    rw [excludedIds_eq, List.mem_map] at hid
    obtain ⟨d, hd, rfl⟩ := hid
    exact ⟨d, (List.mem_filter.1 hd).1, rfl⟩
  live_others := by
    rw [activePipeline_liveDeals]
    apply List.countP_congr
    intro d hd
    rw [decide_eq_true_iff, mem_excludedIds_iff hd]
    cases excludeReason lower d <;> simp
  pipeline_totalDeals := by
    rw [sum_businessLines_totalDeals, countP_eq_sum]
    exact sum_pipeline _ _ fun g => countP_eq_sum _ g.2
  owners_totalDeals := by
    rw [sum_businessLines_totalDeals]
    exact sum_countP_owners _ _ _ (fun _ _ => rfl) fun _ _ => rfl
  owners_openValue := by
    rw [sum_owners_forecastValue _ "Open" fun _ _ => rfl,
      sum_businessLines _ (forecastValue "Open") fun g => getD_sumFilter_forecast _ g.2]
  owners_wonValue := by
    rw [sum_owners_forecastValue _ "Closed Won" fun _ _ => rfl,
      sum_businessLines _ (forecastValue "Closed Won") fun g => getD_sumFilter_forecast _ g.2]
  revenue_openValue := by
    rw [sum_revenue _ (forecastValue "Open") fun g => getD_sumFilter_forecast _ g.2,
      sum_businessLines _ (forecastValue "Open") fun g => getD_sumFilter_forecast _ g.2]
  revenue_wonValue := by
    rw [sum_revenue _ (forecastValue "Closed Won") fun g => getD_sumFilter_forecast _ g.2,
      sum_businessLines _ (forecastValue "Closed Won") fun g => getD_sumFilter_forecast _ g.2]

end SalesTrades.Analytics
