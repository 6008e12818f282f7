import SalesTrades.Analytics.Agreement
import SalesTrades.Analytics.DailySnapshot
import SalesTrades.Analytics.Trends

/-!
# The valuation of the trends

The reports value a deal at `coalesce(base_currency_amount, amount)`. The daily snapshot sums `amount`, and
the trends show that sum, with the rows of stages that were emptied since an earlier run of the day. So the
value of the day is that of the funnel exactly when the two differences cancel
(`trends_valued_alike_iff`).
-/

set_option autoImplicit false

namespace SalesTrades.Analytics

open SalesTrades.Library SalesTrades.Library.GroupBy SalesTrades.Library.LeftJoin SalesTrades.Deals

variable {db : Db} {today : Date} {daily : DailyTable} {tdb : TrendsDb}

/-! ## The tables -/

/-- A row of the daily snapshot as the trends read it. -/
def DailyRow.snapshot (row : DailyRow) : PipelineDailySnapshot where
  snapshotDate := row.snapshotDate
  pipelineId := row.pipelineId
  stageId := row.stageId
  dealCount := some row.dealCount
  totalValue := some row.totalValue

/-- The trends read the tables of the other reports, and the daily snapshot in some order. -/
structure ReadsTables (tdb : TrendsDb) (db : Db) (daily : DailyTable) : Prop where
  snapshots : tdb.snapshots.Perm (daily.rows.map DailyRow.snapshot)
  pipelines : tdb.pipelines = db.pipelines
  stages : tdb.stages = db.stages

theorem nodup_snapshots (daily : DailyTable) :
    ((daily.rows.map DailyRow.snapshot).map PipelineDailySnapshot.key).Nodup := by
  rw [List.map_map]
  exact daily.nodup

/-- The tables of the trends, with the snapshot in the order of its rows. -/
def trendsTables (db : Db) (daily : DailyTable) : TrendsDb where
  snapshots := daily.rows.map DailyRow.snapshot
  pipelines := db.pipelines
  stages := db.stages
  snapshots_nodup := nodup_snapshots daily
  pipelines_nodup := db.pipelines_nodup
  stages_nodup := db.stages_nodup

theorem readsTables_trendsTables (db : Db) (daily : DailyTable) :
    ReadsTables (trendsTables db daily) db daily :=
  ⟨List.Perm.refl _, rfl, rfl⟩

/-- The tables know the pipeline and the stage. -/
def isKnown (db : Db) (pair : Int × Int) : Bool :=
  (lookup (fun p => p.id) db.pipelines (some pair.1)).isSome &&
    (lookup (fun s => s.id) db.stages (some pair.2)).isSome

/-- The deals with a known pipeline and stage. -/
def knownDeals (db : Db) : List EnrichedDeal :=
  (dealsEnriched db).filter fun d => d.pipeline.isSome && d.stage.isSome

/-- What the reports value a deal at. -/
def dealValue (d : EnrichedDeal) : ℚ := d.value.getD 0

/-- What the snapshot values a deal at. -/
def dealAmount (d : EnrichedDeal) : ℚ := (d.deal.row .amount).getD 0

/-- The rows of today for stages that have no deals any more. -/
def emptiedRows (today : Date) (db : Db) (daily : DailyTable) : List DailyRow :=
  daily.rows.filter fun row =>
    row.snapshotDate = today && isKnown db row.pair && !decide (db.deals.Populated row.pair)

/-! ## The snapshot of the day -/

/-- A deal is known when it has a pair that the tables know. -/
theorem isSome_iff_isKnown (d : StoredDeal) :
    ((lookup (fun p => p.id) db.pipelines d.row.pipelineId).isSome &&
      (lookup (fun s => s.id) db.stages d.row.stageId).isSome) = d.pair.any (isKnown db) := by
  rw [StoredDeal.pair]
  cases d.row.pipelineId with
  | none => rw [lookup_none]; rfl
  | some pipelineId =>
      cases d.row.stageId with
      | none => rw [lookup_none, Option.isSome_none, Bool.and_false]; rfl
      | some stageId => rfl

theorem sum_knownDeals (weight : DealRow → ℚ) :
    ((knownDeals db).map fun d => weight d.deal.row).sum = (db.deals.rows.map fun d =>
      if d.pair.any (isKnown db) then weight d.row else 0).sum := by
  rw [knownDeals, dealsEnriched_eq_map, sum_map_filter, List.map_map]
  apply congrArg List.sum
  apply List.map_congr_left
  intro d _
  simp only [Function.comp_apply, isSome_iff_isKnown]

/-- The roll-up sums the amounts of the known deals. -/
theorem sum_rollUp : (((rollUp today db.deals).filter fun row => isKnown db row.pair).map
    DailyRow.totalValue).sum = ((knownDeals db).map dealAmount).sum := by
  have hrow : ∀ g : (Int × Int) × List ((Int × Int) × StoredDeal),
      (rollUpRow today g.1 (g.2.map Prod.snd)).totalValue =
        (g.2.map fun p => (p.2.row .amount).getD 0).sum := by
    intro g
    rw [rollUpRow]
    dsimp only
    rw [getD_sumFilter, List.map_map]
    rfl
  have hgroups : (((groups Prod.fst db.deals.paired).filter fun g => isKnown db g.1).map fun g =>
      (g.2.map fun p => (p.2.row .amount).getD 0).sum).sum =
        ((db.deals.paired.filter fun p => isKnown db p.1).map fun p =>
          (p.2.row .amount).getD 0).sum := sum_filter_groups _ _ _
  have hpaired : ((db.deals.paired.filter fun p => isKnown db p.1).map fun p =>
      (p.2.row .amount).getD 0).sum = (db.deals.rows.map fun d =>
        if d.pair.any (isKnown db) then (d.row .amount).getD 0 else 0).sum := by
    rw [sum_map_filter, DealTable.paired, List.map_filterMap, sum_filterMap]
    apply congrArg List.sum
    apply List.map_congr_left
    intro d _
    cases d.pair with
    | none => rfl
    | some pair => rfl
  have hcolumn : (DailyRow.totalValue ∘ fun g : (Int × Int) × List ((Int × Int) × StoredDeal) =>
      rollUpRow today g.1 (g.2.map Prod.snd)) = fun g =>
        (g.2.map fun p => (p.2.row .amount).getD 0).sum := funext hrow
  rw [rollUp, List.filter_map, List.map_map, hcolumn]
  exact hgroups.trans (hpaired.trans (sum_knownDeals fun row => (row .amount).getD 0).symm)

/-- The rows of today are those of the roll-up and those of emptied stages. -/
theorem todayRows_perm : ((writeTodaySnapshot today db.deals daily).1.rows.filter fun row =>
    row.snapshotDate = today && isKnown db row.pair).Perm
      (((rollUp today db.deals).filter fun row => isKnown db row.pair) ++
        emptiedRows today db daily) := by
  have hrolled : ∀ row ∈ rollUp today db.deals,
      row.snapshotDate = today ∧ db.deals.Populated row.pair := by
    intro row hrow
    obtain ⟨pair, hpair, rfl⟩ := mem_rollUp.1 hrow
    exact ⟨rfl, hpair⟩
  apply (List.perm_ext_iff_of_nodup _ _).2
  · intro row
    rw [List.mem_filter, mem_writeTodaySnapshot, List.mem_append, List.mem_filter, emptiedRows,
      List.mem_filter]
    simp only [Bool.and_eq_true, decide_eq_true_eq, Bool.not_eq_true', decide_eq_false_iff_not]
    constructor
    · rintro ⟨hroll | ⟨hold, hnot⟩, hday, hknown⟩
      · exact Or.inl ⟨hroll, hknown⟩
      · exact Or.inr ⟨hold, ⟨hday, hknown⟩, fun hpair => hnot ⟨hday, hpair⟩⟩
    · rintro (⟨hroll, hknown⟩ | ⟨hold, ⟨hday, hknown⟩, hempty⟩)
      · exact ⟨Or.inl hroll, (hrolled row hroll).1, hknown⟩
      · exact ⟨Or.inr ⟨hold, fun h => hempty h.2⟩, hday, hknown⟩
  · exact (List.Nodup.of_map _ (writeTodaySnapshot today db.deals daily).1.nodup).filter _
  · apply List.Nodup.append
    · exact (List.Nodup.of_map _ (nodup_keys_rollUp today db.deals)).filter _
    · exact (List.Nodup.of_map _ daily.nodup).filter _
    · -- a rolled-up stage has deals
      intro row hroll hempty
      have hpair := (hrolled row (List.mem_of_mem_filter hroll)).2
      have hnot := (List.mem_filter.1 hempty).2
      simp [hpair] at hnot

/-! ## The series -/

/-- What the trends show for a day: the rows of the snapshot with a known pipeline and stage. -/
theorem sum_onDate (h : ReadsTables tdb db daily) (date : Date) :
    ((onDate (getTrendsRows tdb {}) (some date)).map TrendsRow.value).sum =
      ((daily.rows.filter fun row => row.snapshotDate = date && isKnown db row.pair).map
        DailyRow.totalValue).sum := by
  have hsorted : (onDate (getTrendsRows tdb {}) (some date)).Perm
      (onDate (trendsJoin tdb {}) (some date)) :=
    (List.perm_insertionSort _ _).filter _
  have hjoin : (trendsJoin tdb {}).Perm ((daily.rows.map DailyRow.snapshot).filterMap fun s => do
      let p ← lookup (fun p => p.id) db.pipelines (some s.pipelineId)
      let st ← lookup (fun st => st.id) db.stages (some s.stageId)
      some (⟨s.snapshotDate, p.name, st.name, st.position, s.stageId, s.dealCount, s.totalValue⟩ :
        TrendsRow)) := by
    rw [trendsJoin, h.pipelines, h.stages]
    exact h.snapshots.filterMap _
  rw [((hsorted.trans (hjoin.filter _)).map _).sum_eq, sum_map_filter, sum_map_filter,
    List.filterMap_map, List.map_filterMap, sum_filterMap]
  apply congrArg List.sum
  apply List.map_congr_left
  intro row _
  rw [isKnown, DailyRow.pair]
  rcases Option.eq_none_or_eq_some (lookup (fun p => p.id) db.pipelines (some row.pipelineId)) with
    hp | ⟨p, hp⟩
  · simp [DailyRow.snapshot, hp]
  · rcases Option.eq_none_or_eq_some (lookup (fun s => s.id) db.stages (some row.stageId)) with
      hs | ⟨s, hs⟩
    · simp [DailyRow.snapshot, hp, hs]
    · simp [DailyRow.snapshot, hp, hs, TrendsRow.value]

/-- The value of today, after the snapshot is written. -/
theorem sum_today
    (h : ReadsTables tdb db (writeTodaySnapshot today db.deals daily).1) :
    ((onDate (getTrendsRows tdb {}) (some today)).map TrendsRow.value).sum =
      ((knownDeals db).map dealAmount).sum +
        ((emptiedRows today db daily).map DailyRow.totalValue).sum := by
  rw [sum_onDate h, (todayRows_perm.map _).sum_eq, List.map_append, List.sum_append, sum_rollUp]

/-- The endpoint answers unless the latest snapshot is of the first week of the calendar. -/
theorem trends_ok_iff : (∃ resp, trends tdb {} = .ok resp) ↔
    ∀ date, latestDate (getTrendsRows tdb {}) = some date → minDay ≤ date.day - 7 := by
  rw [trends, trendsOf]
  cases hlatest : latestDate (getTrendsRows tdb {}) with
  | none => simp [comparisonDateOf]
  | some current =>
      by_cases hweek : current.day - 7 < minDay
      · simp [comparisonDateOf, weekBefore, hweek, bind, Except.bind]
      · simp [comparisonDateOf, weekBefore, hweek, bind, Except.bind, pure, Except.pure, not_lt.1 hweek]

/-! ## The funnel -/

/-- The funnel's total for the deals with a known pipeline and stage. -/
def funnelTotal (db : Db) : ℚ :=
  (((pipeline db {} none).filter fun row => row.pipelineName.isSome && row.stageName.isSome).map
    StageFunnelRow.totalValue).sum

theorem funnelTotal_eq (db : Db) : funnelTotal db = ((knownDeals db).map dealValue).sum := by
  have hrow : ∀ g : FunnelKey × List EnrichedDeal,
      (stageFunnelRow g).totalValue = (g.2.map dealValue).sum := by
    intro g
    rw [stageFunnelRow]
    dsimp only
    rw [getD_sumFilter]
    rfl
  have hcolumn : StageFunnelRow.totalValue ∘ stageFunnelRow = fun g => (g.2.map dealValue).sum :=
    funext hrow
  have hall : scope db {} none = dealsEnriched db := List.filter_true _
  have hgroups : (((groups funnelKey (dealsEnriched db)).filter fun g =>
      g.1.pipelineName.isSome && g.1.stageName.isSome).map fun g => (g.2.map dealValue).sum).sum =
        (((dealsEnriched db).filter fun d =>
          (funnelKey d).pipelineName.isSome && (funnelKey d).stageName.isSome).map dealValue).sum :=
    sum_filter_groups (fun key : FunnelKey => key.pipelineName.isSome && key.stageName.isSome) _ _
  rw [funnelTotal, pipeline, List.filter_map, List.map_map, hcolumn, hall, knownDeals]
  apply hgroups.trans
  congr 2
  apply List.filter_congr
  intro d _
  simp [funnelKey, EnrichedDeal.pipelineName, EnrichedDeal.stageName]

/-! ## Agreement -/

/-- The trends value the deals of the day as the funnel does. -/
structure TrendsValuedAlike (today : Date) (db : Db) (tdb : TrendsDb) : Prop where
  value : ∃ resp, trends tdb {} = .ok resp ∧
    resp.seriesValue (some today) = ((knownDeals db).map dealValue).sum
  funnel : ((knownDeals db).map dealValue).sum = funnelTotal db

theorem seriesValue_today
    (h : ReadsTables tdb db (writeTodaySnapshot today db.deals daily).1) {resp : TrendsResponse}
    (hresp : trends tdb {} = .ok resp) : resp.seriesValue (some today) =
      ((knownDeals db).map dealAmount).sum +
        ((emptiedRows today db daily).map DailyRow.totalValue).sum := by
  rw [← sum_today h, trendsOf_eq_ok hresp]
  exact sum_series _ TrendPoint.totalValue TrendsRow.value (fun _ => rfl) _

/-- The differences between the two valuations are made up for by emptied stages. -/
def ValuationsBalance (today : Date) (db : Db) (daily : DailyTable) : Prop :=
  ((knownDeals db).map fun d => dealValue d - dealAmount d).sum =
    ((emptiedRows today db daily).map DailyRow.totalValue).sum

theorem valuationsBalance_iff : ValuationsBalance today db daily ↔
    ((knownDeals db).map dealAmount).sum + ((emptiedRows today db daily).map DailyRow.totalValue).sum =
      ((knownDeals db).map dealValue).sum := by
  have hvalue : ((knownDeals db).map dealValue).sum =
      ((knownDeals db).map fun d => dealValue d - dealAmount d).sum +
        ((knownDeals db).map dealAmount).sum := by
    rw [← List.sum_map_add]
    simp only [sub_add_cancel]
  rw [ValuationsBalance, hvalue, add_comm, add_left_inj, eq_comm]

/-- **Exactness of the valuation.** -/
theorem trends_valued_alike_iff (today : Date) (db : Db) (daily : DailyTable) (tdb : TrendsDb)
    (h : ReadsTables tdb db (writeTodaySnapshot today db.deals daily).1) :
    TrendsValuedAlike today db tdb ↔
      (∀ date, latestDate (getTrendsRows tdb {}) = some date → minDay ≤ date.day - 7) ∧
        ValuationsBalance today db daily := by
  rw [← trends_ok_iff, valuationsBalance_iff]
  constructor
  · rintro ⟨⟨resp, hresp, hvalue⟩, -⟩
    exact ⟨⟨resp, hresp⟩, (seriesValue_today h hresp).symm.trans hvalue⟩
  · rintro ⟨⟨resp, hresp⟩, hbalance⟩
    exact ⟨⟨resp, hresp, (seriesValue_today h hresp).trans hbalance⟩, (funnelTotal_eq db).symm⟩

/-! ## A deal in another currency -/

theorem oneStage_nodup : ([⟨⟨10, 1, "Negotiation"⟩, 1, "Open", none⟩].map fun s : Stage =>
    s.id).Nodup := List.nodup_singleton 10

theorem onePipeline_nodup : ([⟨⟨1, "Rental", true, true⟩, "Leasing"⟩].map fun p : Pipeline =>
    p.id).Nodup := List.nodup_singleton 1

/-- A deal of 1000, with this amount in the base currency. -/
def pricedDeal (base : Option ℚ) : StoredDeal where
  dealId := 1
  row := Function.update (Function.update (Function.update (Function.update PartialRecord.empty
    .pipelineId (some 1)) .stageId (some 10)) .amount (some 1000)) .baseCurrencyAmount base

def pricedDb (base : Option ℚ) : Db where
  deals := DealTable.empty.put (pricedDeal base)
  stages := [⟨⟨10, 1, "Negotiation"⟩, 1, "Open", none⟩]
  pipelines := [⟨⟨1, "Rental", true, true⟩, "Leasing"⟩]
  owners := []
  tasks := []
  emails := []
  events := []
  stages_nodup := oneStage_nodup
  pipelines_nodup := onePipeline_nodup
  owners_nodup := List.nodup_nil

/-- The tables after the first snapshot. -/
def pricedTables (base : Option ℚ) : TrendsDb :=
  trendsTables (pricedDb base)
    (writeTodaySnapshot ⟨20300⟩ (pricedDb base).deals DailyTable.empty).1

theorem reads_pricedTables (base : Option ℚ) : ReadsTables (pricedTables base) (pricedDb base)
    (writeTodaySnapshot ⟨20300⟩ (pricedDb base).deals DailyTable.empty).1 :=
  readsTables_trendsTables _ _

/-- Without an amount in the base currency the two valuations are the same. -/
theorem valued_alike_one_currency : TrendsValuedAlike ⟨20300⟩ (pricedDb none) (pricedTables none) := by
  apply (trends_valued_alike_iff ⟨20300⟩ (pricedDb none) DailyTable.empty (pricedTables none)
    (reads_pricedTables none)).2
  constructor
  · intro date hdate
    have hlatest : latestDate (getTrendsRows (pricedTables none) {}) = some ⟨20300⟩ := by
      decide +kernel
    rw [hlatest] at hdate
    cases hdate
    decide
  · unfold ValuationsBalance
    decide +kernel

/-- The deal is worth 1500 in the base currency, and the trends show 1000. -/
theorem other_currency_misvalued :
    ¬ TrendsValuedAlike ⟨20300⟩ (pricedDb (some 1500)) (pricedTables (some 1500)) := by
  rintro ⟨⟨resp, hresp, hvalue⟩, -⟩
  rw [seriesValue_today (reads_pricedTables (some 1500)) hresp] at hvalue
  revert hvalue
  decide +kernel

end SalesTrades.Analytics
