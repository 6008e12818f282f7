import SalesTrades.Deals.DealRuns
import SalesTrades.Library.Keyed
import SalesTrades.Library.LeftJoin

/-!
# The tables behind the reports

The reports read `deals_snapshot` as a list of rows with its primary key. What webhooks and syncs leave
in the deals mirror is such a table (`DealTable.lists_of_run`). `deals_enriched` is the view that joins a
deal to its stage and its pipeline. It has one row for each deal (`map_deal_dealsEnriched`).
-/

set_option autoImplicit false

namespace SalesTrades.Analytics

open SalesTrades.Library SalesTrades.Library.LeftJoin SalesTrades.Deals

/-! ## The deals -/

/-- A row of `deals_snapshot`, with its key. -/
structure StoredDeal where
  dealId : Int
  row : DealRow

/-- `deals_snapshot`. -/
structure DealTable where
  rows : List StoredDeal
  nodup : (rows.map StoredDeal.dealId).Nodup

namespace DealTable

def empty : DealTable where
  rows := []
  nodup := List.nodup_nil

/-- A deal stored under its id. -/
def put (table : DealTable) (d : StoredDeal) : DealTable where
  rows := Keyed.put StoredDeal.dealId d table.rows
  nodup := Keyed.nodup_put table.nodup

variable {ref : Reference} {table : DealTable} {db db' : DealDb ref}

/-- The rows are those of the mirror. -/
def Lists (table : DealTable) (db : DealDb ref) : Prop :=
  ∀ d : StoredDeal, d ∈ table.rows ↔ db.deals d.dealId = some d.row

theorem lists_empty (ref : Reference) : empty.Lists (DealDb.empty ref) := by
  intro d
  constructor
  · intro h
    cases h
  · intro h
    cases h

/-- A row that changes in both. -/
theorem Lists.of_row (h : table.Lists db) {d : StoredDeal} (hrow : db'.deals d.dealId = some d.row)
    (hother : ∀ id, id ≠ d.dealId → db'.deals id = db.deals id) : (table.put d).Lists db' := by
  intro d'
  rw [put, Keyed.mem_put]
  by_cases hid : d'.dealId = d.dealId
  · rw [hid, hrow, Option.some.injEq]
    constructor
    · rintro (⟨-, hne⟩ | rfl)
      · exact absurd rfl hne
      · rfl
    · intro hsame
      obtain ⟨id, row⟩ := d'
      obtain rfl : id = d.dealId := hid
      obtain rfl : d.row = row := hsame
      exact Or.inr rfl
  · rw [hother _ hid, ← h d']
    constructor
    · rintro (⟨hmem, -⟩ | rfl)
      · exact hmem
      · exact absurd rfl hid
    · exact fun hmem => Or.inl ⟨hmem, hid⟩

/-- The table after some deals are stored. -/
def store (table : DealTable) (ds : List StoredDeal) : DealTable := ds.foldl put table

theorem store_append (ds ds' : List StoredDeal) :
    table.store (ds ++ ds') = (table.store ds).store ds' :=
  List.foldl_append

variable {lib : PyLib} {viewIds : List Int}

theorem Lists.record (h : table.Lists db) {deal : Json} (hstep : recordStep lib deal db = some db') :
    ∃ ds, (table.store ds).Lists db' := by
  rcases recordStep_cases hstep with ⟨rfl, -⟩ | ⟨_, _, id, -, -, -, hrow, hother, -⟩
  · exact ⟨[], h⟩
  · exact ⟨[⟨id, _⟩], h.of_row hrow hother⟩

theorem Lists.records (h : table.Lists db) {deals : List Json}
    (hrun : Run.exec (recordStep lib) deals db = some db') : ∃ ds, (table.store ds).Lists db' := by
  induction deals generalizing table db with
  | nil =>
      cases hrun
      exact ⟨[], h⟩
  | cons deal deals ih =>
      obtain ⟨next, hnext, hrest⟩ := Run.exec_cons_eq_some.1 hrun
      obtain ⟨ds, hds⟩ := h.record hnext
      obtain ⟨ds', hds'⟩ := ih hds hrest
      exact ⟨ds ++ ds', by rwa [store_append]⟩

/-- A webhook or a sync stores some deals. -/
theorem Lists.dealStep (h : table.Lists db) {op : DealOp}
    (hstep : dealStep lib viewIds op db = some db') : ∃ ds, (table.store ds).Lists db' := by
  cases op with
  | webhook now payload =>
      rcases dealStep_webhook hstep with rfl | ⟨r, hread, hok⟩
      · exact ⟨[], h⟩
      · obtain ⟨-, hrow, hother, -⟩ := ingestWebhook_spec hread hok
        exact ⟨[⟨r.webhook.dealId, _⟩], h.of_row hrow hother⟩
  | sync feed =>
      cases hstep
      obtain ⟨part, -, hpart⟩ := runDealSync_prefix lib viewIds feed db
      exact h.records hpart

/-- **The mirror is a table.** A run of webhooks and syncs stores a list of deals, and what it leaves is
the table of them. -/
theorem lists_of_run {ops : List DealOp}
    (hrun : Run.exec (Deals.dealStep lib viewIds) ops (DealDb.empty ref) = some db) :
    ∃ ds, (empty.store ds).Lists db := by
  apply Run.exec_invariant (I := fun db => ∃ ds, (empty.store ds).Lists db) _ ⟨[], lists_empty ref⟩ hrun
  rintro op db db' ⟨ds, hds⟩ hstep
  obtain ⟨ds', hds'⟩ := hds.dealStep hstep
  exact ⟨ds ++ ds', by rwa [store_append]⟩

end DealTable

/-! ## The other tables -/

/-- `stages`, with the columns that only the reports read. -/
structure Stage extends Deals.Stage where
  position : Int
  forecastType : String
  probability : Option ℚ

/-- `pipelines`, with the column that only the reports read. -/
structure Pipeline extends Deals.Pipeline where
  businessLine : String

structure Owner where
  id : Int
  displayName : String

/-- `tasks_snapshot`. Times are instants, in microseconds. -/
structure TaskSnapshot where
  dealId : Option Int
  status : Option String
  dueDate : Option Int
  completedDate : Option Int

/-- `email_activity`. -/
structure EmailActivity where
  dealId : Int
  conversationTime : Int

/-- What the reports read. -/
structure Db where
  deals : DealTable
  stages : List Stage
  pipelines : List Pipeline
  owners : List Owner
  tasks : List TaskSnapshot
  emails : List EmailActivity
  events : List DealEvent
  stages_nodup : (stages.map fun s => s.id).Nodup
  pipelines_nodup : (pipelines.map fun p => p.id).Nodup
  owners_nodup : (owners.map Owner.id).Nodup

/-! ## The view -/

/-- A row of `deals_enriched`. -/
structure EnrichedDeal where
  deal : StoredDeal
  stage : Option Stage
  pipeline : Option Pipeline

def dealsEnriched (db : Db) : List EnrichedDeal :=
  (leftJoin (fun d => d.1.row.pipelineId) (fun p => p.id)
    (leftJoin (fun d => d.row.stageId) (fun s => s.id) db.deals.rows db.stages)
    db.pipelines).map fun d => ⟨d.1.1, d.1.2, d.2⟩

/-- The stage and the pipeline of a deal are those that its ids name. -/
theorem dealsEnriched_eq_map (db : Db) :
    dealsEnriched db = db.deals.rows.map fun d =>
      ⟨d, lookup (fun s => s.id) db.stages d.row.stageId,
        lookup (fun p => p.id) db.pipelines d.row.pipelineId⟩ := by
  rw [dealsEnriched, leftJoin_eq_map db.pipelines_nodup, leftJoin_eq_map db.stages_nodup,
    List.map_map, List.map_map]
  rfl

/-- One row for each deal. -/
theorem map_deal_dealsEnriched (db : Db) :
    (dealsEnriched db).map EnrichedDeal.deal = db.deals.rows := by
  rw [dealsEnriched_eq_map, List.map_map]
  exact List.map_id _

namespace EnrichedDeal

def forecastType (d : EnrichedDeal) : Option String := d.stage.map Stage.forecastType

def stageProbability (d : EnrichedDeal) : Option ℚ := d.stage.bind Stage.probability

def stageName (d : EnrichedDeal) : Option String := d.stage.map fun s => s.name

def stagePosition (d : EnrichedDeal) : Option Int := d.stage.map Stage.position

def pipelineName (d : EnrichedDeal) : Option String := d.pipeline.map fun p => p.name

def businessLine (d : EnrichedDeal) : Option String := d.pipeline.map Pipeline.businessLine

/-- `_VALUE_EXPR`. -/
def value (d : EnrichedDeal) : Option ℚ := (d.deal.row .baseCurrencyAmount).or (d.deal.row .amount)

/-- `forecast_type = '...'`, which is not true of a null. -/
def hasForecast (forecast : String) (d : EnrichedDeal) : Bool := d.forecastType = some forecast

end EnrichedDeal

/-! ## Filters -/

/-- `AnalyticsFilters`. -/
structure AnalyticsFilters where
  businessLine : Option String := none
  pipelineId : Option Int := none
  ownerId : Option Int := none
  staleDays : { n : Int // 1 ≤ n ∧ n ≤ 365 } := ⟨30, by decide⟩

/-- A condition on the rows of the view. -/
inductive Clause where
  | businessLine (value : String)
  | pipelineId (value : Int)
  | ownerId (value : Int)
  | forecastType (value : String)

/-- A comparison with a null is not true. -/
def Clause.holds : Clause → EnrichedDeal → Bool
  | .businessLine value, d => d.businessLine = some value
  | .pipelineId value, d => d.deal.row.pipelineId = some value
  | .ownerId value, d => d.deal.row.ownerId = some value
  | .forecastType value, d => d.hasForecast value

/-- The owner of the scope comes before the one that is asked for. -/
def buildFilters (filters : AnalyticsFilters) (ownerScope : Option Int) : List Clause :=
  (filters.businessLine.map Clause.businessLine).toList ++
    (filters.pipelineId.map Clause.pipelineId).toList ++
    ((ownerScope.or filters.ownerId).map Clause.ownerId).toList

/-- `_open_where`. -/
def openWhere (filters : AnalyticsFilters) (ownerScope : Option Int) : List Clause :=
  buildFilters filters ownerScope ++ [.forecastType "Open"]

/-- `WHERE`. -/
def Selected (clauses : List Clause) (d : EnrichedDeal) : Bool := clauses.all fun c => c.holds d

def select (clauses : List Clause) (rows : List EnrichedDeal) : List EnrichedDeal :=
  rows.filter (Selected clauses)

theorem selected_openWhere {filters : AnalyticsFilters} {ownerScope : Option Int}
    {d : EnrichedDeal} : Selected (openWhere filters ownerScope) d =
      (Selected (buildFilters filters ownerScope) d && d.hasForecast "Open") := by
  simp [Selected, openWhere, Clause.holds]

/-- The deals that a report without a condition of its own is about. -/
def scope (db : Db) (filters : AnalyticsFilters) (ownerScope : Option Int) : List EnrichedDeal :=
  select (buildFilters filters ownerScope) (dealsEnriched db)

/-- The open ones of them. -/
theorem select_openWhere (db : Db) (filters : AnalyticsFilters) (ownerScope : Option Int) :
    select (openWhere filters ownerScope) (dealsEnriched db) =
      (scope db filters ownerScope).filter (EnrichedDeal.hasForecast "Open") := by
  rw [scope, select, select, List.filter_filter]
  apply List.filter_congr
  intro d _
  rw [selected_openWhere, Bool.and_comm]

/-! ## Owners -/

/-- `deals_enriched de LEFT JOIN owners o ON de.owner_id = o.id WHERE ...`. -/
def selectWithOwner (db : Db) (clauses : List Clause) : List (EnrichedDeal × Option Owner) :=
  (leftJoin (fun d => d.deal.row.ownerId) Owner.id (dealsEnriched db) db.owners).filter
    fun d => Selected clauses d.1

/-- The join leaves the deals as they are. -/
theorem selectWithOwner_eq_map (db : Db) (clauses : List Clause) :
    selectWithOwner db clauses = (select clauses (dealsEnriched db)).map fun d =>
      (d, lookup Owner.id db.owners d.deal.row.ownerId) := by
  rw [selectWithOwner, leftJoin_eq_map db.owners_nodup, List.filter_map]
  rfl

end SalesTrades.Analytics
