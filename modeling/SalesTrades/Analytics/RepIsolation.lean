import SalesTrades.Analytics.DealReports
import SalesTrades.Users.Model

/-!
# A rep sees the deals of one owner

The analytics endpoints pass the owner of a rep to every query, where it takes the place of the owner
that the request asks for. Each query selects by owner before it groups, joins or counts, so a response
to a rep depends on that owner's deals and on what all users share (`rep_isolation`).
-/

set_option autoImplicit false

namespace SalesTrades.Analytics

open SalesTrades.Library SalesTrades.Library.GroupBy SalesTrades.Library.LeftJoin SalesTrades.Deals
  SalesTrades.Users

/-! ## The endpoints -/

/-- The endpoints with an owner scope, with the parameter that only the renewals have. -/
inductive Endpoint where
  | overview
  | pipeline
  | activePipeline
  | revenue
  | staleness
  | owners
  | nextActions
  | lossReasons
  | ageing
  | dataQuality
  | renewals (withinDays : { n : Int // 1 ≤ n ∧ n ≤ 1095 })
  | responseTimes

structure OwnersResponse where
  staleDays : Int
  owners : List OwnerAccountability

structure NextActionsResponse extends NextActions where
  staleDays : Int
  withNextTaskPct : ℚ
  withFollowUpDatePct : ℚ
  withRecentActivityPct : ℚ

inductive Body where
  | overview (businessLines : List BusinessLineHealth)
  | pipeline (stages : List StageFunnelRow)
  | activePipeline (response : ActivePipelineResponse)
  | revenue (months : List RevenueMonthRow)
  | staleness (response : StalenessResponse)
  | owners (response : OwnersResponse)
  | nextActions (response : NextActionsResponse)
  | lossReasons (response : LossReasonsResponse)
  | ageing (response : AgeingResponse)
  | dataQuality (response : DataQualityResponse)
  | renewals (response : RenewalsResponse)
  | responseTimes (response : ResponseTimesResponse)

/-- `AnalyticsResponse`. -/
structure AnalyticsResponse where
  statusCode : Nat
  dataAsOf : Option Int
  body : Body

/-- What a query reads beside the tables: `now()`, `current_date` and the lower case of the locale, and
`str.lower` in the endpoint. -/
structure Environment where
  now : Int
  today : Date
  lower : String → String
  lc : LowerCase

variable (env : Environment)

/-- The report of an endpoint. -/
def report (endpoint : Endpoint) (filters : AnalyticsFilters) (db : ReportDb)
    (ownerScope : Option Int) : Body :=
  match endpoint with
  | .overview => .overview (overview db.toDb filters ownerScope)
  | .pipeline => .pipeline (pipeline db.toDb filters ownerScope)
  | .activePipeline => .activePipeline (activePipeline env.lower db.toDb filters ownerScope)
  | .revenue => .revenue (revenue db.toDb filters ownerScope)
  | .staleness => .staleness (staleness db.toDb env.now filters ownerScope)
  | .owners => .owners ⟨filters.staleDays.1, owners db.toDb env.now filters ownerScope⟩
  | .nextActions =>
      let row := nextActions db.toDb env.now filters ownerScope
      .nextActions
        { row with
          staleDays := filters.staleDays.1
          withNextTaskPct := pct row.withNextTask row.openDeals
          withFollowUpDatePct := pct row.withFollowUpDate row.openDeals
          withRecentActivityPct := pct row.withRecentActivity row.openDeals }
  | .lossReasons => .lossReasons (lossReasons env.lc db filters ownerScope)
  | .ageing => .ageing (ageing db.toDb filters ownerScope)
  | .dataQuality => .dataQuality (dataQuality env.lower db.toDb filters ownerScope)
  | .renewals withinDays =>
      .renewals (renewals db.toDb env.today filters ownerScope withinDays.1)
  | .responseTimes => .responseTimes (responseTimes db filters ownerScope)

/-- A request to an endpoint. -/
def respond (endpoint : Endpoint) (user : DashboardUser) (filters : AnalyticsFilters)
    (db : ReportDb) : Except HttpError AnalyticsResponse := do
  let ownerScope ← getOwnerScope user
  return ⟨200, getDataAsOf db, report env endpoint filters db ownerScope⟩

/-! ## What a rep may see -/

/-- The deals of an owner. -/
def ownedBy (owner : Int) (db : ReportDb) : List StoredDeal :=
  db.deals.rows.filter fun d => d.row.ownerId = some owner

def emailsOf (db : ReportDb) (d : StoredDeal) : List DirectedEmail :=
  db.directedEmails.filter fun e => e.dealId = d.dealId

def eventsOf (db : ReportDb) (d : StoredDeal) : List DealEvent :=
  db.events.filter fun ev => ev.dealId = d.dealId

/-- Two states of the tables with the same deals of an owner, the same tasks, emails and events of those
deals, the same reference tables and the same time of the last sync. Of the deals of others nothing is
said. -/
structure AgreeFor (owner : Int) (db db' : ReportDb) : Prop where
  deals : ownedBy owner db = ownedBy owner db'
  tasks : ∀ d ∈ ownedBy owner db, tasksOf db.toDb d = tasksOf db'.toDb d
  emails : ∀ d ∈ ownedBy owner db, emailsOf db d = emailsOf db' d
  events : ∀ d ∈ ownedBy owner db, eventsOf db d = eventsOf db' d
  stages : db.stages = db'.stages
  pipelines : db.pipelines = db'.pipelines
  owners : db.owners = db'.owners
  dealReasons : db.dealReasons = db'.dealReasons
  dataAsOf : getDataAsOf db = getDataAsOf db'

/-- Filters that ask for the same but for the owner. -/
structure SameButOwner (filters filters' : AnalyticsFilters) : Prop where
  businessLine : filters.businessLine = filters'.businessLine
  pipelineId : filters.pipelineId = filters'.pipelineId
  staleDays : filters.staleDays = filters'.staleDays

variable {owner : Int} {db db' : ReportDb} {filters filters' : AnalyticsFilters}

/-! ## Selection -/

/-- The owner that is asked for is not looked at. -/
theorem SameButOwner.buildFilters (h : SameButOwner filters filters') :
    buildFilters filters (some owner) = buildFilters filters' (some owner) := by
  rw [Analytics.buildFilters, Analytics.buildFilters, h.businessLine, h.pipelineId]
  rfl

/-- What is selected for a rep belongs to the owner, whatever other conditions a query has. -/
theorem ownerId_of_selected {clauses : List Clause} {d : EnrichedDeal}
    (h : Selected (buildFilters filters (some owner) ++ clauses) d = true) :
    d.deal.row.ownerId = some owner := by
  have hclause : Clause.ownerId owner ∈ buildFilters filters (some owner) ++ clauses := by
    apply List.mem_append_left
    apply List.mem_append_right
    exact List.mem_singleton_self _
  exact of_decide_eq_true (List.all_eq_true.1 h _ hclause)

/-- A filter that takes rows from a part only sees that part. -/
theorem filter_of_imp {α : Type*} {p q : α → Bool} (himp : ∀ a, p a = true → q a = true)
    (rows : List α) : rows.filter p = (rows.filter q).filter p := by
  rw [List.filter_filter]
  apply List.filter_congr
  intro a _
  cases hp : p a with
  | false => rw [Bool.false_and]
  | true => rw [himp a hp, Bool.and_self]

/-- The row of the view for a deal. -/
def enrich (db : ReportDb) (d : StoredDeal) : EnrichedDeal :=
  ⟨d, lookup (fun s => s.id) db.stages d.row.stageId,
    lookup (fun p => p.id) db.pipelines d.row.pipelineId⟩

/-- What is selected for a rep is selected from the owner's deals. -/
theorem select_eq_owned (clauses : List Clause) :
    select (buildFilters filters (some owner) ++ clauses) (dealsEnriched db.toDb) =
      ((ownedBy owner db).filter fun d =>
        Selected (buildFilters filters (some owner) ++ clauses) (enrich db d)).map (enrich db) := by
  rw [dealsEnriched_eq_map, select, List.filter_map]
  congr 1
  apply filter_of_imp
  intro d hselected
  exact decide_eq_true (ownerId_of_selected (d := enrich db d) hselected)

theorem mem_ownedBy {clauses : List Clause} {d : EnrichedDeal}
    (h : d ∈ select (buildFilters filters (some owner) ++ clauses) (dealsEnriched db.toDb)) :
    d.deal ∈ ownedBy owner db := by
  rw [select_eq_owned, List.mem_map] at h
  obtain ⟨d', hd', rfl⟩ := h
  exact (List.mem_filter.1 hd').1

namespace AgreeFor

variable (h : AgreeFor owner db db') (hfilters : SameButOwner filters filters')

include h

theorem enrich : enrich db = enrich db' := by
  funext d
  rw [Analytics.enrich, Analytics.enrich, h.stages, h.pipelines]

theorem lastActivity {d : StoredDeal} (hd : d ∈ ownedBy owner db) :
    lastActivity db.toDb d = lastActivity db'.toDb d := by
  have hemails : (db.emails.filter fun e => e.dealId = d.dealId) =
      db'.emails.filter fun e => e.dealId = d.dealId := by
    rw [db.emails_eq, db'.emails_eq, List.filter_map, List.filter_map]
    exact congrArg _ (h.emails d hd)
  have hevents := h.events d hd
  rw [eventsOf, eventsOf] at hevents
  rw [Analytics.lastActivity, Analytics.lastActivity, h.tasks d hd, hemails, hevents]

theorem progressedRecently {d : StoredDeal} (hd : d ∈ ownedBy owner db) (now staleDays : Int) :
    progressedRecently db.toDb now staleDays d = progressedRecently db'.toDb now staleDays d := by
  have hany : ∀ db : ReportDb, Analytics.progressedRecently db.toDb now staleDays d =
      (eventsOf db d).any fun ev => ev.eventType = .stageChange &&
        now - staleDays * 86400000000 < ev.occurredAt.instant := by
    intro db
    rw [eventsOf, List.any_filter, Analytics.progressedRecently]
    congr 1
    funext ev
    rw [Bool.and_assoc]
  rw [hany, hany, h.events d hd]

theorem firstOutgoing {d : StoredDeal} (hd : d ∈ ownedBy owner db) :
    firstOutgoing db d = firstOutgoing db' d := by
  have hfirst : ∀ db : ReportDb, Analytics.firstOutgoing db d =
      (((emailsOf db d).filter fun e => e.direction = "outgoing").map fun e =>
        e.conversationTime).min? := by
    intro db
    rw [emailsOf, List.filter_filter, Analytics.firstOutgoing]
    congr 2
    apply List.filter_congr
    intro e _
    rw [Bool.and_comm]
  rw [hfirst, hfirst, h.emails d hd]

include hfilters

/-- **Scope.** The same deals are selected, with the same stages and pipelines. -/
theorem select (clauses : List Clause) :
    select (buildFilters filters (some owner) ++ clauses) (dealsEnriched db.toDb) =
      select (buildFilters filters' (some owner) ++ clauses) (dealsEnriched db'.toDb) := by
  rw [select_eq_owned, select_eq_owned, h.enrich, h.deals, hfilters.buildFilters]

theorem scope : scope db.toDb filters (some owner) = scope db'.toDb filters' (some owner) := by
  have hscope := h.select hfilters []
  rwa [List.append_nil, List.append_nil] at hscope

theorem selectWithOwner (clauses : List Clause) :
    selectWithOwner db.toDb (buildFilters filters (some owner) ++ clauses) =
      selectWithOwner db'.toDb (buildFilters filters' (some owner) ++ clauses) := by
  rw [selectWithOwner_eq_map, selectWithOwner_eq_map, h.select hfilters, h.owners]

/-- A column computed from a deal, its owner and the tables, where the tables agree on it. -/
theorem map_selectWithOwner {β : Type*} (clauses : List Clause)
    (row row' : EnrichedDeal × Option Owner → β)
    (hrow : ∀ d : EnrichedDeal × Option Owner, d.1.deal ∈ ownedBy owner db → row d = row' d) :
    (Analytics.selectWithOwner db.toDb (buildFilters filters (some owner) ++ clauses)).map row =
      (Analytics.selectWithOwner db'.toDb (buildFilters filters' (some owner) ++ clauses)).map
        row' := by
  rw [← h.selectWithOwner hfilters]
  apply List.map_congr_left
  intro d hd
  apply hrow d
  rw [selectWithOwner_eq_map, List.mem_map] at hd
  obtain ⟨d, hd, rfl⟩ := hd
  exact mem_ownedBy hd

/-! ## The reports -/

theorem getStaleness (now : Int) : getStaleness db.toDb now filters (some owner) =
    getStaleness db'.toDb now filters' (some owner) := by
  apply h.map_selectWithOwner hfilters
  intro d hd
  rw [stalenessRow, stalenessRow, h.lastActivity hd]

theorem staleness (now : Int) : staleness db.toDb now filters (some owner) =
    staleness db'.toDb now filters' (some owner) := by
  rw [Analytics.staleness, Analytics.staleness, h.getStaleness hfilters, hfilters.staleDays]

theorem owners_report (now : Int) : Analytics.owners db.toDb now filters (some owner) =
    Analytics.owners db'.toDb now filters' (some owner) := by
  have hbase : (Analytics.selectWithOwner db.toDb (buildFilters filters (some owner))).map
        (ownerBase db.toDb now filters.staleDays.1) =
      (Analytics.selectWithOwner db'.toDb (buildFilters filters' (some owner))).map
        (ownerBase db'.toDb now filters'.staleDays.1) := by
    have hmap := h.map_selectWithOwner hfilters [] (ownerBase db.toDb now filters.staleDays.1)
      (ownerBase db'.toDb now filters'.staleDays.1)
    rw [List.append_nil, List.append_nil] at hmap
    apply hmap
    intro d hd
    rw [ownerBase, ownerBase, h.lastActivity hd, h.progressedRecently hd, hfilters.staleDays,
      hasOpenTask, hasOpenTask, hasFollowUpDate, hasFollowUpDate, overdueTasks, overdueTasks,
      h.tasks _ hd]
  rw [Analytics.owners, Analytics.owners, getOwnerAccountability, getOwnerAccountability, hbase,
    hfilters.staleDays]

theorem nextActions (now : Int) : nextActions db.toDb now filters (some owner) =
    nextActions db'.toDb now filters' (some owner) := by
  have hselect := h.select hfilters [.forecastType "Open"]
  have hcolumns : ∀ d ∈ Analytics.select (openWhere filters (some owner)) (dealsEnriched db.toDb),
      tasksOf db.toDb d.deal = tasksOf db'.toDb d.deal ∧
        Analytics.lastActivity db.toDb d.deal = Analytics.lastActivity db'.toDb d.deal := by
    intro d hd
    exact ⟨h.tasks _ (mem_ownedBy hd), h.lastActivity (mem_ownedBy hd)⟩
  rw [Analytics.nextActions, Analytics.nextActions, openWhere, openWhere, ← hselect,
    ← hfilters.staleDays]
  rw [NextActions.mk.injEq]
  refine ⟨rfl, ?_, ?_, ?_, ?_⟩
  · apply List.countP_congr
    intro d hd
    rw [hasOpenTask, hasOpenTask, (hcolumns d hd).1]
  · apply List.countP_congr
    intro d hd
    rw [hasFollowUpDate, hasFollowUpDate, (hcolumns d hd).1]
  · apply List.countP_congr
    intro d hd
    rw [(hcolumns d hd).2]
  · congr 1
    apply List.map_congr_left
    intro d hd
    rw [overdueTasks, overdueTasks, (hcolumns d hd).1]

theorem getLossReasons : getLossReasons db filters (some owner) =
    getLossReasons db' filters' (some owner) := by
  have hlost : ∀ (db : ReportDb) (filters : AnalyticsFilters),
      ((leftJoin (fun d => d.deal.row .lostReasonId) DealReason.id (dealsEnriched db.toDb)
        db.dealReasons).filter fun d =>
          Selected (buildFilters filters (some owner) ++ [.forecastType "Closed Lost"]) d.1) =
        (Analytics.select (buildFilters filters (some owner) ++ [.forecastType "Closed Lost"])
          (dealsEnriched db.toDb)).map fun d =>
            (d, lookup DealReason.id db.dealReasons (d.deal.row .lostReasonId)) := by
    intro db filters
    rw [leftJoin_eq_map db.dealReasons_nodup, List.filter_map]
    rfl
  rw [Analytics.getLossReasons, Analytics.getLossReasons, hlost, hlost, h.select hfilters,
    h.dealReasons]

theorem ageing : ageing db.toDb filters (some owner) = ageing db'.toDb filters' (some owner) := by
  have hgroup : ∀ group, getAgeing db.toDb filters (some owner) group =
      getAgeing db'.toDb filters' (some owner) group := by
    intro group
    rw [getAgeing, getAgeing, openWhere, openWhere, h.selectWithOwner hfilters]
  rw [Analytics.ageing, Analytics.ageing, hgroup, hgroup]

theorem responseTimes : responseTimes db filters (some owner) =
    responseTimes db' filters' (some owner) := by
  have hbase := h.map_selectWithOwner hfilters [] (responseBase db) (responseBase db') fun d hd => by
    rw [responseBase, responseBase, h.firstOutgoing hd]
  rw [List.append_nil, List.append_nil] at hbase
  rw [Analytics.responseTimes, Analytics.responseTimes, getResponseTimes, getResponseTimes, hbase]

/-- Each report is the same for the rep. -/
theorem report (endpoint : Endpoint) : report env endpoint filters db (some owner) =
    report env endpoint filters' db' (some owner) := by
  have hscope := h.scope hfilters
  have hopen := h.select hfilters [.forecastType "Open"]
  cases endpoint with
  | overview =>
      apply congrArg Body.overview
      rw [overview, overview, getOverview, getOverview, hscope]
  | pipeline =>
      apply congrArg Body.pipeline
      rw [pipeline, pipeline, hscope]
  | activePipeline =>
      apply congrArg Body.activePipeline
      rw [activePipeline, activePipeline, getActivePipeline, getActivePipeline, openWhere, openWhere,
        hopen]
  | revenue =>
      apply congrArg Body.revenue
      rw [revenue, revenue, hscope]
  | staleness => exact congrArg Body.staleness (h.staleness hfilters env.now)
  | owners =>
      apply congrArg Body.owners
      rw [hfilters.staleDays, h.owners_report hfilters]
  | nextActions =>
      rw [Analytics.report, Analytics.report, h.nextActions hfilters, hfilters.staleDays]
  | lossReasons =>
      apply congrArg Body.lossReasons
      rw [lossReasons, lossReasons, h.getLossReasons hfilters]
  | ageing => exact congrArg Body.ageing (h.ageing hfilters)
  | dataQuality =>
      apply congrArg Body.dataQuality
      rw [dataQuality, dataQuality, hscope]
  | renewals withinDays =>
      apply congrArg Body.renewals
      rw [renewals, renewals, getRenewals, getRenewals, hscope]
  | responseTimes => exact congrArg Body.responseTimes (h.responseTimes hfilters)

end AgreeFor

/-! ## Isolation -/

/-- **A rep learns nothing about the deals of others.** States that agree on the deals of the owner give
the same responses, whatever owner the request asks for. -/
theorem rep_isolation (env : Environment) (user : DashboardUser) (owner : Int)
    (hrole : user.role = .rep) (howner : user.ownerId = some owner) (db db' : ReportDb)
    (h : AgreeFor owner db db') (filters filters' : AnalyticsFilters)
    (hfilters : SameButOwner filters filters') (endpoint : Endpoint) :
    respond env endpoint user filters db = respond env endpoint user filters' db' := by
  rw [respond, respond, getOwnerScope_rep hrole howner, h.dataAsOf]
  exact congrArg (fun body => Except.ok (AnalyticsResponse.mk 200 (getDataAsOf db') body))
    (h.report env hfilters endpoint)

/-! ## Two deals of one name -/

def namedDeal (dealId owner : Int) (name : String) : StoredDeal where
  dealId := dealId
  row := Function.update (Function.update PartialRecord.empty .ownerId (some owner)) .name (some name)

/-- A deal of owner 7 and, where there is another, one of owner 8 with the same name. -/
def sharedDeals (shared : Bool) : DealTable :=
  let deals := DealTable.empty.put (namedDeal 1 7 "Tower")
  if shared then deals.put (namedDeal 2 8 "Tower") else deals

theorem adaOwner_nodup : ([⟨7, "Ada"⟩].map Owner.id).Nodup := List.nodup_singleton 7

/-- The other deal comes with a task. -/
def twoOwners (shared : Bool) : ReportDb where
  deals := sharedDeals shared
  stages := []
  pipelines := []
  owners := [⟨7, "Ada"⟩]
  tasks := if shared then [⟨some 2, some "open", some 0, none⟩] else []
  emails := []
  events := []
  stages_nodup := List.nodup_nil
  pipelines_nodup := List.nodup_nil
  owners_nodup := adaOwner_nodup
  directedEmails := []
  emails_eq := noEmails_eq
  dealReasons := []
  dealReasons_nodup := List.nodup_nil
  lastSyncedAt id := if id = 1 then 10 else 5

def firstDay : Environment where
  now := 0
  today := ⟨0⟩
  lower := asciiLower.lower
  lc := asciiLower

theorem twoOwners_agree : AgreeFor 7 (twoOwners true) (twoOwners false) where
  deals := rfl
  tasks d hd := by
    obtain rfl : d = namedDeal 1 7 "Tower" := List.mem_singleton.1 hd
    rfl
  emails _ _ := rfl
  events _ _ := rfl
  stages := rfl
  pipelines := rfl
  owners := rfl
  dealReasons := rfl
  dataAsOf := rfl

/-- The rep of the first owner is not told that another deal has the name of theirs. -/
theorem rep_isolation_twoOwners :
    respond firstDay .dataQuality ⟨"ada@churchgate.com", .rep, some 7⟩ {} (twoOwners true) =
      respond firstDay .dataQuality ⟨"ada@churchgate.com", .rep, some 7⟩ { ownerId := some 8 }
        (twoOwners false) :=
  rep_isolation firstDay _ 7 rfl rfl _ _ twoOwners_agree {} { ownerId := some 8 } ⟨rfl, rfl, rfl⟩ _

end SalesTrades.Analytics
