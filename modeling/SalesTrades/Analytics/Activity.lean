import Mathlib.Algebra.Order.Field.Rat
import Mathlib.Data.List.ReduceOption
import Mathlib.Tactic.NormNum
import SalesTrades.Analytics.Model
import SalesTrades.Library.GroupBy
import SalesTrades.Library.Tally

/-!
# Activity on deals

The reports on staleness, on owners and on next actions. All three count the open deals without recent
activity. The queries on owners and next actions take a deal without any activity for one whose last
activity is `1e9` days ago, and the staleness report leaves it out. So the three agree exactly when every
open deal has some activity (`inactivity_agrees_iff`).
-/

set_option autoImplicit false

namespace SalesTrades.Analytics

open SalesTrades.Library SalesTrades.Library.GroupBy SalesTrades.Library.LeftJoin SalesTrades.Deals

/-! ## The last activity -/

/-- The latest of some times, of which nulls are left out: `greatest` and `max`. -/
def latest (times : List (Option Int)) : Option Int := times.reduceOption.max?

def tasksOf (db : Db) (d : StoredDeal) : List TaskSnapshot :=
  db.tasks.filter fun t => t.dealId = some d.dealId

def stageUpdatedAt (d : StoredDeal) : Option Int := (d.row .stageUpdatedAt).map Datetime.instant

/-- `_LAST_ACTIVITY`. -/
def lastActivity (db : Db) (d : StoredDeal) : Option Int :=
  latest [stageUpdatedAt d,
    latest ((tasksOf db d).map fun t => latest [t.dueDate, t.completedDate]),
    latest ((db.emails.filter fun e => e.dealId = d.dealId).map fun e => some e.conversationTime),
    latest ((db.events.filter fun ev => ev.dealId = d.dealId).map fun ev =>
      some ev.occurredAt.instant)]

/-- `EXTRACT(EPOCH FROM (now() - ...)) / 86400.0`. -/
def daysSince (now : Int) (time : Option Int) : Option ℚ :=
  time.map fun t => ((now - t : Int) : ℚ) / 1000000 / 86400

/-- A stage move, a task with a date, an email or an event. -/
def HasActivity (db : Db) (d : StoredDeal) : Prop :=
  d.row .stageUpdatedAt ≠ none ∨
    (∃ t ∈ db.tasks, t.dealId = some d.dealId ∧ (t.dueDate ≠ none ∨ t.completedDate ≠ none)) ∨
    (∃ e ∈ db.emails, e.dealId = d.dealId) ∨ ∃ ev ∈ db.events, ev.dealId = d.dealId

theorem latest_ne_none_iff {times : List (Option Int)} :
    latest times ≠ none ↔ ∃ t ∈ times, t ≠ none := by
  rw [latest, ne_eq, List.max?_eq_none_iff]
  constructor
  · intro hne
    obtain ⟨t, ht⟩ := List.exists_mem_of_ne_nil _ hne
    exact ⟨some t, List.reduceOption_mem_iff.1 ht, Option.some_ne_none t⟩
  · rintro ⟨t, ht, hne⟩ hnil
    obtain ⟨t', rfl⟩ := Option.ne_none_iff_exists'.1 hne
    have hmem : t' ∈ times.reduceOption := List.reduceOption_mem_iff.2 ht
    rw [hnil] at hmem
    cases hmem

/-- The time of the last activity is null when there is none of any kind. -/
theorem lastActivity_ne_none_iff {db : Db} {d : StoredDeal} :
    lastActivity db d ≠ none ↔ HasActivity db d := by
  have htasks : latest ((tasksOf db d).map fun t => latest [t.dueDate, t.completedDate]) ≠ none ↔
      ∃ t ∈ db.tasks, t.dealId = some d.dealId ∧ (t.dueDate ≠ none ∨ t.completedDate ≠ none) := by
    simp [latest_ne_none_iff, tasksOf, and_assoc]
  have hemails : latest ((db.emails.filter fun e => e.dealId = d.dealId).map fun e =>
      some e.conversationTime) ≠ none ↔ ∃ e ∈ db.emails, e.dealId = d.dealId := by
    simp [latest_ne_none_iff]
  have hevents : latest ((db.events.filter fun ev => ev.dealId = d.dealId).map fun ev =>
      some ev.occurredAt.instant) ≠ none ↔ ∃ ev ∈ db.events, ev.dealId = d.dealId := by
    simp [latest_ne_none_iff]
  have hstage : stageUpdatedAt d ≠ none ↔ d.row .stageUpdatedAt ≠ none := by
    simp [stageUpdatedAt]
  rw [lastActivity, latest_ne_none_iff, HasActivity, ← hstage, ← htasks, ← hemails, ← hevents]
  simp only [List.exists_mem_cons_iff, List.not_mem_nil, false_and, exists_false, or_false]

/-! ## Tasks and events of a deal -/

/-- `_HAS_OPEN_TASK`. -/
def hasOpenTask (db : Db) (d : StoredDeal) : Bool :=
  (tasksOf db d).any fun t => t.status = some "open"

/-- `_OVERDUE_TASKS`. -/
def overdueTasks (db : Db) (now : Int) (d : StoredDeal) : Nat :=
  (tasksOf db d).countP fun t => t.status = some "open" && t.dueDate.any fun due => due < now

/-- `_HAS_FOLLOW_UP_DATE`. -/
def hasFollowUpDate (db : Db) (d : StoredDeal) : Bool :=
  (d.row .expectedCloseDate).isSome ||
    (tasksOf db d).any fun t => t.status = some "open" && t.dueDate.isSome

/-- A stage change in the last `stale_days` days. -/
def progressedRecently (db : Db) (now staleDays : Int) (d : StoredDeal) : Bool :=
  db.events.any fun ev => ev.dealId = d.dealId && ev.eventType = .stageChange &&
    now - staleDays * 86400000000 < ev.occurredAt.instant

/-! ## Staleness -/

structure StalenessRow where
  dealId : Int
  stageName : String
  ownerName : String
  value : Option ℚ
  daysSinceStageMove : Option ℚ
  daysSinceActivity : Option ℚ

def ownerName (owner : Option Owner) : String := (owner.map Owner.displayName).getD "Unassigned"

def stalenessRow (db : Db) (now : Int) (d : EnrichedDeal × Option Owner) : StalenessRow where
  dealId := d.1.deal.dealId
  stageName := d.1.stageName.getD "Unknown"
  ownerName := ownerName d.2
  value := d.1.value
  daysSinceStageMove := daysSince now (stageUpdatedAt d.1.deal)
  daysSinceActivity := daysSince now (lastActivity db d.1.deal)

def getStaleness (db : Db) (now : Int) (filters : AnalyticsFilters) (ownerScope : Option Int) :
    List StalenessRow :=
  (selectWithOwner db (openWhere filters ownerScope)).map (stalenessRow db now)

/-- `days is not None and days > threshold`. -/
def exceeds (threshold : Int) (days : Option ℚ) : Bool := days.any fun d => (threshold : ℚ) < d

structure StalenessBucket where
  key : String
  staleDeals : Nat
  staleValue : ℚ

/-- `grouped[key][0] += 1; grouped[key][1] += value`. -/
def addToBucket (key : String) (value : ℚ) : List StalenessBucket → List StalenessBucket
  | [] => [⟨key, 1, value⟩]
  | b :: bs =>
      if b.key = key then ⟨key, b.staleDeals + 1, b.staleValue + value⟩ :: bs
      else b :: addToBucket key value bs

/-- `_buckets`: the largest value first. -/
def buckets (key : StalenessRow → String) (rows : List StalenessRow) : List StalenessBucket :=
  (rows.foldl (fun bs row => addToBucket (key row) (row.value.getD 0) bs) []).mergeSort
    fun a b => b.staleValue ≤ a.staleValue

def StalenessBucket.entry (b : StalenessBucket) : String × (ℕ × ℚ) := (b.key, b.staleDeals, b.staleValue)

theorem map_entry_addToBucket (key : String) (value : ℚ) (bs : List StalenessBucket) :
    (addToBucket key value bs).map StalenessBucket.entry =
      Tally.add key (1, value) (bs.map StalenessBucket.entry) := by
  induction bs with
  | nil => rfl
  | cons b bs ih =>
      rw [addToBucket]
      by_cases hkey : b.key = key
      · rw [if_pos hkey, List.map_cons, List.map_cons, Tally.add,
          if_pos (show b.entry.1 = key from hkey)]
        rfl
      · rw [if_neg hkey, List.map_cons, List.map_cons, Tally.add,
          if_neg (show b.entry.1 ≠ key from hkey), ih]

/-- The buckets are a tally of the rows, sorted. -/
theorem buckets_perm (key : StalenessRow → String) (rows : List StalenessRow) :
    ((buckets key rows).map StalenessBucket.entry).Perm
      (Tally.tally key (fun row => (1, row.value.getD 0)) rows) := by
  rw [buckets]
  apply ((List.mergeSort_perm _ _).map _).trans
  suffices hfold : (rows.foldl (fun bs row => addToBucket (key row) (row.value.getD 0) bs) []).map
      StalenessBucket.entry = Tally.tally key (fun row => (1, row.value.getD 0)) rows by
    rw [hfold]
  induction rows using List.reverseRecOn with
  | nil => rfl
  | append_singleton rows row ih =>
      rw [List.foldl_append, List.foldl_cons, List.foldl_nil, map_entry_addToBucket, ih,
        Tally.tally_concat]

/-- The buckets share out the rows and their value. -/
theorem sum_buckets (key : StalenessRow → String) (rows : List StalenessRow) :
    ((buckets key rows).map StalenessBucket.staleDeals).sum = rows.length ∧
      ((buckets key rows).map StalenessBucket.staleValue).sum =
        (rows.map fun row => row.value.getD 0).sum := by
  have hentries := ((buckets_perm key rows).map Prod.snd).sum_eq
  rw [Tally.sum_tally, Tally.sum_pairs, Tally.sum_pairs, List.map_map, List.map_map, List.map_map,
    List.map_map, List.map_map, List.map_map] at hentries
  obtain ⟨hdeals, hvalue⟩ := Prod.ext_iff.1 hentries
  have hones : ((buckets key rows).map StalenessBucket.staleDeals).sum =
      (rows.map fun _ => 1).sum := hdeals
  refine ⟨?_, hvalue⟩
  rw [hones, List.map_const', List.sum_replicate_nat, Nat.mul_one]

structure StalenessResponse where
  staleDays : Int
  definition : String
  openDeals : Nat
  staleByStageMove : Nat
  staleValue : ℚ
  noActivity : Nat
  byStage : List StalenessBucket
  byOwner : List StalenessBucket

/-- The endpoint `staleness`. -/
def staleness (db : Db) (now : Int) (filters : AnalyticsFilters) (ownerScope : Option Int) :
    StalenessResponse :=
  let rows := getStaleness db now filters ownerScope
  let threshold := filters.staleDays.1
  let staleRows := rows.filter fun row => exceeds threshold row.daysSinceStageMove
  { staleDays := threshold
    definition := "Open deals with no stage movement in more than " ++ toString threshold ++
      " days. Denominator: " ++ toString rows.length ++ " open deals."
    openDeals := rows.length
    staleByStageMove := staleRows.length
    staleValue := (staleRows.map fun row => row.value.getD 0).sum
    noActivity := rows.countP fun row => exceeds threshold row.daysSinceActivity
    byStage := buckets StalenessRow.stageName staleRows
    byOwner := buckets StalenessRow.ownerName staleRows }

/-- The stale deals by stage, and by owner, are all the stale deals. -/
theorem staleness_buckets (db : Db) (now : Int) (filters : AnalyticsFilters)
    (ownerScope : Option Int) :
    ((staleness db now filters ownerScope).byStage.map StalenessBucket.staleDeals).sum =
        (staleness db now filters ownerScope).staleByStageMove ∧
      ((staleness db now filters ownerScope).byOwner.map StalenessBucket.staleDeals).sum =
        (staleness db now filters ownerScope).staleByStageMove :=
  ⟨(sum_buckets _ _).1, (sum_buckets _ _).1⟩

/-! ## Owners -/

/-- A row of `base`. -/
structure OwnerBase where
  ownerId : Option Int
  ownerName : String
  forecastType : Option String
  stageUpdatedAt : Option Int
  value : Option ℚ
  daysSinceStageMove : Option ℚ
  daysSinceActivity : Option ℚ
  hasOpenTask : Bool
  hasFollowUpDate : Bool
  overdueTaskCount : Nat
  progressedRecently : Bool

def ownerBase (db : Db) (now staleDays : Int) (d : EnrichedDeal × Option Owner) : OwnerBase where
  ownerId := d.1.deal.row.ownerId
  ownerName := ownerName d.2
  forecastType := d.1.forecastType
  stageUpdatedAt := stageUpdatedAt d.1.deal
  value := d.1.value
  daysSinceStageMove := daysSince now (stageUpdatedAt d.1.deal)
  daysSinceActivity := daysSince now (lastActivity db d.1.deal)
  hasOpenTask := hasOpenTask db d.1.deal
  hasFollowUpDate := hasFollowUpDate db d.1.deal
  overdueTaskCount := overdueTasks db now d.1.deal
  progressedRecently := progressedRecently db now staleDays d.1.deal

def OwnerBase.hasForecast (forecast : String) (b : OwnerBase) : Bool :=
  b.forecastType = some forecast

/-- `coalesce(days_since_activity, 1e9) > :stale_days`: no activity counts as activity long ago. -/
def inactive (staleDays : Int) (daysSinceActivity : Option ℚ) : Bool :=
  (staleDays : ℚ) < daysSinceActivity.getD 1000000000

structure OwnerRow where
  ownerId : Option Int
  ownerName : String
  totalDeals : Nat
  openDeals : Nat
  wonDeals : Nat
  lostDeals : Nat
  openValue : ℚ
  wonValue : ℚ
  staleValue : ℚ
  noNextAction : Nat
  noFollowUpDate : Nat
  overdueTasks : Nat
  noRecentActivity : Nat
  dealsProgressed : Nat
  lastCrmUpdate : Option Int

def ownerRow (staleDays : Int) (g : (Option Int × String) × List OwnerBase) : OwnerRow where
  ownerId := g.1.1
  ownerName := g.1.2
  totalDeals := g.2.countP fun _ => true
  openDeals := g.2.countP (OwnerBase.hasForecast "Open")
  wonDeals := g.2.countP (OwnerBase.hasForecast "Closed Won")
  lostDeals := g.2.countP (OwnerBase.hasForecast "Closed Lost")
  openValue := (sumFilter (OwnerBase.hasForecast "Open") OwnerBase.value g.2).getD 0
  wonValue := (sumFilter (OwnerBase.hasForecast "Closed Won") OwnerBase.value g.2).getD 0
  staleValue := (sumFilter (fun b => b.hasForecast "Open" && exceeds staleDays b.daysSinceStageMove)
    OwnerBase.value g.2).getD 0
  noNextAction := g.2.countP fun b => b.hasForecast "Open" && !b.hasOpenTask
  noFollowUpDate := g.2.countP fun b => b.hasForecast "Open" && !b.hasFollowUpDate
  overdueTasks := (sumFilter (OwnerBase.hasForecast "Open") (fun b => some b.overdueTaskCount)
    g.2).getD 0
  noRecentActivity := g.2.countP fun b => b.hasForecast "Open" && inactive staleDays b.daysSinceActivity
  dealsProgressed := g.2.countP fun b => b.hasForecast "Open" && b.progressedRecently
  lastCrmUpdate := latest (g.2.map OwnerBase.stageUpdatedAt)

def getOwnerAccountability (db : Db) (now : Int) (filters : AnalyticsFilters)
    (ownerScope : Option Int) : List OwnerRow :=
  (groups (fun b => (b.ownerId, b.ownerName))
    ((selectWithOwner db (buildFilters filters ownerScope)).map
      (ownerBase db now filters.staleDays.1))).map (ownerRow filters.staleDays.1)

/-- `_win_rate`. -/
def winRate (won lost : Nat) : Option ℚ :=
  if won + lost = 0 then none else some ((won : ℚ) / (won + lost : Nat))

structure OwnerAccountability extends OwnerRow where
  winRate : Option ℚ

/-- The endpoint `owners`. -/
def owners (db : Db) (now : Int) (filters : AnalyticsFilters) (ownerScope : Option Int) :
    List OwnerAccountability :=
  (getOwnerAccountability db now filters ownerScope).map fun row =>
    { row with winRate := winRate row.wonDeals row.lostDeals }

/-! ## Next actions -/

structure NextActions where
  openDeals : Nat
  withNextTask : Nat
  withFollowUpDate : Nat
  withRecentActivity : Nat
  overdueTasks : Nat

/-- The endpoint `next_actions`: a query without groups has one row. -/
def nextActions (db : Db) (now : Int) (filters : AnalyticsFilters) (ownerScope : Option Int) :
    NextActions :=
  let rows := select (openWhere filters ownerScope) (dealsEnriched db)
  { openDeals := rows.length
    withNextTask := rows.countP fun d => hasOpenTask db d.deal
    withFollowUpDate := rows.countP fun d => hasFollowUpDate db d.deal
    withRecentActivity := rows.countP fun d =>
      (daysSince now (lastActivity db d.deal)).getD 1000000000 ≤ filters.staleDays.1
    overdueTasks := (rows.map fun d => overdueTasks db now d.deal).sum }

/-! ## Agreement -/

variable {db : Db} {now : Int} {filters : AnalyticsFilters} {ownerScope : Option Int}

/-- The open deals a report is about. -/
def openScope (db : Db) (filters : AnalyticsFilters) (ownerScope : Option Int) : List EnrichedDeal :=
  (scope db filters ownerScope).filter (EnrichedDeal.hasForecast "Open")

theorem countP_openScope (p : EnrichedDeal → Bool) :
    (openScope db filters ownerScope).countP p =
      (scope db filters ownerScope).countP fun d => d.hasForecast "Open" && p d := by
  rw [openScope, List.countP_filter]
  apply List.countP_congr
  intro d _
  rw [Bool.and_comm]

/-- A count in the staleness report is a count of open deals. -/
theorem countP_getStaleness (p : StalenessRow → Bool) (q : EnrichedDeal → Bool)
    (hpq : ∀ d owner, p (stalenessRow db now (d, owner)) = q d) :
    (getStaleness db now filters ownerScope).countP p = (openScope db filters ownerScope).countP q := by
  rw [getStaleness, selectWithOwner_eq_map, select_openWhere, ← openScope, List.countP_map,
    List.countP_map]
  apply List.countP_congr
  intro d _
  exact Bool.eq_iff_iff.1 (hpq d _)

/-- What adds up over the deals of an owner adds up over all owners. -/
theorem sum_owners {M : Type*} [AddCommMonoid M] (f : OwnerAccountability → M)
    (weight : OwnerBase → M)
    (hf : ∀ g winRate, f { ownerRow filters.staleDays.1 g with winRate } = (g.2.map weight).sum) :
    ((owners db now filters ownerScope).map f).sum = ((scope db filters ownerScope).map fun d =>
      weight (ownerBase db now filters.staleDays.1
        (d, lookup Owner.id db.owners d.deal.row.ownerId))).sum := by
  rw [owners, getOwnerAccountability, List.map_map, List.map_map]
  apply (sum_map_groups _ weight (fun g => hf g _) _).trans
  rw [selectWithOwner_eq_map, ← scope, List.map_map, List.map_map]
  rfl

/-- A count over the owners is a count of the deals they are about. -/
theorem sum_countP_owners (f : OwnerAccountability → Nat) (p : OwnerBase → Bool)
    (q : EnrichedDeal → Bool)
    (hf : ∀ g winRate, f { ownerRow filters.staleDays.1 g with winRate } = g.2.countP p)
    (hpq : ∀ d owner, p (ownerBase db now filters.staleDays.1 (d, owner)) = q d) :
    ((owners db now filters ownerScope).map f).sum = (scope db filters ownerScope).countP q := by
  rw [sum_owners f (fun b => if p b then 1 else 0), countP_eq_sum]
  · simp only [hpq]
  · intro g winRate
    rw [hf, countP_eq_sum]

/-- What the endpoints count of an open deal: the days since its last activity. -/
def idleDays (db : Db) (now : Int) (d : EnrichedDeal) : Option ℚ :=
  daysSince now (lastActivity db d.deal)

theorem idleDays_ne_none_iff (now : Int) {d : EnrichedDeal} :
    idleDays db now d ≠ none ↔ HasActivity db d.deal := by
  rw [← lastActivity_ne_none_iff, idleDays, daysSince, ne_eq, Option.map_eq_none_iff]

theorem staleness_noActivity : (staleness db now filters ownerScope).noActivity =
    (openScope db filters ownerScope).countP fun d =>
      exceeds filters.staleDays.1 (idleDays db now d) :=
  countP_getStaleness _ _ fun _ _ => rfl

theorem sum_owners_noRecentActivity :
    ((owners db now filters ownerScope).map fun o => o.noRecentActivity).sum =
      (openScope db filters ownerScope).countP fun d =>
        inactive filters.staleDays.1 (idleDays db now d) := by
  rw [countP_openScope]
  exact sum_countP_owners _ _ _ (fun _ _ => rfl) fun _ _ => rfl

/-- A deal is inactive in the report on owners exactly when it has no recent activity in that on next
actions. -/
theorem nextActions_openDeals_eq : (nextActions db now filters ownerScope).openDeals =
    (nextActions db now filters ownerScope).withRecentActivity +
      (openScope db filters ownerScope).countP fun d =>
        inactive filters.staleDays.1 (idleDays db now d) := by
  rw [nextActions, select_openWhere, ← openScope]
  dsimp only
  rw [List.length_eq_countP_add_countP fun d =>
    decide ((idleDays db now d).getD 1000000000 ≤ filters.staleDays.1)]
  congr 1
  apply List.countP_congr
  intro d _
  simp [inactive]

/-- Beyond the threshold for the staleness report, and so for the others. -/
theorem inactive_of_exceeds {threshold : Int} {days : Option ℚ} (h : exceeds threshold days = true) :
    inactive threshold days = true := by
  cases days with
  | none => cases h
  | some d => exact h

theorem exceeds_of_inactive {threshold : Int} {days : Option ℚ} (h : inactive threshold days = true)
    (hdays : days ≠ none) : exceeds threshold days = true := by
  cases days with
  | none => exact absurd rfl hdays
  | some d => exact h

/-- The default is beyond every threshold that the filters allow. -/
theorem inactive_none (staleDays : { n : Int // 1 ≤ n ∧ n ≤ 365 }) :
    inactive staleDays.1 none = true := by
  have hbound : ((staleDays.1 : Int) : ℚ) ≤ 365 := by exact_mod_cast staleDays.2.2
  rw [inactive, Option.getD_none, decide_eq_true_iff]
  exact lt_of_le_of_lt hbound (by norm_num)

/-- **Exactness of the agreement.** The staleness report, the owners together and the report on next
actions have the same number of inactive deals exactly when every open deal has some activity. -/
theorem inactivity_agrees_iff (db : Db) (now : Int) (filters : AnalyticsFilters)
    (ownerScope : Option Int) :
    ((staleness db now filters ownerScope).noActivity =
        ((owners db now filters ownerScope).map fun o => o.noRecentActivity).sum ∧
      ((((owners db now filters ownerScope).map fun o => o.noRecentActivity).sum : Nat) : Int) =
        (nextActions db now filters ownerScope).openDeals -
          (nextActions db now filters ownerScope).withRecentActivity) ↔
      ∀ d ∈ openScope db filters ownerScope, HasActivity db d.deal := by
  have hnext : ((((owners db now filters ownerScope).map fun o => o.noRecentActivity).sum : Nat) : Int) =
      (nextActions db now filters ownerScope).openDeals -
        (nextActions db now filters ownerScope).withRecentActivity := by
    rw [nextActions_openDeals_eq, sum_owners_noRecentActivity]
    omega
  rw [and_iff_left hnext, staleness_noActivity, sum_owners_noRecentActivity,
    countP_eq_iff fun d _ => inactive_of_exceeds]
  constructor
  · intro h d hd
    rw [← idleDays_ne_none_iff now]
    intro hnone
    have hexceeds := h d hd (by rw [hnone]; exact inactive_none filters.staleDays)
    rw [hnone] at hexceeds
    cases hexceeds
  · intro h d hd hinactive
    exact exceeds_of_inactive hinactive ((idleDays_ne_none_iff now).2 (h d hd))

/-- An open deal without a stage move, a task, an email or an event. -/
def silentDb : Db where
  deals := DealTable.empty.put ⟨1, fun
    | .pipelineId => some 1
    | .stageId => some 10
    | _ => none⟩
  stages := [⟨⟨10, 1, "Negotiation"⟩, 1, "Open", some 20⟩]
  pipelines := [⟨⟨1, "Rental", true, true⟩, "Leasing"⟩]
  owners := []
  tasks := []
  emails := []
  events := []
  stages_nodup := by decide
  pipelines_nodup := by decide
  owners_nodup := by decide

/-- The staleness report does not count the deal, and the other two do. -/
theorem silent_deal_missed :
    ¬ ((staleness silentDb 0 {} none).noActivity =
          ((owners silentDb 0 {} none).map fun o => o.noRecentActivity).sum ∧
        ((((owners silentDb 0 {} none).map fun o => o.noRecentActivity).sum : Nat) : Int) =
          (nextActions silentDb 0 {} none).openDeals -
            (nextActions silentDb 0 {} none).withRecentActivity) := by
  rw [staleness_noActivity, sum_owners_noRecentActivity]
  decide

end SalesTrades.Analytics
