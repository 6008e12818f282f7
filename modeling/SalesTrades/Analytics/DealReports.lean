import SalesTrades.Analytics.Agreement

/-!
# Reports on losses, ages, data quality, renewals and response times

These reports read two columns and one table more than the others: the direction of an email, the time
a deal was synced, and the lookup of loss reasons.
-/

set_option autoImplicit false

namespace SalesTrades.Analytics

open SalesTrades.Library SalesTrades.Library.GroupBy SalesTrades.Library.LeftJoin SalesTrades.Deals

/-! ## The tables -/

/-- `email_activity`, with the column that only the response times read. -/
structure DirectedEmail extends EmailActivity where
  direction : String

/-- `deal_reasons`. -/
structure DealReason where
  id : Int
  name : String

/-- What the reports read, these ones included. -/
structure ReportDb extends Db where
  directedEmails : List DirectedEmail
  emails_eq : emails = directedEmails.map DirectedEmail.toEmailActivity
  dealReasons : List DealReason
  dealReasons_nodup : (dealReasons.map DealReason.id).Nodup
  /-- `deals_snapshot.last_synced_at` by deal id. -/
  lastSyncedAt : Int → Int

theorem noEmails_eq :
    ([] : List EmailActivity) = ([] : List DirectedEmail).map DirectedEmail.toEmailActivity := rfl

/-- `get_data_as_of`. -/
def getDataAsOf (db : ReportDb) : Option Int :=
  (db.deals.rows.map fun d => db.lastSyncedAt d.dealId).max?

/-! ## Python's numbers -/

/-- `round(x, 1)`: halves go to the even digit. -/
def round1 (x : ℚ) : ℚ :=
  let tenths := (x * 10).floor
  let rest := x * 10 - tenths
  if rest < 1 / 2 then (tenths : ℚ) / 10
  else if 1 / 2 < rest then ((tenths + 1 : Int) : ℚ) / 10
  else if tenths % 2 = 0 then (tenths : ℚ) / 10 else ((tenths + 1 : Int) : ℚ) / 10

/-- `_pct`. -/
def pct (part whole : Nat) : ℚ := if whole = 0 then 0 else round1 (100 * part / whole)

/-! ## Loss reasons -/

/-- `_LOSS_CATEGORY_BY_REASON`. -/
def lossCategoryByReason : List (String × String) :=
  [("price is too high", "pricing"), ("opted our rival", "competitor"),
    ("no proper follow-up", "poor follow-up"), ("appointment missed", "poor follow-up"),
    ("need only in future", "timing"), ("product not satisfying", "product mismatch"),
    ("not interested", "wrong target"), ("no requirement", "wrong target"),
    ("junk lead", "wrong target"), ("test", "uncategorised")]

def categorizeLossReason (lc : LowerCase) (reason : Option String) : String :=
  match reason with
  | none => "no reason recorded"
  | some reason =>
      if strip reason = "" then "no reason recorded"
      else (lossCategoryByReason.lookup (lc.lower (strip reason))).getD "uncategorised"

structure LossReasonRow where
  reason : String
  lostDeals : Nat
  lostValue : ℚ

def lossReasonRow (g : Option String × List EnrichedDeal) : LossReasonRow where
  reason := g.1.getD ""
  lostDeals := g.2.countP fun _ => true
  lostValue := (sumFilter (fun _ => true) EnrichedDeal.value g.2).getD 0

/-- The name of the reason that a lost deal refers to. -/
def lossReason (db : ReportDb) (d : EnrichedDeal) : Option String :=
  (lookup DealReason.id db.dealReasons (d.deal.row .lostReasonId)).map DealReason.name

def getLossReasons (db : ReportDb) (filters : AnalyticsFilters) (ownerScope : Option Int) :
    List LossReasonRow :=
  let lost := (leftJoin (fun d => d.deal.row .lostReasonId) DealReason.id (dealsEnriched db.toDb)
    db.dealReasons).filter fun d =>
      Selected (buildFilters filters ownerScope ++ [.forecastType "Closed Lost"]) d.1
  (groups (fun d => d.2.map DealReason.name) lost).map fun g => lossReasonRow (g.1, g.2.map Prod.fst)

structure LossReasonCategory where
  category : String
  lostDeals : Nat
  lostValue : ℚ

/-- `grouped[category][0] += lost_deals; grouped[category][1] += lost_value`. -/
def addToCategory (category : String) (lostDeals : Nat) (lostValue : ℚ) :
    List LossReasonCategory → List LossReasonCategory
  | [] => [⟨category, lostDeals, lostValue⟩]
  | c :: cs =>
      if c.category = category then ⟨category, c.lostDeals + lostDeals, c.lostValue + lostValue⟩ :: cs
      else c :: addToCategory category lostDeals lostValue cs

structure LossReasonsResponse where
  totalLost : Nat
  noReasonPct : ℚ
  categories : List LossReasonCategory

/-- The endpoint `loss_reasons`: the category with the most deals first. -/
def lossReasons (lc : LowerCase) (db : ReportDb) (filters : AnalyticsFilters)
    (ownerScope : Option Int) : LossReasonsResponse :=
  let rows := getLossReasons db filters ownerScope
  let totalLost := (rows.map LossReasonRow.lostDeals).sum
  let noReason := ((rows.filter fun row => row.reason = "").map LossReasonRow.lostDeals).sum
  -- an empty reason is passed on as none
  let category := fun row : LossReasonRow =>
    categorizeLossReason lc (if row.reason = "" then none else some row.reason)
  { totalLost
    noReasonPct := pct noReason totalLost
    categories := (rows.foldl (fun cs row => addToCategory (category row) row.lostDeals row.lostValue cs)
      []).mergeSort fun a b => b.lostDeals ≤ a.lostDeals }

/-! ## Ageing -/

inductive AgeingGroup where
  | stage
  | owner

structure AgeingBucketRow where
  key : String
  bucket0To30 : Nat
  bucket30To90 : Nat
  bucket90To365 : Nat
  bucket365Plus : Nat

/-- `age_days` in a range: a null is in none. -/
def ageIn (p : Int → Bool) (d : EnrichedDeal × Option Owner) : Bool := (d.1.deal.row .ageDays).any p

def ageingBucketRow (g : String × List (EnrichedDeal × Option Owner)) : AgeingBucketRow where
  key := g.1
  bucket0To30 := g.2.countP (ageIn fun age => age < 30)
  bucket30To90 := g.2.countP (ageIn fun age => 30 ≤ age && age < 90)
  bucket90To365 := g.2.countP (ageIn fun age => 90 ≤ age && age < 365)
  bucket365Plus := g.2.countP (ageIn fun age => 365 ≤ age)

def ageingKey : AgeingGroup → EnrichedDeal × Option Owner → String
  | .stage, d => d.1.stageName.getD "Unknown"
  | .owner, d => ownerName d.2

def getAgeing (db : Db) (filters : AnalyticsFilters) (ownerScope : Option Int) (group : AgeingGroup) :
    List AgeingBucketRow :=
  (groups (ageingKey group) (selectWithOwner db (openWhere filters ownerScope))).map ageingBucketRow

structure AgeingResponse where
  byStage : List AgeingBucketRow
  byOwner : List AgeingBucketRow

/-- The endpoint `ageing`. -/
def ageing (db : Db) (filters : AnalyticsFilters) (ownerScope : Option Int) : AgeingResponse where
  byStage := getAgeing db filters ownerScope .stage
  byOwner := getAgeing db filters ownerScope .owner

/-! ## Data quality -/

/-- `trim(text)`, which removes spaces only. -/
def trimSpaces (s : String) : String :=
  String.ofList ((s.toList.dropWhile (· == ' ')).reverse.dropWhile (· == ' ')).reverse

structure DataQualityResponse where
  totalDeals : Nat
  missingOwner : Nat
  missingStage : Nat
  missingPipeline : Nat
  missingValue : Nat
  duplicateNameDeals : Nat
  notes : List String

/-- The deals whose name another of them has: `HAVING count(*) > 1`. -/
def duplicateNameDeals (lower : String → String) (rows : List EnrichedDeal) : Nat :=
  let named := rows.filterMap fun d => d.deal.row .name
  (((groups (fun name => lower (trimSpaces name)) named).map fun g => g.2.length).filter
    fun c => 1 < c).sum

/-- The endpoint `data_quality`, with the counts of `get_data_quality`. -/
def dataQuality (lower : String → String) (db : Db) (filters : AnalyticsFilters)
    (ownerScope : Option Int) : DataQualityResponse :=
  let rows := scope db filters ownerScope
  { totalDeals := rows.length
    missingOwner := rows.countP fun d => d.deal.row.ownerId.isNone
    missingStage := rows.countP fun d => d.deal.row.stageId.isNone
    missingPipeline := rows.countP fun d => d.deal.row.pipelineId.isNone
    missingValue := rows.countP fun d =>
      (d.deal.row .baseCurrencyAmount).isNone && (d.deal.row .amount).isNone
    duplicateNameDeals := duplicateNameDeals lower rows
    notes :=
      ["Contact-level checks (phone reachability, orphaned contacts) are " ++
          "unavailable — contacts are not yet ingested.",
        "Lead source is not a deal field; see /analytics/lead-source."] }

/-! ## Renewals -/

structure RenewalDeal where
  dealId : Int
  name : Option String
  ownerId : Option Int
  businessLine : String
  pipelineName : Option String
  cfProject : Option String
  termEndDate : Date
  daysUntilExpiry : Int
  value : Option ℚ

/-- A lease that ends in the next `within_days` days or ended in the last 30. -/
def renewalDeal (today : Date) (withinDays : Int) (d : EnrichedDeal) : Option RenewalDeal :=
  (d.deal.row .cfTermEndDate).bind fun (termEnd : Date) =>
    if !d.hasForecast "Closed Lost" && termEnd.day ≤ today.day + withinDays &&
        today.day - 30 ≤ termEnd.day then
      some
        { dealId := d.deal.dealId
          name := d.deal.row .name
          ownerId := d.deal.row.ownerId
          businessLine := orUnassigned d.businessLine
          pipelineName := d.pipelineName
          cfProject := d.deal.row .cfProject
          termEndDate := termEnd
          daysUntilExpiry := termEnd.day - today.day
          value := (d.deal.row .cfTotalLeaseAmount).or
            ((d.deal.row .baseCurrencyAmount).or (d.deal.row .amount)) }
    else none

/-- The most urgent first. -/
def getRenewals (db : Db) (today : Date) (filters : AnalyticsFilters) (ownerScope : Option Int)
    (withinDays : Int) : List RenewalDeal :=
  ((scope db filters ownerScope).filterMap (renewalDeal today withinDays)).mergeSort
    fun a b => a.termEndDate.day ≤ b.termEndDate.day

structure RenewalsResponse where
  withinDays : Int
  upcomingCount : Nat
  overdueCount : Nat
  totalValue : ℚ
  renewals : List RenewalDeal

/-- The endpoint `renewals`. -/
def renewals (db : Db) (today : Date) (filters : AnalyticsFilters) (ownerScope : Option Int)
    (withinDays : Int) : RenewalsResponse :=
  let deals := getRenewals db today filters ownerScope withinDays
  let overdue := deals.countP fun deal => deal.daysUntilExpiry < 0
  { withinDays
    upcomingCount := deals.length - overdue
    overdueCount := overdue
    totalValue := (deals.map fun deal => deal.value.getD 0).sum
    renewals := deals }

/-! ## Response times -/

/-- The time of the first outgoing email on a deal. -/
def firstOutgoing (db : ReportDb) (d : StoredDeal) : Option Int :=
  ((db.directedEmails.filter fun e => e.dealId = d.dealId && e.direction = "outgoing").map fun e =>
    e.conversationTime).min?

/-- A row of `base`. -/
structure ResponseBase where
  ownerId : Option Int
  ownerName : String
  dealCreatedAt : Option Int
  firstOutgoing : Option Int

def responseBase (db : ReportDb) (d : EnrichedDeal × Option Owner) : ResponseBase where
  ownerId := d.1.deal.row.ownerId
  ownerName := ownerName d.2
  dealCreatedAt := (d.1.deal.row .dealCreatedAt).map Datetime.instant
  firstOutgoing := firstOutgoing db d.1.deal

/-- The days to the first outreach, of a deal that had one after it was created. -/
def responseDays (b : ResponseBase) : Option ℚ :=
  b.firstOutgoing.bind fun first => b.dealCreatedAt.bind fun created =>
    if created ≤ first then some (((first - created : Int) : ℚ) / 1000000 / 86400) else none

/-- `avg`: null when there is nothing to average. -/
def avg (values : List ℚ) : Option ℚ :=
  if values.isEmpty then none else some (values.sum / values.length)

structure OwnerResponseTime where
  ownerId : Option Int
  ownerName : String
  dealsWithOutreach : Nat
  dealsWithoutOutreach : Nat
  avgFirstResponseDays : Option ℚ

def ownerResponseTime (g : (Option Int × String) × List ResponseBase) : OwnerResponseTime where
  ownerId := g.1.1
  ownerName := g.1.2
  dealsWithOutreach := g.2.countP fun b => b.firstOutgoing.isSome && b.dealCreatedAt.isSome
  dealsWithoutOutreach := g.2.countP fun b => b.firstOutgoing.isNone
  avgFirstResponseDays := avg (g.2.filterMap responseDays)

def getResponseTimes (db : ReportDb) (filters : AnalyticsFilters) (ownerScope : Option Int) :
    List OwnerResponseTime :=
  (groups (fun b => (b.ownerId, b.ownerName))
    ((selectWithOwner db.toDb (buildFilters filters ownerScope)).map (responseBase db))).map
    ownerResponseTime

structure ResponseTimesResponse where
  overallAvgFirstResponseDays : Option ℚ
  owners : List OwnerResponseTime

/-- The endpoint `response_times`. -/
def responseTimes (db : ReportDb) (filters : AnalyticsFilters) (ownerScope : Option Int) :
    ResponseTimesResponse :=
  let owners := getResponseTimes db filters ownerScope
  let total := (owners.map OwnerResponseTime.dealsWithOutreach).sum
  { overallAvgFirstResponseDays :=
      if total = 0 then none
      else some (round1 ((owners.filterMap fun o =>
        o.avgFirstResponseDays.map fun days => days * (o.dealsWithOutreach : ℚ)).sum / total))
    owners }

end SalesTrades.Analytics
