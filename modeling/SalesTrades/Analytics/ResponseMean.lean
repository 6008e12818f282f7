import SalesTrades.Analytics.DealReports
import SalesTrades.Library.Means

/-!
# The mean response time

`response_times` recovers the overall mean from the means of the owners, each times the owner's
`deals_with_outreach`. That count includes the deals whose first email is older than the deal, which the
owner's mean leaves out: such a deal stands in with the mean of its owner. So the overall figure is the mean
over the deals exactly when these deals are balanced (`overall_is_mean_iff`), as they are when there are
none.
-/

set_option autoImplicit false

namespace SalesTrades.Analytics

open SalesTrades.Library SalesTrades.Library.GroupBy SalesTrades.Library.LeftJoin SalesTrades.Deals

/-! ## The deals -/

/-- The rows of `base`. -/
def responseRows (db : ReportDb) (filters : AnalyticsFilters) (ownerScope : Option Int) :
    List ResponseBase :=
  (selectWithOwner db.toDb (buildFilters filters ownerScope)).map (responseBase db)

/-- The deals are grouped by owner. -/
def ResponseBase.owner (b : ResponseBase) : Option Int × String := (b.ownerId, b.ownerName)

/-- `first_outgoing IS NOT NULL AND deal_created_at IS NOT NULL`. -/
def ResponseBase.hasOutreach (b : ResponseBase) : Bool :=
  b.firstOutgoing.isSome && b.dealCreatedAt.isSome

/-- The first email is older than the deal. -/
def ResponseBase.IsEarly (b : ResponseBase) : Prop :=
  ∃ first created, b.firstOutgoing = some first ∧ b.dealCreatedAt = some created ∧ first < created

theorem hasOutreach_of_responseDays {b : ResponseBase} (h : (responseDays b).isSome = true) :
    b.hasOutreach = true := by
  rw [responseDays] at h
  rw [ResponseBase.hasOutreach]
  cases hfirst : b.firstOutgoing with
  | none =>
      rw [hfirst] at h
      cases h
  | some first =>
      cases hcreated : b.dealCreatedAt with
      | none =>
          rw [hfirst, hcreated] at h
          cases h
      | some created => rfl

/-- The deals that count without a response time are the early ones. -/
theorem unmeasured_iff_isEarly (b : ResponseBase) :
    (b.hasOutreach && (responseDays b).isNone) = true ↔ b.IsEarly := by
  rw [ResponseBase.hasOutreach, responseDays, ResponseBase.IsEarly]
  cases b.firstOutgoing with
  | none => simp
  | some first =>
      cases b.dealCreatedAt with
      | none => simp
      | some created =>
          by_cases hle : created ≤ first
          · simp [hle]
          · simp [hle, Int.not_le.1 hle]

/-! ## The overall figure -/

/-- The overall figure, before it is rounded. -/
def overallAvg (db : ReportDb) (filters : AnalyticsFilters) (ownerScope : Option Int) : Option ℚ :=
  Means.recombined ResponseBase.owner responseDays ResponseBase.hasOutreach
    (responseRows db filters ownerScope)

theorem avg_eq_mean (values : List ℚ) : avg values = Means.mean values := rfl

/-- The endpoint answers with the rounded figure. -/
theorem overall_eq_round (db : ReportDb) (filters : AnalyticsFilters) (ownerScope : Option Int) :
    (responseTimes db filters ownerScope).overallAvgFirstResponseDays =
      (overallAvg db filters ownerScope).map round1 := by
  have htotal : ((getResponseTimes db filters ownerScope).map
      OwnerResponseTime.dealsWithOutreach).sum = Means.totalWeight ResponseBase.owner
        ResponseBase.hasOutreach (responseRows db filters ownerScope) := by
    rw [getResponseTimes, List.map_map]
    rfl
  have hsum : ((getResponseTimes db filters ownerScope).filterMap fun o =>
      o.avgFirstResponseDays.map fun days => days * (o.dealsWithOutreach : ℚ)).sum =
        Means.weightedSum ResponseBase.owner responseDays ResponseBase.hasOutreach
          (responseRows db filters ownerScope) := by
    rw [getResponseTimes, List.filterMap_map]
    rfl
  rw [responseTimes, overallAvg, Means.recombined]
  dsimp only
  rw [htotal, hsum, apply_ite (Option.map round1)]
  rfl

/-! ## The mean -/

/-- The overall figure is the mean over the deals that enter the means of the owners. -/
structure OverallIsMean (db : ReportDb) (filters : AnalyticsFilters) (ownerScope : Option Int) :
    Prop where
  owners : ∀ o ∈ (responseTimes db filters ownerScope).owners, o.avgFirstResponseDays =
    avg (((responseRows db filters ownerScope).filter fun b =>
      b.owner = (o.ownerId, o.ownerName)).filterMap responseDays)
  rounded : (responseTimes db filters ownerScope).overallAvgFirstResponseDays =
    (overallAvg db filters ownerScope).map round1
  overall : overallAvg db filters ownerScope =
    avg ((responseRows db filters ownerScope).filterMap responseDays)

/-- The deals with an early email. -/
def earlyDeals (db : ReportDb) (filters : AnalyticsFilters) (ownerScope : Option Int) :
    List ResponseBase :=
  Means.unmeasured responseDays ResponseBase.hasOutreach (responseRows db filters ownerScope)

/-- The response times of the others. -/
def responseTimesInDays (db : ReportDb) (filters : AnalyticsFilters) (ownerScope : Option Int) :
    List ℚ :=
  (responseRows db filters ownerScope).filterMap responseDays

/-- What a deal with an early email stands in with: the mean over its owner's other deals, 0 when there is
none. -/
def ownersMean (db : ReportDb) (filters : AnalyticsFilters) (ownerScope : Option Int)
    (b : ResponseBase) : ℚ :=
  (avg (((responseRows db filters ownerScope).filter fun b' => b'.owner = b.owner).filterMap
    responseDays)).getD 0

variable {db : ReportDb} {filters : AnalyticsFilters} {ownerScope : Option Int}

theorem mem_earlyDeals {b : ResponseBase} : b ∈ earlyDeals db filters ownerScope ↔
    b ∈ responseRows db filters ownerScope ∧ b.IsEarly := by
  rw [earlyDeals, Means.unmeasured, List.mem_filter, unmeasured_iff_isEarly]

/-- An owner's mean is over the owner's deals. -/
theorem ownerMeans {o : OwnerResponseTime} (ho : o ∈ (responseTimes db filters ownerScope).owners) :
    o.avgFirstResponseDays = avg (((responseRows db filters ownerScope).filter fun b =>
      b.owner = (o.ownerId, o.ownerName)).filterMap responseDays) := by
  rw [responseTimes, getResponseTimes, List.mem_map] at ho
  obtain ⟨g, hg, rfl⟩ := ho
  obtain ⟨-, hrows⟩ := mem_groups.1 hg
  rw [ownerResponseTime, hrows]
  rfl

/-- The balance of the early deals: the means they stand in with add up to what they would with the mean
over all deals, and where no deal has a response time none is early. -/
structure EarlyBalanced (db : ReportDb) (filters : AnalyticsFilters) (ownerScope : Option Int) :
    Prop where
  nothing : responseTimesInDays db filters ownerScope = [] → earlyDeals db filters ownerScope = []
  average : ((earlyDeals db filters ownerScope).map (ownersMean db filters ownerScope)).sum *
      (responseTimesInDays db filters ownerScope).length =
    (responseTimesInDays db filters ownerScope).sum * (earlyDeals db filters ownerScope).length

theorem overallAvg_eq_iff : overallAvg db filters ownerScope =
    avg ((responseRows db filters ownerScope).filterMap responseDays) ↔
      EarlyBalanced db filters ownerScope := by
  rw [overallAvg, avg_eq_mean,
    Means.recombined_eq_mean_iff fun b _ hdays => hasOutreach_of_responseDays hdays]
  exact ⟨fun h => ⟨h.nothing, h.average⟩, fun h => ⟨h.nothing, h.average⟩⟩

/-- **Exactness of the mean.** -/
theorem overall_is_mean_iff (db : ReportDb) (filters : AnalyticsFilters) (ownerScope : Option Int) :
    OverallIsMean db filters ownerScope ↔ EarlyBalanced db filters ownerScope := by
  constructor
  · exact fun h => overallAvg_eq_iff.1 h.overall
  · exact fun h => ⟨fun _ ho => ownerMeans ho, overall_eq_round db filters ownerScope,
      overallAvg_eq_iff.2 h⟩

/-- Without early emails the figure is the mean. -/
theorem overallIsMean_of_no_early
    (h : ∀ b ∈ responseRows db filters ownerScope, ¬ b.IsEarly) :
    OverallIsMean db filters ownerScope := by
  have hnone : earlyDeals db filters ownerScope = [] := by
    apply List.eq_nil_iff_forall_not_mem.2
    intro b hb
    obtain ⟨hrow, hearly⟩ := mem_earlyDeals.1 hb
    exact h b hrow hearly
  refine ⟨fun _ ho => ownerMeans ho, overall_eq_round db filters ownerScope,
    overallAvg_eq_iff.2 ⟨fun _ => hnone, ?_⟩⟩
  rw [hnone, List.map_nil, List.sum_nil, List.length_nil, Nat.cast_zero, zero_mul, mul_zero]

/-! ## An early email -/

/-- The first instant of a day. -/
def midnight (day : Int) : Int := day * 86400000000

/-- A deal of an owner, created on some day. -/
def dealCreatedOn (dealId owner day : Int) : StoredDeal where
  dealId := dealId
  row := Function.update (Function.update PartialRecord.empty .ownerId (some owner)) .dealCreatedAt
    (some ⟨midnight day, some 0⟩)

theorem twoNames_nodup : ([⟨1, "Ada"⟩, ⟨2, "Bob"⟩].map Owner.id).Nodup := by decide

/-- The first owner answered one deal after two days, and has one with an email from before it was
created. The second owner answered a deal after ten days. -/
def earlyEmail : ReportDb where
  deals := DealTable.empty.store [dealCreatedOn 1 1 0, dealCreatedOn 2 1 10, dealCreatedOn 3 2 0]
  stages := []
  pipelines := []
  owners := [⟨1, "Ada"⟩, ⟨2, "Bob"⟩]
  tasks := []
  emails := [⟨1, midnight 2⟩, ⟨2, midnight 9⟩, ⟨3, midnight 10⟩]
  events := []
  stages_nodup := List.nodup_nil
  pipelines_nodup := List.nodup_nil
  owners_nodup := twoNames_nodup
  directedEmails := [⟨⟨1, midnight 2⟩, "outgoing"⟩, ⟨⟨2, midnight 9⟩, "outgoing"⟩,
    ⟨⟨3, midnight 10⟩, "outgoing"⟩]
  emails_eq := rfl
  dealReasons := []
  dealReasons_nodup := List.nodup_nil
  lastSyncedAt := fun _ => 0

/-- The mean over the two deals is 6 days, and the endpoint has 14/3. -/
theorem early_email_counted : ¬ OverallIsMean earlyEmail {} none := by
  intro h
  have hbalanced := (overallAvg_eq_iff.1 h.overall).average
  revert hbalanced
  decide +kernel

end SalesTrades.Analytics
