import SalesTrades.Analytics.Activity

/-!
# Stale deals

The staleness report tells in Python which open deals are stale, and rolls them up by the name of the
stage and by the name of the owner. The owners report tells it in SQL and groups by the owner's id and
name. All their figures are about the same deals, those open ones whose stage is known to have last moved
longer ago than the threshold (`staleFigures`).
-/

set_option autoImplicit false

namespace SalesTrades.Analytics

open SalesTrades.Library SalesTrades.Library.GroupBy SalesTrades.Library.LeftJoin SalesTrades.Deals

variable {db : Db} {now : Int} {filters : AnalyticsFilters} {ownerScope : Option Int}

/-! ## The deals -/

/-- The stage moved at a known time, more than `staleDays` days ago. -/
def isStale (now staleDays : Int) (d : EnrichedDeal) : Bool :=
  (stageUpdatedAt d.deal).any fun moved => (staleDays : ℚ) < ((now - moved : Int) : ℚ) / 1000000 / 86400

/-- The open deals that are stale. -/
def staleDeals (db : Db) (now : Int) (filters : AnalyticsFilters) (ownerScope : Option Int) :
    List EnrichedDeal :=
  (openScope db filters ownerScope).filter (isStale now filters.staleDays.1)

/-- What a deal adds to a total: nothing when it has no value. -/
def worth (d : EnrichedDeal) : ℚ := d.value.getD 0

/-- The name under which the reports show the owner of a deal. -/
def ownerNameOf (db : Db) (d : EnrichedDeal) : String :=
  ownerName (lookup Owner.id db.owners d.deal.row.ownerId)

/-- The name under which the reports show the stage of a deal. -/
def stageNameOf (d : EnrichedDeal) : String := d.stageName.getD "Unknown"

theorem exceeds_daysSince (staleDays : Int) (d : EnrichedDeal) :
    exceeds staleDays (daysSince now (stageUpdatedAt d.deal)) = isStale now staleDays d := by
  rw [exceeds, daysSince, isStale]
  cases stageUpdatedAt d.deal with
  | none => rfl
  | some moved => rfl

theorem mem_staleDeals {d : EnrichedDeal} :
    d ∈ staleDeals db now filters ownerScope ↔ d ∈ openScope db filters ownerScope ∧
      ∃ moved, stageUpdatedAt d.deal = some moved ∧
        (filters.staleDays.1 : ℚ) < ((now - moved : Int) : ℚ) / 1000000 / 86400 := by
  rw [staleDeals, List.mem_filter, isStale, Option.any_eq_true_iff_get]
  simp only [decide_eq_true_eq]
  apply and_congr_right
  intro _
  constructor
  · rintro ⟨hsome, hlong⟩
    exact ⟨_, (Option.some_get hsome).symm, hlong⟩
  · rintro ⟨moved, hmoved, hlong⟩
    simp only [hmoved, Option.isSome_some, Option.get_some, exists_true_left]
    exact hlong

/-! ## The staleness report -/

/-- The rows that the endpoint keeps. -/
theorem staleRows_eq :
    ((getStaleness db now filters ownerScope).filter fun row =>
      exceeds filters.staleDays.1 row.daysSinceStageMove) =
      (staleDeals db now filters ownerScope).map fun d =>
        stalenessRow db now (d, lookup Owner.id db.owners d.deal.row.ownerId) := by
  rw [getStaleness, selectWithOwner_eq_map, select_openWhere, ← openScope, List.map_map,
    List.filter_map, staleDeals]
  congr 1
  apply List.filter_congr
  intro d _
  exact exceeds_daysSince _ d

/-- A bucket holds the rows with its key. -/
theorem mem_buckets {key : StalenessRow → String} {rows : List StalenessRow} {b : StalenessBucket}
    (hb : b ∈ buckets key rows) :
    b.staleDeals = rows.countP (fun row => key row = b.key) ∧
      b.staleValue = ((rows.filter fun row => key row = b.key).map fun row => row.value.getD 0).sum := by
  have hmem := (buckets_perm key rows).mem_iff.1 (List.mem_map_of_mem hb)
  have hentry := Tally.mem_tally hmem
  rw [Tally.sum_pairs, List.map_map, List.map_map] at hentry
  obtain ⟨hdeals, hvalue⟩ := Prod.ext_iff.1 hentry
  have hones : b.staleDeals = ((rows.filter fun row => key row = b.key).map fun _ => 1).sum := hdeals
  refine ⟨?_, hvalue⟩
  rw [hones, List.map_const', List.sum_replicate_nat, Nat.mul_one, List.countP_eq_length_filter]

/-- A roll-up of the stale deals, by a name that each of them has. -/
structure RollsUp (name : EnrichedDeal → String) (stale : List EnrichedDeal)
    (rolledUp : List StalenessBucket) : Prop where
  deals : (rolledUp.map StalenessBucket.staleDeals).sum = stale.length
  value : (rolledUp.map StalenessBucket.staleValue).sum = (stale.map worth).sum
  bucket_deals : ∀ b ∈ rolledUp, b.staleDeals = stale.countP fun d => name d = b.key
  bucket_value : ∀ b ∈ rolledUp,
    b.staleValue = ((stale.filter fun d => name d = b.key).map worth).sum

theorem rollsUp_buckets {key : StalenessRow → String} {name : EnrichedDeal → String}
    (stale : List EnrichedDeal)
    (hname : ∀ d, key (stalenessRow db now (d, lookup Owner.id db.owners d.deal.row.ownerId)) = name d) :
    RollsUp name stale (buckets key (stale.map fun d =>
      stalenessRow db now (d, lookup Owner.id db.owners d.deal.row.ownerId))) where
  deals := by rw [(sum_buckets _ _).1, List.length_map]
  value := by
    rw [(sum_buckets _ _).2, List.map_map]
    rfl
  bucket_deals := by
    intro b hb
    rw [(mem_buckets hb).1, List.countP_map]
    apply List.countP_congr
    intro d _
    rw [Function.comp_apply, hname]
  bucket_value := by
    intro b hb
    rw [(mem_buckets hb).2, List.filter_map, List.map_map]
    have hsame : (fun row : StalenessRow => decide (key row = b.key)) ∘ (fun d =>
        stalenessRow db now (d, lookup Owner.id db.owners d.deal.row.ownerId)) =
          fun d => decide (name d = b.key) := by
      funext d
      rw [Function.comp_apply, hname]
    rw [hsame]
    rfl

/-! ## The owners report -/

/-- What an open deal that is stale adds to its owner's row. -/
def staleWorth (now staleDays : Int) (d : EnrichedDeal) : ℚ :=
  if d.hasForecast "Open" && isStale now staleDays d then worth d else 0

theorem sum_staleWorth (db : Db) (now : Int) (filters : AnalyticsFilters) (ownerScope : Option Int)
    (keep : EnrichedDeal → Bool) :
    (((scope db filters ownerScope).filter keep).map (staleWorth now filters.staleDays.1)).sum =
      (((staleDeals db now filters ownerScope).filter keep).map worth).sum := by
  rw [staleDeals, openScope, List.filter_filter, List.filter_filter]
  induction scope db filters ownerScope with
  | nil => rfl
  | cons d ds ih =>
      rw [List.filter_cons, List.filter_cons]
      cases hkeep : keep d with
      | false => simpa [hkeep] using ih
      | true =>
          simp only [if_true, Bool.true_and, List.map_cons, List.sum_cons, ih, staleWorth]
          rw [Bool.and_comm]
          split
          · rw [List.map_cons, List.sum_cons]
          · rw [zero_add]

/-- The column `stale_value`. -/
theorem ownerRow_staleValue (g : (Option Int × String) × List OwnerBase) :
    (ownerRow filters.staleDays.1 g).staleValue = (g.2.map fun b =>
      if b.hasForecast "Open" && exceeds filters.staleDays.1 b.daysSinceStageMove then b.value.getD 0
      else 0).sum :=
  getD_sumFilter _ _ _

theorem staleWorth_ownerBase (d : EnrichedDeal) (owner : Option Owner) :
    (if (ownerBase db now filters.staleDays.1 (d, owner)).hasForecast "Open" &&
        exceeds filters.staleDays.1
          (ownerBase db now filters.staleDays.1 (d, owner)).daysSinceStageMove then
      (ownerBase db now filters.staleDays.1 (d, owner)).value.getD 0 else 0) =
      staleWorth now filters.staleDays.1 d := by
  rw [staleWorth, ← exceeds_daysSince]
  rfl

theorem sum_owners_staleValue :
    ((owners db now filters ownerScope).map fun o => o.staleValue).sum =
      ((staleDeals db now filters ownerScope).map worth).sum := by
  rw [sum_owners (fun o => o.staleValue) _ fun g _ => ownerRow_staleValue g]
  simp only [staleWorth_ownerBase]
  have hall := sum_staleWorth db now filters ownerScope fun _ => true
  simpa using hall

/-- An owner's row is about the stale deals with the owner's id and name. -/
theorem owner_staleValue {o : OwnerAccountability} (ho : o ∈ owners db now filters ownerScope) :
    o.staleValue = (((staleDeals db now filters ownerScope).filter fun d =>
      (d.deal.row.ownerId, ownerNameOf db d) = (o.ownerId, o.ownerName)).map worth).sum := by
  rw [owners, List.mem_map] at ho
  obtain ⟨row, hrow, rfl⟩ := ho
  rw [getOwnerAccountability, List.mem_map] at hrow
  obtain ⟨g, hg, rfl⟩ := hrow
  obtain ⟨-, hrows⟩ := mem_groups.1 hg
  rw [selectWithOwner_eq_map, ← scope, List.map_map, List.filter_map] at hrows
  rw [ownerRow_staleValue, hrows, List.map_map, ← sum_staleWorth]
  apply congrArg List.sum
  apply List.map_congr_left
  intro d _
  exact staleWorth_ownerBase d _

/-! ## Agreement -/

/-- **The figures on stale deals.** The roll-ups add up to the totals, as does the owners report, and all
of them are about `staleDeals`: deals with a known time of the last stage move. -/
structure StaleFigures (db : Db) (now : Int) (filters : AnalyticsFilters) (ownerScope : Option Int) :
    Prop where
  stage_deals : ((staleness db now filters ownerScope).byStage.map StalenessBucket.staleDeals).sum =
    (staleness db now filters ownerScope).staleByStageMove
  owner_deals : ((staleness db now filters ownerScope).byOwner.map StalenessBucket.staleDeals).sum =
    (staleness db now filters ownerScope).staleByStageMove
  stage_value : ((staleness db now filters ownerScope).byStage.map StalenessBucket.staleValue).sum =
    (staleness db now filters ownerScope).staleValue
  owner_value : ((staleness db now filters ownerScope).byOwner.map StalenessBucket.staleValue).sum =
    (staleness db now filters ownerScope).staleValue
  owners_value : ((owners db now filters ownerScope).map fun o => o.staleValue).sum =
    (staleness db now filters ownerScope).staleValue
  counted : (staleness db now filters ownerScope).staleByStageMove =
    (staleDeals db now filters ownerScope).length
  by_stage : RollsUp stageNameOf (staleDeals db now filters ownerScope)
    (staleness db now filters ownerScope).byStage
  by_owner : RollsUp (ownerNameOf db) (staleDeals db now filters ownerScope)
    (staleness db now filters ownerScope).byOwner
  by_owner_row : ∀ o ∈ owners db now filters ownerScope,
    o.staleValue = (((staleDeals db now filters ownerScope).filter fun d =>
      (d.deal.row.ownerId, ownerNameOf db d) = (o.ownerId, o.ownerName)).map worth).sum
  move_known : ∀ d ∈ staleDeals db now filters ownerScope, d.deal.row .stageUpdatedAt ≠ none

theorem staleness_staleByStageMove : (staleness db now filters ownerScope).staleByStageMove =
    (staleDeals db now filters ownerScope).length := by
  rw [staleness, staleRows_eq, List.length_map]

theorem staleness_staleValue : (staleness db now filters ownerScope).staleValue =
    ((staleDeals db now filters ownerScope).map worth).sum := by
  rw [staleness, staleRows_eq, List.map_map]
  rfl

theorem staleness_byStage : RollsUp stageNameOf (staleDeals db now filters ownerScope)
    (staleness db now filters ownerScope).byStage := by
  rw [staleness, staleRows_eq]
  exact rollsUp_buckets _ fun _ => rfl

theorem staleness_byOwner : RollsUp (ownerNameOf db) (staleDeals db now filters ownerScope)
    (staleness db now filters ownerScope).byOwner := by
  rw [staleness, staleRows_eq]
  exact rollsUp_buckets _ fun _ => rfl

theorem staleFigures (db : Db) (now : Int) (filters : AnalyticsFilters) (ownerScope : Option Int) :
    StaleFigures db now filters ownerScope where
  stage_deals := staleness_byStage.deals.trans staleness_staleByStageMove.symm
  owner_deals := staleness_byOwner.deals.trans staleness_staleByStageMove.symm
  stage_value := staleness_byStage.value.trans staleness_staleValue.symm
  owner_value := staleness_byOwner.value.trans staleness_staleValue.symm
  owners_value := sum_owners_staleValue.trans staleness_staleValue.symm
  counted := staleness_staleByStageMove
  by_stage := staleness_byStage
  by_owner := staleness_byOwner
  by_owner_row := fun _ ho => owner_staleValue ho
  move_known := by
    intro d hd hnone
    obtain ⟨-, moved, hmoved, -⟩ := mem_staleDeals.1 hd
    rw [stageUpdatedAt, hnone] at hmoved
    cases hmoved

end SalesTrades.Analytics
