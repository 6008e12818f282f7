import SalesTrades.Analytics.DealReports

/-!
# Ageing of all open deals

The ageing report counts an open deal in one of four ranges of `age_days`, and a null is in none of them
(`ageing_covers_iff`). Webhooks do not carry an age. So a deal that a webhook mirrors first is in no range
until a sync brings its age, and the report covers the open deals throughout a run in which every deal
that is stored in an open stage has an age or is given one (`ageing_covers_of_run`).
-/

set_option autoImplicit false

namespace SalesTrades.Analytics

open SalesTrades.Library SalesTrades.Library.GroupBy SalesTrades.Library.LeftJoin SalesTrades.Deals

variable {db : Db} {filters : AnalyticsFilters} {ownerScope : Option Int} {group : AgeingGroup}

/-! ## The report -/

/-- The open deals, with their owners. -/
def openDeals (db : Db) (filters : AnalyticsFilters) (ownerScope : Option Int) :
    List (EnrichedDeal × Option Owner) :=
  selectWithOwner db (openWhere filters ownerScope)

/-- The four ranges. -/
def ageingRanges : List (Int → Bool) :=
  [fun age => age < 30, fun age => 30 ≤ age && age < 90, fun age => 90 ≤ age && age < 365,
    fun age => 365 ≤ age]

def AgeingBucketRow.buckets (row : AgeingBucketRow) : List ℕ :=
  [row.bucket0To30, row.bucket30To90, row.bucket90To365, row.bucket365Plus]

/-- A breakdown has every open deal in one bucket of one row. -/
structure AgeingCovers (db : Db) (filters : AnalyticsFilters) (ownerScope : Option Int)
    (group : AgeingGroup) : Prop where
  keys_nodup : ((getAgeing db filters ownerScope group).map AgeingBucketRow.key).Nodup
  has_row : ∀ d ∈ openDeals db filters ownerScope,
    ageingKey group d ∈ (getAgeing db filters ownerScope group).map AgeingBucketRow.key
  row_buckets : ∀ row ∈ getAgeing db filters ownerScope group, row.buckets = ageingRanges.map fun p =>
    ((openDeals db filters ownerScope).filter fun d => ageingKey group d = row.key).countP (ageIn p)
  one_bucket : ∀ d ∈ openDeals db filters ownerScope, (ageingRanges.countP fun p => ageIn p d) = 1
  sum_buckets : ((getAgeing db filters ownerScope group).map fun row => row.buckets.sum).sum =
    (openScope db filters ownerScope).length

/-- An age is in one range. -/
theorem countP_ageingRanges (age : Int) : (ageingRanges.countP fun p => p age) = 1 := by
  simp only [ageingRanges, List.countP_cons, List.countP_nil, Bool.and_eq_true, decide_eq_true_eq]
  by_cases h30 : age < 30
  · rw [if_pos h30, if_neg (by omega), if_neg (by omega), if_neg (by omega)]
  · by_cases h90 : age < 90
    · rw [if_neg h30, if_neg (by omega), if_neg (by omega), if_pos (by omega)]
    · by_cases h365 : age < 365
      · rw [if_neg h30, if_neg (by omega), if_pos (by omega), if_neg (by omega)]
      · rw [if_neg h30, if_pos (by omega), if_neg (by omega), if_neg (by omega)]

/-- A deal is in one range when it has an age, and in none otherwise. -/
theorem countP_ageIn (d : EnrichedDeal × Option Owner) :
    (ageingRanges.countP fun p => ageIn p d) = if (d.1.deal.row .ageDays).isSome then 1 else 0 := by
  simp only [ageIn]
  cases d.1.deal.row .ageDays with
  | none => rfl
  | some age => exact countP_ageingRanges age

theorem ageingBucketRow_buckets (g : String × List (EnrichedDeal × Option Owner)) :
    (ageingBucketRow g).buckets = ageingRanges.map fun p => g.2.countP (ageIn p) := rfl

/-- A row counts its deals as often as they are in a range. -/
theorem sum_ageingBucketRow (g : String × List (EnrichedDeal × Option Owner)) :
    (ageingBucketRow g).buckets.sum =
      (g.2.map fun d => if (d.1.deal.row .ageDays).isSome then 1 else 0).sum := by
  obtain ⟨key, ds⟩ := g
  rw [ageingBucketRow_buckets]
  induction ds with
  | nil => rfl
  | cons d ds ih =>
      rw [List.map_cons, List.sum_cons, ← ih, ← countP_ageIn]
      simp only [ageingRanges, List.map_cons, List.map_nil, List.sum_cons, List.sum_nil,
        List.countP_cons, List.countP_nil]
      omega

theorem sum_getAgeing : ((getAgeing db filters ownerScope group).map fun row => row.buckets.sum).sum =
    (openDeals db filters ownerScope).countP fun d => (d.1.deal.row .ageDays).isSome := by
  rw [getAgeing, List.map_map, countP_eq_sum]
  exact sum_map_groups _ _ sum_ageingBucketRow _

theorem keys_getAgeing : (getAgeing db filters ownerScope group).map AgeingBucketRow.key =
    ((openDeals db filters ownerScope).map (ageingKey group)).dedup := by
  rw [getAgeing, List.map_map, ← keys_groups]
  rfl

theorem map_openDeals : (openDeals db filters ownerScope).map Prod.fst =
    openScope db filters ownerScope := by
  rw [openDeals, selectWithOwner_eq_map, select_openWhere, ← openScope, List.map_map]
  exact List.map_id _

theorem length_openDeals : (openDeals db filters ownerScope).length =
    (openScope db filters ownerScope).length := by
  rw [← map_openDeals, List.length_map]

theorem age_of_openDeals (h : ∀ d ∈ openScope db filters ownerScope, d.deal.row .ageDays ≠ none)
    {d : EnrichedDeal × Option Owner} (hd : d ∈ openDeals db filters ownerScope) :
    (d.1.deal.row .ageDays).isSome = true := by
  apply Option.isSome_iff_ne_none.2
  apply h d.1
  rw [← map_openDeals]
  exact List.mem_map_of_mem hd

/-- **Exactness of the coverage.** -/
theorem ageing_covers_iff : AgeingCovers db filters ownerScope group ↔
    ∀ d ∈ openScope db filters ownerScope, d.deal.row .ageDays ≠ none := by
  constructor
  · intro h d hd
    rw [← map_openDeals] at hd
    obtain ⟨d', hd', rfl⟩ := List.mem_map.1 hd
    intro hnone
    have hone := h.one_bucket d' hd'
    rw [countP_ageIn, hnone] at hone
    cases hone
  · intro h
    refine ⟨?_, ?_, ?_, ?_, ?_⟩
    · rw [keys_getAgeing]
      exact List.nodup_dedup _
    · intro d hd
      rw [keys_getAgeing]
      exact List.mem_dedup.2 (List.mem_map_of_mem hd)
    · intro row hrow
      rw [getAgeing, List.mem_map] at hrow
      obtain ⟨g, hg, rfl⟩ := hrow
      obtain ⟨-, hrows⟩ := mem_groups.1 hg
      rw [ageingBucketRow_buckets, hrows]
      rfl
    · intro d hd
      rw [countP_ageIn, if_pos (age_of_openDeals h hd)]
    · rw [sum_getAgeing, ← length_openDeals]
      exact List.countP_eq_length.2 fun d hd => age_of_openDeals h hd

/-! ## Ages in the mirror -/

variable {ref : Reference} {lib : PyLib} {viewIds : List Int} {stages : List Stage}

/-- The stage is one of open deals. -/
def isOpenStage (stages : List Stage) (stageId : Int) : Bool :=
  (lookup (fun s => s.id) stages (some stageId)).any fun s => s.forecastType = "Open"

/-- A row in an open stage has an age. -/
def RowAged (stages : List Stage) (row : DealRow) : Prop :=
  ∀ stage ∈ row.stageId, isOpenStage stages stage = true → row .ageDays ≠ none

/-- Every mirrored deal in an open stage has an age. -/
def AllAged (stages : List Stage) (mirror : DealDb ref) : Prop :=
  ∀ id row, mirror.deals id = some row → RowAged stages row

theorem allAged_of_row {mirror mirror' : DealDb ref} {id : Int} {row : DealRow}
    (h : AllAged stages mirror) (hrow : mirror'.deals id = some row) (haged : RowAged stages row)
    (hother : ∀ id', id' ≠ id → mirror'.deals id' = mirror.deals id') : AllAged stages mirror' := by
  intro id' row' hrow'
  by_cases hid : id' = id
  · subst hid
    obtain rfl : row = row' := Option.some.inj (hrow.symm.trans hrow')
    exact haged
  · rw [hother id' hid] at hrow'
    exact h id' row' hrow'

/-- A webhook stores a deal whose row has an age, or in a stage that is not open. -/
def WebhookAged (lib : PyLib) (stages : List Stage) (payload : JsonObject) (mirror : DealDb ref) :
    Prop :=
  ∀ r, ReadsAs lib payload r → (mirror.rowOrEmpty r.webhook.dealId) .ageDays ≠ none ∨
    ∀ stage ∈ (r.place (buildStageResolver ref) mirror).2, isOpenStage stages stage = false

/-- A record has an age, its row has one, or its stage is not open. -/
def RecordAged (lib : PyLib) (stages : List Stage) (deal : Json) (mirror : DealDb ref) : Prop :=
  ∀ members r id, deal = .obj members → RecordReadsAs ref lib members r id →
    Json.member members "age" ≠ .null ∨ (mirror.rowOrEmpty id) .ageDays ≠ none ∨
      ∀ stage ∈ knownInt ref.stageIds (recordStage members), isOpenStage stages stage = false

/-- The deals that a webhook or a sync stores have an age or are given one, or are not in an open
stage. -/
def StepAged (lib : PyLib) (viewIds : List Int) (stages : List Stage) : DealOp → DealDb ref → Prop
  | .webhook _ payload, mirror => WebhookAged lib stages payload mirror
  | .sync feed, mirror =>
      Run.Guarded (recordStep lib) (RecordAged lib stages)
        (records (feedStreams ref viewIds feed).flatten) mirror

theorem overlay_age_ne_none {data row : DealRow} (h : row .ageDays ≠ none) :
    PartialRecord.overlay data row .ageDays ≠ none := by
  intro hnone
  exact h (PartialRecord.overlay_eq_none_iff.1 hnone).2

theorem allAged_webhook {now : Datetime} {payload : JsonObject} {mirror mirror' : DealDb ref}
    (h : AllAged stages mirror) (hguard : WebhookAged lib stages payload mirror)
    (hstep : dealStep lib viewIds (.webhook now payload) mirror = some mirror') :
    AllAged stages mirror' := by
  rcases dealStep_webhook hstep with rfl | ⟨r, hread, hok⟩
  · exact h
  obtain ⟨henc, hrow, hother, -⟩ := ingestWebhook_spec hread hok
  apply allAged_of_row h hrow _ hother
  intro stage hstage hopen
  rcases hguard r hread with hage | hclosed
  · exact overlay_age_ne_none hage
  · have hplace := congrArg Position.stageId (position_of_overlay henc)
    rw [DealRow.position] at hplace
    dsimp only at hplace
    rw [hplace] at hstage
    rw [hclosed stage hstage] at hopen
    cases hopen

theorem allAged_record {deal : Json} {mirror mirror' : DealDb ref} (h : AllAged stages mirror)
    (hguard : RecordAged lib stages deal mirror)
    (hstep : recordStep lib deal mirror = some mirror') : AllAged stages mirror' := by
  rcases recordStep_cases hstep with ⟨rfl, -⟩ | ⟨members, r, id, rfl, hread, henc, hrow, hother, -⟩
  · exact h
  apply allAged_of_row h hrow _ hother
  intro stage hstage hopen
  rcases hguard members r id rfl hread with hage | hage | hclosed
  · -- the age of the record is stored
    have hcell : r.data ref members .ageDays = some (.raw (Json.member members "age")) := if_neg hage
    intro hnone
    have hdata := (PartialRecord.overlay_eq_none_iff.1 hnone).1
    rw [encoded_eq_none_iff henc, hcell] at hdata
    cases hdata
  · exact overlay_age_ne_none hage
  · have hplace := congrArg Position.stageId (position_of_record hread (mirror.rowOrEmpty id))
    rw [DealRow.position] at hplace
    dsimp only at hplace
    rw [hplace, Option.mem_def, Option.or_eq_some_iff] at hstage
    rcases hstage with hnew | ⟨-, hold⟩
    · rw [hclosed stage hnew] at hopen
      cases hopen
    · -- the row keeps its stage, and its age
      cases hex : mirror.deals id with
      | none =>
          rw [DealDb.rowOrEmpty_of_none hex] at hold
          cases hold
      | some row =>
          rw [DealDb.rowOrEmpty_of_some hex] at hold ⊢
          exact overlay_age_ne_none (h id row hex stage hold hopen)

theorem allAged_step {op : DealOp} {mirror mirror' : DealDb ref} (h : AllAged stages mirror)
    (hguard : StepAged lib viewIds stages op mirror)
    (hstep : dealStep lib viewIds op mirror = some mirror') : AllAged stages mirror' := by
  cases op with
  | webhook now payload => exact allAged_webhook h hguard hstep
  | sync feed =>
      cases hstep
      obtain ⟨part, ⟨rest, hpart⟩, hrun⟩ := runDealSync_prefix lib viewIds feed mirror
      rw [StepAged, ← hpart, Run.guarded_append] at hguard
      have halways : Run.Always (recordStep lib) (AllAged stages) part mirror := by
        apply Run.always_of_step (fun deal d d' hd hg hs => allAged_record hd hg hs) h
        exact hguard.1
      exact halways.last hrun

/-! ## Coverage throughout a run -/

/-- Both breakdowns of any ageing report on the mirror cover the open deals. -/
def AgeingCoversMirror (stages : List Stage) (mirror : DealDb ref) : Prop :=
  ∀ db : Db, db.stages = stages → db.deals.Lists mirror → ∀ filters ownerScope group,
    AgeingCovers db filters ownerScope group

theorem stage_of_openScope {d : EnrichedDeal} (hd : d ∈ openScope db filters ownerScope) :
    d.deal ∈ db.deals.rows ∧
      ∃ stage ∈ d.deal.row.stageId, isOpenStage db.stages stage = true := by
  obtain ⟨hscope, hopen⟩ := List.mem_filter.1 hd
  have hrow := List.mem_of_mem_filter hscope
  rw [dealsEnriched_eq_map, List.mem_map] at hrow
  obtain ⟨stored, hstored, rfl⟩ := hrow
  refine ⟨hstored, ?_⟩
  have hforecast := of_decide_eq_true hopen
  rw [EnrichedDeal.forecastType, Option.map_eq_some_iff] at hforecast
  obtain ⟨s, hs, hs'⟩ := hforecast
  dsimp only at hs
  have hid : stored.row.stageId = some s.id := by
    rw [lookup] at hs
    have hfound := List.find?_some hs
    exact of_decide_eq_true hfound
  refine ⟨s.id, hid, ?_⟩
  rw [isOpenStage, ← hid, hs, Option.any_some, hs']
  rfl

/-- Without filters a report is about every deal in an open stage. -/
theorem openScope_of_stage {stored : StoredDeal} (hstored : stored ∈ db.deals.rows) {stage : Int}
    (hstage : stored.row.stageId = some stage) (hopen : isOpenStage db.stages stage = true) :
    ∃ d ∈ openScope db {} none, d.deal = stored := by
  obtain ⟨s, hs, hs'⟩ := (Option.any_eq_true _ _).1 hopen
  refine ⟨⟨stored, some s, lookup (fun p => p.id) db.pipelines stored.row.pipelineId⟩, ?_, rfl⟩
  apply List.mem_filter.2
  constructor
  · apply List.mem_filter.2
    refine ⟨?_, rfl⟩
    rw [dealsEnriched_eq_map, List.mem_map]
    exact ⟨stored, hstored, by rw [hstage, hs]⟩
  · rw [EnrichedDeal.hasForecast, EnrichedDeal.forecastType, Option.map_some,
      of_decide_eq_true hs']
    rfl

/-- Where the deals in open stages have an age, the report covers the open deals. -/
theorem ageingCoversMirror_of_allAged {mirror : DealDb ref} (h : AllAged stages mirror) :
    AgeingCoversMirror stages mirror := by
  rintro db rfl hlists filters ownerScope group
  apply ageing_covers_iff.2
  intro d hd
  obtain ⟨hrow, stage, hstage, hopen⟩ := stage_of_openScope hd
  exact h d.deal.dealId d.deal.row ((hlists d.deal).1 hrow) stage hstage hopen

/-- **Coverage.** In every run of webhooks and syncs in which each deal stored in an open stage has an age
or is given one, the ageing report covers the open deals throughout. -/
theorem ageing_covers_of_run (lib : PyLib) (viewIds : List Int) (stages : List Stage)
    (ops : List DealOp)
    (hguard : Run.Guarded (dealStep lib viewIds) (StepAged lib viewIds stages) ops
      (DealDb.empty ref)) :
    Run.Always (dealStep lib viewIds) (AgeingCoversMirror stages) ops (DealDb.empty ref) := by
  have haged : Run.Always (dealStep lib viewIds) (AllAged stages) ops (DealDb.empty ref) := by
    apply Run.always_of_step (fun op d d' hd hg hs => allAged_step hd hg hs) _ hguard
    intro id row hrow
    cases hrow
  exact haged.mono fun mirror h => ageingCoversMirror_of_allAged h

/-! ## A deal that a webhook brings -/

/-- The stages of leasing, the first of which is open. -/
def leasingStages : List Stage :=
  [⟨⟨11, 1, "New"⟩, 1, "Open", none⟩, ⟨⟨12, 1, "Won"⟩, 2, "Closed Won", none⟩]

theorem leasingStages_nodup : (leasingStages.map fun s => s.id).Nodup := by decide

def leasingDb (deals : DealTable) : Db where
  deals := deals
  stages := leasingStages
  pipelines := []
  owners := []
  tasks := []
  emails := []
  events := []
  stages_nodup := leasingStages_nodup
  pipelines_nodup := List.nodup_nil
  owners_nodup := List.nodup_nil

/-- The record of deal 7 in the open stage, with its age. -/
def agedRecord : JsonObject := ("age", .num 12) :: sampleRecord 1 11

/-- The deal comes with a sync, and a webhook updates it. -/
def agedRun : List DealOp :=
  [.sync { view := fun _ => [.ok (.obj agedRecord)], pipelineDeals := fun _ => [] },
    .webhook noon (samplePayload "New" 5)]

theorem ageing_covers_agedRun :
    Run.Always (dealStep plainLib [1]) (AgeingCoversMirror leasingStages) agedRun
      (DealDb.empty sampleRef) := by
  apply ageing_covers_of_run plainLib [1] leasingStages agedRun
  refine ⟨⟨?_, fun _ _ => trivial⟩, ?_⟩
  · intro members r id hmembers _
    cases hmembers
    exact Or.inl (by decide)
  · intro mirror hmirror
    refine ⟨?_, fun _ _ => trivial⟩
    cases hmirror
    intro r hread
    obtain rfl := hread.unique (reads_samplePayload "New" 5)
    exact Or.inl (by decide +kernel)

/-- The deal comes with a webhook. -/
def webhookFirst : List DealOp := [.webhook noon (samplePayload "New" 5)]

/-- It is open and has no age. -/
theorem webhook_deal_in_no_bucket :
    ¬ Run.Always (dealStep plainLib [1]) (AgeingCoversMirror leasingStages) webhookFirst
      (DealDb.empty sampleRef) := by
  intro h
  have hrow : (Run.exec (dealStep plainLib [1]) webhookFirst (DealDb.empty sampleRef)).map
      (fun mirror => (mirror.deals 7).map fun row => (row .stageId, row .ageDays)) =
        some (some (some 11, none)) := by decide +kernel
  obtain ⟨mirror, hrun, hdeal⟩ := Option.map_eq_some_iff.1 hrow
  obtain ⟨row, hrow, hcells⟩ := Option.map_eq_some_iff.1 hdeal
  obtain ⟨hstage, hage⟩ := Prod.mk.inj hcells
  obtain ⟨ds, hlists⟩ := DealTable.lists_of_run hrun
  have hcovers := h.last hrun (leasingDb (DealTable.empty.store ds)) rfl hlists {} none .stage
  have hstored : (⟨7, row⟩ : StoredDeal) ∈ (leasingDb (DealTable.empty.store ds)).deals.rows :=
    (hlists ⟨7, row⟩).2 hrow
  obtain ⟨d, hd, hdeal⟩ := openScope_of_stage hstored hstage rfl
  apply ageing_covers_iff.1 hcovers d hd
  rw [hdeal]
  exact hage

end SalesTrades.Analytics
