import SalesTrades.Deals.DealRuns

/-!
# Stages and their pipelines

Whether the stage of a snapshot row is a stage of its pipeline. Webhooks write both from one stage of
the tables or neither. A sync always writes the pipeline of its record, and the stage only when the
tables know it, so a record with an unknown stage pairs its pipeline with the stage the row has.
-/

set_option autoImplicit false

namespace SalesTrades.Deals

open SalesTrades.Library

variable {ref : Reference} {lib : PyLib} {viewIds : List Int}

/-- The stage of the row, if it has one, is a stage of its pipeline, if it has one. -/
def Placed (ref : Reference) (p : Position) : Prop :=
  ∀ pipeline ∈ p.pipelineId, ∀ stage ∈ p.stageId, ref.HasStage pipeline stage

/-- Every row of the snapshot is placed. -/
def AllPlaced (db : DealDb ref) : Prop :=
  ∀ id, ∀ row ∈ db.deals id, Placed ref row.position

/-- Rewriting one row with a placed one. -/
theorem allPlaced_of_row {db db' : DealDb ref} {id : Int} {row : DealRow} (hdb : AllPlaced db)
    (hrow : db'.deals id = some row) (hplaced : Placed ref row.position)
    (hother : ∀ id', id' ≠ id → db'.deals id' = db.deals id') : AllPlaced db' := by
  intro id' row' hrow'
  by_cases hid : id' = id
  · subst hid
    rw [hrow, Option.mem_some_iff] at hrow'
    exact hrow' ▸ hplaced
  · rw [hother id' hid] at hrow'
    exact hdb id' row' hrow'

/-! ## Webhooks -/

/-- The names resolve to a stage and its pipeline; otherwise the row keeps its pair. -/
theorem placed_newPosition {r : WebhookReading} {db : DealDb ref} (hdb : AllPlaced db)
    (owner : Option Int) :
    Placed ref
      { pipelineId := (r.place (buildStageResolver ref) db).1
        stageId := (r.place (buildStageResolver ref) db).2
        ownerId := owner } := by
  intro pipeline hp stage hs
  rw [WebhookReading.place, WebhookReading.existing] at hp hs
  cases hres : r.webhook.resolution (buildStageResolver ref) with
  | some res =>
      rw [hres, newPlace, Option.mem_some_iff] at hp hs
      subst hp hs
      rw [FreshsalesDealWebhook.resolution] at hres
      split at hres
      · split at hres
        · exact buildStageResolver_sound ref _ res hres
        · cases hres
      · cases hres
  | none =>
      cases hex : db.deals r.webhook.dealId with
      | none =>
          rw [hres, hex] at hp
          cases hp
      | some row =>
          rw [hres, hex] at hp hs
          exact hdb r.webhook.dealId row hex pipeline hp stage hs

theorem allPlaced_webhook {now : Datetime} {payload : JsonObject} {db db' : DealDb ref}
    (hdb : AllPlaced db) (h : dealStep lib viewIds (.webhook now payload) db = some db') :
    AllPlaced db' := by
  rcases dealStep_webhook h with rfl | ⟨r, hread, hingest⟩
  · exact hdb
  obtain ⟨row, hrow, hpos⟩ := ingestWebhook_position hread hingest
  obtain ⟨-, -, hother, -⟩ := ingestWebhook_spec hread hingest
  apply allPlaced_of_row hdb hrow
  · rw [hpos]
    exact placed_newPosition hdb _
  · exact hother

/-! ## Records -/

/-- The stage of the record, when the tables know it, belongs to the pipeline of the record. -/
def OwnStage (ref : Reference) (deal : Json) : Prop :=
  ∀ members, deal = .obj members →
    ∀ pipeline ∈ pyInt (Json.member members "deal_pipeline_id"),
      ∀ stage ∈ knownInt ref.stageIds (recordStage members), ref.HasStage pipeline stage

/-- When the tables do not know the stage of the record, the stage the row has, if any, belongs to
the pipeline of the record. -/
def KeepsStage (lib : PyLib) (deal : Json) (db : DealDb ref) : Prop :=
  ∀ members r id, deal = .obj members → RecordReadsAs ref lib members r id →
    knownInt ref.stageIds (recordStage members) = none →
      ∀ row ∈ db.deals id, ∀ pipeline ∈ pyInt (Json.member members "deal_pipeline_id"),
        ∀ stage ∈ row.stageId, ref.HasStage pipeline stage

/-- The row a record leaves is placed exactly when the record keeps no stage of another pipeline. -/
theorem placed_record_iff {members : JsonObject} {r : RecordReading} {id : Int} {db : DealDb ref}
    (hread : RecordReadsAs ref lib members r id) (hown : OwnStage ref (.obj members)) :
    Placed ref (DealRow.position
        (PartialRecord.overlay ((r.data ref members).encoded lib) (db.rowOrEmpty id))) ↔
      (knownInt ref.stageIds (recordStage members) = none →
        ∀ row ∈ db.deals id, ∀ pipeline ∈ pyInt (Json.member members "deal_pipeline_id"),
          ∀ stage ∈ row.stageId, ref.HasStage pipeline stage) := by
  rw [position_of_record hread, Placed]
  cases hstage : knownInt ref.stageIds (recordStage members) with
  | some stage =>
      simp only [Option.some_or, reduceCtorEq, false_implies, iff_true]
      intro pipeline hp stage' hs
      rw [Option.mem_some_iff] at hs
      subst hs
      exact hown members rfl pipeline hp stage hstage
  | none =>
      simp only [Option.none_or, true_implies]
      cases hex : db.deals id with
      | none =>
          -- a new row has no stage
          rw [DealDb.rowOrEmpty_of_none hex]
          simp [DealRow.stageId, PartialRecord.empty]
      | some row =>
          rw [DealDb.rowOrEmpty_of_some hex]
          simp

theorem allPlaced_record {deal : Json} {db db' : DealDb ref} (hdb : AllPlaced db)
    (hguard : OwnStage ref deal ∧ KeepsStage lib deal db)
    (h : recordStep lib deal db = some db') : AllPlaced db' := by
  rcases recordStep_cases h with ⟨rfl, -⟩ | ⟨members, r, id, rfl, hread, -, hrow, hother, -⟩
  · exact hdb
  apply allPlaced_of_row hdb hrow
  · apply (placed_record_iff hread hguard.1).2
    exact hguard.2 members r id rfl hread
  · exact hother

/-! ## Runs -/

/-- The records of a sync are about their own stages, and none of its upserts pairs its pipeline
with a kept stage of another one. -/
def SyncsPlaced (lib : PyLib) (viewIds : List Int) : DealOp → DealDb ref → Prop
  | .webhook _ _, _ => True
  | .sync feed, db =>
      Run.Guarded (recordStep lib) (fun deal d => OwnStage ref deal ∧ KeepsStage lib deal d)
        (records (feedStreams ref viewIds feed).flatten) db

theorem allPlaced_sync {feed : Feed} {db : DealDb ref} (hdb : AllPlaced db)
    (hguard : SyncsPlaced lib viewIds (.sync feed) db) :
    AllPlaced (runDealSync lib viewIds feed db).1 := by
  obtain ⟨part, ⟨rest, hpart⟩, hrun⟩ := runDealSync_prefix lib viewIds feed db
  rw [SyncsPlaced, ← hpart, Run.guarded_append] at hguard
  have halways : Run.Always (recordStep lib) AllPlaced part db := by
    apply Run.always_of_step (fun deal d d' hd hg h => allPlaced_record hd hg h) hdb
    exact hguard.1
  exact halways.last hrun

/-- **Placement.** In every run in which no upsert of a sync keeps a stage of another pipeline, the
stored stage of every row belongs to its stored pipeline throughout. -/
theorem stage_in_pipeline (lib : PyLib) (viewIds : List Int) (ops : List DealOp)
    (hguard : Run.Guarded (dealStep lib viewIds) (SyncsPlaced lib viewIds) ops
      (DealDb.empty ref)) :
    Run.Always (dealStep lib viewIds) AllPlaced ops (DealDb.empty ref) := by
  have hstep : ∀ op (db db' : DealDb ref), AllPlaced db → SyncsPlaced lib viewIds op db →
      dealStep lib viewIds op db = some db' → AllPlaced db' := by
    intro op db db' hdb hop h
    cases op with
    | webhook now payload => exact allPlaced_webhook hdb h
    | sync feed =>
        cases h
        exact allPlaced_sync hdb hop
  apply Run.always_of_step hstep
  · intro id row hrow
    cases hrow
  · exact hguard

theorem ownStage_sampleRecord_known : OwnStage sampleRef (.obj (sampleRecord 1 12)) := by
  intro members hmembers pipeline hp stage hs
  cases hmembers
  cases hp
  cases hs
  decide

theorem ownStage_sampleRecord_unknown : OwnStage sampleRef (.obj (sampleRecord 2 99)) := by
  intro members hmembers pipeline hp stage hs
  cases hmembers
  cases hs

/-- A sync moves deal 7 to a stage the tables know. -/
theorem stage_in_pipeline_sample :
    Run.Always (dealStep plainLib [1]) AllPlaced (movingRun 1 12) (DealDb.empty sampleRef) := by
  apply stage_in_pipeline plainLib [1] (movingRun 1 12)
  refine ⟨trivial, fun db _ => ⟨⟨⟨ownStage_sampleRecord_known, ?_⟩, fun _ _ => trivial⟩, fun _ _ =>
    trivial⟩⟩
  -- the stage of the record is known, so no stage is kept
  intro members r id hmembers _ hunknown
  cases hmembers
  have hknown : knownInt sampleRef.stageIds (recordStage (sampleRecord 1 12)) = some 12 := by decide
  rw [hknown] at hunknown
  cases hunknown

/-- A sync moves deal 7 to pipeline 2 with a stage the tables do not know, and the row keeps stage 11,
which is one of pipeline 1. -/
theorem stage_of_other_pipeline_kept :
    OwnStage sampleRef (.obj (sampleRecord 2 99)) ∧
      ∃ db : DealDb sampleRef,
        Run.exec (dealStep plainLib [1]) (movingRun 2 99) (DealDb.empty sampleRef) = some db ∧
          ¬ AllPlaced db := by
  refine ⟨ownStage_sampleRecord_unknown, ?_⟩
  have hrun : (Run.exec (dealStep plainLib [1]) (movingRun 2 99) (DealDb.empty sampleRef)).map
      (fun db => (db.deals 7).map DealRow.position) = some (some ⟨some 2, some 11, some 5⟩) := by
    decide
  obtain ⟨db, hdb, hpos⟩ := Option.map_eq_some_iff.1 hrun
  obtain ⟨row, hrow, hposition⟩ := Option.map_eq_some_iff.1 hpos
  refine ⟨db, hdb, ?_⟩
  intro hplaced
  have hrowPlaced := hplaced 7 row hrow
  rw [hposition] at hrowPlaced
  exact absurd (hrowPlaced 2 rfl 11 rfl) (by decide)

end SalesTrades.Deals
