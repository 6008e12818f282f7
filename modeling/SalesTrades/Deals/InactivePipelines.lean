import SalesTrades.Deals.ReferenceSync

/-!
# Deals of inactive pipelines

Reference syncs, webhooks and deal syncs in any order, beside the CRM, which says in which pipeline each
deal is. `run_deal_sync` skips the deals of a pipeline that is not active. `ingest_webhook` asks the
resolver for the names of its payload, and stores the deal without a pipeline when they do not resolve.
So every deal that gets a row is in an active pipeline exactly when no webhook that can be stored
arrives for a deal without a row that the sync would skip (`exclusion_honoured_iff`).
-/

set_option autoImplicit false

namespace SalesTrades.Deals

open SalesTrades.Library SalesTrades.Library.Run

/-! ## The mirror beside the CRM -/

/-- The tables, the resolver the application holds, once there is one, and the pipeline in which each
deal is in the CRM. -/
structure MirrorWorld where
  ref : Reference
  db : DealDb ref
  resolver : Option PipelineStageResolver
  known : ∀ r ∈ resolver, r.KnownTo ref
  crm : Int → Option Int

/-- A deal is created, moved or deleted in the CRM; or one of the three calls. -/
inductive MirrorOp where
  | place (dealId : Int) (pipelineId : Option Int)
  | reference (answers : ReferenceAnswers)
  | webhook (now : Datetime) (payload : JsonObject)
  | sync (feed : Feed)

/-- `app.state.stage_resolver = await run_reference_sync(...)`: an exception leaves the old one. -/
def MirrorWorld.referenceSynced (lib : PyLib) (answers : ReferenceAnswers) (w : MirrorWorld) :
    MirrorWorld where
  ref := (runReferenceSync lib answers w.ref).1.1
  db := w.db.onto (runReferenceSync lib answers w.ref).1.2
  resolver := (runReferenceSync lib answers w.ref).2.toOption.or w.resolver
  known r hr := by
    rcases Option.or_eq_some_iff.1 hr with hnew | ⟨-, hold⟩
    · exact runReferenceSync_resolver (eq_ok_of_toOption hnew)
    · exact (w.known r hold).grows (runReferenceSync lib answers w.ref).1.2
  crm := w.crm

/-- One operation, run on its own. -/
def mirrorStep (lib : PyLib) (viewIds : List Int) : MirrorOp → MirrorWorld → Option MirrorWorld
  | .place dealId pipelineId, w => some { w with crm := Function.update w.crm dealId pipelineId }
  | .reference answers, w => some (w.referenceSynced lib answers)
  | .webhook now payload, w =>
      match w.resolver with
      -- `get_resolver`: 503 until the first reference sync has returned
      | none => some w
      | some resolver =>
          match ingestWebhook lib resolver now payload w.db with
          | .ok db => some { w with db := db }
          | .error _ => some w
  | .sync feed, w => some { w with db := (runDealSync lib viewIds feed w.db).1 }

/-! ## The exclusion -/

/-- The pipelines table marks the pipeline as inactive. -/
def MarkedInactive (ref : Reference) (pipelineId : Int) : Prop :=
  ∃ p ∈ ref.pipelines, p.id = pipelineId ∧ p.isActive = false

/-- `run_deal_sync` skips a deal that is in this pipeline, or in none. -/
def Skips (ref : Reference) (pipelineId : Option Int) : Prop :=
  ∀ p ∈ pipelineId, p ∉ activePipelineIds ref

instance (ref : Reference) (pipelineId : Option Int) : Decidable (Skips ref pipelineId) :=
  inferInstanceAs (Decidable (∀ p ∈ pipelineId, _))

/-- The deal gets a row. -/
def Inserted (w w' : MirrorWorld) (dealId : Int) : Prop :=
  w.db.deals dealId = none ∧ w'.db.deals dealId ≠ none

/-- A deal that gets a row is not in a pipeline marked inactive, and is none that the sync skips. -/
structure HonoursExclusion (w w' : MirrorWorld) : Prop where
  inactive : ∀ id, Inserted w w' id → ∀ p, w.crm id = some p → ¬ MarkedInactive w.ref p
  skipped : ∀ id, Inserted w w' id → ¬ Skips w.ref (w.crm id)

/-- The deal id of a record. -/
def IsRecordOf (lib : PyLib) (members : JsonObject) (id : Int) : Prop :=
  ∃ j, requiredMember members "id" = .ok j ∧ encodeDealId lib j = .ok id

/-- The records of a sync name the pipelines in which their deals are. -/
def CurrentAnswers (lib : PyLib) (viewIds : List Int) (op : MirrorOp) (w : MirrorWorld) : Prop :=
  match op with
  | .sync feed => ∀ members id, .obj members ∈ records (feedStreams w.ref viewIds feed).flatten →
      IsRecordOf lib members id → pyInt (Json.member members "deal_pipeline_id") = w.crm id
  | .place _ _ | .reference _ | .webhook _ _ => True

/-- No webhook that can be read, and whose values the driver takes, for a deal without a row that the
sync would skip. -/
def SparesSkipped (lib : PyLib) (op : MirrorOp) (w : MirrorWorld) : Prop :=
  match op with
  | .webhook now payload => ∀ resolver ∈ w.resolver, ∀ r, ReadsAs lib payload r →
      w.db.deals r.webhook.dealId = none → Skips w.ref (w.crm r.webhook.dealId) →
        ¬ r.Accepted resolver now payload w.db lib
  | .place _ _ | .reference _ | .sync _ => True

variable {lib : PyLib} {viewIds : List Int} {w w' : MirrorWorld}

/-- An active pipeline is not marked inactive. -/
theorem not_markedInactive {ref : Reference} {p : Int} (h : p ∈ activePipelineIds ref) :
    ¬ MarkedInactive ref p := by
  rintro ⟨q, hq, rfl, hinactive⟩
  obtain ⟨q', hq', hid⟩ := List.mem_map.1 h
  obtain ⟨hmem, hactive⟩ := List.mem_filter.1 hq'
  obtain rfl := List.inj_on_of_nodup_map ref.pipelines_nodup hmem hq hid
  rw [hactive] at hinactive
  cases hinactive

/-- The second half of the exclusion gives the first. -/
theorem honoursExclusion_iff :
    HonoursExclusion w w' ↔ ∀ id, Inserted w w' id → ¬ Skips w.ref (w.crm id) := by
  refine ⟨HonoursExclusion.skipped, fun h => ⟨fun _ hinserted p hp => ?_, h⟩⟩
  have hactive := h _ hinserted
  simp only [Skips, hp, Option.mem_some_iff, forall_eq', not_not] at hactive
  exact not_markedInactive hactive

theorem honoursExclusion_of_deals (h : w'.db.deals = w.db.deals) : HonoursExclusion w w' :=
  honoursExclusion_iff.2 fun _ hinserted => absurd hinserted.1 (h ▸ hinserted.2)

/-! ## Syncs -/

/-- A deal that records give a row has a record of an active pipeline among them. -/
theorem record_of_inserted {ref : Reference} {deals : List Json} {db db' : DealDb ref} {id : Int}
    (hrun : exec (recordStep lib) deals db = some db') (hbefore : db.deals id = none)
    (hafter : db'.deals id ≠ none) :
    ∃ members r, .obj members ∈ deals ∧ RecordReadsAs ref lib members r id := by
  induction deals generalizing db with
  | nil =>
      rw [exec, Option.some.injEq] at hrun
      exact absurd hbefore (hrun ▸ hafter)
  | cons deal rest ih =>
      obtain ⟨m, hm, hrest⟩ := exec_cons_eq_some.1 hrun
      have hlater : m.deals id = none → ∃ members r, .obj members ∈ deal :: rest ∧
          RecordReadsAs ref lib members r id := by
        intro hnone
        obtain ⟨members, r, hmem, hread⟩ := ih hrest hnone
        exact ⟨members, r, List.mem_cons_of_mem deal hmem, hread⟩
      rcases recordStep_cases hm with
        ⟨rfl, -⟩ | ⟨members, r, dealId, rfl, hread, -, -, hother, -⟩
      · exact hlater hbefore
      · by_cases hid : id = dealId
        · subst hid
          exact ⟨members, r, List.mem_cons_self, hread⟩
        · exact hlater (by rw [hother id hid, hbefore])

/-- A sync whose records are current honours the exclusion. -/
theorem sync_honours {feed : Feed} (hcurrent : CurrentAnswers lib viewIds (.sync feed) w)
    (h : mirrorStep lib viewIds (.sync feed) w = some w') : HonoursExclusion w w' := by
  obtain rfl := Option.some.inj h
  rw [honoursExclusion_iff]
  rintro id ⟨hbefore, hafter⟩ hskips
  obtain ⟨part, hpart, hrun⟩ := runDealSync_prefix lib viewIds feed w.db
  obtain ⟨members, r, hmem, hread⟩ := record_of_inserted hrun hbefore hafter
  have hpipeline := hcurrent members id (hpart.subset hmem) hread.dealId
  obtain ⟨p, hp, hactive⟩ := (Option.any_eq_true _ _).1 hread.active
  exact hskips p (hpipeline ▸ hp) (List.contains_iff_mem.1 hactive)

/-! ## Webhooks -/

/-- A webhook honours the exclusion exactly when it spares the deals that the sync skips. -/
theorem webhook_honours_iff {now : Datetime} {payload : JsonObject}
    (h : mirrorStep lib viewIds (.webhook now payload) w = some w') :
    HonoursExclusion w w' ↔ SparesSkipped lib (.webhook now payload) w := by
  unfold mirrorStep at h
  unfold SparesSkipped
  cases hresolver : w.resolver with
  | none =>
      simp only [hresolver, Option.some.injEq] at h
      subst h
      exact iff_of_true (honoursExclusion_of_deals rfl) fun _ hr => by cases hr
  | some resolver =>
      simp only [hresolver] at h
      have hknown := w.known resolver hresolver
      simp only [Option.mem_some_iff, forall_eq']
      constructor
      · intro hhonours r hread hnone hskips hacc
        -- the call goes through, and the deal gets its row
        obtain ⟨db, hcall⟩ := ingestWebhook_ok_of_accepted hread hacc hknown
        rw [hcall, Option.some.injEq] at h
        subst h
        obtain ⟨-, hrow, -, -⟩ := ingestWebhook_spec hread hcall
        refine hhonours.skipped r.webhook.dealId ⟨hnone, ?_⟩ hskips
        exact fun hgone => by rw [hgone] at hrow; cases hrow
      · intro hspares
        cases hcall : ingestWebhook lib resolver now payload w.db with
        | error e =>
            rw [hcall, Option.some.injEq] at h
            subst h
            exact honoursExclusion_of_deals rfl
        | ok db =>
            rw [hcall, Option.some.injEq] at h
            subst h
            rw [honoursExclusion_iff]
            rintro id ⟨hbefore, hafter⟩ hskips
            obtain ⟨r, hread⟩ := readsAs_of_ok hcall
            obtain ⟨henc, -, hother, -⟩ := ingestWebhook_spec hread hcall
            obtain rfl : id = r.webhook.dealId := by
              by_contra hne
              exact hafter ((hother id hne).trans hbefore)
            exact hspares r hread hbefore hskips ⟨henc, storable_events_of_ok hread hcall⟩

/-- **The exclusion.** Beside a CRM that answers the syncs with the current pipelines, every step of a
run honours the exclusion exactly when every webhook spares the deals that the sync skips. -/
theorem exclusion_honoured_iff {ops : List MirrorOp} {w₀ : MirrorWorld}
    (hcurrent : Guarded (mirrorStep lib viewIds) (CurrentAnswers lib viewIds) ops w₀) :
    EachStep (mirrorStep lib viewIds) HonoursExclusion ops w₀ ↔
      Guarded (mirrorStep lib viewIds) (SparesSkipped lib) ops w₀ := by
  have htotal : ∀ op w, (mirrorStep lib viewIds op w).isSome = true := by
    intro op w
    unfold mirrorStep
    split
    · rfl
    · rfl
    · split
      · rfl
      · split <;> rfl
    · rfl
  obtain ⟨w, hrun⟩ := Option.isSome_iff_exists.1 (exec_isSome htotal ops w₀)
  refine eachStep_iff_guarded (fun op s t hH hstep => ?_) hcurrent hrun
  cases op with
  | place dealId pipelineId =>
      obtain rfl := Option.some.inj hstep
      exact iff_of_true (honoursExclusion_of_deals rfl) trivial
  | reference answers =>
      obtain rfl := Option.some.inj hstep
      exact iff_of_true (honoursExclusion_of_deals rfl) trivial
  | webhook now payload => exact webhook_honours_iff hstep
  | sync feed => exact iff_of_true (sync_honours hH hstep) trivial

/-! ## The test pipeline -/

/-- The application has just started. -/
def emptyMirror : MirrorWorld where
  ref :=
    { pipelines := [], stages := [], owners := [], pipelines_nodup := by decide
      stages_nodup := by decide, stage_pipeline := by decide, bigint_pipeline := by decide
      bigint_stage := by decide, bigint_owner := by decide }
  db := .empty _
  resolver := none
  known := by simp
  crm _ := none

/-- The leasing pipeline with one stage, the test pipeline, and an owner. -/
def accountAnswers : ReferenceAnswers where
  pipelines := .ok (.obj [("deal_pipelines", .arr
    [.obj [("id", .num 1), ("name", .str "Leasing"), ("default", .bool true), ("deal_stages", .arr
        [.obj [("id", .num 11), ("name", .str "New"), ("position", .num 1),
          ("forecast_type", .str "open")]])],
      .obj [("id", .num 17000075034), ("name", .str "Test Pipeline")]])])
  owners := .ok (.obj [("users", .arr [.obj [("id", .num 5), ("name", .str "Ada")]])])
  reasons := .ok ()

/-- A webhook for deal 7 in the test pipeline. -/
def testPayload : JsonObject :=
  [("deal_id", .num 7), ("deal_name", .str "Floor 3"), ("deal_owner_id", .num 5),
    ("deal_deal_pipeline_name", .str "Test Pipeline"), ("deal_deal_stage_name", .str "New")]

/-- A webhook for the test pipeline finds no stage of that name, and the deal gets a row. -/
theorem test_deal_inserted :
    ¬ EachStep (mirrorStep plainLib []) HonoursExclusion
      [.reference accountAnswers, .place 7 (some 17000075034), .webhook noon testPayload]
      emptyMirror := by
  intro h
  have hlast := ((((h _ rfl).2 _ rfl).2) _ rfl).1
  refine hlast.skipped 7 ⟨rfl, fun hnone => by cases hnone⟩ ?_
  decide

/-- The views have deal 8, which is in the test pipeline. -/
def testFeed : Feed where
  view _ := [.ok (.obj [("id", .num 8), ("deal_pipeline_id", .num 17000075034)])]
  pipelineDeals _ := []

/-- A webhook for an active pipeline, and a sync that skips a deal of the test pipeline. -/
theorem leasing_deal_inserted :
    EachStep (mirrorStep plainLib [1]) HonoursExclusion
      [.reference accountAnswers, .place 7 (some 1), .webhook noon (samplePayload "New" 5),
        .place 8 (some 17000075034), .sync testFeed] emptyMirror := by
  refine (exclusion_honoured_iff ?_).2 ?_
  · refine ⟨trivial, fun _ h₁ => ⟨trivial, fun _ h₂ => ⟨trivial, fun _ h₃ => ⟨trivial, fun _ h₄ => ?_⟩⟩⟩⟩
    cases h₁
    cases h₂
    cases h₃
    cases h₄
    refine ⟨?_, fun _ _ => trivial⟩
    rintro members id hmem ⟨j, hj, hid⟩
    obtain rfl := Json.obj.inj (List.mem_singleton.1 hmem)
    cases hj
    cases hid
    rfl
  · refine ⟨trivial, fun _ h₁ => ⟨trivial, fun _ h₂ => ⟨?_, fun _ _ => ⟨trivial, fun _ _ =>
      ⟨trivial, fun _ _ => trivial⟩⟩⟩⟩⟩
    cases h₁
    cases h₂
    intro resolver _ r hread _ hskips
    -- the webhook is about deal 7, which is in the leasing pipeline
    obtain rfl := hread.unique (reads_samplePayload "New" 5)
    exact absurd hskips (by decide)

end SalesTrades.Deals
