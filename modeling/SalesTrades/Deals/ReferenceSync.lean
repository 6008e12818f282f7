import SalesTrades.Library.Keyed
import SalesTrades.Deals.DealRuns

/-!
# The reference sync

`run_reference_sync` writes what the CRM says about pipelines, stages and owners into the reference
tables, and builds the resolver that the webhooks use from then on. It deletes nothing: the tables grow
(`Reference.Grows`), so what the foreign keys of the deals allow stays allowed, and a resolver that is
not built anew still knows its ids.
-/

set_option autoImplicit false

namespace SalesTrades.Deals

open SalesTrades.Library

/-! ## Tables that grow -/

/-- The ids of `ref` are in `ref'`. -/
structure Reference.Grows (ref ref' : Reference) : Prop where
  pipelines : ∀ p ∈ ref.pipelineIds, p ∈ ref'.pipelineIds
  stages : ∀ s ∈ ref.stageIds, s ∈ ref'.stageIds
  owners : ∀ o ∈ ref.owners, o ∈ ref'.owners

variable {ref ref' ref'' : Reference}

theorem Reference.Grows.refl (ref : Reference) : ref.Grows ref :=
  ⟨fun _ h => h, fun _ h => h, fun _ h => h⟩

theorem Reference.Grows.trans (h : ref.Grows ref') (h' : ref'.Grows ref'') : ref.Grows ref'' where
  pipelines p hp := h'.pipelines p (h.pipelines p hp)
  stages s hs := h'.stages s (h.stages s hs)
  owners o ho := h'.owners o (h.owners o ho)

theorem Reference.Grows.allows (h : ref.Grows ref') {row : DealRow} (hrow : ref.Allows row) :
    ref'.Allows row :=
  ⟨fun p hp => h.pipelines p (hrow.1 p hp), fun s hs => h.stages s (hrow.2.1 s hs),
    fun o ho => h.owners o (hrow.2.2 o ho)⟩

theorem PipelineStageResolver.KnownTo.grows {resolver : PipelineStageResolver}
    (hknown : resolver.KnownTo ref) (h : ref.Grows ref') : resolver.KnownTo ref' := by
  intro names r hr
  obtain ⟨hpipeline, hstage⟩ := hknown names r hr
  exact ⟨h.pipelines _ hpipeline, h.stages _ hstage⟩

/-- The tables after some upserts. -/
abbrev Grown (ref : Reference) : Type := { ref' : Reference // ref.Grows ref' }

/-- The deals over tables that have grown. -/
def DealDb.onto (db : DealDb ref) (h : ref.Grows ref') : DealDb ref' where
  deals := db.deals
  events := db.events
  fk id row hrow := h.allows (db.fk id row hrow)

/-! ## Upserts of the reference tables -/

namespace Reference

def putPipeline (ref : Reference) (p : Pipeline) (hp : IsBigint p.id) : Reference where
  pipelines := Keyed.put Pipeline.id p ref.pipelines
  stages := ref.stages
  owners := ref.owners
  pipelines_nodup := Keyed.nodup_put ref.pipelines_nodup
  stages_nodup := ref.stages_nodup
  stage_pipeline s hs := Keyed.mem_keys_put.2 (Or.inl (ref.stage_pipeline s hs))
  bigint_pipeline q hq := by
    rcases Keyed.mem_put.1 hq with ⟨hold, -⟩ | rfl
    · exact ref.bigint_pipeline q hold
    · exact hp
  bigint_stage := ref.bigint_stage
  bigint_owner := ref.bigint_owner

def putStage (ref : Reference) (s : Stage) (hs : IsBigint s.id)
    (hpipeline : s.pipelineId ∈ ref.pipelineIds) : Reference where
  pipelines := ref.pipelines
  stages := Keyed.put Stage.id s ref.stages
  owners := ref.owners
  pipelines_nodup := ref.pipelines_nodup
  stages_nodup := Keyed.nodup_put ref.stages_nodup
  stage_pipeline q hq := by
    rcases Keyed.mem_put.1 hq with ⟨hold, -⟩ | rfl
    · exact ref.stage_pipeline q hold
    · exact hpipeline
  bigint_pipeline := ref.bigint_pipeline
  bigint_stage q hq := by
    rcases Keyed.mem_put.1 hq with ⟨hold, -⟩ | rfl
    · exact ref.bigint_stage q hold
    · exact hs
  bigint_owner := ref.bigint_owner

def putOwner (ref : Reference) (o : Int) (ho : IsBigint o) : Reference where
  pipelines := ref.pipelines
  stages := ref.stages
  owners := Keyed.put id o ref.owners
  pipelines_nodup := ref.pipelines_nodup
  stages_nodup := ref.stages_nodup
  stage_pipeline := ref.stage_pipeline
  bigint_pipeline := ref.bigint_pipeline
  bigint_stage := ref.bigint_stage
  bigint_owner q hq := by
    rcases Keyed.mem_put.1 hq with ⟨hold, -⟩ | rfl
    · exact ref.bigint_owner q hold
    · exact ho

theorem grows_putPipeline (ref : Reference) (p : Pipeline) (hp : IsBigint p.id) :
    ref.Grows (ref.putPipeline p hp) where
  pipelines _ h := Keyed.mem_keys_put.2 (Or.inl h)
  stages _ h := h
  owners _ h := h

theorem grows_putStage (ref : Reference) (s : Stage) (hs : IsBigint s.id)
    (hpipeline : s.pipelineId ∈ ref.pipelineIds) : ref.Grows (ref.putStage s hs hpipeline) where
  pipelines _ h := h
  stages _ h := Keyed.mem_keys_put.2 (Or.inl h)
  owners _ h := h

theorem grows_putOwner (ref : Reference) (o : Int) (ho : IsBigint o) :
    ref.Grows (ref.putOwner o ho) where
  pipelines _ h := h
  stages _ h := h
  owners q h := by
    rw [putOwner, Keyed.mem_put]
    by_cases hq : q = o
    · exact Or.inr hq
    · exact Or.inl ⟨h, hq⟩

end Reference

/-! ## Values of the answers -/

/-- What `for x in value` goes through. -/
def iterate : Json → Except PyError (List Json)
  | .arr xs => .ok xs
  | .obj members => .ok (members.map fun m => .str m.1)
  | .str s => .ok (s.toList.map fun c => .str (String.singleton c))
  | _ => .error .typeError

/-- `value[key]`. -/
def item (value : Json) (key : String) : Except PyError Json :=
  match value with
  | .obj members => requiredMember members key
  | _ => .error .typeError

/-- `value.get(key, default)`. -/
def getOr (value : Json) (key : String) (default : Json) : Except PyError Json :=
  match value with
  | .obj members => .ok (if Json.hasKey members key then Json.member members key else default)
  | _ => .error .attributeError

/-- A parameter for a column that is not null. -/
def requiredCell {α : Type} (encode : Json → Option α) (value : Json) : Except PyError α :=
  if value = .null then .error .integrityError
  else
    match encode value with
    | some a => .ok a
    | none => .error .dataError

/-- A parameter for a column that may be null. -/
def optionalCell {α : Type} (encode : Json → Option α) (value : Json) : Except PyError (Option α) :=
  if value = .null then .ok none else (requiredCell encode value).map some

def encodeBool : Json → Option Bool
  | .bool b => some b
  | _ => none

/-! ## The sync -/

/-- `EXCLUDED_PIPELINE_IDS`. -/
def excludedPipelineIds : List Int := [17000075034]

/-- `reference_repo.upsert_pipeline`. -/
def upsertPipeline (lib : PyLib) (id name : Json) (isDefault isActive : Bool) (ref : Reference) :
    Except PyError (Grown ref) := do
  let id ← requiredCell lib.encodeBigint id
  let name ← requiredCell lib.encodeText name
  if h : IsBigint id then
    return ⟨ref.putPipeline ⟨id, name, isDefault, isActive⟩ h, ref.grows_putPipeline _ h⟩
  else .error .dataError

/-- `reference_repo.upsert_stage`. -/
def upsertStage (lib : PyLib) (id pipelineId name position forecastType probability : Json)
    (ref : Reference) : Except PyError (Grown ref) := do
  let id ← requiredCell lib.encodeBigint id
  let pipelineId ← requiredCell lib.encodeBigint pipelineId
  let name ← requiredCell lib.encodeText name
  let _ ← requiredCell lib.encodeInteger position
  let _ ← requiredCell lib.encodeText forecastType
  let _ ← optionalCell lib.encodeNumeric probability
  if h : IsBigint id then
    if hpipeline : pipelineId ∈ ref.pipelineIds then
      return ⟨ref.putStage ⟨id, pipelineId, name⟩ h hpipeline, ref.grows_putStage _ h hpipeline⟩
    else .error .integrityError
  else .error .dataError

/-- `reference_repo.upsert_owner`. -/
def upsertOwner (lib : PyLib) (id displayName email isActive : Json) (ref : Reference) :
    Except PyError (Grown ref) := do
  let id ← requiredCell lib.encodeBigint id
  let _ ← requiredCell lib.encodeText displayName
  let _ ← optionalCell lib.encodeText email
  let _ ← requiredCell encodeBool isActive
  if h : IsBigint id then return ⟨ref.putOwner id h, ref.grows_putOwner id h⟩
  else .error .dataError

/-- The loop over the entries of an answer. -/
def upsertEach (upsert : Json → (ref : Reference) → Except PyError (Grown ref)) :
    List Json → (ref : Reference) → Except PyError (Grown ref)
  | [], ref => .ok ⟨ref, .refl ref⟩
  | entry :: rest, ref => do
      let ⟨ref', h⟩ ← upsert entry ref
      let ⟨ref'', h'⟩ ← upsertEach upsert rest ref'
      return ⟨ref'', h.trans h'⟩

/-- One stage of the pipeline `pipelineId`. -/
def syncStage (lib : PyLib) (pipelineId stage : Json) (ref : Reference) :
    Except PyError (Grown ref) := do
  let id ← item stage "id"
  let pipelineId ← getOr stage "deal_pipeline_id" pipelineId
  let name ← item stage "name"
  let position ← item stage "position"
  let forecastType ← item stage "forecast_type"
  let probability ← getOr stage "probability" .null
  upsertStage lib id pipelineId name position forecastType probability ref

/-- One pipeline, with its stages unless it is excluded. -/
def syncPipeline (lib : PyLib) (pipeline : Json) (ref : Reference) : Except PyError (Grown ref) := do
  let id ← item pipeline "id"
  let excluded ← inIds excludedPipelineIds id
  let name ← item pipeline "name"
  let isDefault ← getOr pipeline "default" (.bool false)
  let ⟨ref', h⟩ ← upsertPipeline lib id name isDefault.truthy (!excluded) ref
  if excluded then return ⟨ref', h⟩
  else
    let stages ← iterate (← getOr pipeline "deal_stages" (.arr []))
    let ⟨ref'', h'⟩ ← upsertEach (syncStage lib id) stages ref'
    return ⟨ref'', h.trans h'⟩

/-- `sync_pipelines_and_stages` up to its commit. -/
def syncPipelinesAndStages (lib : PyLib) (answer : Json) (ref : Reference) :
    Except PyError (Grown ref) := do
  let pipelines ← iterate (← getOr answer "deal_pipelines" (.arr []))
  upsertEach (syncPipeline lib) pipelines ref

def syncOwner (lib : PyLib) (owner : Json) (ref : Reference) : Except PyError (Grown ref) := do
  let id ← item owner "id"
  let name ← owner.get "name"
  let displayName ← getOr owner "display_name" (.str "")
  let email ← owner.get "email"
  let isActive ← getOr owner "is_active" (.bool true)
  upsertOwner lib id (name.orElse displayName) email isActive ref

/-- `sync_owners` up to its commit. -/
def syncOwners (lib : PyLib) (answer : Json) (ref : Reference) : Except PyError (Grown ref) := do
  let owners ← answer.get "owners"
  let users ← getOr answer "users" (.arr [])
  upsertEach (syncOwner lib) (← iterate (owners.orElse users)) ref

/-- What the CRM answers, and whether the deal reasons, which no other table refers to, can be synced. -/
structure ReferenceAnswers where
  pipelines : Except PyError Json
  owners : Except PyError Json
  reasons : Except PyError Unit

/-- `run_reference_sync`: the tables, and the resolver when no part raises. Every part commits what it
has done. -/
def runReferenceSync (lib : PyLib) (answers : ReferenceAnswers) (ref : Reference) :
    Grown ref × Except PyError PipelineStageResolver :=
  match answers.pipelines >>= fun answer => syncPipelinesAndStages lib answer ref with
  | .error e => (⟨ref, .refl ref⟩, .error e)
  | .ok ⟨ref', h⟩ =>
      match answers.owners >>= fun answer => syncOwners lib answer ref' with
      | .error e => (⟨ref', h⟩, .error e)
      | .ok ⟨ref'', h'⟩ =>
          (⟨ref'', h.trans h'⟩, answers.reasons.map fun _ => buildStageResolver ref'')

/-- The resolver of a sync that returns is built from the tables it leaves. -/
theorem runReferenceSync_resolver {lib : PyLib} {answers : ReferenceAnswers}
    {resolver : PipelineStageResolver}
    (h : (runReferenceSync lib answers ref).2 = .ok resolver) :
    resolver.KnownTo (runReferenceSync lib answers ref).1.1 := by
  unfold runReferenceSync at h ⊢
  split at h
  · cases h
  · split at h
    · cases h
    · dsimp only at h ⊢
      cases hreasons : answers.reasons with
      | error e =>
          rw [hreasons] at h
          cases h
      | ok _ =>
          rw [hreasons, Except.map, Except.ok.injEq] at h
          rw [← h]
          exact (buildStageResolver_sound _).knownTo

end SalesTrades.Deals
