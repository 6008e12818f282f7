import SalesTrades.Deals.Model

/-!
# Parsing of Freshsales values

Time stamps and dates of the webhook and of the REST API, the split of the custom fields into the
curated columns and the rest, and the resolver from pipeline and stage names to ids.
-/

set_option autoImplicit false

namespace SalesTrades.Deals

open SalesTrades.Library

/-! ## Dates -/

def webhookTimestampFormats : List String := ["%m-%d-%Y %H:%M:%S", "%m-%d-%Y"]

def webhookDateFormat : String := "%m-%d-%Y"

/-- `value.split(" ")[0]`. -/
def firstWord (s : String) : String := String.ofList (s.toList.takeWhile (· != ' '))

/-- `value[:10]`. -/
def firstTen (s : String) : String := String.ofList (s.toList.take 10)

def parseWebhookTimestamp (lib : PyLib) : Option String → Except PyError (Option Datetime)
  | none => .ok none
  | some value =>
      if value = "" then .ok none
      else
        match webhookTimestampFormats.findSome? (lib.strptime (strip value)) with
        | some naive => (lib.toUtc naive).map some
        | none => .error .valueError

def parseWebhookDate (lib : PyLib) : Option String → Except PyError (Option Date)
  | none => .ok none
  | some value =>
      if value = "" then .ok none
      else
        match lib.strptime (firstWord (strip value)) webhookDateFormat with
        | some naive => .ok (some (dateOf naive))
        | none => .error .valueError

def parseIsoTimestamp (lib : PyLib) (value : Json) : Except PyError (Option Datetime) :=
  if value.truthy then
    match value with
    | .str s =>
        match lib.timestampFromIso s with
        | some dt => (lib.astimezoneUtc dt).map some
        | none => .error .valueError
    | _ => .error .typeError
  else .ok none

def parseIsoDate (lib : PyLib) (value : Json) : Except PyError (Option Date) :=
  if value.truthy then
    match value with
    | .str s =>
        match lib.dateFromIso (firstTen s) with
        | some d => .ok (some d)
        | none => .error .valueError
    | _ => .error .typeError
  else .ok none

/-! ## Custom fields -/

/-- `CURATED_CF_FIELDS`: the custom fields with a column of their own. -/
def curatedCfField : String → Option DealColumn
  | "cf_project" => some .cfProject
  | "cf_floor" => some .cfFloor
  | "cf_sqm_size" => some .cfSqmSize
  | "cf_product_category" => some .cfProductCategory
  | "cf_term" => some .cfTerm
  | "cf_start_date" => some .cfStartDate
  | "cf_term_end_date" => some .cfTermEndDate
  | "cf_deal_status" => some .cfDealStatus
  | "cf_total_lease_amount" => some .cfTotalLeaseAmount
  | _ => none

/-- The custom field a column holds. -/
def DealColumn.cfKey : DealColumn → Option String
  | .cfProject => some "cf_project"
  | .cfFloor => some "cf_floor"
  | .cfSqmSize => some "cf_sqm_size"
  | .cfProductCategory => some "cf_product_category"
  | .cfTerm => some "cf_term"
  | .cfStartDate => some "cf_start_date"
  | .cfTermEndDate => some "cf_term_end_date"
  | .cfDealStatus => some "cf_deal_status"
  | .cfTotalLeaseAmount => some "cf_total_lease_amount"
  | _ => none

theorem curatedCfField_eq_some_iff {key : String} {c : DealColumn} :
    curatedCfField key = some c ↔ c.cfKey = some key := by
  constructor
  · intro h
    unfold curatedCfField at h
    split at h <;> cases h <;> rfl
  · intro h
    cases c <;> cases h <;> rfl

/-- `_coerce_date`. -/
def coerceDate (lib : PyLib) : Json → Option Date
  | .str s => (lib.dateFromIso (firstTen s)).or ((lib.strptime s webhookDateFormat).map dateOf)
  | _ => none

/-- `_coerce_cf_value`. The numeric and the date fields are those whose columns are. -/
def coerceCfValue (lib : PyLib) (t : ColumnType) (value : Json) :
    Except PyError (Option (Cell t)) :=
  if value = .null ∨ value = .str "" then .ok none
  else
    match t with
    | .numeric =>
        match lib.float value with
        | .ok q => .ok (some (.typed q))
        -- an integer too large for a float is not caught
        | .error e => if e = .typeError ∨ e = .valueError then .ok none else .error e
    | .date => .ok ((coerceDate lib value).map .typed)
    | _ => .ok (some (.raw value))

/-- `curated[key] = value`, where a `None` is dropped before the upsert. -/
def DealData.set (data : DealData) (c : DealColumn) (v : Option (Cell c.type)) : DealData :=
  Function.update data c v

/-- `split_custom_fields`: the curated columns and the other custom fields. -/
def splitCustomFields (lib : PyLib) : JsonObject → Except PyError (DealData × JsonObject)
  | [] => .ok (PartialRecord.empty, [])
  | (key, value) :: rest => do
      let (curated, remaining) ← splitCustomFields lib rest
      match curatedCfField key with
      | some c => return (curated.set c (← coerceCfValue lib c.type value), remaining)
      | none => return (curated, (key, value) :: remaining)

theorem member_cons (key : String) (value : Json) (rest : JsonObject) (k : String) :
    Json.member ((key, value) :: rest) k = if key = k then value else Json.member rest k := by
  by_cases h : key = k
  · simp [Json.member, h]
  · simp [Json.member, h]

/-- The field of a curated column is not found at the key of another one. -/
theorem member_cons_of_ne {c : DealColumn} {key key' : String} (value : Json) (rest : JsonObject)
    (hother : curatedCfField key ≠ some c) (hkey : c.cfKey = some key') :
    Json.member ((key, value) :: rest) key' = Json.member rest key' := by
  rw [member_cons, if_neg]
  rintro rfl
  exact hother (curatedCfField_eq_some_iff.2 hkey)

/-- The `curated` mapping has the coerced value of the field of a curated column, and nothing at another
column. -/
def CuratedFrom (lib : PyLib) (cf : JsonObject) (curated : DealData) (c : DealColumn) : Prop :=
  match c.cfKey with
  | some key => coerceCfValue lib c.type (Json.member cf key) = .ok (curated c)
  | none => curated c = none

/-- A field of another column changes nothing. -/
theorem CuratedFrom.cons {lib : PyLib} {cf : JsonObject} {curated curated' : DealData}
    {c : DealColumn} {key : String} (value : Json) (h : CuratedFrom lib cf curated c)
    (hother : curatedCfField key ≠ some c) (hsame : curated' c = curated c) :
    CuratedFrom lib ((key, value) :: cf) curated' c := by
  unfold CuratedFrom at h ⊢
  split
  · rename_i key' hkey
    simp only [hkey] at h
    rw [member_cons_of_ne value cf hother hkey, hsame]
    exact h
  · rename_i hkey
    simp only [hkey] at h
    rw [hsame]
    exact h

/-- **Curated fields.** Each curated column gets the coerced value of its own field, an absent field
being `None`, and no other column gets any. -/
theorem splitCustomFields_curated {lib : PyLib} {cf : JsonObject} {curated : DealData}
    {remaining : JsonObject} (h : splitCustomFields lib cf = .ok (curated, remaining))
    (c : DealColumn) : CuratedFrom lib cf curated c := by
  induction cf generalizing curated remaining with
  | nil =>
      cases h
      unfold CuratedFrom
      split
      · simp [Json.member, coerceCfValue, PartialRecord.empty]
      · rfl
  | cons kv rest ih =>
      obtain ⟨key, value⟩ := kv
      obtain ⟨⟨curated', remaining'⟩, hrest, h⟩ := bind_eq_ok.1 h
      have ih := ih hrest
      dsimp only at h
      split at h
      · rename_i c' hc'
        obtain ⟨v, hv, hset⟩ := bind_eq_ok.1 h
        cases hset
        by_cases hcc : c = c'
        · -- the field of this column, whatever the rest says of it
          subst hcc
          unfold CuratedFrom
          rw [curatedCfField_eq_some_iff.1 hc']
          simp [member_cons, hv, DealData.set]
        · apply ih.cons value
          · rw [hc']
            exact fun heq => hcc (Option.some.inj heq).symm
          · simp [DealData.set, hcc]
      · rename_i hnone
        cases h
        apply ih.cons value _ rfl
        rw [hnone]
        exact Option.some_ne_none c |>.symm

/-- The fields without a column of their own are kept in their order. -/
theorem splitCustomFields_remaining {lib : PyLib} {cf : JsonObject} {curated : DealData}
    {remaining : JsonObject} (h : splitCustomFields lib cf = .ok (curated, remaining)) :
    remaining = cf.filter fun kv => (curatedCfField kv.1).isNone := by
  induction cf generalizing curated remaining with
  | nil =>
      cases h
      rfl
  | cons kv rest ih =>
      rw [splitCustomFields, bind_eq_ok] at h
      obtain ⟨⟨curated', remaining'⟩, hrest, h⟩ := h
      have ih := ih hrest
      cases hkey : curatedCfField kv.1 with
      | some c =>
          simp only [hkey, bind_eq_ok] at h
          obtain ⟨v, -, h⟩ := h
          cases h
          rw [List.filter_cons_of_neg (by simp [hkey])]
          exact ih
      | none =>
          simp only [hkey] at h
          cases h
          rw [List.filter_cons_of_pos (by simp [hkey]), ih]

/-! ## Pipeline and stage names -/

structure StageResolution where
  pipelineId : Int
  stageId : Int
  deriving DecidableEq

/-- `PipelineStageResolver`: its lookup table. -/
structure PipelineStageResolver where
  lookup : String × String → Option StageResolution

namespace PipelineStageResolver

/-- What `__init__` does with one stage: a later stage of the same names replaces an earlier one. -/
def addStage (pipelines : List Pipeline) (resolver : PipelineStageResolver) (stage : Stage) :
    PipelineStageResolver :=
  match pipelines.find? fun p => p.id == stage.pipelineId with
  | none => resolver
  | some pipeline =>
      { lookup :=
          Function.update resolver.lookup (pipeline.name, stage.name)
            (some { pipelineId := pipeline.id, stageId := stage.id }) }

/-- `__init__`. -/
def ofTables (pipelines : List Pipeline) (stages : List Stage) : PipelineStageResolver :=
  stages.foldl (addStage pipelines) { lookup := fun _ => none }

def resolve (resolver : PipelineStageResolver) (pipelineName stageName : String) :
    Option StageResolution :=
  resolver.lookup (pipelineName, stageName)

end PipelineStageResolver

/-- `build_stage_resolver`. -/
def buildStageResolver (ref : Reference) : PipelineStageResolver :=
  .ofTables ref.pipelines ref.stages

/-- A stage of the reference tables in the pipeline. -/
def Reference.HasStage (ref : Reference) (pipelineId stageId : Int) : Prop :=
  ∃ s ∈ ref.stages, s.id = stageId ∧ s.pipelineId = pipelineId

instance (ref : Reference) (p s : Int) : Decidable (ref.HasStage p s) :=
  inferInstanceAs (Decidable (∃ s' ∈ ref.stages, _))

/-- Every resolution is a stage of the tables in its pipeline. -/
def PipelineStageResolver.Sound (resolver : PipelineStageResolver) (ref : Reference) : Prop :=
  ∀ names r, resolver.lookup names = some r → ref.HasStage r.pipelineId r.stageId

theorem sound_addStage {ref : Reference} {resolver : PipelineStageResolver}
    (h : resolver.Sound ref) {stage : Stage} (hstage : stage ∈ ref.stages) :
    (resolver.addStage ref.pipelines stage).Sound ref := by
  rw [PipelineStageResolver.addStage]
  split
  · exact h
  · rename_i pipeline hfind
    intro names r hr
    dsimp only at hr
    by_cases hnames : names = (pipeline.name, stage.name)
    · subst hnames
      rw [Function.update_self, Option.some.injEq] at hr
      subst hr
      refine ⟨stage, hstage, rfl, ?_⟩
      have hid := List.find?_some hfind
      exact (beq_iff_eq.1 hid).symm
    · rw [Function.update_of_ne hnames] at hr
      exact h names r hr

/-- The resolver built from the reference tables resolves names to a stage and its pipeline. -/
theorem buildStageResolver_sound (ref : Reference) : (buildStageResolver ref).Sound ref := by
  have hfold : ∀ (stages : List Stage) (resolver : PipelineStageResolver),
      (∀ s ∈ stages, s ∈ ref.stages) → resolver.Sound ref →
        (stages.foldl (PipelineStageResolver.addStage ref.pipelines) resolver).Sound ref := by
    intro stages
    induction stages with
    | nil =>
        intro resolver _ h
        exact h
    | cons stage stages ih =>
        intro resolver hmem h
        apply ih
        · intro s hs
          exact hmem s (List.mem_cons_of_mem _ hs)
        · exact sound_addStage h (hmem stage List.mem_cons_self)
  apply hfold
  · intro s hs
    exact hs
  · intro names r hr
    cases hr

/-- Every resolution consists of ids in the tables. The reference sync never deletes a row, so this
is true of a resolver built at any earlier time. -/
def PipelineStageResolver.KnownTo (resolver : PipelineStageResolver) (ref : Reference) : Prop :=
  ∀ names r, resolver.lookup names = some r → r.pipelineId ∈ ref.pipelineIds ∧
    r.stageId ∈ ref.stageIds

/-- A resolver that is right about the tables gives ids in them. -/
theorem PipelineStageResolver.Sound.knownTo {resolver : PipelineStageResolver} {ref : Reference}
    (h : resolver.Sound ref) : resolver.KnownTo ref := by
  intro names r hr
  obtain ⟨stage, hstage, hid, hpipeline⟩ := h names r hr
  rw [← hid, ← hpipeline]
  exact ⟨ref.stage_pipeline stage hstage, List.mem_map_of_mem hstage⟩

end SalesTrades.Deals
