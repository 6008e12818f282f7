import SalesTrades.Deals.Webhook

/-!
# Records of the deal sync

`_parse_view_deal` and `_upsert`. A record names its pipeline, stage and owner by id. Records of an
inactive pipeline are skipped; a stage or an owner that the reference tables do not know is left out
of the upsert, so the row keeps the one it has (`position_of_record`).
-/

set_option autoImplicit false

namespace SalesTrades.Deals

open SalesTrades.Library

variable {ref : Reference} {lib : PyLib}

/-! ## View records -/

/-- `_extract_custom_fields` of the sync. -/
def extractViewCustomFields (deal : JsonObject) : Json :=
  (Json.member deal "custom_field").orElse ((Json.member deal "custom_fields").orElse (.obj []))

/-- `_extract_sales_account`. -/
def extractSalesAccount (deal : JsonObject) : Json × Json :=
  match Json.member deal "sales_account" with
  | .obj account => (Json.member account "id", Json.member account "name")
  | _ => (Json.member deal "sales_account_id", Json.member deal "sales_account_name")

/-- A value of the record, `None` being dropped before the upsert. -/
def rawCell {t : ColumnType} (j : Json) : Option (Cell t) := if j = .null then none else some (.raw j)

/-- The stage of a record. -/
def recordStage (deal : JsonObject) : Json :=
  (Json.member deal "deal_stage_id").orElse (Json.member deal "stage_id")

/-- The columns of a record after the `None` values are dropped. -/
def viewData (deal : JsonObject) (expectedClose : Option Date)
    (stageUpdated createdAt : Option Datetime) (curated : DealData) (remaining : JsonObject) :
    DealData
  | .pipelineId => rawCell (Json.member deal "deal_pipeline_id")
  | .stageId => rawCell (recordStage deal)
  | .ownerId => rawCell (Json.member deal "owner_id")
  | .name => rawCell (Json.member deal "name")
  | .amount => rawCell (Json.member deal "amount")
  | .baseCurrencyAmount => rawCell (Json.member deal "base_currency_amount")
  | .expectedCloseDate => expectedClose.map .typed
  | .stageUpdatedAt => stageUpdated.map .typed
  | .dealCreatedAt => createdAt.map .typed
  | .lostReason => none
  | .lostReasonId => rawCell (Json.member deal "deal_reason_id")
  | .ageDays => rawCell (Json.member deal "age")
  | .rottenDays => rawCell (Json.member deal "rotten_days")
  | .salesAccountId => rawCell (extractSalesAccount deal).1
  | .salesAccountName => rawCell (extractSalesAccount deal).2
  | .customFields => some (.typed remaining)
  | .rawPayload => some (.typed deal)
  | c => curated c

/-- `dict[key]`. -/
def requiredMember (members : JsonObject) (key : String) : Except PyError Json :=
  match members.find? fun m => m.1 == key with
  | some m => .ok m.2
  | none => .error .keyError

/-- `_parse_view_deal`: the deal id and the columns. -/
def parseViewDeal (lib : PyLib) (deal : JsonObject) : Except PyError (Json × DealData) := do
  match extractViewCustomFields deal with
  | .obj cf =>
      let (curated, remaining) ← splitCustomFields lib cf
      let expectedClose ← parseIsoDate lib (Json.member deal "expected_close")
      let stageUpdated ← parseIsoTimestamp lib (Json.member deal "stage_updated_time")
      let createdAt ← parseIsoTimestamp lib (Json.member deal "created_at")
      let id ← requiredMember deal "id"
      return (id, viewData deal expectedClose stageUpdated createdAt curated remaining)
  -- only a `dict` has the method `items`
  | _ => .error .attributeError

/-! ## Upserting a record -/

/-- `value in ids`, where a list or a `dict` cannot be hashed. -/
def inIds (ids : List Int) : Json → Except PyError Bool
  | .arr _ => .error .typeError
  | .obj _ => .error .typeError
  | j => .ok ((pyInt j).any ids.contains)

def activePipelineIds (ref : Reference) : List Int :=
  (ref.pipelines.filter Pipeline.isActive).map Pipeline.id

/-- `data.get(column)`. -/
def dataGet (data : DealData) (c : DealColumn) : Json :=
  match data c with
  | some (.raw j) => j
  | _ => .null

/-- A foreign key without a row in the tables is popped. -/
def popUnknown (ids : List Int) (data : DealData) (c : DealColumn) : Except PyError DealData := do
  if ← inIds ids (dataGet data c) then return data else return data.set c none

/-- How the driver takes the key of an upsert. -/
def encodeDealId (lib : PyLib) (id : Json) : Except PyError Int :=
  if id = .null then .error .integrityError
  else
    match lib.encodeBigint id with
    | some n => .ok n
    | none => .error .dataError

/-- `_upsert`: `none` for a record that is skipped. -/
def upsertRecord (lib : PyLib) (deal : Json) (db : DealDb ref) :
    Except PyError (Option (DealDb ref)) := do
  match deal with
  | .obj members =>
      if ← inIds (activePipelineIds ref) (Json.member members "deal_pipeline_id") then
        let (id, data) ← parseViewDeal lib members
        let data ← popUnknown ref.stageIds data .stageId
        let data ← popUnknown ref.owners data .ownerId
        let dealId ← encodeDealId lib id
        return some (← upsertDeal lib db dealId data)
      else return none
  | _ => .error .attributeError

/-! ## What a record writes -/

/-- What is parsed of a record. -/
structure RecordReading where
  expectedClose : Option Date
  stageUpdated : Option Datetime
  createdAt : Option Datetime
  curated : DealData
  remaining : JsonObject

/-- The integer a value stands for when the tables know it. -/
def knownInt (ids : List Int) (j : Json) : Option Int := (pyInt j).filter fun n => ids.contains n

/-- A foreign key that is left in the data. -/
def knownCell (ids : List Int) (j : Json) : Option (Cell .bigint) :=
  if (pyInt j).any ids.contains then some (.raw j) else none

/-- The data of the upsert. -/
def RecordReading.data (r : RecordReading) (ref : Reference) (deal : JsonObject) : DealData
  | .stageId => knownCell ref.stageIds (recordStage deal)
  | .ownerId => knownCell ref.owners (Json.member deal "owner_id")
  | c => viewData deal r.expectedClose r.stageUpdated r.createdAt r.curated r.remaining c

/-- The record is one of an active pipeline, it is read without an exception with this result, and
it is about the deal `id`. -/
structure RecordReadsAs (ref : Reference) (lib : PyLib) (deal : JsonObject) (r : RecordReading)
    (id : Int) : Prop where
  active : (pyInt (Json.member deal "deal_pipeline_id")).any (activePipelineIds ref).contains = true
  custom : ∃ cf, extractViewCustomFields deal = .obj cf ∧
    splitCustomFields lib cf = .ok (r.curated, r.remaining)
  expectedClose : parseIsoDate lib (Json.member deal "expected_close") = .ok r.expectedClose
  stageUpdated : parseIsoTimestamp lib (Json.member deal "stage_updated_time") = .ok r.stageUpdated
  createdAt : parseIsoTimestamp lib (Json.member deal "created_at") = .ok r.createdAt
  dealId : ∃ j, requiredMember deal "id" = .ok j ∧ encodeDealId lib j = .ok id

theorem inIds_eq_ok {ids : List Int} {j : Json} {b : Bool} (h : inIds ids j = .ok b) :
    b = (pyInt j).any ids.contains := by
  cases j <;> cases h <;> rfl

theorem dataGet_rawCell {data : DealData} {c : DealColumn} {j : Json} (h : data c = rawCell j) :
    dataGet data c = j := by
  rw [dataGet, h, rawCell]
  by_cases hj : j = .null
  · simp [hj]
  · simp [hj]

/-- Popping leaves the known keys. -/
theorem popUnknown_eq_ok {ids : List Int} {data data' : DealData} {c : DealColumn} {j : Json}
    (hc : data c = rawCell j) (h : popUnknown ids data c = .ok data') :
    data' c = (if (pyInt j).any ids.contains then some (.raw j) else none) ∧
      ∀ c', c' ≠ c → data' c' = data c' := by
  rw [popUnknown, dataGet_rawCell hc] at h
  simp only [bind, Except.bind] at h
  split at h
  · cases h
  rename_i b hb
  rw [← inIds_eq_ok hb]
  cases b with
  | true =>
      cases h
      refine ⟨?_, fun _ _ => rfl⟩
      rw [hc, rawCell, if_neg, if_pos rfl]
      -- `None` is in no table
      rintro rfl
      cases hb
  | false =>
      cases h
      refine ⟨by simp [DealData.set], ?_⟩
      intro c' hc'
      simp [DealData.set, hc']

/-- A record is skipped when its pipeline is not active. -/
theorem upsertRecord_skipped {deal : Json} {db : DealDb ref}
    (h : upsertRecord lib deal db = .ok none) :
    ∃ members, deal = .obj members ∧
      (pyInt (Json.member members "deal_pipeline_id")).any (activePipelineIds ref).contains =
        false := by
  cases deal with
  | obj members =>
      refine ⟨members, rfl, ?_⟩
      simp only [upsertRecord, bind_eq_ok] at h
      obtain ⟨active, hactive, h⟩ := h
      rw [← inIds_eq_ok hactive]
      cases active with
      | false => rfl
      | true =>
          simp only [if_true, bind_eq_ok] at h
          obtain ⟨_, -, _, -, _, -, _, -, _, -, h⟩ := h
          cases h
  | null => cases h
  | bool b => cases h
  | num q => cases h
  | str s => cases h
  | arr xs => cases h

/-- What a record is parsed as. -/
theorem parseViewDeal_eq_ok {members : JsonObject} {j : Json} {data : DealData}
    (h : parseViewDeal lib members = .ok (j, data)) : ∃ r : RecordReading,
      (∃ cf, extractViewCustomFields members = .obj cf ∧
        splitCustomFields lib cf = .ok (r.curated, r.remaining)) ∧
      parseIsoDate lib (Json.member members "expected_close") = .ok r.expectedClose ∧
      parseIsoTimestamp lib (Json.member members "stage_updated_time") = .ok r.stageUpdated ∧
      parseIsoTimestamp lib (Json.member members "created_at") = .ok r.createdAt ∧
      requiredMember members "id" = .ok j ∧
      data = viewData members r.expectedClose r.stageUpdated r.createdAt r.curated r.remaining := by
  unfold parseViewDeal at h
  split at h
  · rename_i cf hcf
    simp only [bind_eq_ok] at h
    obtain ⟨parts, hsplit, close, hclose, updated, hupdated, created, hcreated, id, hid, hdone⟩ := h
    cases hdone
    exact ⟨⟨close, updated, created, parts.1, parts.2⟩, ⟨cf, hcf, hsplit⟩, hclose, hupdated,
      hcreated, hid, rfl⟩
  · cases h

/-- What the two lookups of foreign keys leave of a record. -/
theorem RecordReading.data_eq {r : RecordReading} {members : JsonObject} {data data' : DealData}
    (hstage : popUnknown ref.stageIds (viewData members r.expectedClose r.stageUpdated r.createdAt
      r.curated r.remaining) .stageId = .ok data)
    (howner : popUnknown ref.owners data .ownerId = .ok data') : data' = r.data ref members := by
  obtain ⟨hs, hs'⟩ := popUnknown_eq_ok (j := recordStage members) rfl hstage
  have hown : data .ownerId = rawCell (Json.member members "owner_id") := hs' .ownerId (by decide)
  obtain ⟨ho, ho'⟩ := popUnknown_eq_ok hown howner
  funext c
  by_cases hco : c = .ownerId
  · subst hco
    exact ho
  · rw [ho' c hco]
    by_cases hcs : c = .stageId
    · subst hcs
      exact hs
    · rw [hs' c hcs]
      cases c <;> first | rfl | exact absurd rfl hco | exact absurd rfl hcs

/-- A record that is not skipped: one upsert of the data it is read as. -/
theorem upsertRecord_spec {deal : Json} {db db' : DealDb ref}
    (h : upsertRecord lib deal db = .ok (some db')) :
    ∃ members r id, deal = .obj members ∧ RecordReadsAs ref lib members r id ∧
      upsertDeal lib db id (r.data ref members) = .ok db' := by
  cases deal with
  | obj members =>
      simp only [upsertRecord, bind_eq_ok] at h
      obtain ⟨active, hactive, h⟩ := h
      cases active with
      | false => cases h
      | true =>
          simp only [if_true, bind_eq_ok] at h
          obtain ⟨⟨j, data⟩, hparsed, data₁, hstage, data₂, howner, dealId, hdealId, db₁, hupsert,
            hdone⟩ := h
          cases hdone
          obtain ⟨r, hcustom, hclose, hupdated, hcreated, hid, rfl⟩ := parseViewDeal_eq_ok hparsed
          rw [RecordReading.data_eq hstage howner] at hupsert
          exact ⟨members, r, dealId, rfl, ⟨(inIds_eq_ok hactive).symm, hcustom, hclose, hupdated,
            hcreated, j, hid, hdealId⟩, hupsert⟩
  | null => cases h
  | bool b => cases h
  | num q => cases h
  | str s => cases h
  | arr xs => cases h

/-- The driver stores a known key as the integer it stands for. -/
theorem encode_of_known {ids : List Int} (hids : ∀ n ∈ ids, IsBigint n) {j : Json}
    (hj : (pyInt j).any ids.contains = true) : Cell.encode lib (.raw j : Cell .bigint) = pyInt j := by
  rw [Option.any_eq_true] at hj
  obtain ⟨n, hn, hmem⟩ := hj
  rw [hn]
  exact lib.encodeBigint_of_pyInt j n hn (hids n (List.contains_iff_mem.1 hmem))

theorem encode_knownCell {ids : List Int} (hids : ∀ n ∈ ids, IsBigint n) (j : Json) :
    (knownCell ids j).bind (Cell.encode lib) = knownInt ids j := by
  rw [knownCell, knownInt]
  by_cases hj : (pyInt j).any ids.contains = true
  · rw [if_pos hj, Option.bind_some, encode_of_known hids hj]
    rw [Option.any_eq_true] at hj
    obtain ⟨n, hn, hmem⟩ := hj
    rw [hn, Option.filter_some_pos hmem]
  · rw [if_neg hj, Option.bind_none]
    cases hn : pyInt j with
    | none => rfl
    | some n =>
        rw [hn, Option.any_some] at hj
        rw [Option.filter_some_neg (Bool.eq_false_iff.2 hj)]

theorem bigint_of_mem_activePipelineIds {p : Int} (h : p ∈ activePipelineIds ref) : IsBigint p := by
  obtain ⟨pipeline, hmem, rfl⟩ := List.mem_map.1 h
  exact ref.bigint_pipeline pipeline (List.mem_of_mem_filter hmem)

/-- The position of the row an upsert leaves: the pipeline of the record, and its stage and owner
where the tables know them. -/
theorem position_of_record {members : JsonObject} {r : RecordReading} {id : Int}
    (hread : RecordReadsAs ref lib members r id) (row : DealRow) :
    DealRow.position (PartialRecord.overlay ((r.data ref members).encoded lib) row) =
      { pipelineId := pyInt (Json.member members "deal_pipeline_id")
        stageId := (knownInt ref.stageIds (recordStage members)).or row.stageId
        ownerId := (knownInt ref.owners (Json.member members "owner_id")).or row.ownerId } := by
  have hstages : ∀ n ∈ ref.stageIds, IsBigint n := by
    intro n hn
    exact bigint_of_mem_stageIds hn
  have hpipelines : ∀ n ∈ activePipelineIds ref, IsBigint n := by
    intro n hn
    exact bigint_of_mem_activePipelineIds hn
  rw [DealRow.position, Position.mk.injEq]
  refine ⟨?_, ?_, ?_⟩
  · -- the pipeline is active, so the record has one
    obtain ⟨p, hp, -⟩ := (Option.any_eq_true _ _).1 hread.active
    have hcell : r.data ref members .pipelineId = some (.raw (Json.member members "deal_pipeline_id"))
        := by
      show rawCell _ = _
      rw [rawCell, if_neg]
      intro hnull
      rw [hnull] at hp
      cases hp
    have hencoded : (r.data ref members).encoded lib .pipelineId = some p := by
      rw [DealData.encoded, hcell, Option.bind_some]
      exact (encode_of_known hpipelines hread.active).trans hp
    rw [DealRow.pipelineId, PartialRecord.overlay_of_some hencoded, hp]
  · have hencoded : (r.data ref members).encoded lib .stageId =
        knownInt ref.stageIds (recordStage members) := encode_knownCell hstages _
    rw [DealRow.stageId, PartialRecord.overlay, hencoded]
    rfl
  · have hencoded : (r.data ref members).encoded lib .ownerId =
        knownInt ref.owners (Json.member members "owner_id") := encode_knownCell ref.bigint_owner _
    rw [DealRow.ownerId, PartialRecord.overlay, hencoded]
    rfl

end SalesTrades.Deals
