import SalesTrades.Deals.Parsing

/-!
# Webhook ingest

`ingest_webhook` with the request model and `detect_changes`. The payload carries the full current
state of a deal under flat keys. What the function reads from the payload alone is `WebhookReading`;
given a reading, the call is one append to the event log followed by one upsert
(`ingestWebhook_eq`). A call that raises is rolled back, so its result is an error and no database.
-/

set_option autoImplicit false

namespace SalesTrades.Deals

open SalesTrades.Library

/-! ## The request model -/

structure FreshsalesDealWebhook where
  dealId : Int
  dealName : Option String
  dealAmount : Option ℚ
  dealBaseCurrencyAmount : Option ℚ
  dealOwnerId : Option Int
  dealDealPipelineName : Option String
  dealDealStageName : Option String
  dealStageUpdatedTime : Option String
  dealCreatedAt : Option String
  dealExpectedClose : Option String
  dealLostReason : Option String
  dealLostReasonId : Option Int
  dealSalesAccountId : Option Int
  dealSalesAccountName : Option String

/-- A `str` field of the request model. -/
def strField : Json → Option String
  | .str s => some s
  | _ => none

def requiredField {α : Type} (validate : Json → Option α) (value : Json) : Except PyError α :=
  match validate value with
  | some a => .ok a
  | none => .error .validationError

/-- A field with the default `None`, which may also be given. -/
def optionalField {α : Type} (validate : Json → Option α) (value : Json) :
    Except PyError (Option α) :=
  if value = .null then .ok none else (requiredField validate value).map some

/-- `FreshsalesDealWebhook.model_validate`. -/
def modelValidate (lib : PyLib) (payload : JsonObject) : Except PyError FreshsalesDealWebhook := do
  let field := Json.member payload
  if field "deal_id" = .null then .error .validationError
  else
    return {
      dealId := ← requiredField lib.intField (field "deal_id")
      dealName := ← optionalField strField (field "deal_name")
      dealAmount := ← optionalField lib.floatField (field "deal_amount")
      dealBaseCurrencyAmount := ← optionalField lib.floatField (field "deal_base_currency_amount")
      dealOwnerId := ← optionalField lib.intField (field "deal_owner_id")
      dealDealPipelineName := ← optionalField strField (field "deal_deal_pipeline_name")
      dealDealStageName := ← optionalField strField (field "deal_deal_stage_name")
      dealStageUpdatedTime := ← optionalField strField (field "deal_stage_updated_time")
      dealCreatedAt := ← optionalField strField (field "deal_created_at")
      dealExpectedClose := ← optionalField strField (field "deal_expected_close")
      dealLostReason := ← optionalField strField (field "deal_lost_reason")
      dealLostReasonId := ← optionalField lib.intField (field "deal_lost_reason_id")
      dealSalesAccountId := ← optionalField lib.intField (field "deal_sales_account_id")
      dealSalesAccountName := ← optionalField strField (field "deal_sales_account_name") }

/-- The fields of a validated payload. -/
structure FieldsOf (lib : PyLib) (payload : JsonObject) (webhook : FreshsalesDealWebhook) : Prop where
  dealName : optionalField strField (Json.member payload "deal_name") = .ok webhook.dealName
  dealAmount : optionalField lib.floatField (Json.member payload "deal_amount") =
    .ok webhook.dealAmount
  dealBaseCurrencyAmount :
    optionalField lib.floatField (Json.member payload "deal_base_currency_amount") =
      .ok webhook.dealBaseCurrencyAmount
  dealOwnerId : optionalField lib.intField (Json.member payload "deal_owner_id") =
    .ok webhook.dealOwnerId
  dealDealPipelineName : optionalField strField (Json.member payload "deal_deal_pipeline_name") =
    .ok webhook.dealDealPipelineName
  dealDealStageName : optionalField strField (Json.member payload "deal_deal_stage_name") =
    .ok webhook.dealDealStageName
  dealStageUpdatedTime : optionalField strField (Json.member payload "deal_stage_updated_time") =
    .ok webhook.dealStageUpdatedTime
  dealCreatedAt : optionalField strField (Json.member payload "deal_created_at") =
    .ok webhook.dealCreatedAt
  dealExpectedClose : optionalField strField (Json.member payload "deal_expected_close") =
    .ok webhook.dealExpectedClose
  dealLostReason : optionalField strField (Json.member payload "deal_lost_reason") =
    .ok webhook.dealLostReason
  dealLostReasonId : optionalField lib.intField (Json.member payload "deal_lost_reason_id") =
    .ok webhook.dealLostReasonId
  dealSalesAccountId : optionalField lib.intField (Json.member payload "deal_sales_account_id") =
    .ok webhook.dealSalesAccountId
  dealSalesAccountName : optionalField strField (Json.member payload "deal_sales_account_name") =
    .ok webhook.dealSalesAccountName

theorem fieldsOf_modelValidate {lib : PyLib} {payload : JsonObject}
    {webhook : FreshsalesDealWebhook} (h : modelValidate lib payload = .ok webhook) :
    FieldsOf lib payload webhook := by
  simp only [modelValidate] at h
  split at h
  · cases h
  simp only [bind_eq_ok] at h
  obtain ⟨_, -, _, h1, _, h2, _, h3, _, h4, _, h5, _, h6, _, h7, _, h8, _, h9, _, h10, _, h11, _, h12,
    _, h13, h⟩ := h
  cases h
  exact ⟨h1, h2, h3, h4, h5, h6, h7, h8, h9, h10, h11, h12, h13⟩

/-- `str.startswith`. -/
def startsWith (start s : String) : Bool := start.toList.isPrefixOf s.toList

/-- `str.removeprefix`. -/
def withoutStart (start s : String) : String :=
  if startsWith start s then String.ofList (s.toList.drop start.toList.length) else s

def salesAccountKeepKeys : List String := ["deal_sales_account_id", "deal_sales_account_name"]

/-- `_trim_raw_payload`. -/
def trimRawPayload (payload : JsonObject) : JsonObject :=
  payload.filter fun kv =>
    !startsWith "deal_sales_account_" kv.1 || salesAccountKeepKeys.contains kv.1

/-- `_extract_custom_fields` of the webhook. -/
def extractCustomFields (payload : JsonObject) : JsonObject :=
  (payload.filter fun kv => startsWith "deal_cf_" kv.1).map fun kv =>
    (withoutStart "deal_" kv.1, kv.2)

theorem startsWith_iff {start s : String} : startsWith start s = true ↔ ∃ rest, s = start ++ rest := by
  rw [startsWith, List.isPrefixOf_iff_prefix]
  constructor
  · rintro ⟨rest, hrest⟩
    refine ⟨String.ofList rest, ?_⟩
    rw [← String.toList_inj, String.toList_append, String.toList_ofList, hrest]
  · rintro ⟨rest, rfl⟩
    rw [String.toList_append]
    exact List.prefix_append _ _

theorem withoutStart_append (start rest : String) : withoutStart start (start ++ rest) = rest := by
  rw [withoutStart, if_pos (startsWith_iff.2 ⟨rest, rfl⟩), ← String.toList_inj]
  simp

/-- A custom field of the webhook is found under its full name. -/
theorem member_extractCustomFields (payload : JsonObject) (key : String) :
    Json.member (extractCustomFields payload) ("cf_" ++ key) =
      Json.member payload ("deal_" ++ ("cf_" ++ key)) := by
  induction payload with
  | nil => rfl
  | cons kv rest ih =>
      obtain ⟨k, value⟩ := kv
      rw [member_cons]
      have hcf : "deal_" ++ ("cf_" ++ key) = "deal_cf_" ++ key := by
        rw [← String.append_assoc]
        rfl
      by_cases hk : startsWith "deal_cf_" k = true
      · have hextract : extractCustomFields ((k, value) :: rest) =
            (withoutStart "deal_" k, value) :: extractCustomFields rest := by
          simp [extractCustomFields, hk]
        rw [hextract, member_cons, ih]
        obtain ⟨tail, rfl⟩ := startsWith_iff.1 hk
        have htail : "deal_cf_" ++ tail = "deal_" ++ ("cf_" ++ tail) := by
          rw [← String.append_assoc]
          rfl
        rw [htail, withoutStart_append]
        have hiff : "cf_" ++ tail = "cf_" ++ key ↔
            "deal_" ++ ("cf_" ++ tail) = "deal_" ++ ("cf_" ++ key) := by
          simp only [← String.toList_inj, String.toList_append, List.append_cancel_left_eq]
        simp only [hiff]
      · have hextract : extractCustomFields ((k, value) :: rest) = extractCustomFields rest := by
          simp [extractCustomFields, hk]
        rw [hextract, ih, if_neg]
        rintro rfl
        exact hk (startsWith_iff.2 ⟨key, hcf⟩)

/-! ## Change detection -/

/-- `detect_changes`. -/
def detectChanges (dealId : Int) (existing : Option DealRow)
    (newPipelineId newStageId newOwnerId : Option Int) (occurredAt : Datetime)
    (source : EventSource) (rawPayload : JsonObject) : List DealEvent :=
  match existing with
  | none =>
      [{ dealId, eventType := .created, newPipelineId, newStageId, newOwnerId, occurredAt, source,
         rawPayload }]
  | some row =>
      (if (row.pipelineId, row.stageId) ≠ (newPipelineId, newStageId) then
        [{ dealId, eventType := .stageChange, oldPipelineId := row.pipelineId,
           oldStageId := row.stageId, newPipelineId, newStageId, occurredAt, source, rawPayload }]
      else []) ++
      (if row.ownerId ≠ newOwnerId then
        [{ dealId, eventType := .ownerChange, oldOwnerId := row.ownerId, newOwnerId, occurredAt,
           source, rawPayload }]
      else [])

theorem rawPayload_of_detectChanges {dealId : Int} {existing : Option DealRow}
    {newPipelineId newStageId newOwnerId : Option Int} {occurredAt : Datetime} {source : EventSource}
    {rawPayload : JsonObject} {e : DealEvent}
    (h : e ∈ detectChanges dealId existing newPipelineId newStageId newOwnerId occurredAt source
      rawPayload) : e.rawPayload = rawPayload := by
  cases existing with
  | none =>
      obtain rfl := List.mem_singleton.1 h
      rfl
  | some row =>
      rcases List.mem_append.1 h with h | h
      · split at h
        · obtain rfl := List.mem_singleton.1 h
          rfl
        · cases h
      · split at h
        · obtain rfl := List.mem_singleton.1 h
          rfl
        · cases h

/-! ## Ingest -/

section Ingest

variable {ref : Reference}

/-- `deals_repo.get_deal`. -/
def getDeal (db : DealDb ref) (id : Int) : Except PyError (Option DealRow) :=
  if IsBigint id then .ok (db.deals id) else .error .dataError

/-- The ids the names of the payload stand for. -/
def FreshsalesDealWebhook.resolution (webhook : FreshsalesDealWebhook)
    (resolver : PipelineStageResolver) : Option StageResolution :=
  match webhook.dealDealPipelineName, webhook.dealDealStageName with
  | some pipelineName, some stageName =>
      if pipelineName ≠ "" ∧ stageName ≠ "" then resolver.resolve pipelineName stageName else none
  | _, _ => none

/-- `new_pipeline_id` and `new_stage_id`: names that do not resolve keep the prior values. -/
def newPlace (resolution : Option StageResolution) (existing : Option DealRow) :
    Option Int × Option Int :=
  match resolution, existing with
  | some r, _ => (some r.pipelineId, some r.stageId)
  | none, some row => (row.pipelineId, row.stageId)
  | none, none => (none, none)

/-- `new_owner_id`. -/
def newOwner (ref : Reference) (ownerId : Option Int) (existing : Option DealRow) : Option Int :=
  (ownerId.or (existing.bind DealRow.ownerId)).filter fun o => ref.owners.contains o

/-- `deal_data` after the `None` values are dropped. -/
def dealData (webhook : FreshsalesDealWebhook) (place : Option Int × Option Int)
    (owner : Option Int) (occurredAt : Datetime) (expectedClose : Option Date)
    (createdAt : Option Datetime) (curated : DealData) (remaining rawPayload : JsonObject) :
    DealData
  | .pipelineId => place.1.map .typed
  | .stageId => place.2.map .typed
  | .ownerId => owner.map .typed
  | .name => webhook.dealName.map .typed
  | .amount => webhook.dealAmount.map .typed
  | .baseCurrencyAmount => webhook.dealBaseCurrencyAmount.map .typed
  | .expectedCloseDate => expectedClose.map .typed
  | .stageUpdatedAt => some (.typed occurredAt)
  | .dealCreatedAt => createdAt.map .typed
  | .lostReason => webhook.dealLostReason.map .typed
  | .lostReasonId => webhook.dealLostReasonId.map .typed
  | .salesAccountId => webhook.dealSalesAccountId.map .typed
  | .salesAccountName => webhook.dealSalesAccountName.map .typed
  | .customFields => some (.typed remaining)
  | .rawPayload => some (.typed rawPayload)
  -- the curated columns, and `age_days` and `rotten_days`, which the webhook does not carry
  | c => curated c

/-- `ingest_webhook`, the wall clock being `now`. -/
def ingestWebhook (lib : PyLib) (resolver : PipelineStageResolver) (now : Datetime)
    (payload : JsonObject) (db : DealDb ref) : Except PyError (DealDb ref) := do
  let webhook ← modelValidate lib payload
  let existing ← getDeal db webhook.dealId
  let place := newPlace (webhook.resolution resolver) existing
  let owner := newOwner ref webhook.dealOwnerId existing
  let occurredAt := (← parseWebhookTimestamp lib webhook.dealStageUpdatedTime).getD now
  let events := detectChanges webhook.dealId existing place.1 place.2 owner occurredAt .webhook payload
  let logged ← db.insertEvents events
  let (curated, remaining) ← splitCustomFields lib (extractCustomFields payload)
  let expectedClose ← parseWebhookDate lib webhook.dealExpectedClose
  let createdAt ← parseWebhookTimestamp lib webhook.dealCreatedAt
  upsertDeal lib logged webhook.dealId
    (dealData webhook place owner occurredAt expectedClose createdAt curated remaining
      (trimRawPayload payload))

/-! ## What is read from the payload -/

/-- What the call reads from its payload, whatever the database holds. -/
structure WebhookReading where
  webhook : FreshsalesDealWebhook
  stageUpdated : Option Datetime
  expectedClose : Option Date
  createdAt : Option Datetime
  curated : DealData
  remaining : JsonObject

/-- The payload is read without an exception, with this result. -/
structure ReadsAs (lib : PyLib) (payload : JsonObject) (r : WebhookReading) : Prop where
  webhook : modelValidate lib payload = .ok r.webhook
  dealId : IsBigint r.webhook.dealId
  stageUpdated : parseWebhookTimestamp lib r.webhook.dealStageUpdatedTime = .ok r.stageUpdated
  custom : splitCustomFields lib (extractCustomFields payload) = .ok (r.curated, r.remaining)
  expectedClose : parseWebhookDate lib r.webhook.dealExpectedClose = .ok r.expectedClose
  createdAt : parseWebhookTimestamp lib r.webhook.dealCreatedAt = .ok r.createdAt

namespace WebhookReading

variable (r : WebhookReading) (resolver : PipelineStageResolver) (now : Datetime)
  (payload : JsonObject) (db : DealDb ref)

def existing : Option DealRow := db.deals r.webhook.dealId

def place : Option Int × Option Int := newPlace (r.webhook.resolution resolver) (r.existing db)

def owner : Option Int := newOwner ref r.webhook.dealOwnerId (r.existing db)

def events : List DealEvent :=
  detectChanges r.webhook.dealId (r.existing db) (r.place resolver db).1 (r.place resolver db).2
    (r.owner db) (r.stageUpdated.getD now) .webhook payload

def data : DealData :=
  dealData r.webhook (r.place resolver db) (r.owner db) (r.stageUpdated.getD now) r.expectedClose
    r.createdAt r.curated r.remaining (trimRawPayload payload)

/-- The driver takes the events and the data. -/
structure Accepted (lib : PyLib) : Prop where
  data : (r.data resolver now payload db).Encodable lib
  events : (r.events resolver now payload db).all DealEvent.isStorable = true

end WebhookReading

variable {lib : PyLib} {resolver : PipelineStageResolver} {now : Datetime} {payload : JsonObject}
  {db db' : DealDb ref} {r : WebhookReading}

/-- A payload that is read without an exception: one append, one upsert. -/
theorem ingestWebhook_eq (h : ReadsAs lib payload r)
    (hevents : (r.events resolver now payload db).all DealEvent.isStorable = true) :
    ingestWebhook lib resolver now payload db =
      upsertDeal lib (db.logEvents (r.events resolver now payload db)) r.webhook.dealId
        (r.data resolver now payload db) := by
  have hinsert : db.insertEvents (r.events resolver now payload db) =
      .ok (db.logEvents (r.events resolver now payload db)) := if_pos hevents
  simp only [WebhookReading.events, WebhookReading.place, WebhookReading.owner,
    WebhookReading.existing] at hinsert
  simp only [ingestWebhook, h.webhook, getDeal, h.dealId, h.stageUpdated, h.custom,
    h.expectedClose, h.createdAt, hinsert, bind, Except.bind, if_true]
  rfl

/-- One whose events are refused raises. -/
theorem ingestWebhook_refused (h : ReadsAs lib payload r)
    (hevents : ¬ (r.events resolver now payload db).all DealEvent.isStorable = true) :
    ingestWebhook lib resolver now payload db = .error .dataError := by
  have hinsert : db.insertEvents (r.events resolver now payload db) = .error .dataError :=
    if_neg hevents
  simp only [WebhookReading.events, WebhookReading.place, WebhookReading.owner,
    WebhookReading.existing] at hinsert
  simp only [ingestWebhook, h.webhook, getDeal, h.dealId, h.stageUpdated, hinsert, bind, Except.bind,
    if_true]

theorem storable_events_of_ok (hread : ReadsAs lib payload r)
    (h : ingestWebhook lib resolver now payload db = .ok db') :
    (r.events resolver now payload db).all DealEvent.isStorable = true := by
  by_contra hevents
  rw [ingestWebhook_refused hread hevents] at h
  cases h

/-- A call that returns has read its payload without an exception. -/
theorem readsAs_of_ok (h : ingestWebhook lib resolver now payload db = .ok db') :
    ∃ r, ReadsAs lib payload r := by
  -- the statements in their order: one that raises contradicts the result
  simp only [ingestWebhook, getDeal, bind, Except.bind] at h
  split at h
  · cases h
  rename_i webhook hwebhook
  split at h
  · cases h
  rename_i existing hexisting
  split at h
  · cases h
  rename_i stageUpdated hstage
  split at h
  · cases h
  split at h
  · cases h
  rename_i split hsplit
  split at h
  · cases h
  rename_i close hclose
  split at h
  · cases h
  rename_i created hcreated
  have hid : IsBigint webhook.dealId := by
    by_contra hnot
    rw [if_neg hnot] at hexisting
    cases hexisting
  exact ⟨{ webhook, stageUpdated, expectedClose := close, createdAt := created,
           curated := split.1, remaining := split.2 },
    { webhook := hwebhook, dealId := hid, stageUpdated := hstage, custom := hsplit,
      expectedClose := hclose, createdAt := hcreated }⟩

/-- Two readings of one payload are the same. -/
theorem ReadsAs.unique {r r' : WebhookReading} (h : ReadsAs lib payload r)
    (h' : ReadsAs lib payload r') : r = r' := by
  obtain ⟨webhook, stageUpdated, expectedClose, createdAt, curated, remaining⟩ := r
  obtain ⟨webhook', stageUpdated', expectedClose', createdAt', curated', remaining'⟩ := r'
  have hw : webhook = webhook' := Except.ok.inj (h.webhook.symm.trans h'.webhook)
  subst hw
  have hs : stageUpdated = stageUpdated' := Except.ok.inj (h.stageUpdated.symm.trans h'.stageUpdated)
  have he : expectedClose = expectedClose' :=
    Except.ok.inj (h.expectedClose.symm.trans h'.expectedClose)
  have hc : createdAt = createdAt' := Except.ok.inj (h.createdAt.symm.trans h'.createdAt)
  have hsplit := Except.ok.inj (h.custom.symm.trans h'.custom)
  simp only [Prod.mk.injEq] at hsplit
  obtain ⟨hcur, hrem⟩ := hsplit
  subst hs he hc hcur hrem
  rfl

/-! ## What a call stores -/

/-- The row after a call, the rows of other deals and the log. -/
theorem ingestWebhook_spec (hread : ReadsAs lib payload r)
    (h : ingestWebhook lib resolver now payload db = .ok db') :
    (r.data resolver now payload db).Encodable lib ∧
      db'.deals r.webhook.dealId =
        some (PartialRecord.overlay ((r.data resolver now payload db).encoded lib)
          (db.rowOrEmpty r.webhook.dealId)) ∧
      (∀ id, id ≠ r.webhook.dealId → db'.deals id = db.deals id) ∧
      db'.events = db.events ++ r.events resolver now payload db := by
  rw [ingestWebhook_eq hread (storable_events_of_ok hread h)] at h
  exact upsertDeal_spec h

/-- A column whose value is kept when the data has none. -/
theorem overlay_encoded_of_typed {data : DealData} (henc : data.Encodable lib) {c : DealColumn}
    {o : Option c.Value} (hc : data c = o.map .typed) (row : DealRow) :
    PartialRecord.overlay (data.encoded lib) row c = o.or (row c) := by
  rw [PartialRecord.overlay, encoded_of_typed henc hc]

/-- The pipeline and stage of the row the upsert leaves are the new ones, whether they were resolved,
kept or missing; its owner is the new one if there is one and the old one otherwise. -/
theorem position_of_overlay (henc : (r.data resolver now payload db).Encodable lib) :
    DealRow.position (PartialRecord.overlay ((r.data resolver now payload db).encoded lib)
        (db.rowOrEmpty r.webhook.dealId)) =
      { pipelineId := (r.place resolver db).1
        stageId := (r.place resolver db).2
        ownerId := (r.owner db).or ((r.existing db).bind DealRow.ownerId) } := by
  have hpipeline := overlay_encoded_of_typed henc
    (c := .pipelineId) (o := (r.place resolver db).1) rfl (db.rowOrEmpty r.webhook.dealId)
  have hstage := overlay_encoded_of_typed henc
    (c := .stageId) (o := (r.place resolver db).2) rfl (db.rowOrEmpty r.webhook.dealId)
  have howner := overlay_encoded_of_typed henc
    (c := .ownerId) (o := r.owner db) rfl (db.rowOrEmpty r.webhook.dealId)
  simp only [DealRow.position, DealRow.pipelineId, DealRow.stageId, DealRow.ownerId, hpipeline,
    hstage, howner, Position.mk.injEq, WebhookReading.place, WebhookReading.existing]
  cases hex : db.deals r.webhook.dealId with
  | none =>
      -- a new row has nothing to keep
      rw [DealDb.rowOrEmpty_of_none hex]
      cases r.webhook.resolution resolver <;> simp [newPlace, PartialRecord.empty]
  | some row =>
      rw [DealDb.rowOrEmpty_of_some hex]
      cases r.webhook.resolution resolver with
      | none =>
          -- the prior values are written back
          simp only [newPlace, DealRow.pipelineId, DealRow.stageId, Option.or_self, true_and]
          rfl
      | some res =>
          simp only [newPlace, Option.some_or, true_and]
          rfl

theorem ingestWebhook_position (hread : ReadsAs lib payload r)
    (h : ingestWebhook lib resolver now payload db = .ok db') :
    ∃ row, db'.deals r.webhook.dealId = some row ∧
      row.position =
        { pipelineId := (r.place resolver db).1
          stageId := (r.place resolver db).2
          ownerId := (r.owner db).or ((r.existing db).bind DealRow.ownerId) } := by
  obtain ⟨henc, hrow, -, -⟩ := ingestWebhook_spec hread h
  exact ⟨_, hrow, position_of_overlay henc⟩

/-! ## Valid payloads -/

/-- A payload that is read without an exception and whose values fit their columns. -/
structure ValidPayload (lib : PyLib) (payload : JsonObject) (r : WebhookReading) : Prop
    extends ReadsAs lib payload r where
  storable : Json.isStorableMembers payload = true
  lostReasonId : ∀ n ∈ r.webhook.dealLostReasonId, IsBigint n
  salesAccountId : ∀ n ∈ r.webhook.dealSalesAccountId, IsBigint n
  curated : r.curated.Encodable lib

/-- The texts of the request model are texts of the payload. -/
theorem isText_of_strField {value : Json} {o : Option String} (hvalue : value.isStorable = true)
    (h : optionalField strField value = .ok o) : ∀ s ∈ o, isText s = true := by
  cases value with
  | null =>
      cases h
      rintro _ ⟨⟩
  | str s =>
      cases h
      rintro _ ⟨⟩
      exact hvalue
  | bool b => cases h
  | num q => cases h
  | arr xs => cases h
  | obj members => cases h

theorem isText_withoutStart {s : String} (h : isText s = true) (start : String) :
    isText (withoutStart start s) = true := by
  rw [withoutStart]
  split
  · rw [isText_iff, String.toList_ofList]
    exact fun hmem => isText_iff.1 h (List.mem_of_mem_drop hmem)
  · exact h

theorem isStorable_trimRawPayload (h : Json.isStorableMembers payload = true) :
    Json.isStorableMembers (trimRawPayload payload) = true :=
  Json.isStorableMembers_iff.2 fun m hm => Json.isStorableMembers_iff.1 h m (List.mem_of_mem_filter hm)

theorem isStorable_extractCustomFields (h : Json.isStorableMembers payload = true) :
    Json.isStorableMembers (extractCustomFields payload) = true := by
  refine Json.isStorableMembers_iff.2 fun m hm => ?_
  obtain ⟨m', hm', rfl⟩ := List.mem_map.1 hm
  obtain ⟨hkey, hvalue⟩ := Json.isStorableMembers_iff.1 h m' (List.mem_of_mem_filter hm')
  exact ⟨isText_withoutStart hkey _, hvalue⟩

theorem ValidPayload.remaining (hvalid : ValidPayload lib payload r) :
    Json.isStorableMembers r.remaining = true := by
  have hall := isStorable_extractCustomFields hvalid.storable
  rw [splitCustomFields_remaining hvalid.custom]
  exact Json.isStorableMembers_iff.2 fun m hm =>
    Json.isStorableMembers_iff.1 hall m (List.mem_of_mem_filter hm)

/-- Every event has the payload. -/
theorem storable_events (h : Json.isStorableMembers payload = true) :
    (r.events resolver now payload db).all DealEvent.isStorable = true := by
  refine List.all_eq_true.2 fun e he => ?_
  rw [DealEvent.isStorable, rawPayload_of_detectChanges he]
  exact h

/-- A typed value is encoded when it is in the range of its column. -/
theorem encodes_typed {t : ColumnType} {o : Option t.Value}
    (h : ∀ v ∈ o, t.fits v = true) :
    (o.map Cell.typed).all (fun v => (v.encode lib).isSome) = true := by
  cases o with
  | none => rfl
  | some v =>
      have hv := h v rfl
      simp [Cell.encode, hv]

theorem place_known (hres : resolver.KnownTo ref) :
    (∀ p ∈ (r.place resolver db).1, p ∈ ref.pipelineIds) ∧
      ∀ s ∈ (r.place resolver db).2, s ∈ ref.stageIds := by
  rw [WebhookReading.place, WebhookReading.existing]
  -- a resolved place is one of the resolver; otherwise the stored one stays, and satisfies its keys
  cases hresol : r.webhook.resolution resolver with
  | some res =>
      have hlookup : ∃ names, resolver.lookup names = some res := by
        rw [FreshsalesDealWebhook.resolution] at hresol
        split at hresol
        · split at hresol
          · exact ⟨_, hresol⟩
          · cases hresol
        · cases hresol
      obtain ⟨names, hnames⟩ := hlookup
      obtain ⟨hp, hs⟩ := hres names res hnames
      constructor
      · intro p hmem
        rw [newPlace, Option.mem_some_iff] at hmem
        exact hmem ▸ hp
      · intro s hmem
        rw [newPlace, Option.mem_some_iff] at hmem
        exact hmem ▸ hs
  | none =>
      cases hex : db.deals r.webhook.dealId with
      | none => simp [newPlace]
      | some row =>
          obtain ⟨hp, hs, -⟩ := db.fk r.webhook.dealId row hex
          exact ⟨hp, hs⟩

theorem owner_known : ∀ o ∈ r.owner db, o ∈ ref.owners := by
  intro o ho
  rw [WebhookReading.owner, newOwner, Option.mem_filter_iff] at ho
  exact List.contains_iff_mem.1 ho.2

theorem bigint_of_mem_pipelineIds {p : Int} (h : p ∈ ref.pipelineIds) : IsBigint p := by
  obtain ⟨pipeline, hmem, rfl⟩ := List.mem_map.1 h
  exact ref.bigint_pipeline pipeline hmem

theorem bigint_of_mem_stageIds {s : Int} (h : s ∈ ref.stageIds) : IsBigint s := by
  obtain ⟨stage, hmem, rfl⟩ := List.mem_map.1 h
  exact ref.bigint_stage stage hmem

/-- The driver takes every value of a valid payload. -/
theorem data_encodable (hvalid : ValidPayload lib payload r) (hres : resolver.KnownTo ref) :
    (r.data resolver now payload db).Encodable lib := by
  have hknown : (∀ p ∈ (r.place resolver db).1, p ∈ ref.pipelineIds) ∧
      ∀ s ∈ (r.place resolver db).2, s ∈ ref.stageIds := place_known hres
  obtain ⟨hplace, hstage⟩ := hknown
  have howner : ∀ o ∈ r.owner db, o ∈ ref.owners := owner_known
  have hfields := fieldsOf_modelValidate hvalid.webhook
  intro c
  -- ids are known to the tables or bounded by validity, texts and documents are storable
  cases c with
  | pipelineId =>
      apply encodes_typed
      intro p hp
      exact decide_eq_true (bigint_of_mem_pipelineIds (hplace p hp))
  | stageId =>
      apply encodes_typed
      intro s hs
      exact decide_eq_true (bigint_of_mem_stageIds (hstage s hs))
  | ownerId =>
      apply encodes_typed
      intro o ho
      exact decide_eq_true (ref.bigint_owner o (howner o ho))
  | lostReasonId =>
      apply encodes_typed
      intro n hn
      exact decide_eq_true (hvalid.lostReasonId n hn)
  | salesAccountId =>
      apply encodes_typed
      intro n hn
      exact decide_eq_true (hvalid.salesAccountId n hn)
  | name =>
      apply encodes_typed
      exact isText_of_strField (Json.isStorable_member hvalid.storable _) hfields.dealName
  | lostReason =>
      apply encodes_typed
      exact isText_of_strField (Json.isStorable_member hvalid.storable _) hfields.dealLostReason
  | salesAccountName =>
      apply encodes_typed
      exact isText_of_strField (Json.isStorable_member hvalid.storable _)
        hfields.dealSalesAccountName
  | amount | baseCurrencyAmount | expectedCloseDate | dealCreatedAt =>
      apply encodes_typed
      intro v _
      rfl
  | customFields =>
      apply encodes_typed (t := .jsonb) (o := some r.remaining)
      rintro _ ⟨⟩
      exact hvalid.remaining
  | rawPayload =>
      apply encodes_typed (t := .jsonb) (o := some (trimRawPayload payload))
      rintro _ ⟨⟩
      exact isStorable_trimRawPayload hvalid.storable
  | stageUpdatedAt => rfl
  | _ => exact hvalid.curated _

/-- A payload whose values the driver takes is always ingested. -/
theorem ingestWebhook_ok_of_accepted (hread : ReadsAs lib payload r)
    (hacc : r.Accepted resolver now payload db lib) (hres : resolver.KnownTo ref) :
    ∃ db', ingestWebhook lib resolver now payload db = .ok db' := by
  obtain ⟨henc, hevents⟩ := hacc
  rw [ingestWebhook_eq hread hevents]
  apply upsertDeal_ok henc
  -- the foreign keys speak of the position only
  have hpos := position_of_overlay henc
  rw [DealRow.position, Position.mk.injEq] at hpos
  obtain ⟨hpipeline, hstage, howner⟩ := hpos
  have hknown : (∀ p ∈ (r.place resolver db).1, p ∈ ref.pipelineIds) ∧
      ∀ s ∈ (r.place resolver db).2, s ∈ ref.stageIds := place_known hres
  obtain ⟨hplace, hplace'⟩ := hknown
  refine ⟨?_, ?_, ?_⟩
  · intro p hp
    exact hplace p (hpipeline ▸ hp)
  · intro s hs
    exact hplace' s (hstage ▸ hs)
  · intro o ho
    have ho' : o ∈ (r.owner db).or ((r.existing db).bind DealRow.ownerId) := howner ▸ ho
    rcases Option.or_eq_some_iff.1 ho' with hnew | ⟨-, hold⟩
    · exact owner_known o hnew
    · obtain ⟨row, hrow, hrowo⟩ := Option.bind_eq_some_iff.1 hold
      exact (db.fk _ row hrow).2.2 o hrowo

/-- A valid payload is always ingested. -/
theorem ingestWebhook_ok (hvalid : ValidPayload lib payload r) (hres : resolver.KnownTo ref) :
    ∃ db', ingestWebhook lib resolver now payload db = .ok db' :=
  ingestWebhook_ok_of_accepted hvalid.toReadsAs
    ⟨data_encodable hvalid hres, storable_events hvalid.storable⟩ hres

end Ingest

/-! ## A small account

Two pipelines, three stages and one owner, for the concrete runs. Its values hold no dates, so the
date functions are never asked. -/

/-- The libraries on integers, finite decimals and texts. -/
def plainLib : PyLib where
  strptime _ _ := none
  toUtc dt := .ok dt
  timestampFromIso _ := none
  astimezoneUtc dt := .ok dt
  dateFromIso _ := none
  float
    | .num q => .ok q
    | _ => .error .typeError
  intField
    | .num q => if q.den = 1 then some q.num else none
    | _ => none
  floatField
    | .num q => some q
    | _ => none
  encodeBigint j := (pyInt j).filter fun n => decide (IsBigint n)
  encodeInteger j := (pyInt j).filter fun n => decide (IsInteger n)
  encodeText := strField
  encodeNumeric
    | .num q => some q
    | _ => none
  encodeBigint_of_pyInt j n hj hn := by simp [hj, hn]

def sampleRef : Reference where
  pipelines := [⟨1, "Leasing", true, true⟩, ⟨2, "Sales", false, true⟩]
  stages := [⟨11, 1, "New"⟩, ⟨12, 1, "Won"⟩, ⟨21, 2, "New"⟩]
  owners := [5]
  pipelines_nodup := by decide
  stages_nodup := by decide
  stage_pipeline := by decide
  bigint_pipeline := by decide
  bigint_stage := by decide
  bigint_owner := by decide

def noon : Datetime := ⟨0, some 0⟩

/-- A webhook for deal 7 in the leasing pipeline. -/
def samplePayload (stageName : String) (ownerId : ℚ) : JsonObject :=
  [("deal_id", .num 7), ("deal_name", .str "Floor 3"), ("deal_owner_id", .num ownerId),
    ("deal_deal_pipeline_name", .str "Leasing"), ("deal_deal_stage_name", .str stageName)]

/-- What `samplePayload` is read as. -/
def sampleReading (stageName : String) (ownerId : Int) : WebhookReading where
  webhook :=
    { dealId := 7, dealName := some "Floor 3", dealAmount := none, dealBaseCurrencyAmount := none
      dealOwnerId := some ownerId, dealDealPipelineName := some "Leasing"
      dealDealStageName := some stageName, dealStageUpdatedTime := none, dealCreatedAt := none
      dealExpectedClose := none, dealLostReason := none, dealLostReasonId := none
      dealSalesAccountId := none, dealSalesAccountName := none }
  stageUpdated := none
  expectedClose := none
  createdAt := none
  curated := PartialRecord.empty
  remaining := []

theorem reads_samplePayload (stageName : String) (ownerId : Int) :
    ReadsAs plainLib (samplePayload stageName ownerId) (sampleReading stageName ownerId) where
  webhook := by
    simp [modelValidate, samplePayload, Json.member, sampleReading]
    rfl
  dealId := by
    constructor
    · show (-9223372036854775808 : Int) ≤ 7
      decide
    · show (7 : Int) < 9223372036854775808
      decide
  stageUpdated := rfl
  custom := by
    have hnone : extractCustomFields (samplePayload stageName ownerId) = [] := by
      simp [extractCustomFields, samplePayload, startsWith, List.isPrefixOf]
    rw [hnone]
    rfl
  expectedClose := rfl
  createdAt := rfl

theorem valid_samplePayload (ownerId : Int) :
    ValidPayload plainLib (samplePayload "New" ownerId) (sampleReading "New" ownerId) where
  toReadsAs := reads_samplePayload "New" ownerId
  storable := by
    simp only [samplePayload, Json.isStorableMembers, Json.isStorable, Bool.and_true]
    decide
  lostReasonId := by simp [sampleReading]
  salesAccountId := by simp [sampleReading]
  curated := by
    intro c
    rfl

end SalesTrades.Deals
