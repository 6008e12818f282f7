import SalesTrades.Deals.DealRuns

/-!
# What the mirror shows of the CRM

`webhookImage` and `recordImage` say, column by column, what a row should show of a payload or of a
view record: the mapping of the value of the source key where the key is present, nothing where it is
absent. A value that maps to `None` asks for an empty column. Both writers drop `None` values before
the upsert, so what they leave shows the image exactly when those columns were empty before.
-/

set_option autoImplicit false

namespace SalesTrades.Deals

open SalesTrades.Library PartialRecord

variable {ref : Reference} {lib : PyLib}

/-! ## Images -/

/-- The content asked for by a key: nothing when it is absent or its value is rejected. -/
def field {α : Type} (members : JsonObject) (key : String)
    (mapping : Json → Except PyError (Option α)) : Option (Option α) :=
  if Json.hasKey members key then
    match mapping (Json.member members key) with
    | .ok o => some o
    | .error _ => none
  else none

theorem field_eq_some {α : Type} {members : JsonObject} {key : String}
    {mapping : Json → Except PyError (Option α)} {o o' : Option α}
    (h : field members key mapping = some o) (hmap : mapping (Json.member members key) = .ok o') :
    o' = o := by
  rw [field] at h
  split at h
  · rw [hmap] at h
    exact Option.some.inj h
  · cases h

/-- The mapping of a curated custom field. -/
def curatedMapping (lib : PyLib) (t : ColumnType) (value : Json) : Except PyError (Option t.Value) :=
  (coerceCfValue lib t value).map fun v => v.bind (Cell.encode lib)

/-- The mapping of a date of the webhook. -/
def webhookDateMapping (lib : PyLib) (value : Json) : Except PyError (Option Date) := do
  parseWebhookDate lib (← optionalField strField value)

/-- The mapping of a time stamp of the webhook. -/
def webhookTimestampMapping (lib : PyLib) (value : Json) : Except PyError (Option Datetime) := do
  parseWebhookTimestamp lib (← optionalField strField value)

/-- The custom fields without a column of their own. -/
def otherCustomFields (cf : JsonObject) : JsonObject :=
  cf.filter fun kv => (curatedCfField kv.1).isNone

/-- What a row should show of a webhook payload with names that resolve and a known owner. A stage
without a time stamp has been updated at the receipt. -/
def webhookImage (ref : Reference) (lib : PyLib) (resolver : PipelineStageResolver) (now : Datetime)
    (payload : JsonObject) (webhook : FreshsalesDealWebhook) : Image DealColumn.Value
  | .pipelineId => (webhook.resolution resolver).map fun r => some r.pipelineId
  | .stageId => (webhook.resolution resolver).map fun r => some r.stageId
  | .ownerId => (webhook.dealOwnerId.filter fun o => ref.owners.contains o).map some
  | .name => field payload "deal_name" (optionalField strField)
  | .amount => field payload "deal_amount" (optionalField lib.floatField)
  | .baseCurrencyAmount => field payload "deal_base_currency_amount" (optionalField lib.floatField)
  | .expectedCloseDate => field payload "deal_expected_close" (webhookDateMapping lib)
  | .stageUpdatedAt =>
      (field payload "deal_stage_updated_time" (webhookTimestampMapping lib)).map fun updated =>
        some (updated.getD now)
  | .dealCreatedAt => field payload "deal_created_at" (webhookTimestampMapping lib)
  | .lostReason => field payload "deal_lost_reason" (optionalField strField)
  | .lostReasonId => field payload "deal_lost_reason_id" (optionalField lib.intField)
  | .salesAccountId => field payload "deal_sales_account_id" (optionalField lib.intField)
  | .salesAccountName => field payload "deal_sales_account_name" (optionalField strField)
  | .customFields => some (some (otherCustomFields (extractCustomFields payload)))
  | .rawPayload => some (some (trimRawPayload payload))
  | c =>
      match c.cfKey with
      | some key => field payload ("deal_" ++ key) (curatedMapping lib c.type)
      | none => none

/-- The mapping of a value that is passed on to the driver. -/
def rawMapping (lib : PyLib) (t : ColumnType) (value : Json) : Except PyError (Option t.Value) :=
  if value = .null then .ok none
  else
    match lib.encodeRaw t value with
    | some v => .ok (some v)
    | none => .error .dataError

/-- The account of a record, under a key of the embedded account or one of the record. -/
def accountField (lib : PyLib) (deal : JsonObject) (t : ColumnType) (key recordKey : String) :
    Option (Option t.Value) :=
  match Json.member deal "sales_account" with
  | .obj account => field account key (rawMapping lib t)
  | _ => field deal recordKey (rawMapping lib t)

/-- The mapping of a foreign key, null where the tables do not know it. -/
def knownMapping (ids : List Int) (value : Json) : Except PyError (Option Int) :=
  .ok (knownInt ids value)

/-- What a row should show of a view record. A stage or an owner the tables do not know is null. -/
def recordImage (ref : Reference) (lib : PyLib) (deal : JsonObject) : Image DealColumn.Value
  | .pipelineId => (pyInt (Json.member deal "deal_pipeline_id")).map some
  | .stageId =>
      if Json.hasKey deal "deal_stage_id" || Json.hasKey deal "stage_id" then
        some (knownInt ref.stageIds (recordStage deal))
      else none
  | .ownerId => field deal "owner_id" (knownMapping ref.owners)
  | .name => field deal "name" (rawMapping lib .text)
  | .amount => field deal "amount" (rawMapping lib .numeric)
  | .baseCurrencyAmount => field deal "base_currency_amount" (rawMapping lib .numeric)
  | .expectedCloseDate => field deal "expected_close" (parseIsoDate lib)
  | .stageUpdatedAt => field deal "stage_updated_time" (parseIsoTimestamp lib)
  | .dealCreatedAt => field deal "created_at" (parseIsoTimestamp lib)
  | .lostReason => none
  | .lostReasonId => field deal "deal_reason_id" (rawMapping lib .bigint)
  | .ageDays => field deal "age" (rawMapping lib .integer)
  | .rottenDays => field deal "rotten_days" (rawMapping lib .integer)
  | .salesAccountId => accountField lib deal .bigint "id" "sales_account_id"
  | .salesAccountName => accountField lib deal .text "name" "sales_account_name"
  | .rawPayload => some (some deal)
  | .customFields =>
      match extractViewCustomFields deal with
      | .obj cf => some (some (otherCustomFields cf))
      | _ => none
  | c =>
      match extractViewCustomFields deal, c.cfKey with
      | .obj cf, some key => field cf key (curatedMapping lib c.type)
      | _, _ => none

/-! ## The data agrees with the image -/

theorem cfKey_start {c : DealColumn} {key : String} (h : c.cfKey = some key) :
    ∃ rest, key = "cf_" ++ rest := by
  apply startsWith_iff.1
  cases c <;> cases h <;> rfl

/-- The curated columns hold the mapped values of their own fields. -/
theorem curated_encoded {cf : JsonObject} {curated : DealData} {remaining : JsonObject}
    (hsplit : splitCustomFields lib cf = .ok (curated, remaining)) {c : DealColumn} {key : String}
    (hkey : c.cfKey = some key) :
    curatedMapping lib c.type (Json.member cf key) = .ok (curated.encoded lib c) := by
  have hc := splitCustomFields_curated hsplit c
  rw [CuratedFrom, hkey] at hc
  dsimp only at hc
  rw [curatedMapping, hc]
  rfl

theorem encoded_rawCell {data : DealData} (henc : data.Encodable lib) {c : DealColumn} {j : Json}
    (hc : data c = rawCell j) : rawMapping lib c.type j = .ok (data.encoded lib c) := by
  rw [rawMapping, DealData.encoded, hc, rawCell]
  by_cases hj : j = .null
  · rw [if_pos hj, if_pos hj]
    rfl
  · have hv := henc c
    rw [hc, rawCell, if_neg hj, Option.all_some, Cell.encode] at hv
    obtain ⟨v, hv⟩ := Option.isSome_iff_exists.1 hv
    rw [if_neg hj, if_neg hj, Option.bind_some, Cell.encode, hv]

section Webhook

variable {resolver : PipelineStageResolver} {now : Datetime} {payload : JsonObject}
  {db db' : DealDb ref} {r : WebhookReading}

theorem webhookImage_curated {c : DealColumn} {key : String} (hkey : c.cfKey = some key) :
    webhookImage ref lib resolver now payload r.webhook c =
      field payload ("deal_" ++ key) (curatedMapping lib c.type) := by
  cases c <;> cases hkey <;> rfl

theorem encoded_curated {c : DealColumn} {key : String} (hkey : c.cfKey = some key) :
    (r.data resolver now payload db).encoded lib c = r.curated.encoded lib c := by
  cases c <;> cases hkey <;> rfl

/-- What a webhook writes is what its payload asks for. -/
theorem webhook_encoded (hread : ReadsAs lib payload r)
    (henc : (r.data resolver now payload db).Encodable lib) (c : DealColumn) (o : Option c.Value)
    (h : webhookImage ref lib resolver now payload r.webhook c = some o) :
    (r.data resolver now payload db).encoded lib c = o := by
  have hfields := fieldsOf_modelValidate hread.webhook
  cases hkey : c.cfKey with
  | some key =>
      -- a curated column: its field is found under the full name
      obtain ⟨rest, rfl⟩ := cfKey_start hkey
      rw [webhookImage_curated hkey] at h
      have hmap := curated_encoded hread.custom hkey
      rw [member_extractCustomFields] at hmap
      rw [encoded_curated hkey]
      exact field_eq_some h hmap
  | none =>
      -- a column whose value is typed holds that value
      have htyped : ∀ {c : DealColumn} {v : Option c.Value},
          r.data resolver now payload db c = v.map .typed →
            (r.data resolver now payload db).encoded lib c = v := by
        intro c v hv
        exact encoded_of_typed henc hv
      have hclose : webhookDateMapping lib (Json.member payload "deal_expected_close") =
          .ok r.expectedClose := bind_eq_ok.2 ⟨_, hfields.dealExpectedClose, hread.expectedClose⟩
      have hupdated : webhookTimestampMapping lib (Json.member payload "deal_stage_updated_time") =
          .ok r.stageUpdated := bind_eq_ok.2 ⟨_, hfields.dealStageUpdatedTime, hread.stageUpdated⟩
      have hcreated : webhookTimestampMapping lib (Json.member payload "deal_created_at") =
          .ok r.createdAt := bind_eq_ok.2 ⟨_, hfields.dealCreatedAt, hread.createdAt⟩
      cases c with
      | pipelineId =>
          obtain ⟨res, hres, rfl⟩ := Option.map_eq_some_iff.1 h
          apply htyped
          show (r.place resolver db).1.map _ = _
          rw [WebhookReading.place, hres]
          rfl
      | stageId =>
          obtain ⟨res, hres, rfl⟩ := Option.map_eq_some_iff.1 h
          apply htyped
          show (r.place resolver db).2.map _ = _
          rw [WebhookReading.place, hres]
          rfl
      | ownerId =>
          obtain ⟨owner, howner, rfl⟩ := Option.map_eq_some_iff.1 h
          apply htyped
          show (r.owner db).map _ = _
          obtain ⟨hgiven, hknown⟩ := Option.filter_eq_some_iff.1 howner
          rw [WebhookReading.owner, newOwner, hgiven, Option.some_or, Option.filter_some_pos hknown]
      | stageUpdatedAt =>
          obtain ⟨updated, hfield, rfl⟩ := Option.map_eq_some_iff.1 h
          rw [← field_eq_some hfield hupdated]
          exact htyped rfl
      | name => exact (htyped rfl).trans (field_eq_some h hfields.dealName)
      | amount => exact (htyped rfl).trans (field_eq_some h hfields.dealAmount)
      | baseCurrencyAmount =>
          exact (htyped rfl).trans (field_eq_some h hfields.dealBaseCurrencyAmount)
      | expectedCloseDate => exact (htyped rfl).trans (field_eq_some h hclose)
      | dealCreatedAt => exact (htyped rfl).trans (field_eq_some h hcreated)
      | lostReason => exact (htyped rfl).trans (field_eq_some h hfields.dealLostReason)
      | lostReasonId => exact (htyped rfl).trans (field_eq_some h hfields.dealLostReasonId)
      | salesAccountId => exact (htyped rfl).trans (field_eq_some h hfields.dealSalesAccountId)
      | salesAccountName => exact (htyped rfl).trans (field_eq_some h hfields.dealSalesAccountName)
      | customFields =>
          cases h
          apply htyped
          rw [otherCustomFields, ← splitCustomFields_remaining hread.custom]
          rfl
      | rawPayload =>
          cases h
          exact htyped rfl
      | ageDays => cases h
      | rottenDays => cases h
      | _ => cases hkey

/-- No column that the image asks to be empty has a value in the row there was. -/
def NothingToClear (image : Image DealColumn.Value) (before : Option DealRow) : Prop :=
  ∀ row ∈ before, ∀ c, image c = some none → row c = none

theorem nothingToClear_iff {image : Image DealColumn.Value} {id : Int} :
    (∀ c, image c = some none → db.rowOrEmpty id c = none) ↔ NothingToClear image (db.deals id) := by
  cases hrow : db.deals id with
  | none =>
      rw [DealDb.rowOrEmpty_of_none hrow]
      constructor
      · intro _ row hnone
        cases hnone
      · intro _ c _
        rfl
  | some row =>
      rw [DealDb.rowOrEmpty_of_some hrow]
      constructor
      · intro h row' hrow'
        rw [Option.mem_some_iff] at hrow'
        exact hrow' ▸ h
      · intro h
        exact h row rfl

/-- After a webhook the row shows the payload exactly when there was nothing to clear. -/
theorem webhook_shows_iff (hread : ReadsAs lib payload r)
    (h : ingestWebhook lib resolver now payload db = .ok db') :
    ∃ row, db'.deals r.webhook.dealId = some row ∧
      (Shows (webhookImage ref lib resolver now payload r.webhook) row ↔
        NothingToClear (webhookImage ref lib resolver now payload r.webhook)
          (db.deals r.webhook.dealId)) := by
  obtain ⟨henc, hrow, -, -⟩ := ingestWebhook_spec hread h
  refine ⟨_, hrow, ?_⟩
  rw [shows_overlay_iff, nothingToClear_iff]
  exact webhook_encoded hread henc

end Webhook

section Record

variable {deal : JsonObject} {r : RecordReading} {id : Int} {db db' : DealDb ref}

/-- The value `_extract_sales_account` takes, under a key of the account or one of the record. -/
def accountMember (deal : JsonObject) (key recordKey : String) : Json :=
  match Json.member deal "sales_account" with
  | .obj account => Json.member account key
  | _ => Json.member deal recordKey

theorem extractSalesAccount_eq (deal : JsonObject) :
    extractSalesAccount deal =
      (accountMember deal "id" "sales_account_id",
        accountMember deal "name" "sales_account_name") := by
  rw [extractSalesAccount, accountMember, accountMember]
  cases Json.member deal "sales_account" <;> rfl

theorem accountField_eq_some {data : DealData} (henc : data.Encodable lib) {c : DealColumn}
    {key recordKey : String} {o : Option c.Value}
    (hc : data c = rawCell (accountMember deal key recordKey))
    (h : accountField lib deal c.type key recordKey = some o) : data.encoded lib c = o := by
  have hmap := encoded_rawCell henc hc
  rw [accountField] at h
  rw [accountMember] at hmap
  cases haccount : Json.member deal "sales_account" <;> rw [haccount] at h hmap <;>
    exact field_eq_some h hmap

theorem recordImage_curated {c : DealColumn} {key : String} (hkey : c.cfKey = some key) {cf : JsonObject}
    (hcf : extractViewCustomFields deal = .obj cf) :
    recordImage ref lib deal c = field cf key (curatedMapping lib c.type) := by
  cases c <;> cases hkey <;> simp only [recordImage, hcf] <;> rfl

theorem record_encoded_curated {c : DealColumn} {key : String} (hkey : c.cfKey = some key) :
    (r.data ref deal).encoded lib c = r.curated.encoded lib c := by
  cases c <;> cases hkey <;> rfl

/-- What a record writes is what it asks for. -/
theorem record_encoded (hread : RecordReadsAs ref lib deal r id)
    (henc : (r.data ref deal).Encodable lib) (c : DealColumn) (o : Option c.Value)
    (h : recordImage ref lib deal c = some o) : (r.data ref deal).encoded lib c = o := by
  obtain ⟨cf, hcf, hsplit⟩ := hread.custom
  cases hkey : c.cfKey with
  | some key =>
      rw [recordImage_curated hkey hcf] at h
      rw [record_encoded_curated hkey]
      exact field_eq_some h (curated_encoded hsplit hkey)
  | none =>
      have htyped : ∀ {c : DealColumn} {v : Option c.Value},
          r.data ref deal c = v.map .typed → (r.data ref deal).encoded lib c = v := by
        intro c v hv
        exact encoded_of_typed henc hv
      have hraw : ∀ {c : DealColumn} {key : String} {o : Option c.Value},
          field deal key (rawMapping lib c.type) = some o →
            r.data ref deal c = rawCell (Json.member deal key) →
            (r.data ref deal).encoded lib c = o := by
        intro c key o hfield hc
        exact field_eq_some hfield (encoded_rawCell henc hc)
      have hpos := position_of_record hread PartialRecord.empty
      rw [DealRow.position, Position.mk.injEq] at hpos
      have hempty : ∀ c, overlay ((r.data ref deal).encoded lib) PartialRecord.empty c =
          (r.data ref deal).encoded lib c := by
        intro c
        simp [overlay, PartialRecord.empty]
      cases c with
      | pipelineId =>
          obtain ⟨p, hp, rfl⟩ := Option.map_eq_some_iff.1 h
          rw [← hempty]
          exact hpos.1.trans hp
      | stageId =>
          rw [recordImage] at h
          split at h
          · cases h
            rw [← hempty]
            exact hpos.2.1.trans (by simp [DealRow.stageId, PartialRecord.empty])
          · cases h
      | ownerId =>
          rw [← hempty]
          have hmap : knownMapping ref.owners (Json.member deal "owner_id") =
              .ok (knownInt ref.owners (Json.member deal "owner_id")) := rfl
          have hfield : field deal "owner_id" (knownMapping ref.owners) = some o := h
          refine (hpos.2.2.trans ?_).trans (field_eq_some hfield hmap)
          simp [DealRow.ownerId, PartialRecord.empty]
      | name => exact hraw h rfl
      | amount => exact hraw h rfl
      | baseCurrencyAmount => exact hraw h rfl
      | lostReasonId => exact hraw h rfl
      | ageDays => exact hraw h rfl
      | rottenDays => exact hraw h rfl
      | salesAccountId =>
          refine accountField_eq_some henc ?_ h
          show rawCell (extractSalesAccount deal).1 = _
          rw [extractSalesAccount_eq]
      | salesAccountName =>
          refine accountField_eq_some henc ?_ h
          show rawCell (extractSalesAccount deal).2 = _
          rw [extractSalesAccount_eq]
      | expectedCloseDate => exact (htyped rfl).trans (field_eq_some h hread.expectedClose)
      | stageUpdatedAt => exact (htyped rfl).trans (field_eq_some h hread.stageUpdated)
      | dealCreatedAt => exact (htyped rfl).trans (field_eq_some h hread.createdAt)
      | lostReason => cases h
      | customFields =>
          simp only [recordImage, hcf] at h
          cases h
          apply htyped
          rw [otherCustomFields, ← splitCustomFields_remaining hsplit]
          rfl
      | rawPayload =>
          cases h
          exact htyped rfl
      | _ => cases hkey

/-- A record is about one deal. -/
theorem RecordReadsAs.unique {r' : RecordReading} {id' : Int}
    (h : RecordReadsAs ref lib deal r id) (h' : RecordReadsAs ref lib deal r' id') :
    r = r' ∧ id = id' := by
  obtain ⟨close, updated, created, curated, remaining⟩ := r
  obtain ⟨close', updated', created', curated', remaining'⟩ := r'
  obtain ⟨cf, hcf, hsplit⟩ := h.custom
  obtain ⟨cf', hcf', hsplit'⟩ := h'.custom
  have hcfs := Json.obj.inj (hcf.symm.trans hcf')
  subst hcfs
  have hsplits := Except.ok.inj (hsplit.symm.trans hsplit')
  simp only [Prod.mk.injEq] at hsplits
  have hclose : close = close' := Except.ok.inj (h.expectedClose.symm.trans h'.expectedClose)
  have hupdated : updated = updated' := Except.ok.inj (h.stageUpdated.symm.trans h'.stageUpdated)
  have hcreated : created = created' := Except.ok.inj (h.createdAt.symm.trans h'.createdAt)
  obtain ⟨j, hj, hid⟩ := h.dealId
  obtain ⟨j', hj', hid'⟩ := h'.dealId
  have hjs := Except.ok.inj (hj.symm.trans hj')
  subst hjs
  have hids := Except.ok.inj (hid.symm.trans hid')
  subst hclose hupdated hcreated hids
  exact ⟨by rw [hsplits.1, hsplits.2], rfl⟩

/-- After the upsert of a record the row shows the record exactly when there was nothing to clear. -/
theorem record_shows_iff (hread : RecordReadsAs ref lib deal r id)
    (h : recordStep lib (.obj deal) db = some db') :
    ∃ row, db'.deals id = some row ∧
      (Shows (recordImage ref lib deal) row ↔
        NothingToClear (recordImage ref lib deal) (db.deals id)) := by
  rcases recordStep_cases h with ⟨-, members, hmembers, hskipped⟩ |
    ⟨members, r', id', hmembers, hread', henc, hrow, -, -⟩
  · -- the pipeline of the record is active
    cases hmembers
    rw [hread.active] at hskipped
    cases hskipped
  · cases hmembers
    obtain ⟨rfl, rfl⟩ := hread.unique hread'
    refine ⟨_, hrow, ?_⟩
    rw [shows_overlay_iff, nothingToClear_iff]
    exact record_encoded hread henc

/-- A record that is not about the deal leaves its row alone. -/
def NotAbout (ref : Reference) (lib : PyLib) (id : Int) (record : Json) : Prop :=
  ∀ members r, record = .obj members → ¬ RecordReadsAs ref lib members r id

theorem deals_of_notAbout {rest : List Json} (hrest : ∀ record ∈ rest, NotAbout ref lib id record)
    (h : Run.exec (recordStep lib) rest db = some db') : db'.deals id = db.deals id := by
  induction rest generalizing db with
  | nil =>
      cases h
      rfl
  | cons record rest ih =>
      obtain ⟨mid, hmid, h⟩ := Run.exec_cons_eq_some.1 h
      obtain ⟨hrecord, hrest⟩ := List.forall_mem_cons.1 hrest
      rw [ih hrest h]
      rcases recordStep_cases hmid with ⟨rfl, -⟩ | ⟨members, r', id', hmembers, hread, -, -, hother, -⟩
      · rfl
      · apply hother
        rintro rfl
        exact hrecord members r' hmembers hread

/-- After a sync that does not raise, the row of a deal shows its last record exactly when there was
nothing to clear before that record. -/
theorem sync_shows_iff {viewIds : List Int} {feed : Feed} {before after : List Json}
    (hrun : (runDealSync lib viewIds feed db).2 = none)
    (hrecords : records (feedStreams ref viewIds feed).flatten = before ++ .obj deal :: after)
    (hread : RecordReadsAs ref lib deal r id)
    (hlast : ∀ record ∈ after, NotAbout ref lib id record) :
    ∃ mid row, Run.exec (recordStep lib) before db = some mid ∧
      (runDealSync lib viewIds feed db).1.deals id = some row ∧
      (Shows (recordImage ref lib deal) row ↔
        NothingToClear (recordImage ref lib deal) (mid.deals id)) := by
  have hexec := runDealSync_complete hrun
  rw [hrecords, Run.exec_append, Option.bind_eq_some_iff] at hexec
  obtain ⟨mid, hbefore, hexec⟩ := hexec
  obtain ⟨next, hstep, hafter⟩ := Run.exec_cons_eq_some.1 hexec
  obtain ⟨row, hrow, hiff⟩ := record_shows_iff hread hstep
  refine ⟨mid, row, hbefore, ?_, hiff⟩
  rw [deals_of_notAbout hlast hafter, hrow]

end Record

/-- **Faithfulness.** After a webhook the row shows the payload, and after a sync it shows the last
record of its deal, if and only if no key that is present with a value that maps to `None` belongs to
a column that held something. -/
theorem mirror_shows_iff (ref : Reference) (lib : PyLib) :
    (∀ (resolver : PipelineStageResolver) (now : Datetime) (payload : JsonObject)
        (r : WebhookReading) (db db' : DealDb ref), ReadsAs lib payload r →
        ingestWebhook lib resolver now payload db = .ok db' →
        ∃ row, db'.deals r.webhook.dealId = some row ∧
          (Shows (webhookImage ref lib resolver now payload r.webhook) row ↔
            NothingToClear (webhookImage ref lib resolver now payload r.webhook)
              (db.deals r.webhook.dealId))) ∧
      ∀ (viewIds : List Int) (feed : Feed) (db : DealDb ref) (before after : List Json)
        (deal : JsonObject) (r : RecordReading) (id : Int),
        (runDealSync lib viewIds feed db).2 = none →
        records (feedStreams ref viewIds feed).flatten = before ++ .obj deal :: after →
        RecordReadsAs ref lib deal r id → (∀ record ∈ after, NotAbout ref lib id record) →
        ∃ mid row, Run.exec (recordStep lib) before db = some mid ∧
          (runDealSync lib viewIds feed db).1.deals id = some row ∧
          (Shows (recordImage ref lib deal) row ↔
            NothingToClear (recordImage ref lib deal) (mid.deals id)) := by
  constructor
  · intro resolver now payload r db db' hread h
    exact webhook_shows_iff hread h
  · intro viewIds feed db before after deal r id hrun hrecords hread hlast
    exact sync_shows_iff hrun hrecords hread hlast

/-- What `sampleRecord` is read as. -/
def sampleRecordReading : RecordReading where
  expectedClose := none
  stageUpdated := none
  createdAt := none
  curated := PartialRecord.empty
  remaining := []

theorem readsAs_sampleRecord :
    RecordReadsAs sampleRef plainLib (sampleRecord 1 12) sampleRecordReading 7 where
  active := by decide
  custom := ⟨[], rfl, rfl⟩
  expectedClose := rfl
  stageUpdated := rfl
  createdAt := rfl
  dealId := ⟨.num 7, rfl, rfl⟩

/-- A webhook and a sync that find nothing stored. -/
theorem mirror_shows_iff_sample :
    (∃ db', ingestWebhook plainLib (buildStageResolver sampleRef) noon (samplePayload "New" 5)
        (DealDb.empty sampleRef) = .ok db' ∧
      ∃ row, db'.deals 7 = some row ∧
        (Shows (webhookImage sampleRef plainLib (buildStageResolver sampleRef) noon
            (samplePayload "New" 5) (sampleReading "New" 5).webhook) row ↔
          NothingToClear (webhookImage sampleRef plainLib (buildStageResolver sampleRef) noon
            (samplePayload "New" 5) (sampleReading "New" 5).webhook)
            ((DealDb.empty sampleRef).deals 7))) ∧
      ∃ mid row, Run.exec (recordStep plainLib) [] (DealDb.empty sampleRef) = some mid ∧
        (runDealSync plainLib [1] (sampleFeed 1 12) (DealDb.empty sampleRef)).1.deals 7 =
          some row ∧
        (Shows (recordImage sampleRef plainLib (sampleRecord 1 12)) row ↔
          NothingToClear (recordImage sampleRef plainLib (sampleRecord 1 12)) (mid.deals 7)) := by
  constructor
  · have hvalid := valid_samplePayload 5
    have hingested : ∃ db', ingestWebhook plainLib (buildStageResolver sampleRef) noon
        (samplePayload "New" 5) (DealDb.empty sampleRef) = .ok db' :=
      ingestWebhook_ok hvalid (buildStageResolver_sound sampleRef).knownTo
    obtain ⟨db', h⟩ := hingested
    exact ⟨db', h, (mirror_shows_iff sampleRef plainLib).1 _ noon _ _ _ db' hvalid.toReadsAs h⟩
  · apply (mirror_shows_iff sampleRef plainLib).2 [1] (sampleFeed 1 12) (DealDb.empty sampleRef) []
      [] (sampleRecord 1 12) sampleRecordReading 7
    · decide
    · rfl
    · exact readsAs_sampleRecord
    · intro record hrecord
      cases hrecord

/-- Webhooks for deal 7 with a reason why it was lost, or with that reason taken back. -/
def reasonPayload (reason : Json) : JsonObject :=
  samplePayload "New" 5 ++ [("deal_lost_reason", reason)]

/-- A lost reason that is taken back stays in the row. -/
theorem cleared_reason_kept :
    ∃ db db' : DealDb sampleRef,
      ingestWebhook plainLib (buildStageResolver sampleRef) noon (reasonPayload (.str "Price"))
        (DealDb.empty sampleRef) = .ok db ∧
      ingestWebhook plainLib (buildStageResolver sampleRef) noon (reasonPayload .null) db =
        .ok db' ∧
      ∃ row, db'.deals 7 = some row ∧ ∀ webhook,
        ¬ Shows (webhookImage sampleRef plainLib (buildStageResolver sampleRef) noon
          (reasonPayload .null) webhook) row := by
  have hrun : ((ingestWebhook plainLib (buildStageResolver sampleRef) noon
      (reasonPayload (.str "Price")) (DealDb.empty sampleRef)).toOption.bind fun db =>
        (ingestWebhook plainLib (buildStageResolver sampleRef) noon (reasonPayload .null)
          db).toOption.bind fun db' => (db'.deals 7).map fun row => row .lostReason) =
      some (some "Price") := by
    decide
  obtain ⟨db, hdb, hrun⟩ := Option.bind_eq_some_iff.1 hrun
  obtain ⟨db', hdb', hrun⟩ := Option.bind_eq_some_iff.1 hrun
  obtain ⟨row, hrow, hreason⟩ := Option.map_eq_some_iff.1 hrun
  refine ⟨db, db', ?_, ?_, row, hrow, ?_⟩
  · exact eq_ok_of_toOption hdb
  · exact eq_ok_of_toOption hdb'
  · intro webhook hshows
    -- the key is present with null, so the column should be empty
    have hnone : row .lostReason = none := hshows .lostReason none rfl
    rw [hnone] at hreason
    cases hreason

end SalesTrades.Deals
