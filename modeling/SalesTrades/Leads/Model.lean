import Mathlib.Data.List.Infix
import SalesTrades.Library.DirtyWrite
import SalesTrades.Library.Table
import SalesTrades.Python

/-!
# Campaigns and their leads

The `leads` table with the columns that capture, scoring, pack delivery and CRM sync read or write, the
request body of the capture endpoint, the keys of `Campaign.config` that these services read, and the
functions of the two repositories. The columns that a submission overwrites are grouped in
`Submitted`; `SubmittedColumn` names them one by one, because an UPDATE writes the changed ones only
(`Submitted.write_eq_new_iff`). Texts and documents are such as PostgreSQL stores; what becomes of a
submission with another is in `StorableTexts`.
-/

set_option autoImplicit false

namespace SalesTrades.Leads

open SalesTrades.Library

inductive CampaignStatus where
  | draft
  | active
  | archived
  deriving DecidableEq

inductive CrmStatus where
  | pending
  | synced
  | failed
  | skipped
  deriving DecidableEq

inductive PackStatus where
  | notRequested
  | pending
  | sent
  | failed
  | skipped
  deriving DecidableEq

/-- The keys of `Campaign.config` that capture, delivery and CRM sync read, with values of the types
that the code gives them; `none` where the key is absent and a default applies. A value of
`materials_assets` may be any JSON value. The ingest of email events, which reads the campaigns of
all leads, takes the column as it is. -/
structure CampaignConfig where
  baseTags : List String
  tagMap : List (String × String)
  digitalPackTag : Option String
  inspectionTag : Option String
  newsletterTag : Option String
  materials : List String
  materialsAssets : List (String × Json)
  crmSyncEnabled : Option Json := none

structure Campaign where
  id : Nat
  slug : String
  status : CampaignStatus
  config : CampaignConfig

/-- The columns a submission overwrites. -/
structure Submitted where
  firstName : String
  lastName : String
  phone : String
  company : String
  jobTitle : Option String
  source : String
  deviceId : Option String
  timing : Option String
  interests : Option (List String)
  requestedMaterials : Option (List String)
  tags : Option (List String)
  inspectionRequested : Bool
  inspectionType : Option String
  marketingOptIn : Bool
  consentStatus : Bool
  capturedAt : Option Datetime
  responses : Json

/-- A row of `leads`. -/
structure Lead extends Submitted where
  campaignId : Nat
  email : String
  consentAt : Option Datetime
  crmSyncStatus : CrmStatus
  crmSyncedAt : Option Datetime
  crmContactId : Option String
  crmError : Option String
  packDeliveryStatus : PackStatus
  packDeliveredAt : Option Datetime
  packDeliveredMaterials : Option (List String)
  packDeliveryError : Option String
  packOpenedAt : Option Datetime
  packOpenedCount : Int
  packClickedMaterials : Option (List String)
  engagementScore : Int
  scoreComputedAt : Option Datetime
  icpScore : Option Int
  icpTier : Option String
  icpRationale : Option String

/-- `idx_leads_campaign_email`: unique on campaign and email. -/
def Lead.emailKey (l : Lead) : Option (Nat × String) := some (l.campaignId, l.email)

abbrev LeadTable := Table Lead.emailKey

/-- An instance with its row id. -/
abbrev LeadRow := Nat × Lead

/-- `LeadCreateRequest`. -/
structure LeadCreateRequest where
  firstName : String
  lastName : String
  email : EmailStr
  phone : Option String
  company : String
  jobTitle : Option String
  source : String
  deviceId : Option String
  timing : Option String
  interests : Option (List String)
  requestedMaterials : Option (List String)
  inspectionRequested : Bool
  inspectionType : Option String
  marketingOptIn : Bool
  consentStatus : Bool
  capturedAt : Option Datetime
  responses : List (String × Json)

/-! ## Writes of the changed columns -/

/-- The submitted columns after a session that loaded `loaded` flushes `new` onto `current`. -/
def Submitted.write (loaded new current : Submitted) : Submitted where
  firstName := dirtyWrite loaded.firstName new.firstName current.firstName
  lastName := dirtyWrite loaded.lastName new.lastName current.lastName
  phone := dirtyWrite loaded.phone new.phone current.phone
  company := dirtyWrite loaded.company new.company current.company
  jobTitle := dirtyWrite loaded.jobTitle new.jobTitle current.jobTitle
  source := dirtyWrite loaded.source new.source current.source
  deviceId := dirtyWrite loaded.deviceId new.deviceId current.deviceId
  timing := dirtyWrite loaded.timing new.timing current.timing
  interests := dirtyWrite loaded.interests new.interests current.interests
  requestedMaterials :=
    dirtyWrite loaded.requestedMaterials new.requestedMaterials current.requestedMaterials
  tags := dirtyWrite loaded.tags new.tags current.tags
  inspectionRequested :=
    dirtyWrite loaded.inspectionRequested new.inspectionRequested current.inspectionRequested
  inspectionType := dirtyWrite loaded.inspectionType new.inspectionType current.inspectionType
  marketingOptIn := dirtyWrite loaded.marketingOptIn new.marketingOptIn current.marketingOptIn
  consentStatus := dirtyWrite loaded.consentStatus new.consentStatus current.consentStatus
  capturedAt := dirtyWrite loaded.capturedAt new.capturedAt current.capturedAt
  responses := dirtyWrite loaded.responses new.responses current.responses

/-- The row after such a flush. -/
def Lead.write (loaded new current : Lead) : Lead where
  toSubmitted := loaded.toSubmitted.write new.toSubmitted current.toSubmitted
  campaignId := dirtyWrite loaded.campaignId new.campaignId current.campaignId
  email := dirtyWrite loaded.email new.email current.email
  consentAt := dirtyWrite loaded.consentAt new.consentAt current.consentAt
  crmSyncStatus := dirtyWrite loaded.crmSyncStatus new.crmSyncStatus current.crmSyncStatus
  crmSyncedAt := dirtyWrite loaded.crmSyncedAt new.crmSyncedAt current.crmSyncedAt
  crmContactId := dirtyWrite loaded.crmContactId new.crmContactId current.crmContactId
  crmError := dirtyWrite loaded.crmError new.crmError current.crmError
  packDeliveryStatus :=
    dirtyWrite loaded.packDeliveryStatus new.packDeliveryStatus current.packDeliveryStatus
  packDeliveredAt := dirtyWrite loaded.packDeliveredAt new.packDeliveredAt current.packDeliveredAt
  packDeliveredMaterials := dirtyWrite loaded.packDeliveredMaterials new.packDeliveredMaterials
    current.packDeliveredMaterials
  packDeliveryError :=
    dirtyWrite loaded.packDeliveryError new.packDeliveryError current.packDeliveryError
  packOpenedAt := dirtyWrite loaded.packOpenedAt new.packOpenedAt current.packOpenedAt
  packOpenedCount := dirtyWrite loaded.packOpenedCount new.packOpenedCount current.packOpenedCount
  packClickedMaterials :=
    dirtyWrite loaded.packClickedMaterials new.packClickedMaterials current.packClickedMaterials
  engagementScore := dirtyWrite loaded.engagementScore new.engagementScore current.engagementScore
  scoreComputedAt := dirtyWrite loaded.scoreComputedAt new.scoreComputedAt current.scoreComputedAt
  icpScore := dirtyWrite loaded.icpScore new.icpScore current.icpScore
  icpTier := dirtyWrite loaded.icpTier new.icpTier current.icpTier
  icpRationale := dirtyWrite loaded.icpRationale new.icpRationale current.icpRationale

/-- On a row no one else has changed, the flush leaves the new values. -/
@[simp]
theorem Submitted.write_current_loaded (loaded new : Submitted) : loaded.write new loaded = new := by
  simp [Submitted.write]

@[simp]
theorem Lead.write_current_loaded (loaded new : Lead) : loaded.write new loaded = new := by
  simp [Lead.write]

/-- A flush without changes leaves the row as it is. -/
@[simp]
theorem Lead.write_loaded_loaded (loaded current : Lead) : loaded.write loaded current = current := by
  simp [Lead.write, Submitted.write]

/-- The submitted columns by name. -/
inductive SubmittedColumn where
  | firstName | lastName | phone | company | jobTitle | source | deviceId | timing | interests
  | requestedMaterials | tags | inspectionRequested | inspectionType | marketingOptIn
  | consentStatus | capturedAt | responses
  deriving DecidableEq

def submittedColumns : List SubmittedColumn :=
  [.firstName, .lastName, .phone, .company, .jobTitle, .source, .deviceId, .timing, .interests,
    .requestedMaterials, .tags, .inspectionRequested, .inspectionType, .marketingOptIn,
    .consentStatus, .capturedAt, .responses]

theorem mem_submittedColumns (c : SubmittedColumn) : c ∈ submittedColumns := by
  cases c <;> decide

instance {p : SubmittedColumn → Prop} [DecidablePred p] : Decidable (∀ c, p c) :=
  decidable_of_iff (∀ c ∈ submittedColumns, p c)
    ⟨fun h c => h c (mem_submittedColumns c), fun h c _ => h c⟩

/-- The types of the submitted columns. -/
inductive ColumnValue where
  | text (s : String)
  | optText (s : Option String)
  | texts (xs : Option (List String))
  | flag (b : Bool)
  | time (t : Option Datetime)
  | json (v : Json)
  deriving DecidableEq

def Submitted.column (s : Submitted) : SubmittedColumn → ColumnValue
  | .firstName => .text s.firstName
  | .lastName => .text s.lastName
  | .phone => .text s.phone
  | .company => .text s.company
  | .jobTitle => .optText s.jobTitle
  | .source => .text s.source
  | .deviceId => .optText s.deviceId
  | .timing => .optText s.timing
  | .interests => .texts s.interests
  | .requestedMaterials => .texts s.requestedMaterials
  | .tags => .texts s.tags
  | .inspectionRequested => .flag s.inspectionRequested
  | .inspectionType => .optText s.inspectionType
  | .marketingOptIn => .flag s.marketingOptIn
  | .consentStatus => .flag s.consentStatus
  | .capturedAt => .time s.capturedAt
  | .responses => .json s.responses

/-- The columns determine the submission. -/
theorem Submitted.eq_of_column {s s' : Submitted} (h : ∀ c, s.column c = s'.column c) : s = s' := by
  cases s
  cases s'
  simp only [Submitted.mk.injEq]
  refine ⟨?_, ?_, ?_, ?_, ?_, ?_, ?_, ?_, ?_, ?_, ?_, ?_, ?_, ?_, ?_, ?_, ?_⟩
  · simpa [Submitted.column] using h .firstName
  · simpa [Submitted.column] using h .lastName
  · simpa [Submitted.column] using h .phone
  · simpa [Submitted.column] using h .company
  · simpa [Submitted.column] using h .jobTitle
  · simpa [Submitted.column] using h .source
  · simpa [Submitted.column] using h .deviceId
  · simpa [Submitted.column] using h .timing
  · simpa [Submitted.column] using h .interests
  · simpa [Submitted.column] using h .requestedMaterials
  · simpa [Submitted.column] using h .tags
  · simpa [Submitted.column] using h .inspectionRequested
  · simpa [Submitted.column] using h .inspectionType
  · simpa [Submitted.column] using h .marketingOptIn
  · simpa [Submitted.column] using h .consentStatus
  · simpa [Submitted.column] using h .capturedAt
  · simpa [Submitted.column] using h .responses

/-- A flush works column by column. -/
theorem Submitted.column_write (loaded new current : Submitted) (c : SubmittedColumn) :
    (loaded.write new current).column c =
      dirtyWrite (loaded.column c) (new.column c) (current.column c) := by
  cases c <;> simp only [Submitted.write, Submitted.column, dirtyWrite] <;> split <;> simp_all

/-- The flush leaves exactly the new submission when every column it does not send still has the
value that was loaded. -/
theorem Submitted.write_eq_new_iff {loaded new current : Submitted} :
    loaded.write new current = new ↔
      ∀ c, new.column c = loaded.column c → current.column c = loaded.column c := by
  constructor
  · intro h c
    have hcolumn := Submitted.column_write loaded new current c
    rw [h] at hcolumn
    exact dirtyWrite_eq_new_iff.1 hcolumn.symm
  · intro h
    refine Submitted.eq_of_column fun c => ?_
    rw [Submitted.column_write]
    exact dirtyWrite_eq_new_iff.2 (h c)

/-! ## Repositories -/

def getBySlug (campaigns : List Campaign) (slug : String) : Option Campaign :=
  campaigns.find? fun c => c.slug == slug

def getCampaign (campaigns : List Campaign) (campaignId : Nat) : Option Campaign :=
  campaigns.find? fun c => c.id == campaignId

def getByCampaignEmail (t : LeadTable) (campaignId : Nat) (email : String) : Option LeadRow :=
  t.first fun l => l.campaignId == campaignId && l.email == email

/-- `list_for_campaign` without filters: the newest leads of the campaign. -/
def listForCampaign (t : LeadTable) (campaignId limit : Nat) : List LeadRow :=
  (t.select fun l => l.campaignId == campaignId).reverse.take limit

/-- `session.add`, `commit`, `refresh` of a new instance. -/
def create (t : LeadTable) (lead : Lead) : Except PyError (LeadRow × LeadTable) :=
  match t.insert lead with
  | none => .error .integrityError
  | some (id, t') => .ok ((id, lead), t')

/-- `session.add`, `commit`, `refresh` of an instance that was loaded as `loaded`. -/
def update (t : LeadTable) (loaded : LeadRow) (lead : Lead) : Except PyError (LeadRow × LeadTable) :=
  match t.get? loaded.1 with
  | none => .error .staleDataError
  | some (_, current) =>
      match t.update loaded.1 (loaded.2.write lead current) with
      | none => .error .integrityError
      | some t' => .ok ((loaded.1, loaded.2.write lead current), t')

theorem Lead.emailKey_eq_some {l : Lead} {k : Nat × String} :
    l.emailKey = some k ↔ l.campaignId = k.1 ∧ l.email = k.2 := by
  obtain ⟨c, e⟩ := k
  simp [Lead.emailKey]

theorem getByCampaignEmail_eq_some {t : LeadTable} {campaignId : Nat} {email : String} {q : LeadRow}
    (h : getByCampaignEmail t campaignId email = some q) :
    q ∈ t.rows ∧ q.2.campaignId = campaignId ∧ q.2.email = email := by
  obtain ⟨hmem, hq⟩ := Table.mem_of_first h
  simp only [Bool.and_eq_true, beq_iff_eq] at hq
  exact ⟨hmem, hq⟩

theorem getByCampaignEmail_eq_none {t : LeadTable} {campaignId : Nat} {email : String}
    (h : getByCampaignEmail t campaignId email = none) :
    ∀ q ∈ t.rows, ¬ (q.2.campaignId = campaignId ∧ q.2.email = email) := by
  intro q hq hkey
  have := Table.first_eq_none_iff.1 h q hq
  simp [hkey] at this

/-- The unique index: the lookup finds the row of the campaign that has the email. -/
theorem getByCampaignEmail_of_mem {t : LeadTable} {campaignId : Nat} {email : String} {q : LeadRow}
    (hq : q ∈ t.rows) (hcampaign : q.2.campaignId = campaignId) (hemail : q.2.email = email) :
    getByCampaignEmail t campaignId email = some q := by
  cases h : getByCampaignEmail t campaignId email with
  | none => exact absurd ⟨hcampaign, hemail⟩ (getByCampaignEmail_eq_none h q hq)
  | some r =>
      obtain ⟨hr, hrc, hre⟩ := getByCampaignEmail_eq_some h
      have hkey : ∀ x : LeadRow, x.2.campaignId = campaignId → x.2.email = email →
          x.2.emailKey = some (campaignId, email) :=
        fun x hc he => Lead.emailKey_eq_some.2 ⟨hc, he⟩
      rw [t.eq_of_key hr hq (hkey r hrc hre) (hkey q hcampaign hemail)]

/-- A new row is stored exactly when the campaign has no row with the email. -/
theorem create_eq (t : LeadTable) (lead : Lead) :
    (getByCampaignEmail t lead.campaignId lead.email = none ∧
      ∃ t', create t lead = .ok ((t.nextId, lead), t') ∧ t.insert lead = some (t.nextId, t')) ∨
    ((getByCampaignEmail t lead.campaignId lead.email).isSome = true ∧
      create t lead = .error .integrityError) := by
  unfold create
  cases hins : t.insert lead with
  | none =>
      right
      obtain ⟨q, hq, k, hk, hqk⟩ := Table.insert_eq_none_iff.1 hins
      obtain ⟨hc, he⟩ := Lead.emailKey_eq_some.1 hk
      obtain ⟨hqc, hqe⟩ := Lead.emailKey_eq_some.1 hqk
      rw [getByCampaignEmail_of_mem hq (hqc.trans hc.symm) (hqe.trans he.symm)]
      exact ⟨rfl, rfl⟩
  | some r =>
      obtain ⟨id, t'⟩ := r
      obtain ⟨rfl, -, -⟩ := Table.insert_eq_some hins
      refine Or.inl ⟨?_, t', rfl, rfl⟩
      cases hfound : getByCampaignEmail t lead.campaignId lead.email with
      | none => rfl
      | some q =>
          obtain ⟨hq, hqc, hqe⟩ := getByCampaignEmail_eq_some hfound
          have hnone : t.insert lead = none := Table.insert_eq_none_iff.2
            ⟨q, hq, (lead.campaignId, lead.email), rfl, Lead.emailKey_eq_some.2 ⟨hqc, hqe⟩⟩
          rw [hins] at hnone
          cases hnone

/-- What an update that goes through stores, over the row that is there. -/
theorem update_ok {t t' : LeadTable} {loaded row : LeadRow} {lead : Lead}
    (h : update t loaded lead = .ok (row, t')) : ∃ current, (loaded.1, current) ∈ t.rows ∧
      row = (loaded.1, loaded.2.write lead current) ∧
      t.update loaded.1 (loaded.2.write lead current) = some t' := by
  unfold update at h
  split at h
  · cases h
  · rename_i id current hget
    split at h
    · cases h
    · rename_i htable
      simp only [Except.ok.injEq, Prod.mk.injEq] at h
      obtain ⟨rfl, rfl⟩ := h
      obtain ⟨hmem, rfl⟩ := Table.mem_of_get? hget
      exact ⟨current, hmem, rfl, htable⟩

/-- An update that keeps campaign and email stores the changed columns on the row that is there. -/
theorem update_eq {t : LeadTable} {loaded : LeadRow} {lead current : Lead}
    (hmem : (loaded.1, current) ∈ t.rows) (hcampaign : lead.campaignId = loaded.2.campaignId)
    (hemail : lead.email = loaded.2.email) :
    ∃ t', update t loaded lead = .ok ((loaded.1, loaded.2.write lead current), t') ∧
      t.update loaded.1 (loaded.2.write lead current) = some t' := by
  have hkey : (loaded.2.write lead current).emailKey = current.emailKey := by
    simp [Lead.emailKey, Lead.write, hcampaign, hemail]
  obtain ⟨t', ht'⟩ : ∃ t', t.update loaded.1 (loaded.2.write lead current) = some t' :=
    Table.exists_update_of_key_eq hmem hkey
  have hget : t.get? loaded.1 = some (loaded.1, current) := Table.get?_eq_some_iff.2 hmem
  refine ⟨t', ?_, ht'⟩
  simp only [update, hget, ht']

end SalesTrades.Leads
