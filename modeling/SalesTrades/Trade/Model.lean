import Mathlib.Data.List.Sort
import SalesTrades.Library.DirtyWrite
import SalesTrades.Library.Table
import SalesTrades.Python

/-!
# Trade programs and their participants

The `trade_leads` table with the columns that capture, review and CRM sync read or write, the
request body of the registration endpoint, and the functions of the trade repository. The
columns that capture copies out of `responses` are indexed by `SharedKey`. An instance may hold any
value in them; `flush` is where the driver rejects a value whose type does not fit its column.
-/

set_option autoImplicit false

namespace SalesTrades.Trade

open SalesTrades.Library

inductive CrmStatus where
  | pending
  | synced
  | failed
  | skipped
  deriving DecidableEq

inductive EligibilityStatus where
  | notRequested
  | pending
  | submitted
  | approved
  | rejected
  deriving DecidableEq

inductive ReviewStatus where
  | pending
  | approved
  | rejected
  deriving DecidableEq

inductive ProgramStatus where
  | draft
  | active
  | archived
  deriving DecidableEq

/-- `SHARED_RESPONSE_KEYS`. -/
inductive SharedKey where
  | companyFounded | industrySector | sectorSpecification | sectorOther
  | ownership | operatingCurrency | fiscalYearStart | employeeCount
  | sourcesInternationally | sourceCountries | sellsInternationally
  | salesCountries | topicsOfInterest | consentTerms
  | consentDataProcessing | consentLiabilityWaiver | consentPhotoVideo
  | cohortDate | wtcLocation | registeredAddress | city | postalCode
  | country
  deriving DecidableEq

/-- The key as it is spelled in `responses` and as a column name. -/
def SharedKey.name : SharedKey → String
  | .companyFounded => "company_founded"
  | .industrySector => "industry_sector"
  | .sectorSpecification => "sector_specification"
  | .sectorOther => "sector_other"
  | .ownership => "ownership"
  | .operatingCurrency => "operating_currency"
  | .fiscalYearStart => "fiscal_year_start"
  | .employeeCount => "employee_count"
  | .sourcesInternationally => "sources_internationally"
  | .sourceCountries => "source_countries"
  | .sellsInternationally => "sells_internationally"
  | .salesCountries => "sales_countries"
  | .topicsOfInterest => "topics_of_interest"
  | .consentTerms => "consent_terms"
  | .consentDataProcessing => "consent_data_processing"
  | .consentLiabilityWaiver => "consent_liability_waiver"
  | .consentPhotoVideo => "consent_photo_video"
  | .cohortDate => "cohort_date"
  | .wtcLocation => "wtc_location"
  | .registeredAddress => "registered_address"
  | .city => "city"
  | .postalCode => "postal_code"
  | .country => "country"

def sharedResponseKeys : List SharedKey :=
  [.companyFounded, .industrySector, .sectorSpecification, .sectorOther, .ownership,
    .operatingCurrency, .fiscalYearStart, .employeeCount, .sourcesInternationally,
    .sourceCountries, .sellsInternationally, .salesCountries, .topicsOfInterest, .consentTerms,
    .consentDataProcessing, .consentLiabilityWaiver, .consentPhotoVideo, .cohortDate, .wtcLocation,
    .registeredAddress, .city, .postalCode, .country]

theorem mem_sharedResponseKeys (k : SharedKey) : k ∈ sharedResponseKeys := by
  cases k <;> decide

inductive ColumnType where
  | text
  | textArray
  | boolean

/-- The type `TradeLead` declares for each shared column. -/
def SharedKey.columnType : SharedKey → ColumnType
  | .ownership | .sourceCountries | .salesCountries | .topicsOfInterest => .textArray
  | .consentTerms | .consentDataProcessing | .consentLiabilityWaiver | .consentPhotoVideo =>
      .boolean
  | _ => .text

/-- The elements of a text array. -/
def isTextOrNull : Json → Bool
  | .str _ => true
  | .null => true
  | _ => false

/-- The value is of the type of the column. A truth value is also a number that equals one. -/
def ColumnType.fits : ColumnType → Json → Bool
  | _, .null => true
  | .text, .str _ => true
  | .textArray, .arr xs => xs.all isTextOrNull
  | .boolean, .bool _ => true
  | .boolean, .num q => q == 0 || q == 1
  | _, _ => false

/-- The value that a column of the type gives back: for a number, the truth value it equals. -/
def ColumnType.stored : ColumnType → Json → Json
  | .boolean, .num q => .bool (q != 0)
  | _, v => v

/-- What SQLAlchemy and the driver make of a value for a column, `none` where the statement fails. -/
class ColumnDriver where
  bind : ColumnType → Json → Option Json
  /-- A value of the wrong type for the column is rejected at flush. -/
  rejects : ∀ c v, c.fits v = false → bind c v = none
  /-- The database refuses a NUL character. -/
  refuses : ∀ c v, v.isStorable = false → bind c v = none
  /-- Any other value is stored. -/
  stores : ∀ c v, c.fits v = true → v.isStorable = true → bind c v = some (c.stored v)

/-- The value is of the type of the column, and the database stores it. -/
def ColumnType.takes (c : ColumnType) (v : Json) : Bool := c.fits v && v.isStorable

section Driver

variable [ColumnDriver] {c : ColumnType} {v w : Json}

/-- The value stored in a column of the given type, `none` when the statement fails. -/
def ColumnType.bind (c : ColumnType) (v : Json) : Option Json := ColumnDriver.bind c v

theorem ColumnType.bind_eq_some_iff : c.bind v = some w ↔ c.takes v = true ∧ w = c.stored v := by
  unfold ColumnType.bind ColumnType.takes
  cases hfits : c.fits v with
  | false => simp [ColumnDriver.rejects c v hfits]
  | true =>
      cases hstorable : v.isStorable with
      | false => simp [ColumnDriver.refuses c v hstorable]
      | true => simp [ColumnDriver.stores c v hfits hstorable, eq_comm]

theorem ColumnType.bind_isSome : (c.bind v).isSome = true ↔ c.takes v = true := by
  rw [Option.isSome_iff_exists]
  simp only [bind_eq_some_iff, exists_and_left, exists_eq, and_true]

omit [ColumnDriver] in
/-- A stored value is of the type of its column. -/
theorem ColumnType.takes_stored (h : c.takes v = true) : c.takes (c.stored v) = true := by
  cases c with
  | text => exact h
  | textArray => exact h
  | boolean =>
      cases v with
      | num q => rfl
      | _ => exact h

omit [ColumnDriver] in
@[simp]
theorem ColumnType.stored_stored : c.stored (c.stored v) = c.stored v := by
  cases c with
  | text => rfl
  | textArray => rfl
  | boolean => cases v <;> rfl

/-- A stored value is stored unchanged. -/
theorem ColumnType.bind_bind (h : c.bind v = some w) : c.bind w = some w := by
  obtain ⟨htakes, rfl⟩ := bind_eq_some_iff.1 h
  exact bind_eq_some_iff.2 ⟨takes_stored htakes, stored_stored.symm⟩

/-- Texts and lists of them are stored as they are. -/
theorem ColumnType.bind_eq_of_texts (hc : c = .text ∨ c = .textArray) (h : c.bind v = some w) :
    w = v := by
  rw [(bind_eq_some_iff.1 h).2]
  rcases hc with rfl | rfl <;> rfl

/-- Only null is stored as null. -/
theorem ColumnType.bind_eq_null_iff : c.bind v = some .null ↔ v = .null := by
  rw [bind_eq_some_iff]
  constructor
  · rintro ⟨-, hnull⟩
    cases c with
    | text => exact hnull.symm
    | textArray => exact hnull.symm
    | boolean =>
        cases v with
        | num q => cases hnull
        | _ => exact hnull.symm
  · rintro rfl
    cases c <;> exact ⟨rfl, rfl⟩

/-- An optional text is stored as it is where the database stores it. -/
theorem ColumnType.bind_ofOption {o : Option String} (ho : (Json.ofOption o).isStorable = true) :
    ColumnType.text.bind (Json.ofOption o) = some (Json.ofOption o) := by
  cases o with
  | none => exact bind_eq_some_iff.2 ⟨rfl, rfl⟩
  | some s => exact bind_eq_some_iff.2 ⟨ho, rfl⟩

end Driver

/-- A driver that takes every value that it may take. -/
def plainBind (c : ColumnType) (v : Json) : Option Json :=
  if c.takes v = true then some (c.stored v) else none

theorem plainBind_rejects (c : ColumnType) (v : Json) (h : c.fits v = false) :
    plainBind c v = none := by
  simp [plainBind, ColumnType.takes, h]

theorem plainBind_refuses (c : ColumnType) (v : Json) (h : v.isStorable = false) :
    plainBind c v = none := by
  simp [plainBind, ColumnType.takes, h]

theorem plainBind_stores (c : ColumnType) (v : Json) (hfits : c.fits v = true)
    (hstorable : v.isStorable = true) : plainBind c v = some (c.stored v) := by
  simp [plainBind, ColumnType.takes, hfits, hstorable]

@[reducible]
def plainDriver : ColumnDriver where
  bind := plainBind
  rejects := plainBind_rejects
  refuses := plainBind_refuses
  stores := plainBind_stores

/-- A row of `trade_leads`, and an instance of it in a session. -/
structure TradeLead where
  tradeProgramId : Nat
  registrationId : String
  participantIndex : Nat
  isPrimary : Bool
  firstName : String
  lastName : String
  email : String
  phone : Json
  jobTitle : Json
  company : Option String
  shared : SharedKey → Json
  source : String
  tags : Option (List String)
  capturedAt : Option Datetime
  responses : Json
  crmSyncStatus : CrmStatus
  crmSyncedAt : Option Int
  crmContactId : Option String
  crmError : Option String
  eligibilityStatus : EligibilityStatus
  eligibilitySubmittedAt : Option Int := none
  reviewStatus : ReviewStatus
  reviewedAt : Option Int
  reviewedBy : Option String

/-- `idx_trade_leads_program_email`: unique on program and email, rows without email not covered. -/
def TradeLead.emailKey (l : TradeLead) : Option (Nat × String) :=
  if l.email = "" then none else some (l.tradeProgramId, l.email)

abbrev TradeLeads := Table TradeLead.emailKey

theorem TradeLead.emailKey_eq_some {l : TradeLead} {k : Nat × String} :
    l.emailKey = some k ↔ l.email ≠ "" ∧ l.tradeProgramId = k.1 ∧ l.email = k.2 := by
  obtain ⟨p, e⟩ := k
  unfold TradeLead.emailKey
  split <;> simp_all

/-- The database stores the texts and the document that a submission fills. The ids and the tags are
the code's and the program's own, and `source` is checked where a submission brings it. -/
def TradeLead.hasTexts (l : TradeLead) : Bool :=
  isText l.firstName && isText l.lastName && isText l.email && l.company.all isText &&
    l.responses.isStorable

section Writes

variable [ColumnDriver]

/-- The values the driver stores for an instance, `none` when one of them is rejected. -/
def TradeLead.flush (l : TradeLead) : Option TradeLead :=
  match ColumnType.text.bind l.phone, ColumnType.text.bind l.jobTitle with
  | some phone, some jobTitle =>
      -- one value that is rejected fails the whole statement
      if l.hasTexts && sharedResponseKeys.all fun k => (k.columnType.bind (l.shared k)).isSome then
        some
          { l with
            phone := phone
            jobTitle := jobTitle
            shared := fun k => (k.columnType.bind (l.shared k)).getD .null }
      else none
  | _, _ => none

end Writes

/-- The row after a session that loaded `loaded` flushes `new` onto `current`. -/
def TradeLead.write (loaded new current : TradeLead) : TradeLead where
  tradeProgramId := dirtyWrite loaded.tradeProgramId new.tradeProgramId current.tradeProgramId
  registrationId := dirtyWrite loaded.registrationId new.registrationId current.registrationId
  participantIndex :=
    dirtyWrite loaded.participantIndex new.participantIndex current.participantIndex
  isPrimary := dirtyWrite loaded.isPrimary new.isPrimary current.isPrimary
  firstName := dirtyWrite loaded.firstName new.firstName current.firstName
  lastName := dirtyWrite loaded.lastName new.lastName current.lastName
  email := dirtyWrite loaded.email new.email current.email
  phone := dirtyWrite loaded.phone new.phone current.phone
  jobTitle := dirtyWrite loaded.jobTitle new.jobTitle current.jobTitle
  company := dirtyWrite loaded.company new.company current.company
  shared := fun k => dirtyWrite (loaded.shared k) (new.shared k) (current.shared k)
  source := dirtyWrite loaded.source new.source current.source
  tags := dirtyWrite loaded.tags new.tags current.tags
  capturedAt := dirtyWrite loaded.capturedAt new.capturedAt current.capturedAt
  responses := dirtyWrite loaded.responses new.responses current.responses
  crmSyncStatus := dirtyWrite loaded.crmSyncStatus new.crmSyncStatus current.crmSyncStatus
  crmSyncedAt := dirtyWrite loaded.crmSyncedAt new.crmSyncedAt current.crmSyncedAt
  crmContactId := dirtyWrite loaded.crmContactId new.crmContactId current.crmContactId
  crmError := dirtyWrite loaded.crmError new.crmError current.crmError
  eligibilityStatus :=
    dirtyWrite loaded.eligibilityStatus new.eligibilityStatus current.eligibilityStatus
  eligibilitySubmittedAt :=
    dirtyWrite loaded.eligibilitySubmittedAt new.eligibilitySubmittedAt
      current.eligibilitySubmittedAt
  reviewStatus := dirtyWrite loaded.reviewStatus new.reviewStatus current.reviewStatus
  reviewedAt := dirtyWrite loaded.reviewedAt new.reviewedAt current.reviewedAt
  reviewedBy := dirtyWrite loaded.reviewedBy new.reviewedBy current.reviewedBy

/-- On a row no one else has changed, the flush leaves the new values. -/
@[simp]
theorem TradeLead.write_current_loaded (loaded new : TradeLead) :
    loaded.write new loaded = new := by
  simp [TradeLead.write]

/-- On a row that already has the new values, the flush changes nothing. -/
@[simp]
theorem TradeLead.write_current_new (loaded new : TradeLead) : loaded.write new new = new := by
  simp [TradeLead.write]

/-- An entry of `config["required_documents"]`. -/
structure RequiredDocument where
  key : String
  required : Json

/-- The keys of `TradeProgram.config` that capture, CRM sync and the eligibility documents read;
`none` where the key may be absent with a default. -/
structure ProgramConfig where
  baseTags : List String
  crmSyncEnabled : Option Json
  requireAdminApproval : Option Json
  crmLeadSourceId : Json
  requiredDocuments : List RequiredDocument := []

structure TradeProgram where
  id : Nat
  slug : String
  status : ProgramStatus
  config : ProgramConfig

/-- `TradeRegistrationCreateRequest`. -/
structure Registration where
  firstName : String
  lastName : String
  email : EmailStr
  phone : Option String
  company : Option String
  jobTitle : Option String
  source : String
  capturedAt : Option Datetime
  responses : List (String × Json)

/-! ## Repository -/

/-- An instance with its row id. -/
abbrev Participant := Nat × TradeLead

def getProgramBySlug (programs : List TradeProgram) (slug : String) : Option TradeProgram :=
  programs.find? fun p => p.slug == slug

/-- The dedup lookup: any row of the program with the email, primary or not. -/
def getByProgramEmail (t : TradeLeads) (programId : Nat) (email : String) : Option Participant :=
  if email = "" then none
  -- the WHERE clause does not mention `is_primary`
  else t.first fun l => l.tradeProgramId == programId && l.email == email

def listByRegistration (t : TradeLeads) (registrationId : String) : List Participant :=
  (t.select fun l => l.registrationId == registrationId).insertionSort
    fun a b => a.2.participantIndex ≤ b.2.participantIndex

variable [ColumnDriver]

/-- `session.add`, `commit`, `refresh` of a new instance. -/
def createLead (t : TradeLeads) (lead : TradeLead) : Except PyError (Participant × TradeLeads) :=
  match lead.flush with
  | none => .error .dataError
  | some row =>
      match t.insert row with
      | none => .error .integrityError
      | some (id, t') => .ok ((id, row), t')

/-- `session.add`, `commit`, `refresh` of an instance that was loaded as `loaded`. -/
def updateLead (t : TradeLeads) (loaded : Participant) (lead : TradeLead) :
    Except PyError (Participant × TradeLeads) :=
  match lead.flush with
  | none => .error .dataError
  | some new =>
      match t.get? loaded.1 with
      | none => .error .staleDataError
      | some (_, current) =>
          match t.update loaded.1 (loaded.2.write new current) with
          | none => .error .integrityError
          | some t' => .ok ((loaded.1, loaded.2.write new current), t')

def getProgram (programs : List TradeProgram) (programId : Nat) : Option TradeProgram :=
  programs.find? fun p => p.id == programId

def setReview (t : TradeLeads) (lead : Participant) (status : ReviewStatus) (reviewer : Option String)
    (now : Int) : Except PyError (Participant × TradeLeads) :=
  updateLead t lead
    { lead.2 with
      reviewStatus := status
      reviewedAt := some now
      reviewedBy := reviewer }

/-- The participants awaiting a push, oldest first. -/
def listPendingCrmSync (t : TradeLeads) (limit : Nat) : List Participant :=
  (t.select fun l => l.crmSyncStatus == .failed || l.crmSyncStatus == .pending).take limit

/-! ## What the writes do -/

theorem flush_eq_some {l row : TradeLead} (h : l.flush = some row) :
    ∃ phone jobTitle, ColumnType.text.bind l.phone = some phone ∧
      ColumnType.text.bind l.jobTitle = some jobTitle ∧
      (∀ k : SharedKey, (k.columnType.bind (l.shared k)).isSome = true) ∧
      row = { l with
        phone := phone
        jobTitle := jobTitle
        shared := fun k => (k.columnType.bind (l.shared k)).getD .null } := by
  unfold TradeLead.flush at h
  split at h
  · rename_i phone jobTitle hphone hjob
    split at h
    · rename_i hall
      simp only [Option.some.injEq] at h
      exact ⟨phone, jobTitle, hphone, hjob, fun k => List.all_eq_true.1
        (Bool.and_eq_true_iff.1 hall).2 k (mem_sharedResponseKeys k), h.symm⟩
    · cases h
  · cases h

/-- What is stored has texts that the database stores. -/
theorem hasTexts_of_flush {l row : TradeLead} (h : l.flush = some row) : l.hasTexts = true := by
  unfold TradeLead.flush at h
  split at h
  · split at h
    · rename_i hall
      exact (Bool.and_eq_true_iff.1 hall).1
    · cases h
  · cases h

/-- A row is stored as it is when the driver has nothing to convert. -/
theorem flush_eq_self_iff {l : TradeLead} : l.flush = some l ↔
    l.hasTexts = true ∧ ColumnType.text.bind l.phone = some l.phone ∧
      ColumnType.text.bind l.jobTitle = some l.jobTitle ∧
      ∀ k : SharedKey, k.columnType.bind (l.shared k) = some (l.shared k) := by
  constructor
  · intro h
    obtain ⟨phone, jobTitle, hphone, hjob, hshared, hrow⟩ := flush_eq_some h
    have hp : l.phone = phone := congrArg TradeLead.phone hrow
    have hj : l.jobTitle = jobTitle := congrArg TradeLead.jobTitle hrow
    refine ⟨hasTexts_of_flush h, hp ▸ hphone, hj ▸ hjob, fun k => ?_⟩
    obtain ⟨v, hv⟩ := Option.isSome_iff_exists.1 (hshared k)
    have hk : l.shared k = (k.columnType.bind (l.shared k)).getD .null :=
      congrFun (congrArg TradeLead.shared hrow) k
    rw [hv, Option.getD_some] at hk
    rw [hv, hk]
  · rintro ⟨htexts, hphone, hjob, hshared⟩
    simp only [TradeLead.flush, htexts, hphone, hjob, hshared, Option.getD_some]
    exact if_pos (List.all_eq_true.2 fun k _ => rfl)

/-- A stored row is stored unchanged. -/
theorem flush_flush {l row : TradeLead} (h : l.flush = some row) : row.flush = some row := by
  have htexts := hasTexts_of_flush h
  obtain ⟨phone, jobTitle, hphone, hjob, hshared, rfl⟩ := flush_eq_some h
  refine flush_eq_self_iff.2
    ⟨htexts, ColumnType.bind_bind hphone, ColumnType.bind_bind hjob, fun k => ?_⟩
  obtain ⟨v, hv⟩ := Option.isSome_iff_exists.1 (hshared k)
  simp only [hv, Option.getD_some]
  exact ColumnType.bind_bind hv

/-- Every row of the table is as the driver stores it. -/
def Flushed (t : TradeLeads) : Prop := ∀ q ∈ t.rows, q.2.flush = some q.2

/-- What a successful `create_lead` does. -/
theorem createLead_ok {t t' : TradeLeads} {lead : TradeLead} {p : Participant}
    (h : createLead t lead = .ok (p, t')) :
    lead.flush = some p.2 ∧ t.insert p.2 = some (p.1, t') := by
  unfold createLead at h
  split at h
  · cases h
  · rename_i row hflush
    split at h
    · cases h
    · rename_i id t₁ hins
      simp only [Except.ok.injEq, Prod.mk.injEq] at h
      obtain ⟨rfl, rfl⟩ := h
      exact ⟨hflush, hins⟩

/-- What a successful `update_lead` does. -/
theorem updateLead_ok {t t' : TradeLeads} {loaded p : Participant} {lead : TradeLead}
    (h : updateLead t loaded lead = .ok (p, t')) :
    ∃ new current, lead.flush = some new ∧ (loaded.1, current) ∈ t.rows ∧
      p = (loaded.1, loaded.2.write new current) ∧ t.update loaded.1 p.2 = some t' := by
  unfold updateLead at h
  split at h
  · cases h
  · rename_i new hflush
    split at h
    · cases h
    · rename_i current hget
      obtain ⟨hmem, hid⟩ := Table.mem_of_get? hget
      simp only at hid
      split at h
      · cases h
      · rename_i t₁ hupd
        simp only [Except.ok.injEq, Prod.mk.injEq] at h
        obtain ⟨rfl, rfl⟩ := h
        exact ⟨new, current, hflush, hid ▸ hmem, rfl, hupd⟩

/-- An update by a session that runs alone stores what the driver makes of the new values, and
succeeds when they keep the program and the email. -/
theorem updateLead_keyed {t : TradeLeads} {loaded : Participant} {lead new : TradeLead}
    (hmem : loaded ∈ t.rows) (hflush : lead.flush = some new)
    (hprogram : new.tradeProgramId = loaded.2.tradeProgramId)
    (hemail : new.email = loaded.2.email) :
    ∃ t', updateLead t loaded lead = .ok ((loaded.1, new), t') ∧
      t.update loaded.1 new = some t' := by
  have hkey : new.emailKey = loaded.2.emailKey := by
    unfold TradeLead.emailKey
    rw [hprogram, hemail]
  obtain ⟨t', ht'⟩ : ∃ t', t.update loaded.1 new = some t' :=
    Table.exists_update_of_key_eq hmem hkey
  have hget : t.get? loaded.1 = some (loaded.1, loaded.2) := Table.get?_eq_some_iff.2 hmem
  refine ⟨t', ?_, ht'⟩
  simp only [updateLead, hflush, hget, TradeLead.write_current_loaded, ht']

end SalesTrades.Trade
