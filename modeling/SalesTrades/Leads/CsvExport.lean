import SalesTrades.Leads.LeadPages
import SalesTrades.Library.CsvText
import SalesTrades.Library.Separated
import SalesTrades.PythonDates

/-!
# The export of leads as CSV

`leads_to_csv` and the endpoint that exports the leads of a campaign. Whatever the leads contain, the text
reads back as the header and one record for each exported lead (`readCsv_leadsToCsv`). The endpoint exports
the newest 100,000 leads and names the file after the slug in a header, which is encoded as Latin-1: it
answers with every lead of the campaign exactly when there are no more than that and the slug can be
encoded (`export_complete_iff`). A list is one cell, its values joined with a semicolon and a blank; it
can be taken apart exactly when no value has them (`list_cell_splits_iff`).
-/

set_option autoImplicit false

namespace SalesTrades.Leads

open SalesTrades.Library SalesTrades.Library.CsvText SalesTrades.Library.Separated
  SalesTrades.Library.TiedPaging SalesTrades.Emails

/-! ## The cells -/

/-- The attributes of `_FIELDS`. -/
inductive ExportField where
  | id | capturedAt | createdAt | firstName | lastName | email | phone | company | jobTitle | source
  | deviceId | timing | interests | requestedMaterials | tags | inspectionRequested | inspectionType
  | marketingOptIn | consentStatus | consentAt | crmSyncStatus | crmContactId | packDeliveryStatus
  | packDeliveredAt | packDeliveredMaterials
  deriving DecidableEq

def ExportField.name : ExportField → String
  | .id => "id"
  | .capturedAt => "captured_at"
  | .createdAt => "created_at"
  | .firstName => "first_name"
  | .lastName => "last_name"
  | .email => "email"
  | .phone => "phone"
  | .company => "company"
  | .jobTitle => "job_title"
  | .source => "source"
  | .deviceId => "device_id"
  | .timing => "timing"
  | .interests => "interests"
  | .requestedMaterials => "requested_materials"
  | .tags => "tags"
  | .inspectionRequested => "inspection_requested"
  | .inspectionType => "inspection_type"
  | .marketingOptIn => "marketing_opt_in"
  | .consentStatus => "consent_status"
  | .consentAt => "consent_at"
  | .crmSyncStatus => "crm_sync_status"
  | .crmContactId => "crm_contact_id"
  | .packDeliveryStatus => "pack_delivery_status"
  | .packDeliveredAt => "pack_delivered_at"
  | .packDeliveredMaterials => "pack_delivered_materials"

/-- `_FIELDS`. -/
def exportFields : List ExportField :=
  [.id, .capturedAt, .createdAt, .firstName, .lastName, .email, .phone, .company, .jobTitle, .source,
    .deviceId, .timing, .interests, .requestedMaterials, .tags, .inspectionRequested, .inspectionType,
    .marketingOptIn, .consentStatus, .consentAt, .crmSyncStatus, .crmContactId, .packDeliveryStatus,
    .packDeliveredAt, .packDeliveredMaterials]

/-- What an attribute may be. -/
inductive CellValue where
  | missing
  | text (s : String)
  | number (n : Nat)
  | flag (b : Bool)
  | list (values : List String)
  | time (t : Datetime)

/-- `_fmt`. -/
def fmt : CellValue → String
  | .missing => ""
  | .text s => s
  | .number n => toString n
  | .flag b => if b then "True" else "False"
  | .list values => "; ".intercalate values
  | .time t => datetimeIsoformat t

/-- How a delivery status is stored. -/
def packStatusText : PackStatus → String
  | .notRequested => "not_requested"
  | .pending => "pending"
  | .sent => "sent"
  | .failed => "failed"
  | .skipped => "skipped"

def CellValue.ofText : Option String → CellValue
  | none => .missing
  | some s => .text s

def CellValue.ofList : Option (List String) → CellValue
  | none => .missing
  | some values => .list values

/-- A time comes back from the database in UTC. -/
def CellValue.ofTime : Option Datetime → CellValue
  | none => .missing
  | some t => .time ⟨t.instant, some 0⟩

/-- `getattr(lead, field)`. -/
def exportValue (db : LeadDb) (q : LeadRow) : ExportField → CellValue
  | .id => .number q.1
  | .capturedAt => .ofTime q.2.capturedAt
  | .createdAt => .ofTime (some (db.createdAt q.1))
  | .firstName => .text q.2.firstName
  | .lastName => .text q.2.lastName
  | .email => .text q.2.email
  | .phone => .text q.2.phone
  | .company => .text q.2.company
  | .jobTitle => .ofText q.2.jobTitle
  | .source => .text q.2.source
  | .deviceId => .ofText q.2.deviceId
  | .timing => .ofText q.2.timing
  | .interests => .ofList q.2.interests
  | .requestedMaterials => .ofList q.2.requestedMaterials
  | .tags => .ofList q.2.tags
  | .inspectionRequested => .flag q.2.inspectionRequested
  | .inspectionType => .ofText q.2.inspectionType
  | .marketingOptIn => .flag q.2.marketingOptIn
  | .consentStatus => .flag q.2.consentStatus
  | .consentAt => .ofTime q.2.consentAt
  | .crmSyncStatus => .text (crmStatusText q.2.crmSyncStatus)
  | .crmContactId => .ofText q.2.crmContactId
  | .packDeliveryStatus => .text (packStatusText q.2.packDeliveryStatus)
  | .packDeliveredAt => .ofTime q.2.packDeliveredAt
  | .packDeliveredMaterials => .ofList q.2.packDeliveredMaterials

/-! ## The text -/

/-- A record as the reader yields it. -/
abbrev CsvRecord : Type := List (List Char)

def headerRecord : CsvRecord := exportFields.map fun field => field.name.toList

def leadRecord (db : LeadDb) (q : LeadRow) : CsvRecord :=
  exportFields.map fun field => (fmt (exportValue db q field)).toList

def leadsToCsv (db : LeadDb) (leads : List LeadRow) : String :=
  String.ofList (writeRows (headerRecord :: leads.map (leadRecord db)))

/-- The leads that the export asks for at most. -/
def exportLimit : Nat := 100000

/-- What the endpoint raises. -/
inductive ExportError where
  | http (statusCode : Nat) (detail : String)
  | python (e : PyError)

/-- The response: its body, and the bytes of the `Content-Disposition` header. -/
structure ExportResponse where
  content : String
  disposition : List Nat

/-- The text has the characters of Latin-1 only. -/
def IsLatin1 (s : String) : Prop := ∀ c ∈ s.toList, c.toNat < 256

instance (s : String) : Decidable (IsLatin1 s) := List.decidableBAll _ s.toList

/-- `str.encode("latin-1")`. Any other character raises `UnicodeEncodeError`, a `ValueError`. -/
def encodeLatin1 (s : String) : Except PyError (List Nat) :=
  if IsLatin1 s then .ok (s.toList.map Char.toNat) else .error .valueError

def exportFilename (campaign : Campaign) : String := campaign.slug ++ "-leads.csv"

/-- `attachment; filename="…"`. A response encodes its headers when it is built. -/
def contentDisposition (filename : String) : Except PyError (List Nat) :=
  encodeLatin1 ("attachment; filename=\"" ++ filename ++ "\"")

/-- `export_leads_csv`. `listing` is the order in which the database puts the leads of the campaign. -/
def exportLeadsCsv (campaigns : List Campaign) (db : LeadDb) (campaignId : Nat) (listing : List LeadRow) :
    Except ExportError ExportResponse :=
  match getCampaign campaigns campaignId with
  | none => .error (.http 404 "Campaign not found")
  | some campaign =>
      let csvText := leadsToCsv db (listing.take exportLimit)
      match contentDisposition (exportFilename campaign) with
      | .error e => .error (.python e)
      | .ok disposition => .ok ⟨csvText, disposition⟩

/-- `list_for_campaign` without filters. -/
def allLeads (campaignId : Nat) : LeadQuery := .campaign campaignId ⟨none, none, none, none⟩

variable {campaigns : List Campaign} {campaign : Campaign} {db : LeadDb} {campaignId : Nat}

/-- The text reads back. -/
theorem readCsv_leadsToCsv (db : LeadDb) (leads : List LeadRow) :
    readCsv (leadsToCsv db leads).toList = headerRecord :: leads.map (leadRecord db) := by
  rw [leadsToCsv, String.toList_ofList, readCsv_writeRows]

theorem isLatin1_append {s t : String} : IsLatin1 (s ++ t) ↔ IsLatin1 s ∧ IsLatin1 t := by
  simp only [IsLatin1, String.toList_append, List.mem_append, or_imp, forall_and]

theorem encodeLatin1_ok_iff {s : String} : (∃ bytes, encodeLatin1 s = .ok bytes) ↔ IsLatin1 s := by
  unfold encodeLatin1
  by_cases h : IsLatin1 s
  · simp [h]
  · simp [h]

/-- Only the slug can make the header fail. -/
theorem contentDisposition_ok_iff :
    (∃ bytes, contentDisposition (exportFilename campaign) = .ok bytes) ↔ IsLatin1 campaign.slug := by
  have hopening : IsLatin1 "attachment; filename=\"" := by decide
  have hending : IsLatin1 "-leads.csv" := by decide
  have hquote : IsLatin1 "\"" := by decide
  rw [contentDisposition, encodeLatin1_ok_iff, isLatin1_append, isLatin1_append, exportFilename,
    isLatin1_append]
  simp only [hopening, hending, hquote, true_and, and_true]

/-- What comes back, when anything does. -/
theorem exportLeadsCsv_eq_ok (hcampaign : getCampaign campaigns campaignId = some campaign)
    {listing : List LeadRow} {response : ExportResponse} :
    exportLeadsCsv campaigns db campaignId listing = .ok response ↔
      response.content = leadsToCsv db (listing.take exportLimit) ∧
        contentDisposition (exportFilename campaign) = .ok response.disposition := by
  obtain ⟨content, disposition⟩ := response
  simp only [exportLeadsCsv, hcampaign]
  cases contentDisposition (exportFilename campaign) with
  | error e => simp
  | ok bytes => simp [eq_comm]

/-- **The failsafe export.** Whatever the leads contain and in whatever order the database puts leads of
one moment, the text comes back with one record for each lead of the campaign exactly when the campaign
has no more than the limit and its slug is Latin-1. -/
theorem export_complete_iff (hcampaign : getCampaign campaigns campaignId = some campaign) :
    (∀ listing, IsListing ((allLeads campaignId).orderBy db) ((allLeads campaignId).rows db) listing →
      ∃ response records, exportLeadsCsv campaigns db campaignId listing = .ok response ∧
        readCsv response.content.toList = headerRecord :: records ∧
        records.Perm (((allLeads campaignId).rows db).map (leadRecord db))) ↔
      IsLatin1 campaign.slug ∧ ((allLeads campaignId).rows db).length ≤ exportLimit := by
  constructor
  · intro h
    have hlisting := isListing_mergeSort ((allLeads campaignId).orderBy db) ((allLeads campaignId).rows db)
    obtain ⟨response, records, hok, hread, hperm⟩ := h _ hlisting
    obtain ⟨hcontent, hheader⟩ := (exportLeadsCsv_eq_ok hcampaign).1 hok
    refine ⟨contentDisposition_ok_iff.1 ⟨_, hheader⟩, ?_⟩
    rw [hcontent, readCsv_leadsToCsv] at hread
    cases hread
    -- the records are no more than the limit, and as many as the leads
    have hlength := hperm.length_eq
    rw [List.length_map, List.length_map, List.length_take] at hlength
    exact hlength ▸ min_le_left _ _
  · rintro ⟨hslug, hfew⟩ listing hlisting
    obtain ⟨bytes, hheader⟩ := contentDisposition_ok_iff.2 hslug
    refine ⟨⟨_, bytes⟩, _, (exportLeadsCsv_eq_ok hcampaign).2 ⟨rfl, hheader⟩,
      readCsv_leadsToCsv db _, ?_⟩
    rw [List.take_of_length_le (hlisting.perm.length_eq.trans_le hfew)]
    exact hlisting.perm.map _

/-- A slug with a dot below fails, however few the leads. -/
example : contentDisposition "ọjà-2026-leads.csv" = .error .valueError := by decide

/-- The campaign of an event. -/
def eventCampaign : Campaign := ⟨1, "nog-2026", .active, ⟨[], [], none, none, none, [], [], none⟩⟩

theorem export_complete_backdatedLeads :
    (∀ listing, IsListing ((allLeads 1).orderBy backdatedLeads) ((allLeads 1).rows backdatedLeads) listing →
      ∃ response records,
        exportLeadsCsv [eventCampaign] backdatedLeads 1 listing = .ok response ∧
        readCsv response.content.toList = headerRecord :: records ∧
        records.Perm (((allLeads 1).rows backdatedLeads).map (leadRecord backdatedLeads))) ↔
      IsLatin1 eventCampaign.slug ∧ ((allLeads 1).rows backdatedLeads).length ≤ exportLimit :=
  export_complete_iff (rfl : getCampaign [eventCampaign] 1 = some eventCampaign)

/-! ## Lists in one cell -/

/-- What `_fmt` puts between the values of a list. -/
def listSeparator : List Char := [';', ' ']

/-- The values of a list cell. -/
def splitCell (cell : List Char) : List String := (splitText listSeparator cell).map String.ofList

/-- **Lists.** The cell of a list gives its values back exactly when there is one and none of them has a
semicolon before a blank. -/
theorem list_cell_splits_iff {q : LeadRow} {field : ExportField} {values : List String}
    (hvalue : exportValue db q field = .list values) :
    splitCell (fmt (exportValue db q field)).toList = values ↔
      values ≠ [] ∧ ∀ value ∈ values, ¬ listSeparator <:+: value.toList := by
  have hcell : (fmt (exportValue db q field)).toList =
      listSeparator.intercalate (values.map String.toList) := by
    rw [hvalue, fmt, String.toList_intercalate]
    rfl
  have hback : splitCell (fmt (exportValue db q field)).toList = values ↔
      splitText listSeparator (listSeparator.intercalate (values.map String.toList)) =
        values.map String.toList := by
    rw [splitCell, hcell]
    constructor
    · intro h
      have hchars := congrArg (List.map String.toList) h
      rw [List.map_map] at hchars
      simpa [Function.comp_def] using hchars
    · intro h
      rw [h, List.map_map]
      simp [Function.comp_def]
  have hsep : Unbordered listSeparator := unbordered_pair (by decide)
  rw [hback, splitText_intercalate_iff hsep, List.forall_mem_map, Ne, Ne,
    List.map_eq_nil_iff]

/-- A lead with one interest, which names two things. -/
def twoInOne : LeadRow := (1, { newLead 1 "ada@acme.ng" with interests := some ["Office; Retail"] })

/-- Its cell is taken for two interests. -/
theorem twoInOne_splits :
    ¬ splitCell (fmt (exportValue backdatedLeads twoInOne .interests)).toList = ["Office; Retail"] := by
  have hvalue : exportValue backdatedLeads twoInOne .interests = .list ["Office; Retail"] := rfl
  rw [list_cell_splits_iff hvalue]
  rintro ⟨-, hclean⟩
  exact hclean "Office; Retail" List.mem_cons_self (by decide)

end SalesTrades.Leads
