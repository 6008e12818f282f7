import SalesTrades.Leads.PackRuns

/-!
# CRM sync of campaign leads

`build_contact_payload`, `sync_lead` and `sync_pending`. The CRM is a parameter: `CrmAnswers` says how
it answers the upserts of one call. Every call of `upsert_contact` is logged as an `Upsert`, newest
first, with the payload and whether a contact came back. The part of the payload that a submission
determines is a structure of its own, `SubmittedFields`.
-/

set_option autoImplicit false

namespace SalesTrades.Leads

open SalesTrades.Library

/-! ## Payloads -/

def nog2026Slug : String := "nog-2026"

def websiteSlug : String := "wtcabuja-website"

def nogLeadSourceId : Nat := 17001007403

def websiteLeadSourceId : Nat := 17001006640

def inquiryStageId : Nat := 18006136123

def websiteContactStatusNewId : Nat := 17000261833

/-- `_LEAD_SOURCE_ID_BY_CAMPAIGN` with its default. -/
def leadSourceId (slug : String) : Nat :=
  if slug = nog2026Slug then nogLeadSourceId else websiteLeadSourceId

/-- The fields of a contact that come from the submission, `custom_field` with the prefix `cf`. -/
structure SubmittedFields where
  firstName : String
  lastName : String
  mobileNumber : String
  jobTitle : Option String
  tags : List String
  cfCompany : String
  cfInterests : String
  cfRequestedMaterials : String
  cfTiming : Option String
  cfInspectionRequested : Bool
  cfMarketingOptIn : Bool
  cfConsent : Bool
  cfSource : String
  deriving DecidableEq

/-- The body of a Freshsales upsert; the last three are `none` where the key is absent. -/
structure ContactPayload extends SubmittedFields where
  uniqueEmail : String
  email : String
  leadSourceId : Nat
  lifecycleStageId : Nat
  cfCampaign : String
  cfIcpScore : Option Int
  cfCollateralSent : Option String
  cfLifecycleStageNogWeek : Option String
  contactStatusId : Option Nat
  deriving DecidableEq

def submittedFields (s : Submitted) : SubmittedFields where
  firstName := s.firstName
  lastName := s.lastName
  mobileNumber := s.phone
  jobTitle := s.jobTitle
  tags := s.tags.getD []
  cfCompany := s.company
  cfInterests := ", ".intercalate (s.interests.getD [])
  cfRequestedMaterials := ", ".intercalate (s.requestedMaterials.getD [])
  cfTiming := s.timing
  cfInspectionRequested := s.inspectionRequested
  cfMarketingOptIn := s.marketingOptIn
  cfConsent := s.consentStatus
  cfSource := s.source

/-- `build_contact_payload`. -/
def buildContactPayload (lead : Lead) (campaign : Campaign) : ContactPayload where
  toSubmittedFields := submittedFields lead.toSubmitted
  uniqueEmail := lead.email
  email := lead.email
  leadSourceId := leadSourceId campaign.slug
  lifecycleStageId := inquiryStageId
  cfCampaign := campaign.slug
  cfIcpScore := lead.icpScore
  cfCollateralSent :=
    if campaign.slug = nog2026Slug then
      some (if lead.packDeliveryStatus = .sent then "Yes" else "No")
    else none
  cfLifecycleStageNogWeek :=
    if campaign.slug = nog2026Slug then
      some (if lead.packDeliveryStatus = .sent then "Nurturing" else "New")
    else none
  contactStatusId := if campaign.slug = websiteSlug then some websiteContactStatusNewId else none

/-- The contact of a second participant, whose values are those of the form. -/
structure SecondContactPayload where
  uniqueEmail : Json
  firstName : Json
  lastName : Json
  email : Json
  mobileNumber : Json
  jobTitle : Json
  tags : List String
  leadSourceId : Nat
  lifecycleStageId : Nat
  cfCompany : String
  cfCampaign : String
  cfSource : String
  cfConsent : Bool
  deriving DecidableEq

/-- `build_second_participant_contact_payload`. -/
def buildSecondParticipantContactPayload (lead : Lead) (campaign : Campaign) :
    Except PyError (Option SecondContactPayload) := do
  let second := (← (lead.responses.orElse (.obj [])).get "second_participant").orElse (.obj [])
  let email ← second.get "email"
  if !email.truthy then return none
  return some
    { uniqueEmail := email
      firstName := (← second.get "first_name").orElse (.str "")
      lastName := (← second.get "last_name").orElse (.str "")
      email := email
      mobileNumber := ← second.get "phone"
      jobTitle := ← second.get "job_title"
      tags := lead.tags.getD [] ++ ["Second Participant"]
      leadSourceId := leadSourceId campaign.slug
      lifecycleStageId := inquiryStageId
      cfCompany := lead.company
      cfCampaign := campaign.slug
      cfSource := lead.source
      cfConsent := lead.consentStatus }

/-- A payload up to the status, which a repeated upsert leaves out. -/
def ContactPayload.withoutStatus (p : ContactPayload) : ContactPayload :=
  { p with contactStatusId := none }

/-! ## Upserts -/

/-- How the CRM answers an upsert: with a contact, with something that has no `get`, with an HTTP
error status, or with any other exception. -/
inductive CrmResponse where
  | contact (id : Option String)
  | unusable (message : String)
  | statusError (message body : String)
  | error (message : String)

/-- `upsert_contact` returns. -/
def CrmResponse.accepted : CrmResponse → Bool
  | .contact _ | .unusable _ => true
  | .statusError _ _ | .error _ => false

/-- The answers to the upsert of the lead, to its repetition, and to the upsert of the second
participant. -/
structure CrmAnswers where
  first : CrmResponse
  retry : CrmResponse
  second : CrmResponse

/-- A call of `upsert_contact` for the lead `id`. -/
inductive Upsert where
  | contact (id : Nat) (payload : ContactPayload) (accepted : Bool)
  | second (id : Nat) (payload : SecondContactPayload) (accepted : Bool)
  deriving DecidableEq

/-- The payload of the last upsert of a lead that went through. -/
def lastUpsert : List Upsert → Nat → Option ContactPayload
  | [], _ => none
  | .contact i payload true :: log, id => if i = id then some payload else lastUpsert log id
  | .contact _ _ false :: log, id | .second _ _ _ :: log, id => lastUpsert log id

def contactStatusErrorMarker : String := "Invalid contact status provided"

/-- `_upsert_contact_with_status_fallback`: the answer that counts, and the calls. -/
def upsertContactWithStatusFallback (id : Nat) (payload : ContactPayload) (answers : CrmAnswers) :
    CrmResponse × List Upsert :=
  let log := [Upsert.contact id payload answers.first.accepted]
  match answers.first with
  | .statusError message body =>
      if payload.contactStatusId = none ∨
          ¬ contactStatusErrorMarker.toList <:+: body.toList then
        (.statusError message body, log)
      else
        (answers.retry, .contact id payload.withoutStatus answers.retry.accepted :: log)
  | response => (response, log)

/-- `text[:500]`. -/
def truncate (text : String) : String := String.ofList (text.toList.take 500)

/-- The outcome of the upsert on the lead. -/
def recordOutcome (lead : Lead) (response : CrmResponse) (now : Datetime) : Lead :=
  match response with
  | .contact id =>
      { lead with
        crmContactId := id
        crmSyncStatus := .synced
        crmSyncedAt := some now
        crmError := none }
  | .statusError message body =>
      { lead with
        crmSyncStatus := .failed
        crmError := some (truncate s!"{message} | body: {body}") }
  | .unusable message | .error message =>
      { lead with crmSyncStatus := .failed, crmError := some (truncate message) }

/-- `campaign_sync_enabled`. -/
def Campaign.syncEnabled (campaign : Campaign) (force : Bool) : Bool :=
  force || (campaign.config.crmSyncEnabled.getD (.bool true)).truthy

/-- `sync_lead` up to its commit: the lead to be stored, or the exception, and the upserts. Only the
payload of the second participant is built outside of a `try`. -/
def syncLead (globalSync force : Bool) (campaign : Campaign) (row : LeadRow) (answers : CrmAnswers)
    (now : Datetime) : Except PyError Lead × List Upsert :=
  if !globalSync || !campaign.syncEnabled force then
    (.ok { row.2 with crmSyncStatus := .skipped }, [])
  else
    let (response, log) :=
      upsertContactWithStatusFallback row.1 (buildContactPayload row.2 campaign) answers
    let lead := recordOutcome row.2 response now
    match buildSecondParticipantContactPayload lead campaign with
    | .error e => (.error e, log)
    | .ok none => (.ok lead, log)
    | .ok (some second) => (.ok lead, .second row.1 second answers.second.accepted :: log)

/-! ## What a sync stores and sends -/

section Sync

variable {globalSync force : Bool} {campaign : Campaign} {row : LeadRow} {answers : CrmAnswers}
  {now : Datetime} {log : List Upsert}

/-- The other columns of a lead whose CRM columns a sync has set. -/
structure SameButCrm (l l' : Lead) : Prop where
  submitted : l'.toSubmitted = l.toSubmitted
  campaignId : l'.campaignId = l.campaignId
  email : l'.email = l.email
  packDeliveryStatus : l'.packDeliveryStatus = l.packDeliveryStatus
  icpScore : l'.icpScore = l.icpScore

theorem sameButCrm_recordOutcome (lead : Lead) (response : CrmResponse) (now : Datetime) :
    SameButCrm lead (recordOutcome lead response now) := by
  cases response <;> exact ⟨rfl, rfl, rfl, rfl, rfl⟩

/-- The payload reads no CRM column. -/
theorem buildContactPayload_sameButCrm {l l' : Lead} (h : SameButCrm l l') (campaign : Campaign) :
    buildContactPayload l' campaign = buildContactPayload l campaign := by
  simp only [buildContactPayload, h.submitted, h.email, h.packDeliveryStatus, h.icpScore]

@[simp]
theorem withoutStatus_withoutStatus (p : ContactPayload) :
    p.withoutStatus.withoutStatus = p.withoutStatus := rfl

theorem recordOutcome_status (lead : Lead) (response : CrmResponse) (now : Datetime) :
    ((recordOutcome lead response now).crmSyncStatus = .synced ∧ response.accepted = true) ∨
      (recordOutcome lead response now).crmSyncStatus = .failed := by
  cases response with
  | contact id => exact Or.inl ⟨rfl, rfl⟩
  | unusable message => exact Or.inr rfl
  | statusError message body => exact Or.inr rfl
  | error message => exact Or.inr rfl

/-- An upsert of another lead does not count. -/
theorem lastUpsert_append_other {new : List Upsert} {id : Nat}
    (h : ∀ u ∈ new, ∀ i p accepted, u = .contact i p accepted → i ≠ id) :
    lastUpsert (new ++ log) id = lastUpsert log id := by
  induction new with
  | nil => rfl
  | cons u new ih =>
      have hnew := ih fun v hv => h v (List.mem_cons_of_mem u hv)
      have hu := h u List.mem_cons_self
      cases u with
      | contact i p accepted =>
          cases accepted with
          | true => simpa [lastUpsert, hu i p true rfl] using hnew
          | false => exact hnew
      | second i p accepted => exact hnew

/-- The calls of the fallback are upserts of the payload up to the status; an answer with a contact
means that the last one went through, any other answer that none did. -/
theorem upsertContact_spec (id : Nat) (payload : ContactPayload) (answers : CrmAnswers)
    (log : List Upsert) :
    (∀ u ∈ (upsertContactWithStatusFallback id payload answers).2, ∃ p accepted,
      u = .contact id p accepted ∧ p.withoutStatus = payload.withoutStatus) ∧
    ((upsertContactWithStatusFallback id payload answers).1.accepted = true →
      ∃ p, lastUpsert ((upsertContactWithStatusFallback id payload answers).2 ++ log) id = some p ∧
        p.withoutStatus = payload.withoutStatus) ∧
    ((upsertContactWithStatusFallback id payload answers).1.accepted = false →
      lastUpsert ((upsertContactWithStatusFallback id payload answers).2 ++ log) id =
        lastUpsert log id) := by
  unfold upsertContactWithStatusFallback
  cases hfirst : answers.first with
  | contact contactId => simp [CrmResponse.accepted, lastUpsert]
  | unusable message => simp [CrmResponse.accepted, lastUpsert]
  | error message => simp [CrmResponse.accepted, lastUpsert]
  | statusError message body =>
      simp only [CrmResponse.accepted]
      split
      · simp [lastUpsert]
      · -- the repetition counts
        cases answers.retry <;> simp [lastUpsert]

/-- A sync behind a closed gate. -/
theorem syncLead_closed (h : globalSync = false ∨ campaign.syncEnabled force = false) :
    syncLead globalSync force campaign row answers now =
      (.ok { row.2 with crmSyncStatus := .skipped }, []) := by
  unfold syncLead
  rw [if_pos]
  rcases h with h | h <;> simp [h]

/-- A sync with both gates open: the upsert, and the lead as its outcome leaves it unless the payload
of the second participant cannot be built. -/
theorem syncLead_open (row : LeadRow) (answers : CrmAnswers) (now : Datetime)
    (hglobal : globalSync = true) (hcampaign : campaign.syncEnabled force = true) :
    let upsert := upsertContactWithStatusFallback row.1 (buildContactPayload row.2 campaign) answers
    ∃ extra, (∀ u ∈ extra, ∃ p accepted, u = Upsert.second row.1 p accepted) ∧
      (syncLead globalSync force campaign row answers now).2 = extra ++ upsert.2 ∧
      ((syncLead globalSync force campaign row answers now).1 =
          .ok (recordOutcome row.2 upsert.1 now) ∨
        ∃ e, (syncLead globalSync force campaign row answers now).1 = .error e) := by
  unfold syncLead
  rw [if_neg (by simp [hglobal, hcampaign])]
  dsimp only
  split
  · rename_i e _
    exact ⟨[], by simp, rfl, Or.inr ⟨e, rfl⟩⟩
  · exact ⟨[], by simp, rfl, Or.inl rfl⟩
  · exact ⟨[_], fun u hu => ⟨_, _, List.mem_singleton.1 hu⟩, rfl, Or.inl rfl⟩

/-- Every contact that a sync sends is the current one, up to the status. -/
theorem syncLead_upserts {u : Upsert}
    (h : u ∈ (syncLead globalSync force campaign row answers now).2) :
    (∃ p accepted, u = .contact row.1 p accepted ∧
      p.withoutStatus = (buildContactPayload row.2 campaign).withoutStatus) ∨
    ∃ p accepted, u = .second row.1 p accepted := by
  by_cases hopen : globalSync = true ∧ campaign.syncEnabled force = true
  · obtain ⟨extra, hextra, hlog, -⟩ := syncLead_open row answers now hopen.1 hopen.2
    rw [hlog, List.mem_append] at h
    rcases h with h | h
    · exact Or.inr (hextra u h)
    · exact Or.inl ((upsertContact_spec row.1 (buildContactPayload row.2 campaign) answers []).1 u h)
  · have hclosed : globalSync = false ∨ campaign.syncEnabled force = false := by
      rw [not_and_or, Bool.not_eq_true, Bool.not_eq_true] at hopen
      exact hopen
    rw [syncLead_closed hclosed] at h
    cases h

/-- The upserts of a sync do not count for another lead. -/
theorem syncLead_lastUpsert_other {id : Nat} (hid : id ≠ row.1) :
    lastUpsert ((syncLead globalSync force campaign row answers now).2 ++ log) id =
      lastUpsert log id := by
  refine lastUpsert_append_other fun u hu i p accepted heq => ?_
  rcases syncLead_upserts hu with ⟨p', accepted', h, -⟩ | ⟨p', accepted', h⟩
  · rw [heq, Upsert.contact.injEq] at h
    rw [h.1]
    exact hid.symm
  · rw [heq] at h
    cases h

/-- The last upsert of the lead after a sync is the one before it or the current contact, and the
latter when the sync stores `synced`. -/
theorem syncLead_lastUpsert (globalSync force : Bool) (campaign : Campaign) (row : LeadRow)
    (answers : CrmAnswers) (now : Datetime) (log : List Upsert) :
    (lastUpsert ((syncLead globalSync force campaign row answers now).2 ++ log) row.1 =
        lastUpsert log row.1 ∧
      ∀ lead, (syncLead globalSync force campaign row answers now).1 = .ok lead →
        lead.crmSyncStatus ≠ .synced) ∨
    ∃ p, lastUpsert ((syncLead globalSync force campaign row answers now).2 ++ log) row.1 = some p ∧
      p.withoutStatus = (buildContactPayload row.2 campaign).withoutStatus := by
  by_cases hopen : globalSync = true ∧ campaign.syncEnabled force = true
  · obtain ⟨extra, hextra, hlog, hresult⟩ := syncLead_open row answers now hopen.1 hopen.2
    obtain ⟨-, haccepted, hrejected⟩ :=
      upsertContact_spec row.1 (buildContactPayload row.2 campaign) answers log
    have hskip : ∀ log', lastUpsert (extra ++ log') row.1 = lastUpsert log' row.1 := by
      intro log'
      refine lastUpsert_append_other fun u hu i p accepted heq => ?_
      obtain ⟨p', accepted', h⟩ := hextra u hu
      rw [heq] at h
      cases h
    rw [hlog, List.append_assoc, hskip]
    cases hanswer : (upsertContactWithStatusFallback row.1 (buildContactPayload row.2 campaign)
        answers).1.accepted with
    | true => exact Or.inr (haccepted hanswer)
    | false =>
        refine Or.inl ⟨hrejected hanswer, fun lead hlead => ?_⟩
        rcases hresult with h | ⟨e, h⟩
        · rw [h, Except.ok.injEq] at hlead
          rw [← hlead]
          rcases recordOutcome_status row.2 (upsertContactWithStatusFallback row.1
            (buildContactPayload row.2 campaign) answers).1 now with ⟨-, hyes⟩ | hfailed
          · rw [hanswer] at hyes
            cases hyes
          · rw [hfailed]
            exact fun h => by cases h
        · rw [h] at hlead
          cases hlead
  · have hclosed : globalSync = false ∨ campaign.syncEnabled force = false := by
      rw [not_and_or, Bool.not_eq_true, Bool.not_eq_true] at hopen
      exact hopen
    refine Or.inl ⟨by rw [syncLead_closed hclosed]; rfl, fun lead hlead => ?_⟩
    rw [syncLead_closed hclosed, Except.ok.injEq] at hlead
    rw [← hlead]
    exact fun h => by cases h

/-- A sync with both gates open never stores `skipped`. -/
theorem syncLead_status {lead : Lead} (hglobal : globalSync = true)
    (hcampaign : campaign.syncEnabled force = true)
    (h : (syncLead globalSync force campaign row answers now).1 = .ok lead) :
    lead.crmSyncStatus = .synced ∨ lead.crmSyncStatus = .failed := by
  obtain ⟨extra, -, -, hresult | ⟨e, hresult⟩⟩ := syncLead_open row answers now hglobal hcampaign
  · rw [hresult, Except.ok.injEq] at h
    rw [← h]
    exact (recordOutcome_status _ _ _).imp_left And.left
  · rw [hresult] at h
    cases h

theorem sameButCrm_syncLead {lead : Lead}
    (h : (syncLead globalSync force campaign row answers now).1 = .ok lead) :
    SameButCrm row.2 lead := by
  by_cases hopen : globalSync = true ∧ campaign.syncEnabled force = true
  · obtain ⟨extra, -, -, hresult | ⟨e, hresult⟩⟩ :=
      syncLead_open row answers now hopen.1 hopen.2
    · rw [hresult, Except.ok.injEq] at h
      rw [← h]
      exact sameButCrm_recordOutcome _ _ _
    · rw [hresult] at h
      cases h
  · have hclosed : globalSync = false ∨ campaign.syncEnabled force = false := by
      rw [not_and_or, Bool.not_eq_true, Bool.not_eq_true] at hopen
      exact hopen
    rw [syncLead_closed hclosed, Except.ok.injEq] at h
    rw [← h]
    exact ⟨rfl, rfl, rfl, rfl, rfl⟩

end Sync

end SalesTrades.Leads
