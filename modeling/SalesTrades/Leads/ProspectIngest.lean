import SalesTrades.Leads.IcpScoring

/-!
# One run of prospecting

`ingest_company_signal` takes the contacts of a company one after the other. It looks a contact up under
its lowercased address, in the campaign and in the CRM, and captures it when neither knows the address.
The capture looks the lead up once more, under the address that `LeadCreateRequest` has made of the
first one, and merges the contact into a lead that it finds there, which the loop reports as created. A
run accounts for every contact exactly when no second address is found where the first is not
(`ingest_accounted_iff`).
-/

set_option autoImplicit false

namespace SalesTrades.Leads.IcpScoring

open SalesTrades.Library

/-! ## The run -/

/-- A subject and a body of `ProspectContact`, which has four of each. -/
structure DraftedEmail where
  subject : Option String
  body : Option String

structure ProspectContact where
  firstName : String
  lastName : String
  email : EmailStr
  professionalTitle : Option String
  linkedinUrl : Option String
  country : Option String
  emails : List DraftedEmail

structure ProspectCompanySignal where
  organization : List (String × Json)
  triggerEvent : Option String
  triggerType : Option String
  articleUrl : Option String
  industrySector : Option String
  leadTier : Option String
  icpScore : Option Int

structure ProspectIngestResult where
  domain : Option String
  received : Nat := 0
  dedupedOut : Nat := 0
  created : Nat := 0
  leadIds : List Nat := []
  deriving DecidableEq

/-- What a run reads from outside: the campaigns, whether the CRM is in use and what a lookup in it
answers, and the address that an `EmailStr` field makes of a text. -/
structure IngestEnv where
  lib : FieldLib
  campaigns : List Campaign
  freshsalesLeadSyncEnabled : Bool
  lookupContactByEmail : String → Except PyError Bool
  emailStr : String → Option EmailStr

/-- A contact in the order of the run, with the clock and the answer of the language model. -/
structure ContactTurn where
  contact : ProspectContact
  now : Datetime
  answer : Completion

section Run

variable (env : IngestEnv) (signal : ProspectCompanySignal) (campaign : Campaign)

/-- `_is_known_to_crm`. -/
def isKnownToCrm (email : String) : Except PyError Bool :=
  if env.freshsalesLeadSyncEnabled then env.lookupContactByEmail email else .ok false

/-- `domain`, empty when the signal has none. -/
def signalDomain : Except PyError String :=
  match (Json.member signal.organization "primary_domain").orElse (.str "") with
  | .str s => .ok (env.lib.py.lower (strip s))
  | _ => .error .attributeError

/-- A `str` field with a length from 1 to `max`. -/
def lengthField (max : Nat) (text : String) : Bool := 1 ≤ text.length && text.length ≤ max

def DraftedEmail.json (email : DraftedEmail) : Json :=
  .obj [("subject", .ofOption email.subject), ("body", .ofOption email.body)]

/-- `LeadCreateRequest(...)` in the loop; `none` is a `ValidationError`. -/
def leadRequest (contact : ProspectContact) (email : String) : Option LeadCreateRequest :=
  match (Json.member signal.organization "name").orElse (.str "Unknown"), env.emailStr email with
  | .str company, some address =>
      if lengthField 120 contact.firstName && lengthField 120 contact.lastName &&
          lengthField 200 company && contact.professionalTitle.all fun t => t.length ≤ 200 then
        some
          { firstName := contact.firstName
            lastName := contact.lastName
            email := address
            phone := none
            company := company
            jobTitle := contact.professionalTitle
            source := "ai_prospecting"
            deviceId := none
            timing := none
            interests := none
            requestedMaterials := none
            inspectionRequested := false
            inspectionType := none
            marketingOptIn := false
            consentStatus := false
            capturedAt := none
            responses :=
              [("enrichment", .obj signal.organization),
                ("trigger_event", .ofOption signal.triggerEvent),
                ("trigger_type", .ofOption signal.triggerType),
                ("article_url", .ofOption signal.articleUrl),
                ("industry_sector", .ofOption signal.industrySector),
                ("n8n_prescore", (signal.icpScore.map fun n => Json.num n).getD .null),
                ("n8n_prescore_tier", .ofOption signal.leadTier),
                ("linkedin_url", .ofOption contact.linkedinUrl),
                ("country", .ofOption contact.country),
                ("drafted_outreach", .arr (contact.emails.map DraftedEmail.json))] }
      else none
  | _, _ => none

/-- `email`: the address under which the contact is looked up. -/
def ContactTurn.email (turn : ContactTurn) : String := normaliseEmail env.lib.py turn.contact.email

/-- The address of the lead that is captured for the contact. -/
def ContactTurn.leadEmail (turn : ContactTurn) : String :=
  ((env.emailStr (turn.email env)).map fun address => normaliseEmail env.lib.py address).getD
    (turn.email env)

/-- The contact is known already. -/
def isDuplicate (turn : ContactTurn) (t : LeadTable) : Except PyError Bool :=
  if (getByCampaignEmail t campaign.id (turn.email env)).isSome then .ok true
  else isKnownToCrm env (turn.email env)

/-- A contact that is not known: the capture and the scoring, and the id of the lead. -/
def storeContact (turn : ContactTurn) (t : LeadTable) : LeadTable × Except CaptureError Nat :=
  match leadRequest env signal turn.contact (turn.email env) with
  | none => (t, .error (.python .validationError))
  | some payload =>
      match captureLeadCreated env.lib.py env.campaigns prospectingCampaignSlug payload turn.now false
          t with
      | (t', .error e) => (t', .error e)
      -- `capture_lead` drops whether the lead is new
      | (t', .ok (lead, _)) =>
          match scoreLead env.lib lead turn.answer with
          | .error _ => (t', .ok lead.1)
          | .ok score =>
              if storable score then (writeScore (some (lead, score.stored)) t', .ok lead.1)
              -- the handler reads `lead.id` after a commit that has failed
              else (t', .error (.python .missingGreenlet))

/-- The loop over the contacts. -/
def ingestLoop : List ContactTurn → LeadTable → ProspectIngestResult →
    LeadTable × Except CaptureError ProspectIngestResult
  | [], t, result => (t, .ok result)
  | turn :: turns, t, result =>
      match isDuplicate env campaign turn t with
      | .error e => (t, .error (.python e))
      | .ok true => ingestLoop turns t { result with dedupedOut := result.dedupedOut + 1 }
      | .ok false =>
          match storeContact env signal turn t with
          | (t', .error e) => (t', .error e)
          | (t', .ok id) => ingestLoop turns t'
              { result with created := result.created + 1, leadIds := result.leadIds ++ [id] }

/-- `ingest_company_signal`, for the contacts that `_fetch_contacts` returns. -/
def ingestCompanySignal (turns : List ContactTurn) (t : LeadTable) :
    LeadTable × Except CaptureError ProspectIngestResult :=
  match signalDomain env signal with
  | .error e => (t, .error (.python e))
  | .ok domain =>
      if domain = "" then (t, .ok { domain := none })
      else
        match getBySlug env.campaigns prospectingCampaignSlug with
        | none => (t, .ok { domain := some domain })
        | some campaign =>
            ingestLoop env signal campaign turns t { domain := some domain, received := turns.length }

end Run

/-! ## What a run should do -/

/-- The addresses of the campaign. -/
def addresses (campaignId : Nat) (t : LeadTable) : Set String :=
  { email | ∃ q ∈ t.rows, q.2.campaignId = campaignId ∧ q.2.email = email }

/-- The run has created the leads with these ids: they are distinct and none existed before, and their
addresses were neither in the campaign nor known to the CRM. -/
structure CreatesNew (env : IngestEnv) (campaignId : Nat) (t t' : LeadTable) (leadIds : List Nat) :
    Prop where
  distinct : leadIds.Nodup
  new : ∀ id ∈ leadIds, ∀ q ∈ t.rows, q.1 ≠ id
  unknown : ∀ id ∈ leadIds, ∀ lead, (id, lead) ∈ t'.rows → lead.campaignId = campaignId ∧
    lead.email ∉ addresses campaignId t ∧ isKnownToCrm env lead.email ≠ .ok true

/-- The address is in the campaign or known to the CRM. -/
def Found (env : IngestEnv) (emails : Set String) (email : String) : Prop :=
  email ∈ emails ∨ isKnownToCrm env email = .ok true

/-- At the turn of every contact, its lead's address is found only if the address of the contact is. The
addresses of the campaign are those at the start and those of the leads captured since. -/
def SameFindings (env : IngestEnv) : List ContactTurn → Set String → Prop
  | [], _ => True
  | turn :: turns, emails =>
      (Found env emails (turn.email env) → SameFindings env turns emails) ∧
        (¬ Found env emails (turn.email env) → ¬ Found env emails (turn.leadEmail env) ∧
          SameFindings env turns (insert (turn.leadEmail env) emails))

/-- The run accounts for every contact. -/
structure Accounted (env : IngestEnv) (campaignId : Nat) (t t' : LeadTable)
    (result : ProspectIngestResult) : Prop where
  received : result.received = result.created + result.dedupedOut
  created : result.leadIds.length = result.created
  creates : CreatesNew env campaignId t t' result.leadIds
  stored : ∀ id ∈ result.leadIds, ∃ lead, (id, lead) ∈ t'.rows
  unmodified : ∀ q ∈ t.rows, q ∈ t'.rows

section Proofs

variable {env : IngestEnv} {signal : ProspectCompanySignal} {campaign : Campaign}
  {turn : ContactTurn} {turns : List ContactTurn} {t t' t₁ : LeadTable} {id : Nat}
  {result result' : ProspectIngestResult}

/-- Rows keep their id, campaign and address. -/
def KeepsKeys (t t' : LeadTable) : Prop :=
  ∀ q ∈ t.rows, ∃ q' ∈ t'.rows, q'.1 = q.1 ∧ q'.2.campaignId = q.2.campaignId ∧ q'.2.email = q.2.email

theorem KeepsKeys.refl (t : LeadTable) : KeepsKeys t t := fun q hq => ⟨q, hq, rfl, rfl, rfl⟩

theorem KeepsKeys.trans (h : KeepsKeys t t₁) (h' : KeepsKeys t₁ t') : KeepsKeys t t' := by
  intro q hq
  obtain ⟨q₁, hq₁, hid, hcampaign, hemail⟩ := h q hq
  obtain ⟨q', hq', hid', hcampaign', hemail'⟩ := h' q₁ hq₁
  exact ⟨q', hq', hid'.trans hid, hcampaign'.trans hcampaign, hemail'.trans hemail⟩

theorem keepsKeys_of_subset (h : ∀ q ∈ t.rows, q ∈ t'.rows) : KeepsKeys t t' :=
  fun q hq => ⟨q, h q hq, rfl, rfl, rfl⟩

theorem keepsKeys_update {row : LeadRow} {lead : Lead} (h : t.update row.1 lead = some t')
    (hrow : row ∈ t.rows) (hcampaign : lead.campaignId = row.2.campaignId)
    (hemail : lead.email = row.2.email) : KeepsKeys t t' := by
  intro q hq
  by_cases hid : q.1 = row.1
  · obtain rfl := t.eq_of_id hq hrow hid
    exact ⟨(q.1, lead), (Table.mem_of_update h).2 (Or.inr ⟨rfl, q.2, hq⟩), rfl, hcampaign, hemail⟩
  · exact ⟨q, (Table.mem_of_update h).2 (Or.inl ⟨hq, hid⟩), rfl, rfl, rfl⟩

/-! ## One contact -/

theorem isDuplicate_eq_ok {duplicate : Bool}
    (h : isDuplicate env campaign turn t = .ok duplicate) :
    duplicate = true ↔ Found env (addresses campaign.id t) (turn.email env) := by
  rw [isDuplicate] at h
  cases hfound : getByCampaignEmail t campaign.id (turn.email env) with
  | some row =>
      rw [hfound, Option.isSome_some, if_pos rfl] at h
      obtain ⟨hmem, hcampaign, hemail⟩ := getByCampaignEmail_eq_some hfound
      exact iff_of_true (Except.ok.inj h).symm (Or.inl ⟨row, hmem, hcampaign, hemail⟩)
  | none =>
      rw [hfound, Option.isSome_none, if_neg Bool.false_ne_true] at h
      rw [Found, h]
      constructor
      · rintro rfl
        exact Or.inr rfl
      · rintro (⟨q, hq, hkey⟩ | hknown)
        · exact absurd hkey (getByCampaignEmail_eq_none hfound q hq)
        · exact Except.ok.inj hknown

theorem leadRequest_email {contact : ProspectContact} {email : String} {payload : LeadCreateRequest}
    (h : leadRequest env signal contact email = some payload) :
    env.emailStr email = some payload.email := by
  rw [leadRequest] at h
  split at h
  · rename_i hemail
    split at h
    · obtain rfl := Option.some.inj h
      exact hemail
    · cases h
  · cases h

/-- A merge, or a new row with the address of the lead. -/
def Stores (env : IngestEnv) (campaign : Campaign) (turn : ContactTurn) (t t' : LeadTable) (id : Nat) :
    Prop :=
  (∃ q ∈ t.rows, q.1 = id ∧ q.2.campaignId = campaign.id ∧ q.2.email = turn.leadEmail env ∧
      KeepsKeys t t') ∨
    (turn.leadEmail env ∉ addresses campaign.id t ∧ (∀ q ∈ t.rows, q.1 ≠ id) ∧
      ∃ lead, lead.campaignId = campaign.id ∧ lead.email = turn.leadEmail env ∧
        ∀ q, q ∈ t'.rows ↔ q ∈ t.rows ∨ q = (id, lead))

/-- A score changes no key, and no row but that of its lead. -/
theorem stores_score {lead : LeadRow} (score : Leads.ICPResult)
    (h : Stores env campaign turn t t₁ lead.1) (hlead : lead ∈ t₁.rows) :
    Stores env campaign turn t (writeScore (some (lead, score)) t₁) lead.1 := by
  obtain ⟨t', hupdate, hwrite⟩ := writeScore_spec score hlead
  rw [hwrite]
  have hkeys : KeepsKeys t₁ t' := keepsKeys_update hupdate hlead rfl rfl
  rcases h with ⟨q, hq, hid, hcampaign, hemail, hkeeps⟩ | ⟨hnew, hids, row, hcampaign, hemail, hrows⟩
  · exact Or.inl ⟨q, hq, hid, hcampaign, hemail, hkeeps.trans hkeys⟩
  · -- the lead is the new row
    obtain ⟨leadId, columns⟩ := lead
    obtain rfl : columns = row :=
      congrArg Prod.snd (t₁.eq_of_id hlead ((hrows _).2 (Or.inr rfl)) rfl)
    refine Or.inr ⟨hnew, hids, applyResult columns score, hcampaign, hemail, fun q => ?_⟩
    rw [Table.mem_of_update hupdate, hrows]
    constructor
    · rintro (⟨hq | hq, hne⟩ | ⟨rfl, -⟩)
      · exact Or.inl hq
      · rw [hq] at hne
        exact absurd rfl hne
      · exact Or.inr rfl
    · rintro (hq | rfl)
      · exact Or.inl ⟨Or.inl hq, hids q hq⟩
      · exact Or.inr ⟨rfl, columns, hlead⟩

/-- What the capture and the scoring of a contact do. -/
theorem storeContact_ok (hslug : getBySlug env.campaigns prospectingCampaignSlug = some campaign)
    (h : storeContact env signal turn t = (t', .ok id)) : Stores env campaign turn t t' id := by
  rw [storeContact] at h
  split at h
  · cases h
  · rename_i payload hpayload
    have haddress : turn.leadEmail env = normaliseEmail env.lib.py payload.email := by
      rw [ContactTurn.leadEmail, leadRequest_email hpayload]
      rfl
    split at h
    · cases h
    · rename_i t₁ lead isNew hcapture
      have hstores : Stores env campaign turn t t₁ lead.1 ∧ lead ∈ t₁.rows := by
        rcases captureLeadCreated_spec env.lib.py env.campaigns prospectingCampaignSlug payload
          turn.now false t with ⟨-, e, hcall⟩ |
            ⟨campaign', row, t₂, hslug', hfound, -, hupdate, hcall⟩ |
              ⟨campaign', t₂, hslug', htarget, hinsert, hcall⟩
        · rw [hcall] at hcapture
          cases hcapture
        · obtain rfl := Option.some.inj (hslug.symm.trans hslug')
          rw [hcall] at hcapture
          cases hcapture
          obtain ⟨hmem, hcampaign, hemail⟩ := getByCampaignEmail_eq_some hfound
          refine ⟨Or.inl ⟨row, hmem, rfl, hcampaign, hemail.trans haddress.symm, ?_⟩, ?_⟩
          · exact keepsKeys_update hupdate hmem rfl rfl
          · exact (Table.mem_of_update hupdate).2 (Or.inr ⟨rfl, row.2, hmem⟩)
        · obtain rfl := Option.some.inj (hslug.symm.trans hslug')
          rw [hcall] at hcapture
          cases hcapture
          obtain ⟨hcampaign, hemail⟩ :=
            mergedLead_key_new env.lib.py campaign payload turn.now
          refine ⟨Or.inr ⟨?_, ?_, _, hcampaign, hemail.trans haddress.symm, ?_⟩, ?_⟩
          · rintro ⟨q, hq, hqcampaign, hqemail⟩
            have hkey : q.2.emailKey = some (campaign.id, normaliseEmail env.lib.py payload.email) :=
              Lead.emailKey_eq_some.2 ⟨hqcampaign, hqemail.trans haddress⟩
            have htaken : t.insert (mergedLead env.lib.py campaign payload turn.now none) = none :=
              Table.insert_eq_none_iff.2 ⟨q, hq, _, rfl, hkey⟩
            rw [hinsert] at htaken
            cases htaken
          · intro q hq
            exact (t.id_lt q hq).ne
          · exact fun q => Table.mem_of_insert hinsert
          · exact (Table.mem_of_insert hinsert).2 (Or.inr rfl)
      split at h
      · cases h
        exact hstores.1
      · split at h
        · cases h
          exact stores_score _ hstores.1 hstores.2
        · cases h

/-! ## The loop -/

section NewLead

variable {lead : Lead} {ids : List Nat} (hids : ∀ q ∈ t.rows, q.1 ≠ id)
  (hcampaign : lead.campaignId = campaign.id) (hrows : ∀ q, q ∈ t₁.rows ↔ q ∈ t.rows ∨ q = (id, lead))

include hcampaign hrows

theorem addresses_insert : addresses campaign.id t₁ = insert lead.email (addresses campaign.id t) := by
  ext email
  constructor
  · rintro ⟨q, hq, hqcampaign, hqemail⟩
    rcases (hrows q).1 hq with hold | rfl
    · exact Set.mem_insert_of_mem _ ⟨q, hold, hqcampaign, hqemail⟩
    · exact Or.inl hqemail.symm
  · rintro (rfl | ⟨q, hq, hqcampaign, hqemail⟩)
    · exact ⟨(id, lead), (hrows _).2 (Or.inr rfl), hcampaign, rfl⟩
    · exact ⟨q, (hrows q).2 (Or.inl hq), hqcampaign, hqemail⟩

include hids

/-- A new lead and then others: the others are new beside it, and the CRM does not know its address. -/
theorem createsNew_cons_iff (hnew : lead.email ∉ addresses campaign.id t) (hkeeps : KeepsKeys t₁ t') :
    CreatesNew env campaign.id t t' (id :: ids) ↔
      isKnownToCrm env lead.email ≠ .ok true ∧ CreatesNew env campaign.id t₁ t' ids := by
  have hlead : (id, lead) ∈ t₁.rows := (hrows _).2 (Or.inr rfl)
  obtain ⟨⟨id', lead'⟩, hlead', hid', hcampaign', hemail'⟩ := hkeeps _ hlead
  obtain rfl : id' = id := hid'
  have hinsert := addresses_insert hcampaign hrows
  constructor
  · rintro ⟨hdistinct, hfresh, hunknown⟩
    obtain ⟨hnotin, hdistinct⟩ := List.nodup_cons.1 hdistinct
    obtain ⟨-, -, hcrm⟩ := hunknown id' List.mem_cons_self lead' hlead'
    rw [hemail'] at hcrm
    refine ⟨hcrm, hdistinct, ?_, ?_⟩
    · intro i hi q hq hqi
      rcases (hrows q).1 hq with hold | rfl
      · exact hfresh i (List.mem_cons_of_mem _ hi) q hold hqi
      · obtain rfl : id' = i := hqi
        exact hnotin hi
    · intro i hi l hl
      obtain ⟨hlcampaign, hlemail, hlcrm⟩ := hunknown i (List.mem_cons_of_mem _ hi) l hl
      refine ⟨hlcampaign, ?_, hlcrm⟩
      rw [hinsert, Set.mem_insert_iff, not_or]
      refine ⟨fun hsame => ?_, hlemail⟩
      -- the unique index: the row with the address is the new one
      have hkey : lead'.emailKey = some (campaign.id, lead.email) :=
        Lead.emailKey_eq_some.2 ⟨hcampaign'.trans hcampaign, hemail'⟩
      have hkeyl : l.emailKey = some (campaign.id, lead.email) :=
        Lead.emailKey_eq_some.2 ⟨hlcampaign, hsame⟩
      obtain rfl : i = id' := congrArg Prod.fst (t'.eq_of_key hl hlead' hkeyl hkey)
      exact hnotin hi
  · rintro ⟨hcrm, hdistinct, hfresh, hunknown⟩
    refine ⟨List.nodup_cons.2 ⟨fun hmem => hfresh id' hmem _ hlead rfl, hdistinct⟩, ?_, ?_⟩
    · intro i hi q hq
      rcases List.mem_cons.1 hi with rfl | hi
      · exact hids q hq
      · exact hfresh i hi q ((hrows q).2 (Or.inl hq))
    · intro i hi l hl
      rcases List.mem_cons.1 hi with rfl | hi
      · obtain rfl : l = lead' := congrArg Prod.snd (t'.eq_of_id hl hlead' rfl)
        rw [hemail']
        exact ⟨hcampaign'.trans hcampaign, hnew, hcrm⟩
      · obtain ⟨hlcampaign, hlemail, hlcrm⟩ := hunknown i hi l hl
        rw [hinsert, Set.mem_insert_iff, not_or] at hlemail
        exact ⟨hlcampaign, hlemail.2, hlcrm⟩

end NewLead

/-- What the loop has done when it returns. -/
structure LoopResult (env : IngestEnv) (campaign : Campaign) (turns : List ContactTurn)
    (t t' : LeadTable) (result result' : ProspectIngestResult) (ids : List Nat) : Prop where
  leadIds : result'.leadIds = result.leadIds ++ ids
  created : result'.created = result.created + ids.length
  dedupedOut : result'.dedupedOut + ids.length = result.dedupedOut + turns.length
  received : result'.received = result.received
  keeps : KeepsKeys t t'
  stored : ∀ id ∈ ids, ∃ lead, (id, lead) ∈ t'.rows
  creates : CreatesNew env campaign.id t t' ids ↔ SameFindings env turns (addresses campaign.id t)
  unmodified : SameFindings env turns (addresses campaign.id t) → ∀ q ∈ t.rows, q ∈ t'.rows

theorem LoopResult.nil (t : LeadTable) (result : ProspectIngestResult) :
    LoopResult env campaign [] t t result result [] where
  leadIds := (List.append_nil _).symm
  created := rfl
  dedupedOut := rfl
  received := rfl
  keeps := KeepsKeys.refl t
  stored := List.forall_mem_nil _
  creates := iff_of_true ⟨List.nodup_nil, List.forall_mem_nil _, List.forall_mem_nil _⟩ trivial
  unmodified := fun _ _ hq => hq

/-- **Step**: a contact that is known, and then the others. -/
theorem LoopResult.of_found {ids : List Nat}
    (hfound : Found env (addresses campaign.id t) (turn.email env))
    (hrest : LoopResult env campaign turns t t'
      { result with dedupedOut := result.dedupedOut + 1 } result' ids) :
    LoopResult env campaign (turn :: turns) t t' result result' ids := by
  have hsame : SameFindings env (turn :: turns) (addresses campaign.id t) ↔
      SameFindings env turns (addresses campaign.id t) :=
    ⟨fun hs => hs.1 hfound, fun hs => ⟨fun _ => hs, fun hnot => absurd hfound hnot⟩⟩
  exact
    { leadIds := hrest.leadIds
      created := hrest.created
      dedupedOut := by
        have hcount := hrest.dedupedOut
        dsimp only at hcount
        rw [List.length_cons]
        omega
      received := hrest.received
      keeps := hrest.keeps
      stored := hrest.stored
      creates := hrest.creates.trans hsame.symm
      unmodified := fun hs => hrest.unmodified (hsame.1 hs) }

theorem Stores.keeps (h : Stores env campaign turn t t₁ id) :
    KeepsKeys t t₁ ∧ ∃ lead, (id, lead) ∈ t₁.rows := by
  rcases h with ⟨q, hq, rfl, -, -, hkeeps⟩ | ⟨-, -, lead, -, -, hrows⟩
  · obtain ⟨⟨i, lead⟩, hlead, hi, -⟩ := hkeeps q hq
    obtain rfl : i = q.1 := hi
    exact ⟨hkeeps, lead, hlead⟩
  · exact ⟨keepsKeys_of_subset fun q hq => (hrows q).2 (Or.inl hq), lead, (hrows _).2 (Or.inr rfl)⟩

/-- The new leads of a contact that is not known and of the others. -/
theorem Stores.exact {ids : List Nat}
    (hnotFound : ¬ Found env (addresses campaign.id t) (turn.email env))
    (h : Stores env campaign turn t t₁ id)
    (hrest : LoopResult env campaign turns t₁ t' result result' ids) :
    (CreatesNew env campaign.id t t' (id :: ids) ↔
      SameFindings env (turn :: turns) (addresses campaign.id t)) ∧
        (SameFindings env (turn :: turns) (addresses campaign.id t) → ∀ q ∈ t.rows, q ∈ t'.rows) := by
  rcases h with ⟨q, hq, hid, hcampaign, hemail, -⟩ | ⟨hnew, hids, lead, hcampaign, hemail, hrows⟩
  · -- the id of a merge is an old one
    have hno : ¬ SameFindings env (turn :: turns) (addresses campaign.id t) := fun hs =>
      (hs.2 hnotFound).1 (Or.inl ⟨q, hq, hcampaign, hemail⟩)
    exact ⟨iff_of_false (fun hc => hc.new id List.mem_cons_self q hq hid) hno,
      fun hs => absurd hs hno⟩
  · rw [← hemail] at hnew
    have hinsert := addresses_insert hcampaign hrows
    rw [hemail] at hinsert
    have hsame : SameFindings env (turn :: turns) (addresses campaign.id t) ↔
        isKnownToCrm env lead.email ≠ .ok true ∧
          SameFindings env turns (addresses campaign.id t₁) := by
      rw [hinsert, hemail]
      constructor
      · intro hs
        obtain ⟨hfound, hs⟩ := hs.2 hnotFound
        exact ⟨fun hknown => hfound (Or.inr hknown), hs⟩
      · rintro ⟨hcrm, hs⟩
        refine ⟨fun hfound => absurd hfound hnotFound, fun _ => ⟨?_, hs⟩⟩
        rintro (hmem | hknown)
        · exact hnew (hemail ▸ hmem)
        · exact hcrm hknown
    constructor
    · rw [createsNew_cons_iff hids hcampaign hrows hnew hrest.keeps, hsame, hrest.creates]
    · intro hs q hq
      exact hrest.unmodified (hsame.1 hs).2 q ((hrows q).2 (Or.inl hq))

/-- **Step**: a contact that is not known, and then the others. -/
theorem LoopResult.of_stores {ids : List Nat}
    (hnotFound : ¬ Found env (addresses campaign.id t) (turn.email env))
    (h : Stores env campaign turn t t₁ id)
    (hrest : LoopResult env campaign turns t₁ t'
      { result with created := result.created + 1, leadIds := result.leadIds ++ [id] } result' ids) :
    LoopResult env campaign (turn :: turns) t t' result result' (id :: ids) where
  leadIds := by rw [hrest.leadIds, List.append_assoc, List.singleton_append]
  created := by
    have hcount := hrest.created
    dsimp only at hcount
    rw [List.length_cons]
    omega
  dedupedOut := by
    have hcount := hrest.dedupedOut
    dsimp only at hcount
    rw [List.length_cons, List.length_cons]
    omega
  received := hrest.received
  keeps := h.keeps.1.trans hrest.keeps
  stored := by
    intro i hi
    rcases List.mem_cons.1 hi with rfl | hi
    · obtain ⟨lead, hlead⟩ := h.keeps.2
      obtain ⟨⟨i', lead'⟩, hlead', hi', -⟩ := hrest.keeps _ hlead
      obtain rfl : i' = i := hi'
      exact ⟨lead', hlead'⟩
    · exact hrest.stored i hi
  creates := (h.exact hnotFound hrest).1
  unmodified := (h.exact hnotFound hrest).2

/-- **Run of the loop**, by the contacts that are left. -/
theorem ingestLoop_ok (hslug : getBySlug env.campaigns prospectingCampaignSlug = some campaign)
    (h : ingestLoop env signal campaign turns t result = (t', .ok result')) :
    ∃ ids, LoopResult env campaign turns t t' result result' ids := by
  induction turns generalizing t result with
  | nil =>
      cases h
      exact ⟨[], LoopResult.nil _ _⟩
  | cons turn turns ih =>
      rw [ingestLoop] at h
      split at h
      · cases h
      · rename_i hduplicate
        obtain ⟨ids, hrest⟩ := ih h
        exact ⟨ids, hrest.of_found ((isDuplicate_eq_ok hduplicate).1 rfl)⟩
      · rename_i hduplicate
        have hnotFound : ¬ Found env (addresses campaign.id t) (turn.email env) := by
          intro hfound
          cases (isDuplicate_eq_ok hduplicate).2 hfound
        split at h
        · cases h
        · rename_i t₁ id hstore
          obtain ⟨ids, hrest⟩ := ih h
          exact ⟨id :: ids, hrest.of_stores hnotFound (storeContact_ok hslug hstore)⟩

/-! ## The run as a whole -/

/-- The contacts that a run comes to: without a domain or a campaign there are none. -/
def examined (env : IngestEnv) (signal : ProspectCompanySignal) (turns : List ContactTurn) :
    List ContactTurn :=
  match signalDomain env signal, getBySlug env.campaigns prospectingCampaignSlug with
  | .ok domain, some _ => if domain = "" then [] else turns
  | _, _ => []

/-- The campaign of a run. -/
def prospectingId (env : IngestEnv) : Nat :=
  ((getBySlug env.campaigns prospectingCampaignSlug).map Campaign.id).getD 0

/-- A run without contacts. -/
theorem accounted_nil (campaignId : Nat) (t : LeadTable) (domain : Option String) :
    Accounted env campaignId t t { domain } where
  received := rfl
  created := rfl
  creates := ⟨List.nodup_nil, List.forall_mem_nil _, List.forall_mem_nil _⟩
  stored := List.forall_mem_nil _
  unmodified := fun _ hq => hq

/-- **Exactness of the accounts.** When a run returns, whatever the language model has answered, it
accounts for every contact exactly when no lead's address is found where its contact's is not. -/
theorem ingest_accounted_iff (h : ingestCompanySignal env signal turns t = (t', .ok result)) :
    Accounted env (prospectingId env) t t' result ↔
      SameFindings env (examined env signal turns) (addresses (prospectingId env) t) := by
  rw [ingestCompanySignal] at h
  rw [examined, prospectingId]
  cases hdomain : signalDomain env signal with
  | error e =>
      rw [hdomain] at h
      cases h
  | ok domain =>
      rw [hdomain] at h
      dsimp only at h
      split at h
      · rename_i hempty
        cases h
        refine iff_of_true (accounted_nil _ t none) ?_
        cases getBySlug env.campaigns prospectingCampaignSlug with
        | none => trivial
        | some campaign =>
            dsimp only
            rw [if_pos hempty]
            trivial
      · rename_i hdomain'
        cases hslug : getBySlug env.campaigns prospectingCampaignSlug with
        | none =>
            rw [hslug] at h
            cases h
            exact iff_of_true (accounted_nil _ t (some domain)) trivial
        | some campaign =>
            rw [hslug] at h
            obtain ⟨ids, hresult⟩ := ingestLoop_ok hslug h
            have hids : result.leadIds = ids := hresult.leadIds
            dsimp only [Option.map_some, Option.getD_some]
            rw [if_neg hdomain', ← hresult.creates, ← hids]
            constructor
            · exact fun haccounted => haccounted.creates
            · intro hcreates
              have hreceived : result.received = turns.length := hresult.received
              have hcreated : result.created = 0 + ids.length := hresult.created
              have hdeduped : result.dedupedOut + ids.length = 0 + turns.length := hresult.dedupedOut
              refine ⟨?_, ?_, hcreates, ?_, ?_⟩
              · omega
              · rw [hids]
                omega
              · rw [hids]
                exact hresult.stored
              · rw [hids] at hcreates
                exact hresult.unmodified (hresult.creates.1 hcreates)

/-- So it does when the request model leaves the addresses as they are. -/
theorem sameFindings_of_stable {emails : Set String}
    (hstable : ∀ turn ∈ turns, turn.leadEmail env = turn.email env) :
    SameFindings env turns emails := by
  induction turns generalizing emails with
  | nil => trivial
  | cons turn turns ih =>
      obtain ⟨hturn, hturns⟩ := List.forall_mem_cons.1 hstable
      refine ⟨fun _ => ih hturns, fun hnotFound => ⟨?_, ih hturns⟩⟩
      rw [hturn]
      exact hnotFound

end Proofs

/-! ## Two runs -/

/-- The prospecting campaign, open and with an empty configuration. -/
def openProspecting : Campaign where
  id := 1
  slug := prospectingCampaignSlug
  status := .active
  config := ⟨[], [], none, none, none, [], [], none⟩

def signalWithDomain : ProspectCompanySignal where
  organization := [("primary_domain", .str "x.ng")]
  triggerEvent := none
  triggerType := none
  articleUrl := none
  industrySector := none
  leadTier := none
  icpScore := none

/-- `j` with a caron, as two characters. -/
def twoCharacters : String := String.ofList ['j', Char.ofNat 0x30C, '@', 'x', '.', 'n', 'g']

/-- The same letter as one character, its normal form. -/
def oneCharacter : EmailStr :=
  ⟨String.ofList [Char.ofNat 0x1F0, '@', 'x', '.', 'n', 'g'], by decide⟩

/-- The normal form of the small letter; the capital one has none of its own. -/
def composingEnv : IngestEnv where
  lib := integerLib
  campaigns := [openProspecting]
  freshsalesLeadSyncEnabled := false
  lookupContactByEmail := fun _ => .ok false
  emailStr := fun s =>
    if s = twoCharacters then some oneCharacter
    else if h : '@' ∈ s.toList then some ⟨s, h⟩ else none

/-- A contact that is not scored. -/
def unscoredTurn (email : EmailStr) : ContactTurn where
  contact := ⟨"Ada", "Lovelace", email, none, none, none, []⟩
  now := ⟨0, some 0⟩
  answer := .raised

def shouting : EmailStr := ⟨"ADA@x.ng", by decide⟩

/-- A call that has returned. -/
theorem eq_of_returned {α β ε : Type} {x : α × Except ε β} {b : β} (h : x.2.toOption = some b) :
    x = (x.1, .ok b) := Prod.ext rfl (eq_ok_of_toOption h)

/-- The same address in two letter cases. -/
def twoCases : List ContactTurn := [unscoredTurn adaEmail, unscoredTurn shouting]

theorem ingest_two_cases : Accounted composingEnv 1 (Table.empty _)
    (ingestCompanySignal composingEnv signalWithDomain twoCases (Table.empty _)).1
    ⟨some "x.ng", 2, 1, 1, [1]⟩ := by
  have hreturns : (ingestCompanySignal composingEnv signalWithDomain twoCases
      (Table.empty _)).2.toOption = some ⟨some "x.ng", 2, 1, 1, [1]⟩ := by decide +kernel
  have hstable : ∀ turn ∈ twoCases, turn.leadEmail composingEnv = turn.email composingEnv := by
    decide +kernel
  have hexamined : examined composingEnv signalWithDomain twoCases = twoCases := rfl
  have hid : prospectingId composingEnv = 1 := rfl
  have hiff := ingest_accounted_iff (eq_of_returned hreturns)
  rw [hexamined, hid] at hiff
  exact hiff.2 (sameFindings_of_stable hstable)

/-- The capital letter with a caron, as two characters. -/
def capitalCaron : EmailStr :=
  ⟨String.ofList ['J', Char.ofNat 0x30C, '@', 'x', '.', 'n', 'g'], by decide⟩

/-- The same contact twice. -/
def twice : List ContactTurn := [unscoredTurn capitalCaron, unscoredTurn capitalCaron]

/-- It is captured once and reported twice. -/
theorem ingest_twice_created : ∃ t' result,
    ingestCompanySignal composingEnv signalWithDomain twice (Table.empty _) = (t', .ok result) ∧
      ¬ Accounted composingEnv 1 (Table.empty _) t' result := by
  have hreturns : (ingestCompanySignal composingEnv signalWithDomain twice
      (Table.empty _)).2.toOption = some ⟨some "x.ng", 2, 0, 2, [1, 1]⟩ := by decide +kernel
  refine ⟨_, _, eq_of_returned hreturns, ?_⟩
  intro h
  exact absurd h.creates.distinct (by decide)

end SalesTrades.Leads.IcpScoring
