import SalesTrades.Emails.Rollups
import SalesTrades.Leads.CrmRuns
import SalesTrades.Leads.TriageRace

/-!
# A late retry of a capture

The world of the CRM syncs with the email events and the triage columns, and every operation on it. An
operation that merges no submission into a lead keeps what the last submission left there (`Carries`):
the submitted columns, the identity, and the consent. So however late the same submission comes again,
it is merged into the row it left, which has all its columns already (`late_retry_absorbed`).
-/

set_option autoImplicit false

namespace SalesTrades.Leads

open SalesTrades.Library SalesTrades.Library.Run SalesTrades.Emails Relation

/-! ## Operations -/

/-- The columns that `set_triage` writes, with the defaults of the table. -/
structure TriageColumns where
  triageStatus : TriageStatus := .new
  triageAt : Option Int := none
  triageBy : Option String := none
  deriving DecidableEq

/-- The world of the syncs, the rows of `email_events`, and the triage columns of each lead. -/
structure LeadWorld extends CrmWorld where
  events : EmailEventTable
  triage : Nat → TriageColumns

/-- An operation of the syncs and deliveries, a batch of email events, or a triage of a lead. Events
are looked up in the campaigns `scanned`, which may have any `config`. -/
inductive LeadAct where
  | crm (act : CrmAct)
  | ingestEvents (scanned : List CampaignRow) (batch : List (PostedEvent × EventClock))
  | setTriage (id : Nat) (status : TriageStatus) (now : Int) (user : Option String)

/-- One operation, run on its own. -/
def leadStep (lib : Lib) : LeadAct → LeadWorld → Option LeadWorld
  | .crm act, w =>
      (crmStep lib.text act w.toCrmWorld).map fun crm => { w with toCrmWorld := crm }
  | .ingestEvents scanned batch, w =>
      let after := (ingestEvents lib scanned batch ⟨w.leads, w.events⟩).1
      some { w with leads := after.leads, events := after.events }
  | .setTriage id status now user, w =>
      match w.leads.get? id with
      -- 404
      | none => some w
      | some _ => some { w with triage := Function.update w.triage id ⟨status, some now, user⟩ }

/-- `capture_lead_created` on the world. -/
def captureOn (lib : Lib) (slug : String) (payload : LeadCreateRequest) (now : Datetime)
    (missed : Bool) (w : LeadWorld) : LeadWorld × Except CaptureError (LeadRow × Bool) :=
  let result := captureLeadCreated lib.text w.campaigns.list slug payload now missed w.leads
  ({ w with leads := result.1 }, result.2)

/-- The operation merges a submission into the lead. -/
def ResubmitsInto (lib : Lib) (id : Nat) : LeadAct → LeadWorld → Prop
  | .crm act, w => ∃ x ∈ merging lib.text act w.toCrmWorld, x.2.2.1 = id
  | .ingestEvents _ _, _ => False
  | .setTriage _ _ _ _, _ => False

/-- The submission of an operation. -/
def LeadAct.submission : LeadAct → Option (String × LeadCreateRequest)
  | .crm (.pack act _) => act.submission
  | _ => none

/-- Operations without a submission merge none. -/
theorem guarded_of_submitsNothing {lib : Lib} {id : Nat} {acts : List LeadAct} {w : LeadWorld}
    (h : ∀ act ∈ acts, act.submission = none) :
    Guarded (leadStep lib) (fun act w => ¬ ResubmitsInto lib id act w) acts w := by
  refine (guarded_of_forall h w).mono fun act w hnone => ?_
  cases act with
  | crm act =>
      rintro ⟨x, hx, -⟩
      cases act with
      | pack act fixed =>
          have hnothing : act.submission = none := hnone
          simp [merging, hnothing] at hx
      | _ => cases hx
  | ingestEvents scanned batch => exact fun h => h
  | setTriage leadId status now user => exact fun h => h

/-! ## What a submission leaves -/

/-- The lead has what the submission sets: the columns of the payload, the identity, and the time of a
consent that was given. -/
structure Carries (py : LowerCase) (campaign : Campaign) (payload : LeadCreateRequest) (l : Lead) :
    Prop where
  submitted : l.toSubmitted = submittedBy campaign payload
  campaignId : l.campaignId = campaign.id
  email : l.email = normaliseEmail py payload.email
  consented : payload.consentStatus = true → l.consentAt ≠ none

/-- What the other operations keep of a lead. -/
structure KeepsSubmission (l l' : Lead) : Prop extends SameLead l l' where
  consentAt : l'.consentAt = l.consentAt

section Columns

variable {py : LowerCase} {campaign : Campaign} {payload : LeadCreateRequest}

theorem KeepsSubmission.refl (l : Lead) : KeepsSubmission l l := ⟨⟨rfl, rfl, rfl⟩, rfl⟩

theorem KeepsSubmission.carries {l l' : Lead} (h : KeepsSubmission l l')
    (hl : Carries py campaign payload l) : Carries py campaign payload l' where
  submitted := h.submitted.trans hl.submitted
  campaignId := h.campaignId.trans hl.campaignId
  email := h.email.trans hl.email
  consented hconsent := h.consentAt ▸ hl.consented hconsent

/-- A merge gives the lead a consent time when the submission consents, and keeps one that is there. -/
theorem mergedLead_consentAt (now : Datetime) (existing : Option Lead) :
    (mergedLead py campaign payload now existing).consentAt =
      if payload.consentStatus ∧ (existing.bind Lead.consentAt) = none then
        some (payload.capturedAt.getD now)
      else existing.bind Lead.consentAt := by
  cases existing with
  | none => rfl
  | some l => rfl

/-- A submission leaves its columns, whether it makes a new lead or is merged into one of its own
campaign and email. -/
theorem mergedLead_carries (now : Datetime) {existing : Option Lead}
    (hkey : ∀ l ∈ existing, l.campaignId = campaign.id ∧ l.email = normaliseEmail py payload.email) :
    Carries py campaign payload (mergedLead py campaign payload now existing) := by
  have hconsented : payload.consentStatus = true →
      (mergedLead py campaign payload now existing).consentAt ≠ none := by
    intro hconsent
    rw [mergedLead_consentAt]
    split
    · exact Option.some_ne_none _
    · rename_i hset
      exact fun hnone => hset ⟨hconsent, hnone⟩
  cases existing with
  | none => exact ⟨rfl, rfl, rfl, hconsented⟩
  | some l =>
      obtain ⟨hcampaign, hemail⟩ := hkey l rfl
      exact ⟨rfl, hcampaign, hemail, hconsented⟩

/-! ## What the operations keep -/

theorem markSent_consentAt (lead : Lead) (labels : List String) (now : Datetime) :
    (markSent lead labels now).consentAt = lead.consentAt := by
  unfold markSent flagCrmRefresh
  split
  · rfl
  · rfl

theorem deliverPack_keeps (transport : Bool) (lead : Lead) (campaign : Campaign) (a : Attempt) :
    KeepsSubmission lead (deliverPack transport lead campaign a).1 := by
  refine ⟨sameLead_deliverPack transport lead campaign a, ?_⟩
  unfold deliverPack
  split
  · unfold withoutMaterials
    split
    · rfl
    · rfl
  · split
    · rfl
    · unfold afterSend
      split
      · exact markSent_consentAt _ _ _
      · rfl

theorem deliverViewing_keeps (transport : Bool) (lead : Lead) (campaign : Campaign) (a : Attempt) :
    KeepsSubmission lead ((deliverViewing transport lead campaign a).1.getD lead) := by
  refine ⟨sameLead_deliverViewing transport lead campaign a, ?_⟩
  simp only [deliverViewing]
  -- nothing is stored, or the lead is marked
  split
  · rfl
  · split
    · rfl
    · exact markSent_consentAt _ _ _

theorem recordOutcome_keeps (lead : Lead) (response : CrmResponse) (now : Datetime) :
    KeepsSubmission lead (recordOutcome lead response now) := by
  cases response with
  | contact id => exact ⟨⟨rfl, rfl, rfl⟩, rfl⟩
  | unusable message => exact ⟨⟨rfl, rfl, rfl⟩, rfl⟩
  | statusError message body => exact ⟨⟨rfl, rfl, rfl⟩, rfl⟩
  | error message => exact ⟨⟨rfl, rfl, rfl⟩, rfl⟩

theorem syncLead_keeps {globalSync force : Bool} {row : LeadRow} {answers : CrmAnswers}
    {now : Datetime} {lead : Lead}
    (h : (syncLead globalSync force campaign row answers now).1 = .ok lead) :
    KeepsSubmission row.2 lead := by
  by_cases hopen : globalSync = true ∧ campaign.syncEnabled force = true
  · obtain ⟨extra, -, -, hresult | ⟨e, hresult⟩⟩ := syncLead_open row answers now hopen.1 hopen.2
    · rw [hresult, Except.ok.injEq] at h
      rw [← h]
      exact recordOutcome_keeps _ _ _
    · rw [hresult] at h
      cases h
  · have hclosed : globalSync = false ∨ campaign.syncEnabled force = false := by
      rw [not_and_or, Bool.not_eq_true, Bool.not_eq_true] at hopen
      exact hopen
    rw [syncLead_closed hclosed, Except.ok.injEq] at h
    rw [← h]
    exact ⟨⟨rfl, rfl, rfl⟩, rfl⟩

theorem applyResult_keeps (lead : Lead) (result : ICPResult) :
    KeepsSubmission lead (applyResult lead result) := ⟨⟨rfl, rfl, rfl⟩, rfl⟩

theorem rollup_keeps {lead changed : Lead} {event : EmailEvent}
    (h : rollup lead event = some changed) : KeepsSubmission lead changed := by
  unfold rollup at h
  split at h
  · rw [← Option.some.inj h]
    exact ⟨⟨rfl, rfl, rfl⟩, rfl⟩
  · split at h
    · cases h
    · split at h
      · cases h
      · split at h
        · cases h
        · rw [← Option.some.inj h]
          exact ⟨⟨rfl, rfl, rfl⟩, rfl⟩
  · cases h

theorem rolledUp_keeps (lib : Lib) (clock : EventClock) (lead : Lead) (event : EmailEvent) :
    KeepsSubmission lead (rolledUp lib clock lead event) := by
  unfold rolledUp
  cases h : rollup lead event with
  | none => exact .refl lead
  | some changed =>
      have hkeeps := rollup_keeps h
      exact ⟨⟨hkeeps.submitted, hkeeps.campaignId, hkeeps.email⟩, hkeeps.consentAt⟩

end Columns

/-! ## The row of a lead -/

/-- The row `id` is there and has `P`. -/
def RowHas (P : Lead → Prop) (id : Nat) (t : LeadTable) : Prop := ∃ l, (id, l) ∈ t.rows ∧ P l

section Rows

variable {P : Lead → Prop} {id : Nat} {t t' : LeadTable}

theorem RowHas.insert {l : Lead} {new : Nat} (h : RowHas P id t)
    (hinsert : t.insert l = some (new, t')) : RowHas P id t' := by
  obtain ⟨l', hl', hP⟩ := h
  exact ⟨l', (Table.mem_of_insert hinsert).2 (Or.inl hl'), hP⟩

/-- An update of a row keeps `P` where it writes a lead that has it too. -/
theorem RowHas.update {row : LeadRow} {l : Lead} (h : RowHas P id t) (hrow : row ∈ t.rows)
    (hupdate : t.update row.1 l = some t') (hkeeps : row.1 = id → P row.2 → P l) :
    RowHas P id t' := by
  obtain ⟨l', hl', hP⟩ := h
  by_cases hid : row.1 = id
  · have hsame : row = (id, l') := t.eq_of_id hrow hl' hid
    refine ⟨l, (Table.mem_of_update hupdate).2 (Or.inr ⟨by rw [hid], row.2, hrow⟩), hkeeps hid ?_⟩
    rw [hsame]
    exact hP
  · exact ⟨l', (Table.mem_of_update hupdate).2 (Or.inl ⟨hl', fun heq => hid heq.symm⟩), hP⟩

/-- **Row step lemma.** Only a submission that is merged into the row can take away what operations
keep. -/
theorem RowHas.crmRowStep {py : LowerCase} {campaigns : List Campaign}
    {merges : Campaign → LeadCreateRequest → LeadRow → Prop} {packs : Lead → Prop}
    {scores : Lead → ICPResult → Prop} {s s' : Delivery × List Upsert}
    (hP : ∀ l l', KeepsSubmission l l' → P l → P l')
    (hmerges : ∀ campaign payload row, merges campaign payload row → row.1 ≠ id)
    (hstep : CrmRowStep py campaigns merges packs scores s s') (h : RowHas P id s.1.leads) :
    RowHas P id s'.1.leads := by
  cases hstep with
  | delivery hdelivery =>
      cases hdelivery with
      | created hcampaign hinsert => exact h.insert hinsert
      | merged hcampaign hsubmit hfound hupdate =>
          have hother := hmerges _ _ _ (hsubmit _ hfound)
          exact h.update (getByCampaignEmail_eq_some hfound).1 hupdate fun hid => absurd hid hother
      | packed hcampaign hrow hpacks hupdate =>
          exact h.update hrow hupdate fun _ => hP _ _ (deliverPack_keeps _ _ _ _)
      | viewed hcampaign hrow hupdate =>
          exact h.update hrow hupdate fun _ => hP _ _ (deliverViewing_keeps _ _ _ _)
  | delivered hcampaign hrow hlabels hupdate =>
      refine h.update hrow hupdate fun _ => hP _ _ ?_
      exact ⟨sameLead_markSent _ _ _, markSent_consentAt _ _ _⟩
  | synced hcampaign hrow hlead hupdate =>
      exact h.update hrow hupdate fun _ => hP _ _ (syncLead_keeps hlead)
  | raised hcampaign hrow => exact h
  | scored hrow hscores hupdate =>
      exact h.update hrow hupdate fun _ => hP _ _ (applyResult_keeps _ _)

theorem RowHas.crmRowSteps {py : LowerCase} {campaigns : List Campaign}
    {merges : Campaign → LeadCreateRequest → LeadRow → Prop} {packs : Lead → Prop}
    {scores : Lead → ICPResult → Prop} {s s' : Delivery × List Upsert}
    (hP : ∀ l l', KeepsSubmission l l' → P l → P l')
    (hmerges : ∀ campaign payload row, merges campaign payload row → row.1 ≠ id)
    (hsteps : ReflTransGen (CrmRowStep py campaigns merges packs scores) s s')
    (h : RowHas P id s.1.leads) : RowHas P id s'.1.leads := by
  induction hsteps with
  | refl => exact h
  | tail _ hstep ih => exact ih.crmRowStep hP hmerges hstep

/-- Events keep it, whatever they are. -/
theorem RowHas.ingestEvents {lib : Lib} {campaigns : List CampaignRow}
    (hP : ∀ l l', KeepsSubmission l l' → P l → P l') (batch : List (PostedEvent × EventClock))
    {w : EmailWorld} (h : RowHas P id w.leads) :
    RowHas P id (ingestEvents lib campaigns batch w).1.leads := by
  refine ingestEvents_preserves (P := fun w => RowHas P id w.leads) ?_ h
  intro x _ w hw
  rcases ingestOne_cases lib campaigns x.1 x.2 w with
    ⟨e, -, hingest⟩ | ⟨-, hingest⟩ | ⟨lead, event, w', hattribute, hingest, hstored⟩
  · rw [hingest]
    exact hw
  · rw [hingest]
    exact hw
  · rw [hingest]
    obtain ⟨_, -, -, -, hread⟩ := attributeEvent_eq_some.1 hattribute
    obtain ⟨-, -, -, hget⟩ := readEvent_row hread
    obtain ⟨l, hl, hPl⟩ := hw
    have hafter := hstored.leads id
    rw [Table.get?_eq_some_iff.2 hl, Option.map_some] at hafter
    -- the lead of the event, or another
    by_cases hid : id = lead.1
    · rw [if_pos hid] at hafter
      obtain rfl : lead = (id, l) := by
        rw [← hid, Table.get?_eq_some_iff.2 hl] at hget
        exact (Option.some.inj hget).symm
      exact ⟨_, (Table.mem_of_get? hafter).1, hP _ _ (rolledUp_keeps lib x.2 l event) hPl⟩
    · rw [if_neg hid] at hafter
      exact ⟨l, (Table.mem_of_get? hafter).1, hPl⟩

end Rows

/-- **Step lemma.** An operation that merges no submission into the lead keeps what such operations
keep of a lead. -/
theorem leadStep_keeps {lib : Lib} {P : Lead → Prop} {id : Nat} {act : LeadAct} {w w' : LeadWorld}
    (hP : ∀ l l', KeepsSubmission l l' → P l → P l') (hother : ¬ ResubmitsInto lib id act w)
    (hstep : leadStep lib act w = some w') (h : RowHas P id w.leads) :
    w'.campaigns = w.campaigns ∧ RowHas P id w'.leads := by
  cases act with
  | crm act =>
      simp only [leadStep, Option.map_eq_some_iff] at hstep
      obtain ⟨crm, hcrm, rfl⟩ := hstep
      have hmerges : ∀ x, merging lib.text act w.toCrmWorld = some x → x.2.2.1 ≠ id :=
        fun x hx hid => hother ⟨x, hx, hid⟩
      obtain ⟨hcampaigns, d, -, hfirst, hrest⟩ :=
        crmStep_rowSteps (fun _ _ row => row.1 ≠ id) (fun _ => True) (fun _ _ => True) hmerges
          (fun _ _ => trivial) (fun _ _ => Or.inl trivial) (fun _ _ => trivial) hcrm
      have hmid := RowHas.crmRowSteps hP (fun _ _ _ hne => hne) hfirst h
      exact ⟨hcampaigns, RowHas.crmRowSteps hP (fun _ _ _ hno => hno.elim) hrest hmid⟩
  | ingestEvents scanned batch =>
      cases hstep
      exact ⟨rfl, RowHas.ingestEvents hP batch (w := ⟨w.leads, w.events⟩) h⟩
  | setTriage leadId status now user =>
      simp only [leadStep] at hstep
      split at hstep
      · cases hstep
        exact ⟨rfl, h⟩
      · cases hstep
        exact ⟨rfl, h⟩

/-- **Run lemma.** -/
theorem leadRun_keeps {lib : Lib} {P : Lead → Prop} {id : Nat} {acts : List LeadAct}
    {w w' : LeadWorld} (hP : ∀ l l', KeepsSubmission l l' → P l → P l')
    (hothers : Guarded (leadStep lib) (fun act w => ¬ ResubmitsInto lib id act w) acts w)
    (hrun : exec (leadStep lib) acts w = some w') (h : RowHas P id w.leads) :
    w'.campaigns = w.campaigns ∧ RowHas P id w'.leads := by
  have hstep : ∀ act v v', (v.campaigns = w.campaigns ∧ RowHas P id v.leads) →
      ¬ ResubmitsInto lib id act v → leadStep lib act v = some v' →
      v'.campaigns = w.campaigns ∧ RowHas P id v'.leads := by
    intro act v v' hv hother hvv'
    obtain ⟨hcampaigns, hrow⟩ := leadStep_keeps hP hother hvv' hv.2
    exact ⟨hcampaigns.trans hv.1, hrow⟩
  exact (always_of_step hstep ⟨rfl, h⟩ hothers).last hrun

/-- Every operation can be called in every world. -/
theorem leadStep_isSome (lib : Lib) (act : LeadAct) (w : LeadWorld) :
    (leadStep lib act w).isSome = true := by
  cases act with
  | crm act => simpa [leadStep] using crmStep_isSome lib.text act w.toCrmWorld
  | ingestEvents scanned batch => rfl
  | setTriage id status now user =>
      simp only [leadStep]
      split
      · rfl
      · rfl

/-! ## The retry -/

/-- The same submission again adds nothing to a lead that carries it. -/
structure Absorbed (lead lead' : Lead) : Prop extends KeepsSubmission lead lead' where
  packDeliveredAt : lead'.packDeliveredAt = lead.packDeliveredAt
  packDeliveredMaterials : lead'.packDeliveredMaterials = lead.packDeliveredMaterials
  packOpenedAt : lead'.packOpenedAt = lead.packOpenedAt
  packOpenedCount : lead'.packOpenedCount = lead.packOpenedCount
  packClickedMaterials : lead'.packClickedMaterials = lead.packClickedMaterials
  icpScore : lead'.icpScore = lead.icpScore
  icpTier : lead'.icpTier = lead.icpTier
  icpRationale : lead'.icpRationale = lead.icpRationale
  staysSent : lead.packDeliveryStatus = .sent → lead'.packDeliveryStatus = .sent
  crmPending : lead'.crmSyncStatus = .pending

/-- A lead stays `sent` when the materials that come again are those it has. -/
theorem nextPackStatus_again {l : Lead} {payload : LeadCreateRequest}
    (hmaterials : l.requestedMaterials = payload.requestedMaterials)
    (hsent : l.packDeliveryStatus = .sent) :
    nextPackStatus (some l) (some l.packDeliveryStatus) (l.requestedMaterials.getD []) payload =
      .sent := by
  unfold nextPackStatus
  rw [hmaterials, hsent]
  simp

theorem mergedLead_absorbed {py : LowerCase} {campaign : Campaign} {payload : LeadCreateRequest}
    (now : Datetime) {l : Lead} (h : Carries py campaign payload l) :
    Absorbed l (mergedLead py campaign payload now (some l)) := by
  have hconsent : (mergedLead py campaign payload now (some l)).consentAt = l.consentAt := by
    rw [mergedLead_consentAt]
    -- a consent that is given has its time already
    apply if_neg
    exact fun hmissing => h.consented hmissing.1 hmissing.2
  have hmaterials : l.requestedMaterials = payload.requestedMaterials := by
    rw [h.submitted]
    rfl
  exact
    { submitted := h.submitted.symm
      campaignId := rfl
      email := rfl
      consentAt := hconsent
      packDeliveredAt := rfl
      packDeliveredMaterials := rfl
      packOpenedAt := rfl
      packOpenedCount := rfl
      packClickedMaterials := rfl
      icpScore := rfl
      icpTier := rfl
      icpRationale := rfl
      staysSent := nextPackStatus_again hmaterials
      crmPending := rfl }

/-- A capture that succeeds leaves a row that carries its submission, in an active campaign. -/
theorem captureLeadCreated_carries {py : LowerCase} {campaigns : List Campaign} {slug : String}
    {payload : LeadCreateRequest} {now : Datetime} {missed : Bool} {t t' : LeadTable} {row : LeadRow}
    {created : Bool}
    (h : captureLeadCreated py campaigns slug payload now missed t = (t', .ok (row, created))) :
    ∃ campaign, getBySlug campaigns slug = some campaign ∧ campaign.status = .active ∧
      RowHas (Carries py campaign payload) row.1 t' := by
  unfold captureLeadCreated at h
  cases hslug : getBySlug campaigns slug with
  | none =>
      rw [hslug] at h
      cases h
  | some campaign =>
      simp only [hslug] at h
      split at h
      · cases h
      · rename_i hactive
        rw [ne_eq, not_not] at hactive
        refine ⟨campaign, rfl, hactive, ?_⟩
        rcases captureInCampaign_spec py campaign payload now t (missedLookup_cases missed _) with
          ⟨found, t₁, hfound, hupdate, hcall⟩ | ⟨t₁, -, hinsert, hcall⟩
        · rw [hcall] at h
          cases h
          obtain ⟨hmem, hkey⟩ := getByCampaignEmail_eq_some hfound
          refine ⟨_, (Table.mem_of_update hupdate).2 (Or.inr ⟨rfl, found.2, hmem⟩), ?_⟩
          exact mergedLead_carries now fun l hl => Option.some.inj hl ▸ hkey
        · rw [hcall] at h
          cases h
          refine ⟨_, (Table.mem_of_insert hinsert).2 (Or.inr rfl), ?_⟩
          exact mergedLead_carries now fun l hl => by cases hl

/-- The same submission into a row that carries it: what the call returns and stores. -/
theorem captureLeadCreated_again {py : LowerCase} {campaigns : List Campaign} {slug : String}
    {campaign : Campaign} {payload : LeadCreateRequest} (now : Datetime) (missed : Bool)
    {t : LeadTable} {id : Nat} {l : Lead} (hslug : getBySlug campaigns slug = some campaign)
    (hactive : campaign.status = .active) (hrow : (id, l) ∈ t.rows)
    (h : Carries py campaign payload l) :
    ∃ t', t.update id (mergedLead py campaign payload now (some l)) = some t' ∧
      captureLeadCreated py campaigns slug payload now missed t =
        (t', .ok ((id, mergedLead py campaign payload now (some l)), false)) := by
  have hfound : getByCampaignEmail t campaign.id (normaliseEmail py payload.email) = some (id, l) :=
    getByCampaignEmail_of_mem hrow h.campaignId h.email
  have htarget : mergeTarget py campaigns slug payload t = some (id, l) := by
    simp [mergeTarget, hslug, hactive, hfound]
  rcases captureLeadCreated_spec py campaigns slug payload now missed t with
    ⟨hnone, -⟩ | ⟨campaign', row, t', hslug', -, hmerge, hupdate, hcall⟩ |
      ⟨campaign', t', -, hnone, -⟩
  · rw [htarget] at hnone
    cases hnone
  · obtain rfl : campaign = campaign' := Option.some.inj (hslug.symm.trans hslug')
    obtain rfl : (id, l) = row := Option.some.inj (htarget.symm.trans hmerge)
    exact ⟨t', hupdate, hcall⟩
  · rw [htarget] at hnone
    cases hnone

/-- The submission is merged into the row `id`: no row is added, no other row is changed, and this one
absorbs it. -/
def RetryAbsorbed (lib : Lib) (slug : String) (payload : LeadCreateRequest) (now : Datetime)
    (missed : Bool) (id : Nat) (w : LeadWorld) : Prop :=
  ∃ lead lead' t', w.leads.get? id = some (id, lead) ∧ t'.get? id = some (id, lead') ∧
    captureOn lib slug payload now missed w =
      ({ w with leads := t' }, .ok ((id, lead'), false)) ∧
    t'.rows.map Prod.fst = w.leads.rows.map Prod.fst ∧ w.leads.SameExcept id t' ∧
    Absorbed lead lead'

/-- **A late retry is absorbed.** A capture leaves a row that carries its submission, operations that
merge no other submission into it keep that, and such a row absorbs the submission. -/
theorem late_retry_absorbed {lib : Lib} {slug : String} {payload : LeadCreateRequest}
    {now : Datetime} {missed created : Bool} {w₀ w₁ w : LeadWorld} {id : Nat} {captured : Lead}
    {acts : List LeadAct}
    (hcapture : captureOn lib slug payload now missed w₀ = (w₁, .ok ((id, captured), created)))
    (hothers : Guarded (leadStep lib) (fun act w => ¬ ResubmitsInto lib id act w) acts w₁)
    (hrun : exec (leadStep lib) acts w₁ = some w) (now' : Datetime) (missed' : Bool) :
    RetryAbsorbed lib slug payload now' missed' id w := by
  simp only [captureOn, Prod.mk.injEq] at hcapture
  obtain ⟨hw₁, hresult⟩ := hcapture
  obtain ⟨campaign, hslug, hactive, hcarries⟩ :=
    captureLeadCreated_carries (Prod.ext rfl hresult)
  rw [← hw₁] at hothers hrun
  obtain ⟨hcampaigns, lead, hmem, hlead⟩ :=
    leadRun_keeps (fun _ _ hkeeps => hkeeps.carries) hothers hrun hcarries
  -- the retry finds the row and merges into it what it has
  obtain ⟨t', hupdate, hcall⟩ :=
    captureLeadCreated_again now' missed' (hcampaigns ▸ hslug) hactive hmem hlead
  refine ⟨lead, _, t', Table.get?_eq_some_iff.2 hmem, ?_, ?_, ?_,
    Table.sameExcept_update hupdate, mergedLead_absorbed now' hlead⟩
  · exact Table.get?_eq_some_iff.2 ((Table.mem_of_update hupdate).2 (Or.inr ⟨rfl, lead, hmem⟩))
  · simp only [captureOn, hcall]
  · rw [(Table.update_eq_some hupdate).1, List.map_map]
    apply List.map_congr_left
    intro q _
    rw [Function.comp_apply]
    split
    · rename_i hid
      exact hid.symm
    · rfl

/-- Nobody has asked for anything yet. -/
def beforeRequest : LeadWorld :=
  { standWorld with
    globalSync := true
    upserts := []
    events := Table.empty _
    triage := fun _ => {} }

/-- The world after Ada's request. -/
def requested : LeadWorld :=
  (captureOn plainLib "nog-2026" (packRequest ["Prospectus"]) ⟨0, some 0⟩ false beforeRequest).1

/-- A delivery, a triage and a score. -/
def afterwards : List LeadAct :=
  [.crm (.pack (.deliverPack 1 accepted) trivial), .setTriage 1 .contacted 0 (some "ada@x.ng"),
    .crm (.scoreLead 1 ⟨80, "A", "fits"⟩)]

/-- Ada's request comes again after them. -/
theorem request_retried_late : ∃ w, exec (leadStep plainLib) afterwards requested = some w ∧
    (w.leads.rows.map fun q => q.2.packDeliveryStatus) = [.sent] ∧
    RetryAbsorbed plainLib "nog-2026" (packRequest ["Prospectus"]) ⟨9, some 0⟩ false 1 w := by
  obtain ⟨w, hrun⟩ :=
    Option.isSome_iff_exists.1 (exec_isSome (leadStep_isSome plainLib) afterwards requested)
  have hsent : (exec (leadStep plainLib) afterwards requested).map
      (fun w => w.leads.rows.map fun q => q.2.packDeliveryStatus) = some [.sent] := by decide
  rw [hrun] at hsent
  refine ⟨w, hrun, Option.some.inj hsent, ?_⟩
  obtain ⟨lead, hcapture⟩ : ∃ lead, captureOn plainLib "nog-2026" (packRequest ["Prospectus"])
      ⟨0, some 0⟩ false beforeRequest = (requested, .ok ((1, lead), true)) := ⟨_, rfl⟩
  refine late_retry_absorbed hcapture ?_ hrun ⟨9, some 0⟩ false
  apply guarded_of_submitsNothing
  decide

end SalesTrades.Leads
