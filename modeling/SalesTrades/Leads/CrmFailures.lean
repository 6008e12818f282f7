import SalesTrades.Library.Sweep
import SalesTrades.Emails.Model
import SalesTrades.Leads.CrmRuns

/-!
# When the CRM sync of a lead raises

`sync_lead` with the check that PostgreSQL makes of the texts it is given, and `sync_pending` as a
sweep of its passes. Where the CRM answers with texts that can be stored this is the sweep of `CrmRuns`
(`syncPending_eq_storePending`). Two things leave `sync_lead` as an exception: a second participant
that has no `get`, and an answer that cannot be stored. Without them a sync records its outcome
(`syncRecorded_iff`), and a sweep the outcome of every lead it selects (`pendingRecorded_iff`).
-/

set_option autoImplicit false

namespace SalesTrades.Leads

open SalesTrades.Library SalesTrades.Library.Sweep SalesTrades.Emails

/-! ## The sync and its sweep -/

/-- The texts a sync writes can be stored. -/
def Lead.storable (l : Lead) : Bool := l.crmContactId.all isText && l.crmError.all isText

/-- `sync_lead` up to its `UPDATE`: the lead that is stored, or what is raised. -/
def syncOutcome (globalSync force : Bool) (campaign : Campaign) (row : LeadRow)
    (answers : CrmAnswers) (now : Datetime) : Except PyError Lead :=
  match (syncLead globalSync force campaign row answers now).1 with
  | .error e => .error e
  | .ok lead => if lead.storable then .ok lead else .error .dataError

/-- `sync_lead` on a row the session has loaded. -/
def storeSync (globalSync force : Bool) (campaign : Campaign) (row : LeadRow) (answers : CrmAnswers)
    (now : Datetime) (s : LeadTable × List Upsert) :
    (LeadTable × List Upsert) × Except PyError LeadRow :=
  let log := (syncLead globalSync force campaign row answers now).2 ++ s.2
  match syncOutcome globalSync force campaign row answers now with
  -- the upserts have been sent, whether the row is stored or not
  | .error e => ((s.1, log), .error e)
  | .ok lead =>
      match update s.1 row lead with
      | .error e => ((s.1, log), .error e)
      | .ok (row', t') => ((t', log), .ok row')

/-- One pass of the loop of `sync_pending`. -/
def syncPass (globalSync : Bool) (campaigns : List Campaign) (answers : Nat → CrmAnswers × Datetime)
    (row : LeadRow) (s : LeadTable × List Upsert) :
    (LeadTable × List Upsert) × Except PyError Nat :=
  match getCampaign campaigns row.2.campaignId with
  | none => (s, .ok 0)
  | some campaign =>
      let result := storeSync globalSync false campaign row (answers row.1).1 (answers row.1).2 s
      (result.1, result.2.map fun row' => if row'.2.crmSyncStatus = .synced then 1 else 0)

/-- The leads `sync_pending` selects. -/
def selectedLeads (globalSync : Bool) (t : LeadTable) (limit : Nat) : List LeadRow :=
  if globalSync then listPendingCrmSync t limit else []

/-- `sync_pending`. -/
def storePending (globalSync : Bool) (campaigns : List Campaign)
    (answers : Nat → CrmAnswers × Datetime) (limit : Nat) (s : LeadTable × List Upsert) :
    (LeadTable × List Upsert) × Except PyError Nat :=
  sweep (syncPass globalSync campaigns answers) (selectedLeads globalSync s.1 limit) s

/-! ## What leaves a sync -/

/-- The second participant of a form has a `get`, or is absent. -/
def SecondReadable (responses : Json) : Prop :=
  ∃ form second, responses.orElse (.obj []) = .obj form ∧
    (Json.member form "second_participant").orElse (.obj []) = .obj second

/-- What the answer puts on the lead can be stored. -/
def CrmResponse.storable : CrmResponse → Bool
  | .contact id => id.all isText
  | .statusError message body => isText (truncate s!"{message} | body: {body}")
  | .unusable message | .error message => isText (truncate message)

/-- The answer that counts: the second one when the first one rejects the status of a contact of the
website campaign. -/
def countedAnswer (campaign : Campaign) (answers : CrmAnswers) : CrmResponse :=
  match answers.first with
  | .statusError message body =>
      if campaign.slug = websiteSlug ∧ contactStatusErrorMarker.toList <:+: body.toList then
        answers.retry
      else .statusError message body
  | response => response

/-- The outcome of a sync on the lead. -/
def settledLead (globalSync force : Bool) (campaign : Campaign) (lead : Lead) (answers : CrmAnswers)
    (now : Datetime) : Lead :=
  if globalSync && campaign.syncEnabled force then
    recordOutcome lead (countedAnswer campaign answers) now
  else { lead with crmSyncStatus := .skipped }

/-- A sync behind open gates can read the second participant and store the answer. -/
def SyncSafe (globalSync force : Bool) (campaign : Campaign) (lead : Lead) (answers : CrmAnswers) :
    Prop :=
  globalSync = true → campaign.syncEnabled force = true →
    SecondReadable lead.responses ∧ (countedAnswer campaign answers).storable = true

section Sync

variable {globalSync force : Bool} {campaign : Campaign} {row : LeadRow} {answers : CrmAnswers}
  {now : Datetime} {s : LeadTable × List Upsert}

/-- The contact of the second participant is built, or found not to be needed, exactly when the form
can be read. -/
theorem secondPayload_ok_iff (lead : Lead) (campaign : Campaign) :
    (∃ payload, buildSecondParticipantContactPayload lead campaign = .ok payload) ↔
      SecondReadable lead.responses := by
  unfold buildSecondParticipantContactPayload SecondReadable
  constructor
  · rintro ⟨payload, h⟩
    obtain ⟨value, hvalue, h⟩ := bind_eq_ok.1 h
    obtain ⟨form, hform, rfl⟩ := get_eq_ok_iff.1 hvalue
    obtain ⟨email, hemail, -⟩ := bind_eq_ok.1 h
    obtain ⟨second, hsecond, -⟩ := get_eq_ok_iff.1 hemail
    exact ⟨form, second, hform, hsecond⟩
  · rintro ⟨form, second, hform, hsecond⟩
    -- once the email has been read, so can everything else be
    by_cases hemail : (Json.member second "email").truthy = true
    · exact ⟨_, by simp [hform, hsecond, Json.get, hemail, bind, Except.bind, pure, Except.pure]; rfl⟩
    · exact ⟨none, by simp [hform, hsecond, Json.get, hemail, bind, Except.bind, pure, Except.pure]⟩

theorem upsertContact_answer (id : Nat) (lead : Lead) (campaign : Campaign) (answers : CrmAnswers) :
    (upsertContactWithStatusFallback id (buildContactPayload lead campaign) answers).1 =
      countedAnswer campaign answers := by
  unfold upsertContactWithStatusFallback countedAnswer
  cases answers.first with
  | contact contactId => rfl
  | unusable message => rfl
  | error message => rfl
  | statusError message body =>
      by_cases hwebsite : campaign.slug = websiteSlug
      · by_cases hmarker : contactStatusErrorMarker.toList <:+: body.toList
        · simp [buildContactPayload, hwebsite, hmarker]
        · simp [hmarker]
      · simp [buildContactPayload, hwebsite]

theorem storable_recordOutcome {lead : Lead} (hlead : lead.storable = true) (response : CrmResponse)
    (now : Datetime) : (recordOutcome lead response now).storable = response.storable := by
  -- a failure leaves the contact id as it is
  have hid : lead.crmContactId.all isText = true := (Bool.and_eq_true_iff.1 hlead).1
  cases response with
  | contact id => exact Bool.and_true _
  | unusable message => simp [recordOutcome, Lead.storable, CrmResponse.storable, hid]
  | statusError message body => simp [recordOutcome, Lead.storable, CrmResponse.storable, hid]
  | error message => simp [recordOutcome, Lead.storable, CrmResponse.storable, hid]

/-- A sync with both gates open stores the outcome of the counted answer, if it can build the contact
of the second participant. -/
theorem syncLead_result (hglobal : globalSync = true) (hcampaign : campaign.syncEnabled force = true) :
    (syncLead globalSync force campaign row answers now).1 =
      (buildSecondParticipantContactPayload
        (recordOutcome row.2 (countedAnswer campaign answers) now) campaign).map fun _ =>
          recordOutcome row.2 (countedAnswer campaign answers) now := by
  have hanswer := upsertContact_answer row.1 row.2 campaign answers
  rw [syncLead, if_neg (by rw [hglobal, hcampaign]; decide)]
  cases hupsert : upsertContactWithStatusFallback row.1 (buildContactPayload row.2 campaign) answers with
  | mk response log =>
      obtain rfl : response = countedAnswer campaign answers := by rwa [hupsert] at hanswer
      dsimp only
      cases buildSecondParticipantContactPayload
          (recordOutcome row.2 (countedAnswer campaign answers) now) campaign with
      | error e => rfl
      | ok payload => cases payload <;> rfl

/-- The outcome of a sync that raises nothing, and when it raises nothing. -/
theorem syncOutcome_eq_ok_iff {lead : Lead} (hstorable : row.2.storable = true) :
    syncOutcome globalSync force campaign row answers now = .ok lead ↔
      SyncSafe globalSync force campaign row.2 answers ∧
        lead = settledLead globalSync force campaign row.2 answers now := by
  by_cases hopen : globalSync = true ∧ campaign.syncEnabled force = true
  · obtain ⟨hglobal, hcampaign⟩ := hopen
    have hsafe : SyncSafe globalSync force campaign row.2 answers ↔
        SecondReadable row.2.responses ∧ (countedAnswer campaign answers).storable = true :=
      ⟨fun h => h hglobal hcampaign, fun h _ _ => h⟩
    have hsettled : settledLead globalSync force campaign row.2 answers now =
        recordOutcome row.2 (countedAnswer campaign answers) now := by
      rw [settledLead, if_pos (by rw [hglobal, hcampaign]; rfl)]
    have hreadable : SecondReadable row.2.responses ↔ ∃ payload,
        buildSecondParticipantContactPayload
          (recordOutcome row.2 (countedAnswer campaign answers) now) campaign = .ok payload := by
      rw [secondPayload_ok_iff, (sameButCrm_recordOutcome row.2 _ now).submitted]
    rw [hsafe, hsettled, hreadable, syncOutcome, syncLead_result hglobal hcampaign]
    cases hsecond : buildSecondParticipantContactPayload
        (recordOutcome row.2 (countedAnswer campaign answers) now) campaign with
    | error e => simp [Except.map]
    | ok payload =>
        have hlead := storable_recordOutcome hstorable (countedAnswer campaign answers) now
        cases hanswer : (countedAnswer campaign answers).storable with
        | true =>
            rw [hanswer] at hlead
            simpa [Except.map, hlead] using eq_comm
        | false =>
            rw [hanswer] at hlead
            simp [Except.map, hlead]
  · have hclosed : globalSync = false ∨ campaign.syncEnabled force = false := by
      rw [not_and_or, Bool.not_eq_true, Bool.not_eq_true] at hopen
      exact hopen
    have hsafe : SyncSafe globalSync force campaign row.2 answers :=
      fun hglobal hcampaign => absurd ⟨hglobal, hcampaign⟩ hopen
    have hsettled : settledLead globalSync force campaign row.2 answers now =
        { row.2 with crmSyncStatus := .skipped } := by
      rw [settledLead, if_neg (by simpa using hopen)]
    have hskipped : ({ row.2 with crmSyncStatus := .skipped } : Lead).storable = true := hstorable
    rw [syncOutcome, syncLead_closed hclosed, hsettled]
    simpa [hskipped, hsafe] using eq_comm

/-- A sync keeps campaign and email, so an outcome that is no exception goes into the table. -/
theorem storeSync_ok {lead : Lead} (hrow : row ∈ s.1.rows)
    (h : syncOutcome globalSync force campaign row answers now = .ok lead) :
    ∃ t', s.1.update row.1 lead = some t' ∧
      storeSync globalSync force campaign row answers now s =
        ((t', (syncLead globalSync force campaign row answers now).2 ++ s.2),
          .ok (row.1, lead)) := by
  have hlead : (syncLead globalSync force campaign row answers now).1 = .ok lead := by
    unfold syncOutcome at h
    split at h
    · cases h
    · rename_i hlead
      split at h
      · exact hlead.trans h
      · cases h
  have hsame := sameButCrm_syncLead hlead
  obtain ⟨t', hupdate, htable⟩ := update_eq hrow hsame.campaignId hsame.email
  rw [Lead.write_current_loaded] at hupdate htable
  exact ⟨t', htable, by simp only [storeSync, h, hupdate]⟩

theorem storeSync_error {e : PyError}
    (h : syncOutcome globalSync force campaign row answers now = .error e) :
    storeSync globalSync force campaign row answers now s =
      ((s.1, (syncLead globalSync force campaign row answers now).2 ++ s.2), .error e) := by
  simp only [storeSync, h]

/-- `sync_lead` returns with its outcome recorded on the row. -/
def SyncRecorded (globalSync force : Bool) (campaign : Campaign) (row : LeadRow)
    (answers : CrmAnswers) (now : Datetime) (s : LeadTable × List Upsert) : Prop :=
  (storeSync globalSync force campaign row answers now s).2 =
      .ok (row.1, settledLead globalSync force campaign row.2 answers now) ∧
    (row.1, settledLead globalSync force campaign row.2 answers now) ∈
      (storeSync globalSync force campaign row answers now s).1.1.rows

/-- A sync of a stored lead records its outcome exactly when it is safe. -/
theorem syncRecorded_iff (hrow : row ∈ s.1.rows) (hstorable : row.2.storable = true) :
    SyncRecorded globalSync force campaign row answers now s ↔
      SyncSafe globalSync force campaign row.2 answers := by
  unfold SyncRecorded
  constructor
  · rintro ⟨hreturns, -⟩
    cases houtcome : syncOutcome globalSync force campaign row answers now with
    | error e =>
        rw [storeSync_error houtcome] at hreturns
        cases hreturns
    | ok lead => exact ((syncOutcome_eq_ok_iff hstorable).1 houtcome).1
  · intro hsafe
    obtain ⟨t', htable, hcall⟩ :=
      storeSync_ok hrow ((syncOutcome_eq_ok_iff hstorable).2 ⟨hsafe, rfl⟩)
    rw [hcall]
    exact ⟨rfl, (Table.mem_of_update htable).2 (Or.inr ⟨rfl, row.2, hrow⟩)⟩

end Sync

/-! ## What leaves a sweep -/

section Sweep

variable {globalSync : Bool} {campaigns : List Campaign} {answers : Nat → CrmAnswers × Datetime}
  {limit : Nat} {s : LeadTable × List Upsert}

/-- The outcome of the pass over a lead, `none` when the campaign is gone. -/
def passOutcome (globalSync : Bool) (campaigns : List Campaign)
    (answers : Nat → CrmAnswers × Datetime) (row : LeadRow) : Option (Except PyError Lead) :=
  (getCampaign campaigns row.2.campaignId).map fun campaign =>
    syncOutcome globalSync false campaign row (answers row.1).1 (answers row.1).2

theorem syncPass_rowVisits : RowVisits (fun s : LeadTable × List Upsert => s.1)
    (syncPass globalSync campaigns answers) (passOutcome globalSync campaigns answers) where
  passed row s h := by
    rw [passOutcome, Option.map_eq_none_iff] at h
    simp only [syncPass, h]
  raised row s e _ h := by
    obtain ⟨campaign, hcampaign, houtcome⟩ := Option.map_eq_some_iff.1 h
    rintro ⟨n, hn⟩
    simp only [syncPass, hcampaign, storeSync_error houtcome] at hn
    cases hn
  stored row s lead hrow h := by
    obtain ⟨campaign, hcampaign, houtcome⟩ := Option.map_eq_some_iff.1 h
    obtain ⟨t', htable, hcall⟩ := storeSync_ok hrow houtcome
    simp only [syncPass, hcampaign, hcall]
    exact ⟨⟨_, rfl⟩, htable⟩

/-- The selected leads are as they are stored, each once. -/
theorem selectedLeads_ready (globalSync : Bool) (limit : Nat) (s : LeadTable × List Upsert) :
    Ready (fun s : LeadTable × List Upsert => s.1) (selectedLeads globalSync s.1 limit) s := by
  cases globalSync with
  | false => exact ⟨List.forall_mem_nil _, List.nodup_nil⟩
  | true => exact ready_select _ _ limit s

/-- `sync_pending` reaches its end with the outcome of every selected lead recorded. -/
def PendingRecorded (globalSync : Bool) (campaigns : List Campaign)
    (answers : Nat → CrmAnswers × Datetime) (limit : Nat) (s : LeadTable × List Upsert) : Prop :=
  Completes (storePending globalSync campaigns answers limit s) ∧
    ∀ row ∈ selectedLeads globalSync s.1 limit, ∀ campaign,
      getCampaign campaigns row.2.campaignId = some campaign →
        (row.1, settledLead globalSync false campaign row.2 (answers row.1).1 (answers row.1).2) ∈
          (storePending globalSync campaigns answers limit s).1.1.rows

/-- A sweep over stored leads records the outcome of all that it selects exactly when the sync of each
of them is safe. -/
theorem pendingRecorded_iff (hstorable : ∀ row ∈ s.1.rows, row.2.storable = true) :
    PendingRecorded globalSync campaigns answers limit s ↔
      ∀ row ∈ selectedLeads globalSync s.1 limit, ∀ campaign,
        getCampaign campaigns row.2.campaignId = some campaign →
          SyncSafe globalSync false campaign row.2 (answers row.1).1 := by
  apply syncPass_rowVisits.settled_iff (selectedLeads_ready globalSync limit s)
  intro row hrow campaign lead
  exact syncOutcome_eq_ok_iff
    (hstorable row ((selectedLeads_ready globalSync limit s).1 row hrow))

/-! ## The sweep of the runs -/

/-- All that the CRM says about a lead can be stored. -/
def CrmAnswers.storable (answers : CrmAnswers) : Bool :=
  answers.first.storable && answers.retry.storable

theorem storable_countedAnswer {campaign : Campaign} {answers : CrmAnswers}
    (h : answers.storable = true) : (countedAnswer campaign answers).storable = true := by
  obtain ⟨hfirst, hretry⟩ := Bool.and_eq_true_iff.1 h
  unfold countedAnswer
  split
  · rename_i message body hanswer
    split
    · exact hretry
    · exact hanswer ▸ hfirst
  · exact hfirst

/-- The driver has nothing to reject then. -/
theorem syncOutcome_eq {force : Bool} {campaign : Campaign} {row : LeadRow} {answers : CrmAnswers}
    {now : Datetime} (hrow : row.2.storable = true) (hanswers : answers.storable = true) :
    syncOutcome globalSync force campaign row answers now =
      (syncLead globalSync force campaign row answers now).1 := by
  have hlead : ∀ lead, (syncLead globalSync force campaign row answers now).1 = .ok lead →
      lead.storable = true := by
    intro lead hlead
    by_cases hopen : globalSync = true ∧ campaign.syncEnabled force = true
    · rw [syncLead_result hopen.1 hopen.2] at hlead
      cases hsecond : buildSecondParticipantContactPayload
          (recordOutcome row.2 (countedAnswer campaign answers) now) campaign with
      | error e =>
          rw [hsecond] at hlead
          cases hlead
      | ok payload =>
          rw [hsecond, Except.map, Except.ok.injEq] at hlead
          rw [← hlead, storable_recordOutcome hrow]
          exact storable_countedAnswer hanswers
    · have hclosed : globalSync = false ∨ campaign.syncEnabled force = false := by
        rw [not_and_or, Bool.not_eq_true, Bool.not_eq_true] at hopen
        exact hopen
      rw [syncLead_closed hclosed, Except.ok.injEq] at hlead
      rw [← hlead]
      exact hrow
  unfold syncOutcome
  cases hresult : (syncLead globalSync force campaign row answers now).1 with
  | error e => rfl
  | ok lead => exact if_pos (hlead lead hresult)

/-- The leads and the upserts of a world of the runs. -/
def CrmWorld.synced (w : CrmWorld) : LeadTable × List Upsert := (w.leads, w.upserts)

/-- `w` with other leads and upserts. -/
def CrmWorld.withSynced (w : CrmWorld) (s : LeadTable × List Upsert) : CrmWorld :=
  { w with leads := s.1, upserts := s.2 }

theorem syncLeadTo_eq {force : Bool} {campaign : Campaign} {row : LeadRow} {answers : CrmAnswers}
    {now : Datetime} (w : CrmWorld) (hrow : row.2.storable = true)
    (hanswers : answers.storable = true) :
    syncLeadTo force campaign row answers now w =
      (w.withSynced (storeSync w.globalSync force campaign row answers now w.synced).1,
        (storeSync w.globalSync force campaign row answers now w.synced).2) := by
  rw [storeSync, syncOutcome_eq hrow hanswers]
  unfold syncLeadTo
  cases hresult : syncLead w.globalSync force campaign row answers now with
  | mk result log =>
      cases result with
      | error e => rfl
      | ok lead =>
          cases hupdate : update w.leads row lead <;>
            simp only [hupdate, CrmWorld.synced, CrmWorld.withSynced]

theorem syncLoop_eq {rows : List LeadRow} (w : CrmWorld)
    (hrows : ∀ row ∈ rows, row.2.storable = true) (hanswers : ∀ id, (answers id).1.storable = true) :
    syncLoop answers rows w =
      (w.withSynced (sweep (syncPass w.globalSync w.campaigns.list answers) rows w.synced).1,
        (sweep (syncPass w.globalSync w.campaigns.list answers) rows w.synced).2) := by
  induction rows generalizing w with
  | nil => rfl
  | cons row rest ih =>
      obtain ⟨hrow, hrest⟩ := List.forall_mem_cons.1 hrows
      rw [syncLoop]
      cases hcampaign : getCampaign w.campaigns.list row.2.campaignId with
      | none =>
          have hpass : syncPass w.globalSync w.campaigns.list answers row w.synced =
              (w.synced, .ok 0) := by
            simp only [syncPass, hcampaign]
          dsimp only
          rw [sweep_cons_ok hpass, ih w hrest]
          cases (sweep (syncPass w.globalSync w.campaigns.list answers) rest w.synced).2 <;> rfl
      | some campaign =>
          dsimp only
          rw [syncLeadTo_eq w hrow (hanswers row.1)]
          cases hstore : storeSync w.globalSync false campaign row (answers row.1).1
              (answers row.1).2 w.synced with
          | mk s' result =>
              cases result with
              | error e =>
                  have hpass : syncPass w.globalSync w.campaigns.list answers row w.synced =
                      (s', .error e) := by
                    simp only [syncPass, hcampaign, hstore, Except.map]
                  rw [sweep_cons_error hpass]
              | ok row' =>
                  have hpass : syncPass w.globalSync w.campaigns.list answers row w.synced =
                      (s', .ok (if row'.2.crmSyncStatus = .synced then 1 else 0)) := by
                    simp only [syncPass, hcampaign, hstore, Except.map]
                  dsimp only
                  rw [sweep_cons_ok hpass, ih (w.withSynced s') hrest]
                  rfl

/-- **The two sweeps agree.** Where everything can be stored, the sweep is the one of the runs. -/
theorem syncPending_eq_storePending (limit : Nat) (w : CrmWorld)
    (hrows : ∀ row ∈ w.leads.rows, row.2.storable = true)
    (hanswers : ∀ id, (answers id).1.storable = true) :
    syncPending answers limit w =
      (w.withSynced (storePending w.globalSync w.campaigns.list answers limit w.synced).1,
        (storePending w.globalSync w.campaigns.list answers limit w.synced).2) := by
  have hselected : ∀ row ∈ listPendingCrmSync w.leads limit, row.2.storable = true :=
    fun row hrow => hrows row (Table.mem_select.1 (List.mem_of_mem_take hrow)).1
  have hloop := syncLoop_eq w hselected hanswers
  unfold syncPending storePending selectedLeads
  cases hglobal : w.globalSync with
  | false => rfl
  | true =>
      rw [hglobal] at hloop
      exact hloop

end Sweep

end SalesTrades.Leads
