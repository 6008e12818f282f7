import SalesTrades.Leads.CrmSync

/-!
# Runs of captures, deliveries and CRM syncs

The world of `PackRuns` with the upserts, and the operations on it: those of the pack delivery under a
fixed configuration, `sync_lead`, `sync_pending`, the creation of a lead by prospecting and the two
writes of an ICP score. Whatever an operation does, it does in a sequence of `CrmRowStep`s, the
submission first (`crmStep_rowSteps`). A delivery by hand to a lead that `packs` excludes has to be
one that reaches the lead.
-/

set_option autoImplicit false

namespace SalesTrades.Leads

open SalesTrades.Library SalesTrades.Library.Run Relation

/-! ## Operations -/

/-- The world of the pack delivery, `freshsales_lead_sync_enabled`, and the upserts, newest first. -/
structure CrmWorld extends PackWorld where
  globalSync : Bool
  upserts : List Upsert

/-- `sync_lead` on a row the session has loaded. -/
def syncLeadTo (force : Bool) (campaign : Campaign) (row : LeadRow) (answers : CrmAnswers)
    (now : Datetime) (w : CrmWorld) : CrmWorld × Except PyError LeadRow :=
  let (result, log) := syncLead w.globalSync force campaign row answers now
  let w' := { w with upserts := log ++ w.upserts }
  match result with
  | .error e => (w', .error e)
  | .ok lead =>
      match update w.leads row lead with
      | .error e => (w', .error e)
      | .ok (row', t') => ({ w' with leads := t' }, .ok row')

/-- `list_pending_crm_sync` with the statuses of the sweep: oldest first. -/
def listPendingCrmSync (t : LeadTable) (limit : Nat) : List LeadRow :=
  (t.select fun l => l.crmSyncStatus == .failed || l.crmSyncStatus == .pending).take limit

/-- The loop of `sync_pending`; `answers` says how the sync of each row goes, and when. -/
def syncLoop (answers : Nat → CrmAnswers × Datetime) :
    List LeadRow → CrmWorld → CrmWorld × Except PyError Nat
  | [], w => (w, .ok 0)
  | row :: rest, w =>
      match getCampaign w.campaigns.list row.2.campaignId with
      | none => syncLoop answers rest w
      | some campaign =>
          match syncLeadTo false campaign row (answers row.1).1 (answers row.1).2 w with
          | (w', .error e) => (w', .error e)
          | (w', .ok result) =>
              let outcome := syncLoop answers rest w'
              (outcome.1, outcome.2.map (· + if result.2.crmSyncStatus = .synced then 1 else 0))

/-- `sync_pending`. -/
def syncPending (answers : Nat → CrmAnswers × Datetime) (limit : Nat) (w : CrmWorld) :
    CrmWorld × Except PyError Nat :=
  if !w.globalSync then (w, .ok 0)
  else syncLoop answers (listPendingCrmSync w.leads limit) w

def prospectingCampaignSlug : String := "ai-prospecting"

/-- A contact in the loop of `ingest_company_signal`, up to its scoring: `payload` is the request
built from it, `known` what `_is_known_to_crm` says. -/
def ingestContact (py : LowerCase) (campaigns : List Campaign) (payload : LeadCreateRequest)
    (known : Bool) (now : Datetime) (t : LeadTable) : LeadTable :=
  match getBySlug campaigns prospectingCampaignSlug with
  | none => t
  | some campaign =>
      if (getByCampaignEmail t campaign.id (normaliseEmail py payload.email)).isSome || known then t
      else (captureLeadCreated py campaigns prospectingCampaignSlug payload now false t).1

/-- The fields of `ICPResult` that are stored. -/
structure ICPResult where
  icpScore : Int
  leadTier : String
  rationale : String

/-- `_apply_result`, and the same three lines of `ingest_company_signal`. -/
def applyResult (lead : Lead) (result : ICPResult) : Lead :=
  { lead with
    icpScore := some result.icpScore
    icpTier := some result.leadTier
    icpRationale := some result.rationale }

/-- The operations. A pack operation does not edit the campaigns; `scoreLead` is the write after
prospecting, `scoreUnscored` that of the script, which skips a lead with a score. -/
inductive CrmAct where
  | pack (act : PackAct) (fixed : act.KeepsConfig)
  | syncLead (id : Nat) (force : Bool) (answers : CrmAnswers) (now : Datetime)
  | syncPending (limit : Nat) (answers : Nat → CrmAnswers × Datetime)
  | prospect (payload : LeadCreateRequest) (known : Bool) (now : Datetime)
  | scoreLead (id : Nat) (result : ICPResult)
  | scoreUnscored (id : Nat) (result : ICPResult)
  | setGlobalSync (globalSync : Bool)

/-- The lead whose score an operation writes. -/
def scoring : CrmAct → CrmWorld → Option (LeadRow × ICPResult)
  | .scoreLead id result, w => (w.leads.get? id).map fun row => (row, result)
  | .scoreUnscored id result, w =>
      ((w.leads.get? id).filter fun row => row.2.icpScore.isNone).map fun row => (row, result)
  | _, _ => none

/-- The write of a score. -/
def writeScore (target : Option (LeadRow × ICPResult)) (t : LeadTable) : LeadTable :=
  match target with
  | none => t
  | some (row, result) =>
      match update t row (applyResult row.2 result) with
      | .error _ => t
      | .ok (_, t') => t'

/-- One operation, run on its own. -/
def crmStep (py : LowerCase) : CrmAct → CrmWorld → Option CrmWorld
  | .pack act _, w => (packStep py act w.toPackWorld).map fun p => { w with toPackWorld := p }
  | .syncLead id force answers now, w =>
      match leadAndCampaign w.toPackWorld id with
      | none => some w
      | some (row, campaign) => some (syncLeadTo force campaign row answers now w).1
  | .syncPending limit answers, w => some (syncPending answers limit w).1
  | .prospect payload known now, w =>
      some { w with leads := ingestContact py w.campaigns.list payload known now w.leads }
  | .scoreLead id result, w =>
      some { w with leads := writeScore (scoring (.scoreLead id result) w) w.leads }
  | .scoreUnscored id result, w =>
      some { w with leads := writeScore (scoring (.scoreUnscored id result) w) w.leads }
  | .setGlobalSync globalSync, w => some { w with globalSync := globalSync }

/-- Every operation can be called in every world. -/
theorem crmStep_isSome (py : LowerCase) (act : CrmAct) (w : CrmWorld) :
    (crmStep py act w).isSome = true := by
  cases act with
  | pack act fixed =>
      cases act with
      | deliverPack id a =>
          simp only [crmStep, packStep]
          split <;> rfl
      | deliverViewing id a =>
          simp only [crmStep, packStep]
          split <;> rfl
      | _ => rfl
  | syncLead id force answers now =>
      simp only [crmStep]
      split <;> rfl
  | _ => rfl

/-! ## What an operation is about -/

/-- The submission of an operation with its campaign, and the row it is merged into. -/
def merging (py : LowerCase) : CrmAct → CrmWorld → Option (Campaign × LeadCreateRequest × LeadRow)
  | .pack act _, w =>
      act.submission.bind fun s => (getBySlug w.campaigns.list s.1).bind fun campaign =>
        if campaign.status ≠ .active then none
        else (getByCampaignEmail w.leads campaign.id (normaliseEmail py s.2.email)).map fun row =>
          (campaign, s.2, row)
  | _, _ => none

/-- The pack that an operation sends by hand, whatever the status of the lead. -/
def handDelivery : CrmAct → CrmWorld → Option (LeadRow × Campaign × Attempt)
  | .pack (.deliverPack id a) _, w =>
      (leadAndCampaign w.toPackWorld id).map fun p => (p.1, p.2, a)
  | .pack (.resend campaignId leadId a) _, w =>
      (leadAndCampaign w.toPackWorld leadId).bind fun p =>
        if p.1.2.campaignId ≠ campaignId ∨
            p.1.2.inspectionRequested ∧ p.1.2.requestedMaterials.getD [] = [] then none
        else some (p.1, p.2, a)
  | _, _ => none

/-- The key is set, there is something to deliver, and the email is accepted. -/
def Delivers (transport : Bool) (lead : Lead) (campaign : Campaign) (a : Attempt) : Prop :=
  transport = true ∧ deliverableLabels lead campaign ≠ [] ∧ a.accepted = true

instance (transport : Bool) (lead : Lead) (campaign : Campaign) (a : Attempt) :
    Decidable (Delivers transport lead campaign a) :=
  inferInstanceAs (Decidable (_ ∧ _))

theorem handDelivery_spec {act : CrmAct} {w : CrmWorld} {row : LeadRow} {campaign : Campaign}
    {a : Attempt} (h : handDelivery act w = some (row, campaign, a)) :
    row ∈ w.leads.rows ∧ getCampaign w.campaigns.list row.2.campaignId = some campaign := by
  cases act with
  | pack act fixed =>
      cases act with
      | deliverPack id a =>
          simp only [handDelivery, Option.map_eq_some_iff, Prod.mk.injEq] at h
          obtain ⟨p, hlead, rfl, rfl, -⟩ := h
          exact leadAndCampaign_eq_some hlead
      | resend campaignId leadId a =>
          simp only [handDelivery, Option.bind_eq_some_iff] at h
          obtain ⟨p, hlead, h⟩ := h
          split at h
          · cases h
          · simp only [Option.some.injEq, Prod.mk.injEq] at h
            obtain ⟨rfl, rfl, -⟩ := h
            exact leadAndCampaign_eq_some hlead
      | _ => cases h
  | _ => cases h

/-- An operation that sends a pack by hand does nothing else. -/
theorem crmStep_handDelivery {py : LowerCase} {act : CrmAct} {w w' : CrmWorld} {row : LeadRow}
    {campaign : Campaign} {a : Attempt} (hhand : handDelivery act w = some (row, campaign, a))
    (h : crmStep py act w = some w') :
    w' = { w with toDelivery := (deliverPackTo w.transport campaign row a w.toDelivery).1 } := by
  cases act with
  | pack act fixed =>
      simp only [crmStep, Option.map_eq_some_iff] at h
      obtain ⟨p, hp, rfl⟩ := h
      cases act with
      | deliverPack id a =>
          simp only [handDelivery, Option.map_eq_some_iff, Prod.mk.injEq] at hhand
          obtain ⟨p, hlead, rfl, rfl, rfl⟩ := hhand
          simp only [packStep, hlead, Option.some.injEq] at hp
          rw [← hp]
      | resend campaignId leadId a =>
          simp only [handDelivery, leadAndCampaign, Option.bind_eq_some_iff,
            Option.map_eq_some_iff] at hhand
          obtain ⟨p, ⟨row', hget, campaign', hcampaign, rfl⟩, hhand⟩ := hhand
          split at hhand
          · cases hhand
          · rename_i hpack
            simp only [Option.some.injEq, Prod.mk.injEq] at hhand
            obtain ⟨rfl, rfl, rfl⟩ := hhand
            simp only [not_or, ne_eq, not_not] at hpack
            obtain ⟨rfl, hpack⟩ := hpack
            simp only [packStep, resendLeadPack, hcampaign, hget, ne_eq, not_true_eq_false,
              if_false, hpack, Option.some.injEq] at hp
            rw [← hp]
      | _ => cases hhand
  | _ => cases hhand

/-! ## Row steps -/

/-- The part of the world that the operations change, the switches apart. -/
def CrmWorld.state (w : CrmWorld) : Delivery × List Upsert := (w.toDelivery, w.upserts)

/-- A submission meets only rows it may be merged into. -/
def SubmitsInto (py : LowerCase) (merges : Campaign → LeadCreateRequest → LeadRow → Prop)
    (d : Delivery) (campaign : Campaign) (payload : LeadCreateRequest) : Prop :=
  ∀ row, getByCampaignEmail d.leads campaign.id (normaliseEmail py payload.email) = some row →
    merges campaign payload row

/-- What can happen to the leads, the mails and the upserts. `merges` is the condition under which a
submission is merged into a row, `packs` the one under which `deliver_pack` is called on a lead with
any outcome, `scores` the one under which a score is written. -/
inductive CrmRowStep (py : LowerCase) (campaigns : List Campaign)
    (merges : Campaign → LeadCreateRequest → LeadRow → Prop) (packs : Lead → Prop)
    (scores : Lead → ICPResult → Prop) : Delivery × List Upsert → Delivery × List Upsert → Prop where
  | delivery {d d' : Delivery} {log : List Upsert}
      (hstep : RowStep py campaigns (SubmitsInto py merges) packs d d') :
      CrmRowStep py campaigns merges packs scores (d, log) (d', log)
  | delivered {d : Delivery} {log : List Upsert} {campaign : Campaign} {row : LeadRow}
      {now : Datetime} {t' : LeadTable}
      (hcampaign : getCampaign campaigns row.2.campaignId = some campaign)
      (hrow : row ∈ d.leads.rows) (hlabels : deliverableLabels row.2 campaign ≠ [])
      (hupdate : d.leads.update row.1 (markSent row.2 (deliverableLabels row.2 campaign) now) =
        some t') :
      CrmRowStep py campaigns merges packs scores (d, log)
        (⟨t', .pack row.1 (deliverableLabels row.2 campaign) :: d.log⟩, log)
  | synced {d : Delivery} {log : List Upsert} {campaign : Campaign} {row : LeadRow}
      {globalSync force : Bool} {answers : CrmAnswers} {now : Datetime} {lead : Lead} {t' : LeadTable}
      (hcampaign : getCampaign campaigns row.2.campaignId = some campaign)
      (hrow : row ∈ d.leads.rows)
      (hlead : (syncLead globalSync force campaign row answers now).1 = .ok lead)
      (hupdate : d.leads.update row.1 lead = some t') :
      CrmRowStep py campaigns merges packs scores (d, log)
        (⟨t', d.log⟩, (syncLead globalSync force campaign row answers now).2 ++ log)
  | raised {d : Delivery} {log : List Upsert} {campaign : Campaign} {row : LeadRow}
      {globalSync force : Bool} {answers : CrmAnswers} {now : Datetime}
      (hcampaign : getCampaign campaigns row.2.campaignId = some campaign)
      (hrow : row ∈ d.leads.rows) :
      CrmRowStep py campaigns merges packs scores (d, log)
        (d, (syncLead globalSync force campaign row answers now).2 ++ log)
  | scored {d : Delivery} {log : List Upsert} {row : LeadRow} {result : ICPResult} {t' : LeadTable}
      (hrow : row ∈ d.leads.rows) (hscores : scores row.2 result)
      (hupdate : d.leads.update row.1 (applyResult row.2 result) = some t') :
      CrmRowStep py campaigns merges packs scores (d, log) (⟨t', d.log⟩, log)

section RowSteps

variable {py : LowerCase} {merges : Campaign → LeadCreateRequest → LeadRow → Prop}
  {packs : Lead → Prop} {scores : Lead → ICPResult → Prop} {w : CrmWorld}

/-- The row steps of the pack delivery. -/
theorem deliverySteps {campaigns : List Campaign} {d d' : Delivery} (log : List Upsert)
    (h : ReflTransGen (RowStep py campaigns (SubmitsInto py merges) packs) d d') :
    ReflTransGen (CrmRowStep py campaigns merges packs scores) (d, log) (d', log) :=
  h.lift (fun d => (d, log)) fun _ _ hstep => .delivery hstep

/-- A pack sent by hand is a row step when `packs` allows it or it reaches the lead. -/
theorem handDelivery_rowStep {campaigns : List Campaign} {d : Delivery} (log : List Upsert)
    {transport : Bool} {campaign : Campaign} {row : LeadRow} {a : Attempt}
    (hcampaign : getCampaign campaigns row.2.campaignId = some campaign) (hrow : row ∈ d.leads.rows)
    (hhand : packs row.2 ∨ Delivers transport row.2 campaign a) :
    CrmRowStep py campaigns merges packs scores (d, log)
      ((deliverPackTo transport campaign row a d).1, log) := by
  rcases hhand with hpacks | ⟨htransport, hlabels, haccepted⟩
  · exact .delivery (deliverPackTo_rowStep a hcampaign hrow hpacks)
  · obtain ⟨t', hupdate, hcall⟩ := deliverPackTo_spec transport campaign a hrow
    have hmail := packMail_eq transport campaign row a
    rw [if_pos ⟨hlabels, htransport, haccepted⟩] at hmail
    have hsent : (deliverPack transport row.2 campaign a).1 =
        markSent row.2 (deliverableLabels row.2 campaign) a.now := by
      rcases deliverPack_cases transport row.2 campaign a with ⟨hnone, -⟩ | ⟨-, hoff, -⟩ |
        ⟨-, -, -, hmarked, -⟩ | ⟨-, -, hrejected, -⟩
      · exact absurd hnone hlabels
      · rw [htransport] at hoff
        cases hoff
      · exact hmarked
      · rw [haccepted] at hrejected
        cases hrejected
    rw [hsent] at hupdate
    rw [hcall, hmail]
    exact .delivered hcampaign hrow hlabels hupdate

/-- `sync_lead` on a row that is stored as it was loaded. -/
theorem syncLeadTo_spec (force : Bool) (campaign : Campaign) {row : LeadRow} (answers : CrmAnswers)
    (now : Datetime) (hrow : row ∈ w.leads.rows) :
    (∃ lead t', (syncLead w.globalSync force campaign row answers now).1 = .ok lead ∧
      w.leads.update row.1 lead = some t' ∧
      syncLeadTo force campaign row answers now w =
        ({ w with
            leads := t'
            upserts := (syncLead w.globalSync force campaign row answers now).2 ++ w.upserts },
          .ok (row.1, lead))) ∨
    ∃ e, syncLeadTo force campaign row answers now w =
        ({ w with
            upserts := (syncLead w.globalSync force campaign row answers now).2 ++ w.upserts },
          .error e) := by
  unfold syncLeadTo
  dsimp only
  cases hresult : (syncLead w.globalSync force campaign row answers now).1 with
  | error e => exact Or.inr ⟨e, rfl⟩
  | ok lead =>
      left
      have hsame := sameButCrm_syncLead hresult
      obtain ⟨t', hupdate, htable⟩ := update_eq hrow hsame.campaignId hsame.email
      rw [Lead.write_current_loaded] at hupdate htable
      refine ⟨lead, t', rfl, htable, ?_⟩
      simp only [hupdate]

/-- A sync keeps the switches and the campaigns, and is a row step. -/
theorem syncLeadTo_rowStep (force : Bool) {campaign : Campaign} {row : LeadRow}
    (answers : CrmAnswers) (now : Datetime)
    (hcampaign : getCampaign w.campaigns.list row.2.campaignId = some campaign)
    (hrow : row ∈ w.leads.rows) :
    (syncLeadTo force campaign row answers now w).1.campaigns = w.campaigns ∧
      CrmRowStep py w.campaigns.list merges packs scores w.state
        (syncLeadTo force campaign row answers now w).1.state := by
  rcases syncLeadTo_spec force campaign answers now hrow with ⟨lead, t', hlead, hupdate, hcall⟩ |
    ⟨e, hcall⟩
  · rw [hcall]
    exact ⟨rfl, .synced hcampaign hrow hlead hupdate⟩
  · rw [hcall]
    exact ⟨rfl, .raised hcampaign hrow⟩

/-- The loop of the sweep: its rows are stored as they were loaded when their turn comes. -/
theorem syncLoop_rowSteps (answers : Nat → CrmAnswers × Datetime) {rows : List LeadRow}
    (hmem : ∀ q ∈ rows, q ∈ w.leads.rows) (hnodup : rows.Nodup) :
    (syncLoop answers rows w).1.campaigns = w.campaigns ∧
      ReflTransGen (CrmRowStep py w.campaigns.list merges packs scores) w.state
        (syncLoop answers rows w).1.state := by
  induction rows generalizing w with
  | nil => exact ⟨rfl, .refl⟩
  | cons row rest ih =>
      obtain ⟨hrow, hrest⟩ := List.forall_mem_cons.1 hmem
      obtain ⟨hnot, hnodup⟩ := List.nodup_cons.1 hnodup
      rw [syncLoop]
      cases hcampaign : getCampaign w.campaigns.list row.2.campaignId with
      | none => exact ih hrest hnodup
      | some campaign =>
          obtain ⟨hkeeps, hstep⟩ : _ ∧ CrmRowStep py w.campaigns.list merges packs scores w.state
              (syncLeadTo false campaign row (answers row.1).1 (answers row.1).2 w).1.state :=
            syncLeadTo_rowStep false (answers row.1).1 (answers row.1).2 hcampaign hrow
          rcases syncLeadTo_spec false campaign (answers row.1).1 (answers row.1).2 hrow with
            ⟨lead, t', -, hupdate, hcall⟩ | ⟨e, hcall⟩
          · rw [hcall] at hkeeps hstep
            simp only [hcall]
            refine (ih ?_ hnodup).imp (fun h => h.trans hkeeps) fun hsteps => .head hstep ?_
            · intro q hq
              refine (Table.mem_of_update hupdate).2 (Or.inl ⟨hrest q hq, fun hid => ?_⟩)
              exact hnot (w.leads.eq_of_id (hrest q hq) hrow hid ▸ hq)
            · exact hsteps
          · simp only [hcall]
            rw [hcall] at hstep
            exact ⟨trivial, .single hstep⟩

theorem syncPending_rowSteps (answers : Nat → CrmAnswers × Datetime) (limit : Nat) :
    (syncPending answers limit w).1.campaigns = w.campaigns ∧
      ReflTransGen (CrmRowStep py w.campaigns.list merges packs scores) w.state
        (syncPending answers limit w).1.state := by
  unfold syncPending
  split
  · exact ⟨rfl, .refl⟩
  · apply syncLoop_rowSteps answers
    · exact fun q hq => (Table.mem_select.1 (List.mem_of_mem_take hq)).1
    · exact w.leads.nodup_select _ limit

theorem mem_of_scoring {act : CrmAct} {row : LeadRow} {result : ICPResult}
    (h : scoring act w = some (row, result)) : row ∈ w.leads.rows := by
  cases act with
  | scoreLead id r =>
      simp only [scoring, Option.map_eq_some_iff, Prod.mk.injEq] at h
      obtain ⟨row', hget, rfl, -⟩ := h
      exact (Table.mem_of_get? hget).1
  | scoreUnscored id r =>
      simp only [scoring, Option.map_eq_some_iff, Option.filter_eq_some_iff, Prod.mk.injEq] at h
      obtain ⟨row', ⟨hget, -⟩, rfl, -⟩ := h
      exact (Table.mem_of_get? hget).1
  | _ => cases h

/-- A write of a score goes through. -/
theorem writeScore_spec {t : LeadTable} {row : LeadRow} (result : ICPResult) (hrow : row ∈ t.rows) :
    ∃ t', t.update row.1 (applyResult row.2 result) = some t' ∧
      writeScore (some (row, result)) t = t' := by
  obtain ⟨t', hupdate, htable⟩ := update_eq hrow
    (show (applyResult row.2 result).campaignId = row.2.campaignId from rfl) rfl
  rw [Lead.write_current_loaded] at hupdate htable
  exact ⟨t', htable, by simp only [writeScore, hupdate]⟩

theorem writeScore_rowSteps {campaigns : List Campaign} {act : CrmAct}
    (hscores : ∀ x, scoring act w = some x → scores x.1.2 x.2) :
    ReflTransGen (CrmRowStep py campaigns merges packs scores) w.state
      (⟨writeScore (scoring act w) w.leads, w.log⟩, w.upserts) := by
  cases htarget : scoring act w with
  | none => exact .refl
  | some x =>
      obtain ⟨row, result⟩ := x
      have hrow := mem_of_scoring htarget
      obtain ⟨t', hupdate, hwrite⟩ := writeScore_spec result hrow
      rw [hwrite]
      exact .single (.scored hrow (hscores _ htarget) hupdate)

/-- A submission is at most one row step, and leaves the row it returns on the table. -/
theorem submission_rowSteps (packs : Lead → Prop) (scores : Lead → ICPResult → Prop)
    {campaigns : Campaigns} {d : Delivery} {slug : String} {payload : LeadCreateRequest}
    (now : Datetime) (missed : Bool) (log : List Upsert)
    (hmerges : ∀ campaign row, getBySlug campaigns.list slug = some campaign →
      campaign.status = .active →
      getByCampaignEmail d.leads campaign.id (normaliseEmail py payload.email) = some row →
        merges campaign payload row) :
    ReflTransGen (CrmRowStep py campaigns.list merges packs scores) (d, log)
        (⟨(captureLeadCreated py campaigns.list slug payload now missed d.leads).1, d.log⟩, log) ∧
      ∀ row created,
        (captureLeadCreated py campaigns.list slug payload now missed d.leads).2 =
          .ok (row, created) →
        row ∈ (captureLeadCreated py campaigns.list slug payload now missed d.leads).1.rows := by
  by_cases hactive : ∀ campaign, getBySlug campaigns.list slug = some campaign →
      campaign.status = .active
  · have hsubmit : ∀ campaign, getBySlug campaigns.list slug = some campaign →
        SubmitsInto py merges d campaign payload :=
      fun campaign hslug row hfound => hmerges campaign row hslug (hactive campaign hslug) hfound
    obtain ⟨hsteps, hrow⟩ := captureLeadCreated_rowSteps packs now missed hsubmit
    exact ⟨deliverySteps log hsteps, hrow⟩
  · -- a campaign that is not active rejects the submission
    push Not at hactive
    obtain ⟨campaign, hslug, hinactive⟩ := hactive
    simp only [captureLeadCreated, hslug, if_pos hinactive]
    exact ⟨.refl, by simp⟩

/-- The pack that a resend sends is one sent by hand; a viewing it sends is a row step as any other. -/
theorem resend_rowSteps {campaignId leadId : Nat} {a : Attempt}
    {fixed : (PackAct.resend campaignId leadId a).KeepsConfig}
    (hhand : ∀ x, handDelivery (.pack (.resend campaignId leadId a) fixed) w = some x →
      packs x.1.2 ∨ Delivers w.transport x.1.2 x.2.1 x.2.2) :
    ReflTransGen (CrmRowStep py w.campaigns.list merges packs scores) w.state
      ((resendLeadPack w.transport w.campaigns.list campaignId leadId a w.toDelivery).1,
        w.upserts) := by
  unfold resendLeadPack
  cases hcampaign : getCampaign w.campaigns.list campaignId with
  | none => exact .refl
  | some campaign =>
      cases hget : w.leads.get? leadId with
      | none => exact .refl
      | some row =>
          obtain ⟨hrow, -⟩ := Table.mem_of_get? hget
          dsimp only
          split
          · exact .refl
          · rename_i hsame
            rw [ne_eq, not_not] at hsame
            subst hsame
            split
            · exact .single (.delivery (deliverViewingTo_rowStep a hcampaign hrow))
            · rename_i hpack
              refine .single (handDelivery_rowStep w.upserts hcampaign hrow
                (hhand (row, campaign, a) ?_))
              simp [handDelivery, leadAndCampaign, hget, hcampaign, hpack]

/-- An operation of the pack delivery that submits nothing. -/
theorem packAct_rowSteps {act : PackAct} {p : PackWorld} (fixed : act.KeepsConfig)
    (hnone : act.submission = none) (hwaiting : ∀ l, waiting l = true → packs l)
    (hhand : ∀ x, handDelivery (.pack act fixed) w = some x →
      packs x.1.2 ∨ Delivers w.transport x.1.2 x.2.1 x.2.2)
    (hp : packStep py act w.toPackWorld = some p) :
    p.campaigns = w.campaigns ∧
      ReflTransGen (CrmRowStep py w.campaigns.list merges packs scores) w.state
        (p.toDelivery, w.upserts) := by
  cases act with
  | submit slug payload now missed => cases hnone
  | capture slug payload now missed pack viewing => cases hnone
  | configure campaignId status config => exact fixed.elim
  | deliverPack id a =>
      simp only [packStep] at hp
      split at hp
      · simp only [Option.some.injEq] at hp
        subst hp
        exact ⟨rfl, .refl⟩
      · rename_i row campaign hlead
        simp only [Option.some.injEq] at hp
        subst hp
        obtain ⟨hrow, hcampaign⟩ := leadAndCampaign_eq_some hlead
        exact ⟨rfl, .single (handDelivery_rowStep w.upserts hcampaign hrow
          (hhand (row, campaign, a) (by simp [handDelivery, hlead])))⟩
  | deliverViewing id a =>
      simp only [packStep] at hp
      split at hp
      · simp only [Option.some.injEq] at hp
        subst hp
        exact ⟨rfl, .refl⟩
      · rename_i hlead
        simp only [Option.some.injEq] at hp
        subst hp
        obtain ⟨hrow, hcampaign⟩ := leadAndCampaign_eq_some hlead
        exact ⟨rfl, .single (.delivery (deliverViewingTo_rowStep a hcampaign hrow))⟩
  | sweep limit attempts =>
      simp only [packStep, Option.some.injEq] at hp
      subst hp
      obtain ⟨d', n, hsweep, hsteps, -⟩ := deliverPending_spec py (SubmitsInto py merges) hwaiting
        w.transport w.campaigns.list attempts limit w.toDelivery
      refine ⟨rfl, ?_⟩
      simp only [hsweep]
      exact deliverySteps w.upserts hsteps
  | resend campaignId leadId a =>
      simp only [packStep, Option.some.injEq] at hp
      subst hp
      exact ⟨rfl, resend_rowSteps hhand⟩
  | setTransport transport =>
      simp only [packStep, Option.some.injEq] at hp
      subst hp
      exact ⟨rfl, .refl⟩

/-- An operation of the pack delivery that submits a form: the submission, and then what the endpoint
delivers. -/
theorem packAct_submits {act : PackAct} {p : PackWorld} {slug : String}
    {payload : LeadCreateRequest} (fixed : act.KeepsConfig)
    (hsubmission : act.submission = some (slug, payload))
    (hwaiting : ∀ l, waiting l = true → packs l)
    (hmerges : ∀ x, merging py (.pack act fixed) w = some x → merges x.1 x.2.1 x.2.2)
    (hp : packStep py act w.toPackWorld = some p) :
    p.campaigns = w.campaigns ∧ ∃ d, d.log = w.log ∧
      ReflTransGen (CrmRowStep py w.campaigns.list merges packs scores) w.state (d, w.upserts) ∧
      ReflTransGen (CrmRowStep py w.campaigns.list (fun _ _ _ => False) packs scores)
        (d, w.upserts) (p.toDelivery, w.upserts) := by
  have hmeets : ∀ campaign row, getBySlug w.campaigns.list slug = some campaign →
      campaign.status = .active →
      getByCampaignEmail w.leads campaign.id (normaliseEmail py payload.email) = some row →
        merges campaign payload row := by
    intro campaign row hslug hactive hfound
    exact hmerges (campaign, payload, row) (by
      simp [merging, hsubmission, hslug, hactive, hfound])
  cases act with
  | submit slug payload now missed =>
      cases hsubmission
      simp only [packStep, Option.some.injEq] at hp
      subst hp
      exact ⟨rfl, ⟨(captureLeadCreated py w.campaigns.list slug payload now missed w.leads).1, w.log⟩,
        rfl, (submission_rowSteps packs scores now missed w.upserts hmeets).1, .refl⟩
  | capture slug payload now missed pack viewing =>
      cases hsubmission
      simp only [packStep, Option.some.injEq] at hp
      subst hp
      obtain ⟨hsteps, hrow⟩ := submission_rowSteps packs scores (d := w.toDelivery) now missed
        w.upserts hmeets
      refine ⟨rfl, ⟨(captureLeadCreated py w.campaigns.list (strip slug) payload now missed
        w.leads).1, w.log⟩, rfl, hsteps, ?_⟩
      simp only [captureLead]
      split
      · rename_i hcall
        rw [hcall]
      · rename_i t' row created hcall
        rw [hcall] at hrow ⊢
        exact deliverySteps w.upserts
          (deliverCaptured_rowSteps hwaiting created pack viewing (hrow row created rfl))
  | _ => cases hsubmission

/-- Prospecting captures a contact only after its lookup has found no row, so it merges into none. -/
theorem ingestContact_rowSteps (payload : LeadCreateRequest) (known : Bool) (now : Datetime) :
    ReflTransGen (CrmRowStep py w.campaigns.list merges packs scores) w.state
      (⟨ingestContact py w.campaigns.list payload known now w.leads, w.log⟩, w.upserts) := by
  unfold ingestContact
  cases hslug : getBySlug w.campaigns.list prospectingCampaignSlug with
  | none => exact .refl
  | some campaign =>
      dsimp only
      split
      · exact .refl
      · rename_i hnew
        refine (submission_rowSteps _ scores (d := w.toDelivery) now false w.upserts ?_).1
        intro campaign' row hslug' _ hfound
        rw [hslug, Option.some.injEq] at hslug'
        subst hslug'
        simp [hfound] at hnew

/-- **What an operation does.** A submission, and then deliveries, syncs and scores. -/
theorem crmStep_rowSteps (merges : Campaign → LeadCreateRequest → LeadRow → Prop)
    (packs : Lead → Prop) (scores : Lead → ICPResult → Prop) {act : CrmAct} {w' : CrmWorld}
    (hmerges : ∀ x, merging py act w = some x → merges x.1 x.2.1 x.2.2)
    (hwaiting : ∀ l, waiting l = true → packs l)
    (hhand : ∀ x, handDelivery act w = some x →
      packs x.1.2 ∨ Delivers w.transport x.1.2 x.2.1 x.2.2)
    (hscores : ∀ x, scoring act w = some x → scores x.1.2 x.2)
    (h : crmStep py act w = some w') :
    w'.campaigns = w.campaigns ∧ ∃ d, d.log = w.log ∧
      ReflTransGen (CrmRowStep py w.campaigns.list merges packs scores) w.state (d, w.upserts) ∧
      ReflTransGen (CrmRowStep py w.campaigns.list (fun _ _ _ => False) packs scores)
        (d, w.upserts) w'.state := by
  -- an operation without a submission
  have hrest : ∀ {w'' : CrmWorld}, w''.campaigns = w.campaigns →
      ReflTransGen (CrmRowStep py w.campaigns.list (fun _ _ _ => False) packs scores) w.state
        w''.state →
      w''.campaigns = w.campaigns ∧ ∃ d, d.log = w.log ∧
        ReflTransGen (CrmRowStep py w.campaigns.list merges packs scores) w.state (d, w.upserts) ∧
        ReflTransGen (CrmRowStep py w.campaigns.list (fun _ _ _ => False) packs scores)
          (d, w.upserts) w''.state :=
    fun hkeeps hsteps => ⟨hkeeps, w.toDelivery, rfl, .refl, hsteps⟩
  cases act with
  | pack act fixed =>
      simp only [crmStep, Option.map_eq_some_iff] at h
      obtain ⟨p, hp, rfl⟩ := h
      cases hsubmission : act.submission with
      | none =>
          obtain ⟨hkeeps, hsteps⟩ := packAct_rowSteps fixed hsubmission hwaiting hhand hp
          exact hrest hkeeps hsteps
      | some s => exact packAct_submits fixed hsubmission hwaiting hmerges hp
  | syncLead id force answers now =>
      simp only [crmStep] at h
      split at h
      · simp only [Option.some.injEq] at h
        subst h
        exact hrest rfl .refl
      · rename_i hlead
        simp only [Option.some.injEq] at h
        subst h
        obtain ⟨hrow, hcampaign⟩ := leadAndCampaign_eq_some hlead
        obtain ⟨hkeeps, hstep⟩ := syncLeadTo_rowStep force answers now hcampaign hrow
        exact hrest hkeeps (.single hstep)
  | syncPending limit answers =>
      simp only [crmStep, Option.some.injEq] at h
      subst h
      obtain ⟨hkeeps, hsteps⟩ := syncPending_rowSteps answers limit
      exact hrest hkeeps hsteps
  | prospect payload known now =>
      simp only [crmStep, Option.some.injEq] at h
      subst h
      exact hrest rfl (ingestContact_rowSteps payload known now)
  | scoreLead id result =>
      simp only [crmStep, Option.some.injEq] at h
      subst h
      exact hrest rfl (writeScore_rowSteps hscores)
  | scoreUnscored id result =>
      simp only [crmStep, Option.some.injEq] at h
      subst h
      exact hrest rfl (writeScore_rowSteps hscores)
  | setGlobalSync globalSync =>
      simp only [crmStep, Option.some.injEq] at h
      subst h
      exact hrest rfl .refl

end RowSteps

end SalesTrades.Leads
