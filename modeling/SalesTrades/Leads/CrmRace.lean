import SalesTrades.Leads.CaptureRace
import SalesTrades.Leads.CrmSync

/-!
# A CRM push among captures

One worker pushes a lead, one `sync_lead` after the other, while any number of `capture_lead_created`
calls merge into the same lead. A sync loads the lead, waits for the CRM and commits the columns it
changed; so does a capture. When every commit finds the columns it does not write as it needs them,
a lead that is marked synced was last pushed with the fields captured last, and any other lead is
still in the queue (`synced_carries_captured`). Otherwise a captured update can stay unpushed
(`captured_update_lost`).
-/

set_option autoImplicit false

namespace SalesTrades.Leads

open SalesTrades.Library SalesTrades.Library.Run SalesTrades.Library.Interleaving

universe u

/-! ## The processes -/

/-- Where a sync stands: not begun, the lead loaded, or the CRM's answer recorded on the copy. -/
inductive SyncPhase where
  | idle
  | loaded (row : LeadRow)
  | answered (row : LeadRow) (lead : Lead)

/-- The table and the upserts; `captured` is the payload of the last capture that committed. -/
structure CrmShared where
  leads : LeadTable
  upserts : List Upsert
  captured : Option LeadCreateRequest

inductive CrmProcess where
  | capture (call : CaptureCall)
  | sync (phase : SyncPhase)

/-- What a step reads from outside: the clock and the answers of the CRM. -/
abbrev CrmInput := Datetime × CrmAnswers

/-- The next statement of the worker: load the lead, push it, commit. A call that raises or has
committed is followed by the next one. -/
def syncPhaseStep (force : Bool) (campaign : Campaign) (id : Nat) (input : CrmInput) (g : CrmShared) :
    SyncPhase → Option (CrmShared × SyncPhase)
  | .idle => (g.leads.get? id).map fun row => (g, .loaded row)
  | .loaded row =>
      let (result, log) := syncLead true force campaign row input.2 input.1
      let g' := { g with upserts := log ++ g.upserts }
      match result with
      | .error _ => some (g', .idle)
      | .ok lead => some (g', .answered row lead)
  | .answered row lead =>
      match update g.leads row lead with
      | .error _ => some (g, .idle)
      | .ok (_, t') => some ({ g with leads := t' }, .idle)

/-- The payload of a call that has committed. -/
def CaptureCall.committed (call : CaptureCall) : Option LeadCreateRequest :=
  match call.phase with
  | .returned _ _ => some call.payload
  | _ => none

/-- The next statement of a process. -/
def crmProcessStep (py : LowerCase) (force : Bool) (campaign : Campaign) (id : Nat)
    (input : CrmInput) (g : CrmShared) : CrmProcess → Option (CrmShared × CrmProcess)
  | .capture call =>
      (captureStep py campaign input.1 g.leads call).map fun r =>
        ({ g with leads := r.1, captured := r.2.committed.or g.captured }, .capture r.2)
  | .sync phase =>
      (syncPhaseStep force campaign id input g phase).map fun r => (r.1, .sync r.2)

/-! ## The condition on a step -/

/-- The submitted columns that the payload of an upsert reads. -/
def pushedColumns : List SubmittedColumn :=
  [.firstName, .lastName, .phone, .company, .jobTitle, .source, .timing, .interests,
    .requestedMaterials, .tags, .inspectionRequested, .marketingOptIn, .consentStatus]

/-- The pushed columns determine the fields of the payload. -/
theorem submittedFields_congr {s s' : Submitted}
    (h : ∀ c ∈ pushedColumns, s.column c = s'.column c) : submittedFields s = submittedFields s' := by
  simp only [pushedColumns, List.forall_mem_cons, Submitted.column, ColumnValue.text.injEq,
    ColumnValue.optText.injEq, ColumnValue.texts.injEq, ColumnValue.flag.injEq] at h
  obtain ⟨h₁, h₂, h₃, h₄, h₅, h₆, h₇, h₈, h₉, h₁₀, h₁₁, h₁₂, h₁₃, -⟩ := h
  simp only [submittedFields, h₁, h₂, h₃, h₄, h₅, h₆, h₇, h₈, h₉, h₁₀, h₁₁, h₁₂, h₁₃]

/-- The UPDATE of a capture leaves no pushed column unwritten that has changed since the row was
loaded; and if it leaves the status unwritten on a row that has been marked synced since, it changes
no field of the payload. -/
def CaptureKeepsUp (campaign : Campaign) (t : LeadTable) (payload : LeadCreateRequest) :
    CapturePhase → Prop
  | .selected (some existing) | .reselected existing =>
      ∀ q ∈ t.rows, q.1 = existing.1 →
        (∀ c ∈ pushedColumns, (submittedBy campaign payload).column c = existing.2.column c →
          q.2.column c = existing.2.column c) ∧
        (existing.2.crmSyncStatus = .pending → q.2.crmSyncStatus = .synced →
          submittedFields (submittedBy campaign payload) = submittedFields q.2.toSubmitted)
  | _ => True

/-- A commit that marks the lead synced finds the fields of the payload as they were loaded. -/
def SyncKeepsUp (t : LeadTable) : SyncPhase → Prop
  | .answered row lead =>
      lead.crmSyncStatus = .synced → row.2.crmSyncStatus ≠ .synced → ∀ q ∈ t.rows, q.1 = row.1 →
        submittedFields q.2.toSubmitted = submittedFields row.2.toSubmitted
  | _ => True

/-- The condition on a process that is about to take its next step. -/
def KeepsUp (campaign : Campaign) (t : LeadTable) : CrmProcess → Prop
  | .capture call => CaptureKeepsUp campaign t call.payload call.phase
  | .sync phase => SyncKeepsUp t phase

instance (campaign : Campaign) (t : LeadTable) (payload : LeadCreateRequest) :
    ∀ phase, Decidable (CaptureKeepsUp campaign t payload phase)
  | .selected (some existing) | .reselected existing => inferInstanceAs (Decidable
      (∀ q ∈ t.rows, q.1 = existing.1 →
        (∀ c ∈ pushedColumns, (submittedBy campaign payload).column c = existing.2.column c →
          q.2.column c = existing.2.column c) ∧
        (existing.2.crmSyncStatus = .pending → q.2.crmSyncStatus = .synced →
          submittedFields (submittedBy campaign payload) = submittedFields q.2.toSubmitted)))
  | .start | .selected none | .violated | .rolledBack | .returned _ _ | .raised _ => isTrue trivial

instance (t : LeadTable) : ∀ phase, Decidable (SyncKeepsUp t phase)
  | .answered row lead => inferInstanceAs (Decidable
      (lead.crmSyncStatus = .synced → row.2.crmSyncStatus ≠ .synced → ∀ q ∈ t.rows, q.1 = row.1 →
        submittedFields q.2.toSubmitted = submittedFields row.2.toSubmitted))
  | .idle | .loaded _ => isTrue trivial

instance (campaign : Campaign) (t : LeadTable) : ∀ p, Decidable (KeepsUp campaign t p)
  | .capture call => inferInstanceAs (Decidable (CaptureKeepsUp campaign t call.payload call.phase))
  | .sync phase => inferInstanceAs (Decidable (SyncKeepsUp t phase))

/-! ## The outline -/

section Outline

variable {ι : Type u} {py : LowerCase} {force : Bool} {campaign : Campaign} {email : String} {id : Nat}
  {worker : ι} {input : CrmInput} {g g' : CrmShared}

/-- The row of the lead is in the queue or pushed, with the fields captured last. -/
structure RowPushed (campaign : Campaign) (email : String) (id : Nat) (g : CrmShared)
    (row : LeadRow) : Prop where
  found : getByCampaignEmail g.leads campaign.id email = some row
  id_eq : row.1 = id
  enabled : row.2.crmSyncStatus ≠ .skipped
  pushed : row.2.crmSyncStatus = .synced → ∃ p, lastUpsert g.upserts id = some p ∧
    p.toSubmittedFields = submittedFields row.2.toSubmitted
  latest : ∀ payload, g.captured = some payload →
    submittedFields row.2.toSubmitted = submittedFields (submittedBy campaign payload)

/-- While the row is marked synced, it has the fields the worker has loaded. -/
def AsLoaded (campaign : Campaign) (email : String) (g : CrmShared) (loaded : LeadRow) : Prop :=
  ∀ row, getByCampaignEmail g.leads campaign.id email = some row → row.2.crmSyncStatus = .synced →
    submittedFields row.2.toSubmitted = submittedFields loaded.2.toSubmitted

/-- What the worker knows. -/
def WorkerKnows (campaign : Campaign) (email : String) (id : Nat) (g : CrmShared) : SyncPhase → Prop
  | .idle => True
  | .loaded row => row.1 = id ∧ AsLoaded campaign email g row
  | .answered row lead =>
      row.1 = id ∧ AsLoaded campaign email g row ∧ SameButCrm row.2 lead ∧
        lead.crmSyncStatus ≠ .skipped ∧
        (lead.crmSyncStatus = .synced → ∃ p, lastUpsert g.upserts id = some p ∧
          p.toSubmittedFields = submittedFields row.2.toSubmitted)

/-- The assertions: one process is the worker, the others merge into the lead. -/
def crmOutline (py : LowerCase) (campaign : Campaign) (email : String) (id : Nat) (worker : ι) :
    Outline ι CrmShared CrmProcess where
  shared g := ∃ row, RowPushed campaign email id g row
  proc i p g :=
    match p with
    | .capture call => i ≠ worker ∧ normaliseEmail py call.payload.email = email ∧
        Knows campaign email id False call.phase
    | .sync phase => i = worker ∧ WorkerKnows campaign email id g phase

/-- What a capture may do: push nothing, and leave a lead marked synced only with the fields it had. -/
def CaptureMay (campaign : Campaign) (email : String) (g g' : CrmShared) : Prop :=
  g'.upserts = g.upserts ∧ ∀ row', getByCampaignEmail g'.leads campaign.id email = some row' →
    row'.2.crmSyncStatus = .synced → ∃ row, getByCampaignEmail g.leads campaign.id email = some row ∧
      row.2.crmSyncStatus = .synced ∧
      submittedFields row'.2.toSubmitted = submittedFields row.2.toSubmitted

theorem AsLoaded.stable {loaded : LeadRow} (h : AsLoaded campaign email g loaded)
    (hmay : CaptureMay campaign email g g') : AsLoaded campaign email g' loaded := by
  intro row' hrow' hsynced'
  obtain ⟨row, hrow, hsynced, hfields⟩ := hmay.2 row' hrow' hsynced'
  rw [hfields]
  exact h row hrow hsynced

theorem WorkerKnows.stable {phase : SyncPhase} (h : WorkerKnows campaign email id g phase)
    (hmay : CaptureMay campaign email g g') : WorkerKnows campaign email id g' phase := by
  cases phase with
  | idle => trivial
  | loaded row => exact ⟨h.1, h.2.stable hmay⟩
  | answered row lead =>
      obtain ⟨hid, hloaded, hsame, hstatus, hpushed⟩ := h
      refine ⟨hid, hloaded.stable hmay, hsame, hstatus, ?_⟩
      rw [hmay.1]
      exact hpushed

/-- The fields of the row after the UPDATE of a capture. -/
theorem captured_fields {payload : LeadCreateRequest} {now : Datetime} {existing row : LeadRow}
    (hcolumns : ∀ c ∈ pushedColumns,
      (submittedBy campaign payload).column c = existing.2.column c →
        row.2.column c = existing.2.column c) :
    submittedFields (existing.2.write (mergedLead py campaign payload now (some existing.2))
        row.2).toSubmitted =
      submittedFields (submittedBy campaign payload) := by
  refine submittedFields_congr fun c hc => ?_
  simp only [Lead.write, mergedLead_toSubmitted, Submitted.column_write]
  exact dirtyWrite_eq_new_iff.2 (hcolumns c hc)

/-- The UPDATE of a capture puts the lead into the queue, unless it was loaded from there. -/
theorem captured_status {payload : LeadCreateRequest} {now : Datetime} {existing row : LeadRow} :
    (existing.2.write (mergedLead py campaign payload now (some existing.2)) row.2).crmSyncStatus =
      if existing.2.crmSyncStatus = .pending then row.2.crmSyncStatus else .pending := by
  have hmerged : (mergedLead py campaign payload now (some existing.2)).crmSyncStatus = .pending := rfl
  simp only [Lead.write, dirtyWrite, hmerged, eq_comm]

/-- A step of a capture. -/
theorem capture_own {call call' : CaptureCall} {t' : LeadTable}
    (hshared : ∃ row, RowPushed campaign email id g row)
    (hemail : normaliseEmail py call.payload.email = email)
    (hknows : Knows campaign email id False call.phase)
    (hkeeps : CaptureKeepsUp campaign g.leads call.payload call.phase)
    (h : captureStep py campaign input.1 g.leads call = some (t', call')) :
    (∃ row, RowPushed campaign email id
        { g with leads := t', captured := call'.committed.or g.captured } row) ∧
      normaliseEmail py call'.payload.email = email ∧ Knows campaign email id False call'.phase ∧
      CaptureMay campaign email g
        { g with leads := t', captured := call'.committed.or g.captured } := by
  obtain ⟨row, hrow⟩ := hshared
  simp only [captureStep, Option.map_eq_some_iff, Prod.mk.injEq] at h
  obtain ⟨⟨t₁, phase'⟩, hphase, rfl, rfl⟩ := h
  obtain rfl := hrow.id_eq
  obtain ⟨hknows', ⟨rfl, hresult⟩ | ⟨existing, lead, hexisting, hid, hlead, hfound', hphase'⟩⟩ :=
    knows_step_cases hemail hrow.found hknows hphase
  · -- a lookup: nothing is committed
    have hnone : (CaptureCall.mk call.payload phase').committed = none := by
      cases phase' with
      | returned r created => cases hresult
      | _ => rfl
    refine ⟨⟨row, ?_⟩, hemail, hknows', rfl, fun r hr hsynced => ⟨r, hr, hsynced, rfl⟩⟩
    rw [hnone, Option.none_or]
    exact hrow
  · have hkeeps' : CaptureKeepsUp campaign g.leads call.payload (.reselected existing) := by
      rcases hexisting with hp | hp
      · rw [hp] at hkeeps
        exact hkeeps
      · rw [hp] at hkeeps
        exact hkeeps
    obtain ⟨hcolumns, hsilent⟩ :=
      hkeeps' row (getByCampaignEmail_eq_some hrow.found).1 hid.symm
    have hfields : submittedFields lead.toSubmitted =
        submittedFields (submittedBy campaign call.payload) := by
      rw [hlead]
      exact captured_fields hcolumns
    have hstatus : lead.crmSyncStatus =
        if existing.2.crmSyncStatus = .pending then row.2.crmSyncStatus else .pending := by
      rw [hlead]
      exact captured_status
    -- if the lead is still marked synced, the capture has changed no field
    have hstill : lead.crmSyncStatus = .synced → row.2.crmSyncStatus = .synced ∧
        submittedFields lead.toSubmitted = submittedFields row.2.toSubmitted := by
      intro hsynced
      rw [hstatus] at hsynced
      split at hsynced
      · rename_i hpending
        exact ⟨hsynced, hfields.trans (hsilent hpending hsynced)⟩
      · cases hsynced
    have hcommitted : (CaptureCall.mk call.payload phase').committed = some call.payload := by
      rw [hphase']
      rfl
    refine ⟨⟨(row.1, lead), hfound', rfl, ?_, fun hsynced => ?_, fun payload hpayload => ?_⟩, hemail,
      hknows', rfl, fun r hr hsynced => ?_⟩
    · rw [hstatus]
      split
      · exact hrow.enabled
      · exact fun h => by cases h
    · obtain ⟨hwas, hsame⟩ := hstill hsynced
      obtain ⟨p, hp, hpfields⟩ := hrow.pushed hwas
      exact ⟨p, hp, hpfields.trans hsame.symm⟩
    · rw [hcommitted, Option.some_or, Option.some.injEq] at hpayload
      rw [← hpayload]
      exact hfields
    · dsimp only at hr
      rw [hfound', Option.some.injEq] at hr
      subst hr
      obtain ⟨hwas, hsame⟩ := hstill hsynced
      exact ⟨row, hrow.found, hwas, hsame⟩

/-- The worker pushes the lead as it loaded it. -/
theorem push_own {row : LeadRow} (hcampaign : campaign.syncEnabled force = true)
    (hshared : ∃ row, RowPushed campaign email id g row)
    (hknows : WorkerKnows campaign email id g (.loaded row)) {phase' : SyncPhase}
    (h : syncPhaseStep force campaign id input g (.loaded row) = some (g', phase')) :
    (∃ row, RowPushed campaign email id g' row) ∧ WorkerKnows campaign email id g' phase' := by
  obtain ⟨current, hcurrent⟩ := hshared
  obtain ⟨rfl, hloaded⟩ := hknows
  have hlast := syncLead_lastUpsert true force campaign row input.2 input.1 g.upserts
  -- whatever was pushed, a lead marked synced has been pushed as it is
  have hpushed : current.2.crmSyncStatus = .synced → ∃ p,
      lastUpsert ((syncLead true force campaign row input.2 input.1).2 ++ g.upserts) row.1 = some p ∧
        p.toSubmittedFields = submittedFields current.2.toSubmitted := by
    intro hsynced
    rcases hlast with ⟨hsame, -⟩ | ⟨p, hp, hpayload⟩
    · rw [hsame]
      exact hcurrent.pushed hsynced
    · have hfields : p.toSubmittedFields = submittedFields row.2.toSubmitted :=
        congrArg ContactPayload.toSubmittedFields hpayload
      exact ⟨p, hp, hfields.trans (hloaded current hcurrent.found hsynced).symm⟩
  simp only [syncPhaseStep] at h
  split at h
  · simp only [Option.some.injEq, Prod.mk.injEq] at h
    obtain ⟨rfl, rfl⟩ := h
    exact ⟨⟨current, hcurrent.found, hcurrent.id_eq, hcurrent.enabled, hpushed, hcurrent.latest⟩,
      trivial⟩
  · rename_i lead hlead
    simp only [Option.some.injEq, Prod.mk.injEq] at h
    obtain ⟨rfl, rfl⟩ := h
    refine ⟨⟨current, hcurrent.found, hcurrent.id_eq, hcurrent.enabled, hpushed, hcurrent.latest⟩,
      rfl, hloaded, sameButCrm_syncLead hlead, ?_, fun hsynced => ?_⟩
    · rcases syncLead_status rfl hcampaign hlead with hstatus | hstatus
      · exact fun h => by rw [hstatus] at h; cases h
      · exact fun h => by rw [hstatus] at h; cases h
    · rcases hlast with ⟨-, hnot⟩ | ⟨p, hp, hpayload⟩
      · exact absurd hsynced (hnot lead hlead)
      · exact ⟨p, hp, congrArg ContactPayload.toSubmittedFields hpayload⟩

/-- The worker commits what the CRM answered. -/
theorem commit_own {row : LeadRow} {lead : Lead}
    (hshared : ∃ row, RowPushed campaign email id g row)
    (hknows : WorkerKnows campaign email id g (.answered row lead))
    (hkeeps : SyncKeepsUp g.leads (.answered row lead)) {phase' : SyncPhase}
    (h : syncPhaseStep force campaign id input g (.answered row lead) = some (g', phase')) :
    (∃ row, RowPushed campaign email id g' row) ∧ WorkerKnows campaign email id g' phase' := by
  obtain ⟨current, hcurrent⟩ := hshared
  obtain ⟨rfl, hloaded, hsame, henabled, hpushed⟩ := hknows
  obtain ⟨hmem, hcurrentCampaign, hcurrentEmail⟩ := getByCampaignEmail_eq_some hcurrent.found
  have hrow : (row.1, current.2) ∈ g.leads.rows := by
    rw [← hcurrent.id_eq]
    exact hmem
  obtain ⟨t', hupdate, htable⟩ := update_eq hrow hsame.campaignId hsame.email
  simp only [syncPhaseStep, hupdate, Option.some.injEq, Prod.mk.injEq] at h
  obtain ⟨rfl, rfl⟩ := h
  have hfields : (row.2.write lead current.2).toSubmitted = current.2.toSubmitted := by
    refine Submitted.eq_of_column fun c => ?_
    simp only [Lead.write, hsame.submitted, Submitted.column_write, dirtyWrite_unchanged]
  have hstatus : (row.2.write lead current.2).crmSyncStatus =
      dirtyWrite row.2.crmSyncStatus lead.crmSyncStatus current.2.crmSyncStatus := rfl
  refine ⟨⟨(row.1, row.2.write lead current.2), ?_, rfl, ?_, fun hsynced => ?_, ?_⟩, trivial⟩
  · refine getByCampaignEmail_of_mem ((Table.mem_of_update htable).2
      (Or.inr ⟨rfl, current.2, hrow⟩)) ?_ ?_
    · simpa [Lead.write, hsame.campaignId] using hcurrentCampaign
    · simpa [Lead.write, hsame.email] using hcurrentEmail
  · rw [hstatus, dirtyWrite]
    split
    · exact hcurrent.enabled
    · exact henabled
  · rw [hfields]
    rw [hstatus, dirtyWrite] at hsynced
    split at hsynced
    · exact hcurrent.pushed hsynced
    · -- this commit marks the lead synced
      rename_i hwrites
      obtain ⟨p, hp, hpfields⟩ := hpushed hsynced
      have hkept := hkeeps hsynced (fun h => hwrites (hsynced.trans h.symm)) current hmem
        hcurrent.id_eq
      exact ⟨p, hp, hpfields.trans hkept.symm⟩
  · rw [hfields]
    exact hcurrent.latest

/-- A step of the worker. -/
theorem sync_own {phase phase' : SyncPhase} (hcampaign : campaign.syncEnabled force = true)
    (hshared : ∃ row, RowPushed campaign email id g row)
    (hknows : WorkerKnows campaign email id g phase) (hkeeps : SyncKeepsUp g.leads phase)
    (h : syncPhaseStep force campaign id input g phase = some (g', phase')) :
    (∃ row, RowPushed campaign email id g' row) ∧ WorkerKnows campaign email id g' phase' := by
  cases phase with
  | idle =>
      simp only [syncPhaseStep, Option.map_eq_some_iff, Prod.mk.injEq] at h
      obtain ⟨row, hget, rfl, rfl⟩ := h
      refine ⟨hshared, (Table.mem_of_get? hget).2, fun current hfound _ => ?_⟩
      -- the row with the id is the one with the email
      obtain ⟨r, hr⟩ := hshared
      rw [hr.found, Option.some.injEq] at hfound
      subst hfound
      obtain ⟨hmem, hid⟩ := Table.mem_of_get? hget
      rw [g.leads.eq_of_id (getByCampaignEmail_eq_some hr.found).1 hmem (hr.id_eq.trans hid.symm)]
  | loaded row => exact push_own hcampaign hshared hknows h
  | answered row lead => exact commit_own hshared hknows hkeeps h

end Outline

/-! ## Runs -/

section Runs

variable {ι : Type u} [DecidableEq ι] {py : LowerCase} {force : Bool} {campaign : Campaign}
  {email : String} {id : Nat} {worker : ι}

/-- The condition on an event of a run. -/
def KeepsUpEvent (campaign : Campaign) (e : ι × CrmInput) (c : Config ι CrmShared CrmProcess) : Prop :=
  KeepsUp campaign c.shared.leads (c.proc e.1)

instance (campaign : Campaign) (e : ι × CrmInput) (c : Config ι CrmShared CrmProcess) :
    Decidable (KeepsUpEvent campaign e c) :=
  inferInstanceAs (Decidable (KeepsUp campaign c.shared.leads (c.proc e.1)))

/-- The lead is in the table and not skipped, and up to date if it is marked synced; no process has
begun. -/
structure RaceStart (py : LowerCase) (campaign : Campaign) (email : String) (id : Nat) (worker : ι)
    (c : Config ι CrmShared CrmProcess) : Prop where
  row : ∃ row, RowPushed campaign email id c.shared row
  worker_idle : c.proc worker = .sync .idle
  captures : ∀ i, i ≠ worker → ∃ payload,
    c.proc i = .capture ⟨payload, .start⟩ ∧ normaliseEmail py payload.email = email

/-- If the lead is marked synced, the last upsert that went through carried the fields of the row and
of the last capture that committed; if it is not, it is in the queue. -/
def NoUpdateLost (campaign : Campaign) (email : String) (id : Nat) (g : CrmShared) : Prop :=
  ∃ row, getByCampaignEmail g.leads campaign.id email = some row ∧ row.1 = id ∧
    (row.2.crmSyncStatus = .synced → ∃ p, lastUpsert g.upserts id = some p ∧
      p.toSubmittedFields = submittedFields row.2.toSubmitted ∧
      ∀ payload, g.captured = some payload →
        p.toSubmittedFields = submittedFields (submittedBy campaign payload)) ∧
    (row.2.crmSyncStatus ≠ .synced →
      row.2.crmSyncStatus = .pending ∨ row.2.crmSyncStatus = .failed)

theorem RowPushed.noUpdateLost {g : CrmShared} {row : LeadRow}
    (h : RowPushed campaign email id g row) : NoUpdateLost campaign email id g := by
  refine ⟨row, h.found, h.id_eq, fun hsynced => ?_, fun hnot => ?_⟩
  · obtain ⟨p, hp, hfields⟩ := h.pushed hsynced
    exact ⟨p, hp, hfields, fun payload hpayload => hfields.trans (h.latest payload hpayload)⟩
  · cases hstatus : row.2.crmSyncStatus with
    | pending => exact Or.inl rfl
    | failed => exact Or.inr rfl
    | synced => exact absurd hstatus hnot
    | skipped => exact absurd hstatus h.enabled

theorem crmOutline_start {c : Config ι CrmShared CrmProcess}
    (hstart : RaceStart py campaign email id worker c) :
    (crmOutline py campaign email id worker).Holds c := by
  refine ⟨hstart.row, fun i => ?_⟩
  by_cases hi : i = worker
  · subst hi
    simp [crmOutline, hstart.worker_idle, WorkerKnows]
  · obtain ⟨payload, hproc, hemail⟩ := hstart.captures i hi
    simp [crmOutline, hproc, hi, hemail, Knows]

theorem crmOutline_fire (hcampaign : campaign.syncEnabled force = true) {e : ι × CrmInput}
    {c c' : Config ι CrmShared CrmProcess} (hc : (crmOutline py campaign email id worker).Holds c)
    (hkeeps : KeepsUpEvent campaign e c)
    (h : fire (crmProcessStep py force campaign id) e c = some c') :
    (crmOutline py campaign email id worker).Holds c' := by
  refine Outline.holds_fire (R := fun i g g' => i ≠ worker → CaptureMay campaign email g g')
    ?_ ?_ hc h
  · intro g p hstep
    have hown := hc.2 e.1
    rw [KeepsUpEvent] at hkeeps
    cases hproc : c.proc e.1 with
    | capture call =>
        rw [hproc] at hstep hown hkeeps
        obtain ⟨hi, hemail, hknows⟩ := hown
        simp only [crmProcessStep, Option.map_eq_some_iff, Prod.mk.injEq] at hstep
        obtain ⟨⟨t', call'⟩, hstep, rfl, rfl⟩ := hstep
        obtain ⟨hshared, hemail', hknows', hmay⟩ := capture_own hc.1 hemail hknows hkeeps hstep
        exact ⟨hshared, ⟨hi, hemail', hknows'⟩, fun _ => hmay⟩
    | sync phase =>
        rw [hproc] at hstep hown hkeeps
        obtain ⟨hi, hknows⟩ := hown
        simp only [crmProcessStep, Option.map_eq_some_iff, Prod.mk.injEq] at hstep
        obtain ⟨⟨g', phase'⟩, hstep, rfl, rfl⟩ := hstep
        obtain ⟨hshared, hknows'⟩ := sync_own hcampaign hc.1 hknows hkeeps hstep
        exact ⟨hshared, ⟨hi, hknows'⟩, fun hne => absurd hi hne⟩
  · -- only the worker's assertion is about the shared state, and the worker has not moved
    intro j hj g hmay hproc
    cases hp : c.proc j with
    | capture call =>
        rw [hp] at hproc
        exact hproc
    | sync phase =>
        rw [hp] at hproc
        obtain ⟨rfl, hknows⟩ := hproc
        exact ⟨rfl, hknows.stable (hmay (Ne.symm hj))⟩

/-- **No captured update is lost to a push** in a run whose steps all meet the condition: in every
state it passes through, a lead that is marked synced was last pushed with the fields captured last,
and any other lead is still in the queue. -/
theorem synced_carries_captured (hcampaign : campaign.syncEnabled force = true)
    {es : List (ι × CrmInput)} {c : Config ι CrmShared CrmProcess}
    (hstart : RaceStart py campaign email id worker c)
    (hkeeps : Guarded (fire (crmProcessStep py force campaign id)) (KeepsUpEvent campaign) es c) :
    Always (fire (crmProcessStep py force campaign id))
      (fun c => NoUpdateLost campaign email id c.shared) es c := by
  have halways : Always (fire (crmProcessStep py force campaign id))
      (crmOutline py campaign email id worker).Holds es c :=
    always_of_step (fun e c c' hc hG h => crmOutline_fire hcampaign hc hG h)
      (crmOutline_start hstart) hkeeps
  refine halways.mono fun c hc => ?_
  obtain ⟨row, hrow⟩ := hc.1
  exact hrow.noUpdateLost

end Runs

/-! ## One push and one capture -/

/-- A call of the process has ended. -/
def CrmProcess.ended : CrmProcess → Bool
  | .capture call => call.phase.result.isSome
  | .sync .idle => true
  | .sync _ => false

/-- Ada of Acme waits for her push; a capture corrects the company. -/
def adaRace : Config Bool CrmShared CrmProcess where
  shared :=
    { leads := (captureInCampaign asciiLower plainCampaign (leadRequest "Ada" "Acme") noon none
        (Table.empty _)).1
      upserts := []
      captured := none }
  proc i := if i then .sync .idle else .capture ⟨leadRequest "Ada" "Zenith", .start⟩

/-- A step of the worker, or of the capture, with a CRM that accepts. -/
def turn (worker : Bool) : Bool × CrmInput :=
  (worker, noon, ⟨.contact (some "7"), .error "", .error ""⟩)

/-- The capture commits between the load and the commit of the sync, or loads before the sync and
commits after it: the lead ends as synced, and the correction has not been pushed. -/
theorem captured_update_lost :
    (∃ c', exec (fire (crmProcessStep asciiLower false plainCampaign 1))
        [turn true, turn false, turn false, turn true, turn true] adaRace = some c' ∧
      (∀ i, (c'.proc i).ended = true) ∧ ¬ NoUpdateLost plainCampaign "ada@x.ng" 1 c'.shared) ∧
    ∃ c', exec (fire (crmProcessStep asciiLower false plainCampaign 1))
        [turn false, turn true, turn true, turn true, turn false] adaRace = some c' ∧
      (∀ i, (c'.proc i).ended = true) ∧ ¬ NoUpdateLost plainCampaign "ada@x.ng" 1 c'.shared := by
  constructor
  · refine ⟨_, rfl, by decide, fun h => ?_⟩
    obtain ⟨row, hrow, -, hsynced, -⟩ := h
    obtain rfl := Option.some.inj hrow
    obtain ⟨p, hp, hfields, -⟩ := hsynced rfl
    obtain rfl := Option.some.inj hp
    exact absurd hfields (by decide)
  · refine ⟨_, rfl, by decide, fun h => ?_⟩
    obtain ⟨row, hrow, -, hsynced, -⟩ := h
    obtain rfl := Option.some.inj hrow
    obtain ⟨p, hp, hfields, -⟩ := hsynced rfl
    obtain rfl := Option.some.inj hp
    exact absurd hfields (by decide)

/-- A capture after the push, and the push that follows it. -/
theorem synced_carries_captured_ada :
    Always (fire (crmProcessStep asciiLower false plainCampaign 1))
      (fun c => NoUpdateLost plainCampaign "ada@x.ng" 1 c.shared)
      [turn true, turn true, turn true, turn false, turn false, turn true, turn true, turn true]
      adaRace := by
  have hstart : RaceStart asciiLower plainCampaign "ada@x.ng" 1 true adaRace := by
    refine ⟨⟨_, rfl, rfl, by decide, ?_, ?_⟩, rfl, ?_⟩
    · intro hsynced
      cases hsynced
    · intro payload hpayload
      cases hpayload
    · rintro (_ | _) hi
      · exact ⟨_, rfl, by decide⟩
      · exact absurd rfl hi
  exact synced_carries_captured rfl hstart (by decide)

end SalesTrades.Leads
