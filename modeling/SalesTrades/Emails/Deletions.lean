import SalesTrades.Emails.Attribution
import SalesTrades.Leads.CaptureRace
import SalesTrades.Library.Deletion
import SalesTrades.Library.Run

/-!
# Deleting leads

The endpoints `delete_lead` and `bulk_delete_leads`. The foreign key of `email_events.lead_id` has no
action, so a deletion works exactly when none of the leads it is about has an event
(`deletions_work_iff`); otherwise it fails on the foreign key.
-/

set_option autoImplicit false

namespace SalesTrades.Emails

open SalesTrades.Library SalesTrades.Library.Run SalesTrades.Leads

/-! ## The endpoints -/

/-- How a status is stored. -/
def crmStatusText : CrmStatus → String
  | .pending => "pending"
  | .synced => "synced"
  | .failed => "failed"
  | .skipped => "skipped"

/-- The query parameters that select leads. -/
structure LeadFilters where
  interest : Option String
  inspection : Option Bool
  optIn : Option Bool
  syncStatus : Option String

/-- `_apply_filters`, as far as the deletion uses it. -/
def applyFilters (campaignId : Nat) (filters : LeadFilters) (q : LeadRow) : Bool :=
  q.2.campaignId == campaignId &&
    filters.interest.all (fun interest => (q.2.interests.getD []).contains interest) &&
    filters.inspection.all (fun inspection => q.2.inspectionRequested == inspection) &&
    filters.optIn.all (fun optIn => q.2.marketingOptIn == optIn) &&
    filters.syncStatus.all fun syncStatus => crmStatusText q.2.crmSyncStatus == syncStatus

/-- An `HTTPException`, or what else leaves the endpoint. -/
inductive DeleteError where
  | http (statusCode : Nat) (detail : String)
  | python (e : PyError)
  deriving DecidableEq

/-- The leads that `email_events.lead_id` refers to. -/
def eventLeads (w : EmailWorld) : List Nat := w.events.rows.map fun row => row.2.leadId

/-- The DELETE statement with its commit. -/
def deleteLeads (w : EmailWorld) (p : LeadRow → Bool) (message : String) :
    EmailWorld × Except DeleteError String :=
  match w.leads.deleteRestrict (eventLeads w) p with
  | none => (w, .error (.python .integrityError))
  | some leads => ({ w with leads := leads }, .ok message)

def deleteLead (campaigns : List Campaign) (campaignId leadId : Nat) (w : EmailWorld) :
    EmailWorld × Except DeleteError String :=
  match getCampaign campaigns campaignId with
  | none => (w, .error (.http 404 "Campaign not found"))
  | some _ =>
      match w.leads.get? leadId with
      | none => (w, .error (.http 404 "Lead not found"))
      | some lead =>
          if lead.2.campaignId ≠ campaignId then (w, .error (.http 404 "Lead not found"))
          else deleteLeads w (fun q => q.1 == lead.1) "Lead deleted"

def deletedMessage (deleted : Nat) : String := s!"Deleted {deleted} lead(s)"

def bulkDeleteLeads (campaigns : List Campaign) (campaignId : Nat) (confirm : Bool)
    (filters : LeadFilters) (w : EmailWorld) : EmailWorld × Except DeleteError String :=
  match getCampaign campaigns campaignId with
  | none => (w, .error (.http 404 "Campaign not found"))
  | some _ =>
      if !confirm then
        (w, .error (.http 400 "Pass confirm=true to bulk-delete leads (no undo)."))
      else
        deleteLeads w (applyFilters campaignId filters)
          (deletedMessage (w.leads.rows.filter (applyFilters campaignId filters)).length)

inductive DeleteRequest where
  | one (campaignId leadId : Nat)
  | bulk (campaignId : Nat) (confirm : Bool) (filters : LeadFilters)

def answerDelete (campaigns : List Campaign) (r : DeleteRequest) (w : EmailWorld) :
    EmailWorld × Except DeleteError String :=
  match r with
  | .one campaignId leadId => deleteLead campaigns campaignId leadId w
  | .bulk campaignId confirm filters => bulkDeleteLeads campaigns campaignId confirm filters w

/-! ## What a deletion is to do -/

/-- The request names a campaign, and a lead of it or its confirmation. -/
def DeleteRequest.Valid (campaigns : List Campaign) (w : EmailWorld) : DeleteRequest → Prop
  | .one campaignId leadId => (getCampaign campaigns campaignId).isSome = true ∧
      ∃ q ∈ w.leads.rows, q.1 = leadId ∧ q.2.campaignId = campaignId
  | .bulk campaignId confirm _ =>
      (getCampaign campaigns campaignId).isSome = true ∧ confirm = true

/-- The leads of the campaign that match the request. -/
def DeleteRequest.matches (r : DeleteRequest) (q : LeadRow) : Bool :=
  match r with
  | .one campaignId leadId => q.1 == leadId && q.2.campaignId == campaignId
  | .bulk campaignId _ filters => applyFilters campaignId filters q

/-- The request succeeds, removes the leads that match it and no others, and leaves no event of a removed
lead. -/
structure Removes (campaigns : List Campaign) (r : DeleteRequest) (w : EmailWorld) : Prop where
  succeeds : ∃ message, (answerDelete campaigns r w).2 = .ok message
  rows : ∀ q, q ∈ (answerDelete campaigns r w).1.leads.rows ↔ q ∈ w.leads.rows ∧ r.matches q = false
  unreferenced : ∀ q ∈ w.leads.rows, r.matches q = true →
    q.1 ∉ eventLeads (answerDelete campaigns r w).1

/-- A valid request does its work, and none ends in a database error. -/
structure DeletionWorks (campaigns : List Campaign) (r : DeleteRequest) (w : EmailWorld) : Prop where
  removes : r.Valid campaigns w → Removes campaigns r w
  noFailure : ∀ e, (answerDelete campaigns r w).2 ≠ .error (.python e)

/-- None of the leads that a valid request matches has an event. -/
def FreeOfEvents (campaigns : List Campaign) (r : DeleteRequest) (w : EmailWorld) : Prop :=
  r.Valid campaigns w → ∀ q ∈ w.leads.rows, r.matches q = true → q.1 ∉ eventLeads w

/-! ## One request -/

section Request

variable {campaigns : List Campaign} {r : DeleteRequest} {w : EmailWorld}

/-- A valid request runs its DELETE statement. -/
theorem answerDelete_valid (h : r.Valid campaigns w) :
    ∃ p message, answerDelete campaigns r w = deleteLeads w p message ∧
      ∀ q ∈ w.leads.rows, p q = r.matches q := by
  cases r with
  | one campaignId leadId =>
      obtain ⟨hcampaign, q, hq, rfl, rfl⟩ := h
      obtain ⟨campaign, hfound⟩ := Option.isSome_iff_exists.1 hcampaign
      have hget : w.leads.get? q.1 = some q := Table.get?_eq_some_iff.2 hq
      refine ⟨fun q' => q'.1 == q.1, "Lead deleted", ?_, fun q' hq' => ?_⟩
      · simp [answerDelete, deleteLead, hfound, hget]
      · -- another lead has another id
        by_cases hid : q'.1 = q.1
        · rw [w.leads.eq_of_id hq' hq hid]
          simp [DeleteRequest.matches]
        · simp [DeleteRequest.matches, hid]
  | bulk campaignId confirm filters =>
      obtain ⟨hcampaign, rfl⟩ := h
      obtain ⟨campaign, hfound⟩ := Option.isSome_iff_exists.1 hcampaign
      refine ⟨applyFilters campaignId filters,
        deletedMessage (w.leads.rows.filter (applyFilters campaignId filters)).length, ?_, fun q _ => rfl⟩
      simp only [answerDelete, bulkDeleteLeads, hfound, Bool.not_true, Bool.false_eq_true, if_false]

/-- Any other request is answered with an HTTP error, and nothing is deleted. -/
theorem answerDelete_invalid (h : ¬ r.Valid campaigns w) :
    ∃ statusCode detail, answerDelete campaigns r w = (w, .error (.http statusCode detail)) := by
  cases r with
  | one campaignId leadId =>
      cases hfound : getCampaign campaigns campaignId with
      | none => exact ⟨404, "Campaign not found", by simp [answerDelete, deleteLead, hfound]⟩
      | some campaign =>
          cases hget : w.leads.get? leadId with
          | none => exact ⟨404, "Lead not found", by simp [answerDelete, deleteLead, hfound, hget]⟩
          | some q =>
              obtain ⟨hq, hid⟩ := Table.mem_of_get? hget
              have hne : q.2.campaignId ≠ campaignId := fun heq =>
                h ⟨Option.isSome_iff_exists.2 ⟨campaign, hfound⟩, q, hq, hid, heq⟩
              exact ⟨404, "Lead not found", by simp [answerDelete, deleteLead, hfound, hget, hne]⟩
  | bulk campaignId confirm filters =>
      cases hfound : getCampaign campaigns campaignId with
      | none => exact ⟨404, "Campaign not found", by simp [answerDelete, bulkDeleteLeads, hfound]⟩
      | some campaign =>
          cases confirm with
          | true => exact absurd ⟨Option.isSome_iff_exists.2 ⟨campaign, hfound⟩, rfl⟩ h
          | false => exact ⟨400, _, by simp only [answerDelete, bulkDeleteLeads, hfound]; rfl⟩

/-- The DELETE statement works exactly when it matches no lead that an event refers to. -/
theorem removes_iff (h : r.Valid campaigns w) : Removes campaigns r w ↔
    ∀ q ∈ w.leads.rows, r.matches q = true → q.1 ∉ eventLeads w := by
  obtain ⟨p, message, hanswer, hp⟩ := answerDelete_valid h
  constructor
  · rintro ⟨⟨message', hok⟩, -, -⟩ q hq hmatches hevent
    have hnone : w.leads.deleteRestrict (eventLeads w) p = none :=
      Table.deleteRestrict_eq_none_iff.2 ⟨q, hq, (hp q hq).trans hmatches, hevent⟩
    rw [hanswer, deleteLeads, hnone] at hok
    cases hok
  · intro hfree
    have hsome : w.leads.deleteRestrict (eventLeads w) p = some (w.leads.delete p) :=
      Table.deleteRestrict_eq_some_iff.2
        ⟨fun q hq hpq => hfree q hq ((hp q hq).symm.trans hpq), rfl⟩
    have hresult : answerDelete campaigns r w =
        ({ w with leads := w.leads.delete p }, .ok message) := by
      rw [hanswer, deleteLeads, hsome]
    refine ⟨⟨message, by rw [hresult]⟩, fun q => ?_, fun q hq hmatches => ?_⟩
    · rw [hresult]
      refine Table.mem_delete.trans (and_congr_right fun hq => ?_)
      rw [hp q hq]
    · rw [hresult]
      exact hfree q hq hmatches

theorem deletionWorks_iff : DeletionWorks campaigns r w ↔ FreeOfEvents campaigns r w := by
  by_cases hvalid : r.Valid campaigns w
  · constructor
    · intro h _
      exact (removes_iff hvalid).1 (h.removes hvalid)
    · intro h
      have hremoves := (removes_iff hvalid).2 (h hvalid)
      obtain ⟨message, hok⟩ := hremoves.succeeds
      refine ⟨fun _ => hremoves, fun e heq => ?_⟩
      rw [hok] at heq
      cases heq
  · obtain ⟨statusCode, detail, hanswer⟩ := answerDelete_invalid hvalid
    refine iff_of_true ⟨fun h => absurd h hvalid, fun e heq => ?_⟩ fun h => absurd h hvalid
    rw [hanswer] at heq
    cases heq

end Request

/-! ## Runs -/

/-- A submission, a batch of the webhook, or a deletion. A batch is looked up in the campaigns
`scanned`, which may have any `config`. -/
inductive LeadOp where
  | capture (slug : String) (payload : LeadCreateRequest) (now : Datetime) (missed : Bool)
  | ingest (scanned : List CampaignRow) (batch : List (PostedEvent × EventClock))
  | delete (r : DeleteRequest)

def leadStep (lib : Lib) (campaigns : List Campaign) (op : LeadOp) (w : EmailWorld) :
    Option EmailWorld :=
  match op with
  | .capture slug payload now missed => some
      { w with leads := (captureLeadCreated lib.text campaigns slug payload now missed w.leads).1 }
  | .ingest scanned batch => some (ingestEvents lib scanned batch w).1
  | .delete r => some (answerDelete campaigns r w).1

/-- What a deletion of a run does. -/
def OpWorks (campaigns : List Campaign) (op : LeadOp) (w : EmailWorld) : Prop :=
  match op with
  | .delete r => DeletionWorks campaigns r w
  | _ => True

/-- What a deletion of a run is about. -/
def OpFree (campaigns : List Campaign) (op : LeadOp) (w : EmailWorld) : Prop :=
  match op with
  | .delete r => FreeOfEvents campaigns r w
  | _ => True

section Runs

variable {lib : Lib} {campaigns : List Campaign} {w : EmailWorld}

theorem leadStep_isSome (op : LeadOp) (w : EmailWorld) :
    (leadStep lib campaigns op w).isSome = true := by
  cases op <;> rfl

/-- In every run of submissions, events and deletions the deletions work exactly when none is about a lead
that has an event. -/
theorem deletions_work_iff (ops : List LeadOp) (w : EmailWorld) :
    EachEvent (leadStep lib campaigns) (fun op s _ => OpWorks campaigns op s) ops w ↔
      Guarded (leadStep lib campaigns) (OpFree campaigns) ops w := by
  obtain ⟨t, hrun⟩ := Option.isSome_iff_exists.1 (exec_isSome leadStep_isSome ops w)
  refine eachEvent_iff_guarded (J := fun _ => True) (H := fun _ _ => True)
    (fun _ _ _ _ _ _ _ => trivial) (fun op s t _ _ _ => ?_) trivial
    (guarded_of_forall (fun _ _ => trivial) w) hrun
  cases op with
  | delete r => exact deletionWorks_iff
  | capture slug payload now missed => exact Iff.rfl
  | ingest scanned batch => exact Iff.rfl

/-- Every event is of a lead that is there. -/
def EventsRefer (w : EmailWorld) : Prop := Table.References (eventLeads w) w.leads

theorem eventsRefer_ingestOne (lib : Lib) (scanned : List CampaignRow) (evt : PostedEvent)
    (clock : EventClock) (h : EventsRefer w) :
    EventsRefer (ingestOne lib scanned evt clock w).1 := by
  rcases ingestOne_cases lib scanned evt clock w with
    ⟨e, -, hcall⟩ | ⟨-, hcall⟩ | ⟨lead, event, w', hattribute, hcall, hstored⟩
  · rw [hcall]
    exact h
  · rw [hcall]
    exact h
  · rw [hcall]
    obtain ⟨_, -, -, -, hread⟩ := attributeEvent_eq_some.1 hattribute
    obtain ⟨-, hlead, -, hget⟩ := readEvent_row hread
    have hkept : ∀ q ∈ w.leads.rows, ∃ q' ∈ w'.leads.rows, q'.1 = q.1 := by
      intro q hq
      have hfound := hstored.leads q.1
      rw [Table.get?_eq_some_iff.2 hq, Option.map_some] at hfound
      obtain ⟨hmem, hid⟩ := Table.mem_of_get? hfound
      exact ⟨_, hmem, hid⟩
    intro id hid
    rw [eventLeads, hstored.events, List.map_append, List.mem_append] at hid
    rcases hid with hold | hnew
    · obtain ⟨q, hq, rfl⟩ := h id hold
      exact hkept q hq
    · -- the new event is of a lead that was found
      obtain rfl : id = event.leadId := List.mem_singleton.1 hnew
      obtain ⟨q', hq', hid⟩ := hkept lead (Table.mem_of_get? hget).1
      exact ⟨q', hq', hid.trans hlead.symm⟩

theorem eventsRefer_ingestEvents (scanned : List CampaignRow) {batch : List (PostedEvent × EventClock)}
    (h : EventsRefer w) : EventsRefer (ingestEvents lib scanned batch w).1 := by
  induction batch generalizing w with
  | nil => exact h
  | cons x rest ih =>
      have hone := eventsRefer_ingestOne lib scanned x.1 x.2 h
      rcases hresult : ingestOne lib scanned x.1 x.2 w with ⟨w', e | processed⟩
      · rw [hresult] at hone
        obtain ⟨e', hcall⟩ := ingestEvents_cons_error hresult
        rw [hcall]
        exact hone
      · rw [hresult] at hone
        rw [ingestEvents_cons_ok hresult]
        exact ih hone

/-- In every state that is reached every event refers to a lead: no deletion leaves one behind. -/
theorem always_eventsRefer (ops : List LeadOp) (h : EventsRefer w) :
    Always (leadStep lib campaigns) EventsRefer ops w := by
  refine always_of_invariant (fun op s t hs hstep => ?_) h
  cases op with
  | capture slug payload now missed =>
      obtain rfl := Option.some.inj hstep
      refine Table.References.mono hs fun q hq => ?_
      rcases captureLeadCreated_cases lib.text campaigns slug payload now missed s.leads with
        ⟨-, hsame⟩ | ⟨campaign, row, -, hupdate⟩ | ⟨campaign, id, -, hinsert⟩
      · exact ⟨q, by rw [hsame]; exact hq, rfl⟩
      · by_cases hid : q.1 = row.1
        · exact ⟨_, (Table.mem_of_update hupdate).2 (Or.inr ⟨rfl, q.2, hid ▸ hq⟩), hid.symm⟩
        · exact ⟨q, (Table.mem_of_update hupdate).2 (Or.inl ⟨hq, hid⟩), rfl⟩
      · exact ⟨q, (Table.mem_of_insert hinsert).2 (Or.inl hq), rfl⟩
  | ingest scanned batch =>
      obtain rfl := Option.some.inj hstep
      exact eventsRefer_ingestEvents scanned hs
  | delete r =>
      obtain rfl := Option.some.inj hstep
      by_cases hvalid : r.Valid campaigns s
      · obtain ⟨p, message, hanswer, -⟩ := answerDelete_valid hvalid
        rw [hanswer, deleteLeads]
        cases hdelete : s.leads.deleteRestrict (eventLeads s) p with
        | none => exact hs
        | some leads => exact hs.deleteRestrict hdelete
      · obtain ⟨statusCode, detail, hanswer⟩ := answerDelete_invalid hvalid
        rw [hanswer]
        exact hs

end Runs

/-- Ada opens her mail; her lead can no longer be deleted. -/
theorem opened_lead_not_deleted :
    ¬ EachEvent (leadStep plainLib [plainCampaign]) (fun op s _ => OpWorks [plainCampaign] op s)
      [.ingest [] [(adaEvent "open" "e1" (.num 60) [("url", .null)], midnight)],
        .delete (.one 1 1)] oneLead := by
  intro h
  have hworks := ((h _ rfl).2 _ rfl).1
  exact hworks.noFailure .integrityError rfl

end SalesTrades.Emails
