import SalesTrades.Trade.Model

/-!
# CRM sync of trade participants

`sync_trade_lead` and `sync_pending_trade`. The CRM is a parameter: `responses` says how it answers
the upsert of each row. `syncTradeLead` returns the row to be stored and the payload that
`upsert_contact` was called with, `none` when a gate kept the call from being made. The sweep visits
a list it has loaded before; `syncLoop_spec` says what it does to the table and which rows it pushes.
-/

set_option autoImplicit false

namespace SalesTrades.Trade

open SalesTrades.Library

def leadStageId : Nat := 18004285060

def newStatusId : Nat := 17000261833

def exportLaunchpadCohort1LeadSourceId : Nat := 17001007411

/-- The body of a Freshsales upsert, `custom_field` with the prefix `cf`. -/
structure ContactPayload where
  uniqueEmail : String
  firstName : String
  lastName : String
  email : String
  mobileNumber : Json
  jobTitle : Json
  tags : List String
  leadSourceId : Json
  lifecycleStageId : Nat
  contactStatusId : Nat
  cfCompany : Option String
  cfCampaign : String
  cfCountry : Json
  cfIndustrySector : Json
  cfCompanyFounded : Json
  cfEmployeeCount : Json
  cfSourcesInternationally : Json
  cfSellsInternationally : Json
  cfTopicsOfInterest : String
  cfEligibilityStatus : EligibilityStatus

/-- `", ".join(xs)` on the elements of a text array from position `i` on: the first null is a
`TypeError` with this text. -/
def joinTexts (xs : List Json) (i : Nat) : Except String (List String) :=
  match xs with
  | [] => .ok []
  | .str s :: rest => (joinTexts rest (i + 1)).map (s :: ·)
  | _ :: _ => .error s!"sequence item {i}: expected str instance, NoneType found"

/-- `build_contact_payload`; the error is the text of the exception. -/
def buildContactPayload (lead : TradeLead) (program : TradeProgram) :
    Except String ContactPayload :=
  -- the column holds an array or null
  let topics := match (lead.shared .topicsOfInterest).orElse (.arr []) with
    | .arr xs => joinTexts xs 0
    | _ => .ok []
  topics.map fun topics =>
    { uniqueEmail := lead.email
      firstName := lead.firstName
      lastName := lead.lastName
      email := lead.email
      mobileNumber := lead.phone
      jobTitle := lead.jobTitle
      tags := lead.tags.getD []
      leadSourceId :=
        program.config.crmLeadSourceId.orElse (.num exportLaunchpadCohort1LeadSourceId)
      lifecycleStageId := leadStageId
      contactStatusId := newStatusId
      cfCompany := lead.company
      cfCampaign := program.slug
      cfCountry := lead.shared .country
      cfIndustrySector := lead.shared .industrySector
      cfCompanyFounded := lead.shared .companyFounded
      cfEmployeeCount := lead.shared .employeeCount
      cfSourcesInternationally := lead.shared .sourcesInternationally
      cfSellsInternationally := lead.shared .sellsInternationally
      cfTopicsOfInterest := ", ".intercalate topics
      cfEligibilityStatus := lead.eligibilityStatus }

/-- How the CRM answers an upsert: with a contact, with an HTTP error status, or with any other
exception. -/
inductive CrmResponse where
  | contact (id : Option String)
  | statusError (message body : String)
  | error (message : String)

/-- `text[:500]`. -/
def truncate (text : String) : String := String.ofList (text.toList.take 500)

/-- `program_sync_enabled`. -/
def TradeProgram.syncEnabled (program : TradeProgram) : Bool :=
  (program.config.crmSyncEnabled.getD (.bool true)).truthy

/-- `require_admin_approval`. -/
def TradeProgram.requiresApproval (program : TradeProgram) : Bool :=
  (program.config.requireAdminApproval.getD (.bool false)).truthy

/-- The `try` of `sync_trade_lead`: build the payload, send it, record the answer. -/
def pushTradeLead (program : TradeProgram) (lead : TradeLead) (response : CrmResponse) (now : Int) :
    TradeLead × Option ContactPayload :=
  match buildContactPayload lead program with
  | .error text => ({ lead with crmSyncStatus := .failed, crmError := some (truncate text) }, none)
  | .ok payload =>
      match response with
      | .contact id =>
          ({ lead with
              crmContactId := id
              crmSyncStatus := .synced
              crmSyncedAt := some now
              crmError := none }, some payload)
      | .statusError message body =>
          ({ lead with
              crmSyncStatus := .failed
              crmError := some (truncate s!"{message} | body: {body}") }, some payload)
      | .error message =>
          ({ lead with crmSyncStatus := .failed, crmError := some (truncate message) }, some payload)

/-- `sync_trade_lead` up to the write: the row to be stored, and the payload of the upsert when one
was sent. -/
def syncTradeLead (globalSync : Bool) (program : TradeProgram) (lead : TradeLead)
    (response : CrmResponse) (now : Int) : TradeLead × Option ContactPayload :=
  -- the two switches, the approval, and an email to identify the contact by
  if !globalSync || !program.syncEnabled then ({ lead with crmSyncStatus := .skipped }, none)
  else if program.requiresApproval && lead.reviewStatus ≠ .approved then
    ({ lead with crmSyncStatus := .skipped }, none)
  else if lead.email = "" then ({ lead with crmSyncStatus := .skipped }, none)
  else pushTradeLead program lead response now

/-- Every gate passes for the row. -/
def GatesPass (globalSync : Bool) (program : TradeProgram) (lead : TradeLead) : Prop :=
  globalSync = true ∧ program.syncEnabled = true ∧
    (program.requiresApproval = true → lead.reviewStatus = .approved) ∧ lead.email ≠ ""

instance (globalSync : Bool) (program : TradeProgram) (lead : TradeLead) :
    Decidable (GatesPass globalSync program lead) := by
  unfold GatesPass
  infer_instance

variable {globalSync : Bool} {program : TradeProgram} {lead : TradeLead} {response : CrmResponse}
  {now : Int}

theorem syncTradeLead_open (h : GatesPass globalSync program lead) :
    syncTradeLead globalSync program lead response now =
      pushTradeLead program lead response now := by
  obtain ⟨hglobal, hprogram, happroval, hemail⟩ := h
  unfold syncTradeLead
  rw [if_neg (by simp [hglobal, hprogram]), if_neg (by simpa using happroval), if_neg hemail]

theorem syncTradeLead_closed (h : ¬ GatesPass globalSync program lead) :
    syncTradeLead globalSync program lead response now =
      ({ lead with crmSyncStatus := .skipped }, none) := by
  unfold syncTradeLead
  split
  · rfl
  · rename_i hswitch
    split
    · rfl
    · rename_i happroval
      split
      · rfl
      · rename_i hemail
        simp only [Bool.or_eq_true, Bool.not_eq_true', not_or, Bool.not_eq_false] at hswitch
        refine absurd ⟨hswitch.1, hswitch.2, fun hreq => ?_, hemail⟩ h
        simpa [hreq] using happroval

/-- The upsert is sent exactly when the payload can be built. -/
theorem pushTradeLead_sent_iff (program : TradeProgram) (lead : TradeLead) (response : CrmResponse)
    (now : Int) :
    (pushTradeLead program lead response now).2.isSome = true ↔
      ∃ payload, buildContactPayload lead program = .ok payload := by
  unfold pushTradeLead
  cases buildContactPayload lead program with
  | error text => simp
  | ok payload => cases response <;> simp

/-- A push ends as synced, after an upsert, or as failed. -/
theorem pushTradeLead_status (program : TradeProgram) (lead : TradeLead) (response : CrmResponse)
    (now : Int) :
    (pushTradeLead program lead response now).1.crmSyncStatus = .failed ∨
      (pushTradeLead program lead response now).1.crmSyncStatus = .synced ∧
        (pushTradeLead program lead response now).2.isSome = true := by
  unfold pushTradeLead
  cases buildContactPayload lead program with
  | error text => exact Or.inl rfl
  | ok payload =>
      cases response with
      | contact id => exact Or.inr ⟨rfl, rfl⟩
      | statusError message body => exact Or.inl rfl
      | error message => exact Or.inl rfl

/-- The sync changes no column but its own. -/
theorem syncTradeLead_frame (globalSync : Bool) (program : TradeProgram) (lead : TradeLead)
    (response : CrmResponse) (now : Int) : ∃ crmSyncStatus crmSyncedAt crmContactId crmError,
      (syncTradeLead globalSync program lead response now).1 =
        { lead with
          crmSyncStatus := crmSyncStatus
          crmSyncedAt := crmSyncedAt
          crmContactId := crmContactId
          crmError := crmError } := by
  by_cases hgates : GatesPass globalSync program lead
  · rw [syncTradeLead_open hgates, pushTradeLead]
    cases buildContactPayload lead program with
    | error text => exact ⟨_, _, _, _, rfl⟩
    | ok payload => cases response <;> exact ⟨_, _, _, _, rfl⟩
  · rw [syncTradeLead_closed hgates]
    exact ⟨_, _, _, _, rfl⟩

/-! ## The sweep -/

/-- What the log of a run records: a change of the identity that is pushed, an approval, an upsert
with whether the program requires approval, and a row put aside by a closed gate. -/
inductive Happening where
  | identityChanged (id : Nat)
  | approved (id : Nat)
  | pushed (id : Nat) (gated : Bool)
  | skipped (id : Nat)
  deriving DecidableEq

/-- What the outside decides during a sweep. -/
structure SyncOutside where
  responses : Nat → CrmResponse
  now : Int

/-- The row that one pass of the loop stores, with what it logs; `none` when the program is gone. -/
def syncVisit (globalSync : Bool) (programs : List TradeProgram) (o : SyncOutside)
    (lead : Participant) : Option (TradeLead × List Happening) :=
  (getProgram programs lead.2.tradeProgramId).map fun program =>
    let result := syncTradeLead globalSync program lead.2 (o.responses lead.1) o.now
    (result.1,
      if result.2.isSome then [.pushed lead.1 program.requiresApproval]
      else if result.1.crmSyncStatus = .skipped then [.skipped lead.1]
      else [])

section Driver

variable [ColumnDriver]

/-- The loop of `sync_pending_trade`. The log is newest first. -/
def syncLoop (globalSync : Bool) (programs : List TradeProgram) (o : SyncOutside) :
    List Participant → TradeLeads → List Happening →
      TradeLeads × List Happening × Except PyError Nat
  | [], t, log => (t, log, .ok 0)
  | lead :: rest, t, log =>
      match syncVisit globalSync programs o lead with
      | none => syncLoop globalSync programs o rest t log
      | some (new, happened) =>
          match updateLead t lead new with
          -- the upsert has been sent, whether the row is stored or not
          | .error e => (t, happened ++ log, .error e)
          | .ok (_, t') =>
              let result := syncLoop globalSync programs o rest t' (happened ++ log)
              (result.1, result.2.1,
                result.2.2.map (· + if new.crmSyncStatus = .synced then 1 else 0))

def syncPendingTrade (globalSync : Bool) (programs : List TradeProgram) (o : SyncOutside)
    (limit : Nat) (t : TradeLeads) (log : List Happening) :
    TradeLeads × List Happening × Except PyError Nat :=
  if globalSync then syncLoop globalSync programs o (listPendingCrmSync t limit) t log
  else (t, log, .ok 0)

/-- The row after a pass of the loop over it. -/
def afterVisit (globalSync : Bool) (programs : List TradeProgram) (o : SyncOutside)
    (q : Participant) : TradeLead :=
  ((syncVisit globalSync programs o q).map Prod.fst).getD q.2

/-- What a pass of the loop over a row logs. -/
def visitLog (globalSync : Bool) (programs : List TradeProgram) (o : SyncOutside)
    (q : Participant) : List Happening :=
  ((syncVisit globalSync programs o q).map Prod.snd).getD []

/-- What the loop does: every row of the list gets its visit, no other row changes, and the log
grows by what the visits log. -/
structure Swept (globalSync : Bool) (programs : List TradeProgram) (o : SyncOutside)
    (leads : List Participant) (t : TradeLeads) (log : List Happening) (t' : TradeLeads)
    (log' : List Happening) : Prop where
  nextId_eq : t'.nextId = t.nextId
  flushed : Flushed t'
  kept : ∀ q ∈ t.rows, ∃ q' ∈ t'.rows, q'.1 = q.1
  rows : ∀ q' ∈ t'.rows,
    (q' ∈ t.rows ∧ q' ∉ leads) ∨
      ∃ q ∈ leads, q ∈ t.rows ∧ q' = (q.1, afterVisit globalSync programs o q)
  log_eq : log' = (leads.reverse.flatMap (visitLog globalSync programs o)) ++ log

end Driver

/-- A visit changes no column but those of the sync. -/
theorem afterVisit_frame (globalSync : Bool) (programs : List TradeProgram) (o : SyncOutside)
    (q : Participant) : ∃ crmSyncStatus crmSyncedAt crmContactId crmError,
      afterVisit globalSync programs o q =
        { q.2 with
          crmSyncStatus := crmSyncStatus
          crmSyncedAt := crmSyncedAt
          crmContactId := crmContactId
          crmError := crmError } := by
  unfold afterVisit syncVisit
  cases getProgram programs q.2.tradeProgramId with
  | none => exact ⟨_, _, _, _, rfl⟩
  | some program =>
      exact syncTradeLead_frame globalSync program q.2 (o.responses q.1) o.now

section Visit

variable {globalSync : Bool} {programs : List TradeProgram} {o : SyncOutside} {q : Participant}

/-- A visit logs at most one push or one skip of its row. -/
theorem visitLog_kinds {h : Happening} (hmem : h ∈ visitLog globalSync programs o q) :
    (∃ gated, h = .pushed q.1 gated) ∨ h = .skipped q.1 := by
  unfold visitLog syncVisit at hmem
  cases hprogram : getProgram programs q.2.tradeProgramId with
  | none => simp [hprogram] at hmem
  | some program =>
      simp only [hprogram, Option.map_some, Option.getD_some] at hmem
      split at hmem
      · exact Or.inl ⟨program.requiresApproval, List.mem_singleton.1 hmem⟩
      · split at hmem
        · exact Or.inr (List.mem_singleton.1 hmem)
        · cases hmem

/-- A visit pushes the row exactly when every gate passes and the payload can be built. -/
theorem pushed_mem_visitLog {id : Nat} {gated : Bool} :
    .pushed id gated ∈ visitLog globalSync programs o q ↔ id = q.1 ∧
      ∃ program, getProgram programs q.2.tradeProgramId = some program ∧
        gated = program.requiresApproval ∧ GatesPass globalSync program q.2 ∧
        ∃ payload, buildContactPayload q.2 program = .ok payload := by
  unfold visitLog syncVisit
  cases hprogram : getProgram programs q.2.tradeProgramId with
  | none => simp
  | some program =>
      simp only [Option.map_some, Option.getD_some, Option.some.injEq, exists_eq_left']
      by_cases hgates : GatesPass globalSync program q.2
      · rw [syncTradeLead_open hgates,
          ← pushTradeLead_sent_iff program q.2 (o.responses q.1) o.now]
        by_cases hsent : (pushTradeLead program q.2 (o.responses q.1) o.now).2.isSome = true
        · simp [hsent, hgates]
        · rw [if_neg hsent]
          split <;> simp [hsent]
      · simp [syncTradeLead_closed hgates, hgates]

/-- A visit logs a skip of a row that was waiting exactly when it leaves the row skipped. -/
theorem skipped_mem_visitLog {id : Nat} (hwaiting : q.2.crmSyncStatus ≠ .skipped) :
    .skipped id ∈ visitLog globalSync programs o q ↔
      id = q.1 ∧ (afterVisit globalSync programs o q).crmSyncStatus = .skipped := by
  unfold visitLog afterVisit syncVisit
  cases hprogram : getProgram programs q.2.tradeProgramId with
  | none => simp [hwaiting]
  | some program =>
      simp only [Option.map_some, Option.getD_some]
      by_cases hgates : GatesPass globalSync program q.2
      · rw [syncTradeLead_open hgates]
        rcases pushTradeLead_status program q.2 (o.responses q.1) o.now with hstatus | ⟨hstatus, hsent⟩
        · simp only [hstatus, reduceCtorEq, if_false, and_false, iff_false]
          split <;> simp
        · simp [hstatus, hsent]
      · simp [syncTradeLead_closed hgates]

/-- A row that a visit leaves synced was synced before or has been pushed. -/
theorem synced_afterVisit (h : (afterVisit globalSync programs o q).crmSyncStatus = .synced) :
    q.2.crmSyncStatus = .synced ∨
      ∃ gated, .pushed q.1 gated ∈ visitLog globalSync programs o q := by
  unfold afterVisit syncVisit at h
  unfold visitLog syncVisit
  cases hprogram : getProgram programs q.2.tradeProgramId with
  | none =>
      simp only [hprogram, Option.map_none, Option.getD_none] at h
      exact Or.inl h
  | some program =>
      simp only [hprogram, Option.map_some, Option.getD_some] at h ⊢
      by_cases hgates : GatesPass globalSync program q.2
      · rw [syncTradeLead_open hgates] at h ⊢
        rcases pushTradeLead_status program q.2 (o.responses q.1) o.now with hstatus | ⟨-, hsent⟩
        · rw [hstatus] at h
          cases h
        · exact Or.inr ⟨program.requiresApproval, by simp [hsent]⟩
      · rw [syncTradeLead_closed hgates] at h
        cases h

end Visit

variable [ColumnDriver]

theorem flush_afterVisit {globalSync : Bool} {programs : List TradeProgram} {o : SyncOutside}
    {q : Participant} (h : q.2.flush = some q.2) :
    (afterVisit globalSync programs o q).flush = some (afterVisit globalSync programs o q) := by
  obtain ⟨_, _, _, _, heq⟩ := afterVisit_frame globalSync programs o q
  have hcolumns := flush_eq_self_iff.1 h
  rw [heq, flush_eq_self_iff]
  exact hcolumns

section Loop

variable {globalSync : Bool} {programs : List TradeProgram} {o : SyncOutside} {lead : Participant}
  {rest : List Participant} {t t₁ t' : TradeLeads} {log log' : List Happening}

theorem swept_nil (log : List Happening) (hflushed : Flushed t) :
    Swept globalSync programs o [] t log t log :=
  ⟨rfl, hflushed, fun q hq => ⟨q, hq, rfl⟩, fun _ hq => Or.inl ⟨hq, List.not_mem_nil⟩, rfl⟩

/-- The program is gone: the loop goes on with the row as it is. -/
theorem Swept.passed (hvisit : syncVisit globalSync programs o lead = none) (hlead : lead ∈ t.rows)
    (h : Swept globalSync programs o rest t log t' log') :
    Swept globalSync programs o (lead :: rest) t log t' log' := by
  have hafter : afterVisit globalSync programs o lead = lead.2 := by
    rw [afterVisit, hvisit]
    rfl
  have hlog : visitLog globalSync programs o lead = [] := by
    rw [visitLog, hvisit]
    rfl
  refine ⟨h.nextId_eq, h.flushed, h.kept, fun q' hq' => ?_, ?_⟩
  · rcases h.rows q' hq' with ⟨hq, hnot⟩ | ⟨q, hq, hqt, rfl⟩
    · by_cases heq : q' = lead
      · exact Or.inr ⟨lead, List.mem_cons_self, hlead, by rw [hafter, heq]⟩
      · exact Or.inl ⟨hq, fun hmem => (List.mem_cons.1 hmem).elim heq hnot⟩
    · exact Or.inr ⟨q, List.mem_cons_of_mem _ hq, hqt, rfl⟩
  · rw [h.log_eq]
    simp [hlog]

/-- The row is stored anew, and the loop goes on with the other rows as they were. -/
theorem Swept.stored {new : TradeLead} {happened : List Happening}
    (hvisit : syncVisit globalSync programs o lead = some (new, happened)) (hlead : lead ∈ t.rows)
    (hrest : ∀ q ∈ rest, q ∈ t.rows) (htable : t.update lead.1 new = some t₁)
    (h : Swept globalSync programs o rest t₁ (happened ++ log) t' log') :
    Swept globalSync programs o (lead :: rest) t log t' log' := by
  have hafter : afterVisit globalSync programs o lead = new := by
    rw [afterVisit, hvisit]
    rfl
  have hlog : visitLog globalSync programs o lead = happened := by
    rw [visitLog, hvisit]
    rfl
  refine ⟨?_, h.flushed, fun q hq => ?_, fun q' hq' => ?_, ?_⟩
  · rw [h.nextId_eq, (Table.update_eq_some htable).2]
  · by_cases hid : q.1 = lead.1
    · obtain ⟨q', hq', hid'⟩ := h.kept (lead.1, new)
        ((Table.mem_of_update htable).2 (Or.inr ⟨rfl, lead.2, hlead⟩))
      exact ⟨q', hq', hid'.trans hid.symm⟩
    · exact h.kept q ((Table.mem_of_update htable).2 (Or.inl ⟨hq, hid⟩))
  · rcases h.rows q' hq' with ⟨hq, hnot⟩ | ⟨q, hq, -, rfl⟩
    · rcases (Table.mem_of_update htable).1 hq with ⟨hq, hid⟩ | ⟨rfl, -⟩
      · refine Or.inl ⟨hq, fun hmem => ?_⟩
        rcases List.mem_cons.1 hmem with rfl | hmem
        · exact hid rfl
        · exact hnot hmem
      · exact Or.inr ⟨lead, List.mem_cons_self, hlead, by rw [hafter]⟩
    · exact Or.inr ⟨q, List.mem_cons_of_mem _ hq, hrest q hq, rfl⟩
  · rw [h.log_eq]
    simp [hlog]

end Loop

/-- The loop visits every row of its list and ends without an exception. -/
theorem syncLoop_spec (globalSync : Bool) (programs : List TradeProgram) (o : SyncOutside)
    {leads : List Participant} {t : TradeLeads} (log : List Happening) (hflushed : Flushed t)
    (hmem : ∀ q ∈ leads, q ∈ t.rows) (hnodup : leads.Nodup) :
    ∃ t' log' n, syncLoop globalSync programs o leads t log = (t', log', .ok n) ∧
      Swept globalSync programs o leads t log t' log' := by
  induction leads generalizing t log with
  | nil => exact ⟨t, log, 0, rfl, swept_nil log hflushed⟩
  | cons lead rest ih =>
      obtain ⟨hlead, hrest⟩ := List.forall_mem_cons.1 hmem
      obtain ⟨hnot, hnodup⟩ := List.nodup_cons.1 hnodup
      cases hvisit : syncVisit globalSync programs o lead with
      | none =>
          obtain ⟨t', log', n, hloop, hswept⟩ := ih log hflushed hrest hnodup
          refine ⟨t', log', n, ?_, hswept.passed hvisit hlead⟩
          rw [syncLoop, hvisit]
          exact hloop
      | some visit =>
          obtain ⟨new, happened⟩ := visit
          have hafter : afterVisit globalSync programs o lead = new := by
            rw [afterVisit, hvisit]
            rfl
          obtain ⟨_, _, _, _, hframe⟩ := afterVisit_frame globalSync programs o lead
          have hnewflush : new.flush = some new := by
            rw [← hafter]
            exact flush_afterVisit (hflushed lead hlead)
          rw [hafter] at hframe
          -- the sync leaves program and email alone, so the UPDATE goes through
          obtain ⟨t₁, hupd, htable⟩ := updateLead_keyed hlead hnewflush
            (by rw [hframe]) (by rw [hframe])
          have hflushed₁ : Flushed t₁ := by
            intro q hq
            rcases (Table.mem_of_update htable).1 hq with ⟨hq, -⟩ | ⟨rfl, -⟩
            · exact hflushed q hq
            · exact hnewflush
          -- the rest of the list has other ids, so its rows are still as they were loaded
          have hrest₁ : ∀ q ∈ rest, q ∈ t₁.rows := by
            intro q hq
            refine (Table.mem_of_update htable).2 (Or.inl ⟨hrest q hq, fun hid => ?_⟩)
            exact hnot (t.eq_of_id (hrest q hq) hlead hid ▸ hq)
          obtain ⟨t', log', n, hloop, hswept⟩ := ih (happened ++ log) hflushed₁ hrest₁ hnodup
          refine ⟨t', log', n + if new.crmSyncStatus = .synced then 1 else 0, ?_,
            hswept.stored hvisit hlead hrest htable⟩
          simp only [syncLoop, hvisit, hupd, hloop]
          rfl

end SalesTrades.Trade
