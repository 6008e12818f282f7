import SalesTrades.Trade.CrmSync
import SalesTrades.Transfer.Registrations

/-!
# The CRM contacts of transferred participants

The transfer stores every primary as synced, on the assumption that the CRM sync of the campaign has
pushed the lead. It hides no contact that is missing exactly when that is so of every lead it transfers
(`nothing_hidden_iff`). Second participants are stored as pending, and the next sweep that has room for
them pushes those with an email.
-/

set_option autoImplicit false

namespace SalesTrades.Transfer

open SalesTrades.Library SalesTrades.Trade

/-- The CRM sync has pushed the lead. -/
def Pushed (lead : Leads.LeadRow) : Prop :=
  lead.2.crmSyncStatus = .synced ∧ lead.2.crmContactId.isSome = true

/-- A sweep with room for all rows pushes the participant, where its gates are open and the payload can
be built. -/
def PushedBySweep [ColumnDriver] (t : TradeLeads) (q : Participant) : Prop :=
  ∀ (programs : List TradeProgram) (o : SyncOutside) (limit : Nat) (program : TradeProgram),
    getProgram programs q.2.tradeProgramId = some program → GatesPass true program q.2 →
    (∃ payload, buildContactPayload q.2 program = .ok payload) → t.rows.length ≤ limit →
    .pushed q.1 program.requiresApproval ∈ (syncPendingTrade true programs o limit t []).2.1

/-- After the transfer of a lead: a primary is synced only if the lead had been pushed, any other is left
for the sweep, and every participant with an email has a contact or will be pushed. -/
structure NothingHidden [ColumnDriver] (db : TransferDb) (lead : Leads.LeadRow) : Prop where
  synced : ∀ p ∈ db.trade.rows, PrimaryOf lead p → p.2.crmSyncStatus = .synced → Pushed lead
  pickedUp : ∀ p ∈ db.trade.rows, PrimaryOf lead p → p.2.crmSyncStatus ≠ .synced →
    p.2.crmSyncStatus = .failed ∨ p.2.crmSyncStatus = .pending
  reached : ∀ q ∈ db.trade.rows, q.2.registrationId = registrationId lead.1 → q.2.email ≠ "" →
    (PrimaryOf lead q ∧ Pushed lead) ∨ PushedBySweep db.trade q

section Sweep

variable {t : TradeLeads} {q : Participant}

/-- Participants waiting for a push are on the list of a sweep that has room for them. -/
theorem mem_listPendingCrmSync (hq : q ∈ t.rows)
    (hwaiting : q.2.crmSyncStatus = .failed ∨ q.2.crmSyncStatus = .pending) {limit : Nat}
    (hlimit : t.rows.length ≤ limit) : q ∈ listPendingCrmSync t limit := by
  rw [listPendingCrmSync, List.take_of_length_le]
  · refine Table.mem_select.2 ⟨hq, ?_⟩
    simpa using hwaiting
  · exact (List.length_filter_le _ _).trans hlimit

theorem pushedBySweep_of_waiting [ColumnDriver] (hflushed : Flushed t) (hq : q ∈ t.rows)
    (hwaiting : q.2.crmSyncStatus = .failed ∨ q.2.crmSyncStatus = .pending) : PushedBySweep t q := by
  intro programs o limit program hprogram hgates hpayload hlimit
  have hmem := mem_listPendingCrmSync hq hwaiting hlimit
  obtain ⟨t', log', n, hloop, hswept⟩ := syncLoop_spec true programs o [] hflushed
    (fun r hr => (Table.mem_select.1 (List.mem_of_mem_take hr)).1) (t.nodup_select _ limit)
  rw [syncPendingTrade, if_pos rfl]
  rw [← listPendingCrmSync] at hloop hswept
  rw [hloop]
  show _ ∈ log'
  rw [hswept.log_eq, List.append_nil, List.mem_flatMap]
  refine ⟨q, List.mem_reverse.2 hmem, ?_⟩
  exact pushed_mem_visitLog.2 ⟨rfl, program, hprogram, rfl, hgates, hpayload⟩

end Sweep

section Flush

variable [ColumnDriver] {db db' : TransferDb} {lead : TransferLead} {id : Nat}

theorem Created.flushed (h : Created db lead id db') (hflushed : Flushed db.trade) :
    Flushed db'.trade := by
  obtain ⟨row, hflush, hrows⟩ := h.row
  intro q hq
  rw [hrows, List.mem_append, List.mem_singleton] at hq
  rcases hq with hq | rfl
  · exact hflushed q hq
  · exact flush_flush hflush

theorem transferAll_flushed {items : List TransferItem} (hflushed : Flushed db.trade)
    (h : transferAll db items = .ok db') : Flushed db'.trade := by
  induction items generalizing db with
  | nil =>
      cases h
      exact hflushed
  | cons item rest ih =>
      rw [transferAll_cons] at h
      obtain ⟨m, hone, hall⟩ := bind_eq_ok.1 h
      obtain ⟨id, db₁, db₂, hpassed⟩ := transferItem_ok hone
      have hflushed₂ : Flushed db₂.trade := by
        rw [hpassed.trade]
        exact hpassed.primary.flushed hflushed
      refine ih ?_ hall
      rcases hpassed.second with ⟨-, rfl⟩ | ⟨second, secondId, -, hcreated⟩
      · exact hflushed₂
      · exact hcreated.flushed hflushed₂

end Flush

section Hidden

variable [ColumnDriver] {py : LowerCase} {source : TransferSource} {db db' : TransferDb}

/-- A completed transfer hides no missing contact exactly when every lead that it transfers has been
pushed. -/
theorem nothing_hidden_iff (hflushed : Flushed db.trade)
    (h : (run py source true db).2 = .ok (.done, db')) :
    (∀ lead ∈ sourceLeads source, ¬ Started db lead → NothingHidden db' lead) ↔
      ∀ lead ∈ sourceLeads source, ¬ Started db lead → Pushed lead := by
  obtain ⟨items, -, hall⟩ := run_done_iff.1 h
  have hflushed' := transferAll_flushed hflushed hall
  have hdone := (run_done h).1
  constructor
  · intro hhidden lead hlead hnew
    obtain ⟨hcomplete, hstatuses⟩ := hdone lead (mem_newLeads.2 ⟨hlead, hnew⟩)
    obtain ⟨p, hp, hprimary, -⟩ := hcomplete.primary
    exact (hhidden lead hlead hnew).synced p hp hprimary (hstatuses.primary p hp hprimary)
  · intro hpushed lead hlead hnew
    obtain ⟨-, hstatuses⟩ := hdone lead (mem_newLeads.2 ⟨hlead, hnew⟩)
    refine ⟨fun _ _ _ _ => hpushed lead hlead hnew, fun p hp hprimary hne => ?_, fun q hq hid _ => ?_⟩
    · exact absurd (hstatuses.primary p hp hprimary) hne
    · cases hprimary : q.2.isPrimary with
      | true => exact Or.inl ⟨⟨hid, hprimary⟩, hpushed lead hlead hnew⟩
      | false =>
          have hpending := hstatuses.second q hq hid hprimary
          exact Or.inr (pushedBySweep_of_waiting hflushed' hq (Or.inr hpending))

end Hidden

attribute [local instance] plainDriver

/-- The tables after a transfer of Ada's registration alone. -/
def afterTransfer (crmSyncStatus : Leads.CrmStatus) (crmContactId : Option String) : TransferDb :=
  ((run asciiLower (oneLeadSource (adaLead crmSyncStatus crmContactId)) true emptyDb).2.toOption.map
    Prod.snd).getD emptyDb

theorem run_afterTransfer {crmSyncStatus : Leads.CrmStatus} {crmContactId : Option String}
    (h : (run asciiLower (oneLeadSource (adaLead crmSyncStatus crmContactId)) true emptyDb).2.map
      Prod.fst = .ok .done) :
    (run asciiLower (oneLeadSource (adaLead crmSyncStatus crmContactId)) true emptyDb).2 =
      .ok (.done, afterTransfer crmSyncStatus crmContactId) := by
  unfold afterTransfer
  cases hrun : (run asciiLower (oneLeadSource (adaLead crmSyncStatus crmContactId)) true emptyDb).2 with
  | error e =>
      rw [hrun] at h
      cases h
  | ok result =>
      rw [hrun] at h
      obtain ⟨outcome, db⟩ := result
      obtain rfl : outcome = .done := Except.ok.inj h
      rfl

/-- A lead that has a contact is stored as what it is. -/
theorem pushed_lead_shown :
    NothingHidden (afterTransfer .synced (some "402")) (1, adaLead .synced (some "402")) := by
  have hsource := sourceLeads_one (adaLead .synced (some "402")) rfl
  refine (nothing_hidden_iff (fun _ hq => absurd hq List.not_mem_nil)
    (run_afterTransfer rfl)).2 (fun lead hlead _ => ?_) _
    (hsource ▸ List.mem_singleton_self _) (not_started_empty _)
  obtain rfl := List.mem_singleton.1 (hsource ▸ hlead)
  exact ⟨rfl, rfl⟩

/-- A lead that the kill switch has kept from the CRM is stored as synced, without a contact. -/
theorem skipped_lead_hidden :
    (run asciiLower (oneLeadSource (adaLead .skipped none)) true emptyDb).2 =
      .ok (.done, afterTransfer .skipped none) ∧
    ¬ NothingHidden (afterTransfer .skipped none) (1, adaLead .skipped none) := by
  have hrun : (run asciiLower (oneLeadSource (adaLead .skipped none)) true emptyDb).2 =
      .ok (.done, afterTransfer .skipped none) := run_afterTransfer rfl
  refine ⟨hrun, fun hhidden => ?_⟩
  have hsource := sourceLeads_one (adaLead .skipped none) rfl
  obtain ⟨hcomplete, hstatuses⟩ := (run_done hrun).1 (1, adaLead .skipped none)
    (mem_newLeads.2 ⟨hsource ▸ List.mem_singleton_self _, not_started_empty _⟩)
  obtain ⟨p, hp, hprimary, -⟩ := hcomplete.primary
  have hpushed := hhidden.synced p hp hprimary (hstatuses.primary p hp hprimary)
  exact absurd hpushed.2 (by decide)

end SalesTrades.Transfer
