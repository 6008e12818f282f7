import SalesTrades.Leads.CrmFailures
import SalesTrades.Leads.PackSweep
import SalesTrades.Trade.CaptureFailures
import SalesTrades.Trade.CrmFailures
import SalesTrades.Trade.RegistrationShape

/-!
# The scheduled sweeps

`sync_pending`, `sync_pending_trade` and `deliver_pending` over the tables as the capture endpoints
fill them. Whether a sweep gets to its end with the outcome of every selected row recorded depends on
each row by itself (`sweeps_recorded_iff`): one lead whose second participant is a text keeps the sweep
from all leads after it (`text_participant_blocks`).
-/

set_option autoImplicit false

namespace SalesTrades.Jobs

open SalesTrades.Library SalesTrades.Library.Sweep

section Driver

variable [Trade.ColumnDriver]

/-- The tables of leads and participants, with rows that PostgreSQL can hold. -/
structure Database where
  leads : Leads.LeadTable
  participants : Trade.TradeLeads
  leadTexts : ∀ row ∈ leads.rows, row.2.storable = true
  participantTexts : ∀ lead ∈ participants.rows, lead.2.storable = true
  flushed : Trade.Flushed participants

def Database.empty : Database where
  leads := Table.empty _
  participants := Table.empty _
  leadTexts := List.forall_mem_nil _
  participantTexts := List.forall_mem_nil _
  flushed := List.forall_mem_nil _

/-! ## Captures -/

omit [Trade.ColumnDriver] in
/-- A submission writes no text of the CRM. -/
theorem storable_captureLeadCreated {py : LowerCase} {campaigns : List Leads.Campaign} {slug : String}
    {payload : Leads.LeadCreateRequest} {now : Datetime} {missed : Bool} {t : Leads.LeadTable}
    (h : ∀ row ∈ t.rows, row.2.storable = true) :
    ∀ row ∈ (Leads.captureLeadCreated py campaigns slug payload now missed t).1.rows,
      row.2.storable = true := by
  unfold Leads.captureLeadCreated
  cases Leads.getBySlug campaigns slug with
  | none => exact h
  | some campaign =>
      dsimp only
      split
      · exact h
      · intro row hrow
        rcases Leads.captureInCampaign_spec py campaign payload now t
            (Leads.missedLookup_cases missed _) with
          ⟨loaded, t', hfound, hupdate, hcall⟩ | ⟨t', -, hinsert, hcall⟩
        · rw [hcall] at hrow
          rcases (Table.mem_of_update hupdate).1 hrow with ⟨hold, -⟩ | ⟨rfl, -⟩
          · exact h row hold
          · -- the contact id is the one of the row, and the error is cleared
            have hloaded := h loaded (Leads.getByCampaignEmail_eq_some hfound).1
            exact Bool.and_eq_true_iff.2 ⟨(Bool.and_eq_true_iff.1 hloaded).1, rfl⟩
        · rw [hcall] at hrow
          rcases (Table.mem_of_insert hinsert).1 hrow with hold | rfl
          · exact h row hold
          · rfl

/-- The driver converts no text of the CRM. -/
theorem storable_of_flush {lead row : Trade.TradeLead} (h : lead.flush = some row) :
    row.storable = lead.storable := by
  obtain ⟨_, _, -, -, -, rfl⟩ := Trade.flush_eq_some h
  rfl

section Registration

variable {py : LowerCase} {program : Trade.TradeProgram} {payload : Trade.Registration}
  {uuid : String} {t t' : Trade.TradeLeads} {p : Trade.Participant}

theorem storable_primaryWrite (h : ∀ lead ∈ t.rows, lead.2.storable = true)
    (hwrite : Trade.PrimaryWrite py program payload uuid t p t') :
    ∀ lead ∈ t'.rows, lead.2.storable = true := by
  intro lead hlead
  cases hwrite with
  | registered hnone hflush hinsert =>
      rcases (Table.mem_of_insert hinsert).1 hlead with hold | rfl
      · exact h lead hold
      · exact storable_of_flush hflush
  | merged hfound hflush hupdate =>
      rcases (Table.mem_of_update hupdate).1 hlead with ⟨hold, -⟩ | ⟨rfl, -⟩
      · exact h lead hold
      · exact (storable_of_flush hflush).trans (h _ (Trade.getByProgramEmail_eq_some hfound).1)

theorem storable_secondWrite {s : Trade.Participant} {kwargs : Trade.SecondKwargs}
    (h : ∀ lead ∈ t.rows, lead.2.storable = true) (hprimary : p ∈ t.rows)
    (hwrite : Trade.SecondWrite program payload p kwargs t s t') :
    ∀ lead ∈ t'.rows, lead.2.storable = true := by
  intro lead hlead
  cases hwrite with
  | joined hnone hflush hinsert =>
      rcases (Table.mem_of_insert hinsert).1 hlead with hold | rfl
      · exact h lead hold
      · exact storable_of_flush hflush
  | rejoined hfound hflush hupdate =>
      rcases (Table.mem_of_update hupdate).1 hlead with ⟨hold, -⟩ | ⟨rfl, -⟩
      · exact h lead hold
      · exact (storable_of_flush hflush).trans
          (h _ (Trade.findSecond_eq_some hprimary hfound).1)

theorem storable_captureRegistration (programs : List Trade.TradeProgram) (slug : String)
    (h : ∀ lead ∈ t.rows, lead.2.storable = true) :
    ∀ lead ∈ (Trade.captureRegistration py programs slug payload uuid t).1.rows,
      lead.2.storable = true := by
  rcases Trade.captureRegistration_captureWrites py programs slug payload uuid t with
    hsame | ⟨program, -, hwrites⟩
  · rw [hsame]
    exact h
  · generalize (Trade.captureRegistration py programs slug payload uuid t).1 = t' at hwrites
    cases hwrites with
    | nothing => exact h
    | primary hprimary => exact storable_primaryWrite h hprimary
    | both hprimary hnamed hsecond =>
        exact storable_secondWrite (storable_primaryWrite h hprimary) hprimary.stored.1 hsecond

end Registration

/-- `capture_lead_created`. -/
def Database.captureLead (py : LowerCase) (campaigns : List Leads.Campaign) (slug : String)
    (payload : Leads.LeadCreateRequest) (now : Datetime) (missed : Bool) (db : Database) : Database :=
  { db with
    leads := (Leads.captureLeadCreated py campaigns slug payload now missed db.leads).1
    leadTexts := storable_captureLeadCreated db.leadTexts }

/-- `capture_registration`. -/
def Database.captureRegistration (py : LowerCase) (programs : List Trade.TradeProgram)
    (slug : String) (payload : Trade.Registration) (uuid : String) (db : Database) : Database :=
  { db with
    participants := (Trade.captureRegistration py programs slug payload uuid db.participants).1
    participantTexts := storable_captureRegistration programs slug db.participantTexts
    flushed :=
      (Trade.captured_registration py programs slug payload uuid db.participants).flushed db.flushed }

/-! ## Calls and sweeps -/

/-- `deliver_pack` returns with its outcome recorded on the row. -/
def DeliveryRecorded (transport : Bool) (campaign : Leads.Campaign) (row : Leads.LeadRow)
    (a : Leads.Attempt) (d : Leads.Delivery) : Prop :=
  (Leads.deliverPackTo transport campaign row a d).2 =
      .ok (row.1, (Leads.deliverPack transport row.2 campaign a).1) ∧
    (row.1, (Leads.deliverPack transport row.2 campaign a).1) ∈
      (Leads.deliverPackTo transport campaign row a d).1.leads.rows

/-- **When a row poisons a sweep.** For all tables, configurations and answers: a call of `sync_lead` or
`sync_trade_lead` records its outcome exactly when it is safe, a call of `deliver_pack` always does; and
a sweep records the outcome of every row it selects exactly when the call for each of them is safe. -/
theorem sweeps_recorded_iff (db : Database) (globalSync transport : Bool)
    (campaigns : List Leads.Campaign) (programs : List Trade.TradeProgram)
    (upserts : List Leads.Upsert) (pushes : List Trade.Push) (mails : List Leads.Mail) :
    (∀ force campaign answers now, ∀ row ∈ db.leads.rows,
      Leads.SyncRecorded globalSync force campaign row answers now (db.leads, upserts) ↔
        Leads.SyncSafe globalSync force campaign row.2 answers) ∧
    (∀ program response now, ∀ lead ∈ db.participants.rows,
      Trade.SyncRecorded globalSync program lead response now (db.participants, pushes) ↔
        Trade.SyncSafe globalSync program lead.2 response) ∧
    (∀ campaign a, ∀ row ∈ db.leads.rows,
      DeliveryRecorded transport campaign row a ⟨db.leads, mails⟩) ∧
    (∀ answers limit,
      Leads.PendingRecorded globalSync campaigns answers limit (db.leads, upserts) ↔
        ∀ row ∈ Leads.selectedLeads globalSync db.leads limit, ∀ campaign,
          Leads.getCampaign campaigns row.2.campaignId = some campaign →
            Leads.SyncSafe globalSync false campaign row.2 (answers row.1).1) ∧
    (∀ o limit,
      Trade.PendingRecorded globalSync programs o limit (db.participants, pushes) ↔
        ∀ lead ∈ Trade.selectedParticipants globalSync db.participants limit, ∀ program,
          Trade.getProgram programs lead.2.tradeProgramId = some program →
            Trade.SyncSafe globalSync program lead.2 (o.responses lead.1)) ∧
    ∀ attempts limit,
      Leads.DeliveriesRecorded transport campaigns attempts limit ⟨db.leads, mails⟩ := by
  -- the single calls, then their sweeps
  refine ⟨?_, ?_, ?_, ?_, ?_, ?_⟩
  · intro force campaign answers now row hrow
    exact Leads.syncRecorded_iff hrow (db.leadTexts row hrow)
  · intro program response now lead hlead
    exact Trade.syncRecorded_iff hlead (db.participantTexts lead hlead) (db.flushed lead hlead)
  · intro campaign a row hrow
    exact Leads.delivery_recorded transport campaign a hrow
  · intro answers limit
    exact Leads.pendingRecorded_iff db.leadTexts
  · intro o limit
    exact Trade.pendingRecorded_iff db.participantTexts db.flushed
  · intro attempts limit
    exact Leads.deliveriesRecorded transport campaigns attempts limit _

end Driver

attribute [local instance] Trade.plainDriver

/-! ## A second participant that is a text -/

/-- The fair with both of its documents. -/
def fair : List Leads.Campaign := [⟨1, "nog-2026", .active, Leads.twoDocuments⟩]

/-- Ada gives the name of her second participant instead of a form, and Ben registers after her. -/
def adaThenBen : Database :=
  let ada := { Leads.packRequest [] with responses := [("second_participant", .str "Bola")] }
  let ben := { Leads.packRequest [] with firstName := "Ben", email := Trade.benEmail }
  (Database.empty.captureLead asciiLower fair "nog-2026" ada ⟨0, some 0⟩ false).captureLead
    asciiLower fair "nog-2026" ben ⟨1, some 0⟩ false

/-- The CRM takes every contact. -/
def takesAll : Nat → Leads.CrmAnswers × Datetime :=
  fun _ => (⟨.contact (some "7"), .contact (some "7"), .contact (some "7")⟩, ⟨2, some 0⟩)

/-- The sweep ends at Ada's lead: her contact has been sent, but nothing is recorded, and Ben's has not
been sent. -/
theorem text_participant_blocks :
    ¬ Leads.PendingRecorded true fair takesAll 200 (adaThenBen.leads, []) ∧
    (Leads.storePending true fair takesAll 200 (adaThenBen.leads, [])).2 = .error .attributeError ∧
    (∀ row ∈ (Leads.storePending true fair takesAll 200 (adaThenBen.leads, [])).1.1.rows,
      row.2.crmSyncStatus = .pending) ∧
    (adaThenBen.leads.rows.map fun row => row.2.firstName) = ["Ada", "Ben"] ∧
    (Leads.lastUpsert (Leads.storePending true fair takesAll 200 (adaThenBen.leads, [])).1.2 2) =
      none := by
  have hraises : (Leads.storePending true fair takesAll 200 (adaThenBen.leads, [])).2 =
      .error .attributeError := rfl
  refine ⟨?_, hraises, by decide, rfl, rfl⟩
  rintro ⟨⟨n, hn⟩, -⟩
  rw [hraises] at hn
  cases hn

/-- A contact whose id has a NUL character ends the other sweep. -/
example :
    (Trade.storePendingTrade true [Trade.openProgram] ⟨fun _ => .contact (some "\x00"), 0⟩ 200
      ((Database.empty.captureRegistration asciiLower [Trade.openProgram] "launchpad"
        Trade.adaAlone "r-ada").participants, [])).2 = .error .dataError := rfl

end SalesTrades.Jobs
