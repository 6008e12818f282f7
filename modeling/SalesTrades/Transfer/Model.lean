import SalesTrades.Emails.Model
import SalesTrades.Trade.Capture

/-!
# The transfer of Export Launchpad registrations

The script `transfer_export_launchpad.py`, which turns the leads of a campaign into participants of the
trade program of the same name. The columns of `trade_leads` that only this script fills stand beside the
table (`TransferColumns`), and `email_events` has the column `trade_lead_id`. `create_lead` commits, the
UPDATE that points the events of a lead at its primary does not. So a run is modelled by the list of the
states it commits, each with the statement that it follows (`CommitPoint`).
-/

set_option autoImplicit false

namespace SalesTrades.Transfer

open SalesTrades.Library SalesTrades.Trade

/-! ## Rows -/

/-- The columns of `trade_leads` that the transfer alone fills. -/
structure TransferColumns where
  middleName : Json
  openedAt : Option Datetime
  openedCount : Int
  clickedMaterials : Option (List String)

/-- An instance of `TradeLead` as the script builds it. -/
structure TransferLead extends TradeLead, TransferColumns

/-- A row of `email_events`. -/
structure LeadEvent extends Emails.EmailEvent where
  tradeLeadId : Option Nat
  deriving DecidableEq

/-- What the script writes. `trade_lead_id` is a foreign key. -/
structure TransferDb where
  trade : TradeLeads
  columns : List (Nat × TransferColumns)
  events : List LeadEvent
  foreignKey : ∀ e ∈ events, ∀ id, e.tradeLeadId = some id → ∃ q ∈ trade.rows, q.1 = id

/-- What the script only reads. -/
structure TransferSource where
  campaigns : List Leads.Campaign
  programs : List TradeProgram
  leads : Leads.LeadTable

/-! ## Building the participants -/

def sourceCampaignSlug : String := "export-launchpad-2026"

def tradeProgramSlug : String := "export-launchpad-2026"

/-- `_registration_id`. -/
def registrationId (sourceLeadId : Nat) : String := "campaign-lead-" ++ toString sourceLeadId

/-- Leads have different registration ids. -/
theorem registrationId_injective : Function.Injective registrationId := by
  intro m n h
  have hdigits : Nat.toDigits 10 m = Nat.toDigits 10 n := by
    have hlist := congrArg String.toList h
    simpa [registrationId, String.toList_append] using hlist
  rw [← Nat.ofDigitChars_ten_toDigits (n := m), hdigits, Nat.ofDigitChars_ten_toDigits]

/-- `_shared_fields`, on `lead.responses or {}`. -/
def sharedFields (responses : Json) : Except PyError (SharedKey → Json) :=
  match responses.orElse (.obj []) with
  | .obj members => .ok fun k => Json.member members k.name
  | _ => .error .attributeError

/-- `_build_primary`. -/
def buildPrimary (py : LowerCase) (lead : Leads.LeadRow) (programId : Nat) (shared : SharedKey → Json) :
    Except PyError TransferLead :=
  -- unlike the other readers of `responses`, without `or {}`
  (lead.2.responses.get "middle_name").map fun middleName =>
    { tradeProgramId := programId
      registrationId := registrationId lead.1
      participantIndex := 1
      isPrimary := true
      firstName := lead.2.firstName
      middleName := middleName
      lastName := lead.2.lastName
      email := py.lower (strip lead.2.email)
      phone := (Json.str lead.2.phone).orElse .null
      jobTitle := Json.ofOption lead.2.jobTitle
      company := some lead.2.company
      shared := shared
      source := "campaign_transfer"
      tags := none
      capturedAt := lead.2.capturedAt
      responses := lead.2.responses
      -- whatever the status of the lead is
      crmSyncStatus := .synced
      crmSyncedAt := lead.2.crmSyncedAt.map Datetime.instant
      crmContactId := lead.2.crmContactId
      crmError := lead.2.crmError
      eligibilityStatus := .notRequested
      reviewStatus := .pending
      reviewedAt := none
      reviewedBy := none
      openedAt := lead.2.packOpenedAt
      openedCount := lead.2.packOpenedCount
      clickedMaterials := lead.2.packClickedMaterials }

/-- The row of `_build_second_participant` with its warning, for a second participant with a name. -/
def secondRow (py : LowerCase) (lead : Leads.LeadRow) (programId : Nat) (primaryEmail : String)
    (shared : SharedKey → Json) (second : Json) (firstName lastName : String) :
    Except PyError (Option TransferLead × Option String) := do
  let given := py.lower (← stripOrEmpty (← second.get "email"))
  let collides := given ≠ "" ∧ given = primaryEmail
  let warning := if collides then
    some (s!"2nd participant email '{given}' matches the primary's — dropping it " ++
      "(kept in responses) to avoid a duplicate-email row") else none
  let phone ← second.get "phone"
  let jobTitle ← second.get "job_title"
  return (some
    { tradeProgramId := programId
      registrationId := registrationId lead.1
      participantIndex := 2
      isPrimary := false
      firstName := if firstName = "" then "—" else firstName
      middleName := .null
      lastName := if lastName = "" then "—" else lastName
      email := if collides then "" else given
      phone := phone.orElse .null
      jobTitle := jobTitle
      company := some lead.2.company
      shared := shared
      source := "campaign_transfer"
      tags := none
      capturedAt := none
      responses := second
      crmSyncStatus := .pending
      crmSyncedAt := none
      crmContactId := none
      crmError := none
      eligibilityStatus := .notRequested
      reviewStatus := .pending
      reviewedAt := none
      reviewedBy := none
      openedAt := none
      openedCount := 0
      clickedMaterials := none }, warning)

/-- `_build_second_participant`. -/
def buildSecondParticipant (py : LowerCase) (lead : Leads.LeadRow) (programId : Nat)
    (primaryEmail : String) (shared : SharedKey → Json) :
    Except PyError (Option TransferLead × Option String) := do
  let second := (← (lead.2.responses.orElse (.obj [])).get "second_participant").orElse (.obj [])
  let firstName ← stripOrEmpty (← second.get "first_name")
  let lastName ← stripOrEmpty (← second.get "last_name")
  if firstName = "" ∧ lastName = "" then return (none, none)
  else secondRow py lead programId primaryEmail shared second firstName lastName

/-- An entry of `to_create`. -/
structure TransferItem where
  lead : Leads.LeadRow
  primary : TransferLead
  second : Option TransferLead
  warning : Option String

def buildItem (py : LowerCase) (programId : Nat) (lead : Leads.LeadRow) : Except PyError TransferItem :=
  do
  let shared ← sharedFields lead.2.responses
  let primary ← buildPrimary py lead programId shared
  let second ← buildSecondParticipant py lead programId primary.email shared
  return ⟨lead, primary, second.1, second.2⟩

/-! ## The run -/

/-- A row has the registration id of the lead. -/
def Started (db : TransferDb) (lead : Leads.LeadRow) : Prop :=
  listByRegistration db.trade (registrationId lead.1) ≠ []

instance (db : TransferDb) (lead : Leads.LeadRow) : Decidable (Started db lead) :=
  inferInstanceAs (Decidable (_ ≠ _))

/-- The loop that fills `to_create`. -/
def selectItems (py : LowerCase) (programId : Nat) (db : TransferDb) :
    List Leads.LeadRow → Except PyError (List TransferItem)
  | [] => .ok []
  | lead :: rest =>
      if Started db lead then selectItems py programId db rest
      else do
        let item ← buildItem py programId lead
        let items ← selectItems py programId db rest
        return item :: items

/-- The statement that a commit follows: the INSERT of a primary, of a second participant, or the commit
at the end. -/
inductive CommitPoint where
  | primary (lead : Leads.LeadRow)
  | second (lead : Leads.LeadRow)
  | final

section Writes

variable [ColumnDriver]

/-- `create_lead`, which commits what the transaction holds. -/
def createParticipant (db : TransferDb) (lead : TransferLead) : Except PyError (Nat × TransferDb) :=
  match ColumnType.text.bind lead.middleName with
  | none => .error .dataError
  | some _ =>
      match h : createLead db.trade lead.toTradeLead with
      | .error e => .error e
      | .ok (row, trade) =>
          .ok (row.1,
            { trade := trade
              columns := db.columns ++ [(row.1, lead.toTransferColumns)]
              events := db.events
              foreignKey := fun e he id hid => by
                obtain ⟨q, hq, hqid⟩ := db.foreignKey e he id hid
                exact ⟨q, (Table.mem_of_insert (createLead_ok h).2).2 (Or.inl hq), hqid⟩ })

/-- The UPDATE of the lead's events. -/
def repointed (leadId tradeLeadId : Nat) (events : List LeadEvent) : List LeadEvent :=
  events.map fun e => if e.leadId = leadId then { e with tradeLeadId := some tradeLeadId } else e

/-- The UPDATE on its own, not yet committed. The foreign key rejects the id of no row. -/
def repointEvents (db : TransferDb) (leadId tradeLeadId : Nat) : Except PyError TransferDb :=
  if h : ∃ q ∈ db.trade.rows, q.1 = tradeLeadId then
    .ok
      { db with
        events := repointed leadId tradeLeadId db.events
        foreignKey := fun e he id hid => by
          obtain ⟨e', he', rfl⟩ := List.mem_map.1 he
          split at hid
          · obtain rfl : tradeLeadId = id := Option.some.inj hid
            exact h
          · exact db.foreignKey e' he' id hid }
  else .error .integrityError

/-- One pass of the loop over `to_create`: what it commits, and the state of the transaction after it. -/
def transferItem (db : TransferDb) (item : TransferItem) :
    List (CommitPoint × TransferDb) × Except PyError TransferDb :=
  match createParticipant db item.primary with
  | .error e => ([], .error e)
  | .ok (id, db₁) =>
      match repointEvents db₁ item.lead.1 id with
      | .error e => ([(.primary item.lead, db₁)], .error e)
      | .ok db₂ =>
          match item.second with
          -- the UPDATE waits for the next commit
          | none => ([(.primary item.lead, db₁)], .ok db₂)
          | some second =>
              match createParticipant db₂ second with
              | .error e => ([(.primary item.lead, db₁)], .error e)
              | .ok (_, db₃) => ([(.primary item.lead, db₁), (.second item.lead, db₃)], .ok db₃)

/-- The loop over `to_create` with the commit after it. -/
def transferLoop (db : TransferDb) : List TransferItem →
    List (CommitPoint × TransferDb) × Except PyError TransferDb
  | [] => ([(.final, db)], .ok db)
  | item :: rest =>
      match transferItem db item with
      | (commits, .error e) => (commits, .error e)
      | (commits, .ok db') =>
          let result := transferLoop db' rest
          (commits ++ result.1, result.2)

/-- How a run ends that does not raise. -/
inductive Outcome where
  | noCampaign
  | noProgram
  | preview
  | done
  deriving DecidableEq

/-- `run(commit)`: what it commits, and how it ends. -/
def run (py : LowerCase) (source : TransferSource) (commit : Bool) (db : TransferDb) :
    List (CommitPoint × TransferDb) × Except PyError (Outcome × TransferDb) :=
  match Leads.getBySlug source.campaigns sourceCampaignSlug with
  | none => ([], .ok (.noCampaign, db))
  | some campaign =>
      match getProgramBySlug source.programs tradeProgramSlug with
      | none => ([], .ok (.noProgram, db))
      | some program =>
          match selectItems py program.id db
              (Leads.listForCampaign source.leads campaign.id 100000) with
          | .error e => ([], .error e)
          | .ok items =>
              if commit then
                let result := transferLoop db items
                (result.1, result.2.map fun db' => (.done, db'))
              else ([], .ok (.preview, db))

end Writes

/-- The leads of the source campaign, newest first. -/
def campaignLeads (source : TransferSource) : List Leads.LeadRow :=
  match Leads.getBySlug source.campaigns sourceCampaignSlug with
  | none => []
  | some campaign => (source.leads.select fun l => l.campaignId == campaign.id).reverse

/-- The leads that a run reads. -/
def sourceLeads (source : TransferSource) : List Leads.LeadRow := (campaignLeads source).take 100000

/-! ## What the script builds -/

section Build

variable {py : LowerCase} {lead : Leads.LeadRow} {programId : Nat} {primaryEmail : String}
  {shared : SharedKey → Json}

/-- `(value or "").strip()` is a text with a character. -/
def Named (v : Json) : Prop := stripOrEmpty v ≠ .ok ""

/-- The lead names a second participant. -/
def NamesSecond (responses : Json) : Prop :=
  ∃ members second, responses = .obj members ∧
    Json.member members "second_participant" = .obj second ∧
    (Named (Json.member second "first_name") ∨ Named (Json.member second "last_name"))

theorem buildPrimary_ok {primary : TransferLead}
    (h : buildPrimary py lead programId shared = .ok primary) :
    primary.registrationId = registrationId lead.1 ∧ primary.participantIndex = 1 ∧
      primary.isPrimary = true ∧ primary.crmSyncStatus = .synced := by
  unfold buildPrimary at h
  cases hname : lead.2.responses.get "middle_name" with
  | error e =>
      rw [hname] at h
      cases h
  | ok middleName =>
      rw [hname] at h
      cases h
      exact ⟨rfl, rfl, rfl, rfl⟩

/-- The row of a second participant. -/
structure SecondOf (lead : Leads.LeadRow) (row : TransferLead) : Prop where
  registration : row.registrationId = registrationId lead.1
  second : row.participantIndex = 2
  isPrimary : row.isPrimary = false
  pending : row.crmSyncStatus = .pending

theorem secondRow_ok {second : Json} {firstName lastName : String}
    {result : Option TransferLead × Option String}
    (h : secondRow py lead programId primaryEmail shared second firstName lastName = .ok result) :
    ∃ row, result.1 = some row ∧ SecondOf lead row := by
  unfold secondRow at h
  obtain ⟨email, -, h⟩ := bind_eq_ok.1 h
  obtain ⟨given, -, h⟩ := bind_eq_ok.1 h
  obtain ⟨phone, -, h⟩ := bind_eq_ok.1 h
  obtain ⟨jobTitle, -, h⟩ := bind_eq_ok.1 h
  cases h
  exact ⟨_, rfl, rfl, rfl, rfl, rfl⟩

/-- `{...} or {}` is the object. -/
theorem obj_orElse (members : List (String × Json)) :
    (Json.obj members).orElse (.obj []) = .obj members := by
  cases members <;> rfl

/-- A value with members is the one before `or {}`. -/
theorem orElse_obj {value : Json} {members : List (String × Json)}
    (h : value.orElse (.obj []) = .obj members) : value = .obj members ∨ members = [] := by
  unfold Json.orElse at h
  split at h
  · exact Or.inl h
  · cases h
    exact Or.inr rfl

theorem buildSecondParticipant_ok {result : Option TransferLead × Option String}
    (h : buildSecondParticipant py lead programId primaryEmail shared = .ok result) :
    (result.1.isSome = true ↔ NamesSecond lead.2.responses) ∧
      ∀ row, result.1 = some row → SecondOf lead row := by
  unfold buildSecondParticipant at h
  obtain ⟨value, hvalue, h₁⟩ := bind_eq_ok.1 h
  obtain ⟨a, ha, h₂⟩ := bind_eq_ok.1 h₁
  obtain ⟨firstName, hfirst, h₃⟩ := bind_eq_ok.1 h₂
  obtain ⟨b, hb, h₄⟩ := bind_eq_ok.1 h₃
  obtain ⟨lastName, hlast, hrow⟩ := bind_eq_ok.1 h₄
  obtain ⟨members, hmembers, rfl⟩ := get_eq_ok_iff.1 hvalue
  obtain ⟨second, hsecond, rfl⟩ := get_eq_ok_iff.1 ha
  obtain ⟨second', hsecond', rfl⟩ := get_eq_ok_iff.1 hb
  obtain rfl : second = second' := Json.obj.inj (hsecond.symm.trans hsecond')
  have hnames : NamesSecond lead.2.responses ↔ ¬ (firstName = "" ∧ lastName = "") := by
    constructor
    · rintro ⟨ms, sm, hresponses, hobj, hnamed⟩ ⟨rfl, rfl⟩
      rw [hresponses, obj_orElse] at hmembers
      obtain rfl : ms = members := Json.obj.inj hmembers
      rw [hobj, obj_orElse] at hsecond
      obtain rfl : sm = second := Json.obj.inj hsecond
      exact hnamed.elim (fun hn => hn hfirst) (fun hn => hn hlast)
    · intro hsome
      -- a name has to come from somewhere: neither `or {}` took the default
      have hne : second ≠ [] := by
        rintro rfl
        exact hsome ⟨(Except.ok.inj hfirst).symm, (Except.ok.inj hlast).symm⟩
      have hobj := (orElse_obj hsecond).resolve_right hne
      have hresponses := (orElse_obj hmembers).resolve_right (by rintro rfl; cases hobj)
      refine ⟨members, second, hresponses, hobj, ?_⟩
      by_contra hnone
      obtain ⟨hf, hl⟩ := not_or.1 hnone
      rw [Named, not_not, hfirst] at hf
      rw [Named, not_not, hlast] at hl
      exact hsome ⟨Except.ok.inj hf, Except.ok.inj hl⟩
  rw [hnames]
  split at hrow
  · rename_i hblank
    cases hrow
    exact ⟨by simp [hblank], fun row hsome => nomatch hsome⟩
  · rename_i hname
    obtain ⟨row, hsome, hof⟩ := secondRow_ok hrow
    rw [hsome]
    refine ⟨iff_of_true rfl hname, fun row' hsome' => ?_⟩
    obtain rfl : row = row' := Option.some.inj hsome'
    exact hof

/-- What an entry of `to_create` holds. -/
structure ItemOf (lead : Leads.LeadRow) (item : TransferItem) : Prop where
  lead_eq : item.lead = lead
  registration : item.primary.registrationId = registrationId lead.1
  first : item.primary.participantIndex = 1
  isPrimary : item.primary.isPrimary = true
  synced : item.primary.crmSyncStatus = .synced
  second_iff : item.second.isSome = true ↔ NamesSecond lead.2.responses
  second : ∀ row, item.second = some row → SecondOf lead row

theorem buildItem_ok {item : TransferItem} (h : buildItem py programId lead = .ok item) :
    ItemOf lead item := by
  unfold buildItem at h
  obtain ⟨shared, -, h⟩ := bind_eq_ok.1 h
  obtain ⟨primary, hprimary, h⟩ := bind_eq_ok.1 h
  obtain ⟨second, hsecond, h⟩ := bind_eq_ok.1 h
  cases h
  obtain ⟨hregistration, hfirst, hisPrimary, hsynced⟩ := buildPrimary_ok hprimary
  obtain ⟨hiff, hof⟩ := buildSecondParticipant_ok hsecond
  exact ⟨rfl, hregistration, hfirst, hisPrimary, hsynced, hiff, hof⟩

end Build

/-! ## What a run selects -/

theorem started_iff {db : TransferDb} {lead : Leads.LeadRow} : Started db lead ↔
    ∃ q ∈ db.trade.rows, q.2.registrationId = registrationId lead.1 := by
  rw [Started, listByRegistration, ne_eq, ← List.length_eq_zero_iff, List.length_insertionSort,
    List.length_eq_zero_iff, Table.select, List.filter_eq_nil_iff]
  simp

/-- The entries are built from the leads without a row, in order. -/
theorem selectItems_eq_ok {py : LowerCase} {programId : Nat} {db : TransferDb}
    {leads : List Leads.LeadRow} {items : List TransferItem} :
    selectItems py programId db leads = .ok items ↔
      List.Forall₂ (fun lead item => buildItem py programId lead = .ok item)
        (leads.filter fun lead => ¬ Started db lead) items := by
  induction leads generalizing items with
  | nil => simp [selectItems, eq_comm]
  | cons lead rest ih =>
      by_cases hstarted : Started db lead
      · rw [selectItems, if_pos hstarted, ih, List.filter_cons_of_neg (by simpa using hstarted)]
      · rw [selectItems, if_neg hstarted, List.filter_cons_of_pos (by simpa using hstarted)]
        constructor
        · intro h
          obtain ⟨item, hitem, h⟩ := bind_eq_ok.1 h
          obtain ⟨items', hitems, h⟩ := bind_eq_ok.1 h
          cases h
          exact .cons hitem (ih.1 hitems)
        · rintro (_ | ⟨hitem, hitems⟩)
          exact bind_eq_ok.2 ⟨_, hitem, bind_eq_ok.2 ⟨_, ih.2 hitems, rfl⟩⟩

end SalesTrades.Transfer
