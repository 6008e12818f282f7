import SalesTrades.Jobs.Sweeps
import SalesTrades.Library.Backlog

/-!
# Which rows the retries get to

`sync_pending`, `sync_pending_trade` and `deliver_pending` repeated without another writer. Each takes
the oldest rows that are pending or failed, and a row that fails is among them again the next time. So
rows that always fail use up the limit of every later run. As many runs as the rows fill attempt every
row exactly when these rows leave enough room (`retries_cover_iff`), and one of them is enough to keep
all later rows out of a sweep with limit 1 (`failing_row_starves`).
-/

set_option autoImplicit false

namespace SalesTrades.Jobs

open SalesTrades.Library SalesTrades.Library.Sweep SalesTrades.Library.Backlog

/-! ## The three sweeps -/

theorem leadPush_clean (globalSync : Bool) (campaigns : List Leads.Campaign)
    (answers : Nat → Leads.CrmAnswers × Datetime) :
    RaisesClean (fun s : Leads.LeadTable × List Leads.Upsert => s.1)
      (Leads.syncPass globalSync campaigns answers) := by
  apply raisesClean_of_store (fun row => Leads.getCampaign campaigns row.2.campaignId)
    (fun row campaign => Leads.storeSync globalSync false campaign row (answers row.1).1
      (answers row.1).2) fun row' => if row'.2.crmSyncStatus = .synced then 1 else 0
  · intro row s hcampaign
    simp only [Leads.syncPass, hcampaign]
  · intro row campaign s hcampaign
    simp only [Leads.syncPass, hcampaign]
  · intro row campaign s e
    unfold Leads.storeSync
    split
    · exact fun _ => rfl
    · split
      · exact fun _ => rfl
      · exact fun h => by cases h

theorem participantPush_clean [Trade.ColumnDriver] (globalSync : Bool)
    (programs : List Trade.TradeProgram) (o : Trade.SyncOutside) :
    RaisesClean (fun s : Trade.TradeLeads × List Trade.Push => s.1)
      (Trade.storePass globalSync programs o) := by
  apply raisesClean_of_store (fun lead => Trade.getProgram programs lead.2.tradeProgramId)
    (fun lead program => Trade.storeSync globalSync program lead (o.responses lead.1) o.now)
    fun lead' => if lead'.2.crmSyncStatus = .synced then 1 else 0
  · intro lead s hprogram
    simp only [Trade.storePass, hprogram]
  · intro lead program s hprogram
    simp only [Trade.storePass, hprogram]
  · intro lead program s e
    unfold Trade.storeSync
    split
    · exact fun _ => rfl
    · split
      · exact fun _ => rfl
      · exact fun h => by cases h

theorem packDelivery_clean (transport : Bool) (campaigns : List Leads.Campaign)
    (attempts : Nat → Leads.Attempt) :
    RaisesClean Leads.Delivery.leads (Leads.deliverPass transport campaigns attempts) := by
  apply raisesClean_of_store (fun row => Leads.getCampaign campaigns row.2.campaignId)
    (fun row campaign => Leads.deliverPackTo transport campaign row (attempts row.1))
    fun row' => if row'.2.packDeliveryStatus = .sent then 1 else 0
  · intro row d hcampaign
    simp only [Leads.deliverPass, hcampaign]
  · intro row campaign d hcampaign
    simp only [Leads.deliverPass, hcampaign]
  · intro row campaign d e
    unfold Leads.deliverPackTo
    split
    · exact fun _ => rfl
    · exact fun h => by cases h

/-- `sync_pending`; `answers r` says how the syncs of run `r` go. -/
def leadPushes (globalSync : Bool) (campaigns : List Leads.Campaign)
    (answers : Nat → Nat → Leads.CrmAnswers × Datetime) :
    Retries Leads.Lead.emailKey (Leads.LeadTable × List Leads.Upsert) PyError where
  table s := s.1
  waiting l := l.crmSyncStatus == .failed || l.crmSyncStatus == .pending
  on := globalSync
  visit r := Leads.syncPass globalSync campaigns (answers r)
  outcome r := Leads.passOutcome globalSync campaigns (answers r)
  visits _ := Leads.syncPass_rowVisits
  clean r := leadPush_clean globalSync campaigns (answers r)

/-- `sync_pending_trade`. -/
def participantPushes [Trade.ColumnDriver] (globalSync : Bool)
    (programs : List Trade.TradeProgram) (o : Nat → Trade.SyncOutside) :
    Retries Trade.TradeLead.emailKey (Trade.TradeLeads × List Trade.Push) PyError where
  table s := s.1
  waiting l := l.crmSyncStatus == .failed || l.crmSyncStatus == .pending
  on := globalSync
  visit r := Trade.storePass globalSync programs (o r)
  outcome r := Trade.passOutcome globalSync programs (o r)
  visits _ := Trade.storePass_rowVisits
  clean r := participantPush_clean globalSync programs (o r)

/-- `deliver_pending`, which nothing switches off. -/
def packDeliveries (transport : Bool) (campaigns : List Leads.Campaign)
    (attempts : Nat → Nat → Leads.Attempt) :
    Retries Leads.Lead.emailKey Leads.Delivery PyError where
  table := Leads.Delivery.leads
  waiting := Leads.waiting
  on := true
  visit r := Leads.deliverPass transport campaigns (attempts r)
  outcome r := Leads.deliverOutcome transport campaigns (attempts r)
  visits _ := Leads.deliverPass_rowVisits
  clean r := packDelivery_clean transport campaigns (attempts r)

/-! ### The runs are those of the jobs -/

theorem leadPushes_run (globalSync : Bool) (campaigns : List Leads.Campaign)
    (answers : Nat → Nat → Leads.CrmAnswers × Datetime) (limit r : Nat)
    (s : Leads.LeadTable × List Leads.Upsert) :
    (leadPushes globalSync campaigns answers).run limit r s =
      Leads.storePending globalSync campaigns (answers r) limit s := rfl

theorem participantPushes_run [Trade.ColumnDriver] (globalSync : Bool)
    (programs : List Trade.TradeProgram) (o : Nat → Trade.SyncOutside) (limit r : Nat)
    (s : Trade.TradeLeads × List Trade.Push) :
    (participantPushes globalSync programs o).run limit r s =
      Trade.storePendingTrade globalSync programs (o r) limit s := rfl

theorem packDeliveries_run (transport : Bool) (campaigns : List Leads.Campaign)
    (attempts : Nat → Nat → Leads.Attempt) (limit r : Nat) (d : Leads.Delivery) :
    (packDeliveries transport campaigns attempts).run limit r d =
      Leads.deliverPending transport campaigns (attempts r) limit d := by
  rw [Leads.deliverPending, Leads.deliverLoop_eq_sweep]
  rfl

/-! ## Coverage -/

/-- The rows can be attempted, and those that always fail leave the runs enough room. -/
def RoomFor (on : Bool) (fate : Nat → Fate) (limit : Nat) (rows : List Nat) : Prop :=
  (∀ id ∈ rows, on = true ∧ fate id ≠ .passed) ∧
    rows.length ≤ frontier fate limit rows (runsFor rows.length limit)

/-- **Which rows the retries get to.** For all tables, configurations and limits, and all answers under
which every row either leaves the selection at its attempt or fails at every attempt: as many runs as
the rows fill attempt every row if and only if there is room for them. -/
theorem retries_cover_iff [Trade.ColumnDriver] (limit : Nat) :
    (∀ globalSync campaigns answers s fate,
      let w := leadPushes globalSync campaigns answers
      let k := runsFor (w.backlog s).length limit
      w.Fated limit s fate k →
        (w.Covers limit s k ↔ RoomFor globalSync fate limit (w.backlog s))) ∧
    (∀ globalSync programs o s fate,
      let w := participantPushes globalSync programs o
      let k := runsFor (w.backlog s).length limit
      w.Fated limit s fate k →
        (w.Covers limit s k ↔ RoomFor globalSync fate limit (w.backlog s))) ∧
    ∀ transport campaigns attempts d fate,
      let w := packDeliveries transport campaigns attempts
      let k := runsFor (w.backlog d).length limit
      w.Fated limit d fate k →
        (w.Covers limit d k ↔ RoomFor true fate limit (w.backlog d)) :=
  ⟨fun _ _ _ _ _ hfated => Retries.covers_iff hfated,
    fun _ _ _ _ _ hfated => Retries.covers_iff hfated,
    fun _ _ _ _ _ hfated => Retries.covers_iff hfated⟩

/-! ## A row that always fails -/

attribute [local instance] Trade.plainDriver

/-- Ada's lead, and Ben's after it. -/
def adaBeforeBen (materials : List String) : Leads.LeadTable :=
  let ben := { Leads.packRequest materials with firstName := "Ben", email := Trade.benEmail }
  ((Database.empty.captureLead asciiLower fair "nog-2026" (Leads.packRequest materials) ⟨0, some 0⟩
    false).captureLead asciiLower fair "nog-2026" ben ⟨1, some 0⟩ false).leads

/-- Ada's registration, and Ben's after it. -/
def adaThenBenRegistered : Trade.TradeLeads :=
  ((Database.empty.captureRegistration asciiLower [Trade.openProgram] "launchpad" Trade.adaAlone
    "r-ada").captureRegistration asciiLower [Trade.openProgram] "launchpad" Trade.benAlone
    "r-ben").participants

/-- The first row always fails. -/
def firstFails (id : Nat) : Fate := if id = 1 then .stays else .leaves

/-- In every run the CRM is down for the first row. -/
def downForFirst (_r id : Nat) : Leads.CrmAnswers × Datetime :=
  let response := if id = 1 then Leads.CrmResponse.error "503" else .contact (some "7")
  (⟨response, response, response⟩, ⟨2, some 0⟩)

def tradeDownForFirst (_r : Nat) : Trade.SyncOutside :=
  ⟨fun id => if id = 1 then .error "503" else .contact (some "7"), 0⟩

/-- SendGrid rejects every email to the first row. -/
def rejectsFirst (_r id : Nat) : Leads.Attempt := ⟨id ≠ 1, ⟨2, some 0⟩⟩

/-- With limit 2 one run attempts both rows. -/
theorem retries_cover_two :
    (leadPushes true fair downForFirst).Covers 2 (adaBeforeBen [], []) 1 ∧
    (participantPushes true [Trade.openProgram] tradeDownForFirst).Covers 2
      (adaThenBenRegistered, []) 1 ∧
    (packDeliveries true fair rejectsFirst).Covers 2 ⟨adaBeforeBen ["Floorplans"], []⟩ 1 := by
  obtain ⟨hleads, hparticipants, hpacks⟩ := retries_cover_iff 2
  refine ⟨?_, ?_, ?_⟩
  · exact (hleads true fair downForFirst (adaBeforeBen [], []) firstFails (by decide)).2
      ⟨by decide, by decide⟩
  · exact (hparticipants true [Trade.openProgram] tradeDownForFirst (adaThenBenRegistered, [])
      firstFails (by decide)).2 ⟨by decide, by decide⟩
  · exact (hpacks true fair rejectsFirst ⟨adaBeforeBen ["Floorplans"], []⟩ firstFails
      (by decide)).2 ⟨by decide, by decide⟩

/-- With limit 1 neither of two runs gets past the first row, in any of the three sweeps. -/
theorem failing_row_starves :
    ¬ (leadPushes true fair downForFirst).Covers 1 (adaBeforeBen [], []) (runsFor 2 1) ∧
    ¬ (participantPushes true [Trade.openProgram] tradeDownForFirst).Covers 1
      (adaThenBenRegistered, []) (runsFor 2 1) ∧
    ¬ (packDeliveries true fair rejectsFirst).Covers 1 ⟨adaBeforeBen ["Floorplans"], []⟩
      (runsFor 2 1) := by
  -- one entry that clogs is as many as the limit
  have hstuck : frontier firstFails 1 [1, 2] (runsFor 2 1) ≤ 1 :=
    frontier_le_of_clogged (by decide) _
  have hshort : ¬ 2 ≤ frontier firstFails 1 [1, 2] (runsFor 2 1) := by omega
  have hleads : (leadPushes true fair downForFirst).Fated 1 (adaBeforeBen [], []) firstFails 2 := by
    decide
  have hparticipants : (participantPushes true [Trade.openProgram] tradeDownForFirst).Fated 1
      (adaThenBenRegistered, []) firstFails 2 := by
    decide +kernel
  have hpacks : (packDeliveries true fair rejectsFirst).Fated 1 ⟨adaBeforeBen ["Floorplans"], []⟩
      firstFails 2 := by
    decide
  refine ⟨fun hall => hshort ?_, fun hall => hshort ?_, fun hall => hshort ?_⟩
  · exact ((Retries.covers_iff hleads).1 hall).2
  · exact ((Retries.covers_iff hparticipants).1 hall).2
  · exact ((Retries.covers_iff hpacks).1 hall).2

end SalesTrades.Jobs
