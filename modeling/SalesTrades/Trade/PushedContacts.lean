import SalesTrades.Library.Sweep
import SalesTrades.Trade.CrmRuns

/-!
# What the CRM has of a participant

The sweep of `sync_pending_trade` with the payloads it sends, logged newest first. It stores what
`syncPendingTrade` stores (`pushPendingTrade_table`). A row that a sweep leaves synced is the contact
that was last pushed for it (`pushed_sweep`), since the payload reads none of the columns the sync
writes: it is determined by the `ContactFields` of the row, its address and its eligibility status.
-/

set_option autoImplicit false

namespace SalesTrades.Trade

open SalesTrades.Library SalesTrades.Library.Sweep

/-! ## The fields of a contact -/

/-- `cf_topics_of_interest`, from the value of its column. -/
def topicsSent (topicsOfInterest : Json) : Except String String :=
  let topics := match topicsOfInterest.orElse (.arr []) with
    | .arr xs => joinTexts xs 0
    | _ => .ok []
  topics.map fun topics => ", ".intercalate topics

/-- The fields of a contact that a submission determines. -/
structure ContactFields where
  firstName : String
  lastName : String
  mobileNumber : Json
  jobTitle : Json
  tags : List String
  cfCompany : Option String
  cfCountry : Json
  cfIndustrySector : Json
  cfCompanyFounded : Json
  cfEmployeeCount : Json
  cfSourcesInternationally : Json
  cfSellsInternationally : Json
  cfTopicsOfInterest : Except String String

def contactFields (firstName lastName : String) (phone jobTitle : Json) (tags : List String)
    (company : Option String) (shared : SharedKey → Json) : ContactFields where
  firstName := firstName
  lastName := lastName
  mobileNumber := phone
  jobTitle := jobTitle
  tags := tags
  cfCompany := company
  cfCountry := shared .country
  cfIndustrySector := shared .industrySector
  cfCompanyFounded := shared .companyFounded
  cfEmployeeCount := shared .employeeCount
  cfSourcesInternationally := shared .sourcesInternationally
  cfSellsInternationally := shared .sellsInternationally
  cfTopicsOfInterest := topicsSent (shared .topicsOfInterest)

def TradeLead.contactFields (l : TradeLead) : ContactFields :=
  Trade.contactFields l.firstName l.lastName l.phone l.jobTitle (l.tags.getD []) l.company l.shared

/-- What a submission says about its own participant. -/
def Registration.contactFields (payload : Registration) (program : TradeProgram) : ContactFields :=
  Trade.contactFields payload.firstName payload.lastName (Json.ofOption payload.phone)
    (Json.ofOption payload.jobTitle) program.config.baseTags payload.company
    (sharedFieldsFromResponses payload.responses)

/-- What a submission says about the second participant. -/
def SecondKwargs.contactFields (kwargs : SecondKwargs) (payload : Registration)
    (program : TradeProgram) : ContactFields :=
  Trade.contactFields kwargs.firstName kwargs.lastName kwargs.phone kwargs.jobTitle
    (program.config.baseTags ++ ["Second Participant"]) payload.company
    (sharedFieldsFromResponses payload.responses)

/-- The body of the upsert, from the fields, the address, the status and the program. -/
def ContactFields.payload (c : ContactFields) (email topics : String) (status : EligibilityStatus)
    (program : TradeProgram) : ContactPayload where
  uniqueEmail := email
  firstName := c.firstName
  lastName := c.lastName
  email := email
  mobileNumber := c.mobileNumber
  jobTitle := c.jobTitle
  tags := c.tags
  leadSourceId := program.config.crmLeadSourceId.orElse (.num exportLaunchpadCohort1LeadSourceId)
  lifecycleStageId := leadStageId
  contactStatusId := newStatusId
  cfCompany := c.cfCompany
  cfCampaign := program.slug
  cfCountry := c.cfCountry
  cfIndustrySector := c.cfIndustrySector
  cfCompanyFounded := c.cfCompanyFounded
  cfEmployeeCount := c.cfEmployeeCount
  cfSourcesInternationally := c.cfSourcesInternationally
  cfSellsInternationally := c.cfSellsInternationally
  cfTopicsOfInterest := topics
  cfEligibilityStatus := status

theorem buildContactPayload_eq (lead : TradeLead) (program : TradeProgram) :
    buildContactPayload lead program = lead.contactFields.cfTopicsOfInterest.map fun topics =>
      lead.contactFields.payload lead.email topics lead.eligibilityStatus program := by
  simp only [buildContactPayload, TradeLead.contactFields, Trade.contactFields, topicsSent]
  generalize (lead.shared .topicsOfInterest).orElse (.arr []) = topics
  cases topics with
  | arr xs =>
      dsimp only
      cases joinTexts xs 0 <;> rfl
  | null => rfl
  | bool b => rfl
  | num q => rfl
  | str s => rfl
  | obj members => rfl

/-- **What a contact depends on.** Two rows have the same contact exactly when they have the same
fields, address and status. -/
theorem buildContactPayload_congr_iff {l l' : TradeLead} {program : TradeProgram}
    {payload : ContactPayload} (h : buildContactPayload l program = .ok payload) :
    buildContactPayload l' program = .ok payload ↔
      l'.contactFields = l.contactFields ∧ l'.email = l.email ∧
        l'.eligibilityStatus = l.eligibilityStatus := by
  rw [buildContactPayload_eq] at h ⊢
  constructor
  · intro h'
    cases hl : l.contactFields with
    | mk =>
        cases hl' : l'.contactFields with
        | mk =>
            rw [hl] at h
            rw [hl'] at h'
            -- the one field that is computed, and may raise, is the list of topics
            dsimp only at h h'
            rename_i topics _ _ _ _ _ _ _ _ _ _ _ _ topics'
            cases topics with
            | error e => cases h
            | ok topics =>
                cases topics' with
                | error e => cases h'
                | ok topics' =>
                    simp only [Except.map, ContactFields.payload, Except.ok.injEq] at h h'
                    rw [← h] at h'
                    simp only [ContactPayload.mk.injEq] at h'
                    simp [h']
  · rintro ⟨hfields, hemail, hstatus⟩
    rw [hfields, hemail, hstatus]
    exact h

/-- The status of the sync is not part of a contact. -/
theorem buildContactPayload_afterVisit (globalSync : Bool) (programs : List TradeProgram)
    (o : SyncOutside) (q : Participant) (program : TradeProgram) :
    buildContactPayload (afterVisit globalSync programs o q) program =
      buildContactPayload q.2 program := by
  obtain ⟨_, _, _, _, hframe⟩ := afterVisit_frame globalSync programs o q
  rw [hframe]
  rfl

/-! ## Pushes -/

/-- A call of `upsert_contact` for the participant `id`. -/
structure Push where
  id : Nat
  payload : ContactPayload
  accepted : Bool

/-- The payload of the last push of a participant that went through. -/
def lastPush : List Push → Nat → Option ContactPayload
  | [], _ => none
  | push :: log, id =>
      if push.id = id ∧ push.accepted = true then some push.payload else lastPush log id

/-- `upsert_contact` returns a contact. -/
def CrmResponse.accepted : CrmResponse → Bool
  | .contact _ => true
  | .statusError _ _ | .error _ => false

/-- `syncVisit` with the upsert instead of its log. -/
def pushVisit (globalSync : Bool) (programs : List TradeProgram) (o : SyncOutside)
    (lead : Participant) : Option (TradeLead × List Push) :=
  (getProgram programs lead.2.tradeProgramId).map fun program =>
    let result := syncTradeLead globalSync program lead.2 (o.responses lead.1) o.now
    (result.1,
      (result.2.map fun payload => ⟨lead.1, payload, (o.responses lead.1).accepted⟩).toList)

variable {globalSync : Bool} {programs : List TradeProgram} {o : SyncOutside}

/-- The pushes are another log of the same visits. -/
theorem map_pushVisit (lead : Participant) : (pushVisit globalSync programs o lead).map Prod.fst =
    (syncVisit globalSync programs o lead).map Prod.fst := by
  unfold pushVisit syncVisit
  cases getProgram programs lead.2.tradeProgramId <;> rfl

section Sweep

variable [ColumnDriver]

/-- One pass of the loop of `sync_pending_trade`, for what `visit` stores and logs. -/
def syncPass {H : Type*} (visit : Participant → Option (TradeLead × List H)) (lead : Participant)
    (s : TradeLeads × List H) : (TradeLeads × List H) × Except PyError Nat :=
  match visit lead with
  | none => (s, .ok 0)
  | some (new, happened) =>
      match updateLead s.1 lead new with
      | .error e => ((s.1, happened ++ s.2), .error e)
      | .ok (_, t') =>
          ((t', happened ++ s.2), .ok (if new.crmSyncStatus = .synced then 1 else 0))

/-- `sync_pending_trade` with the log of its upserts. -/
def pushPendingTrade (globalSync : Bool) (programs : List TradeProgram) (o : SyncOutside)
    (limit : Nat) (t : TradeLeads) (log : List Push) :
    (TradeLeads × List Push) × Except PyError Nat :=
  if globalSync then
    sweep (syncPass (pushVisit globalSync programs o)) (listPendingCrmSync t limit) (t, log)
  else ((t, log), .ok 0)

/-- The loop is a sweep. -/
theorem syncLoop_eq_sweep (leads : List Participant) (t : TradeLeads) (log : List Happening) :
    syncLoop globalSync programs o leads t log =
      ((sweep (syncPass (syncVisit globalSync programs o)) leads (t, log)).1.1,
        (sweep (syncPass (syncVisit globalSync programs o)) leads (t, log)).1.2,
        (sweep (syncPass (syncVisit globalSync programs o)) leads (t, log)).2) := by
  induction leads generalizing t log with
  | nil => rfl
  | cons lead rest ih =>
      rw [syncLoop]
      cases hvisit : syncVisit globalSync programs o lead with
      | none =>
          have hpass : syncPass (syncVisit globalSync programs o) lead (t, log) =
              ((t, log), .ok 0) := by
            simp only [syncPass, hvisit]
          rw [sweep_cons_ok hpass, ih]
          cases (sweep (syncPass (syncVisit globalSync programs o)) rest (t, log)).2 <;> rfl
      | some visit =>
          obtain ⟨new, happened⟩ := visit
          cases hupdate : updateLead t lead new with
          | error e =>
              have hpass : syncPass (syncVisit globalSync programs o) lead (t, log) =
                  ((t, happened ++ log), .error e) := by
                simp only [syncPass, hvisit, hupdate]
              rw [sweep_cons_error hpass]
              simp only [hupdate]
          | ok r =>
              have hpass : syncPass (syncVisit globalSync programs o) lead (t, log) =
                  ((r.2, happened ++ log), .ok (if new.crmSyncStatus = .synced then 1 else 0)) := by
                simp only [syncPass, hvisit, hupdate]
              rw [sweep_cons_ok hpass]
              simp only [hupdate, ih]

/-- Passes over the same rows store the same. -/
theorem syncPass_rel {H K : Type*} {visit : Participant → Option (TradeLead × List H)}
    {visit' : Participant → Option (TradeLead × List K)}
    (hmap : ∀ lead, (visit lead).map Prod.fst = (visit' lead).map Prod.fst) (lead : Participant)
    (s : TradeLeads × List H) (s' : TradeLeads × List K) (h : s.1 = s'.1) :
    (syncPass visit lead s).1.1 = (syncPass visit' lead s').1.1 ∧
      (syncPass visit lead s).2 = (syncPass visit' lead s').2 := by
  have hlead := hmap lead
  unfold syncPass
  cases hvisit : visit lead with
  | none =>
      cases hvisit' : visit' lead with
      | none => exact ⟨h, rfl⟩
      | some r =>
          rw [hvisit, hvisit'] at hlead
          cases hlead
  | some r =>
      cases hvisit' : visit' lead with
      | none =>
          rw [hvisit, hvisit'] at hlead
          cases hlead
      | some r' =>
          rw [hvisit, hvisit'] at hlead
          obtain ⟨new, happened⟩ := r
          obtain ⟨new', happened'⟩ := r'
          obtain rfl : new = new' := Option.some.inj hlead
          simp only [h]
          cases updateLead s'.1 lead new <;> exact ⟨rfl, rfl⟩

/-- The sweep with the pushes stores what `sync_pending_trade` stores, and returns what it returns. -/
theorem pushPendingTrade_table (limit : Nat) (t : TradeLeads) (log : List Push)
    (log' : List Happening) :
    (pushPendingTrade globalSync programs o limit t log).1.1 =
        (syncPendingTrade globalSync programs o limit t log').1 ∧
      (pushPendingTrade globalSync programs o limit t log).2 =
        (syncPendingTrade globalSync programs o limit t log').2.2 := by
  unfold pushPendingTrade syncPendingTrade
  cases globalSync with
  | false => exact ⟨rfl, rfl⟩
  | true =>
      simp only [if_true, syncLoop_eq_sweep]
      exact sweep_rel (fun (s : TradeLeads × List Push) (s' : TradeLeads × List Happening) =>
        s.1 = s'.1) (syncPass_rel map_pushVisit) rfl

end Sweep

/-! ## The last push -/

/-- What a visit of a row pushes. -/
def visitPushes (globalSync : Bool) (programs : List TradeProgram) (o : SyncOutside)
    (q : Participant) : List Push :=
  ((pushVisit globalSync programs o q).map Prod.snd).getD []

theorem mem_visitPushes {q : Participant} {push : Push}
    (h : push ∈ visitPushes globalSync programs o q) : push.id = q.1 := by
  unfold visitPushes pushVisit at h
  cases hprogram : getProgram programs q.2.tradeProgramId with
  | none => simp [hprogram] at h
  | some program =>
      simp only [hprogram, Option.map_some, Option.getD_some, Option.mem_toList,
        Option.map_eq_some_iff] at h
      obtain ⟨payload, -, rfl⟩ := h
      rfl

/-- Pushes of other rows do not count. -/
theorem lastPush_append_other {new log : List Push} {id : Nat} (h : ∀ push ∈ new, push.id ≠ id) :
    lastPush (new ++ log) id = lastPush log id := by
  induction new with
  | nil => rfl
  | cons push new ih =>
      obtain ⟨hpush, hnew⟩ := List.forall_mem_cons.1 h
      rw [List.cons_append, lastPush, if_neg fun hcounts => hpush hcounts.1]
      exact ih hnew

/-- In a sweep the visit of the row counts, and nothing later does. -/
theorem lastPush_sweep {pushes : Participant → List Push}
    (hids : ∀ q, ∀ push ∈ pushes q, push.id = q.1) {leads : List Participant} {log : List Push}
    (hnodup : (leads.map Prod.fst).Nodup) {q : Participant} (hq : q ∈ leads) :
    ∃ before, lastPush (leads.reverse.flatMap pushes ++ log) q.1 =
      lastPush (pushes q ++ before) q.1 := by
  obtain ⟨before, after, rfl⟩ := List.append_of_mem hq
  refine ⟨before.reverse.flatMap pushes ++ log, ?_⟩
  have hafter : ∀ push ∈ after.reverse.flatMap pushes, push.id ≠ q.1 := by
    intro push hpush hid
    obtain ⟨r, hr, hpush⟩ := List.mem_flatMap.1 hpush
    rw [List.map_append, List.map_cons] at hnodup
    have hnot := (List.nodup_cons.1 (List.nodup_append.1 hnodup).2.1).1
    exact hnot (List.mem_map.2 ⟨r, List.mem_reverse.1 hr, (hids r push hpush).symm.trans hid⟩)
  simp only [List.reverse_append, List.reverse_cons, List.flatMap_append, List.flatMap_cons,
    List.flatMap_nil, List.append_nil, List.append_assoc]
  exact lastPush_append_other hafter

/-- A visit that leaves a waiting row synced has pushed the row's contact, and the CRM has taken
it. -/
theorem visitPushes_synced {q : Participant} (hwaiting : q.2.crmSyncStatus ≠ .synced)
    (h : (afterVisit globalSync programs o q).crmSyncStatus = .synced) :
    ∃ program payload, getProgram programs q.2.tradeProgramId = some program ∧
      buildContactPayload q.2 program = .ok payload ∧
      visitPushes globalSync programs o q = [⟨q.1, payload, true⟩] := by
  unfold afterVisit syncVisit at h
  unfold visitPushes pushVisit
  cases hprogram : getProgram programs q.2.tradeProgramId with
  | none =>
      rw [hprogram] at h
      exact absurd h hwaiting
  | some program =>
      simp only [hprogram, Option.map_some, Option.getD_some] at h ⊢
      by_cases hgates : GatesPass globalSync program q.2
      · rw [syncTradeLead_open hgates, pushTradeLead] at h ⊢
        cases hbuild : buildContactPayload q.2 program with
        | error text =>
            rw [hbuild] at h
            cases h
        | ok payload =>
            rw [hbuild] at h
            cases hanswer : o.responses q.1 with
            | contact id => exact ⟨program, payload, rfl, hbuild, rfl⟩
            | statusError message body =>
                rw [hanswer] at h
                cases h
            | error message =>
                rw [hanswer] at h
                cases h
      · rw [syncTradeLead_closed hgates] at h
        cases h

/-- The CRM has the row as it is stored. -/
def AtCrm (programs : List TradeProgram) (log : List Push) (q : Participant) : Prop :=
  ∃ program payload, getProgram programs q.2.tradeProgramId = some program ∧
    lastPush log q.1 = some payload ∧ buildContactPayload q.2 program = .ok payload

section Sweep

variable [ColumnDriver]

theorem syncPass_log {H : Type*} (visit : Participant → Option (TradeLead × List H))
    (lead : Participant) (s : TradeLeads × List H) :
    (syncPass visit lead s).1.2 = ((visit lead).map Prod.snd).getD [] ++ s.2 := by
  unfold syncPass
  cases visit lead with
  | none => rfl
  | some r =>
      obtain ⟨new, happened⟩ := r
      cases hupdate : updateLead s.1 lead new <;>
        simp only [hupdate, Option.map_some, Option.getD_some]

/-- A sweep over rows as they are stored logs the pushes of all its visits. -/
theorem pushPendingTrade_log (limit : Nat) {t : TradeLeads} (log : List Push)
    (hflushed : Flushed t) :
    (pushPendingTrade true programs o limit t log).1.2 =
      (listPendingCrmSync t limit).reverse.flatMap (visitPushes true programs o) ++ log := by
  obtain ⟨t', log', n, hloop, -⟩ := syncLoop_spec true programs o [] hflushed
    (fun q hq => (mem_listPendingCrmSync hq).1) (t.nodup_select _ limit)
  have hresult : (pushPendingTrade true programs o limit t log).2 =
      (syncPendingTrade true programs o limit t []).2.2 := (pushPendingTrade_table limit t log []).2
  rw [syncPendingTrade, if_pos rfl, hloop] at hresult
  unfold pushPendingTrade at hresult ⊢
  rw [if_pos rfl] at hresult ⊢
  apply sweep_log (syncPass_log (pushVisit true programs o))
  exact ⟨n, hresult⟩

/-- **What a sweep leaves synced.** A row it has not visited, whose last push is the one before, or one
whose contact it has pushed. -/
theorem pushed_sweep (limit : Nat) {t : TradeLeads} (log : List Push) (hflushed : Flushed t) :
    ∀ q' ∈ (pushPendingTrade globalSync programs o limit t log).1.1.rows,
      q'.2.crmSyncStatus = .synced →
        (q' ∈ t.rows ∧ lastPush (pushPendingTrade globalSync programs o limit t log).1.2 q'.1 =
          lastPush log q'.1) ∨
        AtCrm programs (pushPendingTrade globalSync programs o limit t log).1.2 q' := by
  intro q' hq' hsynced
  cases globalSync with
  | false => exact Or.inl ⟨hq', rfl⟩
  | true =>
      have hids : ((listPendingCrmSync t limit).map Prod.fst).Nodup := t.nodup_ids_select _ limit
      obtain ⟨t', log', n, hloop, hswept⟩ := syncLoop_spec true programs o [] hflushed
        (fun q hq => (mem_listPendingCrmSync hq).1) (t.nodup_select _ limit)
      rw [pushPendingTrade_log limit log hflushed]
      rw [(pushPendingTrade_table limit t log []).1, syncPendingTrade, if_pos rfl, hloop] at hq'
      rcases hswept.rows q' hq' with ⟨hq, hnot⟩ | ⟨q, hq, hqt, rfl⟩
      · refine Or.inl ⟨hq, lastPush_append_other fun push hpush hid => ?_⟩
        obtain ⟨r, hr, hpush⟩ := List.mem_flatMap.1 hpush
        have hr := List.mem_reverse.1 hr
        have hsame := t.eq_of_id (mem_listPendingCrmSync hr).1 hq
          ((mem_visitPushes hpush).symm.trans hid)
        exact hnot (hsame ▸ hr)
      · -- a row of the list was waiting, so the visit has pushed it
        have hwaiting : q.2.crmSyncStatus ≠ .synced := by
          rcases (mem_listPendingCrmSync hq).2 with hstatus | hstatus <;> simp [hstatus]
        obtain ⟨program, payload, hprogram, hbuild, hpushes⟩ := visitPushes_synced hwaiting hsynced
        have hown : ∀ q, ∀ push ∈ visitPushes true programs o q, push.id = q.1 :=
          fun _ _ => mem_visitPushes
        obtain ⟨before, hlast⟩ := lastPush_sweep hown hids hq
        refine Or.inr ⟨program, payload, ?_, ?_, ?_⟩
        · obtain ⟨_, _, _, _, hframe⟩ := afterVisit_frame true programs o q
          rw [hframe]
          exact hprogram
        · rw [hlast, hpushes]
          simp [lastPush]
        · rw [buildContactPayload_afterVisit]
          exact hbuild

end Sweep

end SalesTrades.Trade
