import SalesTrades.Library.Interleaving
import SalesTrades.Leads.PackRuns

/-!
# The delivery paths, one commit or email at a time

The capture endpoint and `deliver_pending`, started by the job under its advisory lock or by the
resend endpoint, as processes over one database. The endpoint commits the lead, sends the pack, commits
the outcome, and may send the viewing email; a sweep loads its list and then sends and commits lead by
lead. A submission up to its commit is one step here. `inHand` lists the leads that a process has
loaded for delivery and not committed yet, and `takesUp` those that its next step loads. A process that
runs alone stores what `captureLead` (`endpoint_alone`) and `deliverLoop` (`sweeping_alone`) store.
-/

set_option autoImplicit false

namespace SalesTrades.Leads

open SalesTrades.Library SalesTrades.Library.Interleaving

/-- A submission that left its lead pending, with the labels that can be delivered, or an accepted
email. -/
inductive PackEvent where
  | requested (id : Nat) (labels : List String)
  | mailed (m : Mail)
  deriving DecidableEq

/-- The pack emails to a lead since its last request; the log is newest first. -/
def emailsSince (id : Nat) : List PackEvent → Nat
  | [] => 0
  | .requested i _ :: log => if i = id then 0 else emailsSince id log
  | .mailed (.pack i _) :: log => (if i = id then 1 else 0) + emailsSince id log
  | .mailed (.viewing _ _) :: log => emailsSince id log

/-- The labels of the last request for a lead. -/
def lastRequest (id : Nat) : List PackEvent → Option (List String)
  | [] => none
  | .requested i labels :: log => if i = id then some labels else lastRequest id log
  | .mailed _ :: log => lastRequest id log

/-- The database with the log and the advisory lock of `pack_delivery_job`. -/
structure DeliveryShared where
  leads : LeadTable
  log : List PackEvent
  locked : Bool

/-- A request to the capture endpoint, or a sweep of the job or of the resend endpoint. -/
inductive Caller where
  | endpoint (slug : String) (payload : LeadCreateRequest)
  | sweep (underLock : Bool) (limit : Nat)

/-- A delivery under way: the campaign, the row as it was loaded, and the answer once the email was
attempted. -/
structure PackTask where
  campaign : Campaign
  row : LeadRow
  answer : Option Bool

/-- Where a process stands. -/
inductive DeliveryPhase where
  | start
  | packing (task : PackTask) (created : Bool)
  | viewing (task : PackTask)
  | sweeping (todo : List LeadRow) (task : Option PackTask)
  | ended

structure DeliveryCall where
  caller : Caller
  phase : DeliveryPhase

/-- The endpoint after its pack: the viewing email of a new lead. -/
def afterPack (campaign : Campaign) (row : LeadRow) (created : Bool) : DeliveryPhase :=
  if created ∧ row.2.inspectionRequested then .viewing ⟨campaign, row, none⟩ else .ended

/-- The commit of a submission. -/
def submitStep (py : LowerCase) (campaigns : List Campaign) (slug : String)
    (payload : LeadCreateRequest) (now : Datetime) (s : DeliveryShared) :
    DeliveryShared × DeliveryPhase :=
  match captureLeadCreated py campaigns (strip slug) payload now false s.leads with
  | (t', .error _) => ({ s with leads := t' }, .ended)
  | (t', .ok (row, created)) =>
      match getCampaign campaigns row.2.campaignId with
      | none => ({ s with leads := t' }, .ended)
      | some campaign =>
          if row.2.packDeliveryStatus = .pending then
            ({ s with
              leads := t'
              log := .requested row.1 (deliverableLabels row.2 campaign) :: s.log },
              .packing ⟨campaign, row, none⟩ created)
          else ({ s with leads := t' }, afterPack campaign row created)

/-- The email of a delivery. -/
def sendStep (transport : Bool) (task : PackTask) (a : Attempt) (s : DeliveryShared) :
    DeliveryShared × PackTask :=
  ({ s with log := (packMail transport task.campaign task.row a).map .mailed ++ s.log },
    { task with answer := some a.accepted })

/-- The commit of a delivery. -/
def commitStep (transport : Bool) (task : PackTask) (accepted : Bool) (now : Datetime)
    (s : DeliveryShared) : Except PyError (LeadRow × DeliveryShared) :=
  match update s.leads task.row
      (deliverPack transport task.row.2 task.campaign ⟨accepted, now⟩).1 with
  | .error e => .error e
  | .ok (row', t') => .ok (row', { s with leads := t' })

/-- The commit of a viewing email that was answered. -/
def viewingCommitStep (transport : Bool) (task : PackTask) (accepted : Bool) (now : Datetime)
    (s : DeliveryShared) : DeliveryShared :=
  match (deliverViewing transport task.row.2 task.campaign ⟨accepted, now⟩).1 with
  | none => s
  | some lead =>
      match update s.leads task.row lead with
      | .error _ => s
      | .ok (_, t') => { s with leads := t' }

/-- The end of a sweep gives the lock back. -/
def releaseStep (caller : Caller) (s : DeliveryShared) : DeliveryShared :=
  match caller with
  | .sweep true _ => { s with locked := false }
  | _ => s

/-- The next step of a process; one that has ended takes none. -/
def deliveryPhaseStep (py : LowerCase) (transport : Bool) (campaigns : List Campaign)
    (caller : Caller) (a : Attempt) (s : DeliveryShared) :
    DeliveryPhase → Option (DeliveryShared × DeliveryPhase)
  | .start =>
      match caller with
      | .endpoint slug payload => some (submitStep py campaigns slug payload a.now s)
      | .sweep underLock limit =>
          if underLock && s.locked then some (s, .ended)
          else some ({ s with locked := s.locked || underLock },
            .sweeping (listPendingPackDelivery s.leads limit) none)
  | .packing task created =>
      match task.answer with
      | none =>
          some ((sendStep transport task a s).1, .packing (sendStep transport task a s).2 created)
      | some accepted =>
          match commitStep transport task accepted a.now s with
          | .error _ => some (s, .ended)
          | .ok (row', s') => some (s', afterPack task.campaign row' created)
  | .viewing task =>
      match task.answer with
      | none =>
          some ({ s with
            log := (viewingMail transport task.campaign task.row a).map .mailed ++ s.log },
            .viewing { task with answer := some a.accepted })
      | some accepted => some (viewingCommitStep transport task accepted a.now s, .ended)
  | .sweeping todo (some task) =>
      match task.answer with
      | none =>
          some ((sendStep transport task a s).1,
            .sweeping todo (some (sendStep transport task a s).2))
      | some accepted =>
          match commitStep transport task accepted a.now s with
          | .error _ => some (releaseStep caller s, .ended)
          | .ok (_, s') => some (s', .sweeping todo none)
  | .sweeping (row :: rest) none =>
      match getCampaign campaigns row.2.campaignId with
      | none => some (s, .sweeping rest none)
      | some campaign => some (s, .sweeping rest (some ⟨campaign, row, none⟩))
  | .sweeping [] none => some (releaseStep caller s, .ended)
  | .ended => none

/-- `deliveryPhaseStep` on processes. -/
def deliveryStep (py : LowerCase) (transport : Bool) (campaigns : List Campaign) (a : Attempt)
    (s : DeliveryShared) (call : DeliveryCall) : Option (DeliveryShared × DeliveryCall) :=
  (deliveryPhaseStep py transport campaigns call.caller a s call.phase).map fun r =>
    (r.1, { call with phase := r.2 })

/-- The leads that are loaded for a pack and not committed yet. -/
def DeliveryPhase.inHand : DeliveryPhase → List Nat
  | .packing task _ => [task.row.1]
  | .sweeping todo task => (task.map fun t => t.row.1).toList ++ todo.map Prod.fst
  | _ => []

/-- The leads that the next step of a process takes up: the lead that a submission leaves pending, or
the list of a sweep. -/
def DeliveryCall.takesUp (py : LowerCase) (campaigns : List Campaign) (call : DeliveryCall)
    (s : DeliveryShared) : List Nat :=
  match call.phase, call.caller with
  | .start, .endpoint slug payload =>
      match getBySlug campaigns (strip slug) with
      | none => []
      | some campaign =>
          match getByCampaignEmail s.leads campaign.id (normaliseEmail py payload.email) with
          | none => []
          | some row =>
              if campaign.status = .active ∧
                  nextPackStatus (some row.2) (some row.2.packDeliveryStatus)
                    (row.2.requestedMaterials.getD []) payload = .pending then [row.1]
              else []
  | .start, .sweep underLock limit =>
      if underLock && s.locked then [] else (listPendingPackDelivery s.leads limit).map Prod.fst
  | _, _ => []

/-! ## A process that runs alone -/

section Alone

variable (py : LowerCase) (transport : Bool) (campaigns : List Campaign) (caller : Caller) (a : Attempt)

theorem ended_alone (n : Nat) (s : DeliveryShared) :
    solo (deliveryPhaseStep py transport campaigns caller a) n s .ended = (s, .ended) := by
  cases n <;> rfl

/-- The viewing steps of a process that runs alone store what `deliver_viewing` stores. -/
theorem viewing_alone (campaign : Campaign) (row : LeadRow) (n : Nat) (s : DeliveryShared)
    (log : List Mail) :
    (solo (deliveryPhaseStep py transport campaigns caller a) (n + 2) s
        (.viewing ⟨campaign, row, none⟩)).1.leads =
      (deliverViewingTo transport campaign row a ⟨s.leads, log⟩).1.leads := by
  simp only [solo, deliveryPhaseStep, ended_alone, viewingCommitStep, deliverViewingTo]
  cases (deliverViewing transport row.2 campaign a).1 with
  | none => rfl
  | some lead =>
      simp only
      cases update s.leads row lead <;> rfl

/-- The endpoint run step by step without interruption stores what `captureLead` stores. -/
theorem endpoint_alone (slug : String) (payload : LeadCreateRequest) (s : DeliveryShared)
    (log : List Mail) :
    (solo (deliveryPhaseStep py transport campaigns (.endpoint slug payload) a) 5 s .start).1.leads =
      (captureLead py transport campaigns slug payload a.now false a a ⟨s.leads, log⟩).1.leads := by
  rw [solo]
  simp only [deliveryPhaseStep, submitStep, captureLead]
  cases hcall : captureLeadCreated py campaigns (strip slug) payload a.now false s.leads with
  | mk t' result =>
      cases result with
      | error e => rfl
      | ok r =>
          obtain ⟨row, created⟩ := r
          simp only [deliverCaptured]
          cases hcampaign : getCampaign campaigns row.2.campaignId with
          | none => rfl
          | some campaign =>
              by_cases hpending : row.2.packDeliveryStatus = .pending
              · simp only [hpending, if_true, deliverPackTo]
                rw [solo]
                simp only [deliveryPhaseStep, sendStep]
                rw [solo]
                simp only [deliveryPhaseStep, commitStep]
                cases hupdate : update t' row (deliverPack transport row.2 campaign a).1 with
                | error e => rfl
                | ok r =>
                    obtain ⟨row', t''⟩ := r
                    simp only [afterPack]
                    split
                    · exact viewing_alone py transport campaigns _ a campaign row' 0 _ _
                    · rfl
              · simp only [hpending, if_false, afterPack]
                split
                · exact viewing_alone py transport campaigns _ a campaign row 2 _ _
                · rfl

theorem releaseStep_leads (s : DeliveryShared) : (releaseStep caller s).leads = s.leads := by
  unfold releaseStep
  split <;> rfl

theorem releaseStep_log (s : DeliveryShared) : (releaseStep caller s).log = s.log := by
  unfold releaseStep
  split <;> rfl

/-- The sweep run step by step without interruption stores what the loop of `deliver_pending` stores. -/
theorem sweeping_alone {rows : List LeadRow} {n : Nat} (hn : 3 * rows.length + 1 ≤ n)
    (s : DeliveryShared) (log : List Mail) :
    (solo (deliveryPhaseStep py transport campaigns caller a) n s (.sweeping rows none)).1.leads =
      (deliverLoop transport campaigns (fun _ => a) rows ⟨s.leads, log⟩).1.leads := by
  induction rows generalizing n s log with
  | nil =>
      obtain ⟨m, rfl⟩ : ∃ m, n = m + 1 := ⟨n - 1, by omega⟩
      simp only [solo, deliveryPhaseStep, ended_alone, deliverLoop, releaseStep_leads]
  | cons row rest ih =>
      rw [List.length_cons] at hn
      obtain ⟨m, rfl⟩ : ∃ m, n = m + 3 := ⟨n - 3, by omega⟩
      simp only [deliverLoop]
      rw [solo]
      simp only [deliveryPhaseStep]
      cases hcampaign : getCampaign campaigns row.2.campaignId with
      | none => exact ih (by omega) s log
      | some campaign =>
          simp only [solo, deliveryPhaseStep, sendStep, commitStep, deliverPackTo]
          cases hupdate : update s.leads row (deliverPack transport row.2 campaign a).1 with
          | error e => simp only [ended_alone, releaseStep_leads]
          | ok r =>
              obtain ⟨row', t'⟩ := r
              exact ih (by omega) _ _

end Alone

end SalesTrades.Leads
