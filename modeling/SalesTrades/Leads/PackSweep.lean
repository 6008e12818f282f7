import SalesTrades.Library.Sweep
import SalesTrades.Leads.PackRuns

/-!
# Which packs the next sweep sends

The sweep selects leads that are pending or failed. A material that is requested and can be delivered,
and was never emailed to the lead, reaches it with the next sweep exactly when the lead is in one of
these statuses (`sweep_emails_iff`). The other three statuses strand it: a lead that was put aside
while no key was set, and a lead whose material got its link after the delivery, stay where they are
(`sweep_strands`). No lead holds up the others: a delivery never raises, so the sweep records the
outcome of every lead it selects (`deliveriesRecorded`).
-/

set_option autoImplicit false

namespace SalesTrades.Leads

open SalesTrades.Library SalesTrades.Library.Run SalesTrades.Library.Sweep

variable {py : LowerCase}

theorem mem_emailed {log : List Mail} {id : Nat} {label : String} :
    label ∈ emailed log id ↔ ∃ m ∈ log, m.id = id ∧ label ∈ m.labels := by
  simp only [emailed, List.mem_flatMap]
  refine exists_congr fun m => and_congr_right fun _ => ?_
  split <;> simp_all

/-- A limit that the waiting leads fit in cuts nothing off. -/
theorem mem_listPendingPackDelivery_of_fits {t : LeadTable} {limit : Nat} {q : LeadRow}
    (hfits : (t.select waiting).length ≤ limit) (hq : q ∈ t.rows) (hwaiting : waiting q.2 = true) :
    q ∈ listPendingPackDelivery t limit := by
  have hall : listPendingPackDelivery t limit = t.select waiting := List.take_of_length_le hfits
  rw [hall]
  exact Table.mem_select.2 ⟨hq, hwaiting⟩

/-- **Which packs the next sweep sends.** In every world with the key set, for every label that a lead
requests, that can be delivered and that was never emailed to it, and every sweep whose emails are
accepted and whose limit the waiting leads fit in: the sweep emails the label to the lead if and only
if the lead is pending or failed. -/
theorem sweep_emails_iff {w w' : PackWorld} {limit : Nat} {attempts : Nat → Attempt} {q : LeadRow}
    {campaign : Campaign} {label : String} (htransport : w.transport = true)
    (haccepted : ∀ id, (attempts id).accepted = true)
    (hfits : (w.leads.select waiting).length ≤ limit) (hq : q ∈ w.leads.rows)
    (hcampaign : getCampaign w.campaigns.list q.2.campaignId = some campaign)
    (hrequested : label ∈ q.2.requestedMaterials.getD [])
    (hdeliverable : campaign.config.Deliverable label) (hnever : label ∉ emailed w.log q.1)
    (hsweep : packStep py (.sweep limit attempts) w = some w') :
    label ∈ emailed w'.log q.1 ↔
      q.2.packDeliveryStatus = .pending ∨ q.2.packDeliveryStatus = .failed := by
  have hwaiting : waiting q.2 = true ↔
      q.2.packDeliveryStatus = .pending ∨ q.2.packDeliveryStatus = .failed := by
    simp [waiting]
  rw [← hwaiting]
  obtain ⟨d', n, hcall, -, hlog⟩ := deliverPending_spec py (fun _ _ _ => True)
    (fun _ _ => trivial) w.transport w.campaigns.list attempts limit
    w.toDelivery
  simp only [packStep, hcall, Option.some.injEq] at hsweep
  subst hsweep
  rw [mem_emailed]
  simp only [hlog, htransport]
  constructor
  · rintro ⟨m, hold | ⟨r, hr, c, -, hm⟩, hid, hlabel⟩
    · exact absurd (mem_emailed.2 ⟨m, hold, hid, hlabel⟩) hnever
    · obtain rfl : m = .pack r.1 (deliverableLabels r.2 c) := by
        rw [packMail_eq] at hm
        split at hm
        · exact List.mem_singleton.1 hm
        · cases hm
      obtain ⟨hrmem, hrwaiting⟩ := mem_listPendingPackDelivery hr
      rwa [w.leads.eq_of_id hq hrmem hid.symm]
  · intro hw
    have hlabel : label ∈ deliverableLabels q.2 campaign :=
      mem_deliverableLabels.2 ⟨hrequested, hdeliverable⟩
    refine ⟨.pack q.1 (deliverableLabels q.2 campaign), Or.inr ⟨q, ?_, campaign, hcampaign, ?_⟩, rfl,
      hlabel⟩
    · exact mem_listPendingPackDelivery_of_fits hfits hq hw
    · rw [packMail_eq, if_pos ⟨List.ne_nil_of_mem hlabel, rfl, haccepted q.1⟩]
      exact List.mem_singleton.2 rfl

/-! ## Every selected lead has its turn -/

section Turns

variable {transport : Bool} {campaigns : List Campaign} {attempts : Nat → Attempt} {limit : Nat}
  {d : Delivery}

/-- One pass of the loop of `deliver_pending`. -/
def deliverPass (transport : Bool) (campaigns : List Campaign) (attempts : Nat → Attempt)
    (row : LeadRow) (d : Delivery) : Delivery × Except PyError Nat :=
  match getCampaign campaigns row.2.campaignId with
  | none => (d, .ok 0)
  | some campaign =>
      let result := deliverPackTo transport campaign row (attempts row.1) d
      (result.1, result.2.map fun row' => if row'.2.packDeliveryStatus = .sent then 1 else 0)

/-- The loop is a sweep. -/
theorem deliverLoop_eq_sweep (rows : List LeadRow) (d : Delivery) :
    deliverLoop transport campaigns attempts rows d =
      sweep (deliverPass transport campaigns attempts) rows d := by
  induction rows generalizing d with
  | nil => rfl
  | cons row rest ih =>
      rw [deliverLoop]
      cases hcampaign : getCampaign campaigns row.2.campaignId with
      | none =>
          have hpass : deliverPass transport campaigns attempts row d = (d, .ok 0) := by
            simp only [deliverPass, hcampaign]
          dsimp only
          rw [sweep_cons_ok hpass, ← ih d]
          cases hloop : deliverLoop transport campaigns attempts rest d with
          | mk d' result => cases result <;> rfl
      | some campaign =>
          dsimp only
          cases hdeliver : deliverPackTo transport campaign row (attempts row.1) d with
          | mk d' result =>
              cases result with
              | error e =>
                  have hpass : deliverPass transport campaigns attempts row d = (d', .error e) := by
                    simp only [deliverPass, hcampaign, hdeliver, Except.map]
                  rw [sweep_cons_error hpass]
              | ok row' =>
                  have hpass : deliverPass transport campaigns attempts row d =
                      (d', .ok (if row'.2.packDeliveryStatus = .sent then 1 else 0)) := by
                    simp only [deliverPass, hcampaign, hdeliver, Except.map]
                  rw [sweep_cons_ok hpass, ← ih d']

/-- A delivery of a stored lead returns with its outcome recorded on the row. -/
theorem delivery_recorded {row : LeadRow} (transport : Bool) (campaign : Campaign) (a : Attempt)
    (hrow : row ∈ d.leads.rows) :
    (deliverPackTo transport campaign row a d).2 =
        .ok (row.1, (deliverPack transport row.2 campaign a).1) ∧
      (row.1, (deliverPack transport row.2 campaign a).1) ∈
        (deliverPackTo transport campaign row a d).1.leads.rows := by
  obtain ⟨t', htable, hcall⟩ := deliverPackTo_spec transport campaign a hrow
  rw [hcall]
  exact ⟨rfl, (Table.mem_of_update htable).2 (Or.inr ⟨rfl, row.2, hrow⟩)⟩

/-- The outcome of the pass over a lead, `none` when the campaign is gone. -/
def deliverOutcome (transport : Bool) (campaigns : List Campaign) (attempts : Nat → Attempt)
    (row : LeadRow) : Option (Except PyError Lead) :=
  (getCampaign campaigns row.2.campaignId).map fun campaign =>
    .ok (deliverPack transport row.2 campaign (attempts row.1)).1

theorem deliverPass_rowVisits : RowVisits Delivery.leads
    (deliverPass transport campaigns attempts) (deliverOutcome transport campaigns attempts) where
  passed row d h := by
    rw [deliverOutcome, Option.map_eq_none_iff] at h
    simp only [deliverPass, h]
  raised row d e _ h := by
    obtain ⟨campaign, -, h⟩ := Option.map_eq_some_iff.1 h
    cases h
  stored row d lead hrow h := by
    obtain ⟨campaign, hcampaign, h⟩ := Option.map_eq_some_iff.1 h
    obtain ⟨t', htable, hcall⟩ := deliverPackTo_spec transport campaign (attempts row.1) hrow
    rw [Except.ok.injEq] at h
    simp only [deliverPass, hcampaign, hcall, ← h]
    exact ⟨⟨_, rfl⟩, htable⟩

/-- `deliver_pending` reaches its end with the outcome of every selected lead recorded. -/
def DeliveriesRecorded (transport : Bool) (campaigns : List Campaign) (attempts : Nat → Attempt)
    (limit : Nat) (d : Delivery) : Prop :=
  Completes (deliverPending transport campaigns attempts limit d) ∧
    ∀ row ∈ listPendingPackDelivery d.leads limit, ∀ campaign,
      getCampaign campaigns row.2.campaignId = some campaign →
        (row.1, (deliverPack transport row.2 campaign (attempts row.1)).1) ∈
          (deliverPending transport campaigns attempts limit d).1.leads.rows

/-- Whatever the leads ask for, the configurations say and SendGrid answers. -/
theorem deliveriesRecorded (transport : Bool) (campaigns : List Campaign) (attempts : Nat → Attempt)
    (limit : Nat) (d : Delivery) : DeliveriesRecorded transport campaigns attempts limit d := by
  have hready : Ready Delivery.leads (listPendingPackDelivery d.leads limit) d :=
    ready_select _ _ limit d
  have hresult : ∀ row ∈ listPendingPackDelivery d.leads limit, ∀ campaign lead,
      (.ok (deliverPack transport row.2 campaign (attempts row.1)).1 : Except PyError Lead) =
          .ok lead ↔
        True ∧ lead = (deliverPack transport row.2 campaign (attempts row.1)).1 := by
    intro row _ campaign lead
    rw [Except.ok.injEq, true_and]
    exact eq_comm
  unfold DeliveriesRecorded deliverPending
  rw [deliverLoop_eq_sweep]
  exact (deliverPass_rowVisits.settled_iff hready hresult).2 fun _ _ _ _ => trivial

end Turns

/-! ## Stranded leads -/

/-- `twoDocuments` before the floorplans have a link. -/
def linkMissing : CampaignConfig :=
  { twoDocuments with materialsAssets := [("Prospectus", .str "https://a/p.pdf")] }

/-- A request while no key is set, and the key. -/
def keySetLater : List PackAct :=
  [.setTransport false, askFor ["Floorplans"], .setTransport true]

/-- A request while the floorplans have no link, and the link. -/
def linkAddedLater : List PackAct :=
  [.configure 1 .active linkMissing, askFor ["Prospectus", "Floorplans"],
    .configure 1 .active twoDocuments]

/-- After the history the floorplans are requested, can be delivered and were never emailed, the key is
set and all candidates fit in the sweep; and a sweep whose emails are all accepted does not send them. -/
def Strands (history : List PackAct) : Prop :=
  ∃ w w' q campaign,
    exec (packStep asciiLower) history standWorld = some w ∧ w.transport = true ∧
    (w.leads.select waiting).length ≤ 200 ∧ q ∈ w.leads.rows ∧
    getCampaign w.campaigns.list q.2.campaignId = some campaign ∧
    "Floorplans" ∈ q.2.requestedMaterials.getD [] ∧ campaign.config.Deliverable "Floorplans" ∧
    "Floorplans" ∉ emailed w.log q.1 ∧
    packStep asciiLower (.sweep 200 fun _ => accepted) w = some w' ∧
    "Floorplans" ∉ emailed w'.log q.1

/-- The first history leaves the lead skipped, the second sent, and the sweep selects neither. -/
theorem sweep_strands : Strands keySetLater ∧ Strands linkAddedLater := by
  constructor
  · exact ⟨_, _, _, _, rfl, rfl, by decide, List.mem_cons_self, rfl, by decide, by decide, by decide,
      rfl, by decide⟩
  · exact ⟨_, _, _, _, rfl, rfl, by decide, List.mem_cons_self, rfl, by decide, by decide, by decide,
      rfl, by decide⟩

/-- A request whose email was rejected is sent by the sweep. -/
theorem sweep_emails_failed : ∃ w w' q,
    exec (packStep asciiLower)
      [.capture "nog-2026" (packRequest ["Floorplans"]) ⟨0, some 0⟩ false ⟨false, ⟨0, some 0⟩⟩ accepted]
      standWorld = some w ∧
    packStep asciiLower (.sweep 200 fun _ => accepted) w = some w' ∧ q ∈ w.leads.rows ∧
    "Floorplans" ∈ emailed w'.log q.1 := by
  obtain ⟨w, w', q, campaign, hrun, hsweep, htransport, hfits, hq, hcampaign, hrequested,
      hdeliverable, hnever, hfailed⟩ : ∃ w w' q campaign,
      exec (packStep asciiLower)
        [.capture "nog-2026" (packRequest ["Floorplans"]) ⟨0, some 0⟩ false ⟨false, ⟨0, some 0⟩⟩
          accepted] standWorld = some w ∧
      packStep asciiLower (.sweep 200 fun _ => accepted) w = some w' ∧ w.transport = true ∧
      (w.leads.select waiting).length ≤ 200 ∧ q ∈ w.leads.rows ∧
      getCampaign w.campaigns.list q.2.campaignId = some campaign ∧
      "Floorplans" ∈ q.2.requestedMaterials.getD [] ∧ campaign.config.Deliverable "Floorplans" ∧
      "Floorplans" ∉ emailed w.log q.1 ∧ q.2.packDeliveryStatus = .failed :=
    ⟨_, _, _, _, rfl, rfl, rfl, by decide, List.mem_cons_self, rfl, by decide, by decide, by decide,
      rfl⟩
  exact ⟨w, w', q, hrun, hsweep, hq, (sweep_emails_iff htransport (fun _ => rfl) hfits hq hcampaign
    hrequested hdeliverable hnever hsweep).2 (Or.inr hfailed)⟩

end SalesTrades.Leads
