import Mathlib.Logic.Relation
import SalesTrades.Library.Run
import SalesTrades.Leads.PackDelivery

/-!
# Runs of captures, deliveries and sweeps

The world of the pack delivery and its operations, each run on its own. Whatever an operation does
to the leads, it does in a sequence of `RowStep`s: a new lead, a merge, a delivery of a pack or a
delivery of a viewing email (`packStep_rowSteps`). Invariants are proved of a `RowStep` and carry over
to operations and runs.
-/

set_option autoImplicit false

namespace SalesTrades.Leads

open SalesTrades.Library SalesTrades.Library.Run Relation

/-- The `campaigns` table with its primary key. -/
structure Campaigns where
  list : List Campaign
  nodup : (list.map Campaign.id).Nodup

/-- The lookup by id finds every campaign. -/
theorem Campaigns.getCampaign_of_mem (campaigns : Campaigns) {campaign : Campaign}
    (h : campaign ∈ campaigns.list) : getCampaign campaigns.list campaign.id = some campaign := by
  cases hfound : getCampaign campaigns.list campaign.id with
  | none =>
      have := List.find?_eq_none.1 hfound campaign h
      simp at this
  | some found =>
      have hid : found.id = campaign.id := by simpa using List.find?_some hfound
      rw [List.inj_on_of_nodup_map campaigns.nodup (List.mem_of_find?_eq_some hfound) h hid]

/-- `update_campaign` with a status and a configuration. -/
def Campaigns.configure (campaigns : Campaigns) (campaignId : Nat) (status : CampaignStatus)
    (config : CampaignConfig) : Campaigns where
  list := campaigns.list.map fun c =>
    if c.id = campaignId then { c with status := status, config := config } else c
  nodup := by
    have : (campaigns.list.map fun c =>
        if c.id = campaignId then { c with status := status, config := config } else c).map
          Campaign.id = campaigns.list.map Campaign.id := by
      rw [List.map_map]
      refine List.map_congr_left fun c _ => ?_
      simp only [Function.comp_apply]
      split <;> rfl
    rw [this]
    exact campaigns.nodup

/-- Whether `wtc_sendgrid_api_key` is set, the campaigns, the leads and the mails. -/
structure PackWorld extends Delivery where
  transport : Bool
  campaigns : Campaigns

/-- A call of `capture_lead_created` alone or of the capture endpoint, a delivery to one lead, a sweep,
a resend from the dashboard, a change of the key, or an edit of a campaign. -/
inductive PackAct where
  | submit (slug : String) (payload : LeadCreateRequest) (now : Datetime) (missed : Bool)
  | capture (slug : String) (payload : LeadCreateRequest) (now : Datetime) (missed : Bool)
      (pack viewing : Attempt)
  | deliverPack (id : Nat) (a : Attempt)
  | deliverViewing (id : Nat) (a : Attempt)
  | sweep (limit : Nat) (attempts : Nat → Attempt)
  | resend (campaignId leadId : Nat) (a : Attempt)
  | setTransport (transport : Bool)
  | configure (campaignId : Nat) (status : CampaignStatus) (config : CampaignConfig)

/-- The lead with the id and its campaign. -/
def leadAndCampaign (w : PackWorld) (id : Nat) : Option (LeadRow × Campaign) :=
  (w.leads.get? id).bind fun row =>
    (getCampaign w.campaigns.list row.2.campaignId).map fun campaign => (row, campaign)

theorem leadAndCampaign_eq_some {w : PackWorld} {id : Nat} {row : LeadRow} {campaign : Campaign}
    (h : leadAndCampaign w id = some (row, campaign)) :
    row ∈ w.leads.rows ∧ getCampaign w.campaigns.list row.2.campaignId = some campaign := by
  simp only [leadAndCampaign, Option.bind_eq_some_iff, Option.map_eq_some_iff, Prod.mk.injEq] at h
  obtain ⟨row', hget, campaign', hcampaign, rfl, rfl⟩ := h
  exact ⟨(Table.mem_of_get? hget).1, hcampaign⟩

/-- One operation, run on its own. Every operation can be called in every world. -/
def packStep (py : LowerCase) : PackAct → PackWorld → Option PackWorld
  | .submit slug payload now missed, w =>
      some { w with leads := (captureLeadCreated py w.campaigns.list slug payload now missed w.leads).1 }
  | .capture slug payload now missed pack viewing, w =>
      some { w with toDelivery := (captureLead py w.transport w.campaigns.list slug payload now missed
        pack viewing w.toDelivery).1 }
  | .deliverPack id a, w =>
      match leadAndCampaign w id with
      | none => some w
      | some (row, campaign) =>
          some { w with toDelivery := (deliverPackTo w.transport campaign row a w.toDelivery).1 }
  | .deliverViewing id a, w =>
      match leadAndCampaign w id with
      | none => some w
      | some (row, campaign) =>
          some { w with toDelivery := (deliverViewingTo w.transport campaign row a w.toDelivery).1 }
  | .sweep limit attempts, w =>
      some { w with toDelivery :=
        (deliverPending w.transport w.campaigns.list attempts limit w.toDelivery).1 }
  | .resend campaignId leadId a, w =>
      some { w with toDelivery :=
        (resendLeadPack w.transport w.campaigns.list campaignId leadId a w.toDelivery).1 }
  | .setTransport transport, w => some { w with transport := transport }
  | .configure campaignId status config, w =>
      some { w with campaigns := w.campaigns.configure campaignId status config }

/-- A world without leads and mails. -/
def PackWorld.Initial (w : PackWorld) : Prop := w.leads = Table.empty _ ∧ w.log = []

/-- The operation leaves the configuration of the campaigns alone. -/
def PackAct.KeepsConfig : PackAct → Prop
  | .configure _ _ _ => False
  | _ => True

/-- The submission of a capture, and the slug it is looked up with. -/
def PackAct.submission : PackAct → Option (String × LeadCreateRequest)
  | .submit slug payload _ _ => some (slug, payload)
  | .capture slug payload _ _ _ _ => some (strip slug, payload)
  | _ => none

/-- A submission through the endpoint, a sweep or a change of the key: no delivery by hand. -/
def PackAct.Unattended : PackAct → Prop
  | .capture _ _ _ _ _ _ | .sweep _ _ | .setTransport _ => True
  | _ => False

theorem PackAct.Unattended.keepsConfig {act : PackAct} (h : act.Unattended) : act.KeepsConfig := by
  cases act with
  | configure campaignId status config => exact h.elim
  | _ => trivial

/-! ## Row steps -/

/-- What can happen to the leads and the mails. `submit` is the condition under which a submission is
merged into a row, `packs` the one under which `deliver_pack` is called on a lead. -/
inductive RowStep (py : LowerCase) (campaigns : List Campaign)
    (submit : Delivery → Campaign → LeadCreateRequest → Prop) (packs : Lead → Prop) :
    Delivery → Delivery → Prop where
  | created {d : Delivery} {campaign : Campaign} {payload : LeadCreateRequest} {now : Datetime}
      {t' : LeadTable} (hcampaign : getCampaign campaigns campaign.id = some campaign)
      (hinsert : d.leads.insert (mergedLead py campaign payload now none) =
        some (d.leads.nextId, t')) :
      RowStep py campaigns submit packs d ⟨t', d.log⟩
  | merged {d : Delivery} {campaign : Campaign} {payload : LeadCreateRequest} {now : Datetime}
      {row : LeadRow} {t' : LeadTable} (hcampaign : getCampaign campaigns campaign.id = some campaign)
      (hsubmit : submit d campaign payload)
      (hfound : getByCampaignEmail d.leads campaign.id (normaliseEmail py payload.email) = some row)
      (hupdate : d.leads.update row.1 (mergedLead py campaign payload now (some row.2)) = some t') :
      RowStep py campaigns submit packs d ⟨t', d.log⟩
  | packed {d : Delivery} {transport : Bool} {campaign : Campaign} {row : LeadRow} {a : Attempt}
      {t' : LeadTable} (hcampaign : getCampaign campaigns row.2.campaignId = some campaign)
      (hrow : row ∈ d.leads.rows) (hpacks : packs row.2)
      (hupdate : d.leads.update row.1 (deliverPack transport row.2 campaign a).1 = some t') :
      RowStep py campaigns submit packs d ⟨t', packMail transport campaign row a ++ d.log⟩
  | viewed {d : Delivery} {transport : Bool} {campaign : Campaign} {row : LeadRow} {a : Attempt}
      {t' : LeadTable} (hcampaign : getCampaign campaigns row.2.campaignId = some campaign)
      (hrow : row ∈ d.leads.rows)
      (hupdate : d.leads.update row.1
        ((deliverViewing transport row.2 campaign a).1.getD row.2) = some t') :
      RowStep py campaigns submit packs d ⟨t', viewingMail transport campaign row a ++ d.log⟩

section RowSteps

variable {py : LowerCase} {submit : Delivery → Campaign → LeadCreateRequest → Prop}
  {packs : Lead → Prop} {transport : Bool} {d : Delivery}

/-- A capture is at most one row step, and returns the row it leaves. -/
theorem captureLeadCreated_rowSteps (packs : Lead → Prop) {campaigns : Campaigns} {slug : String}
    {payload : LeadCreateRequest} (now : Datetime) (missed : Bool)
    (hsubmit : ∀ campaign, getBySlug campaigns.list slug = some campaign →
      submit d campaign payload) :
    ReflTransGen (RowStep py campaigns.list submit packs) d
        ⟨(captureLeadCreated py campaigns.list slug payload now missed d.leads).1, d.log⟩ ∧
      ∀ row created,
        (captureLeadCreated py campaigns.list slug payload now missed d.leads).2 =
          .ok (row, created) →
        row ∈ (captureLeadCreated py campaigns.list slug payload now missed d.leads).1.rows := by
  rcases captureLeadCreated_spec py campaigns.list slug payload now missed d.leads with
    ⟨-, e, hcall⟩ | ⟨campaign, row, t', hslug, hfound, -, hupdate, hcall⟩ |
      ⟨campaign, t', hslug, -, hinsert, hcall⟩
  · rw [hcall]
    refine ⟨.refl, fun row created h => ?_⟩
    cases h
  · have hcampaign := campaigns.getCampaign_of_mem (List.mem_of_find?_eq_some hslug)
    rw [hcall]
    refine ⟨.single (.merged hcampaign (hsubmit campaign hslug) hfound hupdate), ?_⟩
    rintro r created h
    cases h
    exact (Table.mem_of_update hupdate).2
      (Or.inr ⟨rfl, row.2, (getByCampaignEmail_eq_some hfound).1⟩)
  · have hcampaign := campaigns.getCampaign_of_mem (List.mem_of_find?_eq_some hslug)
    rw [hcall]
    refine ⟨.single (.created hcampaign hinsert), ?_⟩
    rintro r created h
    cases h
    exact (Table.mem_of_insert hinsert).2 (Or.inr rfl)

variable {campaigns : List Campaign}

theorem deliverPackTo_rowStep {campaign : Campaign} {row : LeadRow} (a : Attempt)
    (hcampaign : getCampaign campaigns row.2.campaignId = some campaign) (hrow : row ∈ d.leads.rows)
    (hpacks : packs row.2) :
    RowStep py campaigns submit packs d (deliverPackTo transport campaign row a d).1 := by
  obtain ⟨t', hupdate, hcall⟩ := deliverPackTo_spec transport campaign a hrow
  rw [hcall]
  exact .packed hcampaign hrow hpacks hupdate

theorem deliverViewingTo_rowStep {campaign : Campaign} {row : LeadRow} (a : Attempt)
    (hcampaign : getCampaign campaigns row.2.campaignId = some campaign)
    (hrow : row ∈ d.leads.rows) :
    RowStep py campaigns submit packs d (deliverViewingTo transport campaign row a d).1 := by
  obtain ⟨t', hupdate, hcall⟩ := deliverViewingTo_spec transport campaign a hrow
  rw [hcall]
  exact .viewed hcampaign hrow hupdate

/-- The deliveries of the capture endpoint. -/
theorem deliverCaptured_rowSteps (hwaiting : ∀ l, waiting l = true → packs l) {row : LeadRow}
    (created : Bool) (pack viewing : Attempt) (hrow : row ∈ d.leads.rows) :
    ReflTransGen (RowStep py campaigns submit packs) d
      (deliverCaptured transport campaigns row created pack viewing d).1 := by
  unfold deliverCaptured
  cases hcampaign : getCampaign campaigns row.2.campaignId with
  | none => exact .refl
  | some campaign =>
      simp only
      by_cases hpending : row.2.packDeliveryStatus = .pending
      · have hpacks := hwaiting row.2 (by simp [waiting, hpending])
        obtain ⟨t', hupdate, hcall⟩ := deliverPackTo_spec transport campaign pack hrow
        have hstep : RowStep py campaigns submit packs d
            ⟨t', packMail transport campaign row pack ++ d.log⟩ :=
          .packed hcampaign hrow hpacks hupdate
        simp only [hpending, if_true, hcall]
        split
        · refine (ReflTransGen.single hstep).tail (deliverViewingTo_rowStep viewing ?_ ?_)
          · exact (sameLead_deliverPack transport row.2 campaign pack).campaignId ▸ hcampaign
          · exact (Table.mem_of_update hupdate).2 (Or.inr ⟨rfl, row.2, hrow⟩)
        · exact .single hstep
      · simp only [hpending, if_false]
        split
        · exact .single (deliverViewingTo_rowStep viewing hcampaign hrow)
        · exact .refl

/-- What the loop of the sweep does: a row step for each of its rows, each logging its mail. -/
theorem deliverLoop_spec (attempts : Nat → Attempt) {rows : List LeadRow}
    (hmem : ∀ q ∈ rows, q ∈ d.leads.rows ∧ packs q.2) (hnodup : rows.Nodup) :
    ∃ d' n, deliverLoop transport campaigns attempts rows d = (d', .ok n) ∧
      ReflTransGen (RowStep py campaigns submit packs) d d' ∧
      ∀ m, m ∈ d'.log ↔ m ∈ d.log ∨ ∃ q ∈ rows, ∃ campaign,
        getCampaign campaigns q.2.campaignId = some campaign ∧
        m ∈ packMail transport campaign q (attempts q.1) := by
  induction rows generalizing d with
  | nil => exact ⟨d, 0, rfl, .refl, by simp⟩
  | cons row rest ih =>
      obtain ⟨⟨hrow, hpacks⟩, hrest⟩ := List.forall_mem_cons.1 hmem
      obtain ⟨hnot, hnodup⟩ := List.nodup_cons.1 hnodup
      rw [deliverLoop]
      cases hcampaign : getCampaign campaigns row.2.campaignId with
      | none =>
          obtain ⟨d', n, hloop, hsteps, hlog⟩ := ih hrest hnodup
          refine ⟨d', n, hloop, hsteps, fun m => ?_⟩
          rw [hlog m]
          simp [hcampaign]
      | some campaign =>
          obtain ⟨t', hupdate, hcall⟩ := deliverPackTo_spec transport campaign (attempts row.1) hrow
          have hrest' : ∀ q ∈ rest, q ∈ t'.rows ∧ packs q.2 := by
            intro q hq
            obtain ⟨hmem, hq'⟩ := hrest q hq
            refine ⟨(Table.mem_of_update hupdate).2 (Or.inl ⟨hmem, fun hid => ?_⟩), hq'⟩
            exact hnot (d.leads.eq_of_id hmem hrow hid ▸ hq)
          obtain ⟨d', n, hloop, hsteps, hlog⟩ :=
            ih (d := ⟨t', packMail transport campaign row (attempts row.1) ++ d.log⟩) hrest' hnodup
          simp only [hcall, hloop]
          refine ⟨d', _, rfl, .head (.packed hcampaign hrow hpacks hupdate) hsteps, fun m => ?_⟩
          rw [hlog m]
          simp only [List.mem_append, List.mem_cons, exists_eq_or_imp, hcampaign, Option.some.injEq,
            exists_eq_left']
          tauto

theorem mem_listPendingPackDelivery {t : LeadTable} {limit : Nat} {q : LeadRow}
    (h : q ∈ listPendingPackDelivery t limit) : q ∈ t.rows ∧ waiting q.2 = true :=
  Table.mem_select.1 (List.mem_of_mem_take h)

theorem nodup_listPendingPackDelivery (t : LeadTable) (limit : Nat) :
    (listPendingPackDelivery t limit).Nodup :=
  t.nodup_select waiting limit

/-- The sweep as row steps. -/
theorem deliverPending_spec (py : LowerCase)
    (submit : Delivery → Campaign → LeadCreateRequest → Prop)
    (hwaiting : ∀ l, waiting l = true → packs l) (transport : Bool) (campaigns : List Campaign)
    (attempts : Nat → Attempt) (limit : Nat) (d : Delivery) :
    ∃ d' n, deliverPending transport campaigns attempts limit d = (d', .ok n) ∧
      ReflTransGen (RowStep py campaigns submit packs) d d' ∧
      ∀ m, m ∈ d'.log ↔ m ∈ d.log ∨ ∃ q ∈ listPendingPackDelivery d.leads limit, ∃ campaign,
        getCampaign campaigns q.2.campaignId = some campaign ∧
        m ∈ packMail transport campaign q (attempts q.1) :=
  deliverLoop_spec attempts
    (fun q hq => ⟨(mem_listPendingPackDelivery hq).1, hwaiting q.2 (mem_listPendingPackDelivery hq).2⟩)
    (nodup_listPendingPackDelivery d.leads limit)

theorem resendLeadPack_rowSteps (hpacks : ∀ l, packs l) (campaignId leadId : Nat) (a : Attempt) :
    ReflTransGen (RowStep py campaigns submit packs) d
      (resendLeadPack transport campaigns campaignId leadId a d).1 := by
  unfold resendLeadPack
  cases hcampaign : getCampaign campaigns campaignId with
  | none => exact .refl
  | some campaign =>
      simp only
      cases hget : d.leads.get? leadId with
      | none => exact .refl
      | some row =>
          simp only
          obtain ⟨hrow, -⟩ := Table.mem_of_get? hget
          split
          · exact .refl
          · rename_i hsame
            rw [ne_eq, not_not] at hsame
            subst hsame
            split
            · exact .single (deliverViewingTo_rowStep a hcampaign hrow)
            · exact .single (deliverPackTo_rowStep a hcampaign hrow (hpacks row.2))

theorem captureLead_rowSteps {campaigns : Campaigns} (hwaiting : ∀ l, waiting l = true → packs l)
    {slug : String} {payload : LeadCreateRequest} (now : Datetime) (missed : Bool)
    (pack viewing : Attempt)
    (hsubmit : ∀ campaign, getBySlug campaigns.list (strip slug) = some campaign →
      submit d campaign payload) :
    ReflTransGen (RowStep py campaigns.list submit packs) d
      (captureLead py transport campaigns.list slug payload now missed pack viewing d).1 := by
  obtain ⟨hsteps, hrow⟩ := captureLeadCreated_rowSteps packs now missed hsubmit
  unfold captureLead
  split
  · rename_i hcall
    rw [hcall] at hsteps
    exact hsteps
  · rename_i t' row created hcall
    rw [hcall] at hsteps hrow
    exact hsteps.trans (deliverCaptured_rowSteps hwaiting created pack viewing (hrow row created rfl))

end RowSteps

/-- Every operation that keeps the configuration is a sequence of row steps. -/
theorem packStep_rowSteps {py : LowerCase}
    {submit : Delivery → Campaign → LeadCreateRequest → Prop} {packs : Lead → Prop} {act : PackAct}
    {w w' : PackWorld} (hact : act.KeepsConfig)
    (hsubmit : ∀ slug payload, act.submission = some (slug, payload) → ∀ campaign,
      getBySlug w.campaigns.list slug = some campaign → submit w.toDelivery campaign payload)
    (hwaiting : ∀ l, waiting l = true → packs l) (hpacks : ¬ act.Unattended → ∀ l, packs l)
    (h : packStep py act w = some w') :
    w'.campaigns = w.campaigns ∧
      ReflTransGen (RowStep py w.campaigns.list submit packs) w.toDelivery w'.toDelivery := by
  cases act with
  | submit slug payload now missed =>
      simp only [packStep, Option.some.injEq] at h
      subst h
      exact ⟨rfl, (captureLeadCreated_rowSteps packs now missed (hsubmit slug payload rfl)).1⟩
  | capture slug payload now missed pack viewing =>
      simp only [packStep, Option.some.injEq] at h
      subst h
      exact ⟨rfl, captureLead_rowSteps hwaiting now missed pack viewing
        (hsubmit _ payload rfl)⟩
  | deliverPack id a =>
      simp only [packStep] at h
      split at h
      · simp only [Option.some.injEq] at h
        subst h
        exact ⟨rfl, .refl⟩
      · rename_i hlead
        simp only [Option.some.injEq] at h
        subst h
        obtain ⟨hrow, hcampaign⟩ := leadAndCampaign_eq_some hlead
        exact ⟨rfl, .single (deliverPackTo_rowStep a hcampaign hrow (hpacks (fun h => h) _))⟩
  | deliverViewing id a =>
      simp only [packStep] at h
      split at h
      · simp only [Option.some.injEq] at h
        subst h
        exact ⟨rfl, .refl⟩
      · rename_i hlead
        simp only [Option.some.injEq] at h
        subst h
        obtain ⟨hrow, hcampaign⟩ := leadAndCampaign_eq_some hlead
        exact ⟨rfl, .single (deliverViewingTo_rowStep a hcampaign hrow)⟩
  | sweep limit attempts =>
      simp only [packStep, Option.some.injEq] at h
      subst h
      obtain ⟨d', n, hsweep, hsteps, -⟩ := deliverPending_spec py submit hwaiting w.transport
        w.campaigns.list attempts limit w.toDelivery
      refine ⟨rfl, ?_⟩
      rw [hsweep]
      exact hsteps
  | resend campaignId leadId a =>
      simp only [packStep, Option.some.injEq] at h
      subst h
      exact ⟨rfl, resendLeadPack_rowSteps (hpacks fun h => h) campaignId leadId a⟩
  | setTransport transport =>
      simp only [packStep, Option.some.injEq] at h
      subst h
      exact ⟨rfl, .refl⟩
  | configure campaignId status config => exact hact.elim

/-- What every row step preserves, an operation preserves. -/
theorem packStep_invariant {py : LowerCase} {campaigns : Campaigns}
    (submit : Delivery → Campaign → LeadCreateRequest → Prop) (packs : Lead → Prop)
    {I : Delivery → Prop}
    (hI : ∀ d d', I d → RowStep py campaigns.list submit packs d d' → I d') {act : PackAct}
    {w w' : PackWorld} (hw : w.campaigns = campaigns ∧ I w.toDelivery) (hact : act.KeepsConfig)
    (hsubmit : ∀ slug payload, act.submission = some (slug, payload) → ∀ campaign,
      getBySlug w.campaigns.list slug = some campaign → submit w.toDelivery campaign payload)
    (hwaiting : ∀ l, waiting l = true → packs l) (hpacks : ¬ act.Unattended → ∀ l, packs l)
    (h : packStep py act w = some w') : w'.campaigns = campaigns ∧ I w'.toDelivery := by
  obtain ⟨rfl, hd⟩ := hw
  obtain ⟨hcampaigns, hsteps⟩ := packStep_rowSteps hact hsubmit hwaiting hpacks h
  have hinvariant : ∀ d', ReflTransGen (RowStep py w.campaigns.list submit packs) w.toDelivery d' →
      I d' := by
    intro d' hd'
    induction hd' with
    | refl => exact hd
    | tail _ hstep ih => exact hI _ _ ih hstep
  exact ⟨hcampaigns, hinvariant _ hsteps⟩

/-! ## A campaign with two documents -/

def twoDocuments : CampaignConfig where
  baseTags := []
  tagMap := []
  digitalPackTag := none
  inspectionTag := none
  newsletterTag := none
  materials := ["Prospectus", "Floorplans"]
  materialsAssets := [("Prospectus", .str "https://a/p.pdf"), ("Floorplans", .arr [.str "https://a/f.pdf"])]

/-- The key is set; nobody has been captured yet. -/
def standWorld : PackWorld where
  leads := Table.empty _
  log := []
  transport := true
  campaigns := ⟨[⟨1, "nog-2026", .active, twoDocuments⟩], by simp⟩

/-- Ada asks for the materials. -/
def packRequest (materials : List String) : LeadCreateRequest where
  firstName := "Ada"
  lastName := "Obi"
  email := adaEmail
  phone := none
  company := "Acme"
  jobTitle := none
  source := "qr"
  deviceId := none
  timing := none
  interests := none
  requestedMaterials := some materials
  inspectionRequested := false
  inspectionType := none
  marketingOptIn := false
  consentStatus := false
  capturedAt := none
  responses := []

/-- An email that is accepted. -/
def accepted : Attempt := ⟨true, ⟨0, some 0⟩⟩

/-- Ada's request through the endpoint, with accepted emails. -/
def askFor (materials : List String) : PackAct :=
  .capture "nog-2026" (packRequest materials) ⟨0, some 0⟩ false accepted accepted

end SalesTrades.Leads
