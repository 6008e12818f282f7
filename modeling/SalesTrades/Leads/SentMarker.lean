import SalesTrades.Leads.PackRuns

/-!
# What the sent marker means

With the configuration of the campaigns fixed, a lead that is marked sent has been delivered every
material that its current request could deliver (`sent_means_delivered`): a merge keeps the marker
only for a request contained in the previous one, and both deliveries record at least what they could
deliver.
-/

set_option autoImplicit false

namespace SalesTrades.Leads

open SalesTrades.Library SalesTrades.Library.Run Relation

variable {py : LowerCase} {campaign : Campaign} {payload : LeadCreateRequest} {now : Datetime}

/-- A merge leaves a lead marked sent exactly when it was marked sent and the new request is contained
in the previous one. -/
theorem mergedLead_sent_iff {l : Lead} :
    (mergedLead py campaign payload now (some l)).packDeliveryStatus = .sent ↔
      l.packDeliveryStatus = .sent ∧
        ∀ m ∈ payload.requestedMaterials.getD [], m ∈ l.requestedMaterials.getD [] := by
  simp only [mergedLead, recomputeScore, nextPackStatus, Option.map_some, Option.bind_some,
    Option.isSome_some, Option.some.injEq, true_and]
  split
  · rename_i hempty
    rw [hempty]
    split <;> simp_all
  · split <;> simp_all

theorem mergedLead_new_ne_sent :
    (mergedLead py campaign payload now none).packDeliveryStatus ≠ .sent := by
  simp only [mergedLead, recomputeScore, nextPackStatus, Option.isSome_none]
  split <;> simp

/-- The lead was delivered what its request could deliver, if it is marked sent. -/
def SentMeansDelivered (campaign : Campaign) (l : Lead) : Prop :=
  l.packDeliveryStatus = .sent →
    ∀ label ∈ deliverableLabels l campaign, label ∈ l.packDeliveredMaterials.getD []

theorem sentMeansDelivered_merged {l : Lead} (campaign' : Campaign)
    (h : SentMeansDelivered campaign' l) :
    SentMeansDelivered campaign' (mergedLead py campaign payload now (some l)) := by
  intro hsent label hlabel
  obtain ⟨hwas, hcontained⟩ := mergedLead_sent_iff.1 hsent
  obtain ⟨hrequested, hdeliverable⟩ := mem_deliverableLabels.1 hlabel
  exact h hwas label (mem_deliverableLabels.2 ⟨hcontained label hrequested, hdeliverable⟩)

/-- Whatever the lead was, `deliver_pack` marks it sent only with all it could deliver. -/
theorem sentMeansDelivered_deliverPack (transport : Bool) (l : Lead) (campaign : Campaign)
    (a : Attempt) : SentMeansDelivered campaign (deliverPack transport l campaign a).1 := by
  intro hsent label hlabel
  rw [deliverableLabels_sameLead (sameLead_deliverPack transport l campaign a)] at hlabel
  rcases deliverPack_cases transport l campaign a with ⟨-, hstatus, -⟩ | ⟨-, -, hstatus, -⟩ |
    ⟨-, -, -, hmarked, -⟩ | ⟨-, -, -, hstatus, -⟩
  · exact absurd hsent hstatus
  · rw [hstatus] at hsent
    cases hsent
  · rw [hmarked, markSent_materials]
    exact hlabel
  · rw [hstatus] at hsent
    cases hsent

theorem sentMeansDelivered_deliverViewing (transport : Bool) {l : Lead} {campaign : Campaign}
    (a : Attempt) (h : SentMeansDelivered campaign l) :
    SentMeansDelivered campaign ((deliverViewing transport l campaign a).1.getD l) := by
  intro hsent label hlabel
  rw [deliverableLabels_sameLead (sameLead_deliverViewing transport l campaign a)] at hlabel
  rcases deliverViewing_cases transport l campaign a with ⟨hnone, -⟩ | ⟨docs, hdocs, hmarked, -⟩
  · rw [hnone] at hsent ⊢
    exact h hsent label hlabel
  · rw [hmarked, Option.getD_some, markSent_materials]
    exact mem_allMaterials hdocs (mem_deliverableLabels.1 hlabel).2

/-! ## Runs -/

/-- Every lead was delivered what its request could deliver, if it is marked sent. -/
def AllSentDelivered (campaigns : List Campaign) (d : Delivery) : Prop :=
  ∀ q ∈ d.leads.rows, ∀ campaign, getCampaign campaigns q.2.campaignId = some campaign →
    SentMeansDelivered campaign q.2

theorem allSentDelivered_rowStep {campaigns : List Campaign}
    {submit : Delivery → Campaign → LeadCreateRequest → Prop} {packs : Lead → Prop}
    {d d' : Delivery} (hd : AllSentDelivered campaigns d)
    (h : RowStep py campaigns submit packs d d') : AllSentDelivered campaigns d' := by
  intro q hq c hc
  cases h with
  | created hcampaign hinsert =>
      rcases (Table.mem_of_insert hinsert).1 hq with hq | rfl
      · exact hd q hq c hc
      · exact fun hsent => absurd hsent mergedLead_new_ne_sent
  | merged hcampaign hsubmit hfound hupdate =>
      obtain ⟨hrow, -, -⟩ := getByCampaignEmail_eq_some hfound
      rcases (Table.mem_of_update hupdate).1 hq with ⟨hq, -⟩ | ⟨rfl, -⟩
      · exact hd q hq c hc
      · exact sentMeansDelivered_merged c (hd _ hrow c hc)
  | @packed transport campaign row a _ hcampaign hrow hpacks hupdate =>
      rcases (Table.mem_of_update hupdate).1 hq with ⟨hq, -⟩ | ⟨rfl, -⟩
      · exact hd q hq c hc
      · rw [(sameLead_deliverPack transport row.2 campaign a).campaignId, hcampaign] at hc
        obtain rfl := Option.some.inj hc
        exact sentMeansDelivered_deliverPack transport row.2 campaign a
  | @viewed transport campaign row a _ hcampaign hrow hupdate =>
      rcases (Table.mem_of_update hupdate).1 hq with ⟨hq, -⟩ | ⟨rfl, -⟩
      · exact hd q hq c hc
      · rw [(sameLead_deliverViewing transport row.2 campaign a).campaignId, hcampaign] at hc
        obtain rfl := Option.some.inj hc
        exact sentMeansDelivered_deliverViewing transport a (hd row hrow campaign hcampaign)

/-- **A sent marker means that the request was delivered.** In every world that a run of captures, by
either path, deliveries, sweeps, resends and changes of the key leads to, every lead marked sent has
been delivered all labels that `deliverable_materials` gives for its current request. -/
theorem sent_means_delivered {acts : List PackAct} {w₀ w : PackWorld} (hinit : w₀.Initial)
    (hkeeps : ∀ act ∈ acts, act.KeepsConfig) (hrun : exec (packStep py) acts w₀ = some w) :
    ∀ q ∈ w.leads.rows, ∀ campaign,
      getCampaign w.campaigns.list q.2.campaignId = some campaign →
      q.2.packDeliveryStatus = .sent →
      ∀ label ∈ deliverableLabels q.2 campaign, label ∈ q.2.packDeliveredMaterials.getD [] := by
  have hstart : AllSentDelivered w₀.campaigns.list w₀.toDelivery := by
    intro q hq
    rw [hinit.1] at hq
    cases hq
  have halways : Always (packStep py) (fun w => w.campaigns = w₀.campaigns ∧
      AllSentDelivered w₀.campaigns.list w.toDelivery) acts w₀ := by
    refine always_of_step (fun act w w' hw hact hstep => ?_) ⟨rfl, hstart⟩
      (guarded_of_forall hkeeps w₀)
    exact packStep_invariant (fun _ _ _ => True) (fun _ => True) (fun _ _ => allSentDelivered_rowStep)
      hw hact (fun _ _ _ _ _ => trivial) (fun _ _ => trivial) (fun _ _ => trivial) hstep
  obtain ⟨hcampaigns, hdelivered⟩ := halways.last hrun
  rw [hcampaigns]
  exact hdelivered

/-- Ada's pack arrives; the request she repeats without the floorplans is still marked sent. -/
theorem sent_means_delivered_ada : ∃ w q,
    exec (packStep asciiLower) [askFor ["Prospectus", "Floorplans"], askFor ["Prospectus"]]
      standWorld = some w ∧
    q ∈ w.leads.rows ∧ q.2.packDeliveryStatus = .sent ∧
    "Prospectus" ∈ q.2.packDeliveredMaterials.getD [] := by
  obtain ⟨w, q, hrun, hq, hcampaign, hsent, hlabel⟩ : ∃ w q,
      exec (packStep asciiLower) [askFor ["Prospectus", "Floorplans"], askFor ["Prospectus"]]
        standWorld = some w ∧
      q ∈ w.leads.rows ∧
      getCampaign w.campaigns.list q.2.campaignId = some ⟨1, "nog-2026", .active, twoDocuments⟩ ∧
      q.2.packDeliveryStatus = .sent ∧
      "Prospectus" ∈ deliverableLabels q.2 ⟨1, "nog-2026", .active, twoDocuments⟩ :=
    ⟨_, _, rfl, List.mem_cons_self, rfl, rfl, by decide⟩
  refine ⟨w, q, hrun, hq, hsent, ?_⟩
  exact sent_means_delivered ⟨rfl, rfl⟩ (by simp [askFor, PackAct.KeepsConfig]) hrun q hq _ hcampaign
    hsent _ hlabel

end SalesTrades.Leads
