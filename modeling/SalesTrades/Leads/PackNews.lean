import SalesTrades.Leads.PackRuns

/-!
# When a pack email carries something new

`_next_pack_status` compares a request with the previous request and not with what was delivered.
Every pack email of a run carries a label that no earlier email had brought to the lead, provided that
each submission whose materials have all been emailed meets a lead marked sent whose previous request
contains it (`packs_carry_news`). Shrinking the request and growing it back sends the same materials
again (`shrink_and_grow_repeats`).
-/

set_option autoImplicit false

namespace SalesTrades.Leads

open SalesTrades.Library SalesTrades.Library.Run

/-- Every pack email carries a label that no earlier email had brought to the lead. -/
def CarriesNews (log : List Mail) : Prop :=
  ∀ id labels earlier, (.pack id labels :: earlier) <:+ log →
    ∃ label ∈ labels, label ∉ emailed earlier id

/-- The condition on a submission: if it has deliverable materials and all of them have been emailed,
the lead is marked sent and its previous request contains the new one. -/
def FreshSubmission (py : LowerCase) (d : Delivery) (campaign : Campaign)
    (payload : LeadCreateRequest) : Prop :=
  match getByCampaignEmail d.leads campaign.id (normaliseEmail py payload.email) with
  | none => True
  | some row =>
      (∃ label ∈ payload.requestedMaterials.getD [], campaign.config.Deliverable label) →
      (∀ label ∈ payload.requestedMaterials.getD [], campaign.config.Deliverable label →
        label ∈ emailed d.log row.1) →
      row.2.packDeliveryStatus = .sent ∧
        ∀ label ∈ payload.requestedMaterials.getD [], label ∈ row.2.requestedMaterials.getD []

instance (py : LowerCase) (d : Delivery) (campaign : Campaign) (payload : LeadCreateRequest) :
    Decidable (FreshSubmission py d campaign payload) := by
  unfold FreshSubmission
  split <;> infer_instance

/-- The condition on an operation of a run. -/
def FreshAct (py : LowerCase) (act : PackAct) (w : PackWorld) : Prop :=
  match act.submission with
  | none => True
  | some (slug, payload) =>
      match getBySlug w.campaigns.list slug with
      | none => True
      | some campaign => FreshSubmission py w.toDelivery campaign payload

instance (py : LowerCase) (act : PackAct) (w : PackWorld) : Decidable (FreshAct py act w) := by
  unfold FreshAct
  split
  · infer_instance
  · split <;> infer_instance

/-! ## Mails -/

/-- Nothing was emailed to a lead that no mail went to. -/
theorem emailed_eq_nil {log : List Mail} {id : Nat} (h : ∀ m ∈ log, m.id ≠ id) :
    emailed log id = [] := by
  simp only [emailed, List.flatMap_eq_nil_iff]
  exact fun m hm => if_neg (h m hm)

theorem carriesNews_pack {log : List Mail} {id : Nat} {labels : List String} {label : String}
    (hlog : CarriesNews log) (hlabel : label ∈ labels) (hnew : label ∉ emailed log id) :
    CarriesNews (.pack id labels :: log) := by
  intro i ls earlier hsuffix
  rcases List.suffix_cons_iff.1 hsuffix with heq | hsuffix
  · simp only [List.cons.injEq, Mail.pack.injEq] at heq
    obtain ⟨⟨rfl, rfl⟩, rfl⟩ := heq
    exact ⟨label, hlabel, hnew⟩
  · exact hlog i ls earlier hsuffix

theorem carriesNews_viewing {log : List Mail} {id : Nat} {labels : List String}
    (hlog : CarriesNews log) : CarriesNews (.viewing id labels :: log) := by
  intro i ls earlier hsuffix
  rcases List.suffix_cons_iff.1 hsuffix with heq | hsuffix
  · simp at heq
  · exact hlog i ls earlier hsuffix

/-! ## What a row step preserves -/

variable {py : LowerCase} {campaign : Campaign} {payload : LeadCreateRequest} {now : Datetime}

/-- A merge leaves a lead waiting exactly when something is requested and it does not stay sent. -/
theorem mergedLead_waiting_iff {existing : Option Lead} :
    waiting (mergedLead py campaign payload now existing) = true ↔
      payload.requestedMaterials.getD [] ≠ [] ∧ ¬ ∃ l, existing = some l ∧
        l.packDeliveryStatus = .sent ∧
        ∀ m ∈ payload.requestedMaterials.getD [], m ∈ l.requestedMaterials.getD [] := by
  cases existing with
  | none =>
      simp only [waiting, mergedLead, recomputeScore, nextPackStatus, Option.isSome_none]
      split <;> simp_all
  | some l =>
      simp only [waiting, mergedLead, recomputeScore, nextPackStatus, Option.map_some,
        Option.bind_some, Option.isSome_some, Option.some.injEq, true_and, exists_eq_left']
      split
      · split <;> simp_all
      · split <;> simp_all

/-- The next pack email to the lead would carry something new. -/
def HasNews (log : List Mail) (id : Nat) (l : Lead) (campaign : Campaign) : Prop :=
  deliverableLabels l campaign ≠ [] →
    ∃ label ∈ deliverableLabels l campaign, label ∉ emailed log id

/-- The mails so far carried news, they went to leads in the table, and a lead that waits for its pack
will get news. -/
structure NewsAhead (campaigns : List Campaign) (d : Delivery) : Prop where
  news : CarriesNews d.log
  id_lt : ∀ m ∈ d.log, m.id < d.leads.nextId
  ahead : ∀ q ∈ d.leads.rows, waiting q.2 = true → ∀ campaign,
    getCampaign campaigns q.2.campaignId = some campaign → HasNews d.log q.1 q.2 campaign

/-- A delivery that stores `new` and logs `mails` about its lead: no other lead is concerned. -/
theorem newsAhead_delivered {campaigns : List Campaign} {d : Delivery} {row : LeadRow} {new : Lead}
    {t' : LeadTable} {mails : List Mail} (hd : NewsAhead campaigns d) (hrow : row ∈ d.leads.rows)
    (hsame : SameLead row.2 new) (hupdate : d.leads.update row.1 new = some t')
    (hmails : ∀ m ∈ mails, m.id = row.1) (hnews : CarriesNews (mails ++ d.log))
    (hahead : waiting new = true → ∀ campaign,
      getCampaign campaigns row.2.campaignId = some campaign →
      HasNews (mails ++ d.log) row.1 row.2 campaign) :
    NewsAhead campaigns ⟨t', mails ++ d.log⟩ := by
  refine ⟨hnews, fun m hm => ?_, fun q hq hq' c hc => ?_⟩
  · rw [(Table.update_eq_some hupdate).2]
    rcases List.mem_append.1 hm with hm | hm
    · exact hmails m hm ▸ d.leads.id_lt row hrow
    · exact hd.id_lt m hm
  · rcases (Table.mem_of_update hupdate).1 hq with ⟨hq, hne⟩ | ⟨rfl, -⟩
    · have hsilent : emailed (mails ++ d.log) q.1 = emailed d.log q.1 := by
        have hnil : emailed mails q.1 = [] :=
          emailed_eq_nil fun m hm heq => hne (heq.symm.trans (hmails m hm))
        simpa [emailed] using hnil
      unfold HasNews
      rw [hsilent]
      exact hd.ahead q hq hq' c hc
    · rw [hsame.campaignId] at hc
      unfold HasNews
      rw [deliverableLabels_sameLead hsame]
      exact hahead hq' c hc

theorem newsAhead_packed {campaigns : List Campaign} {d : Delivery} {transport : Bool}
    {row : LeadRow} {a : Attempt} {t' : LeadTable} (hd : NewsAhead campaigns d)
    (hcampaign : getCampaign campaigns row.2.campaignId = some campaign) (hrow : row ∈ d.leads.rows)
    (hwaiting : waiting row.2 = true)
    (hupdate : d.leads.update row.1 (deliverPack transport row.2 campaign a).1 = some t') :
    NewsAhead campaigns ⟨t', packMail transport campaign row a ++ d.log⟩ := by
  have hsame := sameLead_deliverPack transport row.2 campaign a
  have hnews := hd.ahead row hrow hwaiting campaign hcampaign
  refine newsAhead_delivered hd hrow hsame hupdate ?_ ?_ ?_
  · intro m hm
    simp only [packMail, Option.mem_toList, Option.map_eq_some_iff] at hm
    obtain ⟨labels, -, rfl⟩ := hm
    rfl
  · rcases deliverPack_cases transport row.2 campaign a with ⟨-, -, hmail⟩ | ⟨-, -, -, hmail⟩ |
      ⟨hsome, -, -, -, hmail⟩ | ⟨-, -, -, -, hmail⟩
    · simpa [packMail, hmail] using hd.news
    · simpa [packMail, hmail] using hd.news
    · obtain ⟨label, hlabel, hnew⟩ := hnews hsome
      simpa [packMail, hmail] using carriesNews_pack hd.news hlabel hnew
    · simpa [packMail, hmail] using hd.news
  · intro hstill c hc
    rw [hcampaign] at hc
    obtain rfl := Option.some.inj hc
    rcases deliverPack_cases transport row.2 campaign a with ⟨hnone, -, -⟩ | ⟨-, -, hstatus, -⟩ |
      ⟨-, -, -, hmarked, -⟩ | ⟨-, -, -, -, hmail⟩
    · exact fun h => absurd hnone h
    · simp [waiting, hstatus] at hstill
    · simp [waiting, hmarked] at hstill
    · simpa [packMail, hmail] using hnews

theorem newsAhead_viewed {campaigns : List Campaign} {d : Delivery} {transport : Bool}
    {row : LeadRow} {a : Attempt} {t' : LeadTable} (hd : NewsAhead campaigns d)
    (hrow : row ∈ d.leads.rows)
    (hupdate : d.leads.update row.1
      ((deliverViewing transport row.2 campaign a).1.getD row.2) = some t') :
    NewsAhead campaigns ⟨t', viewingMail transport campaign row a ++ d.log⟩ := by
  have hsame := sameLead_deliverViewing transport row.2 campaign a
  refine newsAhead_delivered hd hrow hsame hupdate ?_ ?_ ?_
  · intro m hm
    simp only [viewingMail, Option.mem_toList, Option.map_eq_some_iff] at hm
    obtain ⟨labels, -, rfl⟩ := hm
    rfl
  · unfold viewingMail
    cases (deliverViewing transport row.2 campaign a).2 with
    | none => exact hd.news
    | some labels => exact carriesNews_viewing hd.news
  · intro hstill c hc
    rcases deliverViewing_cases transport row.2 campaign a with ⟨hnone, hsilent⟩ |
      ⟨docs, -, hmarked, -⟩
    · rw [hnone, Option.getD_none] at hstill
      have hnews := hd.ahead row hrow hstill c hc
      unfold viewingMail
      cases hmail : (deliverViewing transport row.2 campaign a).2 with
      | none => exact hnews
      | some labels =>
          rcases hsilent labels hmail with rfl | hsent
          · simpa [HasNews, emailed, Mail.labels] using hnews
          · simp [waiting, hsent] at hstill
    · simp [waiting, hmarked] at hstill

/-- A fresh submission that leaves the lead waiting asks for something new. -/
theorem newsAhead_merged {campaigns : List Campaign} {d : Delivery} {row : LeadRow}
    {t' : LeadTable} (hd : NewsAhead campaigns d)
    (hcampaign : getCampaign campaigns campaign.id = some campaign)
    (hfresh : FreshSubmission py d campaign payload)
    (hfound : getByCampaignEmail d.leads campaign.id (normaliseEmail py payload.email) = some row)
    (hupdate : d.leads.update row.1 (mergedLead py campaign payload now (some row.2)) = some t') :
    NewsAhead campaigns ⟨t', d.log⟩ := by
  obtain ⟨hrow, hrowCampaign, -⟩ := getByCampaignEmail_eq_some hfound
  refine ⟨hd.news, fun m hm => ?_, fun q hq hq' c hc => ?_⟩
  · exact (Table.update_eq_some hupdate).2 ▸ hd.id_lt m hm
  · rcases (Table.mem_of_update hupdate).1 hq with ⟨hq, -⟩ | ⟨rfl, -⟩
    · exact hd.ahead q hq hq' c hc
    · rw [(mergedLead_key py campaign payload now row.2).1, hrowCampaign, hcampaign] at hc
      obtain rfl := Option.some.inj hc
      intro hsome
      by_contra hold
      push Not at hold
      have hlabels : ∀ label, label ∈ deliverableLabels
          (mergedLead py campaign payload now (some row.2)) campaign ↔
          label ∈ payload.requestedMaterials.getD [] ∧ campaign.config.Deliverable label :=
        fun label => mem_deliverableLabels
      simp only [FreshSubmission, hfound] at hfresh
      refine (mergedLead_waiting_iff.1 hq').2 ⟨row.2, rfl, hfresh ?_ ?_⟩
      · obtain ⟨label, hlabel⟩ := List.exists_mem_of_ne_nil _ hsome
        exact ⟨label, (hlabels label).1 hlabel⟩
      · exact fun label hrequested hdeliverable =>
          hold label ((hlabels label).2 ⟨hrequested, hdeliverable⟩)

theorem newsAhead_rowStep {campaigns : List Campaign} {d d' : Delivery} (hd : NewsAhead campaigns d)
    (h : RowStep py campaigns (FreshSubmission py) (fun l => waiting l = true) d d') :
    NewsAhead campaigns d' := by
  cases h with
  | created hcampaign hinsert =>
      refine ⟨hd.news, fun m hm => ?_, fun q hq hq' c hc => ?_⟩
      · have := hd.id_lt m hm
        have := (Table.insert_eq_some hinsert).2.2
        simp only
        omega
      · rcases (Table.mem_of_insert hinsert).1 hq with hq | rfl
        · exact hd.ahead q hq hq' c hc
        · -- no mail went to the id that is handed out now
          intro hsome
          obtain ⟨label, hlabel⟩ := List.exists_mem_of_ne_nil _ hsome
          refine ⟨label, hlabel, ?_⟩
          rw [emailed_eq_nil fun m hm => (hd.id_lt m hm).ne]
          exact List.not_mem_nil
  | merged hcampaign hsubmit hfound hupdate =>
      exact newsAhead_merged hd hcampaign hsubmit hfound hupdate
  | packed hcampaign hrow hpacks hupdate => exact newsAhead_packed hd hcampaign hrow hpacks hupdate
  | viewed hcampaign hrow hupdate => exact newsAhead_viewed hd hrow hupdate

/-! ## Runs -/

/-- **When every pack email carries something new.** In a run of submissions through the endpoint and
sweeps, with any emails accepted or not, in which every submission meets its condition, every state has
a log in which every pack email carries a label that no earlier email had brought to the lead. -/
theorem packs_carry_news {acts : List PackAct} {w₀ : PackWorld} (hinit : w₀.Initial)
    (hacts : ∀ act ∈ acts, act.Unattended) (hfresh : Guarded (packStep py) (FreshAct py) acts w₀) :
    Always (packStep py) (fun w => CarriesNews w.log) acts w₀ := by
  have hstart : NewsAhead w₀.campaigns.list w₀.toDelivery := by
    refine ⟨?_, ?_, ?_⟩
    · intro id labels earlier hsuffix
      rw [hinit.2] at hsuffix
      simp at hsuffix
    · simp [hinit.2]
    · intro q hq
      rw [hinit.1] at hq
      cases hq
  have halways : Always (packStep py) (fun w => w.campaigns = w₀.campaigns ∧
      NewsAhead w₀.campaigns.list w.toDelivery) acts w₀ := by
    refine always_of_step (fun act w w' hw hact hstep => ?_) ⟨rfl, hstart⟩
      (hfresh.and (guarded_of_forall hacts w₀))
    refine packStep_invariant (FreshSubmission py) (fun l => waiting l = true)
      (fun _ _ => newsAhead_rowStep) hw hact.2.keepsConfig ?_ (fun _ h => h)
      (fun h => absurd hact.2 h) hstep
    intro slug payload hsubmission campaign hcampaign
    have := hact.1
    simp only [FreshAct, hsubmission, hcampaign] at this
    exact this
  exact halways.mono fun w hw => hw.2.news

/-- Asking for less and then for the same again: the second email of the run brings nothing new. -/
theorem shrink_and_grow_repeats : ∃ w,
    exec (packStep asciiLower)
      [askFor ["Prospectus", "Floorplans"], askFor ["Prospectus"],
        askFor ["Prospectus", "Floorplans"]] standWorld = some w ∧ ¬ CarriesNews w.log := by
  refine ⟨_, rfl, fun h => ?_⟩
  obtain ⟨label, hlabel, hnew⟩ := h 1 ["Prospectus", "Floorplans"] _ (List.suffix_refl _)
  revert label
  decide

/-- Asking for more each time: every email brings something new. -/
theorem growing_carries_news :
    Always (packStep asciiLower) (fun w => CarriesNews w.log)
      [askFor ["Prospectus"], askFor ["Prospectus", "Floorplans"],
        askFor ["Prospectus", "Floorplans"]] standWorld :=
  packs_carry_news ⟨rfl, rfl⟩ (by simp [askFor, PackAct.Unattended]) (by decide)

end SalesTrades.Leads
