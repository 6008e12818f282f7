import SalesTrades.Leads.CrmRuns

/-!
# Synced leads and their contacts

A lead that is marked synced is up to date when the last upsert that went through for it carried its
current payload, up to the status. Runs keep all synced leads up to date exactly when no step changes
a pushed column of a synced lead without putting the lead back into the queue
(`always_coherent_iff`). Two operations can: a pack sent by hand that does not reach a lead marked
sent, and a write of the ICP score.
-/

set_option autoImplicit false

namespace SalesTrades.Leads

open SalesTrades.Library SalesTrades.Library.Run Relation

/-- The CRM has the lead as it is stored, if the lead is marked synced. -/
def UpToDate (campaigns : List Campaign) (log : List Upsert) (q : LeadRow) : Prop :=
  q.2.crmSyncStatus = .synced →
    ∀ campaign, getCampaign campaigns q.2.campaignId = some campaign →
      ∃ p, lastUpsert log q.1 = some p ∧
        p.withoutStatus = (buildContactPayload q.2 campaign).withoutStatus

/-- Every lead that is marked synced is up to date. -/
def CrmCoherent (campaigns : List Campaign) (s : Delivery × List Upsert) : Prop :=
  ∀ q ∈ s.1.leads.rows, UpToDate campaigns s.2 q

def CrmWorld.Coherent (w : CrmWorld) : Prop := CrmCoherent w.campaigns.list w.state

instance (campaigns : List Campaign) (campaignId : Nat) :
    Decidable (getCampaign campaigns campaignId ≠ none) :=
  decidable_of_iff ((getCampaign campaigns campaignId).isSome = true) Option.isSome_iff_ne_none

/-- The condition on a step: a pack sent by hand to a lead that is marked synced and sent, in the
campaign whose payload carries the delivery status, reaches it; a score written to a lead that is
marked synced is the one it has. -/
def Requeues (act : CrmAct) (w : CrmWorld) : Prop :=
  (∀ x ∈ handDelivery act w, x.1.2.crmSyncStatus = .synced → x.1.2.packDeliveryStatus = .sent →
    x.2.1.slug = nog2026Slug → Delivers w.transport x.1.2 x.2.1 x.2.2) ∧
  ∀ x ∈ scoring act w, x.1.2.crmSyncStatus = .synced →
    getCampaign w.campaigns.list x.1.2.campaignId ≠ none → x.1.2.icpScore = some x.2.icpScore

instance (act : CrmAct) (w : CrmWorld) : Decidable (Requeues act w) :=
  inferInstanceAs (Decidable (_ ∧ _))

/-! ## What changes the payload -/

/-- The payload depends on the delivery status in one campaign only, and there on whether the lead is
marked sent. -/
theorem buildContactPayload_congr {l l' : Lead} {campaign : Campaign}
    (hsubmitted : l'.toSubmitted = l.toSubmitted) (hemail : l'.email = l.email)
    (hscore : l'.icpScore = l.icpScore)
    (hsent : campaign.slug = nog2026Slug →
      (l'.packDeliveryStatus = .sent ↔ l.packDeliveryStatus = .sent)) :
    buildContactPayload l' campaign = buildContactPayload l campaign := by
  by_cases hslug : campaign.slug = nog2026Slug
  · simp only [buildContactPayload, hsubmitted, hemail, hscore, hsent hslug]
  · simp only [buildContactPayload, hsubmitted, hemail, hscore, hslug, if_false]

/-- The flag puts a synced lead back into the queue. -/
theorem markSent_ne_synced (lead : Lead) (labels : List String) (now : Datetime) :
    (markSent lead labels now).crmSyncStatus ≠ .synced := by
  unfold markSent flagCrmRefresh
  split
  · simp
  · rename_i h
    exact h

/-- A pack that does not reach the lead leaves it without the sent marker, and touches no column of
the CRM and no score. -/
theorem deliverPack_unsent {transport : Bool} {lead : Lead} {campaign : Campaign} {a : Attempt}
    (h : ¬ Delivers transport lead campaign a) :
    (deliverPack transport lead campaign a).1.packDeliveryStatus ≠ .sent ∧
      (deliverPack transport lead campaign a).1.crmSyncStatus = lead.crmSyncStatus ∧
      (deliverPack transport lead campaign a).1.icpScore = lead.icpScore := by
  unfold deliverPack
  split
  · unfold withoutMaterials
    split <;> simp
  · rename_i hsome
    split
    · simp
    · rename_i hon
      cases haccepted : a.accepted with
      | true =>
          refine absurd ⟨by simpa using hon, ?_, haccepted⟩ h
          simpa [deliverableLabels] using hsome
      | false => simp [afterSend]

theorem deliverPack_delivers {transport : Bool} {lead : Lead} {campaign : Campaign} {a : Attempt}
    (h : Delivers transport lead campaign a) :
    (deliverPack transport lead campaign a).1 =
      markSent lead (deliverableLabels lead campaign) a.now := by
  obtain ⟨htransport, hlabels, haccepted⟩ := h
  rcases deliverPack_cases transport lead campaign a with ⟨hnone, -⟩ | ⟨-, hoff, -⟩ |
    ⟨-, -, -, hmarked, -⟩ | ⟨-, -, hrejected, -⟩
  · exact absurd hnone hlabels
  · rw [htransport] at hoff
    cases hoff
  · exact hmarked
  · rw [haccepted] at hrejected
    cases hrejected

/-! ## Row steps -/

/-- The condition of `Requeues` on a lead that gets a pack with any outcome. -/
def Requeued (campaigns : List Campaign) (l : Lead) : Prop :=
  l.crmSyncStatus = .synced → l.packDeliveryStatus = .sent →
    ∀ campaign, getCampaign campaigns l.campaignId = some campaign → campaign.slug ≠ nog2026Slug

/-- The condition of `Requeues` on a lead whose score is written. -/
def ScoreKept (campaigns : List Campaign) (l : Lead) (result : ICPResult) : Prop :=
  l.crmSyncStatus = .synced → getCampaign campaigns l.campaignId ≠ none →
    l.icpScore = some result.icpScore

section RowSteps

variable {py : LowerCase} {campaigns : List Campaign}
  {merges : Campaign → LeadCreateRequest → LeadRow → Prop}

/-- Writing one row: the others stay up to date as long as no upsert counts for them. -/
theorem crmCoherent_update {d : Delivery} {log log' : List Upsert} {mails : List Mail} {id : Nat}
    {l : Lead} {t' : LeadTable} (hd : CrmCoherent campaigns (d, log))
    (hupdate : d.leads.update id l = some t') (hnew : UpToDate campaigns log' (id, l))
    (hother : ∀ i, i ≠ id → lastUpsert log' i = lastUpsert log i) :
    CrmCoherent campaigns (⟨t', mails⟩, log') := by
  intro q hq
  rcases (Table.mem_of_update hupdate).1 hq with ⟨hold, hne⟩ | ⟨rfl, -⟩
  · intro hsynced campaign hcampaign
    obtain ⟨p, hp, hpayload⟩ := hd q hold hsynced campaign hcampaign
    exact ⟨p, by rw [hother q.1 hne, hp], hpayload⟩
  · exact hnew

/-- A lead that is not marked synced is up to date. -/
theorem upToDate_of_ne {log : List Upsert} {q : LeadRow} (h : q.2.crmSyncStatus ≠ .synced) :
    UpToDate campaigns log q :=
  fun hsynced => absurd hsynced h

/-- A lead whose payload has not changed stays up to date. -/
theorem UpToDate.congr {log : List Upsert} {id : Nat} {l l' : Lead}
    (h : UpToDate campaigns log (id, l)) (hcampaign : l'.campaignId = l.campaignId)
    (hstatus : l'.crmSyncStatus = .synced → l.crmSyncStatus = .synced)
    (hpayload : l'.crmSyncStatus = .synced → ∀ campaign,
      getCampaign campaigns l.campaignId = some campaign →
        buildContactPayload l' campaign = buildContactPayload l campaign) :
    UpToDate campaigns log (id, l') := by
  intro hsynced campaign hc
  rw [hcampaign] at hc
  obtain ⟨p, hp, heq⟩ := h (hstatus hsynced) campaign hc
  exact ⟨p, hp, by rw [hpayload hsynced campaign hc, heq]⟩

theorem upToDate_deliverPack {log : List Upsert} {transport : Bool} {campaign : Campaign}
    {row : LeadRow} {a : Attempt} (hrow : UpToDate campaigns log row) (hpacks : Requeued campaigns row.2) :
    UpToDate campaigns log (row.1, (deliverPack transport row.2 campaign a).1) := by
  by_cases hdelivers : Delivers transport row.2 campaign a
  · rw [deliverPack_delivers hdelivers]
    exact upToDate_of_ne (markSent_ne_synced _ _ _)
  · obtain ⟨hunsent, hstatus, hscore⟩ := deliverPack_unsent hdelivers
    have hsame := sameLead_deliverPack transport row.2 campaign a
    refine UpToDate.congr hrow hsame.campaignId (fun h => hstatus ▸ h) ?_
    intro hsynced c hc
    refine buildContactPayload_congr hsame.submitted hsame.email hscore fun hslug => ?_
    -- neither the old lead nor the new one is marked sent
    refine ⟨fun h => absurd h hunsent, fun h => ?_⟩
    exact absurd hslug (hpacks (hstatus ▸ hsynced) h c hc)

theorem upToDate_syncLead {log : List Upsert} {globalSync force : Bool} {campaign : Campaign}
    {row : LeadRow} {answers : CrmAnswers} {now : Datetime} {lead : Lead}
    (hcampaign : getCampaign campaigns row.2.campaignId = some campaign)
    (hlead : (syncLead globalSync force campaign row answers now).1 = .ok lead) :
    UpToDate campaigns ((syncLead globalSync force campaign row answers now).2 ++ log)
      (row.1, lead) := by
  have hsame := sameButCrm_syncLead hlead
  intro hsynced c hc
  rw [hsame.campaignId, hcampaign, Option.some.injEq] at hc
  subst hc
  rcases syncLead_lastUpsert globalSync force campaign row answers now log with ⟨-, hnot⟩ |
    ⟨p, hp, hpayload⟩
  · exact absurd hsynced (hnot lead hlead)
  · exact ⟨p, hp, by rw [buildContactPayload_sameButCrm hsame, hpayload]⟩

/-- A sync that raises leaves the row, and the CRM with the row as it is. -/
theorem upToDate_raised {log : List Upsert} {globalSync force : Bool} {campaign : Campaign}
    {row : LeadRow} {answers : CrmAnswers} {now : Datetime}
    (hcampaign : getCampaign campaigns row.2.campaignId = some campaign)
    (hrow : UpToDate campaigns log row) :
    UpToDate campaigns ((syncLead globalSync force campaign row answers now).2 ++ log) row := by
  intro hsynced c hc
  rcases syncLead_lastUpsert globalSync force campaign row answers now log with ⟨hlast, -⟩ |
    ⟨p, hp, hpayload⟩
  · rw [hlast]
    exact hrow hsynced c hc
  · rw [hcampaign, Option.some.injEq] at hc
    subst hc
    exact ⟨p, hp, hpayload⟩

theorem crmCoherent_rowStep {s s' : Delivery × List Upsert} (hs : CrmCoherent campaigns s)
    (h : CrmRowStep py campaigns merges (Requeued campaigns) (ScoreKept campaigns)
      s s') :
    CrmCoherent campaigns s' := by
  cases h with
  | delivery hstep =>
      cases hstep with
      | created hcampaign hinsert =>
          intro q hq
          rcases (Table.mem_of_insert hinsert).1 hq with hq | rfl
          · exact hs q hq
          · exact upToDate_of_ne (by simp [mergedLead, recomputeScore, applyPayload])
      | merged hcampaign hsubmit hfound hupdate =>
          exact crmCoherent_update hs hupdate
            (upToDate_of_ne (by simp [mergedLead, recomputeScore, applyPayload])) fun _ _ => rfl
      | packed hcampaign hrow hpacks hupdate =>
          exact crmCoherent_update hs hupdate
            (upToDate_deliverPack (hs _ hrow) hpacks) fun _ _ => rfl
      | @viewed transport campaign row a _ hcampaign hrow hupdate =>
          refine crmCoherent_update hs hupdate ?_ fun _ _ => rfl
          rcases deliverViewing_cases transport row.2 campaign a with ⟨hnone, -⟩ |
            ⟨docs, -, hmarked, -⟩
          · rw [hnone]
            exact hs row hrow
          · rw [hmarked]
            exact upToDate_of_ne (markSent_ne_synced _ _ _)
  | delivered hcampaign hrow hlabels hupdate =>
      exact crmCoherent_update hs hupdate (upToDate_of_ne (markSent_ne_synced _ _ _)) fun _ _ => rfl
  | synced hcampaign hrow hlead hupdate =>
      exact crmCoherent_update hs hupdate (upToDate_syncLead hcampaign hlead)
        fun _ hid => syncLead_lastUpsert_other hid
  | @raised d log campaign row _ _ _ _ hcampaign hrow =>
      intro q hq
      by_cases hid : q.1 = row.1
      · rw [d.leads.eq_of_id hq hrow hid]
        exact upToDate_raised hcampaign (hs row hrow)
      · intro hsynced c hc
        dsimp only
        rw [syncLead_lastUpsert_other hid]
        exact hs q hq hsynced c hc
  | @scored d log row result t' hrow hscores hupdate =>
      refine crmCoherent_update hs hupdate ?_ fun _ _ => rfl
      refine UpToDate.congr (hs row hrow) rfl (fun h => h) fun hsynced c hc => ?_
      have hkept := hscores hsynced (by simp [hc])
      exact buildContactPayload_congr rfl rfl hkept.symm fun _ => Iff.rfl

end RowSteps

/-! ## Runs -/

variable {py : LowerCase}

/-- A step that meets the condition keeps the synced leads up to date. -/
theorem coherent_crmStep {act : CrmAct} {w w' : CrmWorld} (hw : w.Coherent)
    (hG : Requeues act w) (h : crmStep py act w = some w') : w'.Coherent := by
  have hhand : ∀ x, handDelivery act w = some x →
      Requeued w.campaigns.list x.1.2 ∨ Delivers w.transport x.1.2 x.2.1 x.2.2 := by
    rintro ⟨row, campaign, a⟩ hx
    obtain ⟨-, hcampaign⟩ := handDelivery_spec hx
    by_cases hdelivers : Delivers w.transport row.2 campaign a
    · exact Or.inr hdelivers
    · refine Or.inl fun hsynced hsent c hc hslug => hdelivers ?_
      rw [hcampaign, Option.some.injEq] at hc
      subst hc
      exact hG.1 _ hx hsynced hsent hslug
  have hwaiting : ∀ l, waiting l = true → Requeued w.campaigns.list l := by
    intro l hl _ hsent
    simp [waiting, hsent] at hl
  obtain ⟨hkeeps, d, -, hsubmission, hrest⟩ := crmStep_rowSteps (fun _ _ _ => True)
    (Requeued w.campaigns.list) (ScoreKept w.campaigns.list) (fun _ _ => trivial) hwaiting hhand
    hG.2 h
  have hinvariant : ∀ {merges : Campaign → LeadCreateRequest → LeadRow → Prop} {s s'},
      ReflTransGen (CrmRowStep py w.campaigns.list merges (Requeued w.campaigns.list)
        (ScoreKept w.campaigns.list)) s s' →
      CrmCoherent w.campaigns.list s → CrmCoherent w.campaigns.list s' := by
    intro merges s s' hsteps hs
    induction hsteps with
    | refl => exact hs
    | tail _ hstep ih => exact crmCoherent_rowStep ih hstep
  rw [CrmWorld.Coherent, hkeeps]
  exact hinvariant hrest (hinvariant hsubmission hw)

/-- What a write of a score does. -/
theorem crmStep_scoring {act : CrmAct} {w w' : CrmWorld} {row : LeadRow} {result : ICPResult}
    (hscoring : scoring act w = some (row, result)) (h : crmStep py act w = some w') :
    ∃ t', w.leads.update row.1 (applyResult row.2 result) = some t' ∧ w' = { w with leads := t' } := by
  obtain ⟨t', hupdate, hwrite⟩ := writeScore_spec result (mem_of_scoring hscoring)
  refine ⟨t', hupdate, ?_⟩
  cases act with
  | scoreLead id r =>
      simp only [crmStep, hscoring, hwrite, Option.some.injEq] at h
      exact h.symm
  | scoreUnscored id r =>
      simp only [crmStep, hscoring, hwrite, Option.some.injEq] at h
      exact h.symm
  | _ => cases hscoring

/-- A step that misses a lead marked synced and sent leaves an upsert behind that carried the old
delivery status. -/
theorem delivers_of_coherent {act : CrmAct} {w w' : CrmWorld} {row : LeadRow} {campaign : Campaign}
    {a : Attempt} (h : crmStep py act w = some w') (hw : w.Coherent) (hw' : w'.Coherent)
    (hhand : handDelivery act w = some (row, campaign, a)) (hsynced : row.2.crmSyncStatus = .synced)
    (hsent : row.2.packDeliveryStatus = .sent) (hslug : campaign.slug = nog2026Slug) :
    Delivers w.transport row.2 campaign a := by
  by_contra hnot
  obtain ⟨hrow, hcampaign⟩ := handDelivery_spec hhand
  obtain ⟨t', hupdate, hcall⟩ := deliverPackTo_spec w.transport campaign a hrow
  obtain ⟨hunsent, hstatus, -⟩ := deliverPack_unsent hnot
  have hsame := sameLead_deliverPack w.transport row.2 campaign a
  rw [crmStep_handDelivery hhand h, hcall] at hw'
  have hrow' : (row.1, (deliverPack w.transport row.2 campaign a).1) ∈ t'.rows :=
    (Table.mem_of_update hupdate).2 (Or.inr ⟨rfl, row.2, hrow⟩)
  -- one upsert cannot have carried both values of the delivery status
  obtain ⟨p, hp, hold⟩ := hw row hrow hsynced campaign hcampaign
  obtain ⟨p', hp', hnew⟩ := hw' _ hrow' (hstatus.trans hsynced) campaign
    (by rw [hsame.campaignId]; exact hcampaign)
  have hpp : p = p' := Option.some.inj (hp.symm.trans hp')
  rw [← hpp, hold] at hnew
  have hcollateral := congrArg ContactPayload.cfCollateralSent hnew
  simp [ContactPayload.withoutStatus, buildContactPayload, hslug, hsent, hunsent] at hcollateral

/-- A step between two coherent worlds meets the condition. -/
theorem requeues_of_coherent {act : CrmAct} {w w' : CrmWorld} (h : crmStep py act w = some w')
    (hw : w.Coherent) (hw' : w'.Coherent) : Requeues act w := by
  constructor
  · rintro ⟨row, campaign, a⟩ hhand hsynced hsent hslug
    exact delivers_of_coherent h hw hw' hhand hsynced hsent hslug
  · rintro ⟨row, result⟩ hscoring hsynced hsome
    obtain ⟨campaign, hcampaign⟩ := Option.ne_none_iff_exists'.1 hsome
    have hrow := mem_of_scoring hscoring
    obtain ⟨t', hupdate, rfl⟩ := crmStep_scoring hscoring h
    have hrow' : (row.1, applyResult row.2 result) ∈ t'.rows :=
      (Table.mem_of_update hupdate).2 (Or.inr ⟨rfl, row.2, hrow⟩)
    obtain ⟨p, hp, hold⟩ := hw row hrow hsynced campaign hcampaign
    obtain ⟨p', hp', hnew⟩ := hw' _ hrow' hsynced campaign hcampaign
    have hpp : p = p' := Option.some.inj (hp.symm.trans hp')
    rw [← hpp, hold] at hnew
    exact congrArg ContactPayload.cfIcpScore hnew

/-- **When synced leads are up to date.** From any world in which they are, a run of captures,
deliveries, sweeps, resends, syncs, prospecting and writes of scores, with any outcomes, keeps every
lead that is marked synced up to date exactly when all its steps meet the condition. -/
theorem always_coherent_iff {acts : List CrmAct} {w₀ : CrmWorld} (hstart : w₀.Coherent) :
    Always (crmStep py) CrmWorld.Coherent acts w₀ ↔
      Guarded (crmStep py) Requeues acts w₀ := by
  obtain ⟨w, hrun⟩ := Option.isSome_iff_exists.1 (exec_isSome (crmStep_isSome py) acts w₀)
  have hback : ∀ act (s t : CrmWorld), crmStep py act s = some t → s.Coherent → t.Coherent →
      Requeues act s := fun _ _ _ h hs ht => requeues_of_coherent h hs ht
  have hforth : ∀ act (s t : CrmWorld), s.Coherent → Requeues act s → crmStep py act s = some t →
      t.Coherent := fun _ _ _ hs hG h => coherent_crmStep hs hG h
  exact ⟨guarded_of_always hback hrun, always_of_step hforth hstart⟩

/-! ## Ada's contact -/

/-- The stand with the CRM switched on. -/
def standCrm : CrmWorld where
  toPackWorld := standWorld
  globalSync := true
  upserts := []

/-- Ada asks for the prospectus, which reaches her. -/
def adaAsks : CrmAct := .pack (askFor ["Prospectus"]) trivial

/-- A sync of Ada's lead that goes through. -/
def adaSynced : CrmAct :=
  .syncLead 1 false ⟨.contact (some "7"), .error "", .error ""⟩ ⟨0, some 0⟩

/-- A resend of Ada's pack, with the outcome. -/
def adaResend (accepted : Bool) : CrmAct := .pack (.resend 1 1 ⟨accepted, ⟨0, some 0⟩⟩) trivial

/-- The script scores Ada's company. -/
def adaScored : CrmAct := .scoreUnscored 1 ⟨80, "Hot", "Fits."⟩

/-- After the sync, the contact of a lead whose pack is resent in vain still says that the collateral
was sent; that of a lead that is scored still has no score. -/
theorem synced_leads_go_stale :
    ¬ Always (crmStep asciiLower) CrmWorld.Coherent [adaAsks, adaSynced, adaResend false] standCrm ∧
    ¬ Always (crmStep asciiLower) CrmWorld.Coherent [adaAsks, adaSynced, adaScored] standCrm := by
  constructor
  · intro h
    obtain ⟨p, hp, hpayload⟩ := (h.last rfl) _ List.mem_cons_self rfl _ rfl
    obtain rfl := Option.some.inj hp
    exact absurd (congrArg ContactPayload.cfCollateralSent hpayload) (by decide)
  · intro h
    obtain ⟨p, hp, hpayload⟩ := (h.last rfl) _ List.mem_cons_self rfl _ rfl
    obtain rfl := Option.some.inj hp
    exact absurd (congrArg ContactPayload.cfIcpScore hpayload) (by decide)

/-- Scored before the sync and resent with success, Ada's contact stays up to date. -/
theorem always_coherent_ada :
    Always (crmStep asciiLower) CrmWorld.Coherent
      [adaAsks, adaScored, adaSynced, adaResend true, adaSynced] standCrm :=
  (always_coherent_iff (fun q hq => by cases hq)).2 (by decide)

end SalesTrades.Leads
