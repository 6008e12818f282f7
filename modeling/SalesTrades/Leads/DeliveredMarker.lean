import SalesTrades.Leads.CrmCoherence
import SalesTrades.Leads.SentMarker

/-!
# The sent marker is kept

What an email or an upsert has told about a lead stays true: after an operation that emailed documents
to a lead, or told the CRM that its collateral was sent, the lead is marked sent for as long as no
submission asks for a real material that has not been emailed to it, and the CRM is not told otherwise
(`never_forgets`). This holds in the runs in which every pack sent by hand to a lead marked sent
reaches it, and a submission that asks for nothing new is contained in the previous one.
-/

set_option autoImplicit false

namespace SalesTrades.Leads

open SalesTrades.Library SalesTrades.Library.Run Relation

/-- The lead with the id is marked sent. -/
def SentAt (id : Nat) (d : Delivery) : Prop :=
  ∃ l, (id, l) ∈ d.leads.rows ∧ l.packDeliveryStatus = .sent

instance (id : Nat) (d : Delivery) : Decidable (SentAt id d) :=
  decidable_of_iff (∃ q ∈ d.leads.rows, q.1 = id ∧ q.2.packDeliveryStatus = .sent)
    ⟨fun ⟨q, hq, hid, hsent⟩ => ⟨q.2, hid ▸ hq, hsent⟩,
      fun ⟨l, hl, hsent⟩ => ⟨(id, l), hl, rfl, hsent⟩⟩

/-- The request of a submission is contained in that of the row it meets. -/
def Contained (payload : LeadCreateRequest) (row : LeadRow) : Prop :=
  ∀ m ∈ payload.requestedMaterials.getD [], m ∈ row.2.requestedMaterials.getD []

/-- A submission asks the campaign for a real material that no email has brought to the row. -/
def AsksForNew (log : List Mail) (campaign : Campaign) (payload : LeadCreateRequest)
    (row : LeadRow) : Prop :=
  ∃ m ∈ payload.requestedMaterials.getD [], m ∈ campaign.config.materials ∧ m ∉ emailed log row.1

instance (payload : LeadCreateRequest) (row : LeadRow) : Decidable (Contained payload row) :=
  inferInstanceAs (Decidable (∀ m ∈ payload.requestedMaterials.getD [], _))

instance (log : List Mail) (campaign : Campaign) (payload : LeadCreateRequest) (row : LeadRow) :
    Decidable (AsksForNew log campaign payload row) :=
  inferInstanceAs (Decidable (∃ m ∈ payload.requestedMaterials.getD [], _))

/-- The operation is a submission of the lead that asks for something new. -/
def Asks (py : LowerCase) (id : Nat) (act : CrmAct) (w : CrmWorld) : Prop :=
  ∃ x ∈ merging py act w, x.2.2.1 = id ∧ AsksForNew w.log x.1 x.2.1 x.2.2

instance (py : LowerCase) (id : Nat) (act : CrmAct) (w : CrmWorld) : Decidable (Asks py id act w) :=
  inferInstanceAs (Decidable (∃ x ∈ merging py act w, _))

/-- The condition on a step: a pack sent by hand to a lead marked sent reaches it, and a submission
that asks a lead marked sent for nothing new is contained in its previous request. -/
def KeepsMarker (py : LowerCase) (act : CrmAct) (w : CrmWorld) : Prop :=
  (∀ x ∈ handDelivery act w, x.1.2.packDeliveryStatus = .sent →
    Delivers w.transport x.1.2 x.2.1 x.2.2) ∧
  ∀ x ∈ merging py act w, x.2.2.2.packDeliveryStatus = .sent →
    ¬ AsksForNew w.log x.1 x.2.1 x.2.2 → Contained x.2.1 x.2.2

instance (py : LowerCase) (act : CrmAct) (w : CrmWorld) : Decidable (KeepsMarker py act w) :=
  inferInstanceAs (Decidable (_ ∧ _))

/-- Between the two worlds documents were emailed to the lead, or the CRM was told so. -/
def Delivered (id : Nat) (w w' : CrmWorld) : Prop :=
  (∃ new, w'.log = new ++ w.log ∧ ∃ m ∈ new, m.id = id ∧ m.labels ≠ []) ∨
  ∃ new, w'.upserts = new ++ w.upserts ∧
    ∃ p accepted, Upsert.contact id p accepted ∈ new ∧ p.cfCollateralSent = some "Yes"

/-- Between the two worlds the CRM was not told that the lead has not been sent its collateral. -/
def NotDenied (id : Nat) (w w' : CrmWorld) : Prop :=
  ∃ new, w'.upserts = new ++ w.upserts ∧
    ∀ p accepted, Upsert.contact id p accepted ∈ new → p.cfCollateralSent ≠ some "No"

/-- What has been delivered is not forgotten: wherever in the run an operation delivers to a lead, the
lead is marked sent after it, and stays so while no submission asks for something new; until then the
CRM is not told otherwise. -/
def NeverForgets (py : LowerCase) (acts : List CrmAct) (w₀ : CrmWorld) : Prop :=
  ∀ before act after w w' w'' id, before ++ act :: after <+: acts →
    exec (crmStep py) before w₀ = some w → crmStep py act w = some w' →
    exec (crmStep py) after w' = some w'' → Delivered id w w' →
    Guarded (crmStep py) (fun act w => ¬ Asks py id act w) after w' →
    SentAt id w''.toDelivery ∧ NotDenied id w' w''

/-! ## Row steps -/

section RowSteps

variable {py : LowerCase} {campaigns : List Campaign}
  {merges : Campaign → LeadCreateRequest → LeadRow → Prop} {scores : Lead → ICPResult → Prop}
  {s s' : Delivery × List Upsert} {id : Nat}

/-- The lead is not a row that is not marked sent. -/
theorem SentAt.ne {d : Delivery} {row : LeadRow} (h : SentAt id d) (hrow : row ∈ d.leads.rows)
    (hnot : row.2.packDeliveryStatus ≠ .sent) : id ≠ row.1 := by
  rintro rfl
  obtain ⟨l, hl, hsent⟩ := h
  have hrows := d.leads.eq_of_id hl hrow rfl
  rw [← hrows] at hnot
  exact hnot hsent

/-- Writing a row keeps the marker of the lead when the row is another one, or is written as sent. -/
theorem sentAt_update {d : Delivery} {row : LeadRow} {l : Lead} {t' : LeadTable} {log : List Mail}
    (h : SentAt id d) (hupdate : d.leads.update row.1 l = some t')
    (hsent : id = row.1 → l.packDeliveryStatus = .sent) : SentAt id ⟨t', log⟩ := by
  obtain ⟨old, hold, hold'⟩ := h
  by_cases hid : id = row.1
  · refine ⟨l, (Table.mem_of_update hupdate).2 (Or.inr ⟨by rw [hid], old, ?_⟩), hsent hid⟩
    rw [← hid]
    exact hold
  · exact ⟨old, (Table.mem_of_update hupdate).2 (Or.inl ⟨hold, hid⟩), hold'⟩

theorem sentAt_written {d : Delivery} {row : LeadRow} {l : Lead} {t' : LeadTable} {log : List Mail}
    (hrow : row ∈ d.leads.rows) (hupdate : d.leads.update row.1 l = some t')
    (hsent : l.packDeliveryStatus = .sent) : SentAt row.1 ⟨t', log⟩ :=
  ⟨l, (Table.mem_of_update hupdate).2 (Or.inr ⟨rfl, row.2, hrow⟩), hsent⟩

theorem deliverViewing_sent {transport : Bool} {l : Lead} {campaign : Campaign} {a : Attempt}
    (h : l.packDeliveryStatus = .sent) :
    ((deliverViewing transport l campaign a).1.getD l).packDeliveryStatus = .sent := by
  rcases deliverViewing_cases transport l campaign a with ⟨hnone, -⟩ | ⟨docs, -, -, -, hnot⟩
  · rw [hnone]
    exact h
  · exact absurd h hnot

/-- **The marker of a lead survives a row step** that merges only contained submissions into it. -/
theorem sentAt_rowStep
    (hmerges : ∀ campaign payload row, merges campaign payload row → row.1 = id →
      row.2.packDeliveryStatus = .sent → Contained payload row)
    (hs : SentAt id s.1)
    (h : CrmRowStep py campaigns merges (fun l => l.packDeliveryStatus ≠ .sent) scores s s') :
    SentAt id s'.1 := by
  -- the row of the lead, when a step writes to it
  have hown : ∀ {d : Delivery} {row : LeadRow}, SentAt id d → row ∈ d.leads.rows → id = row.1 →
      row.2.packDeliveryStatus = .sent := by
    intro d row hd hrow hid
    by_contra hnot
    exact hd.ne hrow hnot hid
  cases h with
  | delivery hstep =>
      cases hstep with
      | created hcampaign hinsert =>
          obtain ⟨l, hl, hsent⟩ := hs
          exact ⟨l, (Table.mem_of_insert hinsert).2 (Or.inl hl), hsent⟩
      | merged hcampaign hsubmit hfound hupdate =>
          refine sentAt_update hs hupdate fun hid => ?_
          have hsent := hown hs (getByCampaignEmail_eq_some hfound).1 hid
          exact mergedLead_sent_iff.2 ⟨hsent, hmerges _ _ _ (hsubmit _ hfound) hid.symm hsent⟩
      | packed hcampaign hrow hpacks hupdate =>
          exact sentAt_update hs hupdate fun hid => absurd hid (hs.ne hrow hpacks)
      | viewed hcampaign hrow hupdate =>
          exact sentAt_update hs hupdate fun hid => deliverViewing_sent (hown hs hrow hid)
  | delivered hcampaign hrow hlabels hupdate =>
      exact sentAt_update hs hupdate fun _ => markSent_status _ _ _
  | synced hcampaign hrow hlead hupdate =>
      refine sentAt_update hs hupdate fun hid => ?_
      rw [(sameButCrm_syncLead hlead).packDeliveryStatus]
      exact hown hs hrow hid
  | raised hcampaign hrow => exact hs
  | scored hrow hscores hupdate => exact sentAt_update hs hupdate fun hid => hown hs hrow hid

/-- The emails of a row step that carried documents went to leads that it leaves marked sent. -/
theorem mails_rowStep
    (h : CrmRowStep py campaigns merges (fun l => l.packDeliveryStatus ≠ .sent) scores s s') :
    ∃ new, s'.1.log = new ++ s.1.log ∧ ∀ m ∈ new, m.labels ≠ [] → SentAt m.id s'.1 := by
  cases h with
  | delivery hstep =>
      cases hstep with
      | created hcampaign hinsert => exact ⟨[], rfl, by simp⟩
      | merged hcampaign hsubmit hfound hupdate => exact ⟨[], rfl, by simp⟩
      | @packed transport campaign row a t' hcampaign hrow hpacks hupdate =>
          refine ⟨packMail transport campaign row a, rfl, fun m hm _ => ?_⟩
          rw [packMail_eq] at hm
          split at hm
          · rename_i hdelivers
            rw [List.mem_singleton] at hm
            subst hm
            refine sentAt_written hrow hupdate ?_
            rw [deliverPack_delivers ⟨hdelivers.2.1, hdelivers.1, hdelivers.2.2⟩]
            exact markSent_status _ _ _
          · cases hm
      | @viewed transport campaign row a t' hcampaign hrow hupdate =>
          refine ⟨viewingMail transport campaign row a, rfl, fun m hm hlabels => ?_⟩
          simp only [viewingMail, Option.mem_toList, Option.map_eq_some_iff] at hm
          obtain ⟨labels, hmail, rfl⟩ := hm
          refine sentAt_written hrow hupdate ?_
          rcases deliverViewing_cases transport row.2 campaign a with ⟨hnone, hwas⟩ |
            ⟨docs, -, hmarked, -⟩
          · rw [hnone]
            exact (hwas labels hmail).resolve_left hlabels
          · rw [hmarked]
            exact markSent_status _ _ _
  | delivered hcampaign hrow hlabels hupdate =>
      refine ⟨[_], rfl, fun m hm _ => ?_⟩
      rw [List.mem_singleton] at hm
      subst hm
      exact sentAt_written hrow hupdate (markSent_status _ _ _)
  | synced hcampaign hrow hlead hupdate => exact ⟨[], rfl, by simp⟩
  | raised hcampaign hrow => exact ⟨[], rfl, by simp⟩
  | scored hrow hscores hupdate => exact ⟨[], rfl, by simp⟩

/-- What a sync tells the CRM about the collateral of a lead is what its marker says. -/
theorem collateral_syncLead {globalSync force : Bool} {campaign : Campaign} {row : LeadRow}
    {answers : CrmAnswers} {now : Datetime} {i : Nat} {p : ContactPayload} {accepted : Bool}
    (h : Upsert.contact i p accepted ∈ (syncLead globalSync force campaign row answers now).2) :
    i = row.1 ∧ (p.cfCollateralSent = some "Yes" → row.2.packDeliveryStatus = .sent) ∧
      (p.cfCollateralSent = some "No" → row.2.packDeliveryStatus ≠ .sent) := by
  rcases syncLead_upserts h with ⟨p', accepted', heq, hpayload⟩ | ⟨p', accepted', heq⟩
  · rw [Upsert.contact.injEq] at heq
    obtain ⟨hid, rfl, -⟩ := heq
    have hcollateral := congrArg ContactPayload.cfCollateralSent hpayload
    simp only [ContactPayload.withoutStatus, buildContactPayload] at hcollateral
    refine ⟨hid, fun hyes => ?_, fun hno hsent => ?_⟩
    · rw [hyes] at hcollateral
      by_contra hnot
      simp [hnot] at hcollateral
    · rw [hno] at hcollateral
      simp [hsent] at hcollateral
  · cases heq

/-- What a row step tells the CRM about the collateral of the leads is what their markers say. -/
theorem upserts_rowStep {packs : Lead → Prop}
    (h : CrmRowStep py campaigns merges packs scores s s') :
    ∃ new, s'.2 = new ++ s.2 ∧ ∀ i p accepted, Upsert.contact i p accepted ∈ new →
      (p.cfCollateralSent = some "Yes" → SentAt i s'.1) ∧
      (p.cfCollateralSent = some "No" → ¬ SentAt i s.1) := by
  have hsynced : ∀ {d : Delivery} {globalSync force : Bool} {campaign : Campaign} {row : LeadRow}
      {answers : CrmAnswers} {now : Datetime} {i : Nat} {p : ContactPayload} {accepted : Bool},
      row ∈ d.leads.rows →
      Upsert.contact i p accepted ∈ (syncLead globalSync force campaign row answers now).2 →
      i = row.1 ∧ (p.cfCollateralSent = some "Yes" → row.2.packDeliveryStatus = .sent) ∧
        (p.cfCollateralSent = some "No" → ¬ SentAt i d) := by
    intro d globalSync force campaign row answers now i p accepted hrow hmem
    obtain ⟨hid, hyes, hno⟩ := collateral_syncLead hmem
    exact ⟨hid, hyes, fun h hsent => hsent.ne hrow (hno h) hid⟩
  cases h with
  | delivery hstep => exact ⟨[], rfl, by simp⟩
  | delivered hcampaign hrow hlabels hupdate => exact ⟨[], rfl, by simp⟩
  | synced hcampaign hrow hlead hupdate =>
      refine ⟨_, rfl, fun i p accepted hmem => ?_⟩
      obtain ⟨rfl, hyes, hno⟩ := hsynced hrow hmem
      refine ⟨fun h => sentAt_written hrow hupdate ?_, hno⟩
      rw [(sameButCrm_syncLead hlead).packDeliveryStatus]
      exact hyes h
  | @raised d log campaign row _ _ _ _ hcampaign hrow =>
      refine ⟨_, rfl, fun i p accepted hmem => ?_⟩
      obtain ⟨rfl, hyes, hno⟩ := hsynced hrow hmem
      exact ⟨fun h => ⟨row.2, hrow, hyes h⟩, hno⟩
  | scored hrow hscores hupdate => exact ⟨[], rfl, by simp⟩

end RowSteps

/-! ## Runs -/

section Runs

variable {py : LowerCase} {act : CrmAct} {w w' w'' : CrmWorld} {id : Nat}

/-- The row steps of an operation that meets the condition. -/
theorem markerSteps (merges : Campaign → LeadCreateRequest → LeadRow → Prop)
    (hG : KeepsMarker py act w)
    (hmerges : ∀ x, merging py act w = some x → merges x.1 x.2.1 x.2.2)
    (h : crmStep py act w = some w') :
    ∃ d, d.log = w.log ∧
      ReflTransGen (CrmRowStep py w.campaigns.list merges (fun l => l.packDeliveryStatus ≠ .sent)
        fun _ _ => True) w.state (d, w.upserts) ∧
      ReflTransGen (CrmRowStep py w.campaigns.list (fun _ _ _ => False)
        (fun l => l.packDeliveryStatus ≠ .sent) fun _ _ => True) (d, w.upserts) w'.state := by
  refine (crmStep_rowSteps merges (fun l => l.packDeliveryStatus ≠ .sent) (fun _ _ => True) hmerges
    ?_ ?_ (fun _ _ => trivial) h).2
  · intro l hl hsent
    simp [waiting, hsent] at hl
  · intro x hx
    by_cases hsent : x.1.2.packDeliveryStatus = .sent
    · exact Or.inr (hG.1 x hx hsent)
    · exact Or.inl hsent

/-- An operation that delivers to a lead leaves it marked sent. -/
theorem sentAt_of_delivered (hG : KeepsMarker py act w) (h : crmStep py act w = some w')
    (hdelivered : Delivered id w w') : SentAt id w'.toDelivery := by
  obtain ⟨d, hlog, -, hrest⟩ := markerSteps (fun _ _ _ => True) hG (fun _ _ => trivial) h
  -- the submission of the operation comes first, and logs nothing
  have hall : ∀ s, ReflTransGen (CrmRowStep py w.campaigns.list (fun _ _ _ => False)
      (fun l => l.packDeliveryStatus ≠ .sent) fun _ _ => True) (d, w.upserts) s →
      (∃ new, s.1.log = new ++ w.log ∧ ∀ m ∈ new, m.labels ≠ [] → SentAt m.id s.1) ∧
      ∃ new, s.2 = new ++ w.upserts ∧ ∀ i p accepted, Upsert.contact i p accepted ∈ new →
        p.cfCollateralSent = some "Yes" → SentAt i s.1 := by
    intro s hs
    induction hs with
    | refl => exact ⟨⟨[], hlog, by simp⟩, [], rfl, by simp⟩
    | @tail s s' _ hstep ih =>
        obtain ⟨⟨mails, hmails, hsent⟩, upserts, hupserts, hyes⟩ := ih
        obtain ⟨mails', hmails', hsent'⟩ := mails_rowStep hstep
        obtain ⟨upserts', hupserts', hyes'⟩ := upserts_rowStep hstep
        have hkeep : ∀ i, SentAt i s.1 → SentAt i s'.1 :=
          fun i hi => sentAt_rowStep (fun _ _ _ hfalse => hfalse.elim) hi hstep
        refine ⟨⟨mails' ++ mails, by rw [hmails', hmails, List.append_assoc], ?_⟩,
          upserts' ++ upserts, by rw [hupserts', hupserts, List.append_assoc], ?_⟩
        · intro m hm hlabels
          rcases List.mem_append.1 hm with hm | hm
          · exact hsent' m hm hlabels
          · exact hkeep _ (hsent m hm hlabels)
        · intro i p accepted hmem hcollateral
          rcases List.mem_append.1 hmem with hmem | hmem
          · exact (hyes' i p accepted hmem).1 hcollateral
          · exact hkeep _ (hyes i p accepted hmem hcollateral)
  obtain ⟨⟨mails, hmails, hsent⟩, upserts, hupserts, hyes⟩ := hall _ hrest
  rcases hdelivered with ⟨new, hnew, m, hm, rfl, hlabels⟩ | ⟨new, hnew, p, accepted, hmem, hp⟩
  · have heq : new = mails := List.append_cancel_right (hnew.symm.trans hmails)
    exact hsent m (heq ▸ hm) hlabels
  · have heq : new = upserts := List.append_cancel_right (hnew.symm.trans hupserts)
    exact hyes _ p accepted (heq ▸ hmem) hp

theorem NotDenied.trans (h : NotDenied id w w') (h' : NotDenied id w' w'') : NotDenied id w w'' := by
  obtain ⟨new, hnew, hno⟩ := h
  obtain ⟨new', hnew', hno'⟩ := h'
  refine ⟨new' ++ new, by rw [hnew', hnew, List.append_assoc], fun p accepted hmem => ?_⟩
  rcases List.mem_append.1 hmem with hmem | hmem
  · exact hno' p accepted hmem
  · exact hno p accepted hmem

/-- An operation that asks for nothing new keeps the marker of a lead, and does not deny it. -/
theorem sentAt_crmStep (hsent : SentAt id w.toDelivery) (hG : KeepsMarker py act w)
    (hasks : ¬ Asks py id act w) (h : crmStep py act w = some w') :
    SentAt id w'.toDelivery ∧ NotDenied id w w' := by
  have hcontained : ∀ x, merging py act w = some x → x.2.2.1 = id →
      x.2.2.2.packDeliveryStatus = .sent → Contained x.2.1 x.2.2 :=
    fun x hx hid hx' => hG.2 x hx hx' fun hnew => hasks ⟨x, hx, hid, hnew⟩
  obtain ⟨d, -, hsubmission, hrest⟩ := markerSteps
    (fun _ payload row => row.1 = id → row.2.packDeliveryStatus = .sent → Contained payload row)
    hG hcontained h
  have hall : ∀ {merges : Campaign → LeadCreateRequest → LeadRow → Prop} {s s'},
      (∀ campaign payload row, merges campaign payload row → row.1 = id →
        row.2.packDeliveryStatus = .sent → Contained payload row) →
      ReflTransGen (CrmRowStep py w.campaigns.list merges
        (fun l => l.packDeliveryStatus ≠ .sent) fun _ _ => True) s s' →
      (SentAt id s.1 ∧ ∃ new, s.2 = new ++ w.upserts ∧ ∀ p accepted,
        Upsert.contact id p accepted ∈ new → p.cfCollateralSent ≠ some "No") →
      SentAt id s'.1 ∧ ∃ new, s'.2 = new ++ w.upserts ∧ ∀ p accepted,
        Upsert.contact id p accepted ∈ new → p.cfCollateralSent ≠ some "No" := by
    intro merges s s' hmerges hsteps hs
    induction hsteps with
    | refl => exact hs
    | tail _ hstep ih =>
        obtain ⟨hsent, upserts, hupserts, hno⟩ := ih
        obtain ⟨upserts', hupserts', hcollateral⟩ := upserts_rowStep hstep
        refine ⟨sentAt_rowStep hmerges hsent hstep, upserts' ++ upserts,
          by rw [hupserts', hupserts, List.append_assoc], fun p accepted hmem => ?_⟩
        rcases List.mem_append.1 hmem with hmem | hmem
        · exact fun h => (hcollateral id p accepted hmem).2 h hsent
        · exact hno p accepted hmem
  have hmiddle := hall (fun _ _ _ hm => hm) hsubmission ⟨hsent, [], rfl, by simp⟩
  exact hall (fun _ _ _ hfalse => hfalse.elim) hrest hmiddle

/-- **Delivered is not forgotten** in the runs whose steps all meet the condition. -/
theorem never_forgets {acts : List CrmAct} {w₀ : CrmWorld}
    (hG : Guarded (crmStep py) (KeepsMarker py) acts w₀) : NeverForgets py acts w₀ := by
  intro before act after w w' w'' id hprefix hbefore hact hafter hdelivered hasks
  obtain ⟨rest, rfl⟩ := hprefix
  rw [List.append_assoc, guarded_append] at hG
  obtain ⟨hGact, hGrest⟩ := hG.2 w hbefore
  have hGafter := (guarded_append.1 (hGrest w' hact)).1
  have halways : Always (crmStep py) (fun v => SentAt id v.toDelivery ∧ NotDenied id w' v) after
      w' := by
    refine always_of_step (fun act v v' hv hguard hstep => ?_)
      ⟨sentAt_of_delivered hGact hact hdelivered, [], rfl, by simp⟩ (hGafter.and hasks)
    obtain ⟨hsent, hno⟩ := sentAt_crmStep hv.1 hguard.1 hguard.2 hstep
    exact ⟨hsent, hv.2.trans hno⟩
  exact halways.last hafter

end Runs

/-! ## Ada's pack -/

/-- Ada's pack has reached her. A resend that is rejected, a resend without the key, and a submission
that asks for the newsletter only, all forget it; the next sync tells the CRM so. -/
theorem delivered_forgotten :
    ¬ NeverForgets asciiLower [adaAsks, adaResend false, adaSynced] standCrm ∧
    ¬ NeverForgets asciiLower [adaAsks, .pack (.setTransport false) trivial, adaResend true]
      standCrm ∧
    ¬ NeverForgets asciiLower [adaAsks, .pack (askFor ["Newsletter"]) trivial] standCrm := by
  refine ⟨fun h => ?_, fun h => ?_, fun h => ?_⟩
  · obtain ⟨-, new, hnew, hno⟩ := h [] adaAsks [adaResend false, adaSynced] _ _ _ 1 List.prefix_rfl
      rfl rfl rfl (Or.inl ⟨_, rfl, _, List.mem_cons_self, rfl, by decide⟩) (by decide)
    have hpushed : new = [_] := (List.append_nil new).symm.trans (hnew.symm.trans rfl)
    exact hno _ true (hpushed ▸ List.mem_cons_self) rfl
  · obtain ⟨hsent, -⟩ := h [] adaAsks [.pack (.setTransport false) trivial, adaResend true] _ _ _ 1
      List.prefix_rfl rfl rfl rfl (Or.inl ⟨_, rfl, _, List.mem_cons_self, rfl, by decide⟩) (by decide)
    exact absurd hsent (by decide)
  · obtain ⟨hsent, -⟩ := h [] adaAsks [.pack (askFor ["Newsletter"]) trivial] _ _ _ 1
      List.prefix_rfl rfl rfl rfl (Or.inl ⟨_, rfl, _, List.mem_cons_self, rfl, by decide⟩) (by decide)
    exact absurd hsent (by decide)

/-- A repeated request, a sync and a resend that is accepted: nothing is forgotten. -/
theorem never_forgets_ada : NeverForgets asciiLower
    [adaAsks, adaSynced, adaAsks, adaResend true, adaSynced] standCrm :=
  never_forgets (by decide)

end SalesTrades.Leads
