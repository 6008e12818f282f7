import SalesTrades.Library.Interleaving
import SalesTrades.Leads.Scoring

/-!
# Lead capture

`capture_lead_created` in two forms: `captureLeadCreated` is the call run on its own, in the order of
the source; `CapturePhase` and `captureStep` are the same call one database statement at a time, for
interleavings. The steps of a call after its dedup lookup, taken without interruption, end with what
`captureInCampaign` returns (`captureStep_alone`), and `captureInCampaign_spec` says what that is.
-/

set_option autoImplicit false

namespace SalesTrades.Leads

open SalesTrades.Library

/-- The domain errors of capture with their texts, and what else leaves it. -/
inductive CaptureError where
  | campaignNotFound (detail : String)
  | campaignInactive (detail : String)
  | python (e : PyError)

/-- `_derive_tags`: the tags of the configuration and of the selections, first occurrences only. -/
def deriveTags (campaign : Campaign) (payload : LeadCreateRequest) : List String :=
  let config := campaign.config
  let interestTags := (payload.interests.getD []).map fun interest =>
    ((config.tagMap.find? fun entry => entry.1 == interest).map Prod.snd).getD interest
  let tags := config.baseTags ++ interestTags ++
    (if (payload.requestedMaterials.getD []).isEmpty then []
      else [config.digitalPackTag.getD "Digital Pack"]) ++
    (if payload.inspectionRequested then [config.inspectionTag.getD "Private Inspection"] else []) ++
    (if payload.marketingOptIn then [config.newsletterTag.getD "Newsletter Opt-In"] else [])
  (tags.filter fun tag => tag != "").eraseDups

/-- The columns that `_apply_payload` sets from the payload. -/
def submittedBy (campaign : Campaign) (payload : LeadCreateRequest) : Submitted where
  firstName := payload.firstName
  lastName := payload.lastName
  phone := payload.phone.getD ""
  company := payload.company
  jobTitle := payload.jobTitle
  source := payload.source
  deviceId := payload.deviceId
  timing := payload.timing
  interests := payload.interests
  requestedMaterials := payload.requestedMaterials
  tags := some (deriveTags campaign payload)
  inspectionRequested := payload.inspectionRequested
  inspectionType := payload.inspectionType
  marketingOptIn := payload.marketingOptIn
  consentStatus := payload.consentStatus
  capturedAt := payload.capturedAt
  responses := .obj payload.responses

/-- `_apply_payload`. -/
def applyPayload (lead : Lead) (campaign : Campaign) (payload : LeadCreateRequest)
    (now : Datetime) : Lead :=
  { lead with
    toSubmitted := submittedBy campaign payload
    consentAt :=
      if payload.consentStatus ∧ lead.consentAt = none then some (payload.capturedAt.getD now)
      else lead.consentAt
    -- the delivery status is the caller's: a re-submit must not reset it
    crmSyncStatus := .pending
    crmError := none }

/-- `_recompute_score`. -/
def recomputeScore (py : LowerCase) (lead : Lead) (now : Datetime) : Lead :=
  { lead with
    engagementScore := engagementScore py lead now
    scoreComputedAt := some now }

/-- `_next_pack_status`. -/
def nextPackStatus (existing : Option Lead) (prevStatus : Option PackStatus)
    (prevMaterials : List String) (payload : LeadCreateRequest) : PackStatus :=
  let newMaterials := payload.requestedMaterials.getD []
  if newMaterials = [] then
    if existing.isSome ∧ prevStatus = some .sent then .sent else .notRequested
  else if existing.isSome ∧ prevStatus = some .sent ∧ ∀ m ∈ newMaterials, m ∈ prevMaterials then
    .sent
  else .pending

/-- `Lead(campaign_id=campaign_id, email=email)`. -/
def newLead (campaignId : Nat) (email : String) : Lead where
  firstName := ""
  lastName := ""
  phone := ""
  company := ""
  jobTitle := none
  source := "qr"
  deviceId := none
  timing := none
  interests := none
  requestedMaterials := none
  tags := none
  inspectionRequested := false
  inspectionType := none
  marketingOptIn := false
  consentStatus := false
  capturedAt := none
  responses := .obj []
  campaignId := campaignId
  email := email
  consentAt := none
  crmSyncStatus := .pending
  crmSyncedAt := none
  crmContactId := none
  crmError := none
  packDeliveryStatus := .notRequested
  packDeliveredAt := none
  packDeliveredMaterials := none
  packDeliveryError := none
  packOpenedAt := none
  packOpenedCount := 0
  packClickedMaterials := none
  engagementScore := 0
  scoreComputedAt := none
  icpScore := none
  icpTier := none
  icpRationale := none

/-- The instance a call is about to store: the payload over the row it loaded, or over a new one. The
handler of the unique violation does the same with the row it re-fetches. -/
def mergedLead (py : LowerCase) (campaign : Campaign) (payload : LeadCreateRequest) (now : Datetime)
    (existing : Option Lead) : Lead :=
  let prevStatus := existing.map Lead.packDeliveryStatus
  let prevMaterials := (existing.bind fun l => l.requestedMaterials).getD []
  let lead := existing.getD (newLead campaign.id (normaliseEmail py payload.email))
  let applied := applyPayload lead campaign payload now
  recomputeScore py
    { applied with
      packDeliveryStatus := nextPackStatus existing prevStatus prevMaterials payload
      packDeliveryError := none } now

variable {py : LowerCase} {campaign : Campaign} {payload : LeadCreateRequest} {now : Datetime}

@[simp]
theorem mergedLead_toSubmitted (existing : Option Lead) :
    (mergedLead py campaign payload now existing).toSubmitted = submittedBy campaign payload := rfl

/-- A merge keeps the campaign and the email of the row. -/
theorem mergedLead_key (py : LowerCase) (campaign : Campaign) (payload : LeadCreateRequest)
    (now : Datetime) (l : Lead) :
    (mergedLead py campaign payload now (some l)).campaignId = l.campaignId ∧
      (mergedLead py campaign payload now (some l)).email = l.email := ⟨rfl, rfl⟩

theorem mergedLead_key_new (py : LowerCase) (campaign : Campaign) (payload : LeadCreateRequest)
    (now : Datetime) :
    (mergedLead py campaign payload now none).campaignId = campaign.id ∧
      (mergedLead py campaign payload now none).email = normaliseEmail py payload.email := ⟨rfl, rfl⟩

/-- `capture_lead_created` after a dedup lookup that returned `existing`. -/
def captureInCampaign (py : LowerCase) (campaign : Campaign) (payload : LeadCreateRequest)
    (now : Datetime) (existing : Option LeadRow) (t : LeadTable) :
    LeadTable × Except PyError (LeadRow × Bool) :=
  match existing with
  | some existing =>
      match update t existing (mergedLead py campaign payload now (some existing.2)) with
      | .error e => (t, .error e)
      | .ok (row, t') => (t', .ok (row, false))
  | none =>
      match create t (mergedLead py campaign payload now none) with
      | .ok (row, t') => (t', .ok (row, true))
      | .error .integrityError =>
          match getByCampaignEmail t campaign.id (normaliseEmail py payload.email) with
          | none => (t, .error .integrityError)
          | some existing =>
              match update t existing (mergedLead py campaign payload now (some existing.2)) with
              | .error e => (t, .error e)
              | .ok (row, t') => (t', .ok (row, false))
      | .error e => (t, .error e)

/-- `capture_lead_created`. With `missed` the dedup lookup of the call ran before another request
committed its row, and found nothing. -/
def captureLeadCreated (py : LowerCase) (campaigns : List Campaign) (slug : String)
    (payload : LeadCreateRequest) (now : Datetime) (missed : Bool) (t : LeadTable) :
    LeadTable × Except CaptureError (LeadRow × Bool) :=
  match getBySlug campaigns slug with
  | none => (t, .error (.campaignNotFound s!"no campaign with slug {slug}"))
  | some campaign =>
      if campaign.status ≠ .active then
        (t, .error (.campaignInactive s!"campaign {slug} is not accepting leads"))
      else
        let existing := if missed then none
          else getByCampaignEmail t campaign.id (normaliseEmail py payload.email)
        match captureInCampaign py campaign payload now existing t with
        | (t', .error e) => (t', .error (.python e))
        | (t', .ok r) => (t', .ok r)

/-- The write of a call, whatever its dedup lookup returned: the row with the email gets the payload
merged into it, and without such a row a new one is inserted. -/
theorem captureInCampaign_spec (py : LowerCase) (campaign : Campaign) (payload : LeadCreateRequest)
    (now : Datetime) (t : LeadTable) {existing : Option LeadRow}
    (hexisting : existing = none ∨
      existing = getByCampaignEmail t campaign.id (normaliseEmail py payload.email)) :
    (∃ row t', getByCampaignEmail t campaign.id (normaliseEmail py payload.email) = some row ∧
      t.update row.1 (mergedLead py campaign payload now (some row.2)) = some t' ∧
      captureInCampaign py campaign payload now existing t =
        (t', .ok ((row.1, mergedLead py campaign payload now (some row.2)), false))) ∨
    ∃ t', getByCampaignEmail t campaign.id (normaliseEmail py payload.email) = none ∧
      t.insert (mergedLead py campaign payload now none) = some (t.nextId, t') ∧
      captureInCampaign py campaign payload now existing t =
        (t', .ok ((t.nextId, mergedLead py campaign payload now none), true)) := by
  obtain ⟨hcampaign, hemail⟩ := mergedLead_key_new py campaign payload now
  cases hfound : getByCampaignEmail t campaign.id (normaliseEmail py payload.email) with
  | some row =>
      left
      obtain ⟨hmem, -, -⟩ := getByCampaignEmail_eq_some hfound
      obtain ⟨hkeyc, hkeye⟩ := mergedLead_key py campaign payload now row.2
      obtain ⟨t', hupdate, htable⟩ := update_eq hmem hkeyc hkeye
      rw [Lead.write_current_loaded] at hupdate htable
      refine ⟨row, t', rfl, htable, ?_⟩
      rcases hexisting with rfl | rfl
      · rcases create_eq t (mergedLead py campaign payload now none) with ⟨hnone, -⟩ | ⟨-, hcreate⟩
        · rw [hcampaign, hemail, hfound] at hnone
          cases hnone
        · simp only [captureInCampaign, hcreate, hfound, hupdate]
      · simp only [hfound, captureInCampaign, hupdate]
  | none =>
      right
      have hnothing : existing = none := by
        rcases hexisting with h | h
        · exact h
        · rw [h, hfound]
      rcases create_eq t (mergedLead py campaign payload now none) with ⟨-, t', hcreate, hins⟩ |
        ⟨hsome, -⟩
      · refine ⟨t', rfl, hins, ?_⟩
        simp only [captureInCampaign, hnothing, hcreate]
      · rw [hcampaign, hemail, hfound] at hsome
        cases hsome

/-- The row a submission is merged into. -/
def mergeTarget (py : LowerCase) (campaigns : List Campaign) (slug : String)
    (payload : LeadCreateRequest) (t : LeadTable) : Option LeadRow :=
  (getBySlug campaigns slug).bind fun campaign =>
    if campaign.status ≠ .active then none
    else getByCampaignEmail t campaign.id (normaliseEmail py payload.email)

theorem mem_of_mergeTarget {campaigns : List Campaign} {slug : String} {t : LeadTable} {row : LeadRow}
    (h : mergeTarget py campaigns slug payload t = some row) : row ∈ t.rows := by
  obtain ⟨campaign, -, h⟩ := Option.bind_eq_some_iff.1 h
  split at h
  · cases h
  · exact (getByCampaignEmail_eq_some h).1

/-- A lookup that may have come too early returns what is there, or nothing. -/
theorem missedLookup_cases (missed : Bool) (found : Option LeadRow) :
    (if missed then none else found) = none ∨ (if missed then none else found) = found := by
  cases missed with
  | true => exact Or.inl rfl
  | false => exact Or.inr rfl

/-- What a capture does: it refuses the submission, merges it into the row that has its email, or
inserts it. -/
theorem captureLeadCreated_spec (py : LowerCase) (campaigns : List Campaign) (slug : String)
    (payload : LeadCreateRequest) (now : Datetime) (missed : Bool) (t : LeadTable) :
    (mergeTarget py campaigns slug payload t = none ∧
      ∃ e, captureLeadCreated py campaigns slug payload now missed t = (t, .error e)) ∨
    (∃ campaign row t', getBySlug campaigns slug = some campaign ∧
      getByCampaignEmail t campaign.id (normaliseEmail py payload.email) = some row ∧
      mergeTarget py campaigns slug payload t = some row ∧
      t.update row.1 (mergedLead py campaign payload now (some row.2)) = some t' ∧
      captureLeadCreated py campaigns slug payload now missed t =
        (t', .ok ((row.1, mergedLead py campaign payload now (some row.2)), false))) ∨
    ∃ campaign t', getBySlug campaigns slug = some campaign ∧
      mergeTarget py campaigns slug payload t = none ∧
      t.insert (mergedLead py campaign payload now none) = some (t.nextId, t') ∧
      captureLeadCreated py campaigns slug payload now missed t =
        (t', .ok ((t.nextId, mergedLead py campaign payload now none), true)) := by
  unfold captureLeadCreated mergeTarget
  cases getBySlug campaigns slug with
  | none => exact Or.inl ⟨rfl, _, rfl⟩
  | some campaign =>
      dsimp only [Option.bind_some]
      split
      · exact Or.inl ⟨rfl, _, rfl⟩
      · right
        rcases captureInCampaign_spec py campaign payload now t (missedLookup_cases missed _) with
          ⟨row, t', hfound, hupdate, hcall⟩ | ⟨t', hfound, hinsert, hcall⟩
        · rw [hcall]
          exact Or.inl ⟨campaign, row, t', rfl, hfound, hfound, hupdate, rfl⟩
        · rw [hcall]
          exact Or.inr ⟨campaign, t', rfl, hfound, hinsert, rfl⟩

/-- What a capture does to the table: it leaves it, merges the submission into a row, or inserts it. -/
theorem captureLeadCreated_cases (py : LowerCase) (campaigns : List Campaign) (slug : String)
    (payload : LeadCreateRequest) (now : Datetime) (missed : Bool) (t : LeadTable) :
    (mergeTarget py campaigns slug payload t = none ∧
      (captureLeadCreated py campaigns slug payload now missed t).1 = t) ∨
    (∃ campaign row, mergeTarget py campaigns slug payload t = some row ∧
      t.update row.1 (mergedLead py campaign payload now (some row.2)) =
        some (captureLeadCreated py campaigns slug payload now missed t).1) ∨
    ∃ campaign id, mergeTarget py campaigns slug payload t = none ∧
      t.insert (mergedLead py campaign payload now none) =
        some (id, (captureLeadCreated py campaigns slug payload now missed t).1) := by
  rcases captureLeadCreated_spec py campaigns slug payload now missed t with
    ⟨htarget, e, hcall⟩ | ⟨campaign, row, t', -, -, htarget, hupdate, hcall⟩ |
      ⟨campaign, t', -, htarget, hinsert, hcall⟩
  · exact Or.inl ⟨htarget, congrArg Prod.fst hcall⟩
  · rw [hcall]
    exact Or.inr (Or.inl ⟨campaign, row, htarget, hupdate⟩)
  · rw [hcall]
    exact Or.inr (Or.inr ⟨campaign, _, htarget, hinsert⟩)

/-! ## One statement at a time -/

/-- Where a call stands: before the dedup lookup, after it, after the unique violation, after the
rollback, after the second lookup, returned, or raised. -/
inductive CapturePhase where
  | start
  | selected (existing : Option LeadRow)
  | violated
  | rolledBack
  | reselected (existing : LeadRow)
  | returned (row : LeadRow) (created : Bool)
  | raised (e : PyError)

/-- A call with its payload. -/
structure CaptureCall where
  payload : LeadCreateRequest
  phase : CapturePhase

/-- The UPDATE of a row that was loaded as `existing`. -/
def mergeStep (py : LowerCase) (campaign : Campaign) (payload : LeadCreateRequest) (now : Datetime)
    (t : LeadTable) (existing : LeadRow) : LeadTable × CapturePhase :=
  match update t existing (mergedLead py campaign payload now (some existing.2)) with
  | .error e => (t, .raised e)
  | .ok (row, t') => (t', .returned row false)

/-- The next statement of a call; a call that has returned or raised takes none. -/
def capturePhaseStep (py : LowerCase) (campaign : Campaign) (payload : LeadCreateRequest)
    (now : Datetime) (t : LeadTable) : CapturePhase → Option (LeadTable × CapturePhase)
  | .start =>
      some (t, .selected (getByCampaignEmail t campaign.id (normaliseEmail py payload.email)))
  | .selected (some existing) => some (mergeStep py campaign payload now t existing)
  | .selected none =>
      match create t (mergedLead py campaign payload now none) with
      | .ok (row, t') => some (t', .returned row true)
      | .error .integrityError => some (t, .violated)
      | .error e => some (t, .raised e)
  | .violated => some (t, .rolledBack)
  | .rolledBack =>
      match getByCampaignEmail t campaign.id (normaliseEmail py payload.email) with
      | none => some (t, .raised .integrityError)
      | some existing => some (t, .reselected existing)
  | .reselected existing => some (mergeStep py campaign payload now t existing)
  | .returned _ _ => none
  | .raised _ => none

/-- `capturePhaseStep` on calls; a step reads the clock. -/
def captureStep (py : LowerCase) (campaign : Campaign) (now : Datetime) (t : LeadTable)
    (call : CaptureCall) : Option (LeadTable × CaptureCall) :=
  (capturePhaseStep py campaign call.payload now t call.phase).map fun r =>
    (r.1, { call with phase := r.2 })

/-- How a call ended. -/
def CapturePhase.result : CapturePhase → Option (Except PyError (LeadRow × Bool))
  | .returned row created => some (.ok (row, created))
  | .raised e => some (.error e)
  | _ => none

/-- The statements a call still has to run, at most. -/
def CapturePhase.rank : CapturePhase → Nat
  | .start => 5
  | .selected _ => 4
  | .violated => 3
  | .rolledBack => 2
  | .reselected _ => 1
  | .returned _ _ => 0
  | .raised _ => 0

theorem mergeStep_rank {t t' : LeadTable} {existing : LeadRow} {p : CapturePhase}
    (h : mergeStep py campaign payload now t existing = (t', p)) : p.rank = 0 := by
  unfold mergeStep at h
  split at h <;> cases h <;> rfl

/-- A call can take a step until it has ended. -/
theorem capturePhaseStep_isSome_iff {t : LeadTable} {p : CapturePhase} :
    (capturePhaseStep py campaign payload now t p).isSome = true ↔ p.result = none := by
  cases p with
  | start => simp [capturePhaseStep, CapturePhase.result]
  | selected existing =>
      cases existing with
      | none =>
          simp only [capturePhaseStep, CapturePhase.result]
          split <;> simp
      | some existing => simp [capturePhaseStep, CapturePhase.result]
  | violated => simp [capturePhaseStep, CapturePhase.result]
  | rolledBack =>
      simp only [capturePhaseStep, CapturePhase.result]
      split <;> simp
  | reselected existing => simp [capturePhaseStep, CapturePhase.result]
  | returned row created => simp [capturePhaseStep, CapturePhase.result]
  | raised e => simp [capturePhaseStep, CapturePhase.result]

/-- Every step brings the call nearer to its end. -/
theorem capturePhaseStep_rank {t t' : LeadTable} {p p' : CapturePhase}
    (h : capturePhaseStep py campaign payload now t p = some (t', p')) : p'.rank < p.rank := by
  cases p with
  | start =>
      simp only [capturePhaseStep, Option.some.injEq, Prod.mk.injEq] at h
      simp [← h.2, CapturePhase.rank]
  | selected existing =>
      cases existing with
      | none =>
          simp only [capturePhaseStep] at h
          split at h <;> simp only [Option.some.injEq, Prod.mk.injEq] at h <;>
            simp [← h.2, CapturePhase.rank]
      | some existing =>
          simp only [capturePhaseStep, Option.some.injEq] at h
          rw [mergeStep_rank h]
          exact Nat.zero_lt_succ _
  | violated =>
      simp only [capturePhaseStep, Option.some.injEq, Prod.mk.injEq] at h
      simp [← h.2, CapturePhase.rank]
  | rolledBack =>
      simp only [capturePhaseStep] at h
      split at h <;> simp only [Option.some.injEq, Prod.mk.injEq] at h <;>
        simp [← h.2, CapturePhase.rank]
  | reselected existing =>
      simp only [capturePhaseStep, Option.some.injEq] at h
      rw [mergeStep_rank h]
      exact Nat.zero_lt_succ _
  | returned row created => simp [capturePhaseStep] at h
  | raised e => simp [capturePhaseStep] at h

/-- Whatever the dedup lookup returned, the call is the steps that follow it, taken without
interruption. -/
theorem captureStep_alone (py : LowerCase) (campaign : Campaign) (payload : LeadCreateRequest)
    (now : Datetime) (t : LeadTable) {existing : Option LeadRow}
    (hexisting : existing = none ∨
      existing = getByCampaignEmail t campaign.id (normaliseEmail py payload.email)) :
    ∃ p, Interleaving.solo (capturePhaseStep py campaign payload now) 4 t (.selected existing) =
        ((captureInCampaign py campaign payload now existing t).1, p) ∧
      p.result = some (captureInCampaign py campaign payload now existing t).2 := by
  rcases captureInCampaign_spec py campaign payload now t hexisting with
    ⟨row, t', hfound, htable, hcall⟩ | ⟨t', hfound, hins, hcall⟩
  · obtain ⟨hmem, -, -⟩ := getByCampaignEmail_eq_some hfound
    obtain ⟨hkeyc, hkeye⟩ := mergedLead_key py campaign payload now row.2
    have hmerge : mergeStep py campaign payload now t row =
        (t', .returned (row.1, mergedLead py campaign payload now (some row.2)) false) := by
      obtain ⟨t₁, hupdate, htable₁⟩ := update_eq hmem hkeyc hkeye
      rw [Lead.write_current_loaded] at hupdate htable₁
      rw [htable, Option.some.injEq] at htable₁
      rw [mergeStep, hupdate, htable₁]
    rw [hcall]
    rcases hexisting with rfl | rfl
    · -- the INSERT is rejected, and the call merges into the row it fetches again
      rcases create_eq t (mergedLead py campaign payload now none) with ⟨hnone, -⟩ | ⟨-, hcreate⟩
      · obtain ⟨hcampaign, hemail⟩ := mergedLead_key_new py campaign payload now
        rw [hcampaign, hemail, hfound] at hnone
        cases hnone
      · simp only [Interleaving.solo, capturePhaseStep, hcreate, hfound, hmerge]
        exact ⟨_, rfl, rfl⟩
    · simp only [Interleaving.solo, hfound, capturePhaseStep, hmerge]
      exact ⟨_, rfl, rfl⟩
  · have hnothing : existing = none := by
      rcases hexisting with h | h
      · exact h
      · rw [h, hfound]
    have hcreate : create t (mergedLead py campaign payload now none) =
        .ok ((t.nextId, mergedLead py campaign payload now none), t') := by
      simp only [create, hins]
    rw [hcall, hnothing]
    simp only [Interleaving.solo, capturePhaseStep, hcreate]
    exact ⟨_, rfl, rfl⟩

end SalesTrades.Leads
