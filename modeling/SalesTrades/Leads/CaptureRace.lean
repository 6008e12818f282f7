import SalesTrades.Library.Run
import SalesTrades.Leads.Capture

/-!
# Concurrent captures of one lead

Any number of `capture_lead_created` calls with one campaign and email, each with a payload of its
own, interleaved one statement at a time. In every run no call raises and, when all have returned,
the campaign has one row with the email and one call reports a creation if there was none before. The
submitted columns of that row come from a single payload in runs whose UPDATEs are whole: none of
them leaves out a column that has changed since the call loaded the row (`captures_dedup`). An UPDATE
that is not whole mixes two payloads (`capture_race_mixes`).
-/

set_option autoImplicit false

namespace SalesTrades.Leads

open SalesTrades.Library SalesTrades.Library.Run SalesTrades.Library.Interleaving

universe u

variable {ι : Type u} {py : LowerCase} {campaign : Campaign} {payload : LeadCreateRequest}
  {now : Datetime} {email : String}

/-- The condition on a step: an UPDATE leaves no column unwritten that has changed since the row was
loaded. -/
def WholeUpdate (campaign : Campaign) (t : LeadTable) (payload : LeadCreateRequest) :
    CapturePhase → Prop
  | .selected (some existing) | .reselected existing =>
      ∀ q ∈ t.rows, q.1 = existing.1 → ∀ c : SubmittedColumn,
        (submittedBy campaign payload).column c = existing.2.column c →
          q.2.column c = existing.2.column c
  | _ => True

instance (campaign : Campaign) (t : LeadTable) (payload : LeadCreateRequest) :
    ∀ phase, Decidable (WholeUpdate campaign t payload phase)
  | .selected (some existing) | .reselected existing => inferInstanceAs (Decidable
      (∀ q ∈ t.rows, q.1 = existing.1 → ∀ c : SubmittedColumn,
        (submittedBy campaign payload).column c = existing.2.column c →
          q.2.column c = existing.2.column c))
  | .start | .selected none | .violated | .rolledBack | .returned _ _ | .raised _ => isTrue trivial

/-- The condition on an event of a run. -/
def WholeEvent (campaign : Campaign) (e : ι × Datetime) (c : Config ι LeadTable CaptureCall) :
    Prop :=
  WholeUpdate campaign c.shared (c.proc e.1).payload (c.proc e.1).phase

instance (campaign : Campaign) (e : ι × Datetime) (c : Config ι LeadTable CaptureCall) :
    Decidable (WholeEvent campaign e c) :=
  inferInstanceAs
    (Decidable (WholeUpdate campaign c.shared (c.proc e.1).payload (c.proc e.1).phase))

/-! ## One step of a call -/

/-- The phases of a call while the campaign has no row with the email. -/
def Early : CapturePhase → Prop
  | .start => True
  | .selected found => found = none
  | _ => False

theorem Early.result_eq_none {phase : CapturePhase} (h : Early phase) : phase.result = none := by
  cases phase with
  | start => rfl
  | selected found => rfl
  | _ => exact h.elim

/-- The phases of a call once the row `id` has the email: `wrote` says whether this call made it. -/
def Knows (campaign : Campaign) (email : String) (id : Nat) (wrote : Prop) : CapturePhase → Prop
  | .start | .selected none | .violated | .rolledBack => ¬ wrote
  | .selected (some r) | .reselected r =>
      ¬ wrote ∧ r.1 = id ∧ r.2.campaignId = campaign.id ∧ r.2.email = email
  | .returned _ created => created = true ↔ wrote
  | .raised _ => False

/-- The UPDATE of a call always succeeds, and keeps campaign and email of the row. -/
theorem mergeStep_eq (py : LowerCase) (payload : LeadCreateRequest) (now : Datetime)
    {t : LeadTable} {row existing : LeadRow}
    (hlookup : getByCampaignEmail t campaign.id email = some row) (hid : existing.1 = row.1) :
    ∃ t', mergeStep py campaign payload now t existing =
        (t', .returned (row.1, existing.2.write
          (mergedLead py campaign payload now (some existing.2)) row.2) false) ∧
      getByCampaignEmail t' campaign.id email = some (row.1, existing.2.write
        (mergedLead py campaign payload now (some existing.2)) row.2) := by
  obtain ⟨hmem, hcampaign, hemail⟩ := getByCampaignEmail_eq_some hlookup
  obtain ⟨hkeyc, hkeye⟩ := mergedLead_key py campaign payload now existing.2
  have hrow : (existing.1, row.2) ∈ t.rows := by
    rw [hid]
    exact hmem
  obtain ⟨t', hupdate, htable⟩ := update_eq hrow hkeyc hkeye
  refine ⟨t', ?_, ?_⟩
  · rw [mergeStep, hupdate, hid]
  · rw [hid] at htable
    refine getByCampaignEmail_of_mem ((Table.mem_of_update htable).2 (Or.inr ⟨rfl, row.2, hmem⟩))
      ?_ ?_
    · simpa [Lead.write, hkeyc] using hcampaign
    · simpa [Lead.write, hkeye] using hemail

/-- While the campaign has no row with the email, a call looks up or inserts. -/
theorem early_step {t t' : LeadTable} {phase phase' : CapturePhase}
    (hpayload : normaliseEmail py payload.email = email)
    (hlookup : getByCampaignEmail t campaign.id email = none) (hphase : Early phase)
    (h : capturePhaseStep py campaign payload now t phase = some (t', phase')) :
    (t' = t ∧ Early phase') ∨ ∃ row, getByCampaignEmail t' campaign.id email = some row ∧
      row.2.toSubmitted = submittedBy campaign payload ∧ phase' = .returned row true := by
  cases phase with
  | start =>
      simp only [capturePhaseStep, hpayload, Option.some.injEq, Prod.mk.injEq] at h
      obtain ⟨rfl, rfl⟩ := h
      exact Or.inl ⟨rfl, hlookup⟩
  | selected found =>
      obtain rfl : found = none := hphase
      have hkey := mergedLead_key_new py campaign payload now
      rw [hpayload] at hkey
      rcases create_eq t (mergedLead py campaign payload now none) with
        ⟨-, t₁, hcreate, hins⟩ | ⟨hsome, -⟩
      · simp only [capturePhaseStep, hcreate, Option.some.injEq, Prod.mk.injEq] at h
        obtain ⟨rfl, rfl⟩ := h
        refine Or.inr ⟨_, ?_, mergedLead_toSubmitted none, rfl⟩
        exact getByCampaignEmail_of_mem ((Table.mem_of_insert hins).2 (Or.inr rfl)) hkey.1 hkey.2
      · rw [hkey.1, hkey.2, hlookup] at hsome
        cases hsome
  | violated => exact hphase.elim
  | rolledBack => exact hphase.elim
  | reselected existing => exact hphase.elim
  | returned row created => exact hphase.elim
  | raised e => exact hphase.elim

/-- Once the row is there a call never raises, and its step looks something up or is the UPDATE of a
row it has loaded, with which it returns. -/
theorem knows_step_cases {t t' : LeadTable} {row : LeadRow} {wrote : Prop}
    {phase phase' : CapturePhase} (hpayload : normaliseEmail py payload.email = email)
    (hlookup : getByCampaignEmail t campaign.id email = some row)
    (hphase : Knows campaign email row.1 wrote phase)
    (h : capturePhaseStep py campaign payload now t phase = some (t', phase')) :
    Knows campaign email row.1 wrote phase' ∧
      ((t' = t ∧ phase'.result = none) ∨
        ∃ existing lead, (phase = .selected (some existing) ∨ phase = .reselected existing) ∧
          existing.1 = row.1 ∧
          lead = existing.2.write (mergedLead py campaign payload now (some existing.2)) row.2 ∧
          getByCampaignEmail t' campaign.id email = some (row.1, lead) ∧
          phase' = .returned (row.1, lead) false) := by
  have hmerge : ∀ existing : LeadRow, ¬ wrote → existing.1 = row.1 →
      mergeStep py campaign payload now t existing = (t', phase') →
      Knows campaign email row.1 wrote phase' ∧
        ∃ lead, lead = existing.2.write (mergedLead py campaign payload now (some existing.2)) row.2 ∧
          getByCampaignEmail t' campaign.id email = some (row.1, lead) ∧
          phase' = .returned (row.1, lead) false := by
    intro existing hwrote hid hstep
    obtain ⟨t₁, hstep', hlookup'⟩ := mergeStep_eq py payload now hlookup hid
    rw [hstep', Prod.mk.injEq] at hstep
    obtain ⟨rfl, rfl⟩ := hstep
    exact ⟨by simp [Knows, hwrote], _, rfl, hlookup', rfl⟩
  cases phase with
  | start =>
      simp only [capturePhaseStep, hpayload, hlookup, Option.some.injEq, Prod.mk.injEq] at h
      obtain ⟨rfl, rfl⟩ := h
      obtain ⟨-, hcampaign, hemail⟩ := getByCampaignEmail_eq_some hlookup
      exact ⟨⟨hphase, rfl, hcampaign, hemail⟩, Or.inl ⟨rfl, rfl⟩⟩
  | selected found =>
      cases found with
      | none =>
          have hkey := mergedLead_key_new py campaign payload now
          rw [hpayload] at hkey
          rcases create_eq t (mergedLead py campaign payload now none) with ⟨hnone, -⟩ | ⟨-, hcreate⟩
          · rw [hkey.1, hkey.2, hlookup] at hnone
            cases hnone
          · simp only [capturePhaseStep, hcreate, Option.some.injEq, Prod.mk.injEq] at h
            obtain ⟨rfl, rfl⟩ := h
            exact ⟨hphase, Or.inl ⟨rfl, rfl⟩⟩
      | some existing =>
          obtain ⟨hwrote, hid, -⟩ := hphase
          simp only [capturePhaseStep, Option.some.injEq] at h
          obtain ⟨hknows, lead, hlead, hlookup', hphase'⟩ := hmerge existing hwrote hid h
          exact ⟨hknows, Or.inr ⟨existing, lead, Or.inl rfl, hid, hlead, hlookup', hphase'⟩⟩
  | violated =>
      simp only [capturePhaseStep, Option.some.injEq, Prod.mk.injEq] at h
      obtain ⟨rfl, rfl⟩ := h
      exact ⟨hphase, Or.inl ⟨rfl, rfl⟩⟩
  | rolledBack =>
      simp only [capturePhaseStep, hpayload, hlookup, Option.some.injEq, Prod.mk.injEq] at h
      obtain ⟨rfl, rfl⟩ := h
      obtain ⟨-, hcampaign, hemail⟩ := getByCampaignEmail_eq_some hlookup
      exact ⟨⟨hphase, rfl, hcampaign, hemail⟩, Or.inl ⟨rfl, rfl⟩⟩
  | reselected existing =>
      obtain ⟨hwrote, hid, -⟩ := hphase
      simp only [capturePhaseStep, Option.some.injEq] at h
      obtain ⟨hknows, lead, hlead, hlookup', hphase'⟩ := hmerge existing hwrote hid h
      exact ⟨hknows, Or.inr ⟨existing, lead, Or.inr rfl, hid, hlead, hlookup', hphase'⟩⟩
  | returned row created => simp [capturePhaseStep] at h
  | raised e => simp [capturePhaseStep] at h

/-- Once the row is there a call changes it only by an UPDATE with which it returns; a whole UPDATE
leaves its own submission. -/
theorem knows_step {t t' : LeadTable} {row : LeadRow} {wrote : Prop} {phase phase' : CapturePhase}
    (hpayload : normaliseEmail py payload.email = email)
    (hlookup : getByCampaignEmail t campaign.id email = some row)
    (hphase : Knows campaign email row.1 wrote phase)
    (h : capturePhaseStep py campaign payload now t phase = some (t', phase')) :
    ∃ row', getByCampaignEmail t' campaign.id email = some row' ∧ row'.1 = row.1 ∧
      Knows campaign email row.1 wrote phase' ∧
      ((row' = row ∧ phase'.result = none) ∨
        (WholeUpdate campaign t payload phase →
          row'.2.toSubmitted = submittedBy campaign payload)) := by
  obtain ⟨hknows, ⟨rfl, hresult⟩ | ⟨existing, lead, hexisting, hid, hlead, hlookup', -⟩⟩ :=
    knows_step_cases hpayload hlookup hphase h
  · exact ⟨row, hlookup, rfl, hknows, Or.inl ⟨rfl, hresult⟩⟩
  · refine ⟨_, hlookup', rfl, hknows, Or.inr fun hwhole => ?_⟩
    have hcolumns : WholeUpdate campaign t payload (.reselected existing) := by
      rcases hexisting with rfl | rfl
      · exact hwhole
      · exact hwhole
    rw [hlead]
    exact Submitted.write_eq_new_iff.2
      (hcolumns row (getByCampaignEmail_eq_some hlookup).1 hid.symm)

/-! ## Runs -/

/-- The state of a run whose calls have the payloads `payloads`, when `existed` says whether the
campaign had a row with the email at the start. -/
structure Progress (campaign : Campaign) (email : String) (existed : Prop)
    (payloads : ι → LeadCreateRequest) (c : Config ι LeadTable CaptureCall) : Prop where
  payload_eq : ∀ i, (c.proc i).payload = payloads i
  stage : (getByCampaignEmail c.shared campaign.id email = none ∧ ¬ existed ∧
      ∀ i, Early (c.proc i).phase) ∨
    ∃ row, ∃ creator : Option ι, getByCampaignEmail c.shared campaign.id email = some row ∧
      (creator = none ↔ existed) ∧
      ∀ i, Knows campaign email row.1 (creator = some i) (c.proc i).phase

/-- The submitted columns come from one payload, unless no call has ended yet. -/
def FromOne (campaign : Campaign) (email : String) (payloads : ι → LeadCreateRequest)
    (c : Config ι LeadTable CaptureCall) : Prop :=
  (∀ i, (c.proc i).phase.result = none) ∨
    ∃ i row, getByCampaignEmail c.shared campaign.id email = some row ∧
      row.2.toSubmitted = submittedBy campaign (payloads i)

/-- One step of a run; what it does to the submitted columns when its UPDATE is whole. -/
theorem progress_fire [DecidableEq ι] {existed : Prop} {payloads : ι → LeadCreateRequest}
    (hemail : ∀ i, normaliseEmail py (payloads i).email = email) {e : ι × Datetime}
    {c c' : Config ι LeadTable CaptureCall} (hc : Progress campaign email existed payloads c)
    (h : fire (captureStep py campaign) e c = some c') :
    Progress campaign email existed payloads c' ∧
      (WholeEvent campaign e c → FromOne campaign email payloads c →
        FromOne campaign email payloads c') := by
  obtain ⟨t', call, hstep, rfl⟩ := fire_eq_some.1 h
  simp only [captureStep, Option.map_eq_some_iff, Prod.mk.injEq] at hstep
  obtain ⟨⟨t₁, phase'⟩, hphase, rfl, rfl⟩ := hstep
  obtain ⟨hpayloads, hstage⟩ := hc
  have hmover : normaliseEmail py (c.proc e.1).payload.email = email := by
    rw [hpayloads e.1]
    exact hemail e.1
  have hpayloads' : ∀ i, (Function.update c.proc e.1 ⟨(c.proc e.1).payload, phase'⟩ i).payload =
      payloads i :=
    (Function.forall_update_iff _ fun i (call : CaptureCall) => call.payload = payloads i).2
      ⟨hpayloads e.1, fun i _ => hpayloads i⟩
  -- what holds of the phase of every call, when the mover is known to be in `phase'`
  have hall : ∀ Q : ι → CapturePhase → Prop, Q e.1 phase' →
      (∀ i, i ≠ e.1 → Q i (c.proc i).phase) →
      ∀ i, Q i ((Function.update c.proc e.1 ⟨(c.proc e.1).payload, phase'⟩) i).phase :=
    fun Q hmover hother =>
      (Function.forall_update_iff _ fun i (call : CaptureCall) => Q i call.phase).2
        ⟨hmover, hother⟩
  rcases hstage with ⟨hnone, hnew, hearly⟩ | ⟨row, creator, hrow, hcreator, hknows⟩
  · rcases early_step hmover hnone (hearly e.1) hphase with ⟨rfl, hphase'⟩ |
      ⟨row, hrow, hsubmitted, rfl⟩
    · have hearly' := hall (fun _ => Early) hphase' fun i _ => hearly i
      exact ⟨⟨hpayloads', Or.inl ⟨hnone, hnew, hearly'⟩⟩,
        fun _ _ => Or.inl fun i => (hearly' i).result_eq_none⟩
    · refine ⟨⟨hpayloads', Or.inr ⟨row, some e.1, hrow, by simp [hnew], ?_⟩⟩, fun _ _ => ?_⟩
      · refine hall (fun i => Knows campaign email row.1 (some e.1 = some i)) (by simp [Knows]) ?_
        intro i hi
        have hne : some e.1 ≠ some i := fun heq => hi (Option.some.inj heq).symm
        have := hearly i
        cases hp : (c.proc i).phase with
        | start => exact hne
        | selected found =>
            rw [hp] at this
            obtain rfl : found = none := this
            exact hne
        | _ =>
            rw [hp] at this
            exact this.elim
      · exact Or.inr ⟨e.1, row, hrow, by rw [hsubmitted, hpayloads e.1]⟩
  · obtain ⟨row', hrow', hid, hphase', hwrite⟩ := knows_step hmover hrow (hknows e.1) hphase
    refine ⟨⟨hpayloads', Or.inr ⟨row', creator, hrow', hcreator, ?_⟩⟩, fun hwhole hone => ?_⟩
    · rw [hid]
      exact hall (fun i => Knows campaign email row.1 (creator = some i)) hphase'
        fun i _ => hknows i
    · rcases hwrite with ⟨rfl, hresult⟩ | hwrite
      · rcases hone with hone | ⟨i, r, hr, hsubmitted⟩
        · exact Or.inl (hall (fun _ phase => phase.result = none) hresult fun i _ => hone i)
        · rw [hrow, Option.some.injEq] at hr
          exact Or.inr ⟨i, row', hrow', by rw [hr, hsubmitted]⟩
      · exact Or.inr ⟨e.1, row', hrow', by rw [hwrite hwhole, hpayloads e.1]⟩

theorem progress_start (campaign : Campaign) (email : String) {c : Config ι LeadTable CaptureCall}
    (hstart : ∀ i, (c.proc i).phase = .start) :
    Progress campaign email (getByCampaignEmail c.shared campaign.id email ≠ none)
      (fun i => (c.proc i).payload) c := by
  refine ⟨fun i => rfl, ?_⟩
  cases hlookup : getByCampaignEmail c.shared campaign.id email with
  | none => exact Or.inl ⟨rfl, by simp, fun i => by rw [hstart i]; trivial⟩
  | some row =>
      refine Or.inr ⟨row, none, rfl, by simp, fun i => ?_⟩
      rw [hstart i]
      exact fun h => by cases h

/-- Once all calls have returned the row is there, and each of them says whether it made it. -/
theorem Progress.finished [Nonempty ι] {existed : Prop} {payloads : ι → LeadCreateRequest}
    {c : Config ι LeadTable CaptureCall} (hc : Progress campaign email existed payloads c)
    (hdone : ∀ i, (c.proc i).phase.result ≠ none) :
    ∃ row creator, getByCampaignEmail c.shared campaign.id email = some row ∧
      (creator = none ↔ existed) ∧
      ∀ i, ∃ r created, (c.proc i).phase = .returned r created ∧ (created = true ↔ creator = some i) := by
  obtain ⟨-, ⟨-, -, hearly⟩ | ⟨row, creator, hrow, hcreator, hknows⟩⟩ := hc
  · -- a call that has written nothing has not returned
    obtain ⟨i⟩ := ‹Nonempty ι›
    exact absurd (hearly i).result_eq_none (hdone i)
  · refine ⟨row, creator, hrow, hcreator, fun i => ?_⟩
    have hi := hknows i
    cases hphase : (c.proc i).phase with
    | returned r created =>
        rw [hphase] at hi
        exact ⟨r, created, rfl, hi⟩
    | raised e =>
        rw [hphase] at hi
        exact hi.elim
    | _ => exact absurd (by rw [hphase]; rfl) (hdone i)

/-- A call of the run has returned or can take its next step. -/
theorem returned_or_enabled [DecidableEq ι] {existed : Prop} {payloads : ι → LeadCreateRequest}
    {c : Config ι LeadTable CaptureCall} (hc : Progress campaign email existed payloads c) (i : ι)
    (now : Datetime) : (∃ row created, (c.proc i).phase = .returned row created) ∨
      ∃ next, fire (captureStep py campaign) (i, now) c = some next := by
  cases hphase : (c.proc i).phase with
  | returned row created => exact Or.inl ⟨row, created, rfl⟩
  | raised e =>
      obtain ⟨-, ⟨-, -, hearly⟩ | ⟨row, creator, -, -, hknows⟩⟩ := hc
      · have := hearly i
        rw [hphase] at this
        exact this.elim
      · have := hknows i
        rw [hphase] at this
        exact this.elim
  | _ =>
      right
      rw [← Option.isSome_iff_exists, fire, Option.isSome_map, captureStep, Option.isSome_map,
        hphase, capturePhaseStep_isSome_iff]
      rfl

/-- A run has at most five steps of each call, whatever the others do. -/
theorem capture_steps_le [DecidableEq ι] {c c' : Config ι LeadTable CaptureCall}
    {es : List (ι × Datetime)} {i : ι} (hstart : (c.proc i).phase = .start)
    (hrun : exec (fire (captureStep py campaign)) es c = some c') :
    (es.countP fun e => e.1 = i) ≤ 5 := by
  have hcount := count_le_rank (fun call : CaptureCall => call.phase.rank) ?_ i hrun
  · simp only [hstart, CapturePhase.rank] at hcount
    omega
  · intro _ t call t' call' hstep
    simp only [captureStep, Option.map_eq_some_iff, Prod.mk.injEq] at hstep
    obtain ⟨⟨g', phase'⟩, hphase, -, rfl⟩ := hstep
    exact capturePhaseStep_rank hphase

/-- **What concurrent captures of one lead leave.** Any number of calls with one campaign and one
email start on any table and run interleaved. Every call has returned or can take its next step, and
when all have returned: exactly one row of the campaign has the email; exactly one call reports a
creation if there was no such row before, and none if there was; and if every UPDATE of the run was
whole, the submitted columns of the row are those of a single payload. -/
theorem captures_dedup [DecidableEq ι] [Nonempty ι] {c c' : Config ι LeadTable CaptureCall}
    {es : List (ι × Datetime)} (hstart : ∀ i, (c.proc i).phase = .start)
    (hemail : ∀ i, normaliseEmail py (c.proc i).payload.email = email)
    (hrun : exec (fire (captureStep py campaign)) es c = some c') :
    (∀ i, (∃ row created, (c'.proc i).phase = .returned row created) ∨
      ∀ now, ∃ next, fire (captureStep py campaign) (i, now) c' = some next) ∧
    ((∀ i, (c'.proc i).phase.result ≠ none) →
      (∃! q, q ∈ c'.shared.rows ∧ q.2.campaignId = campaign.id ∧ q.2.email = email) ∧
      (getByCampaignEmail c.shared campaign.id email = none →
        ∃! i, ∃ row, (c'.proc i).phase = .returned row true) ∧
      (getByCampaignEmail c.shared campaign.id email ≠ none →
        ∀ i row, (c'.proc i).phase ≠ .returned row true) ∧
      (Guarded (fire (captureStep py campaign)) (WholeEvent campaign) es c →
        ∃ i, ∀ q ∈ c'.shared.rows, q.2.campaignId = campaign.id → q.2.email = email →
          q.2.toSubmitted = submittedBy campaign (c.proc i).payload)) := by
  have hinit := progress_start campaign email hstart
  have hprogress := exec_invariant (fun e d d' hd hf => (progress_fire hemail hd hf).1) hinit hrun
  refine ⟨fun i => ?_, fun hdone => ?_⟩
  · rw [← forall_or_left]
    exact fun now => returned_or_enabled hprogress i now
  obtain ⟨row, creator, hrow, hcreator, hreturned⟩ := hprogress.finished hdone
  refine ⟨?_, fun hnone => ?_, fun hsome i r hi => ?_, fun hG => ?_⟩
  · refine ⟨row, getByCampaignEmail_eq_some hrow, fun q hq => ?_⟩
    have := getByCampaignEmail_of_mem hq.1 hq.2.1 hq.2.2
    rw [hrow] at this
    exact (Option.some.inj this).symm
  · obtain ⟨w, hw⟩ : ∃ w, creator = some w := by
      rw [← Option.ne_none_iff_exists']
      exact fun h => hcreator.1 h hnone
    refine ⟨w, ?_, fun i hi => ?_⟩
    · obtain ⟨r, created, hphase, hcreated⟩ := hreturned w
      exact ⟨r, by rw [hphase, hcreated.2 hw]⟩
    · obtain ⟨r, hphase⟩ := hi
      obtain ⟨r', created, hphase', hcreated⟩ := hreturned i
      rw [hphase, CapturePhase.returned.injEq] at hphase'
      have := hcreated.1 hphase'.2.symm
      rw [hw] at this
      exact (Option.some.inj this).symm
  · obtain ⟨r', created, hphase', hcreated⟩ := hreturned i
    rw [hi, CapturePhase.returned.injEq] at hphase'
    have := hcreated.1 hphase'.2.symm
    rw [hcreator.2 hsome] at this
    cases this
  · have hone : FromOne campaign email (fun i => (c.proc i).payload) c' := by
      refine ((always_of_step (I := fun d =>
        Progress campaign email (getByCampaignEmail c.shared campaign.id email ≠ none)
          (fun i => (c.proc i).payload) d ∧ FromOne campaign email (fun i => (c.proc i).payload) d)
        ?_ ⟨hinit, Or.inl fun i => by rw [hstart i]; rfl⟩ hG).last hrun).2
      intro e d d' hd hwhole hf
      obtain ⟨hd', hone⟩ := progress_fire hemail hd.1 hf
      exact ⟨hd', hone hwhole hd.2⟩
    rcases hone with hnot | ⟨i, r, hr, hsubmitted⟩
    · obtain ⟨i⟩ := ‹Nonempty ι›
      exact absurd (hnot i) (hdone i)
    · refine ⟨i, fun q hq hqc hqe => ?_⟩
      have := getByCampaignEmail_of_mem hq hqc hqe
      rw [hr] at this
      rw [← Option.some.inj this, hsubmitted]

/-! ## Two calls -/

/-- An active campaign without materials. -/
def plainCampaign : Campaign where
  id := 1
  slug := "nog-2026"
  status := .active
  config :=
    { baseTags := ["Stand App"], tagMap := [], digitalPackTag := none, inspectionTag := none
      newsletterTag := none, materials := [], materialsAssets := [] }

/-- A submission of `name` at `company`. -/
def leadRequest (name company : String) : LeadCreateRequest where
  firstName := name
  lastName := "Obi"
  email := adaEmail
  phone := none
  company := company
  jobTitle := none
  source := "qr"
  deviceId := none
  timing := none
  interests := none
  requestedMaterials := none
  inspectionRequested := false
  inspectionType := none
  marketingOptIn := false
  consentStatus := false
  capturedAt := none
  responses := []

def noon : Datetime := ⟨0, some 0⟩

/-- Ada of Acme is on the table; one call corrects the company, the other the name. -/
def twoCorrections : Config Bool LeadTable CaptureCall where
  shared := (captureInCampaign asciiLower plainCampaign (leadRequest "Ada" "Acme") noon none
    (Table.empty _)).1
  proc i := ⟨if i then leadRequest "Ada" "Zenith" else leadRequest "Adaeze" "Acme", .start⟩

/-- Both calls look up before either writes: the row ends with the name of one submission and the
company of the other. -/
theorem capture_race_mixes : ∃ c',
    exec (fire (captureStep asciiLower plainCampaign))
      [(true, noon), (false, noon), (true, noon), (false, noon)] twoCorrections = some c' ∧
    (∀ i, (c'.proc i).phase.result ≠ none) ∧
    ∃ q ∈ c'.shared.rows, q.2.firstName = "Adaeze" ∧ q.2.company = "Zenith" ∧
      ∀ i, q.2.toSubmitted ≠ submittedBy plainCampaign (twoCorrections.proc i).payload := by
  refine ⟨_, rfl, by rintro (_ | _) <;> exact Option.some_ne_none _, _, List.mem_cons_self, rfl, rfl,
    ?_⟩
  rintro (_ | _) h
  · exact absurd (congrArg Submitted.company h) (by decide)
  · exact absurd (congrArg Submitted.firstName h) (by decide)

/-- The two calls one after the other. -/
def oneAfterTheOther : List (Bool × Datetime) :=
  [(true, noon), (true, noon), (false, noon), (false, noon)]

/-- One after the other, the row ends with one submission. -/
theorem sequential_captures_whole : ∃ c',
    exec (fire (captureStep asciiLower plainCampaign)) oneAfterTheOther twoCorrections = some c' ∧
    (∃! q, q ∈ c'.shared.rows ∧ q.2.campaignId = 1 ∧ q.2.email = "ada@x.ng") ∧
    ∃ i, ∀ q ∈ c'.shared.rows, q.2.campaignId = 1 → q.2.email = "ada@x.ng" →
      q.2.toSubmitted = submittedBy plainCampaign (twoCorrections.proc i).payload := by
  obtain ⟨c', hrun, hdone⟩ : ∃ c',
      exec (fire (captureStep asciiLower plainCampaign)) oneAfterTheOther twoCorrections = some c' ∧
      ∀ i, (c'.proc i).phase.result ≠ none :=
    ⟨_, rfl, by rintro (_ | _) <;> exact Option.some_ne_none _⟩
  have hemail : ∀ i, normaliseEmail asciiLower (twoCorrections.proc i).payload.email = "ada@x.ng" := by
    decide
  obtain ⟨hunique, -, -, hone⟩ := (captures_dedup (fun i => rfl) hemail hrun).2 hdone
  exact ⟨c', hrun, hunique, hone (by decide)⟩

end SalesTrades.Leads
