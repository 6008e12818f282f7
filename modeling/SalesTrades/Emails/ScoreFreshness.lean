import Mathlib.Data.Int.Order.Basic
import SalesTrades.Library.CachedColumn
import SalesTrades.Emails.Attribution
import SalesTrades.Leads.PackSweep

/-!
# How old the stored score of a lead may be

Captures, deliveries, sweeps and ingested events in any order, on a clock that does not go back. The
world remembers for every lead when a column that the score reads last changed. `capture_lead_created`
and `ingest_events` score the lead they write; `deliver_pack` and `deliver_viewing` write
`pack_delivery_status`, which the score reads, and leave the score alone. So the stored scores stay
those of a time not before the last change exactly when every delivery keeps the status, or finds a
score that the new status has as well (`always_scored_iff`).
-/

set_option autoImplicit false

namespace SalesTrades.Emails

open SalesTrades.Library SalesTrades.Library.Run SalesTrades.Library.Sweep SalesTrades.Leads

/-! ## The cached score -/

/-- The columns that `engagement_score` reads. -/
structure ScoreInputs where
  requestedMaterials : Option (List String)
  interests : Option (List String)
  timing : Option String
  inspectionRequested : Bool
  marketingOptIn : Bool
  packDeliveryStatus : PackStatus
  packOpenedCount : Int
  packOpenedAt : Option Datetime
  packClickedMaterials : Option (List String)
  deriving DecidableEq

def scoreInputs (l : Lead) : ScoreInputs where
  requestedMaterials := l.requestedMaterials
  interests := l.interests
  timing := l.timing
  inspectionRequested := l.inspectionRequested
  marketingOptIn := l.marketingOptIn
  packDeliveryStatus := l.packDeliveryStatus
  packOpenedCount := l.packOpenedCount
  packOpenedAt := l.packOpenedAt
  packClickedMaterials := l.packClickedMaterials

theorem engagementScore_congr (py : LowerCase) {l l' : Lead} (h : scoreInputs l = scoreInputs l') :
    engagementScore py l = engagementScore py l' := by
  simp only [scoreInputs, ScoreInputs.mk.injEq] at h
  obtain ⟨hmaterials, hinterests, htiming, hinspection, hmarketing, hstatus, hopens, hopened,
    hclicked⟩ := h
  funext now
  rw [engagementScore, engagementScore, hmaterials, hinterests, htiming, hinspection, hmarketing,
    hstatus, hopens, hopened, hclicked]

/-- The score depends on the instant alone. -/
theorem engagementScore_instant (py : LowerCase) (l : Lead) (now : Datetime) :
    engagementScore py l (utc now.instant) = engagementScore py l now := by
  unfold engagementScore recencyPoints
  rw [utc_instant]

/-- `leads.engagement_score`, computed at a time in microseconds. -/
def scoreColumn (py : LowerCase) : CachedColumn Lead ScoreInputs Int Int where
  cached := Lead.engagementScore
  inputs := scoreInputs
  compute l now := engagementScore py l (utc now)
  compute_congr h := by rw [engagementScore_congr py h]

/-! ## The operations -/

/-- The tables, the last reading of the clock, and when the score inputs of each lead last changed. -/
structure ScoreWorld extends PackWorld where
  events : EmailEventTable
  clock : Int
  changedAt : Nat → Int

/-- An operation on the leads, a change of the key, or an edit of a campaign. Events are looked up in
the campaigns `scanned`, which may have any `config`. -/
inductive ScoreAct where
  | captureLeadCreated (slug : String) (payload : LeadCreateRequest) (now : Datetime) (missed : Bool)
  | deliverPack (id : Nat) (a : Attempt)
  | deliverViewing (id : Nat) (a : Attempt)
  | deliverPending (limit : Nat) (attempts : Nat → Attempt)
  | ingestEvents (scanned : List CampaignRow) (batch : List (PostedEvent × EventClock))
  | setTransport (transport : Bool)
  | configure (campaignId : Nat) (status : CampaignStatus) (config : CampaignConfig)

/-- The readings of the clock, in order. -/
def ScoreAct.readings (act : ScoreAct) (w : ScoreWorld) : List Int :=
  match act with
  | .captureLeadCreated _ _ now _ => [now.instant]
  | .deliverPack _ a | .deliverViewing _ a => [a.now.instant]
  | .deliverPending limit attempts =>
      (listPendingPackDelivery w.leads limit).map fun q => (attempts q.1).now.instant
  | .ingestEvents _ batch => batch.map fun x => x.2.scored
  | .setTransport _ | .configure _ _ _ => []

/-- The last reading, `none` when the clock goes back. -/
def lastReading (clock : Int) : List Int → Option Int
  | [] => some clock
  | reading :: rest => if clock ≤ reading then lastReading reading rest else none

/-- The times of change after a batch of events. -/
def stampEvents (lib : Lib) (campaigns : List CampaignRow) :
    List (PostedEvent × EventClock) → EmailWorld → (Nat → Int) → Nat → Int
  | [], _, changedAt => changedAt
  | (evt, clock) :: rest, w, changedAt =>
      let outcome := ingestOne lib campaigns evt clock w
      let changedAt :=
        Table.stamp scoreInputs w.leads outcome.1.leads (fun _ => clock.scored) changedAt
      match outcome.2 with
      | .ok _ => stampEvents lib campaigns rest outcome.1 changedAt
      -- the handler raises, and the batch ends
      | .error _ => changedAt

def ScoreWorld.emails (w : ScoreWorld) : EmailWorld := ⟨w.leads, w.events⟩

/-- The world after an operation on the leads and mails, `now` the reading for each lead. -/
def ScoreWorld.packed (w : ScoreWorld) (p : PackWorld) (now : Nat → Int) (clock : Int) : ScoreWorld :=
  { toPackWorld := p
    events := w.events
    clock := clock
    changedAt := Table.stamp scoreInputs w.leads p.leads now w.changedAt }

/-- One operation, run on its own, on a clock that has not gone back. -/
def scoreStep (lib : Lib) (act : ScoreAct) (w : ScoreWorld) : Option ScoreWorld :=
  (lastReading w.clock (act.readings w)).bind fun clock =>
    match act with
    | .captureLeadCreated slug payload now missed =>
        (packStep lib.text (.submit slug payload now missed) w.toPackWorld).map
          fun p => w.packed p (fun _ => now.instant) clock
    | .deliverPack id a =>
        (packStep lib.text (.deliverPack id a) w.toPackWorld).map
          fun p => w.packed p (fun _ => a.now.instant) clock
    | .deliverViewing id a =>
        (packStep lib.text (.deliverViewing id a) w.toPackWorld).map
          fun p => w.packed p (fun _ => a.now.instant) clock
    | .deliverPending limit attempts =>
        (packStep lib.text (.sweep limit attempts) w.toPackWorld).map
          fun p => w.packed p (fun id => (attempts id).now.instant) clock
    | .ingestEvents scanned batch =>
        let emails := (ingestEvents lib scanned batch w.emails).1
        some
          { toPackWorld := { w.toPackWorld with leads := emails.leads }
            events := emails.events
            clock := clock
            changedAt := stampEvents lib scanned batch w.emails w.changedAt }
    | .setTransport transport =>
        some { w with transport := transport, clock := clock }
    | .configure campaignId status config =>
        some { w with campaigns := w.campaigns.configure campaignId status config, clock := clock }

/-- Every stored score is the one of a time not before the last change of what it is computed from. -/
def ScoreWorld.Scored (lib : Lib) (w : ScoreWorld) : Prop :=
  (scoreColumn lib.text).AllCurrent w.leads w.changedAt

/-- No change is later than the clock. -/
def ScoreWorld.Timely (w : ScoreWorld) : Prop := ∀ id, w.changedAt id ≤ w.clock

variable {lib : Lib} {w w' : ScoreWorld} {act : ScoreAct}

/-! ## The clock -/

theorem lastReading_cons {clock reading c : Int} {rest : List Int}
    (h : lastReading clock (reading :: rest) = some c) :
    clock ≤ reading ∧ lastReading reading rest = some c := by
  rw [lastReading] at h
  split at h
  · exact ⟨‹_›, h⟩
  · cases h

/-- The last reading is not before any other, and none is before the clock. -/
theorem lastReading_bounds {clock c : Int} {readings : List Int}
    (h : lastReading clock readings = some c) :
    clock ≤ c ∧ ∀ reading ∈ readings, clock ≤ reading ∧ reading ≤ c := by
  induction readings generalizing clock with
  | nil => exact ⟨le_of_eq (Option.some.inj h), List.forall_mem_nil _⟩
  | cons first rest ih =>
      obtain ⟨hfirst, hrest⟩ := lastReading_cons h
      obtain ⟨hle, hall⟩ := ih hrest
      refine ⟨hfirst.trans hle, fun reading hmem => ?_⟩
      rcases List.mem_cons.1 hmem with rfl | hmem
      · exact ⟨hfirst, hle⟩
      · exact ⟨hfirst.trans (hall reading hmem).1, (hall reading hmem).2⟩

/-! ## Deliveries -/

/-- The status that `deliver_pack` stores. -/
def statusAfterPack (transport : Bool) (lead : Lead) (campaign : Campaign) (accepted : Bool) :
    PackStatus :=
  if deliverableMaterials lead campaign = [] then
    if realMaterialsRequested lead campaign then .failed else .notRequested
  else if !transport then .skipped
  else if accepted then .sent
  else .failed

/-- The status after `deliver_viewing`. -/
def statusAfterViewing (transport : Bool) (lead : Lead) (campaign : Campaign) (accepted : Bool) :
    PackStatus :=
  if sendViewingBooking transport campaign accepted = true ∧ documentSet campaign.config ≠ [] then .sent
  else lead.packDeliveryStatus

/-- What a delivery does to the score and its inputs: the status is all that changes. -/
structure Delivers (l l' : Lead) (status : PackStatus) : Prop where
  score : l'.engagementScore = l.engagementScore
  inputs : scoreInputs l' = scoreInputs { l with packDeliveryStatus := status }

theorem delivers_markSent (l : Lead) (labels : List String) (now : Datetime) :
    Delivers l (markSent l labels now) .sent := by
  unfold markSent flagCrmRefresh
  split <;> exact ⟨rfl, rfl⟩

theorem delivers_deliverPack (transport : Bool) (l : Lead) (campaign : Campaign) (a : Attempt) :
    Delivers l (deliverPack transport l campaign a).1
      (statusAfterPack transport l campaign a.accepted) := by
  unfold deliverPack statusAfterPack
  by_cases hnothing : deliverableMaterials l campaign = []
  · rw [if_pos hnothing, if_pos hnothing, withoutMaterials]
    split <;> exact ⟨rfl, rfl⟩
  · rw [if_neg hnothing, if_neg hnothing]
    cases transport with
    | false => exact ⟨rfl, rfl⟩
    | true =>
        cases haccepted : a.accepted with
        | false => exact ⟨rfl, rfl⟩
        | true => exact delivers_markSent l (deliverableLabels l campaign) a.now

theorem delivers_deliverViewing (transport : Bool) (l : Lead) (campaign : Campaign) (a : Attempt) :
    Delivers l ((deliverViewing transport l campaign a).1.getD l)
      (statusAfterViewing transport l campaign a.accepted) := by
  by_cases hset : sendViewingBooking transport campaign a.accepted = true ∧
      documentSet campaign.config ≠ []
  · have hstatus : statusAfterViewing transport l campaign a.accepted = .sent := if_pos hset
    rw [hstatus]
    by_cases halready : l.packDeliveryStatus = .sent
    · -- the marker is there already
      have hkept : (deliverViewing transport l campaign a).1 = none := if_pos (Or.inr halready)
      rw [hkept, Option.getD_none, ← halready]
      exact ⟨rfl, rfl⟩
    · have hstored : (deliverViewing transport l campaign a).1 =
          some (markSent l (documentSet campaign.config) a.now) := by
        simp [deliverViewing, hset.1, hset.2, halready]
      rw [hstored]
      exact delivers_markSent l (documentSet campaign.config) a.now
  · have hstatus : statusAfterViewing transport l campaign a.accepted = l.packDeliveryStatus :=
      if_neg hset
    have hkept : (deliverViewing transport l campaign a).1 = none := by
      unfold deliverViewing
      dsimp only
      split
      · rfl
      · rename_i hsent
        rw [if_pos]
        by_contra hdocs
        exact hset ⟨by simpa using fun h => hsent (Or.inl h), hdocs⟩
    rw [hstatus, hkept]
    exact ⟨rfl, rfl⟩

/-- The status stays, or the stored score is the one that the lead has with the new status at some time
from `now` on. -/
def KeepsScore (lib : Lib) (l : Lead) (status : PackStatus) (now : Int) : Prop :=
  status = l.packDeliveryStatus ∨ ∃ time, now ≤ time ∧
    l.engagementScore = engagementScore lib.text { l with packDeliveryStatus := status } (utc time)

/-- A delivery leaves a row current exactly when it keeps the score. -/
theorem Delivers.current_iff {l l' : Lead} {status : PackStatus} (h : Delivers l l' status)
    (now : Int) :
    (scoreInputs l' = scoreInputs l ∨ (scoreColumn lib.text).Current l' now) ↔
      KeepsScore lib l status now := by
  have hinputs : scoreInputs l' = scoreInputs l ↔ status = l.packDeliveryStatus := by
    rw [h.inputs]
    constructor
    · exact fun heq => congrArg ScoreInputs.packDeliveryStatus heq
    · rintro rfl
      rfl
  rw [hinputs]
  apply or_congr_right
  apply exists_congr
  intro time
  apply and_congr_right
  intro _
  change l'.engagementScore = engagementScore lib.text l' (utc time) ↔ _
  rw [h.score, engagementScore_congr lib.text h.inputs]

/-- Deliveries to some of the rows leave all scores current exactly when each one keeps the score. -/
theorem scored_deliveries_iff {t t' : LeadTable} {changedAt : Nat → Int} (now : Nat → Int)
    {served : LeadRow → Option (Lead × PackStatus)}
    (hcurrent : (scoreColumn lib.text).AllCurrent t changedAt)
    (hrows : Table.Rewritten (fun q => ((served q).map Prod.fst).getD q.2) t t')
    (hserved : ∀ q ∈ t.rows, ∀ r, served q = some r → Delivers q.2 r.1 r.2) :
    (scoreColumn lib.text).AllCurrent t' (Table.stamp scoreInputs t t' now changedAt) ↔
      ∀ q ∈ t.rows, ∀ r, served q = some r → KeepsScore lib q.2 r.2 (now q.1) := by
  have hkept := CachedColumn.allCurrent_kept_iff now hcurrent hrows (by
      intro q hq
      cases hr : served q with
      | none => rfl
      | some r => exact (hserved q hq r hr).score)
  refine hkept.trans (forall₂_congr fun q hq => ?_)
  cases hr : served q with
  | none => exact iff_of_true (Or.inl rfl) fun _ h => by cases h
  | some r =>
      rw [Option.map_some, Option.getD_some]
      refine ((hserved q hq r hr).current_iff (now q.1)).trans ?_
      simp only [Option.some.injEq, forall_eq']

/-- The delivery to one row. -/
theorem scored_delivery_iff {t t' : LeadTable} {changedAt : Nat → Int} (now : Int) {row : LeadRow}
    {l' : Lead} {status : PackStatus} (hcurrent : (scoreColumn lib.text).AllCurrent t changedAt)
    (hrow : row ∈ t.rows) (hupdate : t.update row.1 l' = some t')
    (hdelivers : Delivers row.2 l' status) :
    (scoreColumn lib.text).AllCurrent t' (Table.stamp scoreInputs t t' (fun _ => now) changedAt) ↔
      KeepsScore lib row.2 status now := by
  have hown : ∀ q ∈ t.rows, q.1 = row.1 → q = row := fun q hq hid => t.eq_of_id hq hrow hid
  have hrows : Table.Rewritten (fun q => (((if q.1 = row.1 then some (l', status) else none :
      Option (Lead × PackStatus))).map Prod.fst).getD q.2) t t' := by
    apply (Table.rewritten_update hupdate).congr
    intro q _
    split <;> rfl
  rw [scored_deliveries_iff (fun _ => now) hcurrent hrows]
  · constructor
    · exact fun h => h row hrow (l', status) (if_pos rfl)
    · intro h q hq r hr
      split at hr
      · rename_i hid
        rw [hown q hq hid, ← Option.some.inj hr]
        exact h
      · cases hr
  · intro q hq r hr
    split at hr
    · rename_i hid
      rw [hown q hq hid, ← Option.some.inj hr]
      exact hdelivers
    · cases hr

/-- The rows a sweep serves, with the lead and the status it stores. -/
def sweptLead (transport : Bool) (campaigns : List Campaign) (attempts : Nat → Attempt)
    (selected : List LeadRow) (q : LeadRow) : Option (Lead × PackStatus) :=
  if q.1 ∈ selected.map Prod.fst then
    (getCampaign campaigns q.2.campaignId).map fun campaign =>
      ((deliverPack transport q.2 campaign (attempts q.1)).1,
        statusAfterPack transport q.2 campaign (attempts q.1).accepted)
  else none

/-- The leads that a sweep serves are the selected ones that have a campaign. -/
theorem forall_sweptLead_iff {t : LeadTable} {transport : Bool} {campaigns : List Campaign}
    {attempts : Nat → Attempt} {selected : List LeadRow} (hselected : ∀ q ∈ selected, q ∈ t.rows)
    {P : LeadRow → PackStatus → Prop} :
    (∀ q ∈ t.rows, ∀ r, sweptLead transport campaigns attempts selected q = some r → P q r.2) ↔
      ∀ q ∈ selected, ∀ campaign, getCampaign campaigns q.2.campaignId = some campaign →
        P q (statusAfterPack transport q.2 campaign (attempts q.1).accepted) := by
  constructor
  · intro hall q hq campaign hcampaign
    apply hall q (hselected q hq) ((deliverPack transport q.2 campaign (attempts q.1)).1,
      statusAfterPack transport q.2 campaign (attempts q.1).accepted)
    rw [sweptLead, if_pos (List.mem_map_of_mem hq), hcampaign]
    rfl
  · intro hall q hq r hr
    unfold sweptLead at hr
    split at hr
    · rename_i hmem
      obtain ⟨campaign, hcampaign, rfl⟩ := Option.map_eq_some_iff.1 hr
      obtain ⟨q', hq', hid⟩ := List.mem_map.1 hmem
      obtain rfl := t.eq_of_id (hselected q' hq') hq hid
      exact hall q' hq' campaign hcampaign
    · cases hr

theorem deliverPending_rewritten (transport : Bool) (campaigns : List Campaign)
    (attempts : Nat → Attempt) (limit : Nat) (d : Delivery) :
    Table.Rewritten
      (fun q => ((sweptLead transport campaigns attempts (listPendingPackDelivery d.leads limit)
        q).map Prod.fst).getD q.2) d.leads
      (deliverPending transport campaigns attempts limit d).1.leads := by
  have hready : Ready Delivery.leads (listPendingPackDelivery d.leads limit) d :=
    ready_select _ _ limit d
  obtain ⟨hends, -⟩ := deliveriesRecorded transport campaigns attempts limit d
  rw [deliverPending, deliverLoop_eq_sweep] at hends ⊢
  apply (deliverPass_rowVisits.rewritten hready hends).congr
  intro q _
  unfold sweptLead deliverOutcome
  split
  · cases getCampaign campaigns q.2.campaignId <;> rfl
  · rfl

/-! ## Captures -/

theorem recomputeScore_scored (py : LowerCase) (l : Lead) (now : Datetime) :
    (recomputeScore py l now).engagementScore =
      engagementScore py (recomputeScore py l now) (utc now.instant) := by
  have hinputs : scoreInputs (recomputeScore py l now) = scoreInputs l := rfl
  rw [engagementScore_instant, engagementScore_congr py hinputs]
  rfl

/-- A capture scores the row it writes. -/
theorem scored_captureLeadCreated {campaigns : List Campaign} {slug : String}
    {payload : LeadCreateRequest} {now : Datetime} {missed : Bool} {t : LeadTable}
    {changedAt : Nat → Int} (hcurrent : (scoreColumn lib.text).AllCurrent t changedAt)
    (hnow : ∀ id, changedAt id ≤ now.instant) :
    (scoreColumn lib.text).AllCurrent
      (captureLeadCreated lib.text campaigns slug payload now missed t).1
      (Table.stamp scoreInputs t (captureLeadCreated lib.text campaigns slug payload now missed t).1
        (fun _ => now.instant) changedAt) := by
  rcases captureLeadCreated_cases lib.text campaigns slug payload now missed t with
    ⟨-, hsame⟩ | ⟨campaign, row, -, hupdate⟩ | ⟨campaign, id, -, hinsert⟩
  · rw [hsame]
    exact CachedColumn.allCurrent_recomputed hcurrent (Table.rewritten_self fun q _ => rfl)
      fun q _ => Or.inl rfl
  · refine CachedColumn.allCurrent_recomputed hcurrent (Table.rewritten_update hupdate) ?_
    intro q _
    split
    · exact Or.inr ⟨now.instant, hnow q.1, le_rfl, recomputeScore_scored lib.text _ now⟩
    · exact Or.inl rfl
  · exact CachedColumn.allCurrent_insert hcurrent hinsert le_rfl
      (recomputeScore_scored lib.text _ now)

/-! ## Events -/

theorem scored_score (clock : EventClock) (l : Lead) :
    (scored lib clock l).engagementScore =
      engagementScore lib.text (scored lib clock l) (utc clock.scored) := by
  have hinputs : scoreInputs (scored lib clock l) = scoreInputs l := rfl
  rw [engagementScore_congr lib.text hinputs]
  rfl

/-- An event scores the lead that it changes. -/
theorem scored_ingestOne (campaigns : List CampaignRow) (evt : PostedEvent) {clock : EventClock}
    {w : EmailWorld} {changedAt : Nat → Int}
    (hcurrent : (scoreColumn lib.text).AllCurrent w.leads changedAt)
    (hnow : ∀ id, changedAt id ≤ clock.scored) :
    (scoreColumn lib.text).AllCurrent (ingestOne lib campaigns evt clock w).1.leads
      (Table.stamp scoreInputs w.leads (ingestOne lib campaigns evt clock w).1.leads
        (fun _ => clock.scored) changedAt) := by
  -- an event that is skipped or raises rewrites no row
  have hunread : (scoreColumn lib.text).AllCurrent w.leads
      (Table.stamp scoreInputs w.leads w.leads (fun _ => clock.scored) changedAt) :=
    CachedColumn.allCurrent_recomputed hcurrent (Table.rewritten_self fun q _ => rfl)
      fun q _ => Or.inl rfl
  rcases ingestOne_cases lib campaigns evt clock w with
    ⟨e, -, hcall⟩ | ⟨-, hcall⟩ | ⟨lead, event, w', hattribute, hcall, hstored⟩
  · rw [hcall]
    exact hunread
  · rw [hcall]
    exact hunread
  · rw [hcall]
    obtain ⟨_, -, -, -, hread⟩ := attributeEvent_eq_some.1 hattribute
    obtain ⟨-, -, -, hget⟩ := readEvent_row hread
    have hrows : Table.Rewritten
        (fun q => if q.1 = lead.1 then rolledUp lib clock lead.2 event else q.2) w.leads
        w'.leads := by
      rw [Table.rewritten_iff_get?]
      intro id
      rw [hstored.leads id]
      congr 1
      funext q
      split
      · rename_i hid
        rw [hid]
      · rfl
    refine CachedColumn.allCurrent_recomputed hcurrent hrows fun q hq => ?_
    by_cases hid : q.1 = lead.1
    · obtain rfl : q = lead := w.leads.eq_of_id hq (Table.mem_of_get? hget).1 hid
      rw [if_pos rfl, rolledUp]
      cases rollup q.2 event with
      | none => exact Or.inl rfl
      | some changed =>
          exact Or.inr ⟨clock.scored, hnow q.1, le_rfl, scored_score clock changed⟩
    · exact Or.inl (if_neg hid)

/-- A batch scores all that it changes, and changes nothing after its last reading of the clock. -/
theorem scored_ingestEvents {campaigns : List CampaignRow} {batch : List (PostedEvent × EventClock)}
    {w : EmailWorld} {changedAt : Nat → Int} {clock c : Int}
    (hcurrent : (scoreColumn lib.text).AllCurrent w.leads changedAt)
    (htimely : ∀ id, changedAt id ≤ clock)
    (hreadings : lastReading clock (batch.map fun x => x.2.scored) = some c) :
    (scoreColumn lib.text).AllCurrent (ingestEvents lib campaigns batch w).1.leads
      (stampEvents lib campaigns batch w changedAt) := by
  induction batch generalizing w changedAt clock with
  | nil => exact hcurrent
  | cons x rest ih =>
      obtain ⟨hclock, hrest⟩ := lastReading_cons hreadings
      have hnow : ∀ id, changedAt id ≤ x.2.scored := fun id => (htimely id).trans hclock
      have hone := scored_ingestOne campaigns x.1 hcurrent hnow
      have hbound : ∀ id, Table.stamp scoreInputs w.leads
          (ingestOne lib campaigns x.1 x.2 w).1.leads (fun _ => x.2.scored) changedAt id ≤
            x.2.scored :=
        fun id => Table.stamp_le _ (hnow id) le_rfl
      cases hcall : ingestOne lib campaigns x.1 x.2 w with
      | mk w' outcome =>
          rw [hcall] at hone hbound
          cases outcome with
          | ok processed =>
              rw [ingestEvents_cons_ok hcall, stampEvents, hcall]
              exact ih hone hbound hrest
          | error e =>
              obtain ⟨e', he'⟩ : ∃ e', ingestEvents lib campaigns (x :: rest) w = (w', .error e') :=
                ingestEvents_cons_error hcall
              rw [he', stampEvents, hcall]
              exact hone

theorem stampEvents_le {campaigns : List CampaignRow} {batch : List (PostedEvent × EventClock)}
    {w : EmailWorld} {changedAt : Nat → Int} {clock c : Int}
    (htimely : ∀ id, changedAt id ≤ clock)
    (hreadings : lastReading clock (batch.map fun x => x.2.scored) = some c) (id : Nat) :
    stampEvents lib campaigns batch w changedAt id ≤ c := by
  induction batch generalizing w changedAt clock with
  | nil => exact (htimely id).trans (lastReading_bounds hreadings).1
  | cons x rest ih =>
      obtain ⟨hclock, hrest⟩ := lastReading_cons hreadings
      have hbound : ∀ id, Table.stamp scoreInputs w.leads
          (ingestOne lib campaigns x.1 x.2 w).1.leads (fun _ => x.2.scored) changedAt id ≤
            x.2.scored :=
        fun id => Table.stamp_le _ ((htimely id).trans hclock) le_rfl
      cases hcall : ingestOne lib campaigns x.1 x.2 w with
      | mk w' outcome =>
          rw [hcall] at hbound
          rw [stampEvents, hcall]
          cases outcome with
          | ok processed => exact ih hbound hrest
          | error e => exact (hbound id).trans (lastReading_bounds hrest).1

/-! ## Runs -/

/-- Every delivery of the operation keeps the score of the lead that it serves. -/
def KeepsScores (lib : Lib) (act : ScoreAct) (w : ScoreWorld) : Prop :=
  match act with
  | .deliverPack id a => ∀ row campaign, leadAndCampaign w.toPackWorld id = some (row, campaign) →
      KeepsScore lib row.2 (statusAfterPack w.transport row.2 campaign a.accepted) a.now.instant
  | .deliverViewing id a => ∀ row campaign, leadAndCampaign w.toPackWorld id = some (row, campaign) →
      KeepsScore lib row.2 (statusAfterViewing w.transport row.2 campaign a.accepted) a.now.instant
  | .deliverPending limit attempts => ∀ row ∈ listPendingPackDelivery w.leads limit, ∀ campaign,
      getCampaign w.campaigns.list row.2.campaignId = some campaign →
        KeepsScore lib row.2
          (statusAfterPack w.transport row.2 campaign (attempts row.1).accepted)
          (attempts row.1).now.instant
  | .captureLeadCreated _ _ _ _ | .ingestEvents _ _ | .setTransport _ | .configure _ _ _ => True

theorem scoreStep_eq_some (h : scoreStep lib act w = some w') :
    ∃ clock, lastReading w.clock (act.readings w) = some clock ∧ w'.clock = clock ∧
      match act with
      | .captureLeadCreated slug payload now missed =>
          w' = w.packed { w.toPackWorld with
            leads := (captureLeadCreated lib.text w.campaigns.list slug payload now missed
              w.leads).1 } (fun _ => now.instant) clock
      | .deliverPack id a => ∃ p, packStep lib.text (.deliverPack id a) w.toPackWorld = some p ∧
          w' = w.packed p (fun _ => a.now.instant) clock
      | .deliverViewing id a =>
          ∃ p, packStep lib.text (.deliverViewing id a) w.toPackWorld = some p ∧
            w' = w.packed p (fun _ => a.now.instant) clock
      | .deliverPending limit attempts =>
          w' = w.packed { w.toPackWorld with
            toDelivery := (deliverPending w.transport w.campaigns.list attempts limit
              w.toDelivery).1 } (fun id => (attempts id).now.instant) clock
      | .ingestEvents scanned batch =>
          w'.leads = (ingestEvents lib scanned batch w.emails).1.leads ∧
            w'.changedAt = stampEvents lib scanned batch w.emails w.changedAt
      | .setTransport _ | .configure _ _ _ =>
          w'.leads = w.leads ∧ w'.changedAt = w.changedAt := by
  obtain ⟨clock, hclock, hact⟩ := Option.bind_eq_some_iff.1 h
  refine ⟨clock, hclock, ?_⟩
  cases act with
  | captureLeadCreated slug payload now missed => exact ⟨by cases hact; rfl, by cases hact; rfl⟩
  | deliverPack id a =>
      obtain ⟨p, hp, rfl⟩ := Option.map_eq_some_iff.1 hact
      exact ⟨rfl, p, hp, rfl⟩
  | deliverViewing id a =>
      obtain ⟨p, hp, rfl⟩ := Option.map_eq_some_iff.1 hact
      exact ⟨rfl, p, hp, rfl⟩
  | deliverPending limit attempts => exact ⟨by cases hact; rfl, by cases hact; rfl⟩
  | ingestEvents scanned batch => cases hact; exact ⟨rfl, rfl, rfl⟩
  | setTransport transport => cases hact; exact ⟨rfl, rfl, rfl⟩
  | configure campaignId status config => cases hact; exact ⟨rfl, rfl, rfl⟩

/-- A change made at the one reading of an operation is not after the clock. -/
theorem ScoreWorld.Timely.packed (hw : w.Timely) {p : PackWorld} {now clock : Int}
    (hclock : lastReading w.clock [now] = some clock) : (w.packed p (fun _ => now) clock).Timely := by
  obtain ⟨hle, hreadings⟩ := lastReading_bounds hclock
  intro id
  exact Table.stamp_le (fun _ => now) ((hw id).trans hle)
    (hreadings now (List.mem_singleton_self now)).2

theorem timely_scoreStep (hw : w.Timely) (h : scoreStep lib act w = some w') : w'.Timely := by
  obtain ⟨clock, hclock, hw', hact⟩ := scoreStep_eq_some h
  cases act with
  | captureLeadCreated slug payload now missed => exact hact ▸ hw.packed hclock
  | deliverPack id a =>
      obtain ⟨p, -, rfl⟩ := hact
      exact hw.packed hclock
  | deliverViewing id a =>
      obtain ⟨p, -, rfl⟩ := hact
      exact hw.packed hclock
  | deliverPending limit attempts =>
      obtain ⟨hle, hreadings⟩ := lastReading_bounds hclock
      rw [hact]
      intro id
      by_cases hid : id ∈ (listPendingPackDelivery w.leads limit).map Prod.fst
      · obtain ⟨q, hq, rfl⟩ := List.mem_map.1 hid
        exact Table.stamp_le (fun id => (attempts id).now.instant) ((hw q.1).trans hle)
          (hreadings _ (List.mem_map_of_mem hq)).2
      · -- the sweep does not come to this row
        have hkept := Table.stamp_of_same (fun id => (attempts id).now.instant) w.changedAt
          (deliverPending_rewritten w.transport w.campaigns.list attempts limit w.toDelivery)
          fun q _ hqid => congrArg scoreInputs (by rw [sweptLead, if_neg (hqid ▸ hid)]; rfl)
        exact (le_of_eq hkept).trans ((hw id).trans hle)
  | ingestEvents scanned batch =>
      intro id
      rw [hact.2, hw']
      exact stampEvents_le hw hclock id
  | setTransport transport =>
      intro id
      rw [hact.2, hw']
      exact (hw id).trans (lastReading_bounds hclock).1
  | configure campaignId status config =>
      intro id
      rw [hact.2, hw']
      exact (hw id).trans (lastReading_bounds hclock).1

/-- An operation that leaves the leads alone. -/
theorem scored_packed_same {p : PackWorld} {now : Nat → Int} {clock : Int} (hscored : w.Scored lib)
    (hsame : p.leads = w.leads) : (w.packed p now clock).Scored lib := by
  change (scoreColumn lib.text).AllCurrent p.leads
    (Table.stamp scoreInputs w.leads p.leads now w.changedAt)
  rw [hsame]
  exact CachedColumn.allCurrent_recomputed hscored (Table.rewritten_self fun q _ => rfl)
    fun q _ => Or.inl rfl

/-- A delivery to the lead with the given id. -/
theorem delivery_scored_iff {id : Nat} {now clock : Int} {p : PackWorld}
    (serve : LeadRow → Campaign → Lead) (status : Lead → Campaign → PackStatus)
    (hscored : w.Scored lib)
    (hmissing : leadAndCampaign w.toPackWorld id = none → p = w.toPackWorld)
    (hserved : ∀ row campaign, leadAndCampaign w.toPackWorld id = some (row, campaign) →
      w.leads.update row.1 (serve row campaign) = some p.leads)
    (hdelivers : ∀ row campaign, Delivers row.2 (serve row campaign) (status row.2 campaign)) :
    (w.packed p (fun _ => now) clock).Scored lib ↔
      ∀ row campaign, leadAndCampaign w.toPackWorld id = some (row, campaign) →
        KeepsScore lib row.2 (status row.2 campaign) now := by
  cases hlead : leadAndCampaign w.toPackWorld id with
  | none =>
      refine iff_of_true (scored_packed_same hscored ?_) fun _ _ h => by cases h
      rw [hmissing hlead]
  | some found =>
      obtain ⟨row, campaign⟩ := found
      have hiff := scored_delivery_iff now hscored (leadAndCampaign_eq_some hlead).1
        (hserved row campaign hlead) (hdelivers row campaign)
      refine hiff.trans ⟨fun h row' campaign' heq => ?_, fun h => h row campaign rfl⟩
      rw [Option.some.injEq, Prod.mk.injEq] at heq
      obtain ⟨rfl, rfl⟩ := heq
      exact h

/-- **One step.** An operation keeps the stored scores current exactly when its deliveries keep the
scores of the leads that they serve. -/
theorem scored_scoreStep_iff (hw : w.Timely) (hscored : w.Scored lib)
    (h : scoreStep lib act w = some w') : w'.Scored lib ↔ KeepsScores lib act w := by
  obtain ⟨clock, hclock, -, hact⟩ := scoreStep_eq_some h
  -- captures and events score what they write; a delivery does not
  cases act with
  | captureLeadCreated slug payload now missed =>
      rw [hact]
      refine iff_of_true (scored_captureLeadCreated hscored fun id => ?_) trivial
      exact (hw id).trans
        ((lastReading_bounds hclock).2 _ (List.mem_singleton_self now.instant)).1
  | deliverPack id a =>
      obtain ⟨p, hp, rfl⟩ := hact
      refine delivery_scored_iff
        (fun row campaign => (deliverPack w.transport row.2 campaign a).1)
        (fun l campaign => statusAfterPack w.transport l campaign a.accepted)
        hscored (fun hnone => ?_) (fun row campaign hlead => ?_)
        fun row campaign => delivers_deliverPack w.transport row.2 campaign a
      · simpa only [packStep, hnone, Option.some.injEq] using hp.symm
      · obtain ⟨t', hupdate, hcall⟩ :=
          deliverPackTo_spec w.transport campaign a (leadAndCampaign_eq_some hlead).1
        simp only [packStep, hlead, hcall, Option.some.injEq] at hp
        rw [← hp]
        exact hupdate
  | deliverViewing id a =>
      obtain ⟨p, hp, rfl⟩ := hact
      refine delivery_scored_iff
        (fun row campaign => (deliverViewing w.transport row.2 campaign a).1.getD row.2)
        (fun l campaign => statusAfterViewing w.transport l campaign a.accepted)
        hscored (fun hnone => ?_) (fun row campaign hlead => ?_)
        fun row campaign => delivers_deliverViewing w.transport row.2 campaign a
      · simpa only [packStep, hnone, Option.some.injEq] using hp.symm
      · obtain ⟨t', hupdate, hcall⟩ :=
          deliverViewingTo_spec w.transport campaign a (leadAndCampaign_eq_some hlead).1
        simp only [packStep, hlead, hcall, Option.some.injEq] at hp
        rw [← hp]
        exact hupdate
  | deliverPending limit attempts =>
      rw [hact]
      refine (scored_deliveries_iff (fun id => (attempts id).now.instant) hscored
        (deliverPending_rewritten w.transport w.campaigns.list attempts limit w.toDelivery) ?_).trans
        (forall_sweptLead_iff
          (P := fun q status => KeepsScore lib q.2 status (attempts q.1).now.instant)
          fun q hq => (mem_listPendingPackDelivery hq).1)
      intro q _ r hr
      unfold sweptLead at hr
      split at hr
      · obtain ⟨campaign, -, rfl⟩ := Option.map_eq_some_iff.1 hr
        exact delivers_deliverPack w.transport q.2 campaign (attempts q.1)
      · cases hr
  | ingestEvents scanned batch =>
      refine iff_of_true ?_ trivial
      unfold ScoreWorld.Scored
      rw [hact.1, hact.2]
      exact scored_ingestEvents hscored hw hclock
  | setTransport transport =>
      refine iff_of_true ?_ trivial
      unfold ScoreWorld.Scored
      rw [hact.1, hact.2]
      exact hscored
  | configure campaignId status config =>
      refine iff_of_true ?_ trivial
      unfold ScoreWorld.Scored
      rw [hact.1, hact.2]
      exact hscored

/-- **How fresh the stored scores are.** From a world with current scores and no change after the
clock, a run keeps every stored score one of a time not before the last change of its inputs exactly
when all its deliveries keep the scores. -/
theorem always_scored_iff {acts : List ScoreAct} {w₀ w : ScoreWorld} (hscored : w₀.Scored lib)
    (htimely : w₀.Timely) (hrun : exec (scoreStep lib) acts w₀ = some w) :
    Always (scoreStep lib) (ScoreWorld.Scored lib) acts w₀ ↔
      Guarded (scoreStep lib) (KeepsScores lib) acts w₀ :=
  always_iff_guarded_of_exact (J := ScoreWorld.Timely) (H := fun _ _ => True)
    (fun _ _ _ hw _ h => timely_scoreStep hw h)
    (fun _ _ _ hw hs _ h => scored_scoreStep_iff hw hs h) htimely hscored
    (guarded_of_forall (fun _ _ => trivial) w₀) hrun

/-! ## Ada's score -/

/-- The stand before anybody is captured. -/
def standScores : ScoreWorld where
  toPackWorld := standWorld
  events := Table.empty _
  clock := 0
  changedAt _ := 0

/-- Ada asks for the prospectus. -/
def adaCaptured : ScoreAct :=
  .captureLeadCreated "nog-2026" (packRequest ["Prospectus"]) (utc 0) false

/-- Her pack, with whether the email is accepted. -/
def adaDelivered (accepted : Bool) : ScoreAct := .deliverPack 1 ⟨accepted, utc 1⟩

/-- She opens it. -/
def adaOpened : ScoreAct :=
  .ingestEvents [] [(adaEvent "open" "sg-1" (.num 0) [], ⟨2, 2, 2⟩)]

/-- With the pack on its way the score has the points of no delivery; what it is made of has changed. -/
theorem delivered_pack_not_scored :
    ¬ Always (scoreStep plainLib) (ScoreWorld.Scored plainLib) [adaCaptured, adaDelivered true]
      standScores := by
  intro h
  obtain ⟨time, -, hscore⟩ := h.last rfl _ List.mem_cons_self
  change (2 : Int) = 5 at hscore
  exact absurd hscore (by decide)

/-- A rejected email makes no difference to the score. -/
theorem rejected_pack_scored :
    Always (scoreStep plainLib) (ScoreWorld.Scored plainLib)
      [adaCaptured, adaDelivered false, adaOpened] standScores := by
  refine (always_scored_iff (fun q hq => by cases hq) (fun _ => le_rfl) rfl).2 ?_
  refine ⟨trivial, fun w hw => ⟨?_, fun _ _ => ⟨trivial, fun _ _ => trivial⟩⟩⟩
  cases hw
  intro row campaign hlead
  cases hlead
  exact Or.inr ⟨1, le_rfl, rfl⟩

end SalesTrades.Emails
