import SalesTrades.Emails.Readable
import SalesTrades.Library.Aggregate

/-!
# The rollups of a lead and its event rows

`RollupMatches` says that the open count, the last open and the clicked materials of a lead are the
aggregates of its rows in `email_events`. Every batch keeps it, whatever the events are. For
well-typed events a batch leaves every attributable event recorded (`Settled`), so delivering it
again changes nothing, and the rows do not depend on the order of delivery.
-/

set_option autoImplicit false

namespace SalesTrades.Emails

open SalesTrades.Library SalesTrades.Leads

variable {lib : Lib} {campaigns : List CampaignRow}

/-! ## The rows of a lead -/

/-- The rows of a lead of one type, in the order of the table. -/
def rowsOf (events : EmailEventTable) (leadId : Nat) (eventType : EventType) : List EmailEvent :=
  (events.rows.map Prod.snd).filter fun e => e.leadId == leadId && e.eventType == eventType

theorem mem_rowsOf {events : EmailEventTable} {leadId : Nat} {eventType : EventType}
    {event : EmailEvent} : event ∈ rowsOf events leadId eventType ↔
      event ∈ events.rows.map Prod.snd ∧ event.leadId = leadId ∧ event.eventType = eventType := by
  simp [rowsOf]

/-- The rollup columns of a lead are the aggregates of its rows. -/
structure RollupMatches (events : EmailEventTable) (leadId : Nat) (lead : Lead) : Prop where
  count : lead.packOpenedCount = (rowsOf events leadId .eventOpen).length
  openedAt : lead.packOpenedAt =
    ((rowsOf events leadId .eventOpen).map fun e => e.occurredAt.instant).max?.map utc
  clicked : Distinct (lead.packClickedMaterials.getD []) fun m =>
    m ≠ "" ∧ ∃ e ∈ rowsOf events leadId .eventClick, e.material = some m

/-- What an appended row adds. -/
theorem rowsOf_append {events events' : EmailEventTable} {id : Nat} {event : EmailEvent}
    (h : events'.rows = events.rows ++ [(id, event)]) (leadId : Nat) (eventType : EventType) :
    rowsOf events' leadId eventType = rowsOf events leadId eventType ++
      if event.leadId = leadId ∧ event.eventType = eventType then [event] else [] := by
  unfold rowsOf
  rw [h, List.map_append, List.filter_append]
  congr 1
  by_cases hrow : event.leadId = leadId ∧ event.eventType = eventType
  · simp [hrow]
  · rw [if_neg hrow]
    simpa using hrow

theorem latestOpen_utc (before : Option Int) (m : Int) :
    latestOpen (before.map utc) (utc m) = (later before m).map utc := by
  cases before with
  | none => rfl
  | some b =>
      simp only [Option.map_some, latestOpen, utc_instant, later]
      by_cases h : b < m
      · simp [h]
      · simp [h]

/-- A row about another lead leaves the aggregates alone. -/
theorem RollupMatches.other {events events' : EmailEventTable} {id : Nat} {event : EmailEvent}
    (hrows : events'.rows = events.rows ++ [(id, event)]) {leadId : Nat} {lead : Lead}
    (hother : event.leadId ≠ leadId) (h : RollupMatches events leadId lead) :
    RollupMatches events' leadId lead := by
  have hsame : ∀ eventType, rowsOf events' leadId eventType = rowsOf events leadId eventType := by
    intro eventType
    rw [rowsOf_append hrows, if_neg fun hrow => hother hrow.1, List.append_nil]
  constructor
  · rw [hsame]
    exact h.count
  · rw [hsame]
    exact h.openedAt
  · rw [hsame]
    exact h.clicked

/-- Only an open touches the count and the last open. -/
theorem rolledUp_of_not_open (clock : EventClock) (lead : Lead) {event : EmailEvent}
    (h : event.eventType ≠ .eventOpen) :
    (rolledUp lib clock lead event).packOpenedCount = lead.packOpenedCount ∧
      (rolledUp lib clock lead event).packOpenedAt = lead.packOpenedAt := by
  unfold rolledUp rollup
  cases htype : event.eventType with
  | eventOpen => exact absurd htype h
  | eventClick =>
      cases event.material with
      | none => exact ⟨rfl, rfl⟩
      | some material =>
          dsimp only
          -- the two guards of the click, and the append
          split
          · exact ⟨rfl, rfl⟩
          · split
            · exact ⟨rfl, rfl⟩
            · exact ⟨rfl, rfl⟩
  | _ => exact ⟨rfl, rfl⟩

theorem rolledUp_count (clock : EventClock) (lead : Lead) (event : EmailEvent) :
    (rolledUp lib clock lead event).packOpenedCount =
      lead.packOpenedCount + if event.eventType = .eventOpen then 1 else 0 := by
  by_cases h : event.eventType = .eventOpen
  · simp [rolledUp, rollup, h, scored]
  · rw [(rolledUp_of_not_open clock lead h).1, if_neg h, add_zero]

theorem rolledUp_openedAt (clock : EventClock) (lead : Lead) (event : EmailEvent) :
    (rolledUp lib clock lead event).packOpenedAt =
      if event.eventType = .eventOpen then latestOpen lead.packOpenedAt event.occurredAt
      else lead.packOpenedAt := by
  by_cases h : event.eventType = .eventOpen
  · simp [rolledUp, rollup, h, scored]
  · rw [(rolledUp_of_not_open clock lead h).2, if_neg h]

/-- A click lists its material, if it has one that is not empty and not listed yet. -/
theorem rolledUp_clicked (clock : EventClock) {lead : Lead} {event : EmailEvent}
    {p q : String → Prop} (hd : Distinct (lead.packClickedMaterials.getD []) p)
    (hq : ∀ m, q m ↔ p m ∨ (event.eventType = .eventClick ∧ m ≠ "" ∧ event.material = some m)) :
    Distinct ((rolledUp lib clock lead event).packClickedMaterials.getD []) q := by
  unfold rolledUp rollup
  cases htype : event.eventType with
  | eventClick =>
      simp only [htype, true_and] at hq
      cases hmaterial : event.material with
      | none =>
          apply hd.congr
          intro m
          simp [hq m, hmaterial]
      | some material =>
          -- the empty label is falsy and a listed one is not appended again
          by_cases hempty : material = ""
          · simp only [hempty, if_true, Option.map_none, Option.getD_none]
            apply hd.congr
            intro m
            rw [hq m, or_iff_left]
            rintro ⟨hm, hsome⟩
            rw [hmaterial, hempty, Option.some.injEq] at hsome
            exact hm hsome.symm
          · have hadds : ∀ m, q m ↔ p m ∨ m = material := by
              intro m
              rw [hq m, hmaterial, Option.some.injEq]
              apply or_congr_right
              constructor
              · exact fun hm => hm.2.symm
              · rintro rfl
                exact ⟨hempty, rfl⟩
            by_cases hlisted : material ∈ lead.packClickedMaterials.getD []
            · simp only [hempty, hlisted, if_true, if_false, Option.map_none, Option.getD_none]
              exact hd.append_old hlisted hadds
            · simp only [hempty, hlisted, if_false, Option.map_some, Option.getD_some, scored]
              exact hd.append_new hlisted hadds
  | eventOpen =>
      apply hd.congr
      intro m
      simp [hq m, htype]
  | _ =>
      apply hd.congr
      intro m
      simp [hq m, htype]

/-- **Step.** Rolling up a row about the lead adds it to the aggregates. -/
theorem RollupMatches.rolledUp {events events' : EmailEventTable} {id : Nat} {event : EmailEvent}
    (hrows : events'.rows = events.rows ++ [(id, event)]) {leadId : Nat} {lead : Lead}
    (hlead : event.leadId = leadId) (htime : event.occurredAt = utc event.occurredAt.instant)
    (clock : EventClock) (h : RollupMatches events leadId lead) :
    RollupMatches events' leadId (rolledUp lib clock lead event) := by
  have hnew := rowsOf_append hrows leadId
  simp only [hlead, true_and] at hnew
  constructor
  · rw [rolledUp_count, hnew, h.count, List.length_append]
    split
    · simp
    · simp
  · rw [rolledUp_openedAt, hnew, h.openedAt]
    split
    · rw [List.map_append, List.map_cons, List.map_nil, max?_append_singleton, ← latestOpen_utc,
        ← htime]
    · rw [List.append_nil]
  · apply rolledUp_clicked clock h.clicked
    intro m
    rw [hnew]
    -- an old click row, or the new one
    by_cases htype : event.eventType = .eventClick
    · simp [htype, or_and_right, exists_or, and_or_left]
    · simp [htype]

/-! ## Runs -/

/-- What every event of a batch keeps, the batch keeps, and a failed event only ends it early. -/
theorem ingestEvents_preserves {P : EmailWorld → Prop} {batch : List (PostedEvent × EventClock)}
    (hstep : ∀ x ∈ batch, ∀ w, P w → P (ingestOne lib campaigns x.1 x.2 w).1) {w : EmailWorld}
    (hw : P w) : P (ingestEvents lib campaigns batch w).1 := by
  induction batch generalizing w with
  | nil => exact hw
  | cons x rest ih =>
      obtain ⟨hx, hrest⟩ := List.forall_mem_cons.1 hstep
      have hone := hx w hw
      rcases hingest : ingestOne lib campaigns x.1 x.2 w with ⟨w', r⟩
      rw [hingest] at hone
      cases r with
      | error e =>
          obtain ⟨e', hbatch⟩ := ingestEvents_cons_error hingest
          rw [hbatch]
          exact hone
      | ok processed =>
          rw [ingestEvents_cons_ok hingest]
          exact ih hrest hone

theorem ingestBatches_preserves {P : EmailWorld → Prop}
    {batches : List (List (PostedEvent × EventClock))}
    (hstep : ∀ batch ∈ batches, ∀ x ∈ batch, ∀ w, P w → P (ingestOne lib campaigns x.1 x.2 w).1)
    {w : EmailWorld} (hw : P w) : P (ingestBatches lib campaigns batches w) := by
  induction batches generalizing w with
  | nil => exact hw
  | cons batch batches ih =>
      obtain ⟨hbatch, hbatches⟩ := List.forall_mem_cons.1 hstep
      exact ih hbatches (ingestEvents_preserves hbatch hw)

/-- No event changes the id or the address of a lead. -/
theorem ingestOne_sameLeads {start : LeadTable} (evt : PostedEvent) (clock : EventClock)
    {w : EmailWorld}
    (h : SameLeads start w.leads) :
    SameLeads start (ingestOne lib campaigns evt clock w).1.leads := by
  rcases ingestOne_cases lib campaigns evt clock w with
    ⟨e, -, hingest⟩ | ⟨-, hingest⟩ | ⟨lead, event, w', hattribute, hingest, hstored⟩
  · rw [hingest]
    exact h
  · rw [hingest]
    exact h
  · rw [hingest]
    obtain ⟨_, -, -, -, hread⟩ := attributeEvent_eq_some.1 hattribute
    obtain ⟨-, -, -, hget⟩ := readEvent_row hread
    exact h.trans (hstored.sameLeads hget)

/-- The invariant: the leads are those of the start, their rollups are the aggregates of the rows,
and the rows are what delivered events become. -/
structure Tracks (lib : Lib) (campaigns : List CampaignRow) (start : LeadTable)
    (delivered : List PostedEvent) (w : EmailWorld) : Prop where
  sameLeads : SameLeads start w.leads
  rollups : ∀ leadId lead, w.leads.get? leadId = some (leadId, lead) →
    RollupMatches w.events leadId lead
  rows : ∀ event ∈ w.events.rows.map Prod.snd,
    ∃ evt ∈ delivered, Becomes lib campaigns start evt event

/-- **Step lemma.** Every event keeps the invariant, whether it is recorded, skipped or fails. -/
theorem ingestOne_tracks {start : LeadTable} {delivered : List PostedEvent} {evt : PostedEvent}
    (hevt : evt ∈ delivered) (clock : EventClock) {w : EmailWorld}
    (h : Tracks lib campaigns start delivered w) :
    Tracks lib campaigns start delivered (ingestOne lib campaigns evt clock w).1 := by
  rcases ingestOne_cases lib campaigns evt clock w with
    ⟨e, -, hingest⟩ | ⟨-, hingest⟩ | ⟨lead, event, w', hattribute, hingest, hstored⟩
  · rw [hingest]
    exact h
  · rw [hingest]
    exact h
  · rw [hingest]
    obtain ⟨members, rfl, hkey, -, hread⟩ := attributeEvent_eq_some.1 hattribute
    obtain ⟨-, hleadId, ⟨m, hm⟩, hget⟩ := readEvent_row hread
    have htime : event.occurredAt = utc event.occurredAt.instant := by rw [hm, utc_instant]
    constructor
    · exact h.sameLeads.trans (hstored.sameLeads hget)
    · intro leadId l hl
      rw [hstored.leads leadId, Option.map_eq_some_iff] at hl
      obtain ⟨q, hq, hql⟩ := hl
      obtain ⟨-, hqid⟩ := Table.mem_of_get? hq
      -- the lead the event is about, and the others
      by_cases hsame : q.1 = lead.1
      · rw [if_pos hsame, Prod.mk.injEq] at hql
        obtain ⟨hid, rfl⟩ := hql
        rw [← hid] at hq ⊢
        exact (h.rollups lead.1 lead.2 hget).rolledUp hstored.events hleadId htime clock
      · rw [if_neg hsame] at hql
        subst hql
        exact (h.rollups leadId l hq).other hstored.events fun heq =>
          hsame (heq.symm.trans hleadId)
    · intro made hmade
      rw [hstored.events, List.map_append, List.mem_append] at hmade
      rcases hmade with hold | hnew
      · exact h.rows made hold
      · rw [List.map_singleton, List.mem_singleton] at hnew
        subst hnew
        have hbecomes : Becomes lib campaigns w.leads (.obj members) made :=
          ⟨members, clock.received, lead, rfl, hkey, hread⟩
        exact ⟨.obj members, hevt, h.sameLeads.symm.becomes hbecomes⟩

/-- The events of the batches, in the order of delivery. -/
def eventsOf (batches : List (List (PostedEvent × EventClock))) : List PostedEvent :=
  batches.flatten.map Prod.fst

theorem mem_eventsOf {batches : List (List (PostedEvent × EventClock))} {evt : PostedEvent} :
    evt ∈ eventsOf batches ↔ ∃ batch ∈ batches, ∃ x ∈ batch, x.1 = evt := by
  simp only [eventsOf, List.mem_map, List.mem_flatten]
  constructor
  · rintro ⟨x, ⟨batch, hbatch, hx⟩, rfl⟩
    exact ⟨batch, hbatch, x, hx, rfl⟩
  · rintro ⟨batch, hbatch, x, hx, rfl⟩
    exact ⟨x, ⟨batch, hbatch, hx⟩, rfl⟩

/-- Leads without events. -/
structure Fresh (w : EmailWorld) : Prop where
  events : w.events.rows = []
  leads : ∀ row ∈ w.leads.rows, row.2.packOpenedCount = 0 ∧ row.2.packOpenedAt = none ∧
    row.2.packClickedMaterials = none

theorem Fresh.tracks {w : EmailWorld} (h : Fresh w) (delivered : List PostedEvent) :
    Tracks lib campaigns w.leads delivered w := by
  have hnone : ∀ leadId eventType, rowsOf w.events leadId eventType = [] := by
    intro leadId eventType
    rw [rowsOf, h.events]
    rfl
  constructor
  · exact SameLeads.refl _
  · intro leadId lead hget
    obtain ⟨hcount, hopened, hclicked⟩ := h.leads _ (Table.mem_of_get? hget).1
    constructor
    · rw [hnone, hcount]
      rfl
    · rw [hnone, hopened]
      rfl
    · rw [hclicked]
      apply Distinct.nil
      intro m
      simp [hnone]
  · intro event hevent
    rw [h.events] at hevent
    cases hevent

/-- **Run lemma.** -/
theorem ingestBatches_tracks {w : EmailWorld} (h : Fresh w)
    (batches : List (List (PostedEvent × EventClock))) :
    Tracks lib campaigns w.leads (eventsOf batches) (ingestBatches lib campaigns batches w) := by
  apply ingestBatches_preserves
  · intro batch hbatch x hx w' hw'
    exact ingestOne_tracks (mem_eventsOf.2 ⟨batch, hbatch, x, hx, rfl⟩) x.2 hw'
  · exact h.tracks _

/-! ## Delivering again -/

/-- A well-typed event is an object with well-typed fields. -/
def WellTypedEvent (lib : Lib) (evt : PostedEvent) : Prop :=
  ∃ members, evt = .obj members ∧ WellTyped lib members

/-- If the event is about a lead, it is recorded. -/
def Settled (lib : Lib) (campaigns : List CampaignRow) (start : LeadTable) (evt : PostedEvent)
    (w : EmailWorld) : Prop :=
  ∀ event, Becomes lib campaigns start evt event → Recorded w.events event.sgEventId

/-- No event removes a row. -/
theorem ingestOne_recorded (evt : PostedEvent) (clock : EventClock) {w : EmailWorld}
    {sgEventId : String}
    (h : Recorded w.events sgEventId) :
    Recorded (ingestOne lib campaigns evt clock w).1.events sgEventId := by
  rcases ingestOne_cases lib campaigns evt clock w with
    ⟨e, -, hingest⟩ | ⟨-, hingest⟩ | ⟨lead, event, w', -, hingest, hstored⟩
  · rw [hingest]
    exact h
  · rw [hingest]
    exact h
  · rw [hingest]
    exact hstored.recorded.2 (Or.inl h)

theorem ingestOne_settled {start : LeadTable} {evt : PostedEvent} (evt' : PostedEvent)
    (clock : EventClock) {w : EmailWorld} (h : Settled lib campaigns start evt w) :
    Settled lib campaigns start evt (ingestOne lib campaigns evt' clock w).1 :=
  fun event hbecomes => ingestOne_recorded evt' clock (h event hbecomes)

/-- An event that is attributed becomes its row. -/
theorem becomes_of_attributeEvent {start : LeadTable} {evt : PostedEvent} {received : Int}
    {w : EmailWorld} {lead : LeadRow} {event : EmailEvent} (hsame : SameLeads start w.leads)
    (h : attributeEvent lib campaigns received w evt = .ok (some (lead, event))) :
    Becomes lib campaigns start evt event ∧ ¬ Recorded w.events event.sgEventId := by
  obtain ⟨members, hevt, hkey, hnew, hread⟩ := attributeEvent_eq_some.1 h
  have hbecomes : Becomes lib campaigns w.leads evt event :=
    ⟨members, received, lead, hevt, hkey, hread⟩
  exact ⟨hsame.symm.becomes hbecomes, hnew⟩

/-- An event that becomes a row is attributed, unless it is recorded already. -/
theorem attributeEvent_of_becomes {start : LeadTable} {evt : PostedEvent} {w : EmailWorld}
    {event : EmailEvent} (hsame : SameLeads start w.leads) (received : Int)
    (h : Becomes lib campaigns start evt event) (hnew : ¬ Recorded w.events event.sgEventId) :
    ∃ lead event', attributeEvent lib campaigns received w evt = .ok (some (lead, event')) := by
  obtain ⟨members, received', lead, rfl, hkey, hread⟩ := hsame.becomes h
  obtain ⟨event', hread'⟩ := readEvent_any_time received hread
  obtain ⟨hsamekey, -, -, -⟩ := readEvent_row hread'
  refine ⟨lead, event', attributeEvent_eq_some.2 ⟨members, rfl, ?_, ?_, ?_⟩⟩
  · rw [hsamekey]
    exact hkey
  · have hid : event'.sgEventId = event.sgEventId := congrArg EventKey.sgEventId hsamekey
    rw [hid]
    exact hnew
  · rw [hsamekey]
    exact hread'

/-- An event that does not fail is settled, and one that is settled changes nothing. -/
theorem ingestOne_of_ok {start : LeadTable} {evt : PostedEvent} {clock : EventClock} {w : EmailWorld}
    (hsame : SameLeads start w.leads)
    (hok : ∃ r, attributeEvent lib campaigns clock.received w evt = .ok r) :
    (∃ processed, (ingestOne lib campaigns evt clock w).2 = .ok processed) ∧
    Settled lib campaigns start evt (ingestOne lib campaigns evt clock w).1 ∧
    (Settled lib campaigns start evt w → ingestOne lib campaigns evt clock w = (w, .ok false)) := by
  obtain ⟨r, hr⟩ := hok
  rcases ingestOne_cases lib campaigns evt clock w with
    ⟨e, hattribute, -⟩ | ⟨hattribute, hingest⟩ | ⟨lead, event, w', hattribute, hingest, hstored⟩
  · rw [hattribute] at hr
    cases hr
  · rw [hingest]
    refine ⟨⟨false, rfl⟩, ?_, fun _ => rfl⟩
    intro event hbecomes
    by_contra hnew
    obtain ⟨lead, event', hsome⟩ := attributeEvent_of_becomes hsame clock.received hbecomes hnew
    rw [hattribute] at hsome
    cases hsome
  · rw [hingest]
    obtain ⟨hbecomes, hnew⟩ := becomes_of_attributeEvent hsame hattribute
    refine ⟨⟨true, rfl⟩, ?_, fun hsettled => absurd (hsettled event hbecomes) hnew⟩
    intro event' hbecomes'
    apply hstored.recorded.2
    right
    rw [hbecomes.unique hbecomes']

/-- A batch of settled well-typed events changes nothing. -/
theorem ingestEvents_settled {start : LeadTable} {batch : List (PostedEvent × EventClock)}
    {w : EmailWorld} (hassets : ∀ campaign ∈ campaigns, ReadableAssets campaign)
    (hsame : SameLeads start w.leads) (htyped : ∀ x ∈ batch, WellTypedEvent lib x.1)
    (hsettled : ∀ x ∈ batch, Settled lib campaigns start x.1 w) :
    ingestEvents lib campaigns batch w = (w, .ok 0) := by
  induction batch with
  | nil => rfl
  | cons x rest ih =>
      obtain ⟨hx, hrest⟩ := List.forall_mem_cons.1 htyped
      obtain ⟨hxs, hrests⟩ := List.forall_mem_cons.1 hsettled
      obtain ⟨members, hevt, hmembers⟩ := hx
      have hok : ∃ r, attributeEvent lib campaigns x.2.received w x.1 = .ok r := by
        rw [hevt]
        exact attributeEvent_ok_iff.2 (hmembers.readable hassets w)
      have hone := (ingestOne_of_ok hsame hok).2.2 hxs
      rw [ingestEvents_cons_ok hone, ih hrest hrests]
      rfl

/-- A batch of well-typed events goes through and leaves each of them settled. -/
theorem ingestEvents_settles {start : LeadTable} {batch : List (PostedEvent × EventClock)}
    {w : EmailWorld} (hassets : ∀ campaign ∈ campaigns, ReadableAssets campaign)
    (hsame : SameLeads start w.leads) (htyped : ∀ x ∈ batch, WellTypedEvent lib x.1) :
    ∀ x ∈ batch, Settled lib campaigns start x.1 (ingestEvents lib campaigns batch w).1 := by
  induction batch generalizing w with
  | nil => simp
  | cons x rest ih =>
      obtain ⟨⟨members, hevt, hmembers⟩, hrest⟩ := List.forall_mem_cons.1 htyped
      have hok : ∃ r, attributeEvent lib campaigns x.2.received w x.1 = .ok r := by
        rw [hevt]
        exact attributeEvent_ok_iff.2 (hmembers.readable hassets w)
      obtain ⟨⟨processed, hprocessed⟩, hx, -⟩ := ingestOne_of_ok hsame hok
      have hnext : SameLeads start (ingestOne lib campaigns x.1 x.2 w).1.leads :=
        ingestOne_sameLeads x.1 x.2 hsame
      rcases hingest : ingestOne lib campaigns x.1 x.2 w with ⟨w', r⟩
      rw [hingest] at hprocessed hx hnext
      subst hprocessed
      rw [ingestEvents_cons_ok hingest]
      intro y hy
      rcases List.mem_cons.1 hy with rfl | hy
      · -- the rest of the batch leaves the first event settled
        apply ingestEvents_preserves (P := Settled lib campaigns start y.1)
        · intro z _ w hw
          exact ingestOne_settled z.1 z.2 hw
        · exact hx
      · exact ih hnext hrest y hy

/-- After the batches every delivered event is settled. -/
theorem ingestBatches_settles {start : LeadTable} {batches : List (List (PostedEvent × EventClock))}
    {w : EmailWorld} (hassets : ∀ campaign ∈ campaigns, ReadableAssets campaign)
    (hsame : SameLeads start w.leads)
    (htyped : ∀ batch ∈ batches, ∀ x ∈ batch, WellTypedEvent lib x.1) :
    ∀ evt ∈ eventsOf batches,
      Settled lib campaigns start evt (ingestBatches lib campaigns batches w) := by
  induction batches generalizing w with
  | nil => simp [eventsOf]
  | cons batch batches ih =>
      obtain ⟨hbatch, hbatches⟩ := List.forall_mem_cons.1 htyped
      have hnext : SameLeads start (ingestEvents lib campaigns batch w).1.leads := by
        apply ingestEvents_preserves (P := fun w => SameLeads start w.leads)
        · intro x _ w hw
          exact ingestOne_sameLeads x.1 x.2 hw
        · exact hsame
      intro evt hevt
      have hsplit : evt ∈ batch.map Prod.fst ∨ evt ∈ eventsOf batches := by
        simpa [eventsOf, or_and_right, exists_or] using hevt
      rcases hsplit with hfirst | hrest
      · obtain ⟨x, hx, rfl⟩ := List.mem_map.1 hfirst
        have hone : Settled lib campaigns start x.1 (ingestEvents lib campaigns batch w).1 :=
          ingestEvents_settles hassets hsame hbatch x hx
        have hlater : Settled lib campaigns start x.1
            (ingestBatches lib campaigns batches (ingestEvents lib campaigns batch w).1) :=
          ingestBatches_preserves (fun _ _ y _ _ hw => ingestOne_settled y.1 y.2 hw) hone
        exact hlater
      · exact ih hnext hbatches evt hrest

/-! ## Any order -/

/-- An id identifies an event. -/
def SgIdsIdentify (evts : Set PostedEvent) : Prop :=
  ∀ a b : SendgridEvent, .obj a ∈ evts → .obj b ∈ evts → (a.get "sg_event_id").truthy = true →
    a.get "sg_event_id" = b.get "sg_event_id" → a = b

/-- The event carries a time stamp. -/
def Stamped (evt : PostedEvent) : Prop :=
  ∀ members : SendgridEvent, evt = .obj members → (members.get "timestamp").truthy = true

/-- Two delivered events with rows of the same id are the same event. -/
theorem SgIdsIdentify.eq {start : LeadTable} {evts : Set PostedEvent} (hids : SgIdsIdentify evts)
    {evt evt' : PostedEvent} {event event' : EmailEvent} (hevt : evt ∈ evts) (hevt' : evt' ∈ evts)
    (h : Becomes lib campaigns start evt event) (h' : Becomes lib campaigns start evt' event')
    (hsame : event.sgEventId = event'.sgEventId) : evt = evt' := by
  obtain ⟨a, _, _, rfl, ha, -⟩ := h
  obtain ⟨b, _, _, rfl, hb, -⟩ := h'
  have hka := hasKey_iff.2 ha
  have hkb := hasKey_iff.2 hb
  congr 1
  apply hids a b hevt hevt'
  · rw [hka.sgEventId]
    simpa [Json.truthy] using hka.ne_empty
  · rw [hka.sgEventId, hkb.sgEventId]
    exact congrArg Json.str hsame

/-- The rows at the end are what the delivered events become. -/
theorem mem_rows_iff {start : LeadTable} {delivered : List PostedEvent} {w : EmailWorld}
    (htracks : Tracks lib campaigns start delivered w)
    (hsettled : ∀ evt ∈ delivered, Settled lib campaigns start evt w)
    (hids : SgIdsIdentify {evt | evt ∈ delivered}) (hstamped : ∀ evt ∈ delivered, Stamped evt)
    {event : EmailEvent} : event ∈ w.events.rows.map Prod.snd ↔
      ∃ evt ∈ delivered, Becomes lib campaigns start evt event := by
  constructor
  · exact htracks.rows event
  · rintro ⟨evt, hevt, hbecomes⟩
    -- the id is recorded, by an event that can only be the same one
    obtain ⟨row, hrow, hid⟩ := hsettled evt hevt event hbecomes
    have hmem : row.2 ∈ w.events.rows.map Prod.snd := List.mem_map_of_mem hrow
    obtain ⟨evt', hevt', hbecomes'⟩ := htracks.rows row.2 hmem
    have hsame : evt = evt' := hids.eq hevt hevt' hbecomes hbecomes' hid.symm
    subst hsame
    rw [← hbecomes.unique_of_stamped hbecomes' (hstamped evt hevt)]
    exact hmem

/-- The unique index: no event has two rows. -/
theorem events_nodup (t : EmailEventTable) : (t.rows.map Prod.snd).Nodup := by
  apply List.pairwise_map.2
  apply t.unique.imp
  intro a b hkey heq
  apply hkey a.2.sgEventId rfl
  rw [heq]
  rfl

/-- Rollups of tables with the same rows. -/
theorem RollupMatches.agree {events events' : EmailEventTable}
    (hrows : ∀ event, event ∈ events.rows.map Prod.snd ↔ event ∈ events'.rows.map Prod.snd)
    {leadId : Nat} {lead lead' : Lead} (h : RollupMatches events leadId lead)
    (h' : RollupMatches events' leadId lead') :
    lead'.packOpenedCount = lead.packOpenedCount ∧ lead'.packOpenedAt = lead.packOpenedAt ∧
      ∀ m, m ∈ lead'.packClickedMaterials.getD [] ↔ m ∈ lead.packClickedMaterials.getD [] := by
  have hsame : ∀ eventType event,
      event ∈ rowsOf events' leadId eventType ↔ event ∈ rowsOf events leadId eventType := by
    intro eventType event
    rw [mem_rowsOf, mem_rowsOf, hrows event]
  refine ⟨?_, ?_, ?_⟩
  · have hperm : (rowsOf events' leadId .eventOpen).Perm (rowsOf events leadId .eventOpen) :=
      (List.perm_ext_iff_of_nodup ((events_nodup events').filter _)
        ((events_nodup events).filter _)).2 (hsame .eventOpen)
    rw [h.count, h'.count, hperm.length_eq]
  · rw [h.openedAt, h'.openedAt]
    congr 1
    apply max?_eq_of_same_members
    intro m
    simp only [List.mem_map, hsame]
  · intro m
    rw [h.clicked.mem_iff, h'.clicked.mem_iff]
    simp only [hsame]

/-- After the batches, delivering one of them again changes nothing. -/
theorem redelivery_idle {batches : List (List (PostedEvent × EventClock))} {w : EmailWorld}
    (hassets : ∀ campaign ∈ campaigns, ReadableAssets campaign) (hstart : Fresh w)
    (htyped : ∀ batch ∈ batches, ∀ x ∈ batch, WellTypedEvent lib x.1)
    {batch again : List (PostedEvent × EventClock)} (hbatch : batch ∈ batches)
    (hagain : again.map Prod.fst = batch.map Prod.fst) :
    ingestEvents lib campaigns again (ingestBatches lib campaigns batches w) =
      (ingestBatches lib campaigns batches w, .ok 0) := by
  have htracks : Tracks lib campaigns w.leads (eventsOf batches)
      (ingestBatches lib campaigns batches w) := ingestBatches_tracks hstart batches
  have hsettled : ∀ evt ∈ eventsOf batches,
      Settled lib campaigns w.leads evt (ingestBatches lib campaigns batches w) :=
    ingestBatches_settles hassets (SameLeads.refl w.leads) htyped
  -- the events are those of the batch, at other times
  have hsource : ∀ x ∈ again, ∃ y ∈ batch, y.1 = x.1 := by
    intro x hx
    rw [← List.mem_map, ← hagain]
    exact List.mem_map_of_mem hx
  apply ingestEvents_settled hassets htracks.sameLeads
  · intro x hx
    obtain ⟨y, hy, hyx⟩ := hsource x hx
    rw [← hyx]
    exact htyped batch hbatch y hy
  · intro x hx
    obtain ⟨y, hy, hyx⟩ := hsource x hx
    rw [← hyx]
    exact hsettled y.1 (mem_eventsOf.2 ⟨batch, hbatch, y, hy, rfl⟩)

/-- The rows after well-typed events with time stamps do not depend on how they were delivered. -/
theorem rows_of_perm {batches reordered : List (List (PostedEvent × EventClock))} {w : EmailWorld}
    (hassets : ∀ campaign ∈ campaigns, ReadableAssets campaign) (hstart : Fresh w)
    (htyped : ∀ batch ∈ batches, ∀ x ∈ batch, WellTypedEvent lib x.1)
    (hids : SgIdsIdentify {evt | evt ∈ eventsOf batches})
    (hstamped : ∀ evt ∈ eventsOf batches, Stamped evt)
    (hperm : (eventsOf reordered).Perm (eventsOf batches)) (event : EmailEvent) :
    event ∈ (ingestBatches lib campaigns reordered w).events.rows.map Prod.snd ↔
      ∃ evt ∈ eventsOf batches, Becomes lib campaigns w.leads evt event := by
  have hmem : ∀ evt, evt ∈ eventsOf reordered ↔ evt ∈ eventsOf batches := fun evt => hperm.mem_iff
  have htyped' : ∀ batch ∈ reordered, ∀ x ∈ batch, WellTypedEvent lib x.1 := by
    intro batch hbatch x hx
    have hx' : x.1 ∈ eventsOf reordered := mem_eventsOf.2 ⟨batch, hbatch, x, hx, rfl⟩
    obtain ⟨b, hb, y, hy, hyx⟩ := mem_eventsOf.1 ((hmem x.1).1 hx')
    rw [← hyx]
    exact htyped b hb y hy
  have hids' : SgIdsIdentify {evt | evt ∈ eventsOf reordered} := by
    intro a b ha hb
    exact hids a b ((hmem _).1 ha) ((hmem _).1 hb)
  have hstamped' : ∀ evt ∈ eventsOf reordered, Stamped evt := by
    intro evt hevt
    exact hstamped evt ((hmem evt).1 hevt)
  rw [mem_rows_iff (ingestBatches_tracks hstart reordered)
    (ingestBatches_settles hassets (SameLeads.refl w.leads) htyped') hids' hstamped']
  simp only [hmem]

/-- **The rollups equal the event table.** After any batches the open count, the last open and the
clicked materials of every lead are the aggregates of its rows, where a material is listed when its
label is not empty. For well-typed events, where the assets of the campaigns are objects, delivering
any of the batches again changes nothing, and with time stamps a permutation of the events leads to
the same rollups. -/
theorem rollups_equal_rows (lib : Lib) (campaigns : List CampaignRow)
    (batches : List (List (PostedEvent × EventClock))) (w : EmailWorld) (hstart : Fresh w) :
    (∀ leadId lead,
      (ingestBatches lib campaigns batches w).leads.get? leadId = some (leadId, lead) →
      RollupMatches (ingestBatches lib campaigns batches w).events leadId lead) ∧
    ((∀ campaign ∈ campaigns, ReadableAssets campaign) →
      (∀ batch ∈ batches, ∀ x ∈ batch, WellTypedEvent lib x.1) →
      (∀ batch ∈ batches, ∀ again, again.map Prod.fst = batch.map Prod.fst →
        ingestEvents lib campaigns again (ingestBatches lib campaigns batches w) =
          (ingestBatches lib campaigns batches w, .ok 0)) ∧
      (SgIdsIdentify {evt | evt ∈ eventsOf batches} → (∀ evt ∈ eventsOf batches, Stamped evt) →
        ∀ reordered, (eventsOf reordered).Perm (eventsOf batches) →
        ∀ leadId lead lead',
          (ingestBatches lib campaigns batches w).leads.get? leadId = some (leadId, lead) →
          (ingestBatches lib campaigns reordered w).leads.get? leadId = some (leadId, lead') →
          lead'.packOpenedCount = lead.packOpenedCount ∧ lead'.packOpenedAt = lead.packOpenedAt ∧
            ∀ m, m ∈ lead'.packClickedMaterials.getD [] ↔
              m ∈ lead.packClickedMaterials.getD [])) := by
  -- one invariant for all batches; the rest compares two of its instances
  have htracks : ∀ delivered, Tracks lib campaigns w.leads (eventsOf delivered)
      (ingestBatches lib campaigns delivered w) := ingestBatches_tracks hstart
  refine ⟨(htracks batches).rollups, ?_⟩
  intro hassets htyped
  constructor
  · intro batch hbatch again hagain
    exact redelivery_idle hassets hstart htyped hbatch hagain
  · intro hids hstamped reordered hperm leadId lead lead' hlead hlead'
    apply ((htracks batches).rollups leadId lead hlead).agree _
      ((htracks reordered).rollups leadId lead' hlead')
    intro event
    rw [rows_of_perm hassets hstart htyped hids hstamped (List.Perm.refl _),
      rows_of_perm hassets hstart htyped hids hstamped hperm]

theorem oneLead_fresh : Fresh oneLead where
  events := rfl
  leads := by
    rw [oneLead_rows]
    simp [newLead]

/-- An event of Ada's with a time stamp in seconds and a link is well typed. -/
theorem adaEvent_wellTyped (event sgEventId : String) (seconds : ℚ) (url : Json)
    (hid : isText sgEventId = true) (hurl : IsTextField url) :
    WellTypedEvent plainLib (adaEvent event sgEventId (.num seconds) [("url", url)]) := by
  refine ⟨_, rfl, ?_⟩
  exact
    { event := Or.inr ⟨event, rfl⟩
      sgEventId := Or.inr ⟨sgEventId, rfl, hid⟩
      leadId :=
        { int := by
            rintro s hs - -
            cases hs
            exact ⟨1, rfl⟩
          range := by
            intro leadId hnames
            have hone : leadIdOf plainLib (.plain (.str "1")) = .ok (some leadId) :=
              leadIdOf_eq_some.2 hnames
            have hid : leadId = 1 := by
              have hval : leadIdOf plainLib (.plain (.str "1")) = .ok (some 1) := rfl
              rw [hval] at hone
              cases hone
              rfl
            rw [hid]
            decide }
      email := Or.inr ⟨"ada@x.ng", rfl⟩
      timestamp := fun _ => ⟨_, rfl⟩
      emailKind := Or.inl rfl
      url := hurl
      sgMessageId := Or.inl rfl }

/-- Ada opens twice; the first open is delivered twice. -/
def twoOpens : List (List (PostedEvent × EventClock)) :=
  [[(adaEvent "open" "e1" (.num 60) [("url", .null)], midnight),
      (adaEvent "open" "e2" (.num 30) [("url", .null)], midnight)],
    [(adaEvent "open" "e1" (.num 60) [("url", .null)], midnight)]]

/-- The same events, the later delivery first. -/
def twoOpensReordered : List (List (PostedEvent × EventClock)) := twoOpens.reverse

theorem two_opens_rolled_up :
    (((ingestBatches plainLib [] twoOpens oneLead).leads.get? 1).map fun row =>
      (row.2.packOpenedCount, row.2.packOpenedAt)) = some (2, some (utc 60000000)) ∧
    (∀ leadId lead,
      (ingestBatches plainLib [] twoOpens oneLead).leads.get? leadId = some (leadId, lead) →
      RollupMatches (ingestBatches plainLib [] twoOpens oneLead).events leadId lead) ∧
    (∀ batch ∈ twoOpens, ingestEvents plainLib [] batch (ingestBatches plainLib [] twoOpens oneLead) =
      (ingestBatches plainLib [] twoOpens oneLead, .ok 0)) ∧
    ∀ lead lead',
      (ingestBatches plainLib [] twoOpens oneLead).leads.get? 1 = some (1, lead) →
      (ingestBatches plainLib [] twoOpensReordered oneLead).leads.get? 1 = some (1, lead') →
      lead'.packOpenedCount = lead.packOpenedCount := by
  have htyped : ∀ batch ∈ twoOpens, ∀ x ∈ batch, WellTypedEvent plainLib x.1 := by
    have hopen : ∀ sgEventId seconds, isText sgEventId = true →
        WellTypedEvent plainLib (adaEvent "open" sgEventId (.num seconds) [("url", .null)]) :=
      fun sgEventId seconds hid =>
        adaEvent_wellTyped "open" sgEventId seconds .null hid (Or.inl rfl)
    simp only [twoOpens, List.forall_mem_cons, List.not_mem_nil, false_implies, implies_true,
      and_true]
    exact ⟨⟨hopen "e1" 60 rfl, hopen "e2" 30 rfl⟩, hopen "e1" 60 rfl⟩
  have hevents : eventsOf twoOpens =
      [adaEvent "open" "e1" (.num 60) [("url", .null)], adaEvent "open" "e2" (.num 30) [("url", .null)],
        adaEvent "open" "e1" (.num 60) [("url", .null)]] := rfl
  have hids : SgIdsIdentify {evt | evt ∈ eventsOf twoOpens} := by
    intro a b ha hb _ hsame
    simp only [Set.mem_ofPred_eq, hevents, adaEvent, List.mem_cons, PostedEvent.obj.injEq,
      List.not_mem_nil, or_false] at ha hb
    rcases ha with rfl | rfl | rfl <;> rcases hb with rfl | rfl | rfl <;>
      first | rfl | exact absurd hsame (by decide)
  have hstamped : ∀ evt ∈ eventsOf twoOpens, Stamped evt := by
    intro evt hevt members hmembers
    simp only [hevents, adaEvent, List.mem_cons, List.not_mem_nil, or_false] at hevt
    rcases hevt with rfl | rfl | rfl <;>
      · rw [PostedEvent.obj.injEq] at hmembers
        subst hmembers
        rfl
  have hperm : (eventsOf twoOpensReordered).Perm (eventsOf twoOpens) := by
    decide +kernel
  obtain ⟨hrollups, hrest⟩ := rollups_equal_rows plainLib [] twoOpens oneLead oneLead_fresh
  obtain ⟨hidle, hreordered⟩ := hrest (by simp) htyped
  refine ⟨by decide +kernel, hrollups, ?_, ?_⟩
  · intro batch hbatch
    exact hidle batch hbatch batch rfl
  · intro lead lead' hlead hlead'
    exact (hreordered hids hstamped twoOpensReordered hperm 1 lead lead' hlead hlead').1

/-! ## An empty label -/

/-- A campaign whose only document has no label. -/
def blankLabel : CampaignRow where
  id := 1
  config := .obj [("materials_assets", .obj [("", .str "https://a/p.pdf")])]

/-- Ada clicks the link. -/
def blankClick : List (List (PostedEvent × EventClock)) :=
  [[(adaEvent "click" "e1" (.num 60) [("url", .str "https://a/p.pdf")], midnight)]]

/-- The row has a material, the empty label, that the rollup does not list. -/
theorem blank_label_not_listed :
    Fresh oneLead ∧ (∀ batch ∈ blankClick, ∀ x ∈ batch, WellTypedEvent plainLib x.1) ∧
    SgIdsIdentify {evt | evt ∈ eventsOf blankClick} ∧
    ¬ ∀ leadId lead m,
      (ingestBatches plainLib [blankLabel] blankClick oneLead).leads.get? leadId =
        some (leadId, lead) →
      (m ∈ lead.packClickedMaterials.getD [] ↔
        ∃ e ∈ rowsOf (ingestBatches plainLib [blankLabel] blankClick oneLead).events leadId
          .eventClick,
          e.material = some m) := by
  refine ⟨oneLead_fresh, ?_, ?_, ?_⟩
  · simp only [blankClick, List.forall_mem_cons, List.not_mem_nil, false_implies, implies_true,
      and_true]
    exact adaEvent_wellTyped "click" "e1" 60 (.str "https://a/p.pdf") rfl (Or.inr ⟨_, rfl, rfl⟩)
  · intro a b ha hb _ _
    simp only [Set.mem_ofPred_eq, eventsOf, blankClick, adaEvent, List.flatten_cons,
      List.flatten_nil, List.map_cons, List.map_nil, List.append_nil, List.mem_singleton,
      PostedEvent.obj.injEq] at ha hb
    rw [ha, hb]
  · intro h
    have hget : (ingestBatches plainLib [blankLabel] blankClick oneLead).leads.get? 1 =
        some (1, newLead 1 "ada@x.ng") := rfl
    have hlisted := (h 1 _ "" hget).2 (by decide +kernel)
    cases hlisted

end SalesTrades.Emails
