import SalesTrades.Emails.IngestCalls

/-!
# Opens under concurrent deliveries

Any number of webhook requests, interleaved, some of which die and are delivered again. Every open
event ends up in the table once, because of the unique index (`openIds_ncard`). The counter on the
lead is another matter: it is read before the row is committed and written after, in a commit of its
own. It counts every open once in runs in which no rollup of an open is lost to a crash or written
over another (`opens_counted_once`); otherwise an open is lost for good (`concurrent_open_lost`,
`crashed_open_lost`).
-/

set_option autoImplicit false

namespace SalesTrades.Emails

open SalesTrades.Library SalesTrades.Library.Run SalesTrades.Library.Interleaving SalesTrades.Leads

universe u

variable {ι : Type u} [DecidableEq ι] {lib : Lib} {campaigns : List CampaignRow} {start : LeadTable}
  {batch : ι → List PostedEvent} {c c' : Config ι EmailWorld IngestPhase} {e : ι × Tick}

/-- The condition on a step: a rollup of an open that is committed finds the count it was computed
from, and does not die instead. -/
def CountsOnce (e : ι × Tick) (c : Config ι EmailWorld IngestPhase) : Prop :=
  match c.proc e.1 with
  | .committed lead event _ => event.eventType = .eventOpen → e.2.crash = false ∧
      (c.shared.leads.get? lead.1).map (fun row => row.2.packOpenedCount) =
        some lead.2.packOpenedCount
  | _ => True

instance (e : ι × Tick) (c : Config ι EmailWorld IngestPhase) : Decidable (CountsOnce e c) := by
  unfold CountsOnce
  split <;> infer_instance

/-- The open whose row is committed and whose rollup is not. -/
def IngestPhase.inHand : IngestPhase → List String
  | .committed _ event _ => if event.eventType = .eventOpen then [event.sgEventId] else []
  | _ => []

/-- An open of the lead is recorded under this id. -/
def OpenRow (events : EmailEventTable) (leadId : Nat) (sgEventId : String) : Prop :=
  ∃ event ∈ events.rows.map Prod.snd, event.eventType = .eventOpen ∧ event.leadId = leadId ∧
    event.sgEventId = sgEventId

/-- The ids of the open events about a lead in the batches. -/
def openIds (lib : Lib) (campaigns : List CampaignRow) (start : LeadTable)
    (batch : ι → List PostedEvent) (leadId : Nat) : Set String :=
  {sgEventId | ∃ i, ∃ evt ∈ batch i, ∃ event, Becomes lib campaigns start evt event ∧
    event.eventType = .eventOpen ∧ event.leadId = leadId ∧ event.sgEventId = sgEventId}

/-! ## What a request has covered -/

/-- The events of a batch that are not to do any more are settled. -/
structure Covers (lib : Lib) (campaigns : List CampaignRow) (start : LeadTable)
    (batch todo : List PostedEvent) (w : EmailWorld) : Prop where
  sub : ∀ evt ∈ todo, evt ∈ batch
  settled : ∀ evt ∈ batch, evt ∈ todo ∨ Settled lib campaigns start evt w

/-- The assertion on a request. -/
def IngestPhase.Good (lib : Lib) (campaigns : List CampaignRow) (start : LeadTable)
    (batch : List PostedEvent) (w : EmailWorld) : IngestPhase → Prop
  | .ready todo => Covers lib campaigns start batch todo w
  | .selected evt key todo =>
      Covers lib campaigns start batch (.obj evt :: todo) w ∧ eventKey evt = .ok (some key)
  | .loaded evt lead event todo =>
      Covers lib campaigns start batch (.obj evt :: todo) w ∧
      Becomes lib campaigns start (.obj evt) event ∧ event.leadId = lead.1 ∧
      (leadEmail w.leads lead.1).isSome = true
  | .committed lead event todo =>
      Covers lib campaigns start batch todo w ∧ event ∈ w.events.rows.map Prod.snd ∧
      event.leadId = lead.1 ∧ (leadEmail w.leads lead.1).isSome = true
  | .finished => Covers lib campaigns start batch [] w
  | .failed => True

/-- What the steps do to the tables: leads keep their addresses, and rows stay. -/
structure Grows (w w' : EmailWorld) : Prop where
  sameLeads : SameLeads w.leads w'.leads
  rows : ∀ event ∈ w.events.rows.map Prod.snd, event ∈ w'.events.rows.map Prod.snd

theorem Grows.refl (w : EmailWorld) : Grows w w := ⟨SameLeads.refl _, fun _ h => h⟩

theorem recorded_iff {t : EmailEventTable} {sgEventId : String} :
    Recorded t sgEventId ↔ ∃ event ∈ t.rows.map Prod.snd, event.sgEventId = sgEventId := by
  constructor
  · rintro ⟨row, hrow, hid⟩
    exact ⟨row.2, List.mem_map_of_mem hrow, hid⟩
  · rintro ⟨event, hevent, hid⟩
    obtain ⟨row, hrow, rfl⟩ := List.mem_map.1 hevent
    exact ⟨row, hrow, hid⟩

theorem Grows.settled {w w' : EmailWorld} (h : Grows w w') {evt : PostedEvent}
    (hsettled : Settled lib campaigns start evt w) : Settled lib campaigns start evt w' := by
  intro event hbecomes
  obtain ⟨made, hmade, hid⟩ := recorded_iff.1 (hsettled event hbecomes)
  exact recorded_iff.2 ⟨made, h.rows made hmade, hid⟩

theorem Grows.covers {w w' : EmailWorld} (h : Grows w w') {batch todo : List PostedEvent}
    (hcovers : Covers lib campaigns start batch todo w) :
    Covers lib campaigns start batch todo w' where
  sub := hcovers.sub
  settled := fun evt hevt => (hcovers.settled evt hevt).imp_right h.settled

/-- **Stability.** What the others do keeps the assertion on a request. -/
theorem Grows.good {w w' : EmailWorld} (h : Grows w w') {batch : List PostedEvent} {phase : IngestPhase}
    (hgood : phase.Good lib campaigns start batch w) : phase.Good lib campaigns start batch w' := by
  cases phase with
  | ready todo => exact h.covers hgood
  | selected evt key todo => exact ⟨h.covers hgood.1, hgood.2⟩
  | loaded evt lead event todo =>
      obtain ⟨hcovers, hbecomes, hid, hlead⟩ := hgood
      refine ⟨h.covers hcovers, hbecomes, hid, ?_⟩
      rw [h.sameLeads lead.1]
      exact hlead
  | committed lead event todo =>
      obtain ⟨hcovers, hrow, hid, hlead⟩ := hgood
      refine ⟨h.covers hcovers, h.rows event hrow, hid, ?_⟩
      rw [h.sameLeads lead.1]
      exact hlead
  | finished => exact h.covers hgood
  | failed => trivial

/-- An event that needs no more work leaves the list. -/
theorem Covers.tail {batch todo : List PostedEvent} {evt : PostedEvent} {w : EmailWorld}
    (h : Covers lib campaigns start batch (evt :: todo) w)
    (hevt : Settled lib campaigns start evt w) : Covers lib campaigns start batch todo w where
  sub := fun x hx => h.sub x (List.mem_cons_of_mem evt hx)
  settled := by
    intro x hx
    rcases h.settled x hx with hmem | hsettled
    · rcases List.mem_cons.1 hmem with rfl | hrest
      · exact Or.inr hevt
      · exact Or.inl hrest
    · exact Or.inr hsettled

/-- The tables grow with every step. -/
theorem IngestMove.grows {tick : Tick} {w w' : EmailWorld} {phase phase' : IngestPhase}
    (h : IngestMove lib campaigns tick w phase w' phase') : Grows w w' := by
  cases h with
  | records hnew hrows =>
      refine ⟨SameLeads.refl _, fun made hmade => ?_⟩
      rw [hrows, List.map_append]
      exact List.mem_append_left _ hmade
  | rollsUp hget hleads =>
      refine ⟨fun id => ?_, fun _ hmade => hmade⟩
      rename_i lead event todo current leads
      -- the address that is written is the one that is there
      simp only [leadEmail, hleads id, Option.map_map]
      cases hid : w.leads.get? id with
      | none => rfl
      | some q =>
          simp only [Option.map_some, Function.comp_apply, Option.some.injEq]
          by_cases hq : q.1 = lead.1
          · obtain ⟨-, hqid⟩ := Table.mem_of_get? hid
            rw [← hqid, hq, hget, Option.some.injEq] at hid
            rw [if_pos hq, ← hid]
            simp [Lead.write]
          · rw [if_neg hq]
  | _ => exact Grows.refl _

/-- **Own assertion.** A request re-establishes its assertion with every step. -/
theorem IngestMove.good {tick : Tick} {w w' : EmailWorld} {phase phase' : IngestPhase}
    {batch : List PostedEvent} (h : IngestMove lib campaigns tick w phase w' phase')
    (hsame : SameLeads start w.leads) (hgood : phase.Good lib campaigns start batch w) :
    phase'.Good lib campaigns start batch w' := by
  have hgrows := h.grows
  cases h with
  | dies => trivial
  | ends => exact hgood
  | skips hrecorded =>
      apply Covers.tail hgood
      intro event hbecomes
      exact hrecorded event (hsame.becomes hbecomes)
  | selects hkey => exact ⟨hgood, hkey⟩
  | passes hread =>
      apply hgood.1.tail
      intro event hbecomes
      obtain ⟨members, received, lead, hevt, hkey, hread'⟩ := hsame.becomes hbecomes
      rw [PostedEvent.obj.injEq] at hevt
      subst hevt
      rw [hgood.2, Except.ok.injEq, Option.some.injEq] at hkey
      rw [← hkey] at hread'
      -- the event would have been read at the time of this step as well
      obtain ⟨event', hsome⟩ := readEvent_any_time tick.clock.received hread'
      rw [hread] at hsome
      cases hsome
  | loads hread =>
      obtain ⟨hkey, hid, -, hget⟩ := readEvent_row hread
      obtain ⟨hcovers, hkeyed⟩ := hgood
      rename_i evt key lead event todo
      have hbecomes : Becomes lib campaigns w.leads (.obj evt) event :=
        ⟨evt, tick.clock.received, lead, rfl, by rw [hkey]; exact hkeyed, by rw [hkey]; exact hread⟩
      refine ⟨hcovers, hsame.symm.becomes hbecomes, hid, ?_⟩
      rw [leadEmail, hget]
      rfl
  | records hnew hrows =>
      obtain ⟨hcovers, hbecomes, hid, hlead⟩ := hgood
      rename_i evt lead event todo events
      have hmem : event ∈ events.rows.map Prod.snd := by
        rw [hrows, List.map_append]
        exact List.mem_append_right _ List.mem_cons_self
      have hcovers' : Covers lib campaigns start batch todo ⟨w.leads, events⟩ := by
        apply (hgrows.covers hcovers).tail
        intro event' hbecomes'
        refine recorded_iff.2 ⟨event, hmem, ?_⟩
        rw [hbecomes.unique hbecomes']
      split
      · exact ⟨hcovers', hmem, hid, hlead⟩
      · exact hcovers'
  | rollsUp => exact hgrows.covers hgood.1

/-! ## Every open is recorded once -/

/-- The assertions on all requests, and where the rows come from. -/
structure Delivering (lib : Lib) (campaigns : List CampaignRow) (start : LeadTable)
    (batch : ι → List PostedEvent) (c : Config ι EmailWorld IngestPhase) : Prop where
  sameLeads : SameLeads start c.shared.leads
  good : ∀ i, (c.proc i).Good lib campaigns start (batch i) c.shared
  rows : ∀ event ∈ c.shared.events.rows.map Prod.snd,
    ∃ i, ∃ evt ∈ batch i, Becomes lib campaigns start evt event

/-- The step of a request, as a move. -/
theorem Delivering.move (hc : Delivering lib campaigns start batch c)
    (h : fire (ingestCallStep lib campaigns) e c = some c') :
    ∃ w' phase', c' = ⟨w', Function.update c.proc e.1 phase'⟩ ∧
      IngestMove lib campaigns e.2 c.shared (c.proc e.1) w' phase' := by
  obtain ⟨w', phase', hstep, rfl⟩ := fire_eq_some.1 h
  refine ⟨w', phase', rfl, move_of_step ?_ hstep⟩
  intro lead event todo hphase
  have hgood := hc.good e.1
  rw [hphase] at hgood
  obtain ⟨email, hemail⟩ := Option.isSome_iff_exists.1 hgood.2.2.2
  obtain ⟨current, hget, -⟩ := leadEmail_eq_some.1 hemail
  exact ⟨current, hget⟩

theorem delivering_fire (hc : Delivering lib campaigns start batch c)
    (h : fire (ingestCallStep lib campaigns) e c = some c') :
    Delivering lib campaigns start batch c' := by
  obtain ⟨w', phase', rfl, hmove⟩ := hc.move h
  have hgrows := hmove.grows
  constructor
  · exact hc.sameLeads.trans hgrows.sameLeads
  · intro i
    by_cases hi : i = e.1
    · subst hi
      simpa using hmove.good hc.sameLeads (hc.good e.1)
    · simpa [Function.update_of_ne hi] using hgrows.good (hc.good i)
  · intro made hmade
    have hgood := hc.good e.1
    revert hgood
    generalize c.proc e.1 = phase at hmove
    intro hgood
    cases hmove with
    | records hnew hrows =>
        rw [hrows, List.map_append, List.mem_append] at hmade
        rcases hmade with hold | hlast
        · exact hc.rows made hold
        · rw [List.map_singleton, List.mem_singleton] at hlast
          rw [hlast]
          exact ⟨e.1, _, hgood.1.sub _ List.mem_cons_self, hgood.2.1⟩
    | _ => exact hc.rows made hmade

/-- Requests that have not begun, on leads without events. -/
structure Begins (batch : ι → List PostedEvent) (c : Config ι EmailWorld IngestPhase) : Prop where
  fresh : Fresh c.shared
  ready : ∀ i, c.proc i = .ready (batch i)

omit [DecidableEq ι] in
theorem Begins.delivering (h : Begins batch c) :
    Delivering lib campaigns c.shared.leads batch c where
  sameLeads := SameLeads.refl _
  good := by
    intro i
    rw [h.ready i]
    exact ⟨fun _ hevt => hevt, fun _ hevt => Or.inl hevt⟩
  rows := by
    intro event hevent
    rw [h.fresh.events] at hevent
    cases hevent

/-- All requests have ended, and a batch whose request failed was delivered again by one that did
not. -/
structure AllDelivered (batch : ι → List PostedEvent) (c : Config ι EmailWorld IngestPhase) : Prop where
  ended : ∀ i, c.proc i = .finished ∨ c.proc i = .failed
  delivered : ∀ i, ∃ j, batch j = batch i ∧ c.proc j = .finished

omit [DecidableEq ι] in
/-- At the end the open rows of a lead are those of the delivered open events. -/
theorem openRow_iff (hc : Delivering lib campaigns start batch c) (hdone : AllDelivered batch c)
    (hids : SgIdsIdentify {evt | ∃ i, evt ∈ batch i}) {leadId : Nat} {sgEventId : String} :
    OpenRow c.shared.events leadId sgEventId ↔
      sgEventId ∈ openIds lib campaigns start batch leadId := by
  constructor
  · rintro ⟨event, hevent, htype, hlead, hid⟩
    obtain ⟨i, evt, hevt, hbecomes⟩ := hc.rows event hevent
    exact ⟨i, evt, hevt, event, hbecomes, htype, hlead, hid⟩
  · rintro ⟨i, evt, hevt, event, hbecomes, htype, hlead, hid⟩
    obtain ⟨j, hj, hfinished⟩ := hdone.delivered i
    have hgood := hc.good j
    rw [hfinished, hj] at hgood
    -- the request that finished the batch has settled the event
    rcases hgood.settled evt hevt with hnil | hsettled
    · cases hnil
    · obtain ⟨made, hmade, hmadeId⟩ := recorded_iff.1 (hsettled event hbecomes)
      obtain ⟨k, evt', hevt', hbecomes'⟩ := hc.rows made hmade
      have hsame : evt = evt' := hids.eq ⟨i, hevt⟩ ⟨k, hevt'⟩ hbecomes hbecomes' hmadeId.symm
      subst hsame
      have hunique := hbecomes.unique hbecomes'
      refine ⟨made, hmade, ?_, ?_, hmadeId.trans hid⟩
      · rw [hunique]
        exact htype
      · rw [hunique]
        exact hlead

/-- An open row is one of the rows of its lead. -/
theorem openRow_iff_mem {events : EmailEventTable} {leadId : Nat} {sgEventId : String} :
    OpenRow events leadId sgEventId ↔
      sgEventId ∈ (rowsOf events leadId .eventOpen).map fun event => event.sgEventId := by
  simp only [OpenRow, List.mem_map, mem_rowsOf]
  constructor
  · rintro ⟨event, hevent, htype, hlead, hid⟩
    exact ⟨event, ⟨hevent, hlead, htype⟩, hid⟩
  · rintro ⟨event, ⟨hevent, hlead, htype⟩, hid⟩
    exact ⟨event, hevent, htype, hlead, hid⟩

/-- Two rows with one id are one row. -/
theorem event_eq_of_id {t : EmailEventTable} {event event' : EmailEvent}
    (h : event ∈ t.rows.map Prod.snd) (h' : event' ∈ t.rows.map Prod.snd)
    (hid : event.sgEventId = event'.sgEventId) : event = event' := by
  obtain ⟨row, hrow, rfl⟩ := List.mem_map.1 h
  obtain ⟨row', hrow', rfl⟩ := List.mem_map.1 h'
  have hsame : row = row' := Table.eq_of_key hrow hrow' rfl (congrArg some hid.symm)
  rw [hsame]

omit [DecidableEq ι] in
/-- **Recorded exactly once**: at the end a lead has one open row for each delivered open event. -/
theorem openIds_ncard (hc : Delivering lib campaigns start batch c) (hdone : AllDelivered batch c)
    (hids : SgIdsIdentify {evt | ∃ i, evt ∈ batch i}) (leadId : Nat) :
    (openIds lib campaigns start batch leadId).ncard =
      (rowsOf c.shared.events leadId .eventOpen).length := by
  have hset : openIds lib campaigns start batch leadId =
      (((rowsOf c.shared.events leadId .eventOpen).map fun event => event.sgEventId).toFinset :
        Set String) := by
    ext sgEventId
    rw [← openRow_iff hc hdone hids, openRow_iff_mem, List.coe_toFinset]
    rfl
  have hnodup :
      ((rowsOf c.shared.events leadId .eventOpen).map fun event => event.sgEventId).Nodup := by
    apply List.Nodup.map_on _ ((events_nodup c.shared.events).filter _)
    intro event hevent event' hevent' hid
    exact event_eq_of_id (mem_rowsOf.1 hevent).1 (mem_rowsOf.1 hevent').1 hid
  rw [hset, Set.ncard_coe_finset, List.toFinset_card_of_nodup hnodup, List.length_map]

/-! ## The counter -/

/-- Every open in hand is in one hand, and the counter of a lead is the number of its open rows that
are in no hand. -/
structure Tallied (c : Config ι EmailWorld IngestPhase) : Prop where
  exclusive : Exclusive IngestPhase.inHand c
  counted : ∀ leadId lead, c.shared.leads.get? leadId = some (leadId, lead) →
    Counts lead.packOpenedCount fun sgEventId =>
      OpenRow c.shared.events leadId sgEventId ∧ ∀ i, sgEventId ∉ (c.proc i).inHand

/-- What is in no hand after a step. -/
theorem free_update {w' : EmailWorld} {phase' : IngestPhase} {i : ι} {sgEventId : String} :
    (∀ j, sgEventId ∉ ((⟨w', Function.update c.proc i phase'⟩ :
        Config ι EmailWorld IngestPhase).proc j).inHand) ↔
      sgEventId ∉ phase'.inHand ∧ ∀ j, j ≠ i → sgEventId ∉ (c.proc j).inHand :=
  Function.forall_update_iff c.proc fun _ phase => sgEventId ∉ phase.inHand

/-- What is in no hand before it. -/
theorem free_iff (i : ι) {sgEventId : String} : (∀ j, sgEventId ∉ (c.proc j).inHand) ↔
    sgEventId ∉ (c.proc i).inHand ∧ ∀ j, j ≠ i → sgEventId ∉ (c.proc j).inHand := by
  have hself := Function.forall_update_iff (a := i) (b := c.proc i) c.proc
    fun _ phase => sgEventId ∉ phase.inHand
  rwa [Function.update_eq_self] at hself

/-- A step that leaves the tables and the hands alone. -/
theorem Tallied.idle (h : Tallied c) {i : ι} {phase' : IngestPhase}
    (hhand : phase'.inHand = (c.proc i).inHand) :
    Tallied ⟨c.shared, Function.update c.proc i phase'⟩ := by
  constructor
  · apply h.exclusive.fire i c.shared
    intro k hk
    left
    rw [← hhand]
    exact hk
  · intro leadId lead hget
    apply (h.counted leadId lead hget).congr
    intro sgEventId
    rw [free_update, free_iff i, hhand]

omit [DecidableEq ι] in
/-- An open in hand has its row. -/
theorem Delivering.recorded_of_inHand (hc : Delivering lib campaigns start batch c) {i : ι}
    {sgEventId : String} (h : sgEventId ∈ (c.proc i).inHand) :
    Recorded c.shared.events sgEventId := by
  have hgood := hc.good i
  cases hphase : c.proc i with
  | committed lead event todo =>
      rw [hphase] at h hgood
      simp only [IngestPhase.inHand] at h
      split at h
      · rw [List.mem_singleton] at h
        exact recorded_iff.2 ⟨event, hgood.2.1, h.symm⟩
      · cases h
  | _ =>
      rw [hphase] at h
      cases h

theorem OpenRow.recorded {events : EmailEventTable} {leadId : Nat} {sgEventId : String}
    (h : OpenRow events leadId sgEventId) : Recorded events sgEventId := by
  obtain ⟨event, hevent, -, -, hid⟩ := h
  exact recorded_iff.2 ⟨event, hevent, hid⟩

/-- The hand after the commit of a row. -/
theorem inHand_of_records (lead : LeadRow) (event : EmailEvent) (todo : List PostedEvent) :
    (if feedsRollup event.eventType = true then IngestPhase.committed lead event todo
      else .ready todo).inHand =
      if event.eventType = .eventOpen then [event.sgEventId] else [] := by
  cases htype : event.eventType <;> simp [feedsRollup, IngestPhase.inHand, htype]

/-- The commit of a row: an open is taken in hand and not counted yet. -/
theorem Tallied.records (h : Tallied c) (hc : Delivering lib campaigns start batch c) {i : ι}
    {evt : SendgridEvent} {lead : LeadRow} {event : EmailEvent} {todo : List PostedEvent}
    {events : EmailEventTable} (hphase : c.proc i = .loaded evt lead event todo)
    (hnew : ¬ Recorded c.shared.events event.sgEventId)
    (hrows : events.rows = c.shared.events.rows ++ [(c.shared.events.nextId, event)]) :
    Tallied ⟨⟨c.shared.leads, events⟩, Function.update c.proc i
      (if feedsRollup event.eventType = true then .committed lead event todo
        else .ready todo)⟩ := by
  have hhand := inHand_of_records lead event todo
  have hopen : ∀ leadId sgEventId, OpenRow events leadId sgEventId ↔
      OpenRow c.shared.events leadId sgEventId ∨
        (event.eventType = .eventOpen ∧ event.leadId = leadId ∧ event.sgEventId = sgEventId) := by
    intro leadId sgEventId
    simp only [OpenRow, hrows, List.map_append, List.map_cons, List.map_nil, List.mem_append,
      List.mem_singleton, or_and_right, exists_or, exists_eq_left]
  constructor
  · apply h.exclusive.fire i
    intro k hk
    -- nobody else has a row that is only now recorded
    right
    intro j _ hother
    rw [hhand] at hk
    split at hk
    · rw [List.mem_singleton] at hk
      rw [hk] at hother
      exact hnew (hc.recorded_of_inHand hother)
    · cases hk
  · intro leadId l hget
    apply (h.counted leadId l hget).congr
    intro sgEventId
    rw [free_update, free_iff i, hhand, hphase, hopen]
    by_cases htype : event.eventType = .eventOpen
    · rw [if_pos htype, List.mem_singleton]
      constructor
      · rintro ⟨hold | ⟨-, -, hid⟩, hne, hfree⟩
        · exact ⟨hold, List.not_mem_nil, hfree⟩
        · exact absurd hid.symm hne
      · rintro ⟨hold, -, hfree⟩
        refine ⟨Or.inl hold, ?_, hfree⟩
        rintro rfl
        exact hnew hold.recorded
    · rw [if_neg htype]
      simp [htype, IngestPhase.inHand]

omit [DecidableEq ι] in
/-- The open whose rollup a request is about to commit is in no other hand. -/
theorem Tallied.others_free (h : Tallied c) {i : ι} {lead : LeadRow} {event : EmailEvent}
    {todo : List PostedEvent} (hphase : c.proc i = .committed lead event todo)
    (htype : event.eventType = .eventOpen) :
    (c.proc i).inHand = [event.sgEventId] ∧ ∀ j, j ≠ i → event.sgEventId ∉ (c.proc j).inHand := by
  have hhand : (c.proc i).inHand = [event.sgEventId] := by
    simp [hphase, IngestPhase.inHand, htype]
  refine ⟨hhand, ?_⟩
  intro j hj hother
  apply hj
  apply h.exclusive j i event.sgEventId hother
  rw [hhand]
  exact List.mem_singleton_self _

/-- The lead of the open: its rows in no hand are those of before and the open. -/
theorem Tallied.count_own (h : Tallied c) {i : ι} {lead : LeadRow} {event : EmailEvent}
    {todo : List PostedEvent} {current : Lead} (hphase : c.proc i = .committed lead event todo)
    (htype : event.eventType = .eventOpen) (hrow : event ∈ c.shared.events.rows.map Prod.snd)
    (hlead : event.leadId = lead.1) (hget : c.shared.leads.get? lead.1 = some (lead.1, current))
    (leads : LeadTable) :
    Counts (current.packOpenedCount + 1) fun sgEventId =>
      OpenRow c.shared.events lead.1 sgEventId ∧
      ∀ j, sgEventId ∉ ((⟨⟨leads, c.shared.events⟩, Function.update c.proc i (.ready todo)⟩ :
        Config ι EmailWorld IngestPhase).proc j).inHand := by
  obtain ⟨hhand, hothers⟩ := h.others_free hphase htype
  apply (h.counted lead.1 current hget).insert (a := event.sgEventId)
  · rintro ⟨-, hfree⟩
    apply hfree i
    rw [hhand]
    exact List.mem_singleton_self _
  · intro sgEventId
    rw [free_update, free_iff i, hhand, List.mem_singleton]
    constructor
    · rintro ⟨hopen, -, hfree⟩
      by_cases hid : sgEventId = event.sgEventId
      · exact Or.inr hid
      · exact Or.inl ⟨hopen, hid, hfree⟩
    · rintro (⟨hopen, -, hfree⟩ | rfl)
      · exact ⟨hopen, List.not_mem_nil, hfree⟩
      · exact ⟨⟨event, hrow, htype, hlead, rfl⟩, List.not_mem_nil, hothers⟩

/-- Another lead: the open is not one of its rows. -/
theorem Tallied.count_other (h : Tallied c) {i : ι} {lead : LeadRow} {event : EmailEvent}
    {todo : List PostedEvent} (hphase : c.proc i = .committed lead event todo)
    (htype : event.eventType = .eventOpen) (hrow : event ∈ c.shared.events.rows.map Prod.snd)
    (hlead : event.leadId = lead.1) {leadId : Nat} {l : Lead} (hne : leadId ≠ lead.1)
    (hget : c.shared.leads.get? leadId = some (leadId, l)) (leads : LeadTable) :
    Counts l.packOpenedCount fun sgEventId =>
      OpenRow c.shared.events leadId sgEventId ∧
      ∀ j, sgEventId ∉ ((⟨⟨leads, c.shared.events⟩, Function.update c.proc i (.ready todo)⟩ :
        Config ι EmailWorld IngestPhase).proc j).inHand := by
  obtain ⟨hhand, -⟩ := h.others_free hphase htype
  apply (h.counted leadId l hget).congr
  intro sgEventId
  rw [free_update, free_iff i, hhand, List.mem_singleton]
  constructor
  · rintro ⟨hopen, -, hfree⟩
    refine ⟨hopen, ?_, hfree⟩
    rintro rfl
    obtain ⟨made, hmade, -, hmadeLead, hmadeId⟩ := hopen
    rw [event_eq_of_id hmade hrow hmadeId, hlead] at hmadeLead
    exact hne hmadeLead.symm
  · rintro ⟨hopen, -, hfree⟩
    exact ⟨hopen, List.not_mem_nil, hfree⟩

/-- The commit of a rollup that was computed from the count it finds: the open leaves the hand and
is counted. -/
theorem Tallied.rollsUp (h : Tallied c) (hc : Delivering lib campaigns start batch c) {i : ι}
    {clock : EventClock} {lead : LeadRow} {event : EmailEvent} {todo : List PostedEvent}
    {current : Lead} {leads : LeadTable} (hphase : c.proc i = .committed lead event todo)
    (hget : c.shared.leads.get? lead.1 = some (lead.1, current))
    (hleads : ∀ id, leads.get? id = (c.shared.leads.get? id).map fun q =>
      if q.1 = lead.1 then (lead.1, lead.2.write (rolledUp lib clock lead.2 event) current) else q)
    (hcount : event.eventType = .eventOpen → current.packOpenedCount = lead.2.packOpenedCount) :
    Tallied ⟨⟨leads, c.shared.events⟩, Function.update c.proc i (.ready todo)⟩ := by
  have hgood := hc.good i
  rw [hphase] at hgood
  obtain ⟨-, hrow, hlead, -⟩ := hgood
  -- the count that was loaded is still there, so the UPDATE adds one to it
  have hwritten : (lead.2.write (rolledUp lib clock lead.2 event) current).packOpenedCount =
      current.packOpenedCount + if event.eventType = .eventOpen then 1 else 0 := by
    simp only [Lead.write, rolledUp_count]
    by_cases htype : event.eventType = .eventOpen
    · rw [if_pos htype, hcount htype, dirtyWrite_current_loaded]
    · simp [htype]
  constructor
  · apply h.exclusive.fire i
    intro k hk
    cases hk
  · intro leadId l hl
    rw [hleads leadId, Option.map_eq_some_iff] at hl
    obtain ⟨q, hq, hql⟩ := hl
    obtain ⟨-, hqid⟩ := Table.mem_of_get? hq
    -- the lead of the event, and one that the UPDATE does not touch
    by_cases hsame : q.1 = lead.1
    · rw [if_pos hsame, Prod.mk.injEq] at hql
      obtain ⟨rfl, rfl⟩ := hql
      rw [hwritten]
      by_cases htype : event.eventType = .eventOpen
      · rw [if_pos htype]
        exact h.count_own hphase htype hrow hlead hget leads
      · rw [if_neg htype, add_zero]
        apply (h.counted lead.1 current hget).congr
        intro sgEventId
        rw [free_update, free_iff i]
        simp [hphase, IngestPhase.inHand, htype]
    · rw [if_neg hsame] at hql
      subst hql
      by_cases htype : event.eventType = .eventOpen
      · exact h.count_other hphase htype hrow hlead hsame hq leads
      · apply (h.counted leadId l hq).congr
        intro sgEventId
        rw [free_update, free_iff i]
        simp [hphase, IngestPhase.inHand, htype]

/-- **Step lemma.** A step that meets the condition keeps the tally. -/
theorem tallied_fire (h : Tallied c) (hc : Delivering lib campaigns start batch c)
    (hguard : CountsOnce e c) (hfire : fire (ingestCallStep lib campaigns) e c = some c') :
    Tallied c' := by
  obtain ⟨w', phase', rfl, hmove⟩ := hc.move hfire
  generalize hphase : c.proc e.1 = phase at hmove
  cases hmove with
  | dies hcrash =>
      apply h.idle
      rw [hphase]
      cases phase with
      | committed lead event todo =>
          -- a request that dies here has no open in hand
          have hnot : event.eventType ≠ .eventOpen := by
            intro htype
            unfold CountsOnce at hguard
            rw [hphase] at hguard
            have halive := (hguard htype).1
            rw [hcrash lead event todo rfl] at halive
            cases halive
          simp [IngestPhase.inHand, hnot]
      | _ => rfl
  | ends => exact h.idle (by rw [hphase]; rfl)
  | skips => exact h.idle (by rw [hphase]; rfl)
  | selects => exact h.idle (by rw [hphase]; rfl)
  | passes => exact h.idle (by rw [hphase]; rfl)
  | loads => exact h.idle (by rw [hphase]; rfl)
  | records hnew hrows => exact h.records hc hphase hnew hrows
  | rollsUp hget hleads =>
      apply h.rollsUp hc hphase hget hleads
      intro htype
      unfold CountsOnce at hguard
      rw [hphase] at hguard
      have hfound := (hguard htype).2
      rw [hget, Option.map_some, Option.some.injEq] at hfound
      exact hfound

omit [DecidableEq ι] in
theorem Begins.tallied (h : Begins batch c) : Tallied c := by
  constructor
  · intro i j k hi
    rw [h.ready i] at hi
    cases hi
  · intro leadId lead hget
    obtain ⟨hcount, -, -⟩ := h.fresh.leads _ (Table.mem_of_get? hget).1
    rw [hcount]
    apply Counts.zero
    rintro sgEventId ⟨⟨event, hevent, -⟩, -⟩
    rw [h.fresh.events] at hevent
    cases hevent

/-- **Opens are counted exactly once** when no rollup of an open is lost: in every run whose steps
meet the condition, once all deliveries have ended, the counter of a lead is the number of distinct
open events about it. -/
theorem opens_counted_once (lib : Lib) (campaigns : List CampaignRow) (batch : ι → List PostedEvent)
    (c c' : Config ι EmailWorld IngestPhase) (es : List (ι × Tick)) (hbegins : Begins batch c)
    (hids : SgIdsIdentify {evt | ∃ i, evt ∈ batch i})
    (hrun : exec (fire (ingestCallStep lib campaigns)) es c = some c')
    (hguard : Guarded (fire (ingestCallStep lib campaigns)) CountsOnce es c)
    (hdone : AllDelivered batch c') (leadId : Nat) (lead : Lead)
    (hlead : c'.shared.leads.get? leadId = some (leadId, lead)) :
    lead.packOpenedCount = (openIds lib campaigns c.shared.leads batch leadId).ncard := by
  have halways : Always (fire (ingestCallStep lib campaigns))
      (fun c₁ => Tallied c₁ ∧ Delivering lib campaigns c.shared.leads batch c₁) es c := by
    apply always_of_step _ ⟨hbegins.tallied, hbegins.delivering⟩ hguard
    rintro e s t ⟨htallied, hdelivering⟩ hstep hfire
    exact ⟨tallied_fire htallied hdelivering hstep hfire, delivering_fire hdelivering hfire⟩
  obtain ⟨htallied, hdelivering⟩ := halways.last hrun
  -- a delivery that has ended has no open in hand, so every recorded open is counted
  have hfree : ∀ sgEventId i, sgEventId ∉ (c'.proc i).inHand := by
    intro sgEventId i
    rcases hdone.ended i with hphase | hphase
    · rw [hphase]
      exact List.not_mem_nil
    · rw [hphase]
      exact List.not_mem_nil
  have hcounts : Counts lead.packOpenedCount fun sgEventId =>
      sgEventId ∈ openIds lib campaigns c.shared.leads batch leadId := by
    apply (htallied.counted leadId lead hlead).congr
    intro sgEventId
    rw [← openRow_iff hdelivering hdone hids]
    exact (and_iff_left (hfree sgEventId)).symm
  exact hcounts.eq_ncard

/-! ## Ada opens -/

/-- An open of Ada's. -/
def adaOpen (sgEventId : String) : PostedEvent := adaEvent "open" sgEventId (.num 60) []

/-- Two requests on Ada's row. -/
def twoRequests (batch : Bool → List PostedEvent) : Config Bool EmailWorld IngestPhase where
  shared := oneLead
  proc i := .ready (batch i)

/-- A step without a crash. -/
def go (i : Bool) : Bool × Tick := (i, midnight.tick)

/-- One open in each request. -/
def twoAdaOpens (i : Bool) : List PostedEvent := [adaOpen (if i then "e1" else "e2")]

theorem twoRequests_begins (batch : Bool → List PostedEvent) : Begins batch (twoRequests batch) where
  fresh := oneLead_fresh
  ready := fun _ => rfl

theorem twoAdaOpens_ids : SgIdsIdentify {evt | ∃ i, evt ∈ twoAdaOpens i} := by
  rintro a b ⟨i, hi⟩ ⟨j, hj⟩ - hsame
  simp only [twoAdaOpens, adaOpen, adaEvent, List.mem_singleton, PostedEvent.obj.injEq] at hi hj
  subst hi hj
  have hij : i = j := by
    cases i <;> cases j <;> first | rfl | exact absurd hsame (by decide)
  rw [hij]

/-- One request after the other. -/
def oneAfterTheOther : List (Bool × Tick) :=
  [go true, go true, go true, go true, go true, go false, go false, go false, go false, go false]

/-- One after the other, both opens are counted. -/
theorem sequential_opens_counted : ∃ c',
    exec (fire (ingestCallStep plainLib [])) oneAfterTheOther (twoRequests twoAdaOpens) = some c' ∧
    ((c'.shared.leads.get? 1).map fun row => row.2.packOpenedCount) = some 2 ∧
    ∀ leadId lead, c'.shared.leads.get? leadId = some (leadId, lead) →
      lead.packOpenedCount = (openIds plainLib [] oneLead.leads twoAdaOpens leadId).ncard := by
  refine ⟨_, rfl, by decide +kernel, ?_⟩
  apply opens_counted_once plainLib [] twoAdaOpens (twoRequests twoAdaOpens) _ oneAfterTheOther
    (twoRequests_begins twoAdaOpens) twoAdaOpens_ids rfl
  · decide +kernel
  · constructor
    · rintro (_ | _) <;> exact Or.inl rfl
    · intro i
      exact ⟨i, rfl, by cases i <;> rfl⟩

/-- Both load the lead before either commits. -/
def loadsTogether : List (Bool × Tick) :=
  [go true, go true, go false, go false, go true, go true, go true, go false, go false, go false]

/-- Both opens are recorded, and the second rollup is written over the first: one open is counted.
-/
theorem concurrent_open_lost : ∃ c',
    exec (fire (ingestCallStep plainLib [])) loadsTogether (twoRequests twoAdaOpens) = some c' ∧
    AllDelivered twoAdaOpens c' ∧
    ((c'.shared.leads.get? 1).map fun row => row.2.packOpenedCount) = some 1 ∧
    (openIds plainLib [] oneLead.leads twoAdaOpens 1).ncard = 2 := by
  have hdone : ∃ c',
      exec (fire (ingestCallStep plainLib [])) loadsTogether (twoRequests twoAdaOpens) = some c' ∧
      AllDelivered twoAdaOpens c' ∧
      ((c'.shared.leads.get? 1).map fun row => row.2.packOpenedCount) = some 1 ∧
      (rowsOf c'.shared.events 1 .eventOpen).length = 2 := by
    refine ⟨_, rfl, ⟨?_, ?_⟩, by decide +kernel, by decide +kernel⟩
    · rintro (_ | _) <;> exact Or.inl rfl
    · intro i
      exact ⟨i, rfl, by cases i <;> rfl⟩
  obtain ⟨c', hrun, hdelivered, hcount, hrows⟩ := hdone
  have hdelivering : Delivering plainLib [] oneLead.leads twoAdaOpens c' :=
    exec_invariant (fun _ _ _ hc hfire => delivering_fire hc hfire)
      (twoRequests_begins twoAdaOpens).delivering hrun
  exact ⟨c', hrun, hdelivered, hcount,
    (openIds_ncard hdelivering hdelivered twoAdaOpens_ids 1).trans hrows⟩

/-- The first request dies between the two commits, and its batch is delivered again. -/
def diesBetween : List (Bool × Tick) :=
  [go true, go true, go true, (true, ⟨midnight, true⟩), go false, go false]

/-- The second delivery finds the open recorded, and it is never counted. -/
theorem crashed_open_lost : ∃ c',
    exec (fire (ingestCallStep plainLib [])) diesBetween (twoRequests fun _ => [adaOpen "e1"]) =
      some c' ∧
    AllDelivered (fun _ => [adaOpen "e1"]) c' ∧
    ((rowsOf c'.shared.events 1 .eventOpen).map fun event => event.sgEventId) = ["e1"] ∧
    ((c'.shared.leads.get? 1).map fun row => row.2.packOpenedCount) = some 0 := by
  refine ⟨_, rfl, ⟨?_, ?_⟩, by decide +kernel, by decide +kernel⟩
  · rintro (_ | _)
    · exact Or.inl rfl
    · exact Or.inr rfl
  · intro i
    exact ⟨false, rfl, rfl⟩

end SalesTrades.Emails
