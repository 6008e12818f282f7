import SalesTrades.Emails.Rollups
import SalesTrades.Library.Interleaving

/-!
# Requests to the webhook, one statement at a time

A request to ingest a batch as a process over the shared tables: for each event the lookup of its
id, the load of its lead, the commit of its row and the commit of the rollup are steps of their own,
and the process may die before any of them. A process that runs alone leaves the tables that
`ingestEvents` leaves (`ingest_alone`).
-/

set_option autoImplicit false

namespace SalesTrades.Emails

open SalesTrades.Library SalesTrades.Library.Run SalesTrades.Library.Interleaving SalesTrades.Leads

variable {lib : Lib} {campaigns : List CampaignRow}

/-- What a step reads from outside: the clocks, and whether the process dies before it. -/
structure Tick where
  clock : EventClock
  crash : Bool
  deriving DecidableEq

/-- Where a request stands, with its local variables. -/
inductive IngestPhase where
  | ready (todo : List PostedEvent)
  /-- The id is not recorded. -/
  | selected (evt : SendgridEvent) (key : EventKey) (todo : List PostedEvent)
  /-- The lead is loaded. -/
  | loaded (evt : SendgridEvent) (lead : LeadRow) (event : EmailEvent) (todo : List PostedEvent)
  /-- The row is committed, the rollup is not. -/
  | committed (lead : LeadRow) (event : EmailEvent) (todo : List PostedEvent)
  | finished
  | failed

/-- The lookup of the next event. The exception handler raises, so an event that cannot be read
fails the request. -/
def selectStep (w : EmailWorld) (evt : PostedEvent) (todo : List PostedEvent) : IngestPhase :=
  match evt with
  | .obj members =>
      match eventKey members with
      | .error _ => .failed
      | .ok none => .ready todo
      | .ok (some key) =>
          if (getBySgEventId w.events key.sgEventId).isSome = true then .ready todo
          else .selected members key todo
  | _ => .failed

/-- The load of the lead. -/
def loadStep (lib : Lib) (campaigns : List CampaignRow) (received : Int) (w : EmailWorld)
    (evt : SendgridEvent) (key : EventKey) (todo : List PostedEvent) : IngestPhase :=
  match readEvent lib campaigns received w.leads evt key with
  | .error _ => .failed
  | .ok none => .ready todo
  | .ok (some (lead, event)) => .loaded evt lead event todo

/-- The insert and its commit. -/
def insertStep (w : EmailWorld) (lead : LeadRow) (event : EmailEvent) (todo : List PostedEvent) :
    EmailWorld × IngestPhase :=
  match createEvent w.events event with
  | .error _ => (w, .failed)
  | .ok events =>
      (⟨w.leads, events⟩,
        if feedsRollup event.eventType = true then .committed lead event todo else .ready todo)

/-- The commit of the rollup. -/
def rollupStep (lib : Lib) (clock : EventClock) (w : EmailWorld) (lead : LeadRow)
    (event : EmailEvent) (todo : List PostedEvent) : EmailWorld × IngestPhase :=
  match bumpLeadRollup lib clock w.leads lead event with
  | .error _ => (w, .failed)
  | .ok leads => (⟨leads, w.events⟩, .ready todo)

/-- The next step of a request that does not die. -/
def liveStep (lib : Lib) (campaigns : List CampaignRow) (clock : EventClock) (w : EmailWorld) :
    IngestPhase → Option (EmailWorld × IngestPhase)
  | .ready [] => some (w, .finished)
  | .ready (evt :: todo) => some (w, selectStep w evt todo)
  | .selected evt key todo => some (w, loadStep lib campaigns clock.received w evt key todo)
  | .loaded _ lead event todo => some (insertStep w lead event todo)
  | .committed lead event todo => some (rollupStep lib clock w lead event todo)
  | .finished => none
  | .failed => none

/-- The next step of a request. One that dies leaves what it has committed. -/
def ingestCallStep (lib : Lib) (campaigns : List CampaignRow) (tick : Tick) (w : EmailWorld)
    (phase : IngestPhase) : Option (EmailWorld × IngestPhase) :=
  match liveStep lib campaigns tick.clock w phase with
  | none => none
  | some r => some (if tick.crash = true then (w, .failed) else r)

/-! ## A request that runs alone -/

/-- A request and the tables. -/
def aloneStep (lib : Lib) (campaigns : List CampaignRow) (tick : Tick) (s : EmailWorld × IngestPhase) :
    Option (EmailWorld × IngestPhase) :=
  ingestCallStep lib campaigns tick s.1 s.2

/-- Where a request that ran alone ends. -/
def endPhase (r : Except PyError Nat) : IngestPhase :=
  match r with
  | .ok _ => .finished
  | .error _ => .failed

/-- A reading of the clocks of an event that does not die. -/
def EventClock.tick (clock : EventClock) : Tick := ⟨clock, false⟩

@[simp]
theorem aloneStep_tick (clock : EventClock) (s : EmailWorld × IngestPhase) :
    aloneStep lib campaigns clock.tick s = liveStep lib campaigns clock s.1 s.2 := by
  unfold aloneStep ingestCallStep EventClock.tick
  cases liveStep lib campaigns clock s.1 s.2 with
  | none => rfl
  | some r => rfl

/-- Storing an event, step by step. -/
theorem storeEvent_alone (lib : Lib) (campaigns : List CampaignRow) (evt : SendgridEvent)
    (clock : EventClock) (lead : LeadRow) (event : EmailEvent) (todo : List PostedEvent)
    (w : EmailWorld) :
    ∃ ticks, exec (aloneStep lib campaigns) ticks (w, .loaded evt lead event todo) =
      some ((storeEvent lib clock lead event w).1,
        match (storeEvent lib clock lead event w).2 with
        | .ok _ => .ready todo
        | .error _ => .failed) := by
  unfold storeEvent
  cases hcreate : createEvent w.events event with
  | error e => exact ⟨[clock.tick], by simp [exec, liveStep, insertStep, hcreate]⟩
  | ok events =>
      by_cases hfeeds : feedsRollup event.eventType = true
      · refine ⟨[clock.tick, clock.tick], ?_⟩
        simp only [exec, aloneStep_tick, liveStep, insertStep, hcreate, hfeeds, if_true,
          Option.bind_some, rollupStep]
        cases bumpLeadRollup lib clock w.leads lead event with
        | error e => rfl
        | ok leads => rfl
      · exact ⟨[clock.tick], by simp [exec, liveStep, insertStep, hcreate, hfeeds]⟩

/-- One event, step by step. -/
theorem ingestOne_alone (lib : Lib) (campaigns : List CampaignRow) (evt : PostedEvent)
    (clock : EventClock) (todo : List PostedEvent) (w : EmailWorld) :
    ∃ ticks, exec (aloneStep lib campaigns) ticks (w, .ready (evt :: todo)) =
      some ((ingestOne lib campaigns evt clock w).1,
        match (ingestOne lib campaigns evt clock w).2 with
        | .ok _ => .ready todo
        | .error _ => .failed) := by
  unfold ingestOne
  cases evt with
  | obj members =>
      cases hkey : eventKey members with
      | error e => exact ⟨[clock.tick], by simp [exec, liveStep, selectStep, attributeEvent, hkey]⟩
      | ok found =>
          cases found with
          | none => exact ⟨[clock.tick], by simp [exec, liveStep, selectStep, attributeEvent, hkey]⟩
          | some key =>
              by_cases hrecorded : (getBySgEventId w.events key.sgEventId).isSome = true
              · refine ⟨[clock.tick], ?_⟩
                simp [exec, liveStep, selectStep, attributeEvent, hkey, hrecorded]
              · cases hread : readEvent lib campaigns clock.received w.leads members key with
                | error e =>
                    refine ⟨[clock.tick, clock.tick], ?_⟩
                    simp [exec, liveStep, selectStep, loadStep, attributeEvent, hkey, hrecorded,
                      hread]
                | ok found =>
                    cases found with
                    | none =>
                        refine ⟨[clock.tick, clock.tick], ?_⟩
                        simp [exec, liveStep, selectStep, loadStep, attributeEvent, hkey, hrecorded,
                          hread]
                    | some r =>
                        -- the lookup and the load, then the two commits
                        obtain ⟨lead, event⟩ := r
                        obtain ⟨ticks, hticks⟩ :=
                          storeEvent_alone lib campaigns members clock lead event todo w
                        refine ⟨clock.tick :: clock.tick :: ticks, ?_⟩
                        simpa [exec, liveStep, selectStep, loadStep, attributeEvent, hkey,
                          hrecorded, hread] using hticks
  | _ => exact ⟨[clock.tick], by simp [exec, liveStep, selectStep, attributeEvent]⟩

/-- **A request that runs alone** leaves the tables `ingestEvents` leaves, and fails when it raises.
-/
theorem ingest_alone (batch : List (PostedEvent × EventClock)) (w : EmailWorld) :
    ∃ ticks, exec (aloneStep lib campaigns) ticks (w, .ready (batch.map Prod.fst)) =
      some ((ingestEvents lib campaigns batch w).1,
        endPhase (ingestEvents lib campaigns batch w).2) := by
  induction batch generalizing w with
  | nil => exact ⟨[midnight.tick], by simp [exec, liveStep, ingestEvents, endPhase]⟩
  | cons x rest ih =>
      obtain ⟨ticks, hticks⟩ := ingestOne_alone lib campaigns x.1 x.2 (rest.map Prod.fst) w
      rcases hingest : ingestOne lib campaigns x.1 x.2 w with ⟨w', r⟩
      rw [hingest] at hticks
      cases r with
      | error e =>
          have hraises : ∃ e', ingestEvents lib campaigns (x :: rest) w = (w', .error e') :=
            ingestEvents_cons_error hingest
          obtain ⟨e', hbatch⟩ := hraises
          exact ⟨ticks, by rw [List.map_cons, hticks, hbatch]; rfl⟩
      | ok processed =>
          obtain ⟨more, hmore⟩ := ih w'
          refine ⟨ticks ++ more, ?_⟩
          rw [List.map_cons, exec_append, hticks, Option.bind_some, hmore,
            ingestEvents_cons_ok hingest]
          cases (ingestEvents lib campaigns rest w').2 with
          | error e => rfl
          | ok n => rfl

/-! ## What a step can do -/

/-- The steps of a request, with what each finds and leaves. -/
inductive IngestMove (lib : Lib) (campaigns : List CampaignRow) (tick : Tick) (w : EmailWorld) :
    IngestPhase → EmailWorld → IngestPhase → Prop where
  /-- It dies, or an event cannot be read or stored; a rollup is only lost to a crash. -/
  | dies {phase : IngestPhase} :
      (∀ lead event todo, phase = .committed lead event todo → tick.crash = true) →
      IngestMove lib campaigns tick w phase w .failed
  | ends : IngestMove lib campaigns tick w (.ready []) w .finished
  /-- The event has no key, or its id is recorded. -/
  | skips {evt : PostedEvent} {todo : List PostedEvent} :
      (∀ event, Becomes lib campaigns w.leads evt event → Recorded w.events event.sgEventId) →
      IngestMove lib campaigns tick w (.ready (evt :: todo)) w (.ready todo)
  | selects {evt : SendgridEvent} {key : EventKey} {todo : List PostedEvent} :
      eventKey evt = .ok (some key) →
      IngestMove lib campaigns tick w (.ready (.obj evt :: todo)) w (.selected evt key todo)
  /-- The event is not about a lead. -/
  | passes {evt : SendgridEvent} {key : EventKey} {todo : List PostedEvent} :
      readEvent lib campaigns tick.clock.received w.leads evt key = .ok none →
      IngestMove lib campaigns tick w (.selected evt key todo) w (.ready todo)
  | loads {evt : SendgridEvent} {key : EventKey} {lead : LeadRow} {event : EmailEvent}
      {todo : List PostedEvent} :
      readEvent lib campaigns tick.clock.received w.leads evt key = .ok (some (lead, event)) →
      IngestMove lib campaigns tick w (.selected evt key todo) w (.loaded evt lead event todo)
  | records {evt : SendgridEvent} {lead : LeadRow} {event : EmailEvent} {todo : List PostedEvent}
      {events : EmailEventTable} :
      ¬ Recorded w.events event.sgEventId →
      events.rows = w.events.rows ++ [(w.events.nextId, event)] →
      IngestMove lib campaigns tick w (.loaded evt lead event todo) ⟨w.leads, events⟩
        (if feedsRollup event.eventType = true then .committed lead event todo else .ready todo)
  | rollsUp {lead : LeadRow} {event : EmailEvent} {todo : List PostedEvent} {current : Lead}
      {leads : LeadTable} :
      w.leads.get? lead.1 = some (lead.1, current) →
      (∀ id, leads.get? id = (w.leads.get? id).map fun q =>
        if q.1 = lead.1 then
          (lead.1, lead.2.write (rolledUp lib tick.clock lead.2 event) current)
        else q) →
      IngestMove lib campaigns tick w (.committed lead event todo) ⟨leads, w.events⟩ (.ready todo)

/-- An event that was skipped by the lookup is recorded or becomes no row. -/
theorem selectStep_move (tick : Tick) (w : EmailWorld) (evt : PostedEvent) (todo : List PostedEvent) :
    IngestMove lib campaigns tick w (.ready (evt :: todo)) w (selectStep w evt todo) := by
  have hdies : IngestMove lib campaigns tick w (.ready (evt :: todo)) w .failed :=
    .dies (by rintro _ _ _ h; cases h)
  unfold selectStep
  split
  · rename_i members
    split
    · exact hdies
    · rename_i hkey
      apply IngestMove.skips
      rintro event ⟨_, _, _, hevt, hkey', -⟩
      rw [PostedEvent.obj.injEq] at hevt
      rw [← hevt, hkey] at hkey'
      cases hkey'
    · rename_i key hkey
      split
      · rename_i hrecorded
        apply IngestMove.skips
        rintro event ⟨_, _, _, hevt, hkey', -⟩
        rw [PostedEvent.obj.injEq] at hevt
        rw [← hevt, hkey, Except.ok.injEq, Option.some.injEq] at hkey'
        rw [hkey'] at hrecorded
        exact getBySgEventId_isSome.1 hrecorded
      · exact .selects hkey
  · exact hdies

theorem insertStep_move (tick : Tick) (w : EmailWorld) (evt : SendgridEvent) (lead : LeadRow)
    (event : EmailEvent) (todo : List PostedEvent) :
    IngestMove lib campaigns tick w (.loaded evt lead event todo) (insertStep w lead event todo).1
      (insertStep w lead event todo).2 := by
  unfold insertStep
  by_cases hrecorded : Recorded w.events event.sgEventId
  · -- another request was faster: the unique index rejects the row
    rw [createEvent_error hrecorded]
    exact .dies (by rintro _ _ _ h; cases h)
  · obtain ⟨events, hcreate, hrows⟩ := createEvent_ok hrecorded
    rw [hcreate]
    exact .records hrecorded hrows

/-- **Step inversion**, for a request whose lead is still there. -/
theorem move_of_step {tick : Tick} {w w' : EmailWorld} {phase phase' : IngestPhase}
    (hlead : ∀ lead event todo, phase = .committed lead event todo →
      ∃ current, w.leads.get? lead.1 = some (lead.1, current))
    (h : ingestCallStep lib campaigns tick w phase = some (w', phase')) :
    IngestMove lib campaigns tick w phase w' phase' := by
  unfold ingestCallStep at h
  split at h
  · cases h
  · rename_i r hlive
    rw [Option.some.injEq] at h
    -- a crash ends the call with what it has committed
    by_cases hcrash : tick.crash = true
    · rw [if_pos hcrash, Prod.mk.injEq] at h
      obtain ⟨rfl, rfl⟩ := h
      exact .dies fun _ _ _ _ => hcrash
    · rw [if_neg hcrash] at h
      subst h
      cases phase with
      | ready todo =>
          cases todo with
          | nil =>
              cases hlive
              exact .ends
          | cons evt todo =>
              cases hlive
              exact selectStep_move tick w evt todo
      | selected evt key todo =>
          cases hlive
          unfold loadStep
          split
          · exact .dies (by rintro _ _ _ h; cases h)
          · rename_i hread
            exact .passes hread
          · rename_i lead event hread
            exact .loads hread
      | loaded evt lead event todo =>
          have hstep : insertStep w lead event todo = (w', phase') := Option.some.inj hlive
          have hmove : IngestMove lib campaigns tick w (.loaded evt lead event todo)
              (insertStep w lead event todo).1 (insertStep w lead event todo).2 :=
            insertStep_move tick w evt lead event todo
          rw [hstep] at hmove
          exact hmove
      | committed lead event todo =>
          have hstep : rollupStep lib tick.clock w lead event todo = (w', phase') :=
            Option.some.inj hlive
          obtain ⟨current, hget⟩ := hlead lead event todo rfl
          obtain ⟨leads, hbump, hleads⟩ := bumpLeadRollup_spec lib tick.clock event hget
          rw [rollupStep, hbump] at hstep
          cases hstep
          exact .rollsUp hget hleads
      | finished => cases hlive
      | failed => cases hlive

end SalesTrades.Emails
