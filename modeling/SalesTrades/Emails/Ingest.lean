import SalesTrades.Emails.Model
import SalesTrades.Leads.Capture

/-!
# Ingesting a batch of email events

`ingest_events`, `_ingest_one` and `_bump_lead_rollup` over the tables of leads and events, one call
after the other. The exception handler of `ingest_events` is part of the model: what it passes to
the logger decides whether it returns.
-/

set_option autoImplicit false

namespace SalesTrades.Emails

open SalesTrades.Library SalesTrades.Leads

/-- The tables the ingest writes. -/
structure EmailWorld where
  leads : LeadTable
  events : EmailEventTable

/-- The clock readings of one `_ingest_one`: for an event without a time stamp, for the recency
bonus of the score, and for `score_computed_at`. -/
structure EventClock where
  received : Int
  scored : Int
  computed : Int
  deriving DecidableEq

/-! ## The rollup of a lead -/

/-- `occurred_at > lead.pack_opened_at`, or no open so far. -/
def latestOpen (openedAt : Option Datetime) (occurredAt : Datetime) : Option Datetime :=
  match openedAt with
  | none => some occurredAt
  | some before => if before.instant < occurredAt.instant then some occurredAt else some before

/-- The attributes `_bump_lead_rollup` assigns before it scores, `none` where nothing changed. -/
def rollup (lead : Lead) (event : EmailEvent) : Option Lead :=
  match event.eventType with
  | .eventOpen => some
      { lead with
        packOpenedAt := latestOpen lead.packOpenedAt event.occurredAt
        packOpenedCount := lead.packOpenedCount + 1 }
  | .eventClick =>
      match event.material with
      | none => none
      | some material =>
          -- `and material`: the empty label is falsy
          if material = "" then none
          else if material ∈ lead.packClickedMaterials.getD [] then none
          else some
            { lead with
              packClickedMaterials := some (lead.packClickedMaterials.getD [] ++ [material]) }
  | _ => none

/-- The score and its time. -/
def scored (lib : Lib) (clock : EventClock) (lead : Lead) : Lead :=
  { lead with
    engagementScore := engagementScore lib.text lead (utc clock.scored)
    scoreComputedAt := some (utc clock.computed) }

/-- `_bump_lead_rollup` for a lead that was loaded as `lead`. -/
def bumpLeadRollup (lib : Lib) (clock : EventClock) (leads : LeadTable) (lead : LeadRow)
    (event : EmailEvent) : Except PyError LeadTable :=
  match rollup lead.2 event with
  | none => .ok leads
  | some changed => (update leads lead (scored lib clock changed)).map Prod.snd

/-- Only opens and clicks are rolled up. -/
def feedsRollup (eventType : EventType) : Bool :=
  eventType == .eventOpen || eventType == .eventClick

/-! ## One event -/

/-- `_ingest_one` up to the insert: the lead and the new row, `none` where it returns `False`. -/
def attributeEvent (lib : Lib) (campaigns : List CampaignRow) (received : Int) (w : EmailWorld)
    (evt : PostedEvent) : Except PyError (Option (LeadRow × EmailEvent)) :=
  match evt with
  | .obj members =>
      match eventKey members with
      | .error e => .error e
      | .ok none => .ok none
      | .ok (some key) =>
          -- already recorded: delivery is at least once
          if (getBySgEventId w.events key.sgEventId).isSome = true then .ok none
          else readEvent lib campaigns received w.leads members key
  | .other => .error .attributeError

/-- The insert with its commit, then the rollup with its own. -/
def storeEvent (lib : Lib) (clock : EventClock) (lead : LeadRow) (event : EmailEvent)
    (w : EmailWorld) : EmailWorld × Except PyError Bool :=
  match createEvent w.events event with
  | .error e => (w, .error e)
  | .ok events =>
      if feedsRollup event.eventType = true then
        match bumpLeadRollup lib clock w.leads lead event with
        | .error e => (⟨w.leads, events⟩, .error e)
        | .ok leads => (⟨leads, events⟩, .ok true)
      else (⟨w.leads, events⟩, .ok true)

/-- `_ingest_one`. -/
def ingestOne (lib : Lib) (campaigns : List CampaignRow) (evt : PostedEvent) (clock : EventClock)
    (w : EmailWorld) : EmailWorld × Except PyError Bool :=
  match attributeEvent lib campaigns clock.received w evt with
  | .error e => (w, .error e)
  | .ok none => (w, .ok false)
  | .ok (some (lead, event)) => storeEvent lib clock lead event w

/-! ## A batch -/

/-- Python's binding of call arguments: a positional parameter that is given by keyword as well is a
`TypeError`. -/
def bindArguments (parameters : List String) (positional : Nat) (keywords : List String) :
    Except PyError Unit :=
  if (parameters.take positional).any (fun p => decide (p ∈ keywords)) = true then .error .typeError
  else .ok ()

/-- `logger.exception("email event ingest failed", event=evt.get("event"))`. -/
def logFailure (lib : Lib) (evt : PostedEvent) : Except PyError Unit :=
  match evt.get "event" with
  | .error e => .error e
  | .ok _ => bindArguments lib.exceptionParameters 1 ["event"]

/-- The handler raises whatever the event was: the message takes the parameter `event`, and the
keyword names it again. -/
theorem logFailure_raises (lib : Lib) (evt : PostedEvent) : ∃ e, logFailure lib evt = .error e := by
  unfold logFailure
  cases evt.get "event" with
  | error e => exact ⟨e, rfl⟩
  | ok value =>
      refine ⟨.typeError, ?_⟩
      have hhead := lib.exceptionParameters_head
      cases hparameters : lib.exceptionParameters with
      | nil =>
          rw [hparameters] at hhead
          cases hhead
      | cons p ps =>
          rw [hparameters, List.head?_cons, Option.some.injEq] at hhead
          subst hhead
          rfl

/-- `ingest_events`: the tables it leaves and the count it returns. The session a failed flush
leaves behind is not tracked, because no event is read after one (`logFailure_raises`). -/
def ingestEvents (lib : Lib) (campaigns : List CampaignRow) :
    List (PostedEvent × EventClock) → EmailWorld → EmailWorld × Except PyError Nat
  | [], w => (w, .ok 0)
  | (evt, clock) :: rest, w =>
      match ingestOne lib campaigns evt clock w with
      | (w', .ok processed) =>
          let (w'', count) := ingestEvents lib campaigns rest w'
          (w'', count.map fun n => n + if processed = true then 1 else 0)
      | (w', .error _) =>
          match logFailure lib evt with
          | .error e => (w', .error e)
          | .ok () => ingestEvents lib campaigns rest w'

variable {lib : Lib} {campaigns : List CampaignRow}

/-- An event that goes through is counted, and the rest of the batch follows. -/
theorem ingestEvents_cons_ok {x : PostedEvent × EventClock} {rest : List (PostedEvent × EventClock)}
    {w w' : EmailWorld} {processed : Bool}
    (h : ingestOne lib campaigns x.1 x.2 w = (w', .ok processed)) :
    ingestEvents lib campaigns (x :: rest) w =
      ((ingestEvents lib campaigns rest w').1,
        (ingestEvents lib campaigns rest w').2.map fun n =>
          n + if processed = true then 1 else 0) := by
  rw [ingestEvents, h]

/-- An event that fails ends the batch. -/
theorem ingestEvents_cons_error {x : PostedEvent × EventClock} {rest : List (PostedEvent × EventClock)}
    {w w' : EmailWorld} {e : PyError}
    (h : ingestOne lib campaigns x.1 x.2 w = (w', .error e)) :
    ∃ e', ingestEvents lib campaigns (x :: rest) w = (w', .error e') := by
  obtain ⟨e', he'⟩ := logFailure_raises lib x.1
  refine ⟨e', ?_⟩
  rw [ingestEvents, h]
  simp only [he']

/-- Batches one after another. -/
def ingestBatches (lib : Lib) (campaigns : List CampaignRow)
    (batches : List (List (PostedEvent × EventClock))) (w : EmailWorld) : EmailWorld :=
  batches.foldl (fun w batch => (ingestEvents lib campaigns batch w).1) w

/-! ## A lead and her events -/

/-- The libraries on ASCII digits and on numbers of seconds. -/
def plainLib : Lib where
  text := asciiLower
  isdigit s := s ≠ "" && s.toList.all Char.isDigit
  int s :=
    if s.toList.all Char.isDigit = true then
      .ok (s.toList.foldl (fun n c => 10 * n + (c.toNat - 48)) 0)
    else .error .valueError
  fromtimestamp value :=
    match value with
    | .num q => .ok (q * 1000000).floor
    | _ => .error .typeError
  exceptionParameters := ["event"]
  exceptionParameters_head := rfl

/-- Ada has been captured, and no event has come in. -/
def oneLead : EmailWorld where
  leads :=
    match create (Table.empty _) (newLead 1 "ada@x.ng") with
    | .error _ => Table.empty _
    | .ok (_, leads) => leads
  events := Table.empty _

theorem oneLead_rows : oneLead.leads.rows = [(1, newLead 1 "ada@x.ng")] := rfl

/-- An event about Ada's mail. -/
def adaEvent (event sgEventId : String) (timestamp : Json) (fields : List (String × Json)) :
    PostedEvent :=
  .obj (([("event", .str event), ("sg_event_id", .str sgEventId), ("lead_id", .str "1"),
    ("email", .str "ada@x.ng"), ("timestamp", timestamp)] ++ fields).map fun field =>
      (field.1, .plain field.2))

def midnight : EventClock := ⟨0, 0, 0⟩

end SalesTrades.Emails
