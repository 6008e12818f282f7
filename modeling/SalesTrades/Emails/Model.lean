import SalesTrades.Leads.Scoring

/-!
# Email events

The `email_events` table with its unique index on `sg_event_id`, the fields of an event as SendGrid
posts it, and the part of `_ingest_one` that reads an event against the `leads` table: which lead it
is about and which row it becomes (`readEvent`). The `config` of a campaign is any JSON value, as
its column is: `_resolve_material` comes to the campaigns of all leads. The library functions whose
results are stored, and the signature of the logger, are the parameter `Lib`.
-/

set_option autoImplicit false

namespace SalesTrades.Emails

open SalesTrades.Library SalesTrades.Leads

/-- `_TRACKED_EVENTS`. -/
inductive EventType where
  | eventOpen
  | eventClick
  | eventDelivered
  | eventBounce
  | eventDropped
  | eventSpamreport
  | eventUnsubscribe
  deriving DecidableEq

def EventType.text : EventType → String
  | .eventOpen => "open"
  | .eventClick => "click"
  | .eventDelivered => "delivered"
  | .eventBounce => "bounce"
  | .eventDropped => "dropped"
  | .eventSpamreport => "spamreport"
  | .eventUnsubscribe => "unsubscribe"

def trackedEvents : List EventType :=
  [.eventOpen, .eventClick, .eventDelivered, .eventBounce, .eventDropped, .eventSpamreport,
    .eventUnsubscribe]

/-- `event_type in _TRACKED_EVENTS`, for a string. -/
def trackedEvent (s : String) : Option EventType := trackedEvents.find? fun t => t.text == s

theorem trackedEvent_eq_some {s : String} {t : EventType} :
    trackedEvent s = some t ↔ s = t.text := by
  constructor
  · intro h
    have hfound := List.find?_some h
    rw [beq_iff_eq] at hfound
    exact hfound.symm
  · rintro rfl
    cases t <;> decide

/-! ## Tables -/

/-- A row of `email_events`. -/
structure EmailEvent where
  leadId : Nat
  emailKind : Option String
  eventType : EventType
  material : Option String
  url : Option String
  sgEventId : String
  sgMessageId : Option String
  occurredAt : Datetime
  deriving DecidableEq

/-- `idx_email_events_sg_event_id`. -/
def EmailEvent.sgKey (event : EmailEvent) : Option String := some event.sgEventId

abbrev EmailEventTable := Table EmailEvent.sgKey

/-- `get_by_sg_event_id`. -/
def getBySgEventId (t : EmailEventTable) (sgEventId : String) : Option (Nat × EmailEvent) :=
  t.first fun event => event.sgEventId == sgEventId

/-- The event is in the table. -/
def Recorded (t : EmailEventTable) (sgEventId : String) : Prop :=
  ∃ row ∈ t.rows, row.2.sgEventId = sgEventId

theorem getBySgEventId_isSome {t : EmailEventTable} {sgEventId : String} :
    (getBySgEventId t sgEventId).isSome = true ↔ Recorded t sgEventId := by
  simp [getBySgEventId, Table.first, Recorded]

instance (t : EmailEventTable) (sgEventId : String) : Decidable (Recorded t sgEventId) :=
  decidable_of_iff _ getBySgEventId_isSome

/-- `session.add`, `commit`, `refresh` of a new row. -/
def createEvent (t : EmailEventTable) (event : EmailEvent) : Except PyError EmailEventTable :=
  match t.insert event with
  | none => .error .integrityError
  | some (_, t') => .ok t'

/-- The unique index rejects an event that is in the table. -/
theorem createEvent_error {t : EmailEventTable} {event : EmailEvent}
    (h : Recorded t event.sgEventId) : createEvent t event = .error .integrityError := by
  obtain ⟨row, hrow, hkey⟩ := h
  have hnone : t.insert event = none :=
    Table.insert_eq_none_iff.2 ⟨row, hrow, event.sgEventId, rfl, by rw [← hkey]; rfl⟩
  rw [createEvent, hnone]

/-- A new event is appended. -/
theorem createEvent_ok {t : EmailEventTable} {event : EmailEvent}
    (h : ¬ Recorded t event.sgEventId) :
    ∃ t', createEvent t event = .ok t' ∧ t'.rows = t.rows ++ [(t.nextId, event)] := by
  unfold createEvent
  cases hins : t.insert event with
  | none =>
      exfalso
      obtain ⟨row, hrow, k, hk, hrk⟩ := Table.insert_eq_none_iff.1 hins
      apply h
      refine ⟨row, hrow, ?_⟩
      exact Option.some.inj (hrk.trans hk.symm)
  | some r =>
      obtain ⟨id, t'⟩ := r
      obtain ⟨rfl, hrows, -⟩ := Table.insert_eq_some hins
      exact ⟨t', rfl, hrows⟩

/-! ## Campaigns -/

/-- A row of `campaigns`: its `config` may be any JSON value. -/
structure CampaignRow where
  id : Nat
  config : Json
  deriving DecidableEq

/-- `(campaign.config or {}).get("materials_assets", {})`, with its items: only a `dict` has them. -/
def CampaignRow.assets (campaign : CampaignRow) : Except PyError (List (String × Json)) :=
  match campaign.config.orElse (.obj []) with
  | .obj members =>
      match members.find? fun m => m.1 == "materials_assets" with
      | none => .ok []
      | some (_, .obj assets) => .ok assets
      | some _ => .error .attributeError
  | _ => .error .attributeError

/-! ## Libraries -/

/-- The first integer that does not fit a `BIGINT` column. -/
def bigintBound : Nat := 9223372036854775808

/-- An aware time stamp in UTC. -/
def utc (microseconds : Int) : Datetime := ⟨microseconds, some 0⟩

@[simp]
theorem utc_instant (m : Int) : (utc m).instant = m := by
  simp [utc, Datetime.instant]

/-- The library functions the ingest calls, and the positional parameters of the logger's
`exception` after `self`, of which the first is the message. -/
structure Lib where
  text : LowerCase
  /-- `s.isdigit()`. -/
  isdigit : String → Bool
  /-- `int(s)`. -/
  int : String → Except PyError Nat
  /-- `datetime.fromtimestamp(value, tz=UTC)`. -/
  fromtimestamp : Json → Except PyError Int
  exceptionParameters : List String
  exceptionParameters_head : exceptionParameters.head? = some "event"

/-! ## Reading an event -/

/-- A value of an event. `str` of a number that was posted with a point or an exponent has one too,
so it is told apart from an integer that is equal to it. -/
inductive EventValue where
  | float (q : ℚ)
  | plain (value : Json)
  deriving DecidableEq

/-- The value as any other part of the code sees it. -/
def EventValue.value : EventValue → Json
  | .float q => .num q
  | .plain value => value

/-- An event as SendGrid posts it: the members of a JSON object. -/
abbrev SendgridEvent : Type := List (String × EventValue)

/-- `evt.get(key)`, with the form of a number. -/
def SendgridEvent.posted (evt : SendgridEvent) (key : String) : EventValue :=
  ((evt.find? fun m => m.1 == key).map Prod.snd).getD (.plain .null)

/-- `evt.get(key)`. -/
def SendgridEvent.get (evt : SendgridEvent) (key : String) : Json := (evt.posted key).value

/-- An element of the posted list: nothing makes it an object. -/
inductive PostedEvent where
  | obj (evt : SendgridEvent)
  | other
  deriving DecidableEq

/-- `evt.get(key)`: only a `dict` has the method. -/
def PostedEvent.get (evt : PostedEvent) (key : String) : Except PyError Json :=
  match evt with
  | .obj members => .ok (SendgridEvent.get members key)
  | .other => .error .attributeError

/-- What an event is deduplicated by, with its type. -/
structure EventKey where
  eventType : EventType
  sgEventId : String
  deriving DecidableEq

/-- `sg_event_id` as the parameter of the lookup, `none` where it is missing. -/
def sgEventIdOf (value : Json) : Except PyError (Option String) :=
  if value.truthy = true then
    match value with
    | .str s => if isText s = true then .ok (some s) else .error .dataError
    | _ => .error .dataError
  else .ok none

/-- The event type and the `sg_event_id`, `none` where the event is skipped. An array or object has
no hash, so the membership test raises. -/
def eventKey (evt : SendgridEvent) : Except PyError (Option EventKey) :=
  match evt.get "event" with
  | .arr _ => .error .typeError
  | .obj _ => .error .typeError
  | .str s =>
      match trackedEvent s with
      | none => .ok none
      | some eventType =>
          (sgEventIdOf (evt.get "sg_event_id")).map
            (Option.map fun sgEventId => ⟨eventType, sgEventId⟩)
  | _ => .ok none

/-- `int(lead_id_raw)`, `none` where it is missing or not a string of digits. A positive integer is
one when it is printed, and a `float` is not. -/
def leadIdOf (lib : Lib) (leadIdRaw : EventValue) : Except PyError (Option Nat) :=
  match leadIdRaw with
  | .float _ => .ok none
  | .plain (.str s) => if s ≠ "" ∧ lib.isdigit s = true then (lib.int s).map some else .ok none
  | .plain (.num q) => if q.den = 1 ∧ 0 < q.num then .ok (some q.num.toNat) else .ok none
  | .plain _ => .ok none

/-- `leads_repo.get`. The driver takes no parameter beyond the range of the column. -/
def getLead (leads : LeadTable) (leadId : Nat) : Except PyError (Option LeadRow) :=
  if leadId < bigintBound then .ok (leads.get? leadId) else .error .dataError

/-- The lead the event is about. -/
def leadOf (lib : Lib) (leads : LeadTable) (evt : SendgridEvent) :
    Except PyError (Option LeadRow) :=
  match leadIdOf lib (evt.posted "lead_id") with
  | .error e => .error e
  | .ok none => .ok none
  | .ok (some leadId) => getLead leads leadId

/-- `(email or "").strip().lower()`. -/
def recipientOf (lib : Lib) (email : Json) : Except PyError String :=
  match email.orElse (.str "") with
  | .str s => .ok (lib.text.lower (strip s))
  | _ => .error .attributeError

/-- The event is about the mail to the lead, not about a copy. -/
def isOwnEngagement (lib : Lib) (lead : Lead) (recipient : String) : Bool :=
  recipient == "" || recipient == lib.text.lower lead.email

/-- `urls`: a list as it is, any other value as its only element. -/
def urlsOf (value : Json) : List Json :=
  match value with
  | .arr urls => urls
  | _ => [value]

/-- The label of the first asset that has the URL. -/
def labelIn (assets : List (String × Json)) (url : Json) : Option String :=
  (assets.find? fun asset => decide (url ∈ urlsOf asset.2)).map Prod.fst

/-- The loop over the campaigns. It stops at the first label, and what comes after is not read. -/
def scanCampaigns (url : Json) : List CampaignRow → Except PyError (Option String)
  | [] => .ok none
  | campaign :: rest =>
      match campaign.assets with
      | .error e => .error e
      | .ok assets =>
          match labelIn assets url with
          | some label => .ok (some label)
          | none => scanCampaigns url rest

/-- `_resolve_material`. -/
def resolveMaterial (campaigns : List CampaignRow) (url : Json) : Except PyError (Option String) :=
  if url.truthy = true then scanCampaigns url campaigns else .ok none

/-- The parameter for a nullable text column. -/
def textOf (value : Json) : Except PyError (Option String) :=
  match value with
  | .null => .ok none
  | .str s => if isText s = true then .ok (some s) else .error .dataError
  | _ => .error .dataError

/-- `url`: of a click only. -/
def urlOf (evt : SendgridEvent) (eventType : EventType) : Json :=
  if eventType = .eventClick then evt.get "url" else .null

/-- `occurred_at`. -/
def occurredAtOf (lib : Lib) (received : Int) (timestamp : Json) : Except PyError Int :=
  if timestamp.truthy = true then lib.fromtimestamp timestamp else .ok received

/-- The row to insert, as the driver encodes it. -/
def newEvent (lib : Lib) (campaigns : List CampaignRow) (received : Int) (leadId : Nat)
    (evt : SendgridEvent) (key : EventKey) : Except PyError EmailEvent := do
  let material ← resolveMaterial campaigns (urlOf evt key.eventType)
  let occurredAt ← occurredAtOf lib received (evt.get "timestamp")
  let emailKind ← textOf (evt.get "email_kind")
  let url ← textOf (urlOf evt key.eventType)
  let sgMessageId ← textOf (evt.get "sg_message_id")
  .ok
    { leadId := leadId
      emailKind := emailKind
      eventType := key.eventType
      material := material
      url := url
      sgEventId := key.sgEventId
      sgMessageId := sgMessageId
      occurredAt := utc occurredAt }

/-- The row an event about `lead` becomes, `none` where it is about a copy of the mail. -/
def eventFor (lib : Lib) (campaigns : List CampaignRow) (received : Int) (lead : LeadRow)
    (evt : SendgridEvent) (key : EventKey) : Except PyError (Option EmailEvent) :=
  match recipientOf lib (evt.get "email") with
  | .error e => .error e
  | .ok recipient =>
      if isOwnEngagement lib lead.2 recipient = true then
        (newEvent lib campaigns received lead.1 evt key).map some
      else .ok none

/-- The lead an event counts for and the row it becomes, `none` where it is skipped. -/
def readEvent (lib : Lib) (campaigns : List CampaignRow) (received : Int) (leads : LeadTable)
    (evt : SendgridEvent) (key : EventKey) : Except PyError (Option (LeadRow × EmailEvent)) :=
  match leadOf lib leads evt with
  | .error e => .error e
  | .ok none => .ok none
  | .ok (some lead) =>
      (eventFor lib campaigns received lead evt key).map (Option.map fun event => (lead, event))

end SalesTrades.Emails
