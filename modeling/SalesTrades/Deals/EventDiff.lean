import SalesTrades.Deals.Webhook

/-!
# The log entries of a webhook

`diffOf` says which entries a log should get for a deal that stood at one position and now stands at
another. `ExactDiff` compares the entries a call appended with the positions stored before and after
it. The new owner of `detect_changes` and the owner the upsert leaves can be different, and
`exactDiff_iff` says exactly when they are.
-/

set_option autoImplicit false

namespace SalesTrades.Deals

open SalesTrades.Library

/-! ## Changes of a position -/

/-- The kind of an event with its old and new values. -/
structure Change where
  eventType : EventType
  oldPipelineId : Option Int := none
  newPipelineId : Option Int := none
  oldStageId : Option Int := none
  newStageId : Option Int := none
  oldOwnerId : Option Int := none
  newOwnerId : Option Int := none
  deriving DecidableEq

def DealEvent.change (e : DealEvent) : Change where
  eventType := e.eventType
  oldPipelineId := e.oldPipelineId
  newPipelineId := e.newPipelineId
  oldStageId := e.oldStageId
  newStageId := e.newStageId
  oldOwnerId := e.oldOwnerId
  newOwnerId := e.newOwnerId

def createdAt (new : Position) : Change where
  eventType := .created
  newPipelineId := new.pipelineId
  newStageId := new.stageId
  newOwnerId := new.ownerId

def stageChange (old new : Position) : Change where
  eventType := .stageChange
  oldPipelineId := old.pipelineId
  newPipelineId := new.pipelineId
  oldStageId := old.stageId
  newStageId := new.stageId

def ownerChange (old new : Position) : Change where
  eventType := .ownerChange
  oldOwnerId := old.ownerId
  newOwnerId := new.ownerId

/-- What a log should say of a deal that stood at `before`, or did not exist, and stands at `new`. -/
def diffOf (before : Option Position) (new : Position) : List Change :=
  match before with
  | none => [createdAt new]
  | some old =>
      (if (old.pipelineId, old.stageId) ≠ (new.pipelineId, new.stageId) then
        [stageChange old new] else []) ++
      (if old.ownerId ≠ new.ownerId then [ownerChange old new] else [])

/-- A deal that stands where it stood has no entry. -/
theorem diffOf_self (p : Position) : diffOf (some p) p = [] := by
  simp [diffOf]

/-- The entries tell the positions of an existing deal apart. -/
theorem diffOf_injective {old new new' : Position} (h : diffOf (some old) new = diffOf (some old) new')
    : new = new' := by
  obtain ⟨p, s, o⟩ := old
  obtain ⟨p₁, s₁, o₁⟩ := new
  obtain ⟨p₂, s₂, o₂⟩ := new'
  simp only [diffOf] at h
  split_ifs at h <;> simp_all [stageChange, ownerChange]

/-- `detect_changes` returns the entries of the position it is given. -/
theorem detectChanges_change (id : Int) (existing : Option DealRow) (new : Position)
    (occurredAt : Datetime) (source : EventSource) (payload : JsonObject) :
    (detectChanges id existing new.pipelineId new.stageId new.ownerId occurredAt source
      payload).map DealEvent.change = diffOf (existing.map DealRow.position) new := by
  cases existing with
  | none => rfl
  | some row =>
      simp only [detectChanges, diffOf, Option.map_some, List.map_append, DealRow.position]
      congr 1
      · split <;> rfl
      · split <;> rfl

theorem detectChanges_dealId {id : Int} {existing : Option DealRow} {p s o : Option Int}
    {occurredAt : Datetime} {source : EventSource} {payload : JsonObject} :
    ∀ e ∈ detectChanges id existing p s o occurredAt source payload, e.dealId = id := by
  intro e he
  cases existing with
  | none =>
      rw [detectChanges, List.mem_singleton] at he
      rw [he]
  | some row =>
      rw [detectChanges, List.mem_append] at he
      rcases he with he | he
      · split at he
        · rw [List.mem_singleton] at he
          rw [he]
        · cases he
      · split at he
        · rw [List.mem_singleton] at he
          rw [he]
        · cases he

/-! ## One call -/

section OneCall

variable {ref : Reference} {lib : PyLib} {resolver : PipelineStageResolver} {now : Datetime}
  {payload : JsonObject} {db db' : DealDb ref} {r : WebhookReading}

/-- The entries appended between two databases are those of the positions of the deal stored in
them. -/
def ExactDiff (db db' : DealDb ref) (id : Int) : Prop :=
  ∃ row, db'.deals id = some row ∧ ∃ new, db'.events = db.events ++ new ∧
    (∀ e ∈ new, e.dealId = id) ∧
    new.map DealEvent.change = diffOf ((db.deals id).map DealRow.position) row.position

/-- The webhook names an owner that is not in the tables for a deal that has one. -/
def LosesOwner (db : DealDb ref) (webhook : FreshsalesDealWebhook) : Prop :=
  (∃ o ∈ webhook.dealOwnerId, o ∉ ref.owners) ∧
    ∃ row ∈ db.deals webhook.dealId, row.ownerId.isSome = true

/-- The position `detect_changes` is given. -/
def WebhookReading.newPosition (r : WebhookReading) (resolver : PipelineStageResolver)
    (db : DealDb ref) : Position where
  pipelineId := (r.place resolver db).1
  stageId := (r.place resolver db).2
  ownerId := r.owner db

/-- The new owner is dropped for a deal that keeps one exactly when the webhook names an unknown
owner: an owner it does not name is known, being stored. -/
theorem owner_dropped_iff :
    (r.owner db = none ∧ (r.existing db).bind DealRow.ownerId ≠ none) ↔
      LosesOwner db r.webhook := by
  rw [WebhookReading.owner, WebhookReading.existing, LosesOwner, newOwner]
  constructor
  · rintro ⟨hnone, hold⟩
    obtain ⟨o, ho⟩ := Option.ne_none_iff_exists'.1 hold
    obtain ⟨row, hrow, hrowo⟩ := Option.bind_eq_some_iff.1 ho
    refine ⟨?_, row, hrow, by simp [hrowo]⟩
    cases hw : r.webhook.dealOwnerId with
    | none =>
        -- the stored owner is known, so it would have been kept
        have hknown := (db.fk _ row hrow).2.2 o hrowo
        rw [hw, ho] at hnone
        simp [hknown] at hnone
    | some w =>
        refine ⟨w, rfl, ?_⟩
        rw [hw] at hnone
        simpa using hnone
  · rintro ⟨⟨w, hw, hunknown⟩, row, hrow, howned⟩
    rw [Option.mem_def] at hw hrow
    constructor
    · simp [hw, hunknown]
    · rw [hrow, Option.bind_some]
      exact Option.isSome_iff_ne_none.1 howned

/-- The position a call stores is the one it has logged, the owner apart. -/
theorem ingestWebhook_stored (hread : ReadsAs lib payload r)
    (h : ingestWebhook lib resolver now payload db = .ok db') :
    ∃ row, db'.deals r.webhook.dealId = some row ∧
      row.position =
        { r.newPosition resolver db with
          ownerId := (r.owner db).or ((r.existing db).bind DealRow.ownerId) } :=
  ingestWebhook_position hread h

/-- The entries of a call are those of the position it was given. -/
theorem events_change :
    (r.events resolver now payload db).map DealEvent.change =
      diffOf ((db.deals r.webhook.dealId).map DealRow.position) (r.newPosition resolver db) :=
  detectChanges_change r.webhook.dealId (r.existing db) (r.newPosition resolver db)
    (r.stageUpdated.getD now) .webhook payload

/-- The stored owner is the logged one unless an owner is dropped. -/
theorem stored_eq_newPosition_iff {row : DealRow}
    (hrow : row.position =
      { r.newPosition resolver db with
        ownerId := (r.owner db).or ((r.existing db).bind DealRow.ownerId) }) :
    row.position = r.newPosition resolver db ↔ ¬ LosesOwner db r.webhook := by
  rw [hrow, ← owner_dropped_iff, WebhookReading.newPosition, Position.mk.injEq]
  cases howner : r.owner db with
  | none => simp
  | some o => simp

/-- **Exactness of one call.** The entries are those of the stored positions exactly when no owner
is lost. -/
theorem exactDiff_iff (hread : ReadsAs lib payload r)
    (h : ingestWebhook lib resolver now payload db = .ok db') :
    ExactDiff db db' r.webhook.dealId ↔ ¬ LosesOwner db r.webhook := by
  obtain ⟨row, hrow, hpos⟩ := ingestWebhook_stored hread h
  obtain ⟨-, -, -, hevents⟩ := ingestWebhook_spec hread h
  rw [← stored_eq_newPosition_iff hpos]
  constructor
  · rintro ⟨row', hrow', new, hnew, -, hchange⟩
    rw [hrow, Option.some.injEq] at hrow'
    subst hrow'
    rw [hevents, List.append_cancel_left_eq] at hnew
    subst hnew
    rw [events_change] at hchange
    cases hex : db.deals r.webhook.dealId with
    | none =>
        rw [hex] at hchange
        rw [hpos]
        simp [WebhookReading.existing, hex, WebhookReading.newPosition]
    | some old =>
        rw [hex, Option.map_some] at hchange
        exact (diffOf_injective hchange).symm
  · intro hstored
    refine ⟨row, hrow, _, hevents, detectChanges_dealId, ?_⟩
    rw [events_change, hstored]

/-! ## The same payload again -/

/-- The names of the payload resolve as before, and names that do not resolve keep what is there. -/
theorem place_again (hread : ReadsAs lib payload r)
    (h : ingestWebhook lib resolver now payload db = .ok db') :
    r.place resolver db' = r.place resolver db := by
  obtain ⟨row, hrow, hpos⟩ := ingestWebhook_stored hread h
  rw [WebhookReading.newPosition, DealRow.position, Position.mk.injEq] at hpos
  rw [WebhookReading.place, WebhookReading.existing, hrow]
  cases hres : r.webhook.resolution resolver with
  | some res => simp [WebhookReading.place, newPlace, hres]
  | none =>
      rw [newPlace, hpos.1, hpos.2.1]

theorem owner_again (hread : ReadsAs lib payload r)
    (h : ingestWebhook lib resolver now payload db = .ok db') (hkeeps : ¬ LosesOwner db r.webhook) :
    r.owner db' = (r.owner db).or ((r.existing db).bind DealRow.ownerId) := by
  obtain ⟨row, hrow, hpos⟩ := ingestWebhook_stored hread h
  have hstored := (stored_eq_newPosition_iff hpos).2 hkeeps
  have hpos' : row.ownerId = (r.owner db).or ((r.existing db).bind DealRow.ownerId) :=
    congrArg Position.ownerId hpos
  have hsame : row.ownerId = r.owner db := congrArg Position.ownerId hstored
  rw [← hpos', WebhookReading.owner, WebhookReading.existing, hrow]
  cases hw : r.webhook.dealOwnerId with
  | none =>
      -- the stored owner is known
      rw [newOwner, Option.none_or, Option.bind_some]
      cases ho : row.ownerId with
      | none => rfl
      | some o =>
          have hknown := (db'.fk _ row hrow).2.2 o ho
          simp [hknown]
  | some w =>
      -- the owner the webhook names is filtered as before
      rw [hsame, WebhookReading.owner, newOwner, newOwner, hw, Option.some_or, Option.some_or]

/-- A second delivery right after the first logs nothing, unless the first lost an owner. -/
theorem events_again (hread : ReadsAs lib payload r)
    (h : ingestWebhook lib resolver now payload db = .ok db') (hkeeps : ¬ LosesOwner db r.webhook)
    (later : Datetime) : r.events resolver later payload db' = [] := by
  obtain ⟨row, hrow, hpos⟩ := ingestWebhook_stored hread h
  have hnew : r.newPosition resolver db' = row.position := by
    rw [hpos, WebhookReading.newPosition, place_again hread h, owner_again hread h hkeeps]
    rfl
  have hchange : (r.events resolver later payload db').map DealEvent.change =
      diffOf ((db'.deals r.webhook.dealId).map DealRow.position) (r.newPosition resolver db') :=
    events_change
  rw [hrow, Option.map_some, hnew, diffOf_self, List.map_eq_nil_iff] at hchange
  exact hchange

/-- **The log entries of a webhook.** A valid payload is ingested; the entries are exactly those of
the stored positions, and a second delivery right after adds none, if and only if the payload does
not name an unknown owner for a deal that has one. -/
theorem webhook_entries_exact (hvalid : ValidPayload lib payload r) (hres : resolver.KnownTo ref)
    (later : Datetime) :
    (∃ db', ingestWebhook lib resolver now payload db = .ok db' ∧
        ExactDiff db db' r.webhook.dealId ∧
        ∃ db'', ingestWebhook lib resolver later payload db' = .ok db'' ∧
          db''.events = db'.events) ↔
      ¬ LosesOwner db r.webhook := by
  constructor
  · rintro ⟨db', h, hexact, -⟩
    exact (exactDiff_iff hvalid.toReadsAs h).1 hexact
  · intro hkeeps
    have ingested : ∀ at_ (start : DealDb ref), ∃ db',
        ingestWebhook lib resolver at_ payload start = .ok db' := by
      intro at_ start
      exact ingestWebhook_ok hvalid hres
    obtain ⟨db', h⟩ := ingested now db
    obtain ⟨db'', h'⟩ := ingested later db'
    refine ⟨db', h, (exactDiff_iff hvalid.toReadsAs h).2 hkeeps, db'', h', ?_⟩
    obtain ⟨-, -, -, hevents⟩ := ingestWebhook_spec hvalid.toReadsAs h'
    rw [hevents, events_again hvalid.toReadsAs h hkeeps later, List.append_nil]

end OneCall

/-- The owner of the first delivery is known. -/
theorem webhook_entries_exact_sample :
    ¬ LosesOwner (DealDb.empty sampleRef) (sampleReading "New" 5).webhook ∧
      ∃ db', ingestWebhook plainLib (buildStageResolver sampleRef) noon (samplePayload "New" 5)
          (DealDb.empty sampleRef) = .ok db' ∧
        ExactDiff (DealDb.empty sampleRef) db' 7 ∧
        ∃ db'', ingestWebhook plainLib (buildStageResolver sampleRef) noon (samplePayload "New" 5)
          db' = .ok db'' ∧ db''.events = db'.events := by
  have hkeeps : ¬ LosesOwner (DealDb.empty sampleRef) (sampleReading "New" 5).webhook := by
    rintro ⟨-, row, hrow, -⟩
    cases hrow
  exact ⟨hkeeps, (webhook_entries_exact (valid_samplePayload 5)
    (buildStageResolver_sound sampleRef).knownTo noon).2 hkeeps⟩

/-- Deal 7 has owner 5; a webhook that names owner 6, who is not in the tables, logs that the owner
is gone, and the row keeps owner 5. -/
theorem logged_owner_change_not_stored :
    ∃ db db' : DealDb sampleRef,
      ingestWebhook plainLib (buildStageResolver sampleRef) noon (samplePayload "New" 5)
        (DealDb.empty sampleRef) = .ok db ∧
      ingestWebhook plainLib (buildStageResolver sampleRef) noon (samplePayload "New" 6) db =
        .ok db' ∧
      ¬ ExactDiff db db' 7 := by
  have hsound := (buildStageResolver_sound sampleRef).knownTo
  have ingested : ∀ (ownerId : Int) (start : DealDb sampleRef), ∃ db',
      ingestWebhook plainLib (buildStageResolver sampleRef) noon (samplePayload "New" ownerId)
        start = .ok db' := by
    intro ownerId start
    exact ingestWebhook_ok (valid_samplePayload ownerId) hsound
  obtain ⟨db, h⟩ := ingested 5 (DealDb.empty sampleRef)
  obtain ⟨db', h'⟩ := ingested 6 db
  refine ⟨db, db', h, h', ?_⟩
  obtain ⟨row, hrow, hpos⟩ := ingestWebhook_stored (reads_samplePayload "New" 5) h
  have howner : row.ownerId = some 5 := congrArg Position.ownerId hpos
  have hlost : LosesOwner db (sampleReading "New" 6).webhook := by
    refine ⟨⟨6, rfl, by decide⟩, row, hrow, ?_⟩
    rw [howner]
    rfl
  intro hexact
  exact (exactDiff_iff (reads_samplePayload "New" 6) h').1 hexact hlost

end SalesTrades.Deals
