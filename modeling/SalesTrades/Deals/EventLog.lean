import SalesTrades.Deals.DealRuns
import SalesTrades.Deals.EventDiff

/-!
# The event log over runs

`replay` follows the entries of a deal from nothing. The log is the history the webhooks tell: every
change they make is in it (`webhook_changes_logged`), a sync adds no entry (`runDealSync_events`).
Replaying the entries of a deal gives its position as long as no sync moves it and no owner is lost
on the way (`always_replayed`).
-/

set_option autoImplicit false

namespace SalesTrades.Deals

open SalesTrades.Library

/-! ## Replay -/

/-- What an entry makes of a position, `none` being a deal that was not created. -/
def applyChange (before : Option Position) (change : Change) : Option Position :=
  match change.eventType with
  | .created =>
      some
        { pipelineId := change.newPipelineId
          stageId := change.newStageId
          ownerId := change.newOwnerId }
  | .stageChange =>
      before.map fun p =>
        { p with pipelineId := change.newPipelineId, stageId := change.newStageId }
  | .ownerChange => before.map fun p => { p with ownerId := change.newOwnerId }

def replay (changes : List Change) : Option Position := changes.foldl applyChange none

/-- The entries of a difference lead from the one position to the other. -/
theorem foldl_diffOf (before : Option Position) (new : Position) :
    (diffOf before new).foldl applyChange before = some new := by
  cases before with
  | none => rfl
  | some old =>
      obtain ⟨p, s, o⟩ := old
      obtain ⟨p', s', o'⟩ := new
      simp only [diffOf]
      split_ifs with hplace howner howner
      · simp [stageChange, ownerChange, applyChange]
      · have ho : o = o' := not_ne_iff.1 howner
        simp [stageChange, applyChange, ho]
      · have hps := not_ne_iff.1 hplace
        simp only [Prod.mk.injEq] at hps
        simp [ownerChange, applyChange, hps.1, hps.2]
      · have hps := not_ne_iff.1 hplace
        simp only [Prod.mk.injEq] at hps
        have ho : o = o' := not_ne_iff.1 howner
        simp [hps.1, hps.2, ho]

variable {ref : Reference} {lib : PyLib} {viewIds : List Int}

namespace DealDb

/-- The entries of a deal in the order of insertion. -/
def changesOf (db : DealDb ref) (id : Int) : List Change :=
  (db.events.filter fun e => e.dealId == id).map DealEvent.change

def positionOf (db : DealDb ref) (id : Int) : Option Position :=
  (db.deals id).map DealRow.position

end DealDb

/-- Appending the entries of another deal. -/
theorem changesOf_append_of_ne {db db' : DealDb ref} {new : List DealEvent} {id id' : Int}
    (h : db'.events = db.events ++ new) (hnew : ∀ e ∈ new, e.dealId = id') (hne : id' ≠ id) :
    db'.changesOf id = db.changesOf id := by
  have hnone : new.filter (fun e => e.dealId == id) = [] := by
    rw [List.filter_eq_nil_iff]
    intro e he
    rw [hnew e he]
    simpa using hne
  rw [DealDb.changesOf, h, List.filter_append, hnone, List.append_nil, DealDb.changesOf]

theorem changesOf_append_self {db db' : DealDb ref} {new : List DealEvent} {id : Int}
    (h : db'.events = db.events ++ new) (hnew : ∀ e ∈ new, e.dealId = id) :
    db'.changesOf id = db.changesOf id ++ new.map DealEvent.change := by
  have hall : new.filter (fun e => e.dealId == id) = new := by
    rw [List.filter_eq_self]
    intro e he
    simp [hnew e he]
  rw [DealDb.changesOf, h, List.filter_append, hall, List.map_append, DealDb.changesOf]

/-! ## What each operation logs -/

/-- A sync adds no entry. -/
theorem runDealSync_events (viewIds : List Int) (feed : Feed) (db : DealDb ref) :
    (runDealSync lib viewIds feed db).1.events = db.events := by
  have hstep : ∀ deal (d d' : DealDb ref), d.events = db.events →
      recordStep lib deal d = some d' → d'.events = db.events := by
    intro deal d d' hd h
    rcases recordStep_cases h with ⟨rfl, -⟩ | ⟨_, _, _, _, _, _, _, _, hevents⟩
    · exact hd
    · rw [hevents, hd]
  obtain ⟨part, -, hrun⟩ := runDealSync_prefix lib viewIds feed db
  exact Run.exec_invariant hstep rfl hrun

/-- Every change a webhook makes of the stored position, the creation of the row included, is
logged with its values. -/
theorem webhook_changes_logged {resolver : PipelineStageResolver} {now : Datetime}
    {payload : JsonObject} {db db' : DealDb ref} {r : WebhookReading}
    (hread : ReadsAs lib payload r) (h : ingestWebhook lib resolver now payload db = .ok db') :
    ∃ new, db'.events = db.events ++ new ∧ ∃ row, db'.deals r.webhook.dealId = some row ∧
      ∀ change ∈ diffOf (db.positionOf r.webhook.dealId) row.position,
        ∃ e ∈ new, e.dealId = r.webhook.dealId ∧ e.change = change := by
  obtain ⟨row, hrow, hpos⟩ := ingestWebhook_stored hread h
  obtain ⟨-, -, -, hevents⟩ := ingestWebhook_spec hread h
  refine ⟨_, hevents, row, hrow, ?_⟩
  intro change hchange
  -- it is enough that the entry is one of those for the new position
  have hsub : change ∈ diffOf (db.positionOf r.webhook.dealId) (r.newPosition resolver db) := by
    rw [hpos, DealDb.positionOf] at hchange
    rw [DealDb.positionOf]
    cases hex : db.deals r.webhook.dealId with
    | none =>
        -- a new row has no owner to keep
        rw [hex] at hchange
        simpa [WebhookReading.existing, hex, WebhookReading.newPosition] using hchange
    | some old =>
        rw [hex, Option.map_some, diffOf, List.mem_append] at hchange
        rw [Option.map_some, diffOf, List.mem_append]
        rcases hchange with hplace | howner
        · exact Or.inl hplace
        · right
          cases hnew : r.owner db with
          | some o =>
              rw [hnew, Option.some_or] at howner
              simpa [WebhookReading.newPosition, hnew] using howner
          | none =>
              -- the stored owner is the old one, so there is no change of it
              rw [hnew, Option.none_or, WebhookReading.existing, hex, Option.bind_some] at howner
              simp [DealRow.position] at howner
  have hentries : (r.events resolver now payload db).map DealEvent.change =
      diffOf ((db.deals r.webhook.dealId).map DealRow.position) (r.newPosition resolver db) :=
    events_change
  rw [DealDb.positionOf, ← hentries] at hsub
  obtain ⟨e, he, rfl⟩ := List.mem_map.1 hsub
  exact ⟨e, he, detectChanges_dealId e he, rfl⟩

/-! ## Runs -/

/-- The operation neither loses the owner of the deal `id` nor is a sync that moves it. -/
def Recorded (lib : PyLib) (viewIds : List Int) (id : Int) : DealOp → DealDb ref → Prop
  | .webhook _ payload, db =>
      ∀ r, ReadsAs lib payload r → r.webhook.dealId = id → ¬ LosesOwner db r.webhook
  | .sync feed, db => (runDealSync lib viewIds feed db).1.positionOf id = db.positionOf id

/-- The log of the deal accounts for its position. -/
def Replayed (id : Int) (db : DealDb ref) : Prop := replay (db.changesOf id) = db.positionOf id

/-- One recorded operation. -/
theorem replayed_step {id : Int} (op : DealOp) (db db' : DealDb ref) (hdb : Replayed id db)
    (hrec : Recorded lib viewIds id op db) (h : dealStep lib viewIds op db = some db') :
    Replayed id db' := by
  cases op with
  | sync feed =>
      cases h
      have hchanges : (runDealSync lib viewIds feed db).1.changesOf id = db.changesOf id := by
        rw [DealDb.changesOf, runDealSync_events, DealDb.changesOf]
      rw [Replayed, hchanges, hdb]
      exact hrec.symm
  | webhook now payload =>
      rcases dealStep_webhook h with rfl | ⟨r, hread, hingest⟩
      · exact hdb
      obtain ⟨-, -, hother, hevents⟩ := ingestWebhook_spec hread hingest
      have hids : ∀ e ∈ r.events (buildStageResolver ref) now payload db,
          e.dealId = r.webhook.dealId := detectChanges_dealId
      by_cases hid : r.webhook.dealId = id
      · -- the entries lead from the old position to the stored one
        have hkeeps := hrec r hread hid
        obtain ⟨row, hrow, hpos⟩ := ingestWebhook_stored hread hingest
        have hstored := (stored_eq_newPosition_iff hpos).2 hkeeps
        subst hid
        rw [Replayed, replay, changesOf_append_self hevents hids, List.foldl_append, events_change]
        rw [Replayed, replay] at hdb
        rw [hdb, DealDb.positionOf, foldl_diffOf, ← hstored, DealDb.positionOf, hrow]
        rfl
      · rw [Replayed, changesOf_append_of_ne hevents hids hid, hdb, DealDb.positionOf,
          DealDb.positionOf, hother id (Ne.symm hid)]

/-- **Replay.** In every run of recorded operations the log accounts for the deal throughout. -/
theorem always_replayed {id : Int} {ops : List DealOp}
    (hrec : Run.Guarded (dealStep lib viewIds) (Recorded lib viewIds id) ops (DealDb.empty ref)) :
    Run.Always (dealStep lib viewIds) (Replayed id) ops (DealDb.empty ref) := by
  apply Run.always_of_step (fun op db db' => replayed_step op db db')
  · rfl
  · exact hrec

/-- **What the log accounts for.** A sync adds no entry; a webhook logs every change it makes of a
stored position; and in every run in which no sync moves a deal and no webhook loses its owner,
replaying the entries of the deal gives its position throughout. -/
theorem log_accounts_for_webhooks (lib : PyLib) (viewIds : List Int) :
    (∀ (feed : Feed) (db : DealDb ref), (runDealSync lib viewIds feed db).1.events = db.events) ∧
      (∀ (now : Datetime) (payload : JsonObject) (r : WebhookReading) (db db' : DealDb ref),
        ReadsAs lib payload r →
          ingestWebhook lib (buildStageResolver ref) now payload db = .ok db' →
          ∃ new, db'.events = db.events ++ new ∧ ∃ row, db'.deals r.webhook.dealId = some row ∧
            ∀ change ∈ diffOf (db.positionOf r.webhook.dealId) row.position,
              ∃ e ∈ new, e.dealId = r.webhook.dealId ∧ e.change = change) ∧
      ∀ (id : Int) (ops : List DealOp),
        Run.Guarded (dealStep lib viewIds) (Recorded lib viewIds id) ops (DealDb.empty ref) →
          Run.Always (dealStep lib viewIds) (Replayed id) ops (DealDb.empty ref) := by
  refine ⟨?_, ?_, ?_⟩
  · intro feed db
    exact runDealSync_events viewIds feed db
  · intro now payload r db db' hread h
    exact webhook_changes_logged hread h
  · intro id ops hrec
    exact always_replayed hrec

/-- Deal 7 is created by a webhook, and a second one changes its stage. -/
def webhookRun : List DealOp :=
  [.webhook noon (samplePayload "New" 5), .webhook noon (samplePayload "Won" 5)]

theorem recorded_webhookRun :
    Run.Guarded (dealStep plainLib [1]) (Recorded plainLib [1] 7) webhookRun
      (DealDb.empty sampleRef) := by
  have hknown : ∀ (stageName : String) (db : DealDb sampleRef),
      Recorded plainLib [1] 7 (.webhook noon (samplePayload stageName 5)) db := by
    intro stageName db r hread _ hlost
    obtain ⟨⟨o, ho, hunknown⟩, -⟩ := hlost
    rw [hread.unique (reads_samplePayload stageName 5), Option.mem_def] at ho
    cases ho
    exact hunknown (by decide)
  exact ⟨hknown "New" _, fun db _ => ⟨hknown "Won" db, fun _ _ => trivial⟩⟩

/-- The log of two webhooks, replayed. -/
theorem log_accounts_for_webhooks_sample :
    Run.Always (dealStep plainLib [1]) (Replayed 7) webhookRun (DealDb.empty sampleRef) :=
  (log_accounts_for_webhooks plainLib [1]).2.2 7 webhookRun recorded_webhookRun

/-- A sync that moves deal 7 to stage 12 leaves its log at stage 11. -/
theorem sync_moves_unlogged :
    ∃ db : DealDb sampleRef,
      Run.exec (dealStep plainLib [1]) (movingRun 1 12) (DealDb.empty sampleRef) = some db ∧
        ¬ Replayed 7 db := by
  have hrun : (Run.exec (dealStep plainLib [1]) (movingRun 1 12) (DealDb.empty sampleRef)).map
      (fun db => (db.positionOf 7, replay (db.changesOf 7))) =
        some (some ⟨some 1, some 12, some 5⟩, some ⟨some 1, some 11, some 5⟩) := by
    decide
  obtain ⟨db, hdb, hpair⟩ := Option.map_eq_some_iff.1 hrun
  rw [Prod.mk.injEq] at hpair
  refine ⟨db, hdb, ?_⟩
  rw [Replayed, hpair.1, hpair.2]
  decide

end SalesTrades.Deals
