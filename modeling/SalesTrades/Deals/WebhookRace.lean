import SalesTrades.Deals.EventLog
import SalesTrades.Library.Interleaving

/-!
# Concurrent webhooks for one deal

Any number of `ingest_webhook` calls for one deal, interleaved one statement at a time under READ
COMMITTED: what a call has inserted is seen when it commits, and the upsert locks the row until then. The
entries of a call are decided by the row it has read, the upsert lays its data over the row it
finds. So the log gets one `created` entry, and after it the differences of the stored positions, exactly
when every call finds the deal where it has read it (`one_created_iff`).
-/

set_option autoImplicit false

namespace SalesTrades.Deals

open SalesTrades.Library SalesTrades.Library.Run SalesTrades.Library.Interleaving

universe u

/-! ## The statements of a call -/

section Statements

variable {ref : Reference}

/-- What is committed, and whether an upsert that is not committed holds the row. -/
structure MirrorTables (ref : Reference) where
  db : DealDb ref
  locked : Bool

/-- The local variables of a call after each of its statements. -/
inductive WebhookPhase (ref : Reference) where
  | start
  | selected (webhook : FreshsalesDealWebhook) (existing : Option DealRow)
  | inserted (webhook : FreshsalesDealWebhook) (existing : Option DealRow) (occurredAt : Datetime)
      (events : List DealEvent)
  | upserted (webhook : FreshsalesDealWebhook) (existing : Option DealRow) (events : List DealEvent)
      (row : { row : DealRow // ref.Allows row })
  | committed
  | raised (e : PyError)

structure WebhookCall (ref : Reference) where
  resolver : PipelineStageResolver
  payload : JsonObject
  phase : WebhookPhase ref

/-- An exception ends the call; its transaction is rolled back. -/
def WebhookPhase.settle : Except PyError (WebhookPhase ref) → WebhookPhase ref
  | .ok phase => phase
  | .error e => .raised e

/-- The request model and `deals_repo.get_deal`. -/
def selectDeal (lib : PyLib) (payload : JsonObject) (db : DealDb ref) :
    Except PyError (WebhookPhase ref) := do
  let webhook ← modelValidate lib payload
  let existing ← getDeal db webhook.dealId
  return .selected webhook existing

/-- `detect_changes` and `events_repo.insert_event` for each of its events. -/
def insertEvents (ref : Reference) (lib : PyLib) (now : Datetime) (resolver : PipelineStageResolver)
    (payload : JsonObject) (webhook : FreshsalesDealWebhook) (existing : Option DealRow) :
    Except PyError (WebhookPhase ref) := do
  let place := newPlace (webhook.resolution resolver) existing
  let owner := newOwner ref webhook.dealOwnerId existing
  let occurredAt := (← parseWebhookTimestamp lib webhook.dealStageUpdatedTime).getD now
  let events := detectChanges webhook.dealId existing place.1 place.2 owner occurredAt .webhook payload
  if events.all DealEvent.isStorable then return .inserted webhook existing occurredAt events
  else .error .dataError

/-- `deals_repo.upsert_deal`: the row that the transaction will commit. -/
def upsertRow (lib : PyLib) (resolver : PipelineStageResolver) (payload : JsonObject)
    (webhook : FreshsalesDealWebhook) (existing : Option DealRow) (occurredAt : Datetime)
    (db : DealDb ref) : Except PyError { row : DealRow // ref.Allows row } := do
  let (curated, remaining) ← splitCustomFields lib (extractCustomFields payload)
  let expectedClose ← parseWebhookDate lib webhook.dealExpectedClose
  let createdAt ← parseWebhookTimestamp lib webhook.dealCreatedAt
  let data := dealData webhook (newPlace (webhook.resolution resolver) existing)
    (newOwner ref webhook.dealOwnerId existing) occurredAt expectedClose createdAt curated remaining
    (trimRawPayload payload)
  if data.Encodable lib then
    if h : ref.Allows (PartialRecord.overlay (data.encoded lib) (db.rowOrEmpty webhook.dealId)) then
      return ⟨_, h⟩
    else .error .integrityError
  else .error .dataError

/-- One statement of a call. -/
def webhookStep (lib : PyLib) (now : Datetime) (t : MirrorTables ref) (call : WebhookCall ref) :
    Option (MirrorTables ref × WebhookCall ref) :=
  match call.phase with
  | .start => some (t, { call with phase := .settle (selectDeal lib call.payload t.db) })
  | .selected webhook existing =>
      some (t, { call with
        phase := .settle (insertEvents ref lib now call.resolver call.payload webhook existing) })
  | .inserted webhook existing occurredAt events =>
      -- the row is locked: the statement waits
      if t.locked then none
      else
        match upsertRow lib call.resolver call.payload webhook existing occurredAt t.db with
        | .ok row =>
            some ({ t with locked := true },
              { call with phase := .upserted webhook existing events row })
        | .error e => some (t, { call with phase := .raised e })
  | .upserted webhook _ events row =>
      some ({ db := (t.db.logEvents events).put webhook.dealId row.1 row.2, locked := false },
        { call with phase := .committed })
  | .committed | .raised _ => none

/-! ## What a statement leaves -/

variable {lib : PyLib} {now : Datetime} {resolver : PipelineStageResolver} {payload : JsonObject}
  {webhook : FreshsalesDealWebhook} {existing : Option DealRow} {occurredAt : Datetime} {id : Int}
  {db : DealDb ref} {t t' : MirrorTables ref} {call call' : WebhookCall ref}

/-- The position a call makes of the row it has read. -/
def FreshsalesDealWebhook.positionFrom (webhook : FreshsalesDealWebhook) (ref : Reference)
    (resolver : PipelineStageResolver) (existing : Option DealRow) : Position where
  pipelineId := (newPlace (webhook.resolution resolver) existing).1
  stageId := (newPlace (webhook.resolution resolver) existing).2
  ownerId := newOwner ref webhook.dealOwnerId existing

/-- A position laid over another one: what is missing is kept. -/
def Position.over (p q : Position) : Position where
  pipelineId := p.pipelineId.or q.pipelineId
  stageId := p.stageId.or q.stageId
  ownerId := p.ownerId.or q.ownerId

theorem settle_cases {x : Except PyError (WebhookPhase ref)} :
    (∃ phase, x = .ok phase ∧ WebhookPhase.settle x = phase) ∨
      ∃ e, WebhookPhase.settle x = .raised e := by
  cases x with
  | ok phase => exact Or.inl ⟨phase, rfl, rfl⟩
  | error e => exact Or.inr ⟨e, rfl⟩

theorem selectDeal_eq_ok {phase : WebhookPhase ref} (h : selectDeal lib payload db = .ok phase) :
    ∃ webhook, modelValidate lib payload = .ok webhook ∧
      phase = .selected webhook (db.deals webhook.dealId) := by
  simp only [selectDeal, bind_eq_ok] at h
  obtain ⟨webhook, hwebhook, existing, hexisting, hphase⟩ := h
  rw [getDeal] at hexisting
  split at hexisting
  · cases hexisting
    cases hphase
    exact ⟨webhook, hwebhook, rfl⟩
  · cases hexisting

theorem insertEvents_eq_ok {phase : WebhookPhase ref}
    (h : insertEvents ref lib now resolver payload webhook existing = .ok phase) :
    ∃ occurredAt events, phase = .inserted webhook existing occurredAt events ∧
      (∀ e ∈ events, e.dealId = webhook.dealId) ∧
      events.map DealEvent.change =
        diffOf (existing.map DealRow.position) (webhook.positionFrom ref resolver existing) := by
  simp only [insertEvents, bind_eq_ok] at h
  obtain ⟨stageUpdated, -, h⟩ := h
  split at h
  · cases h
    exact ⟨_, _, rfl, detectChanges_dealId,
      detectChanges_change webhook.dealId existing (webhook.positionFrom ref resolver existing) _ _ _⟩
  · cases h

theorem upsertRow_eq_ok {row : { row : DealRow // ref.Allows row }}
    (h : upsertRow lib resolver payload webhook existing occurredAt db = .ok row) :
    row.1.position = (webhook.positionFrom ref resolver existing).over
      (db.rowOrEmpty webhook.dealId).position := by
  simp only [upsertRow, bind_eq_ok] at h
  obtain ⟨custom, -, expectedClose, -, createdAt, -, h⟩ := h
  split at h
  · rename_i henc
    split at h
    · cases h
      simp only [DealRow.position, DealRow.pipelineId, DealRow.stageId, DealRow.ownerId]
      rw [overlay_encoded_of_typed henc (c := .pipelineId) rfl,
        overlay_encoded_of_typed henc (c := .stageId) rfl,
        overlay_encoded_of_typed henc (c := .ownerId) rfl]
      rfl
    · cases h
  · cases h

/-! ## The entries of a position that has moved -/

/-- The value that was read is the current one; where the payload brings none it may also have been
missing. -/
def StillThere (brings : Prop) (read current : Option Int) : Prop :=
  read = current ∨ ¬ brings ∧ read = none

/-- The deal is where the call has read it, as far as the call goes by what it has read. -/
structure StillAt (ref : Reference) (resolver : PipelineStageResolver)
    (webhook : FreshsalesDealWebhook) (read current : DealRow) : Prop where
  pipeline : StillThere (webhook.resolution resolver ≠ none) read.pipelineId current.pipelineId
  stage : StillThere (webhook.resolution resolver ≠ none) read.stageId current.stageId
  owner : StillThere (∃ o ∈ webhook.dealOwnerId, o ∈ ref.owners) read.ownerId current.ownerId
  known : (∃ o ∈ webhook.dealOwnerId, o ∉ ref.owners) → read.ownerId = none

/-- Two moves make the same entry, or none. -/
theorem change_eq_iff {α β : Type*} [DecidableEq α] {f : α → α → β}
    (hf : ∀ a b a' b', f a b = f a' b' → a = a' ∧ b = b') (a b a' b' : α) :
    ((if a ≠ b then [f a b] else []) = if a' ≠ b' then [f a' b'] else []) ↔
      (a = b ∧ a' = b') ∨ (a = a' ∧ b = b') := by
  by_cases h : a = b
  · by_cases h' : a' = b'
    · simp [h, h']
    · simp only [h, h', ne_eq, not_true_eq_false, not_false_eq_true, if_true, if_false, and_false,
        false_or, List.nil_eq, reduceCtorEq, false_iff]
      rintro ⟨rfl, rfl⟩
      exact h' rfl
  · by_cases h' : a' = b'
    · simp only [h, h', ne_eq, not_true_eq_false, not_false_eq_true, if_true, if_false, false_and,
        false_or, reduceCtorEq, false_iff]
      rintro ⟨rfl, rfl⟩
      exact h rfl
    · simp only [h, h', ne_eq, not_false_eq_true, if_true, List.cons.injEq, and_true, false_and,
        false_or]
      constructor
      · exact hf a b a' b'
      · rintro ⟨rfl, rfl⟩
        rfl

/-- The entries of two moves are the same when those of the places are and those of the owners are. -/
theorem diffOf_eq_iff {p n q m : Position} :
    diffOf (some p) n = diffOf (some q) m ↔
      (((p.pipelineId, p.stageId) = (n.pipelineId, n.stageId) ∧
          (q.pipelineId, q.stageId) = (m.pipelineId, m.stageId)) ∨
        ((p.pipelineId, p.stageId) = (q.pipelineId, q.stageId) ∧
          (n.pipelineId, n.stageId) = (m.pipelineId, m.stageId))) ∧
      ((p.ownerId = n.ownerId ∧ q.ownerId = m.ownerId) ∨
        (p.ownerId = q.ownerId ∧ n.ownerId = m.ownerId)) := by
  let placeEntry (a b : Option Int × Option Int) : Change :=
    { eventType := .stageChange, oldPipelineId := a.1, newPipelineId := b.1, oldStageId := a.2
      newStageId := b.2 }
  let ownerEntry (a b : Option Int) : Change :=
    { eventType := .ownerChange, oldOwnerId := a, newOwnerId := b }
  have hplace := change_eq_iff (f := placeEntry) (by rintro ⟨⟩ ⟨⟩ ⟨⟩ ⟨⟩; simp [placeEntry]; tauto)
    (p.pipelineId, p.stageId) (n.pipelineId, n.stageId) (q.pipelineId, q.stageId)
    (m.pipelineId, m.stageId)
  have howner := change_eq_iff (f := ownerEntry) (by simp [ownerEntry]) p.ownerId n.ownerId q.ownerId
    m.ownerId
  rw [← hplace, ← howner]
  -- an entry of one kind is none of the other
  simp only [diffOf, placeEntry, ownerEntry, stageChange, ownerChange]
  split_ifs <;> simp

/-- A value kept in place of a missing one is the current one. -/
theorem or_eq_right_iff {o q : Option Int} : q = o.or q ↔ o = q ∨ o = none := by
  cases o with
  | none => simp
  | some v => simp [eq_comm]

theorem place_entry_iff (read current : DealRow) :
    (((read.pipelineId, read.stageId) = newPlace (webhook.resolution resolver) (some read) ∧
        (current.pipelineId, current.stageId) =
          ((newPlace (webhook.resolution resolver) (some read)).1.or current.pipelineId,
            (newPlace (webhook.resolution resolver) (some read)).2.or current.stageId)) ∨
      ((read.pipelineId, read.stageId) = (current.pipelineId, current.stageId) ∧
        newPlace (webhook.resolution resolver) (some read) =
          ((newPlace (webhook.resolution resolver) (some read)).1.or current.pipelineId,
            (newPlace (webhook.resolution resolver) (some read)).2.or current.stageId))) ↔
      StillThere (webhook.resolution resolver ≠ none) read.pipelineId current.pipelineId ∧
        StillThere (webhook.resolution resolver ≠ none) read.stageId current.stageId := by
  cases webhook.resolution resolver with
  | none =>
      -- the place that was read is written back
      simp only [newPlace, true_and, Prod.mk.injEq, or_eq_right_iff, StillThere, ne_eq,
        not_true_eq_false, not_false_eq_true]
      constructor
      · rintro (h | ⟨⟨hp, hs⟩, -⟩)
        · exact h
        · exact ⟨Or.inl hp, Or.inl hs⟩
      · exact Or.inl
  | some place =>
      simp only [newPlace, Option.some_or, Prod.mk.injEq, StillThere, ne_eq, reduceCtorEq,
        not_false_eq_true, not_true_eq_false, false_and, or_false, and_true]
      constructor
      · rintro (⟨⟨hp, hs⟩, hp', hs'⟩ | h)
        · exact ⟨hp.trans hp'.symm, hs.trans hs'.symm⟩
        · exact h
      · exact Or.inr

theorem owner_entry_iff {read : DealRow} (hread : ref.Allows read) (current : DealRow) :
    ((read.ownerId = newOwner ref webhook.dealOwnerId (some read) ∧
        current.ownerId = (newOwner ref webhook.dealOwnerId (some read)).or current.ownerId) ∨
      (read.ownerId = current.ownerId ∧
        newOwner ref webhook.dealOwnerId (some read) =
          (newOwner ref webhook.dealOwnerId (some read)).or current.ownerId)) ↔
      StillThere (∃ o ∈ webhook.dealOwnerId, o ∈ ref.owners) read.ownerId current.ownerId ∧
        ((∃ o ∈ webhook.dealOwnerId, o ∉ ref.owners) → read.ownerId = none) := by
  cases hbrings : webhook.dealOwnerId with
  | none =>
      -- the owner that was read is known, and is written back
      have hkept : newOwner ref none (some read) = read.ownerId := by
        rw [newOwner, Option.none_or, Option.bind_some]
        cases ho : read.ownerId with
        | none => rfl
        | some o =>
            have hknown := hread.2.2 o ho
            simp [hknown]
      simp only [hkept, true_and, or_eq_right_iff, StillThere]
      constructor
      · rintro (h | ⟨h, -⟩)
        · exact ⟨by simpa using h, by simp⟩
        · exact ⟨Or.inl h, by simp⟩
      · rintro ⟨h, -⟩
        exact Or.inl (by simpa using h)
  | some w =>
      by_cases hw : w ∈ ref.owners
      · have hnew : newOwner ref (some w) (some read) = some w := by simp [newOwner, hw]
        simp only [hnew, Option.some_or, StillThere]
        constructor
        · rintro (⟨h, h'⟩ | ⟨h, -⟩)
          · exact ⟨Or.inl (h.trans h'.symm), by simp [hw]⟩
          · exact ⟨Or.inl h, by simp [hw]⟩
        · rintro ⟨h, -⟩
          exact Or.inr ⟨by simpa [hw] using h, trivial⟩
      · -- the owner is dropped from the entry, not from the row
        have hnew : newOwner ref (some w) (some read) = none := by simp [newOwner, hw]
        simp only [hnew, Option.none_or, and_true, StillThere, Option.mem_some_iff, exists_eq_left',
          hw, not_false_eq_true, true_imp_iff, true_and]
        constructor
        · rintro (h | ⟨h, h'⟩)
          · exact ⟨Or.inr h, h⟩
          · exact ⟨Or.inl h, h.trans h'.symm⟩
        · rintro ⟨-, h⟩
          exact Or.inl h

/-- A call that has read a row logs the difference it makes exactly when the deal is still there. -/
theorem entries_exact_iff {read : DealRow} (hread : ref.Allows read) (current : DealRow) :
    diffOf (some read.position) (webhook.positionFrom ref resolver (some read)) =
        diffOf (some current.position)
          ((webhook.positionFrom ref resolver (some read)).over current.position) ↔
      StillAt ref resolver webhook read current := by
  rw [diffOf_eq_iff]
  constructor
  · rintro ⟨hplace, howner⟩
    obtain ⟨hpipeline, hstage⟩ := (place_entry_iff read current).1 hplace
    obtain ⟨hstill, hknown⟩ := (owner_entry_iff hread current).1 howner
    exact ⟨hpipeline, hstage, hstill, hknown⟩
  · intro h
    exact ⟨(place_entry_iff read current).2 ⟨h.pipeline, h.stage⟩,
      (owner_entry_iff hread current).2 ⟨h.owner, h.known⟩⟩

theorem diffOf_none_ne_some {p n m : Position} : diffOf none n ≠ diffOf (some p) m := by
  rw [diffOf, diffOf]
  split_ifs <;> simp [createdAt, stageChange, ownerChange]

/-! ## What a call knows -/

/-- The entries made for the row that was read. -/
structure Decided (ref : Reference) (resolver : PipelineStageResolver) (id : Int)
    (webhook : FreshsalesDealWebhook) (existing : Option DealRow) (events : List DealEvent) : Prop where
  dealId : ∀ e ∈ events, e.dealId = id
  change : events.map DealEvent.change =
    diffOf (existing.map DealRow.position) (webhook.positionFrom ref resolver existing)

/-- The deal and the row of a call that has read it: rows are never deleted. -/
structure HasRead (id : Int) (db : DealDb ref) (webhook : FreshsalesDealWebhook)
    (existing : Option DealRow) : Prop where
  dealId : webhook.dealId = id
  stays : existing ≠ none → db.deals id ≠ none
  allows : ∀ row ∈ existing, ref.Allows row

/-- What holds of a call after each of its statements. -/
def CallHolds (lib : PyLib) (id : Int) (call : WebhookCall ref) (t : MirrorTables ref) : Prop :=
  match call.phase with
  | .start => ∀ webhook, modelValidate lib call.payload = .ok webhook → webhook.dealId = id
  | .selected webhook existing => HasRead id t.db webhook existing
  | .inserted webhook existing _ events =>
      HasRead id t.db webhook existing ∧ Decided ref call.resolver id webhook existing events
  | .upserted webhook existing events row =>
      HasRead id t.db webhook existing ∧ Decided ref call.resolver id webhook existing events ∧
        t.locked = true ∧
        row.1.position = (webhook.positionFrom ref call.resolver existing).over
          (t.db.rowOrEmpty id).position
  | .committed => t.db.deals id ≠ none
  | .raised _ => True

/-- The lock that a call holds. -/
def WebhookCall.inHand (call : WebhookCall ref) : List Unit :=
  match call.phase with
  | .upserted _ _ _ _ => [()]
  | _ => []

/-- At its commit a call finds no row where it has read none, and otherwise the deal where it has read
it. -/
def FindsAsRead (db : DealDb ref) (call : WebhookCall ref) : Prop :=
  match call.phase with
  | .upserted webhook none _ _ => db.deals webhook.dealId = none
  | .upserted webhook (some read) _ _ =>
      ∀ current ∈ db.deals webhook.dealId, StillAt ref call.resolver webhook read current
  | _ => True

/-- The entries that the log of the deal has gained are those of the difference between its stored
positions. -/
def LogsDifference (id : Int) (db db' : DealDb ref) : Prop :=
  db'.changesOf id = db.changesOf id ++
    (db'.positionOf id).elim [] (diffOf (db.positionOf id))

theorem logsDifference_self (id : Int) (db : DealDb ref) : LogsDifference id db db := by
  rw [LogsDifference, DealDb.positionOf]
  cases db.deals id with
  | none => simp
  | some row => simp [diffOf_self]

/-! ## One statement -/

/-- A step leaves the tables alone, or is an upsert that takes the lock, or is the commit that gives it
back. -/
theorem webhookStep_cases (h : webhookStep lib now t call = some (t', call'))
    (hcall : CallHolds lib id call t) :
    CallHolds lib id call' t' ∧
      ((t' = t ∧ call.inHand = [] ∧ call'.inHand = []) ∨
        (t.locked = false ∧ t' = { t with locked := true } ∧ call.inHand = []) ∨
        (call.inHand = [()] ∧ call'.inHand = [] ∧ t'.db.deals id ≠ none)) := by
  obtain ⟨resolver, payload, phase⟩ := call
  cases phase with
  | start =>
      cases h
      refine ⟨?_, Or.inl ⟨rfl, rfl, ?_⟩⟩
      -- the lookup and the events leave the tables alone, whether they raise or not
      all_goals
        rcases settle_cases (x := selectDeal lib payload t.db) with ⟨phase, hx, hphase⟩ | ⟨e, hraised⟩
      · obtain ⟨webhook, hwebhook, rfl⟩ := selectDeal_eq_ok hx
        obtain rfl : webhook.dealId = id := hcall webhook hwebhook
        simp only [CallHolds, hphase]
        exact ⟨rfl, fun hread => hread, t.db.fk _⟩
      · simp [CallHolds, hraised]
      · obtain ⟨webhook, -, rfl⟩ := selectDeal_eq_ok hx
        simp [WebhookCall.inHand, hphase]
      · simp [WebhookCall.inHand, hraised]
  | selected webhook existing =>
      cases h
      refine ⟨?_, Or.inl ⟨rfl, rfl, ?_⟩⟩
      all_goals
        rcases settle_cases (x := insertEvents ref lib now resolver payload webhook existing)
          with ⟨phase, hx, hphase⟩ | ⟨e, hraised⟩
      · obtain ⟨occurredAt, events, rfl, hids, hchange⟩ := insertEvents_eq_ok hx
        have hread : HasRead id t.db webhook existing := hcall
        simp only [CallHolds, hphase]
        exact ⟨hread, fun e he => (hids e he).trans hread.dealId, hchange⟩
      · simp [CallHolds, hraised]
      · obtain ⟨occurredAt, events, rfl, -⟩ := insertEvents_eq_ok hx
        simp [WebhookCall.inHand, hphase]
      · simp [WebhookCall.inHand, hraised]
  | inserted webhook existing occurredAt events =>
      obtain ⟨hread, hdecided⟩ : HasRead id t.db webhook existing ∧
        Decided ref resolver id webhook existing events := hcall
      simp only [webhookStep] at h
      split at h
      · cases h
      rename_i hfree
      split at h
      · rename_i row hrow
        cases h
        have hpos := upsertRow_eq_ok hrow
        rw [hread.dealId] at hpos
        exact ⟨⟨hread, hdecided, rfl, hpos⟩,
          Or.inr (Or.inl ⟨by simpa using hfree, rfl, rfl⟩)⟩
      · cases h
        exact ⟨trivial, Or.inl ⟨rfl, rfl, rfl⟩⟩
  | upserted webhook existing events row =>
      obtain ⟨hread, -⟩ := hcall
      cases h
      have hstored : ((t.db.logEvents events).put webhook.dealId row.1 row.2).deals id ≠ none := by
        rw [hread.dealId, DealDb.put_deals_self]
        exact Option.some_ne_none _
      exact ⟨hstored, Or.inr (Or.inr ⟨rfl, rfl, hstored⟩)⟩
  | committed => cases h
  | raised e => cases h

/-- **One statement.** The log gains the difference that the statement makes exactly when a commit
finds the deal where the call has read it. -/
theorem logsDifference_iff (h : webhookStep lib now t call = some (t', call'))
    (hcall : CallHolds lib id call t) :
    LogsDifference id t.db t'.db ↔ FindsAsRead t.db call := by
  obtain ⟨resolver, payload, phase⟩ := call
  cases phase with
  | upserted webhook existing events row =>
      obtain ⟨hread, hdecided, -, hpos⟩ := hcall
      obtain rfl := hread.dealId
      cases h
      have hafter : DealDb.positionOf ((t.db.logEvents events).put webhook.dealId row.1 row.2)
          webhook.dealId = some row.1.position := by
        rw [DealDb.positionOf, DealDb.put_deals_self, Option.map_some]
      have hlog : DealDb.changesOf ((t.db.logEvents events).put webhook.dealId row.1 row.2)
          webhook.dealId = t.db.changesOf webhook.dealId ++ events.map DealEvent.change :=
        changesOf_append_self rfl hdecided.dealId
      rw [LogsDifference, hafter, hlog, List.append_cancel_left_eq, hdecided.change, Option.elim_some,
        hpos, DealDb.positionOf]
      cases hcurrent : t.db.deals webhook.dealId with
      | none =>
          have hnone : existing = none := by
            by_contra hsome
            exact hread.stays hsome hcurrent
          subst hnone
          -- a new row has nothing to keep
          rw [DealDb.rowOrEmpty_of_none hcurrent]
          simp [FindsAsRead, hcurrent, Position.over, DealRow.position, DealRow.pipelineId,
            DealRow.stageId, DealRow.ownerId, PartialRecord.empty]
      | some current =>
          rw [DealDb.rowOrEmpty_of_some hcurrent, Option.map_some]
          cases existing with
          | none =>
              rw [Option.map_none]
              simp [FindsAsRead, hcurrent, diffOf_none_ne_some]
          | some read =>
              rw [Option.map_some, entries_exact_iff (hread.allows read rfl) current]
              simp [FindsAsRead, hcurrent]
  | inserted webhook existing occurredAt events =>
      simp only [webhookStep] at h
      split at h
      · cases h
      split at h
      all_goals
        cases h
        exact iff_of_true (logsDifference_self id t.db) trivial
  | start =>
      cases h
      exact iff_of_true (logsDifference_self id t.db) trivial
  | selected webhook existing =>
      cases h
      exact iff_of_true (logsDifference_self id t.db) trivial
  | committed => cases h
  | raised e => cases h

/-! ## A call on its own -/

variable {r : WebhookReading}

/-- The entries of a call for the row it has read. -/
def WebhookReading.eventsFrom (r : WebhookReading) (ref : Reference) (resolver : PipelineStageResolver)
    (now : Datetime) (payload : JsonObject) (existing : Option DealRow) : List DealEvent :=
  detectChanges r.webhook.dealId existing (newPlace (r.webhook.resolution resolver) existing).1
    (newPlace (r.webhook.resolution resolver) existing).2 (newOwner ref r.webhook.dealOwnerId existing)
    (r.stageUpdated.getD now) .webhook payload

theorem webhookStep_start (hread : ReadsAs lib payload r) :
    webhookStep lib now t ⟨resolver, payload, .start⟩ =
      some (t, ⟨resolver, payload, .selected r.webhook (t.db.deals r.webhook.dealId)⟩) := by
  have hselect : selectDeal lib payload t.db =
      .ok (.selected r.webhook (t.db.deals r.webhook.dealId)) := by
    simp only [selectDeal, hread.webhook, getDeal, hread.dealId, bind, Except.bind, if_true]
    rfl
  simp only [webhookStep, hselect, WebhookPhase.settle]

theorem webhookStep_selected (hread : ReadsAs lib payload r)
    (hevents : (r.eventsFrom ref resolver now payload existing).all DealEvent.isStorable = true) :
    webhookStep lib now t ⟨resolver, payload, .selected r.webhook existing⟩ =
      some (t, ⟨resolver, payload, .inserted r.webhook existing (r.stageUpdated.getD now)
        (r.eventsFrom ref resolver now payload existing)⟩) := by
  have hinsert : insertEvents ref lib now resolver payload r.webhook existing =
      .ok (.inserted r.webhook existing (r.stageUpdated.getD now)
        (r.eventsFrom ref resolver now payload existing)) := by
    simp only [insertEvents, hread.stageUpdated, bind, Except.bind]
    exact if_pos hevents
  simp only [webhookStep, hinsert, WebhookPhase.settle]

/-- The events of a payload that can be stored. -/
theorem storable_eventsFrom (h : Json.isStorableMembers payload = true) :
    (r.eventsFrom ref resolver now payload existing).all DealEvent.isStorable = true :=
  List.all_eq_true.2 fun _ he =>
    (congrArg Json.isStorableMembers (rawPayload_of_detectChanges he)).trans h

/-- The data are those of the row that was read; they are laid over the row that is there. -/
theorem webhookStep_inserted (events : List DealEvent) (hread : ReadsAs lib payload r)
    (hfree : t.locked = false) (seen : DealDb ref) (hseen : seen.deals r.webhook.dealId = existing)
    (henc : (r.data resolver now payload seen).Encodable lib)
    (hallows : ref.Allows (PartialRecord.overlay ((r.data resolver now payload seen).encoded lib)
      (t.db.rowOrEmpty r.webhook.dealId))) (at_ : Datetime) :
    webhookStep lib at_ t
        ⟨resolver, payload, .inserted r.webhook existing (r.stageUpdated.getD now) events⟩ =
      some ({ t with locked := true },
        ⟨resolver, payload, .upserted r.webhook existing events ⟨_, hallows⟩⟩) := by
  subst hseen
  have hrow : upsertRow lib resolver payload r.webhook (seen.deals r.webhook.dealId)
      (r.stageUpdated.getD now) t.db = .ok ⟨_, hallows⟩ := by
    simp only [upsertRow, hread.custom, hread.expectedClose, hread.createdAt, bind, Except.bind]
    exact (dif_pos henc).trans (dif_pos hallows)
  simp only [webhookStep, hrow, hfree, Bool.false_eq_true, if_false]

/-- The row of a valid payload keeps the foreign keys, over whatever row it is laid. -/
theorem allows_overlay {seen : DealDb ref} (hres : resolver.KnownTo ref)
    (henc : (r.data resolver now payload seen).Encodable lib) (db : DealDb ref) :
    ref.Allows (PartialRecord.overlay ((r.data resolver now payload seen).encoded lib)
      (db.rowOrEmpty r.webhook.dealId)) := by
  have hcurrent := db.allows_rowOrEmpty r.webhook.dealId
  have hknown : (∀ p ∈ (r.place resolver seen).1, p ∈ ref.pipelineIds) ∧
      ∀ s ∈ (r.place resolver seen).2, s ∈ ref.stageIds := place_known hres
  obtain ⟨hplace, hstage⟩ := hknown
  obtain ⟨hpipelines, hstages, howners⟩ := hcurrent
  refine ⟨?_, ?_, ?_⟩
  · intro p hp
    rw [DealRow.pipelineId, overlay_encoded_of_typed henc (c := .pipelineId) rfl] at hp
    rcases Option.or_eq_some_iff.1 hp with hnew | ⟨-, hold⟩
    · exact hplace p hnew
    · exact hpipelines p hold
  · intro s hs
    rw [DealRow.stageId, overlay_encoded_of_typed henc (c := .stageId) rfl] at hs
    rcases Option.or_eq_some_iff.1 hs with hnew | ⟨-, hold⟩
    · exact hstage s hnew
    · exact hstages s hold
  · intro o ho
    rw [DealRow.ownerId, overlay_encoded_of_typed henc (c := .ownerId) rfl] at ho
    rcases Option.or_eq_some_iff.1 ho with hnew | ⟨-, hold⟩
    · exact owner_known o hnew
    · exact howners o hold

/-- **Refinement.** The four statements of a call with nothing in between are `ingest_webhook`. -/
theorem webhook_alone {db' : DealDb ref} (h : ingestWebhook lib resolver now payload db = .ok db') :
    solo (webhookStep lib now) 4 ⟨db, false⟩ ⟨resolver, payload, .start⟩ =
      (⟨db', false⟩, ⟨resolver, payload, .committed⟩) := by
  obtain ⟨r, hread⟩ := readsAs_of_ok h
  have hevents : (r.eventsFrom ref resolver now payload (db.deals r.webhook.dealId)).all
      DealEvent.isStorable = true := storable_events_of_ok hread h
  rw [ingestWebhook_eq hread hevents, upsertDeal] at h
  split at h
  · rename_i henc
    split at h
    · rename_i hallows
      cases h
      have hlocks := webhookStep_inserted (t := ⟨db, false⟩)
        (r.eventsFrom ref resolver now payload (db.deals r.webhook.dealId)) hread rfl db rfl henc
        hallows now
      rw [solo, webhookStep_start hread]
      dsimp only
      rw [solo, webhookStep_selected hread hevents]
      dsimp only
      rw [solo, hlocks]
      rfl
    · cases h
  · cases h

end Statements

/-! ## Runs -/

section Race

variable {ι : Type u} {ref : Reference} {lib : PyLib} {id : Int}
  {c c' : Config ι (MirrorTables ref) (WebhookCall ref)}

/-- Every call knows what it has read, and one call at a time holds the row. -/
structure RaceInv (lib : PyLib) (id : Int) (c : Config ι (MirrorTables ref) (WebhookCall ref)) :
    Prop where
  calls : ∀ i, CallHolds lib id (c.proc i) c.shared
  lock : Exclusive WebhookCall.inHand c

/-- The deal is new: no row, no entry, and the calls for it have not started. -/
structure NewDeal (lib : PyLib) (id : Int) (c : Config ι (MirrorTables ref) (WebhookCall ref)) :
    Prop where
  noRow : c.shared.db.deals id = none
  noEntry : c.shared.db.changesOf id = []
  start : ∀ i, (c.proc i).phase = .start
  dealId : ∀ i webhook, modelValidate lib (c.proc i).payload = .ok webhook → webhook.dealId = id

theorem NewDeal.raceInv (hnew : NewDeal lib id c) : RaceInv lib id c where
  calls i := by
    rw [CallHolds, hnew.start i]
    exact hnew.dealId i
  lock i j k hk := by
    rw [WebhookCall.inHand, hnew.start i] at hk
    cases hk

theorem locked_of_inHand {t : MirrorTables ref} {call : WebhookCall ref}
    (hcall : CallHolds lib id call t) (h : () ∈ call.inHand) : t.locked = true := by
  obtain ⟨resolver, payload, phase⟩ := call
  cases phase with
  | upserted webhook existing events row =>
      obtain ⟨-, -, hlocked, -⟩ := hcall
      exact hlocked
  | _ => cases h

/-- What a call that does not hold the row knows survives an upsert and a commit of another one. -/
theorem CallHolds.of_stored {t t' : MirrorTables ref} {call : WebhookCall ref}
    (hcall : CallHolds lib id call t) (hfree : call.inHand = [])
    (hstored : t.db.deals id ≠ none → t'.db.deals id ≠ none) : CallHolds lib id call t' := by
  obtain ⟨resolver, payload, phase⟩ := call
  cases phase with
  | start => exact hcall
  | selected webhook existing =>
      obtain ⟨hid, hstays, hallows⟩ := hcall
      exact ⟨hid, fun hread => hstored (hstays hread), hallows⟩
  | inserted webhook existing occurredAt events =>
      obtain ⟨⟨hid, hstays, hallows⟩, hdecided⟩ := hcall
      exact ⟨⟨hid, fun hread => hstored (hstays hread), hallows⟩, hdecided⟩
  | upserted webhook existing events row => cases hfree
  | committed => exact hstored hcall
  | raised e => trivial

variable [DecidableEq ι]

/-- **Step lemma.** -/
theorem RaceInv.fire {e : ι × Datetime} (hc : RaceInv lib id c)
    (h : fire (webhookStep lib) e c = some c') : RaceInv lib id c' := by
  obtain ⟨t, call, hstep, rfl⟩ := fire_eq_some.1 h
  obtain ⟨hcall, hcases⟩ := webhookStep_cases hstep (hc.calls e.1)
  constructor
  · intro i
    by_cases hi : i = e.1
    · subst hi
      simpa using hcall
    · simp only [Function.update_of_ne hi]
      -- another call: it holds no lock, unless nothing has moved
      rcases hcases with ⟨rfl, -, -⟩ | ⟨hfree, rfl, -⟩ | ⟨hheld, -, hstored⟩
      · exact hc.calls i
      · refine (hc.calls i).of_stored ?_ fun hstored => hstored
        rw [List.eq_nil_iff_forall_not_mem]
        intro _ hmem
        rw [locked_of_inHand (hc.calls i) hmem] at hfree
        cases hfree
      · refine (hc.calls i).of_stored ?_ fun _ => hstored
        rw [List.eq_nil_iff_forall_not_mem]
        intro _ hmem
        exact hi (hc.lock i e.1 () hmem (by rw [hheld]; exact List.mem_singleton_self ()))
  · refine hc.lock.fire e.1 t fun _ hmem => ?_
    rcases hcases with ⟨-, -, hnone⟩ | ⟨hfree, -, -⟩ | ⟨-, hnone, -⟩
    · rw [hnone] at hmem
      cases hmem
    · right
      intro j _ hj
      rw [locked_of_inHand (hc.calls j) hj] at hfree
      cases hfree
    · rw [hnone] at hmem
      cases hmem

/-- The `created` entries of a deal. -/
def createdCount (db : DealDb ref) (id : Int) : Nat :=
  (db.changesOf id).countP fun change => change.eventType = .created

theorem countP_created_diffOf (before : Option Position) (new : Position) :
    (diffOf before new).countP (fun change => change.eventType = .created) =
      if before.isSome then 0 else 1 := by
  cases before with
  | none => rfl
  | some old =>
      rw [Option.isSome_some, if_pos rfl, diffOf]
      split_ifs <;> rfl

/-- A log that has gained the differences has one `created` entry for a deal with a row, and none for
a deal without. -/
theorem createdCount_of_logsDifference {db db' : DealDb ref}
    (hdiff : LogsDifference id db db') (hkept : db.deals id ≠ none → db'.deals id ≠ none)
    (hcount : createdCount db id = if (db.deals id).isSome then 1 else 0) :
    createdCount db' id = if (db'.deals id).isSome then 1 else 0 := by
  rw [createdCount, hdiff, List.countP_append, ← createdCount, hcount, DealDb.positionOf,
    DealDb.positionOf]
  cases hafter : db'.deals id with
  | none =>
      have hbefore : db.deals id = none := by
        by_contra hsome
        exact hkept hsome hafter
      simp [hbefore]
  | some row =>
      rw [Option.map_some, Option.elim_some, countP_created_diffOf]
      cases db.deals id with
      | none => rfl
      | some old => rfl

/-- Rows are never deleted. -/
theorem deals_kept {e : ι × Datetime} (hc : RaceInv lib id c)
    (h : fire (webhookStep lib) e c = some c') (hsome : c.shared.db.deals id ≠ none) :
    c'.shared.db.deals id ≠ none := by
  obtain ⟨t, call, hstep, rfl⟩ := fire_eq_some.1 h
  obtain ⟨-, ⟨rfl, -⟩ | ⟨-, rfl, -⟩ | ⟨-, -, hstored⟩⟩ := webhookStep_cases hstep (hc.calls e.1)
  · exact hsome
  · exact hsome
  · exact hstored

/-- **One `created` entry.** In every interleaving of webhooks for a new deal, when all have committed:
the log has one `created` entry for the deal and every statement has logged the difference it made,
exactly when every call found the deal at its commit where it had read it. -/
theorem one_created_iff [Nonempty ι] {es : List (ι × Datetime)} (hnew : NewDeal lib id c)
    (hrun : exec (fire (webhookStep lib)) es c = some c')
    (hcommitted : ∀ i, (c'.proc i).phase = .committed) :
    (createdCount c'.shared.db id = 1 ∧
      EachStep (fire (webhookStep lib)) (fun s t => LogsDifference id s.shared.db t.shared.db) es c) ↔
    Guarded (fire (webhookStep lib)) (fun e s => FindsAsRead s.shared.db (s.proc e.1)) es c := by
  have hinv : Always (fire (webhookStep lib)) (RaceInv lib id) es c :=
    always_of_invariant (fun e s t hs hfire => hs.fire hfire) hnew.raceInv
  have heach := eachStep_iff_guarded
    (H := fun e s => RaceInv lib id s)
    (Q := fun s t => LogsDifference id s.shared.db t.shared.db)
    (G := fun e s => FindsAsRead s.shared.db (s.proc e.1))
    (by
      intro e s t hs hfire
      obtain ⟨g, call, hstep, rfl⟩ := fire_eq_some.1 hfire
      exact logsDifference_iff hstep (hs.calls e.1))
    (guarded_of_always (fun e s t _ hs _ => hs) hrun hinv) hrun
  rw [← heach]
  refine ⟨And.right, fun h => ⟨?_, h⟩⟩
  -- the number of `created` entries follows the row
  have hend : RaceInv lib id c' ∧ createdCount c'.shared.db id =
      if (c'.shared.db.deals id).isSome then 1 else 0 := by
    refine h.invariant (I := fun s => RaceInv lib id s ∧ createdCount s.shared.db id =
      if (s.shared.db.deals id).isSome then 1 else 0) ?_ ⟨hnew.raceInv, ?_⟩ hrun
    · rintro e s t ⟨hs, hcount⟩ hdiff hfire
      exact ⟨hs.fire hfire, createdCount_of_logsDifference hdiff (deals_kept hs hfire) hcount⟩
    · rw [createdCount, hnew.noEntry, hnew.noRow]
      rfl
  obtain ⟨hinv', hcount⟩ := hend
  obtain ⟨i⟩ := ‹Nonempty ι›
  have hstored : c'.shared.db.deals id ≠ none := by
    have hcall := hinv'.calls i
    rwa [CallHolds, hcommitted i] at hcall
  rw [hcount, if_pos (Option.isSome_iff_ne_none.2 hstored)]

/-- A log of differences leads to the position that is stored. -/
theorem replay_of_logsDifference {es : List (ι × Datetime)} (hnew : NewDeal lib id c)
    (hrun : exec (fire (webhookStep lib)) es c = some c')
    (heach : EachStep (fire (webhookStep lib))
      (fun s t => LogsDifference id s.shared.db t.shared.db) es c) :
    replay (c'.shared.db.changesOf id) = c'.shared.db.positionOf id := by
  have hend : RaceInv lib id c' ∧
      replay (c'.shared.db.changesOf id) = c'.shared.db.positionOf id := by
    refine heach.invariant (I := fun s => RaceInv lib id s ∧
      replay (s.shared.db.changesOf id) = s.shared.db.positionOf id) ?_ ⟨hnew.raceInv, ?_⟩ hrun
    · rintro e s t ⟨hs, hreplay⟩ hdiff hfire
      refine ⟨hs.fire hfire, ?_⟩
      rw [hdiff, replay, List.foldl_append, ← replay, hreplay]
      cases hafter : t.shared.db.positionOf id with
      | none =>
          have hbefore : s.shared.db.deals id = none := by
            by_contra hsome
            exact deals_kept hs hfire hsome (Option.map_eq_none_iff.1 hafter)
          simp [DealDb.positionOf, hbefore]
      | some new => exact foldl_diffOf _ new
    · rw [hnew.noEntry, DealDb.positionOf, hnew.noRow]
      rfl
  exact hend.2

end Race

/-! ## Two automations for one new deal -/

/-- Deliveries of deal 7, which has no row. -/
def newDeliveries (ι : Type) : Config ι (MirrorTables sampleRef) (WebhookCall sampleRef) where
  shared := ⟨DealDb.empty sampleRef, false⟩
  proc _ := ⟨buildStageResolver sampleRef, samplePayload "New" 5, .start⟩

theorem newDeal_newDeliveries (ι : Type) : NewDeal plainLib 7 (newDeliveries ι) where
  noRow := rfl
  noEntry := rfl
  start _ := rfl
  dealId i webhook h := by
    have hread := (reads_samplePayload "New" 5).webhook
    obtain rfl := Except.ok.inj (h.symm.trans hread)
    rfl

/-- The data of a delivery that has found no row. -/
theorem encodable_newDelivery :
    ((sampleReading "New" 5).data (buildStageResolver sampleRef) noon (samplePayload "New" 5)
      (DealDb.empty sampleRef)).Encodable plainLib :=
  data_encodable (valid_samplePayload 5) (buildStageResolver_sound sampleRef).knownTo

/-- A delivery on its own. -/
theorem single_delivery_logged :
    ∃ c', exec (fire (webhookStep plainLib)) (List.replicate 4 ((), noon)) (newDeliveries Unit) =
        some c' ∧ (∀ i, (c'.proc i).phase = .committed) ∧
      createdCount c'.shared.db 7 = 1 ∧
        EachStep (fire (webhookStep plainLib))
          (fun s t => LogsDifference 7 s.shared.db t.shared.db) (List.replicate 4 ((), noon))
          (newDeliveries Unit) := by
  have hread := reads_samplePayload "New" 5
  have hknown := (buildStageResolver_sound sampleRef).knownTo
  have hguarded : ∃ c', exec (fire (webhookStep plainLib)) (List.replicate 4 ((), noon))
        (newDeliveries Unit) = some c' ∧
      Guarded (fire (webhookStep plainLib)) (fun e s => FindsAsRead s.shared.db (s.proc e.1))
        (List.replicate 4 ((), noon)) (newDeliveries Unit) ∧
      ∀ i, (c'.proc i).phase = .committed := by
    apply guarded_run_cons (fire_of_step (webhookStep_start hread)) trivial
    apply guarded_run_cons (fire_of_step (webhookStep_selected hread
      (storable_eventsFrom (valid_samplePayload 5).storable))) trivial
    apply guarded_run_cons (fire_of_step (webhookStep_inserted _ hread rfl (DealDb.empty sampleRef)
      rfl encodable_newDelivery (allows_overlay hknown encodable_newDelivery _) noon)) trivial
    apply guarded_run_cons (fire_of_step rfl) rfl
    exact ⟨_, rfl, trivial, fun _ => rfl⟩
  obtain ⟨c', hrun, hfinds, hcommitted⟩ := hguarded
  exact ⟨c', hrun, hcommitted,
    (one_created_iff (newDeal_newDeliveries Unit) hrun hcommitted).2 hfinds⟩

/-- Two deliveries that have both read before one of them commits: two `created` entries. -/
theorem two_created :
    ¬ ∀ (es : List (Bool × Datetime)) c',
      exec (fire (webhookStep plainLib)) es (newDeliveries Bool) = some c' →
        (∀ i, (c'.proc i).phase = .committed) → createdCount c'.shared.db 7 = 1 := by
  intro h
  have hread := reads_samplePayload "New" 5
  have hknown := (buildStageResolver_sound sampleRef).knownTo
  let overlap : List (Bool × Datetime) :=
    [(false, noon), (true, noon), (false, noon), (true, noon), (false, noon), (false, noon),
      (true, noon), (true, noon)]
  have hoverlap : ∃ c', exec (fire (webhookStep plainLib)) overlap (newDeliveries Bool) = some c' ∧
      Guarded (fire (webhookStep plainLib)) (fun _ _ => True) overlap (newDeliveries Bool) ∧
      (∀ i, (c'.proc i).phase = .committed) ∧ createdCount c'.shared.db 7 = 2 := by
    apply guarded_run_cons (fire_of_step (webhookStep_start hread)) trivial
    apply guarded_run_cons (fire_of_step (webhookStep_start hread)) trivial
    apply guarded_run_cons (fire_of_step (webhookStep_selected hread
      (storable_eventsFrom (valid_samplePayload 5).storable))) trivial
    apply guarded_run_cons (fire_of_step (webhookStep_selected hread
      (storable_eventsFrom (valid_samplePayload 5).storable))) trivial
    apply guarded_run_cons (fire_of_step (webhookStep_inserted _ hread rfl (DealDb.empty sampleRef)
      rfl encodable_newDelivery (allows_overlay hknown encodable_newDelivery _) noon)) trivial
    apply guarded_run_cons (fire_of_step rfl) trivial
    -- the second delivery still takes the deal for a new one
    apply guarded_run_cons (fire_of_step (webhookStep_inserted _ hread rfl (DealDb.empty sampleRef)
      rfl encodable_newDelivery (allows_overlay hknown encodable_newDelivery _) noon)) trivial
    apply guarded_run_cons (fire_of_step rfl) trivial
    refine ⟨_, rfl, trivial, fun i => ?_, rfl⟩
    cases i <;> rfl
  obtain ⟨c', hrun, -, hcommitted, htwo⟩ := hoverlap
  rw [h overlap c' hrun hcommitted] at htwo
  cases htwo

end SalesTrades.Deals
