import SalesTrades.Freshsales.Pagination

/-!
# The timeline backfill

`run_timeline_backfill` replaces the backfilled events of each deal by the ones in its timeline. All
requests for a deal come before the transaction that deletes and inserts, and the transaction is
committed before the next deal. So wherever a run ends, the deals it got through have the events of
their timelines, and nothing else has changed (`backfill_atomic`).
-/

set_option autoImplicit false

namespace SalesTrades.Deals

open SalesTrades.Library.Paging SalesTrades.Freshsales

/-! ## Reading a timeline -/

/-- A `DealEvent` before the flush: the ids are as the feed has them. -/
structure TimelineEvent where
  eventType : EventType
  newPipelineId : Option Int := none
  newStageId : Json := .null
  newOwnerId : Json := .null
  occurredAt : Datetime
  rawPayload : Json

/-- The library functions, and whether PostgreSQL takes a document as JSONB. -/
structure BackfillLib extends PyLib where
  takesJson : JsonObject → Bool

/-- `pipeline_id_by_name.get(name)`: the last pipeline of a name, and a list or a `dict` has no hash. -/
def pipelineIdByName (pipelines : List Pipeline) : Json → Except PyError (Option Int)
  | .str name => .ok ((pipelines.reverse.find? fun p => p.name == name).map Pipeline.id)
  | .arr _ | .obj _ => .error .typeError
  | .null | .bool _ | .num _ => .ok none

section Parsing

variable (lib : BackfillLib) (pipelines : List Pipeline)

/-- `_parse_stage_change`. -/
def parseStageChange (feed : Json) : Except PyError (Option TimelineEvent) := do
  match ← parseIsoTimestamp lib.toPyLib (← feed.get "created_at") with
  | none => return none
  | some occurredAt =>
      let actionData := (← feed.get "action_data").orElse (.obj [])
      let newStageId ← actionData.get "stage_id"
      let newPipelineId ← pipelineIdByName pipelines (← actionData.get "pipeline_name")
      return some { eventType := .stageChange, newPipelineId, newStageId, occurredAt, rawPayload := feed }

/-- `_parse_owner_change`. -/
def parseOwnerChange (feed : Json) : Except PyError (Option TimelineEvent) := do
  match ← parseIsoTimestamp lib.toPyLib (← feed.get "created_at") with
  | none => return none
  | some occurredAt =>
      let actionData := (← feed.get "action_data").orElse (.obj [])
      let newOwnerId ← actionData.get "owner_change"
      return some { eventType := .ownerChange, newOwnerId, occurredAt, rawPayload := feed }

/-- The event of a feed, if it is one that is extracted. -/
def parseFeed (feed : Json) : Except PyError (Option TimelineEvent) := do
  let actionType ← feed.get "action_type"
  if actionType = .str "STAGE_CHANGE" then parseStageChange lib pipelines feed
  else if actionType = .str "OWNER_CHANGE" then parseOwnerChange lib feed
  else return none

/-- One page of the loop over the feeds, which are parsed as they are yielded. -/
def feedsTurn (get : ℕ → Except PyError Json) (page : ℕ) :
    List (Option TimelineEvent) × After PyError ℕ :=
  let (feeds, after) := timelineTurn get page
  match yieldEach (parseFeed lib pipelines) feeds with
  | (events, some e) => (events, .raised e)
  | (events, none) => (events, after)

end Parsing

/-! ## The transaction of a deal -/

/-- `deal_events` as it is committed, and as the open transaction sees it. -/
structure EventSession where
  committed : List DealEvent
  working : List DealEvent

/-- An event of the timeline of the deal. -/
def isBackfilled (dealId : Int) (e : DealEvent) : Bool :=
  e.dealId == dealId && e.source == .timelineBackfill

/-- `delete_events_by_source` for the source of the backfill. -/
def deleteBackfilled (dealId : Int) (s : EventSession) : Except PyError EventSession :=
  if IsBigint dealId then
    .ok { s with working := s.working.filter fun e => !isBackfilled dealId e }
  else .error .dataError

/-- The row that the flush inserts. -/
def timelineRow (lib : BackfillLib) (dealId : Int) (e : TimelineEvent) : Except PyError DealEvent := do
  let newStageId ← optionalCell lib.encodeBigint e.newStageId
  let newOwnerId ← optionalCell lib.encodeBigint e.newOwnerId
  match e.rawPayload with
  | .obj rawPayload =>
      if lib.takesJson rawPayload then
        return { dealId, eventType := e.eventType, newPipelineId := e.newPipelineId, newStageId,
                 newOwnerId, occurredAt := e.occurredAt, source := .timelineBackfill, rawPayload }
      else throw .dataError
  -- a feed that is no `dict` has raised when it was parsed
  | _ => throw .dataError

/-- The flush of the added events. -/
def insertRows (lib : BackfillLib) (dealId : Int) (events : List TimelineEvent) (s : EventSession) :
    Except PyError EventSession := do
  let rows ← events.mapM (timelineRow lib dealId)
  return { s with working := s.working ++ rows }

def EventSession.commit (s : EventSession) : EventSession := { s with committed := s.working }

/-- The visit of a deal, `none` where it has not ended after `fuel` requests. -/
def backfillDeal (lib : BackfillLib) (pipelines : List Pipeline) (get : ℕ → Except PyError Json)
    (fuel : ℕ) (dealId : Int) (s : EventSession) : Option (Except PyError EventSession) :=
  match walk (feedsTurn lib pipelines get) 1 fuel with
  | none => none
  | some ⟨_, _, some e⟩ => some (.error e)
  | some ⟨events, _, none⟩ => some do
      let s ← deleteBackfilled dealId s
      let s ← insertRows lib dealId (events.filterMap id) s
      return s.commit

/-! ## A run -/

/-- What a run leaves: the committed events, the number of deals it got through, and how it ended. -/
structure BackfillRun where
  events : List DealEvent
  deals : ℕ
  outcome : Option (Except PyError Unit)
  deriving DecidableEq

/-- What the client gets: what the CRM has on the page, unless the request fails. -/
def answered (crm : ℕ → Json) (fails : ℕ → Option PyError) (page : ℕ) : Except PyError Json :=
  match fails page with
  | some e => .error e
  | none => .ok (crm page)

section Run

variable (lib : BackfillLib) (pipelines : List Pipeline) (crm : Int → ℕ → Json)
  (fails : ℕ → ℕ → Option PyError) (fuel : ℕ)

/-- The loop over the deals from visit `visit` on. An exception rolls the transaction back. -/
def backfillLoop : ℕ → List Int → EventSession → BackfillRun
  | _, [], s => ⟨s.committed, 0, some (.ok ())⟩
  | visit, dealId :: rest, s =>
      match backfillDeal lib pipelines (answered (crm dealId) (fails visit)) fuel dealId s with
      | none => ⟨s.committed, 0, none⟩
      | some (.error e) => ⟨s.committed, 0, some (.error e)⟩
      | some (.ok s') =>
          let result := backfillLoop (visit + 1) rest s'
          { result with deals := result.deals + 1 }

/-- `run_timeline_backfill`; `crm dealId` are the pages of the timeline of a deal, and `fails` says
which requests of which visit fail. -/
def runTimelineBackfill (dealIds : List Int) (events : List DealEvent) : BackfillRun :=
  backfillLoop lib pipelines crm fails fuel 0 dealIds ⟨events, events⟩

end Run

/-! ## What a visit does -/

/-- The backfilled events of a deal. -/
def backfilled (dealId : Int) (events : List DealEvent) : List DealEvent :=
  events.filter (isBackfilled dealId)

/-- The events of the other sources. -/
def fromElsewhere (events : List DealEvent) : List DealEvent :=
  events.filter fun e => e.source ≠ .timelineBackfill

/-- The rows that are derived from a timeline: it is gone through to its end. -/
def TimelineRows (lib : BackfillLib) (pipelines : List Pipeline) (pages : ℕ → Json) (dealId : Int)
    (rows : List DealEvent) : Prop :=
  ∃ fuel w, walk (feedsTurn lib pipelines fun page => .ok (pages page)) 1 fuel = some w ∧
    w.raised = none ∧ (w.yields.filterMap id).mapM (timelineRow lib dealId) = .ok rows

/-- `rows` in the place of the backfilled events of a deal. -/
def replaceRows (dealId : Int) (rows events : List DealEvent) : List DealEvent :=
  events.filter (fun e => !isBackfilled dealId e) ++ rows

variable {lib : BackfillLib} {pipelines : List Pipeline} {pages : ℕ → Json} {dealId : Int}
  {rows rows' events : List DealEvent}

/-- A timeline determines its rows. -/
theorem TimelineRows.unique (h : TimelineRows lib pipelines pages dealId rows)
    (h' : TimelineRows lib pipelines pages dealId rows') : rows = rows' := by
  obtain ⟨fuel, w, hwalk, -, hrows⟩ := h
  obtain ⟨fuel', w', hwalk', -, hrows'⟩ := h'
  have hmax := walk_mono hwalk (Nat.le_max_left fuel fuel')
  rw [walk_mono hwalk' (Nat.le_max_right fuel fuel'), Option.some.injEq] at hmax
  subst hmax
  rw [hrows', Except.ok.injEq] at hrows
  exact hrows.symm

theorem isBackfilled_timelineRow {e : TimelineEvent} {row : DealEvent}
    (h : timelineRow lib dealId e = .ok row) : isBackfilled dealId row = true := by
  unfold timelineRow at h
  obtain ⟨newStageId, -, h⟩ := bind_eq_ok.1 h
  obtain ⟨newOwnerId, -, h⟩ := bind_eq_ok.1 h
  cases hpayload : e.rawPayload with
  | obj rawPayload =>
      rw [hpayload] at h
      dsimp only at h
      split at h
      · cases h
        simp [isBackfilled]
      · cases h
  | null | bool b | num q | str t | arr xs =>
      rw [hpayload] at h
      cases h

theorem isBackfilled_of_mapM {events : List TimelineEvent} {rows : List DealEvent}
    (h : events.mapM (timelineRow lib dealId) = .ok rows) :
    ∀ row ∈ rows, isBackfilled dealId row = true := by
  intro row hmem
  obtain ⟨e, -, hrow⟩ := exists_of_mapM_ok h row hmem
  exact isBackfilled_timelineRow hrow

/-- A client that fails at some requests sees the timeline, or fails. -/
theorem feedsTurn_answered (fails : ℕ → Option PyError) (page : ℕ) :
    feedsTurn lib pipelines (answered pages fails) page =
        feedsTurn lib pipelines (fun page => .ok (pages page)) page ∨
      ∃ ys e, feedsTurn lib pipelines (answered pages fails) page = (ys, .raised e) := by
  cases hfails : fails page with
  | none =>
      left
      simp only [feedsTurn, timelineTurn, answered, hfails]
  | some e =>
      right
      refine ⟨[], e, ?_⟩
      simp only [feedsTurn, timelineTurn, answered, hfails, yieldEach]

/-- **What a visit commits.** -/
theorem backfillDeal_spec {fails : ℕ → Option PyError} {fuel : ℕ} {s s' : EventSession}
    (h : backfillDeal lib pipelines (answered pages fails) fuel dealId s = some (.ok s')) :
    ∃ rows, TimelineRows lib pipelines pages dealId rows ∧
      (∀ row ∈ rows, isBackfilled dealId row = true) ∧
      s'.working = replaceRows dealId rows s.working ∧ s'.committed = s'.working := by
  unfold backfillDeal at h
  cases hwalk : walk (feedsTurn lib pipelines (answered pages fails)) 1 fuel with
  | none =>
      rw [hwalk] at h
      cases h
  | some w =>
      obtain ⟨yields, requests, raised⟩ := w
      rw [hwalk] at h
      cases raised with
      | some e => cases h
      | none =>
          rw [Option.some.injEq] at h
          obtain ⟨s₁, hdelete, h⟩ := bind_eq_ok.1 h
          obtain ⟨s₂, hinsert, h⟩ := bind_eq_ok.1 h
          obtain ⟨rows, hrows, hinsert⟩ := bind_eq_ok.1 hinsert
          cases hinsert
          cases h
          have htimeline := walk_of_failing (feedsTurn_answered fails) hwalk rfl
          refine ⟨rows, ⟨fuel, _, htimeline, rfl, hrows⟩, isBackfilled_of_mapM hrows, ?_, rfl⟩
          rw [deleteBackfilled] at hdelete
          split at hdelete
          · cases hdelete
            rfl
          · cases hdelete

/-! ### The replacement -/

theorem backfilled_replaceRows (hrows : ∀ row ∈ rows, isBackfilled dealId row = true) :
    backfilled dealId (replaceRows dealId rows events) = rows := by
  rw [backfilled, replaceRows, List.filter_append, List.filter_filter, List.filter_eq_self.2 hrows]
  have hnone : events.filter (fun e => isBackfilled dealId e && !isBackfilled dealId e) = [] := by
    apply List.filter_eq_nil_iff.2
    intro e _
    simp
  rw [hnone, List.nil_append]

theorem backfilled_replaceRows_of_ne (hrows : ∀ row ∈ rows, isBackfilled dealId row = true)
    {other : Int} (hne : other ≠ dealId) :
    backfilled other (replaceRows dealId rows events) = backfilled other events := by
  have hdisjoint : ∀ e, isBackfilled dealId e = true → isBackfilled other e = false := by
    intro e he
    simp only [isBackfilled, Bool.and_eq_true, beq_iff_eq] at he
    simp [isBackfilled, he.1, Ne.symm hne]
  have hnone : rows.filter (isBackfilled other) = [] := by
    apply List.filter_eq_nil_iff.2
    intro row hrow
    rw [hdisjoint row (hrows row hrow)]
    exact Bool.false_ne_true
  rw [backfilled, replaceRows, List.filter_append, hnone, List.append_nil, List.filter_filter,
    backfilled]
  apply List.filter_congr
  intro e _
  cases hown : isBackfilled dealId e with
  | true => rw [hdisjoint e hown, Bool.false_and]
  | false => rw [Bool.not_false, Bool.and_true]

theorem fromElsewhere_replaceRows (hrows : ∀ row ∈ rows, isBackfilled dealId row = true) :
    fromElsewhere (replaceRows dealId rows events) = fromElsewhere events := by
  have hsource : ∀ e, isBackfilled dealId e = true → e.source = .timelineBackfill := by
    intro e he
    simp only [isBackfilled, Bool.and_eq_true, beq_iff_eq] at he
    exact he.2
  have hnone : rows.filter (fun e => e.source ≠ .timelineBackfill) = [] := by
    apply List.filter_eq_nil_iff.2
    intro row hrow
    simp [hsource row (hrows row hrow)]
  rw [fromElsewhere, replaceRows, List.filter_append, hnone, List.append_nil, List.filter_filter,
    fromElsewhere]
  apply List.filter_congr
  intro e _
  cases hown : isBackfilled dealId e with
  | true => simp [hsource e hown]
  | false => simp

/-! ## What a run leaves -/

/-- Up to the deal where a run ends, the events are those of the timelines; the other deals and the
other sources are as they were. -/
structure Backfilled (lib : BackfillLib) (pipelines : List Pipeline) (crm : Int → ℕ → Json)
    (dealIds : List Int) (before : List DealEvent) (result : BackfillRun) : Prop where
  replaced : ∀ id ∈ dealIds.take result.deals,
    TimelineRows lib pipelines (crm id) id (backfilled id result.events)
  kept : ∀ id ∉ dealIds.take result.deals, backfilled id result.events = backfilled id before
  others : fromElsewhere result.events = fromElsewhere before
  completed : result.outcome = some (.ok ()) ↔ dealIds.length ≤ result.deals

variable {crm : Int → ℕ → Json} {fails : ℕ → ℕ → Option PyError} {fuel : ℕ}

/-- A run that ends at its first deal. -/
theorem backfilled_stopped {dealId : Int} {rest : List Int} {outcome : Option (Except PyError Unit)}
    (houtcome : outcome ≠ some (.ok ())) :
    Backfilled lib pipelines crm (dealId :: rest) events ⟨events, 0, outcome⟩ where
  replaced id hid := by cases hid
  kept _ _ := rfl
  others := rfl
  completed := iff_of_false houtcome (by simp)

/-- **Run lemma.** -/
theorem backfillLoop_spec {visit : ℕ} {dealIds : List Int} {s : EventSession}
    (hs : s.committed = s.working) :
    Backfilled lib pipelines crm dealIds s.committed
      (backfillLoop lib pipelines crm fails fuel visit dealIds s) := by
  induction dealIds generalizing visit s with
  | nil =>
      exact ⟨fun id hid => absurd hid List.not_mem_nil, fun _ _ => rfl, rfl,
        iff_of_true rfl (Nat.zero_le _)⟩
  | cons dealId rest ih =>
      rw [backfillLoop]
      cases hvisit : backfillDeal lib pipelines (answered (crm dealId) (fails visit)) fuel dealId s with
      | none => exact backfilled_stopped (by simp)
      | some result =>
          cases result with
          | error e => exact backfilled_stopped (by simp)
          | ok s' =>
              obtain ⟨rows, htimeline, hrows, hworking, hcommitted⟩ := backfillDeal_spec hvisit
              rw [← hs, ← hcommitted] at hworking
              have hrest := @ih (visit + 1) s' hcommitted
              dsimp only
              refine ⟨fun id hid => ?_, fun id hid => ?_, ?_, ?_⟩
              · by_cases hlater : id ∈ rest.take
                    (backfillLoop lib pipelines crm fails fuel (visit + 1) rest s').deals
                · exact hrest.replaced id hlater
                · -- the last visit of the deal is this one
                  rw [List.take_succ_cons, List.mem_cons, or_iff_left hlater] at hid
                  subst hid
                  rw [hrest.kept id hlater, hworking, backfilled_replaceRows hrows]
                  exact htimeline
              · rw [List.take_succ_cons, List.mem_cons, not_or] at hid
                rw [hrest.kept id hid.2, hworking, backfilled_replaceRows_of_ne hrows hid.1]
              · rw [hrest.others, hworking, fromElsewhere_replaceRows hrows]
              · rw [hrest.completed, List.length_cons, Nat.add_le_add_iff_right]

/-- The deals from the one where a run ends on make no difference. -/
theorem backfillLoop_take (visit : ℕ) (dealIds : List Int) (s : EventSession) :
    let result := backfillLoop lib pipelines crm fails fuel visit dealIds s
    backfillLoop lib pipelines crm fails fuel visit (dealIds.take result.deals) s =
      { result with outcome := some (.ok ()) } := by
  induction dealIds generalizing visit s with
  | nil => rfl
  | cons dealId rest ih =>
      rw [backfillLoop]
      cases hvisit : backfillDeal lib pipelines (answered (crm dealId) (fails visit)) fuel dealId s with
      | none => rfl
      | some result =>
          cases result with
          | error e => rfl
          | ok s' =>
              dsimp only
              rw [List.take_succ_cons, backfillLoop, hvisit]
              dsimp only
              rw [ih (visit + 1) s']

/-- Two logs with the same events of each deal and source have the same events. -/
theorem perm_of_backfilled {events events' : List DealEvent}
    (hothers : fromElsewhere events' = fromElsewhere events)
    (hdeals : ∀ id, backfilled id events' = backfilled id events) : events'.Perm events := by
  apply List.perm_iff_count.2
  intro e
  by_cases hsource : e.source = .timelineBackfill
  · have hown : isBackfilled e.dealId e = true := by simp [isBackfilled, hsource]
    rw [← List.count_filter (l := events') hown, ← List.count_filter (l := events) hown]
    exact congrArg (List.count e) (hdeals e.dealId)
  · have helse : decide (e.source ≠ .timelineBackfill) = true := decide_eq_true hsource
    have hcount (log : List DealEvent) : (fromElsewhere log).count e = log.count e :=
      List.count_filter helse
    rw [← hcount events', ← hcount events, hothers]

/-- **Atomic and idempotent.** For all lists of deals, timelines and failing requests: wherever a run
ends, the deals that it got through have the events of their timelines, the other deals and the other
sources are as they were, and it has done what the run over the deals that it got through does. A run
after one that was completed leaves the same events, however it ends. -/
theorem backfill_atomic (lib : BackfillLib) (pipelines : List Pipeline) (crm : Int → ℕ → Json)
    (fails : ℕ → ℕ → Option PyError) (fuel : ℕ) (dealIds : List Int) (before : List DealEvent) :
    let result := runTimelineBackfill lib pipelines crm fails fuel dealIds before
    Backfilled lib pipelines crm dealIds before result ∧
      runTimelineBackfill lib pipelines crm fails fuel (dealIds.take result.deals) before =
        { result with outcome := some (.ok ()) } ∧
      (result.outcome = some (.ok ()) → ∀ fails' fuel',
        (runTimelineBackfill lib pipelines crm fails' fuel' dealIds result.events).events.Perm
          result.events) := by
  intro result
  have hresult : Backfilled lib pipelines crm dealIds before result :=
    backfillLoop_spec (s := ⟨before, before⟩) rfl
  refine ⟨hresult, backfillLoop_take 0 dealIds _, fun hcompleted fails' fuel' => ?_⟩
  have hagain : Backfilled lib pipelines crm dealIds result.events
      (runTimelineBackfill lib pipelines crm fails' fuel' dealIds result.events) :=
    backfillLoop_spec (s := ⟨result.events, result.events⟩) rfl
  apply perm_of_backfilled hagain.others
  intro id
  by_cases hid : id ∈ dealIds.take
      (runTimelineBackfill lib pipelines crm fails' fuel' dealIds result.events).deals
  · -- both runs have the events of the timeline
    have hfirst : id ∈ dealIds.take result.deals := by
      rw [List.take_of_length_le (hresult.completed.1 hcompleted)]
      exact List.mem_of_mem_take hid
    exact (hagain.replaced id hid).unique (hresult.replaced id hfirst)
  · exact hagain.kept id hid

end SalesTrades.Deals
