import SalesTrades.Deals.Sync
import SalesTrades.Library.Run

/-!
# Runs of the mirror

`run_deal_sync` upserts the records of the configured views and of the other active pipelines. Its
records come from the CRM client, which may fail at any of them. Work is committed every
`COMMIT_BATCH_SIZE` upserts and after each view or pipeline, and what is not committed when the sync
raises is rolled back, so a sync leaves what the first so many of its records make of the database
(`runDealSync_prefix`). A run of the mirror is a list of webhooks and syncs.
-/

set_option autoImplicit false

namespace SalesTrades.Deals

open SalesTrades.Library

variable {ref : Reference} {lib : PyLib}

/-! ## The run -/

def commitBatchSize : Nat := 25

/-- The committed database, the one the session sees, and the counters. -/
structure SyncState (ref : Reference) where
  committed : DealDb ref
  working : DealDb ref
  synced : Nat
  skipped : Nat

def SyncState.start (db : DealDb ref) : SyncState ref where
  committed := db
  working := db
  synced := 0
  skipped := 0

/-- `session.commit()`. -/
def SyncState.commit (st : SyncState ref) : SyncState ref := { st with committed := st.working }

/-- What the client yields next: a record, or the exception of a request. -/
abbrev Yielded : Type := Except PyError Json

/-- One round of a loop over records. -/
def syncRecord (lib : PyLib) (st : SyncState ref) : Yielded → Except PyError (SyncState ref)
  | .error e => .error e
  | .ok deal => do
      match ← upsertRecord lib deal st.working with
      | none => return { st with skipped := st.skipped + 1 }
      | some db =>
          let st := { st with working := db, synced := st.synced + 1 }
          if st.synced % commitBatchSize = 0 then return st.commit else return st

/-- The loop over the records of one view or pipeline, and the commit after it. -/
def syncStream (lib : PyLib) : List Yielded → SyncState ref → SyncState ref × Option PyError
  | [], st => (st.commit, none)
  | item :: rest, st =>
      match syncRecord lib st item with
      | .ok st' => syncStream lib rest st'
      | .error e => (st, some e)

def syncStreams (lib : PyLib) : List (List Yielded) → SyncState ref → SyncState ref × Option PyError
  | [], st => (st, none)
  | stream :: rest, st =>
      match syncStream lib stream st with
      | (st', none) => syncStreams lib rest st'
      | (st', some e) => (st', some e)

/-- The answers of the CRM in one run: the records of a view, and the full records of the deals of a
pipeline. -/
structure Feed where
  view : Int → List Yielded
  pipelineDeals : Int → List Yielded

/-- What a run goes through: the configured views, then the active pipelines other than the default
one. -/
def feedStreams (ref : Reference) (viewIds : List Int) (feed : Feed) : List (List Yielded) :=
  viewIds.map feed.view ++
    (ref.pipelines.filter fun p => p.isActive && !p.isDefault).map fun p => feed.pipelineDeals p.id

/-- `run_deal_sync`: the database after it, and the exception it ended with. -/
def runDealSync (lib : PyLib) (viewIds : List Int) (feed : Feed) (db : DealDb ref) :
    DealDb ref × Option PyError :=
  let (st, e) := syncStreams lib (feedStreams ref viewIds feed) (.start db)
  (st.committed, e)

/-! ## A run is a prefix of its records -/

/-- One record as a step; it is not enabled when it raises. -/
def recordStep (lib : PyLib) (deal : Json) (db : DealDb ref) : Option (DealDb ref) :=
  match upsertRecord lib deal db with
  | .ok (some db') => some db'
  | .ok none => some db
  | .error _ => none

/-- A record is skipped, or its upsert changes the row of its own deal and no event. -/
theorem recordStep_cases {deal : Json} {db db' : DealDb ref}
    (h : recordStep lib deal db = some db') :
    (db' = db ∧ ∃ members, deal = .obj members ∧
        (pyInt (Json.member members "deal_pipeline_id")).any (activePipelineIds ref).contains =
          false) ∨
      ∃ members r id, deal = .obj members ∧ RecordReadsAs ref lib members r id ∧
      (r.data ref members).Encodable lib ∧
      db'.deals id =
        some (PartialRecord.overlay ((r.data ref members).encoded lib) (db.rowOrEmpty id)) ∧
      (∀ id', id' ≠ id → db'.deals id' = db.deals id') ∧ db'.events = db.events := by
  rw [recordStep] at h
  split at h
  · rename_i next hnext
    cases h
    right
    obtain ⟨members, r, id, hdeal, hread, hupsert⟩ := upsertRecord_spec hnext
    obtain ⟨henc, hrow, hother, hevents⟩ := upsertDeal_spec hupsert
    exact ⟨members, r, id, hdeal, hread, henc, hrow, hother, hevents⟩
  · rename_i hskipped
    cases h
    exact Or.inl ⟨rfl, upsertRecord_skipped hskipped⟩
  · cases h

/-- The records up to the first failed request. -/
def records : List Yielded → List Json
  | .ok deal :: rest => deal :: records rest
  | _ => []

theorem records_append (stream rest : List Yielded) :
    records stream <+: records (stream ++ rest) := by
  induction stream with
  | nil => exact List.nil_prefix
  | cons item stream ih =>
      cases item with
      | error e => exact List.nil_prefix
      | ok deal => exact (List.prefix_cons_inj deal).2 ih

/-- The state of a run that has gone through the records `done`. -/
structure Tracks (lib : PyLib) (db : DealDb ref) (done : List Json) (st : SyncState ref) : Prop where
  working : Run.exec (recordStep lib) done db = some st.working
  committed : ∃ part, part <+: done ∧ Run.exec (recordStep lib) part db = some st.committed

section Prefix

variable {db : DealDb ref} {done : List Json} {st st' : SyncState ref}

theorem tracks_start (db : DealDb ref) : Tracks lib db [] (.start db) :=
  ⟨rfl, [], List.prefix_rfl, rfl⟩

theorem Tracks.commit (h : Tracks lib db done st) : Tracks lib db done st.commit :=
  ⟨h.working, done, List.prefix_rfl, h.working⟩

/-- One more record. -/
theorem Tracks.record (h : Tracks lib db done st) {deal : Json}
    (hstep : syncRecord lib st (.ok deal) = .ok st') : Tracks lib db (done ++ [deal]) st' := by
  have hexec : ∀ next, recordStep lib deal st.working = some next →
      Run.exec (recordStep lib) (done ++ [deal]) db = some next := by
    intro next hnext
    simp [Run.exec_append, h.working, Run.exec, hnext]
  obtain ⟨part, hpart, hcommitted⟩ := h.committed
  have hlonger : part <+: done ++ [deal] := hpart.trans (List.prefix_append done [deal])
  simp only [syncRecord, bind, Except.bind] at hstep
  split at hstep
  · cases hstep
  rename_i result hresult
  split at hstep
  · -- a skipped record
    cases hstep
    exact ⟨hexec st.working (by rw [recordStep, hresult]), part, hlonger, hcommitted⟩
  · rename_i next
    have hnext := hexec next (by rw [recordStep, hresult])
    split at hstep
    · cases hstep
      exact ⟨hnext, done ++ [deal], List.prefix_rfl, hnext⟩
    · cases hstep
      exact ⟨hnext, part, hlonger, hcommitted⟩

/-- A stream is gone through up to the point where it raises, if it does. -/
theorem Tracks.stream (h : Tracks lib db done st) (stream : List Yielded) :
    ∃ part, part <+: records stream ∧ Tracks lib db (done ++ part) (syncStream lib stream st).1 ∧
      ((syncStream lib stream st).2 = none →
        part = records stream ∧ ∀ rest, records (stream ++ rest) = records stream ++ records rest) := by
  induction stream generalizing done st with
  | nil =>
      refine ⟨[], List.prefix_rfl, ?_, ?_⟩
      · rw [List.append_nil]
        exact h.commit
      · intro _
        exact ⟨rfl, fun rest => rfl⟩
  | cons item stream ih =>
      rw [syncStream]
      cases item with
      | error e =>
          refine ⟨[], List.nil_prefix, ?_, ?_⟩
          · rw [List.append_nil]
            exact h
          · intro hnone
            cases hnone
      | ok deal =>
          cases hstep : syncRecord lib st (.ok deal) with
          | error e =>
              refine ⟨[], List.nil_prefix, ?_, ?_⟩
              · rw [List.append_nil]
                exact h
              · intro hnone
                cases hnone
          | ok st' =>
              obtain ⟨part, hpart, htracks, hall⟩ := ih (h.record hstep)
              refine ⟨deal :: part, (List.prefix_cons_inj deal).2 hpart, ?_, ?_⟩
              · rw [List.append_assoc] at htracks
                exact htracks
              · intro hnone
                obtain ⟨hpart', hrest⟩ := hall hnone
                refine ⟨by rw [hpart', records], ?_⟩
                intro rest
                rw [List.cons_append, records, records, hrest, List.cons_append]

theorem Tracks.streams (h : Tracks lib db done st) (streams : List (List Yielded)) :
    ∃ part, part <+: records streams.flatten ∧
      Tracks lib db (done ++ part) (syncStreams lib streams st).1 ∧
      ((syncStreams lib streams st).2 = none → part = records streams.flatten) := by
  induction streams generalizing done st with
  | nil =>
      refine ⟨[], List.prefix_rfl, ?_, fun _ => rfl⟩
      rw [List.append_nil]
      exact h
  | cons stream streams ih =>
      obtain ⟨part, hpart, htracks, hall⟩ := h.stream stream
      rw [syncStreams, List.flatten_cons]
      cases hrun : syncStream lib stream st with
      | mk st' raised =>
          rw [hrun] at htracks hall
          cases raised with
          | some e =>
              refine ⟨part, hpart.trans (records_append stream _), htracks, ?_⟩
              intro hnone
              cases hnone
          | none =>
              obtain ⟨hpart', hrest⟩ := hall rfl
              obtain ⟨part', hpartial, htracks', hall'⟩ := ih htracks
              refine ⟨part ++ part', ?_, ?_, ?_⟩
              · rw [hpart', hrest]
                exact (List.prefix_append_right_inj _).2 hpartial
              · rw [← List.append_assoc]
                exact htracks'
              · intro hnone
                rw [hpart', hrest, hall' hnone]

/-- **Prefix.** A sync leaves what a prefix of its records makes of the database. -/
theorem runDealSync_prefix (lib : PyLib) (viewIds : List Int) (feed : Feed) (db : DealDb ref) :
    ∃ part, part <+: records (feedStreams ref viewIds feed).flatten ∧
      Run.exec (recordStep lib) part db = some (runDealSync lib viewIds feed db).1 := by
  have hstart : Tracks lib db [] (.start db) := tracks_start db
  obtain ⟨done, hdone, htracks, -⟩ := hstart.streams
    (feedStreams ref viewIds feed)
  obtain ⟨part, hpart, hcommitted⟩ := htracks.committed
  exact ⟨part, hpart.trans hdone, hcommitted⟩

/-- A stream that does not raise ends with a commit. -/
theorem syncStream_committed (stream : List Yielded) (st : SyncState ref)
    (h : (syncStream lib stream st).2 = none) :
    (syncStream lib stream st).1.committed = (syncStream lib stream st).1.working := by
  induction stream generalizing st with
  | nil => rfl
  | cons item stream ih =>
      rw [syncStream] at h ⊢
      split at h
      · rename_i st' hst'
        exact ih st' h
      · cases h

theorem syncStreams_committed (streams : List (List Yielded)) (st : SyncState ref)
    (hst : st.committed = st.working) (h : (syncStreams lib streams st).2 = none) :
    (syncStreams lib streams st).1.committed = (syncStreams lib streams st).1.working := by
  induction streams generalizing st with
  | nil => exact hst
  | cons stream streams ih =>
      rw [syncStreams] at h ⊢
      cases hrun : syncStream lib stream st with
      | mk st' raised =>
          rw [hrun] at h
          cases raised with
          | some e => cases h
          | none =>
              apply ih
              · have hcommitted : (syncStream lib stream st).2 = none →
                    (syncStream lib stream st).1.committed = (syncStream lib stream st).1.working :=
                  syncStream_committed stream st
                rw [hrun] at hcommitted
                exact hcommitted rfl
              · exact h

/-- A sync that does not raise leaves what all of its records make of the database. -/
theorem runDealSync_complete {viewIds : List Int} {feed : Feed} {db : DealDb ref}
    (h : (runDealSync lib viewIds feed db).2 = none) :
    Run.exec (recordStep lib) (records (feedStreams ref viewIds feed).flatten) db =
      some (runDealSync lib viewIds feed db).1 := by
  have hstart : Tracks lib db [] (.start db) := tracks_start db
  obtain ⟨done, -, htracks, hall⟩ := hstart.streams
    (feedStreams ref viewIds feed)
  have hdone := hall h
  rw [List.nil_append, hdone] at htracks
  have hcommitted := syncStreams_committed (feedStreams ref viewIds feed) (.start db) rfl h
  rw [htracks.working, ← hcommitted]
  rfl

end Prefix

/-! ## Webhooks and syncs in any order -/

/-- A webhook that arrives at `now`, or a sync with the answers of the CRM. -/
inductive DealOp where
  | webhook (now : Datetime) (payload : JsonObject)
  | sync (feed : Feed)

/-- A call that raises is rolled back as far as it has not committed. -/
def dealStep (lib : PyLib) (viewIds : List Int) : DealOp → DealDb ref → Option (DealDb ref)
  | .webhook now payload, db =>
      match ingestWebhook lib (buildStageResolver ref) now payload db with
      | .ok db' => some db'
      | .error _ => some db
  | .sync feed, db => some (runDealSync lib viewIds feed db).1

/-- A webhook leaves the database as it is, or is read and stored. -/
theorem dealStep_webhook {viewIds : List Int} {now : Datetime} {payload : JsonObject}
    {db db' : DealDb ref} (h : dealStep lib viewIds (.webhook now payload) db = some db') :
    db' = db ∨ ∃ r, ReadsAs lib payload r ∧
      ingestWebhook lib (buildStageResolver ref) now payload db = .ok db' := by
  simp only [dealStep] at h
  split at h
  · rename_i next hnext
    cases h
    obtain ⟨r, hr⟩ := readsAs_of_ok hnext
    exact Or.inr ⟨r, hr, hnext⟩
  · cases h
    exact Or.inl rfl

/-- The record of deal 7 at a place of the small account. -/
def sampleRecord (pipelineId stageId : ℚ) : JsonObject :=
  [("id", .num 7), ("deal_pipeline_id", .num pipelineId), ("deal_stage_id", .num stageId),
    ("owner_id", .num 5)]

/-- The answers of the CRM when that is all the views have. -/
def sampleFeed (pipelineId stageId : ℚ) : Feed where
  view _ := [.ok (.obj (sampleRecord pipelineId stageId))]
  pipelineDeals _ := []

/-- Deal 7 is created by a webhook in stage 11 of pipeline 1, then a sync has it at another place. -/
def movingRun (pipelineId stageId : ℚ) : List DealOp :=
  [.webhook noon (samplePayload "New" 5), .sync (sampleFeed pipelineId stageId)]

end SalesTrades.Deals
