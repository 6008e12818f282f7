import SalesTrades.Analytics.Activity
import SalesTrades.Deals.InactivePipelines
import SalesTrades.Tasks.Model

/-!
# Data freshness

`get_data_freshness` takes the newest `updated_at` of the pipelines and owners for the time of the last
reference sync, and the newest `last_synced_at` of the tasks for the time of the last task sync. The
upserts of these tables leave the two columns out of their set lists, and `onupdate` is not applied by
`INSERT ... ON CONFLICT DO UPDATE`, so a row keeps the time it came in. A run is reported exactly when
it brings in a row (`freshness_iff`).
-/

set_option autoImplicit false

namespace SalesTrades.Tasks

open SalesTrades.Library SalesTrades.Library.Run SalesTrades.Deals

variable {lib : PyLib} {viewIds : List Int}

/-! ## What a reference sync upserts -/

/-- The id of an entry, as the driver takes it. -/
def entryId (lib : PyLib) (entry : Json) : Option Int :=
  (item entry "id" >>= requiredCell lib.encodeBigint).toOption

def entryIds (lib : PyLib) (entries : Except PyError (List Json)) : List Int :=
  match entries with
  | .error _ => []
  | .ok entries => entries.filterMap (entryId lib)

/-- The pipelines in an answer, as `sync_pipelines_and_stages` goes through them. -/
def pipelineEntries (answer : Json) : Except PyError (List Json) := do
  iterate (← getOr answer "deal_pipelines" (.arr []))

/-- The owners in an answer, as `sync_owners` goes through them. -/
def ownerEntries (answer : Json) : Except PyError (List Json) := do
  let owners ← answer.get "owners"
  let users ← getOr answer "users" (.arr [])
  iterate (owners.orElse users)

/-- The pipelines that a reference sync commits. -/
def syncedPipelines (lib : PyLib) (answers : ReferenceAnswers) (ref : Reference) : List Int :=
  match answers.pipelines >>= fun answer => syncPipelinesAndStages lib answer ref with
  | .error _ => []
  | .ok _ => entryIds lib (answers.pipelines >>= pipelineEntries)

/-- The owners that a reference sync commits. -/
def syncedOwners (lib : PyLib) (answers : ReferenceAnswers) (ref : Reference) : List Int :=
  match answers.pipelines >>= fun answer => syncPipelinesAndStages lib answer ref with
  | .error _ => []
  | .ok ⟨ref', _⟩ =>
      match answers.owners >>= fun answer => syncOwners lib answer ref' with
      | .error _ => []
      | .ok _ => entryIds lib (answers.owners >>= ownerEntries)

section Reference

variable {ref : Reference}

/-- A loop in which every entry puts its id in a column. -/
theorem upsertEach_ids {upsert : Json → (ref : Reference) → Except PyError (Grown ref)}
    {ids : Reference → List Int}
    (hone : ∀ entry ref r, upsert entry ref = .ok r →
      ∃ n, entryId lib entry = some n ∧ ids r.1 = Keyed.put id n (ids ref))
    {entries : List Json} {r : Grown ref} (h : upsertEach upsert entries ref = .ok r) :
    ids r.1 = Keyed.putAll id (entries.filterMap (entryId lib)) (ids ref) := by
  induction entries generalizing ref with
  | nil =>
      obtain rfl := Except.ok.inj h
      rfl
  | cons entry rest ih =>
      rw [upsertEach] at h
      obtain ⟨⟨ref', h'⟩, hentry, h⟩ := bind_eq_ok.1 h
      obtain ⟨⟨ref'', h''⟩, hrest, h⟩ := bind_eq_ok.1 h
      obtain rfl := Except.ok.inj h
      obtain ⟨n, hn, hids⟩ := hone entry ref _ hentry
      rw [List.filterMap_cons_some hn]
      dsimp only at hids ⊢
      rw [ih hrest, hids]
      rfl

/-- A loop in which no entry changes a column. -/
theorem upsertEach_keeps {upsert : Json → (ref : Reference) → Except PyError (Grown ref)}
    {ids : Reference → List Int}
    (hone : ∀ entry ref r, upsert entry ref = .ok r → ids r.1 = ids ref)
    {entries : List Json} {r : Grown ref} (h : upsertEach upsert entries ref = .ok r) :
    ids r.1 = ids ref := by
  induction entries generalizing ref with
  | nil =>
      obtain rfl := Except.ok.inj h
      rfl
  | cons entry rest ih =>
      rw [upsertEach] at h
      obtain ⟨⟨ref', h'⟩, hentry, h⟩ := bind_eq_ok.1 h
      obtain ⟨⟨ref'', h''⟩, hrest, h⟩ := bind_eq_ok.1 h
      obtain rfl := Except.ok.inj h
      exact (ih hrest).trans (hone entry ref _ hentry)

theorem upsertPipeline_ok {key name : Json} {isDefault isActive : Bool} {r : Grown ref}
    (h : upsertPipeline lib key name isDefault isActive ref = .ok r) :
    ∃ n, requiredCell lib.encodeBigint key = .ok n ∧
      r.1.pipelineIds = Keyed.put id n ref.pipelineIds ∧ r.1.owners = ref.owners := by
  rw [upsertPipeline] at h
  obtain ⟨n, hn, h⟩ := bind_eq_ok.1 h
  obtain ⟨name, -, h⟩ := bind_eq_ok.1 h
  split at h
  · obtain rfl := Except.ok.inj h
    exact ⟨n, hn, Keyed.map_key_put, rfl⟩
  · cases h

theorem upsertStage_keeps {id pipelineId name position forecastType probability : Json}
    {r : Grown ref}
    (h : upsertStage lib id pipelineId name position forecastType probability ref = .ok r) :
    r.1.pipelineIds = ref.pipelineIds ∧ r.1.owners = ref.owners := by
  rw [upsertStage] at h
  obtain ⟨_, -, h⟩ := bind_eq_ok.1 h
  obtain ⟨_, -, h⟩ := bind_eq_ok.1 h
  obtain ⟨_, -, h⟩ := bind_eq_ok.1 h
  obtain ⟨_, -, h⟩ := bind_eq_ok.1 h
  obtain ⟨_, -, h⟩ := bind_eq_ok.1 h
  obtain ⟨_, -, h⟩ := bind_eq_ok.1 h
  split at h
  · split at h
    · obtain rfl := Except.ok.inj h
      exact ⟨rfl, rfl⟩
    · cases h
  · cases h

theorem syncStage_keeps {pipelineId stage : Json} {r : Grown ref}
    (h : syncStage lib pipelineId stage ref = .ok r) :
    r.1.pipelineIds = ref.pipelineIds ∧ r.1.owners = ref.owners := by
  rw [syncStage] at h
  obtain ⟨_, -, h⟩ := bind_eq_ok.1 h
  obtain ⟨_, -, h⟩ := bind_eq_ok.1 h
  obtain ⟨_, -, h⟩ := bind_eq_ok.1 h
  obtain ⟨_, -, h⟩ := bind_eq_ok.1 h
  obtain ⟨_, -, h⟩ := bind_eq_ok.1 h
  obtain ⟨_, -, h⟩ := bind_eq_ok.1 h
  exact upsertStage_keeps h

theorem syncPipeline_ok {pipeline : Json} {r : Grown ref}
    (h : syncPipeline lib pipeline ref = .ok r) :
    (∃ n, entryId lib pipeline = some n ∧ r.1.pipelineIds = Keyed.put id n ref.pipelineIds) ∧
      r.1.owners = ref.owners := by
  rw [syncPipeline] at h
  obtain ⟨key, hkey, h⟩ := bind_eq_ok.1 h
  obtain ⟨excluded, -, h⟩ := bind_eq_ok.1 h
  obtain ⟨_, -, h⟩ := bind_eq_ok.1 h
  obtain ⟨_, -, h⟩ := bind_eq_ok.1 h
  obtain ⟨⟨ref', h'⟩, hupsert, h⟩ := bind_eq_ok.1 h
  obtain ⟨n, hn, hids, howners⟩ := upsertPipeline_ok hupsert
  have hentry : entryId lib pipeline = some n := by
    rw [entryId, hkey]
    exact congrArg Except.toOption hn
  dsimp only at h
  split at h
  · obtain rfl := Except.ok.inj h
    exact ⟨⟨n, hentry, hids⟩, howners⟩
  · obtain ⟨_, -, h⟩ := bind_eq_ok.1 h
    obtain ⟨stages, -, h⟩ := bind_eq_ok.1 h
    obtain ⟨⟨ref'', h''⟩, hstages, h⟩ := bind_eq_ok.1 h
    obtain rfl := Except.ok.inj h
    -- the stages are in a table of their own
    have hkeptIds : ref''.pipelineIds = ref'.pipelineIds :=
      upsertEach_keeps (fun _ _ _ hstage => (syncStage_keeps hstage).1) hstages
    have hkeptOwners : ref''.owners = ref'.owners :=
      upsertEach_keeps (fun _ _ _ hstage => (syncStage_keeps hstage).2) hstages
    exact ⟨⟨n, hentry, hkeptIds.trans hids⟩, hkeptOwners.trans howners⟩

theorem syncOwner_ok {owner : Json} {r : Grown ref} (h : syncOwner lib owner ref = .ok r) :
    (∃ n, entryId lib owner = some n ∧ r.1.owners = Keyed.put id n ref.owners) ∧
      r.1.pipelineIds = ref.pipelineIds := by
  rw [syncOwner] at h
  obtain ⟨key, hkey, h⟩ := bind_eq_ok.1 h
  obtain ⟨_, -, h⟩ := bind_eq_ok.1 h
  obtain ⟨_, -, h⟩ := bind_eq_ok.1 h
  obtain ⟨_, -, h⟩ := bind_eq_ok.1 h
  obtain ⟨_, -, h⟩ := bind_eq_ok.1 h
  rw [upsertOwner] at h
  obtain ⟨n, hn, h⟩ := bind_eq_ok.1 h
  obtain ⟨_, -, h⟩ := bind_eq_ok.1 h
  obtain ⟨_, -, h⟩ := bind_eq_ok.1 h
  obtain ⟨_, -, h⟩ := bind_eq_ok.1 h
  split at h
  · obtain rfl := Except.ok.inj h
    refine ⟨⟨n, ?_, rfl⟩, rfl⟩
    rw [entryId, hkey]
    exact congrArg Except.toOption hn
  · cases h

/-- A pipelines part that goes through upserts its entries. -/
theorem syncPipelinesAndStages_ok {answer : Json} {r : Grown ref}
    (h : syncPipelinesAndStages lib answer ref = .ok r) :
    ∃ entries, pipelineEntries answer = .ok entries ∧
      r.1.pipelineIds = Keyed.putAll id (entries.filterMap (entryId lib)) ref.pipelineIds ∧
      r.1.owners = ref.owners := by
  have heq : syncPipelinesAndStages lib answer ref =
      pipelineEntries answer >>= fun entries => upsertEach (syncPipeline lib) entries ref := by
    rw [pipelineEntries, bind_assoc]
    rfl
  rw [heq] at h
  obtain ⟨entries, hentries, h⟩ := bind_eq_ok.1 h
  refine ⟨entries, hentries, ?_, ?_⟩
  · exact upsertEach_ids (fun _ _ _ hentry => (syncPipeline_ok hentry).1) h
  · exact upsertEach_keeps (fun _ _ _ hentry => (syncPipeline_ok hentry).2) h

theorem syncOwners_ok {answer : Json} {r : Grown ref} (h : syncOwners lib answer ref = .ok r) :
    ∃ entries, ownerEntries answer = .ok entries ∧
      r.1.owners = Keyed.putAll id (entries.filterMap (entryId lib)) ref.owners ∧
      r.1.pipelineIds = ref.pipelineIds := by
  have heq : syncOwners lib answer ref =
      ownerEntries answer >>= fun entries => upsertEach (syncOwner lib) entries ref := by
    rw [ownerEntries]
    simp only [bind_assoc]
    rfl
  rw [heq] at h
  obtain ⟨entries, hentries, h⟩ := bind_eq_ok.1 h
  refine ⟨entries, hentries, ?_, ?_⟩
  · exact upsertEach_ids (fun _ _ _ hentry => (syncOwner_ok hentry).1) h
  · exact upsertEach_keeps (fun _ _ _ hentry => (syncOwner_ok hentry).2) h

/-- A reference sync puts the ids it commits into the two tables. -/
theorem runReferenceSync_ids (lib : PyLib) (answers : ReferenceAnswers) (ref : Reference) :
    (runReferenceSync lib answers ref).1.1.pipelineIds =
        Keyed.putAll id (syncedPipelines lib answers ref) ref.pipelineIds ∧
      (runReferenceSync lib answers ref).1.1.owners =
        Keyed.putAll id (syncedOwners lib answers ref) ref.owners := by
  rw [runReferenceSync, syncedPipelines, syncedOwners]
  cases hpart : answers.pipelines >>= fun answer => syncPipelinesAndStages lib answer ref with
  | error e => exact ⟨rfl, rfl⟩
  | ok r =>
      obtain ⟨ref', h'⟩ := r
      obtain ⟨answer, hanswer, hsync⟩ := bind_eq_ok.1 hpart
      obtain ⟨entries, hentries, hids, howners⟩ := syncPipelinesAndStages_ok hsync
      have hlisted : answers.pipelines >>= pipelineEntries = .ok entries :=
        bind_eq_ok.2 ⟨answer, hanswer, hentries⟩
      dsimp only at hids howners ⊢
      rw [hlisted]
      cases howner : answers.owners >>= fun answer => syncOwners lib answer ref' with
      | error e => exact ⟨hids, howners⟩
      | ok r =>
          obtain ⟨ref'', h''⟩ := r
          obtain ⟨answer', hanswer', hsync'⟩ := bind_eq_ok.1 howner
          obtain ⟨entries', hentries', hids', howners'⟩ := syncOwners_ok hsync'
          have hlisted' : answers.owners >>= ownerEntries = .ok entries' :=
            bind_eq_ok.2 ⟨answer', hanswer', hentries'⟩
          dsimp only at hids' howners' ⊢
          rw [hlisted']
          exact ⟨howners'.trans hids, hids'.trans (by rw [howners]; rfl)⟩

end Reference

/-! ## The tables with their times -/

/-- When a run starts and stops, and `now()` in each of its transactions. -/
structure RunTimes (ι : Type) where
  start : Int
  stop : Int
  now : ι → Int
  start_le : ∀ i, start ≤ now i
  le_stop : ∀ i, now i ≤ stop
  start_le_stop : start ≤ stop

/-- The transactions of a reference sync that write to the tables with a reported time. -/
inductive ReferencePart where
  | pipelines
  | owners

/-- The mirrored tables, `updated_at` of the pipelines and the owners by their ids, and the time. -/
structure SyncedTables where
  ref : Reference
  db : DealDb ref
  pipelineTimes : List (Stamped Int Int)
  ownerTimes : List (Stamped Int Int)
  tasks : TaskTable
  clock : Int
  pipelines_listed : pipelineTimes.map Stamped.value = ref.pipelineIds
  owners_listed : ownerTimes.map Stamped.value = ref.owners
  pipelines_le : ∀ r ∈ pipelineTimes, r.time ≤ clock
  owners_le : ∀ r ∈ ownerTimes, r.time ≤ clock
  tasks_le : ∀ r ∈ tasks, r.time ≤ clock

/-- A reference, task or deal sync. The deals of a task sync are those that `list_open_deal_ids`
returns, which has no bearing on the times. -/
inductive SyncOp where
  | reference (times : RunTimes ReferencePart) (answers : ReferenceAnswers)
  | tasks (times : RunTimes Int) (dealIds : List Int) (answers : Int → Except PyError Json)
  | deals (times : RunTimes Unit) (feed : Feed)

/-- Upserts of ids at one time. -/
def stampIds (now : Int) (ids : List Int) : List (Stamped Int Int) → List (Stamped Int Int) :=
  Stamped.putAll id (ids.map fun n => ⟨n, now⟩)

theorem values_stampIds (now : Int) (ids : List Int) (rows : List (Stamped Int Int)) :
    (stampIds now ids rows).map Stamped.value = Keyed.putAll id ids (rows.map Stamped.value) := by
  rw [stampIds, Stamped.values_putAll, List.map_map]
  congr 1
  exact List.map_id _

theorem time_stampIds_le {now stop clock : Int} {ids : List Int} {rows : List (Stamped Int Int)}
    (hrows : ∀ r ∈ rows, r.time ≤ clock) (hclock : clock ≤ stop) (hnow : now ≤ stop) :
    ∀ r ∈ stampIds now ids rows, r.time ≤ stop := by
  apply Stamped.time_putAll_le
  · exact fun r hr => (hrows r hr).trans hclock
  · intro y hy
    obtain ⟨_, -, rfl⟩ := List.mem_map.1 hy
    exact hnow

namespace SyncedTables

variable (w : SyncedTables)

/-- `run_reference_sync`. The set lists of its upserts have no `updated_at`. -/
def referenceSynced (lib : PyLib) (times : RunTimes ReferencePart) (answers : ReferenceAnswers)
    (hclock : w.clock < times.start) : SyncedTables where
  ref := (runReferenceSync lib answers w.ref).1.1
  db := w.db.onto (runReferenceSync lib answers w.ref).1.2
  pipelineTimes :=
    stampIds (times.now .pipelines) (syncedPipelines lib answers w.ref) w.pipelineTimes
  ownerTimes := stampIds (times.now .owners) (syncedOwners lib answers w.ref) w.ownerTimes
  tasks := w.tasks
  clock := times.stop
  pipelines_listed := by
    rw [values_stampIds, w.pipelines_listed, (runReferenceSync_ids lib answers w.ref).1]
  owners_listed := by
    rw [values_stampIds, w.owners_listed, (runReferenceSync_ids lib answers w.ref).2]
  pipelines_le :=
    time_stampIds_le w.pipelines_le (hclock.le.trans times.start_le_stop) (times.le_stop _)
  owners_le := time_stampIds_le w.owners_le (hclock.le.trans times.start_le_stop) (times.le_stop _)
  tasks_le r hr := (w.tasks_le r hr).trans (hclock.le.trans times.start_le_stop)

theorem time_tasksSynced_le (lib : PyLib) (times : RunTimes Int) (dealIds : List Int)
    (answers : Int → Except PyError Json) (hclock : w.clock < times.start) :
    ∀ r ∈ (runTaskSync lib answers times.now dealIds w.tasks).1, r.time ≤ times.stop := by
  rw [runTaskSync_eq]
  apply Stamped.time_putAll_le
  · exact fun r hr => (w.tasks_le r hr).trans (hclock.le.trans times.start_le_stop)
  · intro task htask
    obtain ⟨dealId, -, htime⟩ := exists_now_of_syncedTasks htask
    rw [htime]
    exact times.le_stop dealId

/-- `run_task_sync`. -/
def tasksSynced (lib : PyLib) (times : RunTimes Int) (dealIds : List Int)
    (answers : Int → Except PyError Json) (hclock : w.clock < times.start) : SyncedTables :=
  { w with
    tasks := (runTaskSync lib answers times.now dealIds w.tasks).1
    clock := times.stop
    pipelines_le := fun r hr => (w.pipelines_le r hr).trans (hclock.le.trans times.start_le_stop)
    owners_le := fun r hr => (w.owners_le r hr).trans (hclock.le.trans times.start_le_stop)
    tasks_le := w.time_tasksSynced_le lib times dealIds answers hclock }

/-- `run_deal_sync`. -/
def dealsSynced (lib : PyLib) (viewIds : List Int) (times : RunTimes Unit) (feed : Feed)
    (hclock : w.clock < times.start) : SyncedTables :=
  { w with
    db := (runDealSync lib viewIds feed w.db).1
    clock := times.stop
    pipelines_le := fun r hr => (w.pipelines_le r hr).trans (hclock.le.trans times.start_le_stop)
    owners_le := fun r hr => (w.owners_le r hr).trans (hclock.le.trans times.start_le_stop)
    tasks_le := fun r hr => (w.tasks_le r hr).trans (hclock.le.trans times.start_le_stop) }

/-- `reference_synced_at`. -/
def referenceSyncedAt : Option Int :=
  Analytics.latest [Stamped.newest w.pipelineTimes, Stamped.newest w.ownerTimes]

/-- `tasks_synced_at`. -/
def tasksSyncedAt : Option Int := Stamped.newest w.tasks

end SyncedTables

/-- A run starts after the one before it has stopped. -/
def syncStep (lib : PyLib) (viewIds : List Int) (op : SyncOp) (w : SyncedTables) :
    Option SyncedTables :=
  match op with
  | .reference times answers =>
      if h : w.clock < times.start then some (w.referenceSynced lib times answers h) else none
  | .tasks times dealIds answers =>
      if h : w.clock < times.start then some (w.tasksSynced lib times dealIds answers h) else none
  | .deals times feed =>
      if h : w.clock < times.start then some (w.dealsSynced lib viewIds times feed h) else none

/-! ## Freshness -/

/-- A reported time that is one of the run. -/
def ReportedIn {ι : Type} (times : RunTimes ι) (time : Option Int) : Prop :=
  ∃ t, time = some t ∧ times.start ≤ t ∧ t ≤ times.stop

/-- After a sync that committed something, the time reported for its source is one of the sync. -/
def Fresh (lib : PyLib) (op : SyncOp) (w w' : SyncedTables) : Prop :=
  match op with
  | .reference times answers =>
      syncedPipelines lib answers w.ref ≠ [] ∨ syncedOwners lib answers w.ref ≠ [] →
        ReportedIn times w'.referenceSyncedAt
  | .tasks times dealIds answers =>
      syncedTasks lib answers times.now dealIds ≠ [] → ReportedIn times w'.tasksSyncedAt
  | .deals _ _ => True

/-- A sync that commits something has a row for its tables that is new to them. -/
def BringsIn (lib : PyLib) (op : SyncOp) (w : SyncedTables) : Prop :=
  match op with
  | .reference _ answers =>
      syncedPipelines lib answers w.ref ≠ [] ∨ syncedOwners lib answers w.ref ≠ [] →
        (∃ p ∈ syncedPipelines lib answers w.ref, p ∉ w.ref.pipelineIds) ∨
          ∃ o ∈ syncedOwners lib answers w.ref, o ∉ w.ref.owners
  | .tasks times dealIds answers =>
      syncedTasks lib answers times.now dealIds ≠ [] →
        ∃ task ∈ syncedTasks lib answers times.now dealIds,
          task.value.taskId ∉ w.tasks.map fun r => r.value.taskId
  | .deals _ _ => True

variable {w w' : SyncedTables}

/-- Upserted ids are reported when one of them is new. -/
theorem newest_stampIds_iff {now start : Int} {ids : List Int} {rows : List (Stamped Int Int)}
    (hold : ∀ r ∈ rows, r.time < start) (hnow : start ≤ now) :
    (∃ t, Stamped.newest (stampIds now ids rows) = some t ∧ start ≤ t) ↔
      ∃ n ∈ ids, n ∉ rows.map Stamped.value := by
  rw [stampIds, Stamped.newest_putAll_iff hold]
  · constructor
    · rintro ⟨y, hy, hnew⟩
      obtain ⟨n, hn, rfl⟩ := List.mem_map.1 hy
      exact ⟨n, hn, hnew⟩
    · rintro ⟨n, hn, hnew⟩
      exact ⟨⟨n, now⟩, List.mem_map_of_mem hn, hnew⟩
  · intro y hy
    obtain ⟨_, -, rfl⟩ := List.mem_map.1 hy
    exact hnow

theorem newest_le {stop t : Int} {α : Type} {rows : List (Stamped α Int)}
    (hrows : ∀ r ∈ rows, r.time ≤ stop) (h : Stamped.newest rows = some t) : t ≤ stop := by
  obtain ⟨⟨r, hr, rfl⟩, -⟩ := Stamped.newest_eq_some_iff.1 h
  exact hrows r hr

/-- A time within the run is one that does not lie before it. -/
theorem reportedIn_newest_iff {ι : Type} {times : RunTimes ι} {α : Type}
    {rows : List (Stamped α Int)} (hrows : ∀ r ∈ rows, r.time ≤ times.stop) :
    ReportedIn times (Stamped.newest rows) ↔
      ∃ t, Stamped.newest rows = some t ∧ times.start ≤ t := by
  constructor
  · rintro ⟨t, ht, hle, -⟩
    exact ⟨t, ht, hle⟩
  · rintro ⟨t, ht, hle⟩
    exact ⟨t, ht, hle, newest_le hrows ht⟩

/-- `greatest` of two times is one of the run when one of the two is. -/
theorem reportedIn_latest_iff {ι : Type} {times : RunTimes ι} {a b : Option Int}
    (ha : ∀ t, a = some t → t ≤ times.stop) (hb : ∀ t, b = some t → t ≤ times.stop) :
    ReportedIn times (Analytics.latest [a, b]) ↔
      (∃ t, a = some t ∧ times.start ≤ t) ∨ ∃ t, b = some t ∧ times.start ≤ t := by
  have hlatest : ∀ t, Analytics.latest [a, b] = some t ↔
      (a = some t ∨ b = some t) ∧ (∀ s, a = some s → s ≤ t) ∧ ∀ s, b = some s → s ≤ t := by
    intro t
    rw [Analytics.latest, List.max?_eq_some_iff]
    simp only [List.reduceOption_mem_iff, List.mem_cons, List.not_mem_nil, or_false, eq_comm,
      or_imp, forall_and]
  constructor
  · rintro ⟨t, ht, hle, -⟩
    exact ((hlatest t).1 ht).1.imp (fun ha => ⟨t, ha, hle⟩) fun hb => ⟨t, hb, hle⟩
  · intro h
    -- the larger of the two is not before the other
    have hmax : ∃ t, Analytics.latest [a, b] = some t := by
      rw [← Option.isSome_iff_exists, Option.isSome_iff_ne_none, Analytics.latest_ne_none_iff]
      rcases h with ⟨t, ht, -⟩ | ⟨t, ht, -⟩
      · exact ⟨a, by simp, by simp [ht]⟩
      · exact ⟨b, by simp, by simp [ht]⟩
    obtain ⟨t, ht⟩ := hmax
    obtain ⟨hmem, hlea, hleb⟩ := (hlatest t).1 ht
    refine ⟨t, ht, ?_, hmem.elim (ha t) (hb t)⟩
    rcases h with ⟨s, hs, hle⟩ | ⟨s, hs, hle⟩
    · exact hle.trans (hlea s hs)
    · exact hle.trans (hleb s hs)

theorem fresh_reference_iff {times : RunTimes ReferencePart} {answers : ReferenceAnswers}
    (h : syncStep lib viewIds (.reference times answers) w = some w') :
    Fresh lib (.reference times answers) w w' ↔ BringsIn lib (.reference times answers) w := by
  rw [syncStep] at h
  split at h
  · rename_i hclock
    obtain rfl := Option.some.inj h
    rw [Fresh, BringsIn]
    apply imp_congr_right
    intro _
    rw [SyncedTables.referenceSyncedAt, reportedIn_latest_iff, SyncedTables.referenceSynced]
    · dsimp only
      rw [newest_stampIds_iff, newest_stampIds_iff, w.pipelines_listed, w.owners_listed]
      · exact fun r hr => (w.owners_le r hr).trans_lt hclock
      · exact times.start_le _
      · exact fun r hr => (w.pipelines_le r hr).trans_lt hclock
      · exact times.start_le _
    · exact fun t => newest_le (w.referenceSynced lib times answers hclock).pipelines_le
    · exact fun t => newest_le (w.referenceSynced lib times answers hclock).owners_le
  · cases h

theorem fresh_tasks_iff {times : RunTimes Int} {dealIds : List Int}
    {answers : Int → Except PyError Json}
    (h : syncStep lib viewIds (.tasks times dealIds answers) w = some w') :
    Fresh lib (.tasks times dealIds answers) w w' ↔
      BringsIn lib (.tasks times dealIds answers) w := by
  rw [syncStep] at h
  split at h
  · rename_i hclock
    obtain rfl := Option.some.inj h
    rw [Fresh, BringsIn]
    apply imp_congr_right
    intro _
    rw [SyncedTables.tasksSyncedAt, reportedIn_newest_iff, SyncedTables.tasksSynced]
    · dsimp only
      rw [runTaskSync_eq, Stamped.newest_putAll_iff]
      · rfl
      · exact fun r hr => (w.tasks_le r hr).trans_lt hclock
      · intro task htask
        obtain ⟨dealId, -, htime⟩ := exists_now_of_syncedTasks htask
        rw [htime]
        exact times.start_le dealId
    · exact (w.tasksSynced lib times dealIds answers hclock).tasks_le
  · cases h

/-- **Freshness.** In a run of reference, task and deal syncs, every sync that commits something is
reported with its own time exactly when each one of them brings in a row. -/
theorem freshness_iff (lib : PyLib) (viewIds : List Int) {ops : List SyncOp} {w w' : SyncedTables}
    (hrun : exec (syncStep lib viewIds) ops w = some w') :
    EachEvent (syncStep lib viewIds) (Fresh lib) ops w ↔
      Guarded (syncStep lib viewIds) (BringsIn lib) ops w := by
  apply eachEvent_iff_guarded (J := fun _ => True) (H := fun _ _ => True) (fun _ _ _ _ _ _ _ => trivial)
    _ trivial (guarded_of_forall (fun _ _ => trivial) w) hrun
  intro op w w' _ _ hstep
  cases op with
  | reference times answers => exact fresh_reference_iff hstep
  | tasks times dealIds answers => exact fresh_tasks_iff hstep
  | deals times feed => exact Iff.rfl

/-! ## One task, synced twice -/

/-- A run whose transactions all start when it does. -/
def RunTimes.at {ι : Type} (time : Int) : RunTimes ι where
  start := time
  stop := time
  now _ := time
  start_le _ := le_rfl
  le_stop _ := le_rfl
  start_le_stop := le_rfl

/-- Before the first sync. -/
def noTables : SyncedTables where
  ref := emptyMirror.ref
  db := .empty _
  pipelineTimes := []
  ownerTimes := []
  tasks := []
  clock := 0
  pipelines_listed := rfl
  owners_listed := rfl
  pipelines_le _ hr := by cases hr
  owners_le _ hr := by cases hr
  tasks_le _ hr := by cases hr

/-- A pipeline with an open stage, and an owner. -/
def leasingAnswers : ReferenceAnswers where
  pipelines := .ok (.obj [("deal_pipelines", .arr
    [.obj [("id", .num 1), ("name", .str "Leasing"), ("deal_stages", .arr
        [.obj [("id", .num 11), ("name", .str "New"), ("position", .num 1),
          ("forecast_type", .str "Open")]])]])])
  owners := .ok (.obj [("users", .arr [.obj [("id", .num 5), ("name", .str "Ada")]])])
  reasons := .ok ()

/-- The view has deal 7, which is in the open stage. -/
def leasingFeed : Feed where
  view _ := [.ok (.obj [("id", .num 7), ("deal_pipeline_id", .num 1), ("deal_stage_id", .num 11)])]
  pipelineDeals _ := []

/-- Deal 7 has one open task. -/
def oneTask (_ : Int) : Except PyError Json :=
  .ok (.obj [("tasks", .arr [.obj [("id", .num 31), ("title", .str "Call"), ("status", .num 0)]])])

/-- The second task sync finds the task of the first, and the time of the first stays. -/
theorem second_task_sync_not_reported :
    ¬ EachEvent (syncStep plainLib [1]) (Fresh plainLib)
      [.reference (.at 1) leasingAnswers, .deals (.at 2) leasingFeed, .tasks (.at 3) [7] oneTask,
        .tasks (.at 4) [7] oneTask] noTables := by
  intro h
  obtain ⟨t, ht, hle, -⟩ := ((((h _ rfl).2 _ rfl).2 _ rfl).2 _ rfl).1 (by decide)
  obtain rfl : 3 = t := Option.some.inj ht
  exact absurd hle (by decide)

/-- The first syncs bring in the pipeline, the owner and the task. -/
theorem first_syncs_reported :
    EachEvent (syncStep plainLib [1]) (Fresh plainLib)
      [.reference (.at 1) leasingAnswers, .deals (.at 2) leasingFeed, .tasks (.at 3) [7] oneTask]
      noTables := by
  refine (freshness_iff plainLib [1] rfl).2 ?_
  refine ⟨fun _ => Or.inl ⟨1, by decide, by decide⟩, fun _ h₁ => ⟨trivial, fun _ h₂ => ⟨?_,
    fun _ _ => trivial⟩⟩⟩
  cases h₁
  cases h₂
  intro _
  refine ⟨⟨⟨⟨some 7, some "open", none, none⟩, 31, none, some "Call"⟩, 3⟩, by decide, by decide⟩

end SalesTrades.Tasks
