import SalesTrades.Analytics.Model
import SalesTrades.Deals.ReferenceSync
import SalesTrades.Library.Stamped

/-!
# The tasks mirror

`tasks_snapshot` and `run_task_sync`, which asks the CRM for the tasks of each open deal and upserts
them. The tasks of one deal are committed together.
-/

set_option autoImplicit false

namespace SalesTrades.Tasks

open SalesTrades.Library SalesTrades.Deals

deriving instance DecidableEq for Analytics.TaskSnapshot

/-! ## The table -/

/-- The columns of a task, `last_synced_at` apart. -/
structure TaskRow extends Analytics.TaskSnapshot where
  taskId : Int
  ownerId : Option Int
  title : Option String
  deriving DecidableEq

/-- `tasks_snapshot`, with `last_synced_at` as the time of a row. -/
abbrev TaskTable : Type := List (Stamped TaskRow Int)

/-! ## Parsing -/

/-- `_task_status`: a completion date, or one of the codes of a completed task. -/
def taskStatus (task : Json) : Except PyError String := do
  let completedDate ← task.get "completed_date"
  let status ← task.get "status"
  if completedDate.truthy || pyInt status = some 1 || status = .str "1" || pyInt status = some 2 ||
      status = .str "2" || status = .str "completed" then
    return "completed"
  else return "open"

/-- The completion date, which an open task does not have. -/
def taskCompletedDate (lib : PyLib) (status : String) (task : Json) :
    Except PyError (Option Datetime) :=
  if status = "completed" then task.get "completed_date" >>= parseIsoTimestamp lib else .ok none

/-- `_parse_task`, and the values as the driver of `upsert_task` takes them. -/
def taskRow (lib : PyLib) (dealId : Int) (task : Json) : Except PyError TaskRow := do
  let status ← taskStatus task
  let id ← item task "id"
  let ownerId ← task.get "owner_id"
  let title ← task.get "title"
  let dueDate ← parseIsoTimestamp lib (← task.get "due_date")
  let completedDate ← taskCompletedDate lib status task
  let taskId ← requiredCell lib.encodeBigint id
  let ownerId ← optionalCell lib.encodeBigint ownerId
  let title ← optionalCell lib.encodeText title
  return {
    taskId, ownerId, title
    dealId := some dealId
    status := some status
    dueDate := dueDate.map Datetime.instant
    completedDate := completedDate.map Datetime.instant }

/-- The tasks in the answer about a deal. -/
def dealTasks (lib : PyLib) (dealId : Int) (body : Json) : Except PyError (List TaskRow) := do
  let tasks ← iterate (← getOr body "tasks" (.arr []))
  tasks.mapM (taskRow lib dealId)

/-! ## The sync -/

/-- `list_open_deal_ids`. -/
def listOpenDealIds (db : Analytics.Db) : List Int :=
  db.deals.rows.flatMap fun d =>
    (db.stages.filter fun s => d.row.stageId = some s.id && s.forecastType = "Open").map
      fun _ => d.dealId

/-- `upsert_task` for the tasks of a deal. The set list of the upsert has no `last_synced_at`. -/
def upsertTasks (now : Int) (tasks : List TaskRow) (table : TaskTable) : TaskTable :=
  Stamped.putAll (fun task : TaskRow => task.taskId) (tasks.map fun task => ⟨task, now⟩) table

/-- `run_task_sync`: the table it leaves, and the exception that ended it. `now` is the time of the
transaction of each deal, of which nothing is left when one of its tasks raises. -/
def runTaskSync (lib : PyLib) (answers : Int → Except PyError Json) (now : Int → Int) :
    List Int → TaskTable → TaskTable × Option PyError
  | [], table => (table, none)
  | dealId :: rest, table =>
      match answers dealId >>= dealTasks lib dealId with
      | .error e => (table, some e)
      | .ok tasks => runTaskSync lib answers now rest (upsertTasks (now dealId) tasks table)

/-- The tasks that a run commits, with their times. -/
def syncedTasks (lib : PyLib) (answers : Int → Except PyError Json) (now : Int → Int) :
    List Int → List (Stamped TaskRow Int)
  | [] => []
  | dealId :: rest =>
      match answers dealId >>= dealTasks lib dealId with
      | .error _ => []
      | .ok tasks => tasks.map (fun task => ⟨task, now dealId⟩) ++ syncedTasks lib answers now rest

variable {lib : PyLib} {answers : Int → Except PyError Json} {now : Int → Int} {dealIds : List Int}
  {table : TaskTable}

/-- **A run upserts the tasks it commits.** -/
theorem runTaskSync_eq (lib : PyLib) (answers : Int → Except PyError Json) (now : Int → Int)
    (dealIds : List Int) (table : TaskTable) :
    (runTaskSync lib answers now dealIds table).1 =
      Stamped.putAll (fun task : TaskRow => task.taskId) (syncedTasks lib answers now dealIds)
        table := by
  induction dealIds generalizing table with
  | nil => rfl
  | cons dealId rest ih =>
      rw [runTaskSync, syncedTasks]
      cases answers dealId >>= dealTasks lib dealId with
      | error e => rfl
      | ok tasks =>
          dsimp only
          rw [ih, upsertTasks, Stamped.putAll, Stamped.putAll, Stamped.putAll, List.foldl_append]

theorem exists_now_of_syncedTasks {task : Stamped TaskRow Int}
    (h : task ∈ syncedTasks lib answers now dealIds) : ∃ dealId ∈ dealIds, task.time = now dealId := by
  induction dealIds with
  | nil => cases h
  | cons dealId rest ih =>
      rw [syncedTasks] at h
      split at h
      · cases h
      · rcases List.mem_append.1 h with hhere | hlater
        · obtain ⟨_, -, rfl⟩ := List.mem_map.1 hhere
          exact ⟨dealId, List.mem_cons_self, rfl⟩
        · obtain ⟨id, hid, htime⟩ := ih hlater
          exact ⟨id, List.mem_cons_of_mem dealId hid, htime⟩

end SalesTrades.Tasks
