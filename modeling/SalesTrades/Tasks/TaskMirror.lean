import SalesTrades.Analytics.Activity
import SalesTrades.Tasks.Model

/-!
# The mirror of the tasks

`run_task_sync` upserts the tasks of the open deals and deletes none, where the sync of the emails of a
deal replaces them. A task that the CRM has deleted, or moved to a deal that is not open, stays on the
deal it was on. So the open deals have the tasks of the CRM exactly when there was no such task before
(`tasks_mirrored_iff`).
-/

set_option autoImplicit false

namespace SalesTrades.Tasks

open SalesTrades.Library SalesTrades.Library.LeftJoin SalesTrades.Deals

variable {lib : PyLib}

/-- The rows for the tasks that the CRM lists for a deal. -/
def mappedTasks (lib : PyLib) (dealId : Int) (body : Json) : List TaskRow :=
  (dealTasks lib dealId body).toOption.getD []

def taskIds (tasks : List TaskRow) : List Int := tasks.map fun task => task.taskId

/-- What the CRM answers for each deal. A task has an id of its own and is on one deal. -/
structure CrmTasks (lib : PyLib) where
  body : Int → Json
  nodup : ∀ dealId, (taskIds (mappedTasks lib dealId (body dealId))).Nodup
  disjoint : ∀ dealId dealId', dealId ≠ dealId' →
    (taskIds (mappedTasks lib dealId (body dealId))).Disjoint
      (taskIds (mappedTasks lib dealId' (body dealId')))

/-- The tasks of a deal in the CRM, with status, owner and dates as they are mapped. -/
def CrmTasks.tasks (crm : CrmTasks lib) (dealId : Int) : List TaskRow :=
  mappedTasks lib dealId (crm.body dealId)

/-- Requests that go through are answered with the state of the CRM. -/
def CrmTasks.AnsweredBy (crm : CrmTasks lib) (answers : Int → Except PyError Json) : Prop :=
  ∀ dealId body, answers dealId = .ok body → body = crm.body dealId

/-- For each open deal, the rows on the deal are its tasks in the CRM. -/
def Mirrored (crm : CrmTasks lib) (db : Analytics.Db) (table : TaskTable) : Prop :=
  ∀ dealId ∈ listOpenDealIds db, ∀ task : TaskRow,
    (task ∈ table.map Stamped.value ∧ task.dealId = some dealId) ↔ task ∈ crm.tasks dealId

/-- Every row on an open deal is of a task that is on an open deal in the CRM: it has not been deleted
there, nor moved to a deal that is not open. -/
def NoneGone (crm : CrmTasks lib) (db : Analytics.Db) (table : TaskTable) : Prop :=
  ∀ task ∈ table.map Stamped.value, ∀ dealId ∈ listOpenDealIds db, task.dealId = some dealId →
    ∃ dealId' ∈ listOpenDealIds db, task.taskId ∈ taskIds (crm.tasks dealId')

/-! ## Open deals -/

/-- A deal is listed once: its stage id names one stage at most. -/
theorem nodup_listOpenDealIds (db : Analytics.Db) : (listOpenDealIds db).Nodup := by
  have hone : ∀ d : Analytics.StoredDeal, (db.stages.filter fun s =>
      d.row.stageId = some s.id && s.forecastType = "Open").length ≤ 1 := by
    intro d
    have hsub : (db.stages.filter fun s => d.row.stageId = some s.id && s.forecastType = "Open").Sublist
        (db.stages.filter fun s => d.row.stageId = some s.id) := by
      apply List.monotone_filter_right
      intro s hs
      rw [Bool.and_eq_true] at hs
      exact hs.1
    apply hsub.length_le.trans
    rw [filter_eq_toList_lookup db.stages_nodup]
    exact Option.length_toList_le
  rw [listOpenDealIds, List.nodup_flatMap]
  constructor
  · intro d _
    rw [List.map_const']
    exact List.nodup_replicate.2 (hone d)
  · apply (List.pairwise_map.1 db.deals.nodup).imp
    intro d d' hne
    refine List.disjoint_left.2 fun id hid hid' => ?_
    obtain ⟨_, -, rfl⟩ := List.mem_map.1 hid
    obtain ⟨_, -, hsame⟩ := List.mem_map.1 hid'
    exact hne hsame.symm

/-! ## Mapped tasks -/

theorem dealId_of_taskRow {dealId : Int} {task : Json} {row : TaskRow}
    (h : taskRow lib dealId task = .ok row) : row.dealId = some dealId := by
  rw [taskRow] at h
  obtain ⟨_, -, h⟩ := bind_eq_ok.1 h
  obtain ⟨_, -, h⟩ := bind_eq_ok.1 h
  obtain ⟨_, -, h⟩ := bind_eq_ok.1 h
  obtain ⟨_, -, h⟩ := bind_eq_ok.1 h
  obtain ⟨_, -, h⟩ := bind_eq_ok.1 h
  obtain ⟨_, -, h⟩ := bind_eq_ok.1 h
  obtain ⟨_, -, h⟩ := bind_eq_ok.1 h
  obtain ⟨_, -, h⟩ := bind_eq_ok.1 h
  obtain ⟨_, -, h⟩ := bind_eq_ok.1 h
  obtain ⟨_, -, h⟩ := bind_eq_ok.1 h
  obtain rfl := Except.ok.inj h
  rfl

/-- A mapped task is on the deal that it is listed for. -/
theorem dealId_of_mem_tasks {crm : CrmTasks lib} {dealId : Int} {task : TaskRow}
    (h : task ∈ crm.tasks dealId) : task.dealId = some dealId := by
  rw [CrmTasks.tasks, mappedTasks] at h
  cases htasks : dealTasks lib dealId (crm.body dealId) with
  | error e =>
      rw [htasks] at h
      cases h
  | ok tasks =>
      rw [htasks] at h
      rw [dealTasks] at htasks
      obtain ⟨_, -, htasks⟩ := bind_eq_ok.1 htasks
      obtain ⟨_, -, htasks⟩ := bind_eq_ok.1 htasks
      obtain ⟨_, -, hrow⟩ := exists_of_mapM_ok htasks task h
      exact dealId_of_taskRow hrow

/-! ## The run -/

variable {crm : CrmTasks lib} {answers : Int → Except PyError Json} {now : Int → Int}
  {dealIds : List Int} {table : TaskTable}

/-- A run that completes upserts the tasks of all its deals. -/
theorem syncedTasks_of_completed (hcrm : crm.AnsweredBy answers)
    (hdone : (runTaskSync lib answers now dealIds table).2 = none) :
    (syncedTasks lib answers now dealIds).map Stamped.value = dealIds.flatMap crm.tasks := by
  induction dealIds generalizing table with
  | nil => rfl
  | cons dealId rest ih =>
      rw [runTaskSync] at hdone
      rw [syncedTasks, List.flatMap_cons]
      cases htasks : answers dealId >>= dealTasks lib dealId with
      | error e =>
          rw [htasks] at hdone
          cases hdone
      | ok tasks =>
          rw [htasks] at hdone
          obtain ⟨body, hbody, hmapped⟩ := bind_eq_ok.1 htasks
          obtain rfl := hcrm dealId body hbody
          have hlist : crm.tasks dealId = tasks := by
            rw [CrmTasks.tasks, mappedTasks, hmapped]
            rfl
          dsimp only
          rw [List.map_append, List.map_map, ih hdone, hlist]
          congr 1
          exact List.map_id _

theorem nodup_flatMap_tasks (crm : CrmTasks lib) (hnodup : dealIds.Nodup) :
    (taskIds (dealIds.flatMap crm.tasks)).Nodup := by
  rw [taskIds, List.map_flatMap, List.nodup_flatMap]
  refine ⟨fun dealId _ => crm.nodup dealId, ?_⟩
  exact hnodup.imp fun hne => crm.disjoint _ _ hne

/-- The rows after a run that completes: the tasks of the open deals, and the rows of other tasks. -/
theorem mem_values_runTaskSync {db : Analytics.Db} (hcrm : crm.AnsweredBy answers)
    (hdone : (runTaskSync lib answers now (listOpenDealIds db) table).2 = none) {task : TaskRow} :
    task ∈ (runTaskSync lib answers now (listOpenDealIds db) table).1.map Stamped.value ↔
      (∃ dealId ∈ listOpenDealIds db, task ∈ crm.tasks dealId) ∨
        (task ∈ table.map Stamped.value ∧
          ¬ ∃ dealId ∈ listOpenDealIds db, task.taskId ∈ taskIds (crm.tasks dealId)) := by
  have hids : ∀ id, id ∈ ((listOpenDealIds db).flatMap crm.tasks).map (fun t => t.taskId) ↔
      ∃ dealId ∈ listOpenDealIds db, id ∈ taskIds (crm.tasks dealId) := by
    intro id
    rw [List.map_flatMap, List.mem_flatMap]
    rfl
  rw [runTaskSync_eq, Stamped.values_putAll, syncedTasks_of_completed hcrm hdone,
    Keyed.mem_putAll (nodup_flatMap_tasks crm (nodup_listOpenDealIds db)), List.mem_flatMap, hids]

/-- **The mirror.** After a run that completes, the open deals have the tasks of the CRM exactly when
none of the rows they had before is gone there. -/
theorem tasks_mirrored_iff (lib : PyLib) (crm : CrmTasks lib) (db : Analytics.Db)
    (answers : Int → Except PyError Json) (hcrm : crm.AnsweredBy answers) (now : Int → Int)
    (table : TaskTable)
    (hdone : (runTaskSync lib answers now (listOpenDealIds db) table).2 = none) :
    Mirrored crm db (runTaskSync lib answers now (listOpenDealIds db) table).1 ↔
      NoneGone crm db table := by
  constructor
  · intro h task htask dealId hopen hdeal
    by_contra hgone
    -- the run leaves the row of a task that no open deal has in the CRM
    have hkept := (mem_values_runTaskSync hcrm hdone).2 (Or.inr ⟨htask, hgone⟩)
    have hlisted := (h dealId hopen task).1 ⟨hkept, hdeal⟩
    exact hgone ⟨dealId, hopen, List.mem_map_of_mem hlisted⟩
  · intro h dealId hopen task
    rw [mem_values_runTaskSync hcrm hdone]
    constructor
    · rintro ⟨⟨dealId', -, hlisted⟩ | ⟨hold, hother⟩, hdeal⟩
      · rw [dealId_of_mem_tasks hlisted] at hdeal
        rwa [Option.some.inj hdeal] at hlisted
      · exact absurd (h task hold dealId hopen hdeal) hother
    · intro hlisted
      exact ⟨Or.inl ⟨dealId, hopen, hlisted⟩, dealId_of_mem_tasks hlisted⟩

/-! ## The reports -/

/-- The tables of the reports, with the tasks of the mirror. -/
def withTasks (db : Analytics.Db) (table : TaskTable) : Analytics.Db :=
  { db with tasks := (table.map Stamped.value).map TaskRow.toTaskSnapshot }

/-- The tasks that the reports find on an open deal of a mirror are those of the CRM. -/
theorem tasksOf_perm {db : Analytics.Db} (hkeys : (taskIds (table.map Stamped.value)).Nodup)
    (h : Mirrored crm db table) {d : Analytics.StoredDeal} (hopen : d.dealId ∈ listOpenDealIds db) :
    (Analytics.tasksOf (withTasks db table) d).Perm
      ((crm.tasks d.dealId).map TaskRow.toTaskSnapshot) := by
  rw [Analytics.tasksOf, withTasks, List.filter_map]
  apply List.Perm.map
  have hrows : (table.map Stamped.value).Nodup := List.Nodup.of_map _ hkeys
  have htasks : (crm.tasks d.dealId).Nodup := List.Nodup.of_map _ (crm.nodup d.dealId)
  apply (List.perm_ext_iff_of_nodup (hrows.filter _) htasks).2
  intro task
  rw [List.mem_filter, ← h d.dealId hopen task]
  exact and_congr_right fun _ => decide_eq_true_iff

/-- So the overdue tasks of the deal are counted in the CRM. -/
theorem overdueTasks_of_mirrored {db : Analytics.Db}
    (hkeys : (taskIds (table.map Stamped.value)).Nodup) (h : Mirrored crm db table) (time : Int)
    {d : Analytics.StoredDeal} (hopen : d.dealId ∈ listOpenDealIds db) :
    Analytics.overdueTasks (withTasks db table) time d =
      (crm.tasks d.dealId).countP fun task =>
        task.status = some "open" && task.dueDate.any fun due => due < time := by
  rw [Analytics.overdueTasks, (tasksOf_perm hkeys h hopen).countP_eq, List.countP_map]
  rfl

/-! ## A task that is deleted -/

/-- Deal 7 in an open stage. -/
def openDeal : Analytics.Db where
  deals :=
    { rows := [⟨7, Function.update PartialRecord.empty .stageId (some 11)⟩]
      nodup := List.nodup_singleton 7 }
  stages := [⟨⟨11, 1, "New"⟩, 1, "Open", none⟩]
  pipelines := []
  owners := []
  tasks := []
  emails := []
  events := []
  stages_nodup := List.nodup_singleton 11
  pipelines_nodup := List.nodup_nil
  owners_nodup := List.nodup_nil

def callBody (dealId : Int) : Json :=
  if dealId = 7 then
    .obj [("tasks", .arr [.obj [("id", .num 31), ("title", .str "Call"), ("status", .num 0)]])]
  else .obj []

theorem callBody_empty {dealId : Int} (h : dealId ≠ 7) :
    taskIds (mappedTasks plainLib dealId (callBody dealId)) = [] := by
  rw [callBody, if_neg h]
  rfl

/-- Deal 7 has one task. -/
def callCrm : CrmTasks plainLib where
  body := callBody
  nodup dealId := by
    by_cases h : dealId = 7
    · subst h
      decide
    · rw [callBody_empty h]
      exact List.nodup_nil
  disjoint dealId dealId' hne := by
    by_cases h : dealId = 7
    · have hother : dealId' ≠ 7 := fun h' => hne (h.trans h'.symm)
      rw [callBody_empty hother]
      exact List.disjoint_nil_right _
    · rw [callBody_empty h]
      exact List.disjoint_nil_left _

/-- The task has been deleted. -/
def clearedCrm : CrmTasks plainLib where
  body _ := .obj []
  nodup _ := List.nodup_nil
  disjoint _ _ _ := List.disjoint_nil_left _

/-- What the first sync leaves. -/
def callTable : TaskTable :=
  (runTaskSync plainLib (fun dealId => .ok (callBody dealId)) (fun _ => 1) (listOpenDealIds openDeal)
    []).1

/-- The sync after it leaves the deleted task on its deal. -/
theorem deleted_task_stays :
    ¬ Mirrored clearedCrm openDeal
      (runTaskSync plainLib (fun dealId => .ok (clearedCrm.body dealId)) (fun _ => 2)
        (listOpenDealIds openDeal) callTable).1 := by
  intro h
  have hlisted := (h 7 (by decide) ⟨⟨some 7, some "open", none, none⟩, 31, none, some "Call"⟩).1
    (by decide)
  cases hlisted

/-- A task that is still there is mirrored. -/
theorem standing_task_mirrored :
    Mirrored callCrm openDeal
      (runTaskSync plainLib (fun dealId => .ok (callBody dealId)) (fun _ => 2)
        (listOpenDealIds openDeal) callTable).1 := by
  apply (tasks_mirrored_iff plainLib callCrm openDeal _ _ _ callTable rfl).2
  · intro task htask dealId hopen _
    obtain rfl := List.mem_singleton.1 htask
    exact ⟨7, by decide, by decide⟩
  · intro dealId body hbody
    exact (Except.ok.inj hbody).symm

end SalesTrades.Tasks
