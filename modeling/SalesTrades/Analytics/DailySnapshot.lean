import SalesTrades.Analytics.Model
import SalesTrades.Library.GroupBy
import Mathlib.Algebra.Ring.Rat

/-!
# The daily snapshot

`write_today_snapshot` rolls the deals up by pipeline and stage into the rows of the day. It puts a row
for each pair that has deals and takes no row away. So after several runs on one day the rows of the day
are the roll-up of the deals exactly when every pair that had deals at an earlier run still has some
(`todayIsRollUp_iff`).
-/

set_option autoImplicit false

namespace SalesTrades.Analytics

open SalesTrades.Library SalesTrades.Library.GroupBy SalesTrades.Deals

/-! ## The table -/

/-- `PipelineDailySnapshot`. -/
structure DailyRow where
  snapshotDate : Date
  pipelineId : Int
  stageId : Int
  dealCount : Nat
  totalValue : ℚ
  totalBaseCurrencyValue : ℚ
  deriving DecidableEq

def DailyRow.pair (row : DailyRow) : Int × Int := (row.pipelineId, row.stageId)

/-- The primary key. -/
def DailyRow.key (row : DailyRow) : Date × Int × Int := (row.snapshotDate, row.pair)

/-- `pipeline_daily_snapshot`. -/
structure DailyTable where
  rows : List DailyRow
  nodup : (rows.map DailyRow.key).Nodup

def DailyTable.empty : DailyTable where
  rows := []
  nodup := List.nodup_nil

/-! ## The roll-up -/

/-- The pipeline and the stage of a deal that has both. -/
def StoredDeal.pair (d : StoredDeal) : Option (Int × Int) :=
  match d.row.pipelineId, d.row.stageId with
  | some pipelineId, some stageId => some (pipelineId, stageId)
  | _, _ => none

/-- `FROM deals_snapshot WHERE pipeline_id IS NOT NULL AND stage_id IS NOT NULL`. -/
def DealTable.paired (deals : DealTable) : List ((Int × Int) × StoredDeal) :=
  deals.rows.filterMap fun d => d.pair.map fun pair => (pair, d)

/-- The columns of a group. -/
def rollUpRow (today : Date) (pair : Int × Int) (deals : List StoredDeal) : DailyRow where
  snapshotDate := today
  pipelineId := pair.1
  stageId := pair.2
  dealCount := deals.length
  totalValue := (sumFilter (fun _ => true) (fun d => d.row .amount) deals).getD 0
  totalBaseCurrencyValue :=
    (sumFilter (fun _ => true) (fun d => d.row .baseCurrencyAmount) deals).getD 0

def rollUp (today : Date) (deals : DealTable) : List DailyRow :=
  (groups Prod.fst deals.paired).map fun g => rollUpRow today g.1 (g.2.map Prod.snd)

/-- The upsert of the roll-up, and the number of rows written. -/
def writeTodaySnapshot (today : Date) (deals : DealTable) (daily : DailyTable) : DailyTable × Nat :=
  (⟨Keyed.putAll DailyRow.key (rollUp today deals) daily.rows, Keyed.nodup_putAll daily.nodup⟩,
    (rollUp today deals).length)

/-! ## What the rows of a day should be -/

/-- Some deal is in the stage. -/
def DealTable.Populated (deals : DealTable) (pair : Int × Int) : Prop :=
  ∃ d ∈ deals.rows, d.pair = some pair

instance (deals : DealTable) (pair : Int × Int) : Decidable (deals.Populated pair) :=
  inferInstanceAs (Decidable (∃ d ∈ deals.rows, _))

/-- What the deals of a stage come to. -/
def currentRow (today : Date) (deals : DealTable) (pair : Int × Int) : DailyRow where
  snapshotDate := today
  pipelineId := pair.1
  stageId := pair.2
  dealCount := deals.rows.countP fun d => d.pair = some pair
  totalValue := ((deals.rows.filter fun d => d.pair = some pair).map fun d =>
    (d.row .amount).getD 0).sum
  totalBaseCurrencyValue := ((deals.rows.filter fun d => d.pair = some pair).map fun d =>
    (d.row .baseCurrencyAmount).getD 0).sum

/-- The rows of the day are one for each stage with deals, and they are up to date. -/
def TodayIsRollUp (today : Date) (deals : DealTable) (daily : DailyTable) : Prop :=
  ∀ row, (row ∈ daily.rows ∧ row.snapshotDate = today) ↔
    ∃ pair, deals.Populated pair ∧ row = currentRow today deals pair

variable {today day : Date} {deals : DealTable} {daily : DailyTable} {row : DailyRow}
  {pair : Int × Int}

theorem DealTable.mem_paired {p : (Int × Int) × StoredDeal} :
    p ∈ deals.paired ↔ p.2 ∈ deals.rows ∧ p.2.pair = some p.1 := by
  obtain ⟨pair, d⟩ := p
  simp only [DealTable.paired, List.mem_filterMap, Option.map_eq_some_iff, Prod.mk.injEq]
  constructor
  · rintro ⟨d', hd, _, hpair, rfl, rfl⟩
    exact ⟨hd, hpair⟩
  · rintro ⟨hd, hpair⟩
    exact ⟨d, hd, pair, hpair, rfl, rfl⟩

/-- The deals of a group are those with its pair. -/
theorem DealTable.deals_of_pair (deals : DealTable) (pair : Int × Int) :
    (deals.paired.filter fun p => p.1 = pair).map Prod.snd =
      deals.rows.filter fun d => d.pair = some pair := by
  rw [DealTable.paired]
  induction deals.rows with
  | nil => rfl
  | cons d rows ih =>
      cases hpair : d.pair with
      | none =>
          rw [List.filterMap_cons_none (by rw [hpair]; rfl), ih,
            List.filter_cons_of_neg (by simp [hpair])]
      | some k =>
          rw [List.filterMap_cons_some (by rw [hpair]; rfl)]
          by_cases hk : k = pair
          · rw [List.filter_cons_of_pos (by simpa using hk), List.map_cons, ih,
              List.filter_cons_of_pos (by simpa [hpair] using hk)]
          · rw [List.filter_cons_of_neg (by simpa using hk), ih,
              List.filter_cons_of_neg (by simpa [hpair] using hk)]

theorem rollUpRow_eq (today : Date) (deals : DealTable) (pair : Int × Int) :
    rollUpRow today pair (deals.rows.filter fun d => d.pair = some pair) =
      currentRow today deals pair := by
  rw [rollUpRow, currentRow, getD_sumFilter, getD_sumFilter, List.countP_eq_length_filter]
  rfl

/-- The roll-up has the row of every stage with deals, and no other. -/
theorem mem_rollUp :
    row ∈ rollUp today deals ↔ ∃ pair, deals.Populated pair ∧ row = currentRow today deals pair := by
  rw [rollUp, List.mem_map]
  constructor
  · rintro ⟨⟨pair, rows⟩, hg, rfl⟩
    obtain ⟨⟨p, hp, hkey⟩, hrows⟩ := mem_groups.1 hg
    obtain ⟨hmem, hpair⟩ := DealTable.mem_paired.1 hp
    obtain rfl : p.1 = pair := hkey
    refine ⟨p.1, ⟨p.2, hmem, hpair⟩, ?_⟩
    dsimp only at hrows ⊢
    rw [hrows, deals.deals_of_pair, rollUpRow_eq]
  · rintro ⟨pair, ⟨d, hd, hpair⟩, rfl⟩
    refine ⟨(pair, deals.paired.filter fun p => p.1 = pair), ?_, ?_⟩
    · exact mem_groups.2 ⟨⟨(pair, d), DealTable.mem_paired.2 ⟨hd, hpair⟩, rfl⟩, rfl⟩
    · dsimp only
      rw [deals.deals_of_pair, rollUpRow_eq]

theorem keys_rollUp (today : Date) (deals : DealTable) :
    (rollUp today deals).map DailyRow.key =
      ((groups Prod.fst deals.paired).map Prod.fst).map fun pair => (today, pair) := by
  rw [rollUp, List.map_map, List.map_map]
  rfl

/-- No row is written twice by one statement. -/
theorem nodup_keys_rollUp (today : Date) (deals : DealTable) :
    ((rollUp today deals).map DailyRow.key).Nodup := by
  rw [keys_rollUp]
  exact nodup_keys_groups.map fun _ _ h => (Prod.mk.inj h).2

theorem mem_keys_rollUp {key : Date × Int × Int} :
    key ∈ (rollUp today deals).map DailyRow.key ↔ key.1 = today ∧ deals.Populated key.2 := by
  rw [List.mem_map]
  constructor
  · rintro ⟨row, hrow, rfl⟩
    obtain ⟨pair, hpair, rfl⟩ := mem_rollUp.1 hrow
    exact ⟨rfl, hpair⟩
  · rintro ⟨hday, hpair⟩
    exact ⟨_, mem_rollUp.2 ⟨key.2, hpair, rfl⟩, Prod.ext hday.symm rfl⟩

/-! ## One run -/

/-- The rows that the roll-up does not replace stay. -/
theorem mem_writeTodaySnapshot :
    row ∈ (writeTodaySnapshot today deals daily).1.rows ↔
      row ∈ rollUp today deals ∨
        (row ∈ daily.rows ∧ ¬ (row.snapshotDate = today ∧ deals.Populated row.pair)) := by
  rw [writeTodaySnapshot, Keyed.mem_putAll (nodup_keys_rollUp today deals), mem_keys_rollUp]
  rfl

/-- The rows of other days are left as they are. -/
theorem mem_writeTodaySnapshot_of_ne (hday : row.snapshotDate ≠ today) :
    row ∈ (writeTodaySnapshot today deals daily).1.rows ↔ row ∈ daily.rows := by
  rw [mem_writeTodaySnapshot, mem_rollUp]
  constructor
  · rintro (⟨pair, -, rfl⟩ | ⟨hrow, -⟩)
    · exact absurd rfl hday
    · exact hrow
  · exact fun hrow => Or.inr ⟨hrow, fun h => hday h.1⟩

/-- **Exactness of one run.** What is left over is what the table held of the day, for a stage that has
no deals. -/
theorem todayIsRollUp_write_iff :
    TodayIsRollUp today deals (writeTodaySnapshot today deals daily).1 ↔
      ∀ row ∈ daily.rows, row.snapshotDate = today → deals.Populated row.pair := by
  constructor
  · intro h row hrow hday
    by_contra hempty
    have hmem : row ∈ (writeTodaySnapshot today deals daily).1.rows :=
      mem_writeTodaySnapshot.2 (Or.inr ⟨hrow, fun hpair => hempty hpair.2⟩)
    obtain ⟨pair, hpair, rfl⟩ := (h row).1 ⟨hmem, hday⟩
    exact hempty hpair
  · intro h row
    rw [mem_writeTodaySnapshot, ← mem_rollUp]
    constructor
    · rintro ⟨hroll | ⟨hrow, hnot⟩, hday⟩
      · exact hroll
      · exact absurd ⟨hday, h row hrow hday⟩ hnot
    · intro hroll
      obtain ⟨pair, -, rfl⟩ := mem_rollUp.1 hroll
      exact ⟨Or.inl hroll, rfl⟩

/-- A second run without a change in between leaves the roll-up. -/
theorem todayIsRollUp_rerun (h : TodayIsRollUp today deals daily) :
    TodayIsRollUp today deals (writeTodaySnapshot today deals daily).1 := by
  rw [todayIsRollUp_write_iff]
  intro row hrow hday
  obtain ⟨pair, hpair, rfl⟩ := (h row).1 ⟨hrow, hday⟩
  exact hpair

/-! ## Histories -/

/-- A deal is stored, as a webhook or a sync does (`DealTable.lists_of_run`), or `run_daily_snapshot` runs
on some day. -/
inductive SnapshotOp where
  | storeDeal (d : StoredDeal)
  | dailySnapshot (day : Date)

structure SnapshotWorld where
  deals : DealTable
  daily : DailyTable

/-- Before the first snapshot. -/
def SnapshotWorld.start (deals : DealTable) : SnapshotWorld where
  deals := deals
  daily := .empty

def SnapshotWorld.after (w : SnapshotWorld) : SnapshotOp → SnapshotWorld
  | .storeDeal d => { w with deals := w.deals.put d }
  | .dailySnapshot day => { w with daily := (writeTodaySnapshot day w.deals w.daily).1 }

/-- The state that a history leads to. -/
def SnapshotWorld.run (ops : List SnapshotOp) (w : SnapshotWorld) : SnapshotWorld :=
  ops.foldl SnapshotWorld.after w

/-- The deals at the runs of a day. -/
def dealsAtRuns (today : Date) : List SnapshotOp → SnapshotWorld → List DealTable
  | [], _ => []
  | op :: ops, w =>
      match op with
      | .storeDeal _ => dealsAtRuns today ops (w.after op)
      | .dailySnapshot day =>
          if day = today then w.deals :: dealsAtRuns today ops (w.after op)
          else dealsAtRuns today ops (w.after op)

variable {ops : List SnapshotOp} {w : SnapshotWorld}

/-- The table has a row of the day for the stage. -/
def DailyTable.HasRow (daily : DailyTable) (today : Date) (pair : Int × Int) : Prop :=
  ∃ row ∈ daily.rows, row.snapshotDate = today ∧ row.pair = pair

/-- A run adds the stages that have deals to the rows of its day. -/
theorem hasRow_write :
    (writeTodaySnapshot day deals daily).1.HasRow today pair ↔
      daily.HasRow today pair ∨ (day = today ∧ deals.Populated pair) := by
  constructor
  · rintro ⟨row, hrow, rfl, rfl⟩
    rcases mem_writeTodaySnapshot.1 hrow with hroll | ⟨hold, -⟩
    · obtain ⟨pair, hpair, rfl⟩ := mem_rollUp.1 hroll
      exact Or.inr ⟨rfl, hpair⟩
    · exact Or.inl ⟨row, hold, rfl, rfl⟩
  · rintro (⟨row, hrow, rfl, rfl⟩ | ⟨rfl, hpair⟩)
    · by_cases hnew : row.snapshotDate = day ∧ deals.Populated row.pair
      · -- the row is replaced by that of the roll-up
        refine ⟨currentRow day deals row.pair, ?_, hnew.1.symm, rfl⟩
        exact mem_writeTodaySnapshot.2 (Or.inl (mem_rollUp.2 ⟨row.pair, hnew.2, rfl⟩))
      · exact ⟨row, mem_writeTodaySnapshot.2 (Or.inr ⟨hrow, hnew⟩), rfl, rfl⟩
    · refine ⟨currentRow day deals pair, ?_, rfl, rfl⟩
      exact mem_writeTodaySnapshot.2 (Or.inl (mem_rollUp.2 ⟨pair, hpair, rfl⟩))

/-- The rows of a day are for the stages that had deals at one of its runs. -/
theorem hasRow_run :
    (w.run ops).daily.HasRow today pair ↔
      w.daily.HasRow today pair ∨ ∃ deals ∈ dealsAtRuns today ops w, deals.Populated pair := by
  induction ops generalizing w with
  | nil => simp [SnapshotWorld.run, dealsAtRuns]
  | cons op ops ih =>
      have hstep : w.run (op :: ops) = (w.after op).run ops := rfl
      rw [hstep, ih]
      cases op with
      | storeDeal d => rfl
      | dailySnapshot day =>
          have hdaily : (w.after (.dailySnapshot day)).daily.HasRow today pair ↔
              w.daily.HasRow today pair ∨ (day = today ∧ w.deals.Populated pair) := hasRow_write
          rw [hdaily, dealsAtRuns]
          split
          · rename_i hday
            simp only [hday, true_and, List.mem_cons, exists_eq_or_imp, or_assoc]
          · rename_i hday
            simp only [hday, false_and, or_false]

/-- **Exactness of the snapshot.** After any history of stored deals and snapshots, a snapshot leaves the
roll-up of the day exactly when every stage that had deals at an earlier run of the day has some now. -/
theorem todayIsRollUp_iff (today : Date) (deals : DealTable) (ops : List SnapshotOp) :
    TodayIsRollUp today ((SnapshotWorld.start deals).run ops).deals
        (writeTodaySnapshot today ((SnapshotWorld.start deals).run ops).deals
          ((SnapshotWorld.start deals).run ops).daily).1 ↔
      ∀ earlier ∈ dealsAtRuns today ops (SnapshotWorld.start deals), ∀ pair,
        earlier.Populated pair → ((SnapshotWorld.start deals).run ops).deals.Populated pair := by
  have hrows : ∀ pair, ((SnapshotWorld.start deals).run ops).daily.HasRow today pair ↔
      ∃ earlier ∈ dealsAtRuns today ops (SnapshotWorld.start deals), earlier.Populated pair := by
    intro pair
    rw [hasRow_run, or_iff_right]
    rintro ⟨row, hrow, -⟩
    cases hrow
  rw [todayIsRollUp_write_iff]
  constructor
  · intro h earlier hearlier pair hpair
    obtain ⟨row, hrow, hday, rfl⟩ := (hrows pair).2 ⟨earlier, hearlier, hpair⟩
    exact h row hrow hday
  · intro h row hrow hday
    obtain ⟨earlier, hearlier, hpair⟩ := (hrows row.pair).1 ⟨row, hrow, hday, rfl⟩
    exact h earlier hearlier row.pair hpair

/-- A deal of 1000 in a stage of pipeline 1. -/
def dealIn (stageId : Int) : StoredDeal where
  dealId := 1
  row := fun
    | .pipelineId => some 1
    | .stageId => some stageId
    | .amount => some 1000
    | _ => none

/-- The deal is in stage 10 when the snapshot runs, and moves on to stage 11. -/
def movedOn : List SnapshotOp :=
  [.storeDeal (dealIn 10), .dailySnapshot ⟨20300⟩, .storeDeal (dealIn 11)]

/-- The next run of the day leaves the row of stage 10. -/
theorem emptied_stage_stays :
    ¬ TodayIsRollUp ⟨20300⟩ ((SnapshotWorld.start .empty).run movedOn).deals
      (writeTodaySnapshot ⟨20300⟩ ((SnapshotWorld.start .empty).run movedOn).deals
        ((SnapshotWorld.start .empty).run movedOn).daily).1 := by
  rw [todayIsRollUp_write_iff]
  intro h
  have hleft : ((SnapshotWorld.start .empty).run movedOn).daily.HasRow ⟨20300⟩ (1, 10) := by
    rw [hasRow_run]
    exact Or.inr ⟨DealTable.empty.put (dealIn 10), List.mem_singleton.2 rfl, by decide⟩
  obtain ⟨row, hrow, hday, hpair⟩ := hleft
  have hpopulated := h row hrow hday
  rw [hpair] at hpopulated
  revert hpopulated
  decide

end SalesTrades.Analytics
