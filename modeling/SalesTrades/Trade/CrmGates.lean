import SalesTrades.Trade.CaptureIdentity
import SalesTrades.Trade.CrmRuns

/-!
# When an open gate reaches the CRM

A sweep marks a row that it finds behind a closed gate as skipped, and no sweep selects a skipped row
again. So when every gate passes for a row that was never pushed, the next sweep pushes it exactly
when no earlier sweep has put it aside and its payload can be built (`sync_pushes_iff`).
-/

set_option autoImplicit false

namespace SalesTrades.Trade

open SalesTrades.Library SalesTrades.Library.Run

section Driver

variable [ColumnDriver] {py : LowerCase}

/-- The rows a sweep may select. -/
def waiting (l : TradeLead) : Bool := l.crmSyncStatus == .failed || l.crmSyncStatus == .pending

omit [ColumnDriver] in
/-- A limit that the waiting rows fit in cuts nothing off. -/
theorem mem_listPendingCrmSync_of_fits {t : TradeLeads} {limit : Nat} {q : Participant}
    (hfits : (t.select waiting).length ≤ limit) (hq : q ∈ t.rows) (hwaiting : waiting q.2 = true) :
    q ∈ listPendingCrmSync t limit := by
  have hall : listPendingCrmSync t limit = t.select waiting := List.take_of_length_le hfits
  rw [hall]
  exact Table.mem_select.2 ⟨hq, hwaiting⟩

/-- A row that was never pushed and never put aside is waiting. -/
theorem waiting_iff {w : CrmWorld} (hw : Tracked w) {q : Participant} (hq : q ∈ w.leads.rows)
    (hnever : ∀ gated, .pushed q.1 gated ∉ w.log) :
    waiting q.2 = true ↔ .skipped q.1 ∉ w.log := by
  rw [← hw.skipped_iff q hq]
  cases hstatus : q.2.crmSyncStatus with
  | pending => simp [waiting, hstatus]
  | failed => simp [waiting, hstatus]
  | skipped => simp [waiting, hstatus]
  | synced =>
      obtain ⟨gated, hpushed⟩ := hw.synced q hq hstatus
      exact absurd hpushed (hnever gated)

/-- **When the next sweep pushes a row.** In every reachable world, for every row that was never
pushed and whose gates all pass, and every sweep whose limit the waiting rows fit in: the sweep sends
an upsert for the row if and only if no earlier sweep has put the row aside behind a closed gate and
the payload can be built. -/
theorem sync_pushes_iff {acts : List CrmAct} {w₀ w w' : CrmWorld} {limit : Nat} {o : SyncOutside}
    {q : Participant} {program : TradeProgram} (hinit : w₀.Initial)
    (hrun : exec (crmStep py) acts w₀ = some w) (hq : q ∈ w.leads.rows)
    (hprogram : getProgram w.programs q.2.tradeProgramId = some program)
    (hgates : GatesPass w.globalSync program q.2)
    (hnever : ∀ gated, .pushed q.1 gated ∉ w.log)
    (hfits : (w.leads.select waiting).length ≤ limit)
    (hsync : crmStep py (.sync limit o) w = some w') :
    (∃ gated, .pushed q.1 gated ∈ w'.log) ↔
      .skipped q.1 ∉ w.log ∧ ∃ payload, buildContactPayload q.2 program = .ok payload := by
  have hw := tracked_exec hinit hrun
  rw [← waiting_iff hw hq hnever]
  rcases sync_step hw.flushed hsync with ⟨hoff, -⟩ | ⟨-, -, -, hswept⟩
  · rw [hgates.1] at hoff
    cases hoff
  · constructor
    · rintro ⟨gated, hpushed⟩
      rcases (mem_sweptLog hswept).1 hpushed with ⟨r, hr, hvisit⟩ | hold
      · -- the push is new, so the sweep has selected the row
        obtain ⟨hid, found, hfound, -, -, hbuild⟩ := pushed_mem_visitLog.1 hvisit
        obtain ⟨hrmem, hstatus⟩ := mem_listPendingCrmSync hr
        obtain rfl := w.leads.eq_of_id hq hrmem hid
        rw [hprogram] at hfound
        cases hfound
        refine ⟨?_, hbuild⟩
        rcases hstatus with hstatus | hstatus <;> simp [waiting, hstatus]
      · exact absurd hold (hnever gated)
    · rintro ⟨hwaiting, hbuild⟩
      refine ⟨program.requiresApproval, (mem_sweptLog hswept).2 (Or.inl ⟨q, ?_, ?_⟩)⟩
      · exact mem_listPendingCrmSync_of_fits hfits hq hwaiting
      · exact pushed_mem_visitLog.2 ⟨rfl, program, hprogram, rfl, hgates, hbuild⟩

end Driver

attribute [local instance] plainDriver

/-! ## A gate that opens too late -/

/-- The configuration of `openProgram` with the sync switched off. -/
def testMode : ProgramConfig :=
  { openProgram.config with crmSyncEnabled := some (.bool false) }

/-- No participants, `openProgram` in test mode, and the sync switched on globally. -/
def testWorld : CrmWorld where
  globalSync := true
  programs := [{ openProgram with config := testMode }]
  leads := Table.empty _
  log := []

/-- A CRM that accepts everything. -/
def acceptAll : SyncOutside := ⟨fun _ => .contact (some "42"), 0⟩

/-- A registration in test mode, a sweep, and the end of test mode. -/
def goLive : List CrmAct :=
  [.capture "launchpad" benAlone "r-ben", .sync 200 acceptAll,
    .configure 1 .active openProgram.config]

/-- The registration was put aside in test mode: its gates all pass, it was never pushed, and the
next sweep does not push it. -/
theorem sync_strands_skipped : ∃ w w' q, exec (crmStep asciiLower) goLive testWorld = some w ∧
    q ∈ w.leads.rows ∧ getProgram w.programs q.2.tradeProgramId = some openProgram ∧
    GatesPass w.globalSync openProgram q.2 ∧ (∀ gated, .pushed q.1 gated ∉ w.log) ∧
    (w.leads.select waiting).length ≤ 200 ∧
    crmStep asciiLower (.sync 200 acceptAll) w = some w' ∧
    ∀ gated, .pushed q.1 gated ∉ w'.log :=
  ⟨_, _, _, rfl, List.mem_cons_self, rfl, by decide, by decide, by decide, rfl, by decide⟩

/-- A registration before which test mode has ended is pushed. -/
theorem sync_pushes_live : ∃ w w' q,
    exec (crmStep asciiLower)
      [.configure 1 .active openProgram.config, .capture "launchpad" benAlone "r-ben"] testWorld =
      some w ∧
    crmStep asciiLower (.sync 200 acceptAll) w = some w' ∧ q ∈ w.leads.rows ∧
    ∃ gated, .pushed q.1 gated ∈ w'.log := by
  obtain ⟨w, w', q, hrun, hsync, hq, hprogram, hgates, hnever, hfits, hskipped, hbuild⟩ :
      ∃ w w' q,
        exec (crmStep asciiLower)
          [.configure 1 .active openProgram.config, .capture "launchpad" benAlone "r-ben"]
          testWorld = some w ∧
        crmStep asciiLower (.sync 200 acceptAll) w = some w' ∧ q ∈ w.leads.rows ∧
        getProgram w.programs q.2.tradeProgramId = some openProgram ∧
        GatesPass w.globalSync openProgram q.2 ∧ (∀ gated, .pushed q.1 gated ∉ w.log) ∧
        (w.leads.select waiting).length ≤ 200 ∧ .skipped q.1 ∉ w.log ∧
        ∃ payload, buildContactPayload q.2 openProgram = .ok payload :=
    ⟨_, _, _, rfl, rfl, List.mem_cons_self, rfl, by decide, by decide, by decide, by decide, _, rfl⟩
  exact ⟨w, w', q, hrun, hsync, hq,
    (sync_pushes_iff ⟨rfl, rfl⟩ hrun hq hprogram hgates hnever hfits hsync).2
      ⟨hskipped, hbuild⟩⟩

end SalesTrades.Trade
