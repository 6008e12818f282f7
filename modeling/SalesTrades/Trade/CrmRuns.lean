import SalesTrades.Library.Run
import SalesTrades.Trade.CaptureRepeat
import SalesTrades.Trade.CrmSync

/-!
# Runs of registrations, reviews, config changes and CRM sweeps

The world of the CRM sync and its steps, with a log of what happened (newest first). `Tracked` ties
the status of every row to the log; it holds in every reachable world (`tracked_exec`).
-/

set_option autoImplicit false

namespace SalesTrades.Trade

open SalesTrades.Library SalesTrades.Library.Run

/-- The identity of a participant that a push sends. -/
structure PushedIdentity where
  firstName : String
  lastName : String
  email : String
  phone : Json
  deriving DecidableEq

def TradeLead.pushedIdentity (l : TradeLead) : PushedIdentity where
  firstName := l.firstName
  lastName := l.lastName
  email := l.email
  phone := l.phone

/-- The rows of `t'` that are new or have another identity than in `t`. -/
def changedIds (t t' : TradeLeads) : List Nat :=
  (t'.rows.filter fun q => !(t.rows.any fun r =>
    r.1 == q.1 && r.2.pushedIdentity == q.2.pushedIdentity)).map Prod.fst

theorem mem_changedIds {t t' : TradeLeads} {id : Nat} : id ∈ changedIds t t' ↔
    ∃ q ∈ t'.rows, q.1 = id ∧
      ∀ r ∈ t.rows, r.1 = id → r.2.pushedIdentity ≠ q.2.pushedIdentity := by
  simp only [changedIds, List.mem_map, List.mem_filter, Bool.not_eq_true', List.any_eq_false,
    Bool.and_eq_true, beq_iff_eq, not_and]
  constructor
  · rintro ⟨q, ⟨hq, hr⟩, rfl⟩
    exact ⟨q, hq, rfl, hr⟩
  · rintro ⟨q, hq, rfl, hr⟩
    exact ⟨q, ⟨hq, hr⟩, rfl⟩

/-- `freshsales_lead_sync_enabled`, the programs, the participants and the log. -/
structure CrmWorld where
  globalSync : Bool
  programs : List TradeProgram
  leads : TradeLeads
  log : List Happening

/-- A registration, an admin review, an edit of a program, a change of the global switch, or a sweep.
-/
inductive CrmAct where
  | capture (slug : String) (payload : Registration) (uuid : String)
  | review (id : Nat) (status : ReviewStatus) (reviewer : Option String) (now : Int)
  | configure (programId : Nat) (status : ProgramStatus) (config : ProgramConfig)
  | switch (globalSync : Bool)
  | sync (limit : Nat) (o : SyncOutside)

/-- The programs after an edit of one of them. -/
def configured (programs : List TradeProgram) (programId : Nat) (status : ProgramStatus)
    (config : ProgramConfig) : List TradeProgram :=
  programs.map fun p => if p.id = programId then { p with status := status, config := config } else p

variable [ColumnDriver]

/-- One operation, run on its own. Every operation can be called in every world. -/
def crmStep (py : LowerCase) : CrmAct → CrmWorld → Option CrmWorld
  | .capture slug payload uuid, w =>
      -- a call that raises may have written the primary already
      let t' := (captureRegistration py w.programs slug payload uuid w.leads).1
      some { w with
        leads := t'
        log := (changedIds w.leads t').map .identityChanged ++ w.log }
  | .review id status reviewer now, w =>
      match w.leads.get? id with
      | none => some w
      | some lead =>
          match setReview w.leads lead status reviewer now with
          | .error _ => some w
          | .ok (_, t') =>
              some { w with
                leads := t'
                log := if status = .approved then .approved id :: w.log else w.log }
  | .configure programId status config, w =>
      some { w with programs := configured w.programs programId status config }
  | .switch globalSync, w => some { w with globalSync := globalSync }
  | .sync limit o, w =>
      let result := syncPendingTrade w.globalSync w.programs o limit w.leads w.log
      some { w with leads := result.1, log := result.2.1 }

/-! ## What a registration does to the columns of the sync -/

/-- How the writes of a registration change the table: a row that was there keeps what review and
sync have recorded, a new row is waiting for both. -/
structure Captured (t t' : TradeLeads) : Prop where
  nextId_le : t.nextId ≤ t'.nextId
  flushed : Flushed t → Flushed t'
  rows : ∀ q' ∈ t'.rows,
    (∃ q ∈ t.rows, q.1 = q'.1 ∧ q'.2.crmSyncStatus = q.2.crmSyncStatus ∧
      q'.2.reviewStatus = q.2.reviewStatus ∧ q'.2.tradeProgramId = q.2.tradeProgramId) ∨
    t.nextId ≤ q'.1 ∧ q'.2.crmSyncStatus = .pending ∧ q'.2.reviewStatus = .pending

theorem Captured.refl (t : TradeLeads) : Captured t t :=
  ⟨le_rfl, id, fun q hq => Or.inl ⟨q, hq, rfl, rfl, rfl, rfl⟩⟩

theorem Captured.trans {t t₁ t₂ : TradeLeads} (h₁ : Captured t t₁) (h₂ : Captured t₁ t₂) :
    Captured t t₂ := by
  refine ⟨h₁.nextId_le.trans h₂.nextId_le, fun h => h₂.flushed (h₁.flushed h), fun q hq => ?_⟩
  rcases h₂.rows q hq with ⟨q₁, hq₁, hid, hsync, hreview, hprogram⟩ | ⟨hid, hsync, hreview⟩
  · rcases h₁.rows q₁ hq₁ with ⟨q₀, hq₀, hid₀, hsync₀, hreview₀, hprogram₀⟩ | ⟨hid₀, hsync₀, hreview₀⟩
    · exact Or.inl ⟨q₀, hq₀, hid₀.trans hid, hsync.trans hsync₀, hreview.trans hreview₀,
        hprogram.trans hprogram₀⟩
    · exact Or.inr ⟨hid ▸ hid₀, hsync.trans hsync₀, hreview.trans hreview₀⟩
  · exact Or.inr ⟨h₁.nextId_le.trans hid, hsync, hreview⟩

theorem captured_create {t t' : TradeLeads} {lead : TradeLead} {p : Participant}
    (h : createLead t lead = .ok (p, t')) (hsync : lead.crmSyncStatus = .pending)
    (hreview : lead.reviewStatus = .pending) : Captured t t' := by
  obtain ⟨hflush, hins⟩ := createLead_ok h
  obtain ⟨hid, -, hnext⟩ := Table.insert_eq_some hins
  refine ⟨by omega, fun hold q hq => ?_, fun q hq => ?_⟩
  · rcases (Table.mem_of_insert hins).1 hq with hq | rfl
    · exact hold q hq
    · exact flush_flush hflush
  · rcases (Table.mem_of_insert hins).1 hq with hq | rfl
    · exact Or.inl ⟨q, hq, rfl, rfl, rfl, rfl⟩
    · obtain ⟨_, _, -, -, -, hrow⟩ := flush_eq_some hflush
      exact Or.inr ⟨hid.ge, by rw [hrow]; exact hsync, by rw [hrow]; exact hreview⟩

theorem captured_update {t t' : TradeLeads} {loaded p : Participant} {lead : TradeLead}
    (hmem : loaded ∈ t.rows) (h : updateLead t loaded lead = .ok (p, t'))
    (hsync : lead.crmSyncStatus = loaded.2.crmSyncStatus)
    (hreview : lead.reviewStatus = loaded.2.reviewStatus)
    (hprogram : lead.tradeProgramId = loaded.2.tradeProgramId) : Captured t t' := by
  obtain ⟨hid, hflush, hupd⟩ := updateLead_alone hmem h
  refine ⟨(Table.update_eq_some hupd).2.ge, fun hold q hq => ?_, fun q hq => ?_⟩
  · rcases (Table.mem_of_update hupd).1 hq with ⟨hq, -⟩ | ⟨rfl, -⟩
    · exact hold q hq
    · exact flush_flush hflush
  · rcases (Table.mem_of_update hupd).1 hq with ⟨hq, -⟩ | ⟨rfl, -⟩
    · exact Or.inl ⟨q, hq, rfl, rfl, rfl, rfl⟩
    · obtain ⟨_, _, -, -, -, hrow⟩ := flush_eq_some hflush
      exact Or.inl ⟨loaded, hmem, hid, by rw [hrow]; exact hsync, by rw [hrow]; exact hreview,
        by rw [hrow]; exact hprogram⟩

variable {py : LowerCase} {program : TradeProgram} {payload : Registration}

theorem captured_storePrimary {email uuid : String} {t t' : TradeLeads} {p : Participant}
    (h : storePrimary program payload email uuid (getByProgramEmail t program.id email) t =
      .ok (p, t')) : Captured t t' := by
  replace h := (storePrimary_eq_ok.1 h).2
  cases hfound : getByProgramEmail t program.id email with
  | none =>
      rw [hfound] at h
      exact captured_create h rfl rfl
  | some loaded =>
      rw [hfound] at h
      obtain ⟨hmem, hprogram, -⟩ := getByProgramEmail_eq_some hfound
      exact captured_update hmem h rfl rfl hprogram.symm

theorem captured_storeSecond {t t' : TradeLeads} {primary s : Participant} {kwargs : SecondKwargs}
    (hprimary : primary ∈ t.rows)
    (h : storeSecond program payload primary kwargs (findSecond t primary) t = .ok (s, t')) :
    Captured t t' := by
  cases hfound : findSecond t primary with
  | none =>
      rw [hfound] at h
      exact captured_create h rfl rfl
  | some loaded =>
      rw [hfound] at h
      exact captured_update (findSecond_eq_some hprimary hfound).1 h rfl rfl rfl

/-- The writes a call has made, whether it returns or raises. -/
theorem captureInProgram_writes (py : LowerCase) (program : TradeProgram) (payload : Registration)
    (uuid : String) (t : TradeLeads) :
    (captureInProgram py program payload uuid t).1 = t ∨
    ∃ primary t₁,
      storePrimary program payload (normaliseEmail py payload.email) uuid
          (getByProgramEmail t program.id (normaliseEmail py payload.email)) t =
        .ok (primary, t₁) ∧
      ((captureInProgram py program payload uuid t).1 = t₁ ∨ ∃ kwargs second,
        namedSecond py payload = some kwargs ∧
        storeSecond program payload primary kwargs (findSecond t₁ primary) t₁ =
          .ok (second, (captureInProgram py program payload uuid t).1)) := by
  simp only [captureInProgram]
  split
  · exact Or.inl rfl
  · rename_i primary t₁ hprimary
    refine Or.inr ⟨primary, t₁, hprimary, ?_⟩
    split
    · exact Or.inl rfl
    · exact Or.inl rfl
    · rename_i kwargs warning hparse
      split
      · exact Or.inl rfl
      · rename_i second t₂ hsecond
        refine Or.inr ⟨kwargs, second, ?_, hsecond⟩
        rw [namedSecond, hparse]

/-- A registration writes nothing, or what `captureInProgram` writes. -/
theorem captureRegistration_writes (py : LowerCase) (programs : List TradeProgram) (slug : String)
    (payload : Registration) (uuid : String) (t : TradeLeads) :
    (captureRegistration py programs slug payload uuid t).1 = t ∨
    ∃ program, getProgramBySlug programs slug = some program ∧
      (captureRegistration py programs slug payload uuid t).1 =
        (captureInProgram py program payload uuid t).1 := by
  unfold captureRegistration
  split
  · exact Or.inl rfl
  · rename_i program hfound
    split
    · exact Or.inl rfl
    · refine Or.inr ⟨program, hfound, ?_⟩
      split
      · rename_i hcall
        rw [hcall]
      · rename_i hcall
        rw [hcall]

theorem captured_registration (py : LowerCase) (programs : List TradeProgram) (slug : String)
    (payload : Registration) (uuid : String) (t : TradeLeads) :
    Captured t (captureRegistration py programs slug payload uuid t).1 := by
  rcases captureRegistration_writes py programs slug payload uuid t with h | ⟨program, -, h⟩
  · rw [h]
    exact Captured.refl t
  · rw [h]
    rcases captureInProgram_writes py program payload uuid t with h | ⟨primary, t₁, hstore, h⟩
    · rw [h]
      exact Captured.refl t
    · have hfirst := captured_storePrimary hstore
      rcases h with h | ⟨kwargs, second, -, hsecond⟩
      · rw [h]
        exact hfirst
      · exact hfirst.trans (captured_storeSecond (storePrimary_ok hstore).1 hsecond)

/-! ## The other steps -/

/-- A review writes nothing, or the review columns of one row. -/
theorem review_step {id : Nat} {status : ReviewStatus} {reviewer : Option String} {now : Int}
    {w w' : CrmWorld} (h : crmStep py (.review id status reviewer now) w = some w') :
    w' = w ∨ ∃ q ∈ w.leads.rows, q.1 = id ∧ ∃ new t',
      ({ q.2 with reviewStatus := status, reviewedAt := some now, reviewedBy := reviewer } :
        TradeLead).flush = some new ∧
      w.leads.update id new = some t' ∧
      w' = { w with
        leads := t'
        log := if status = .approved then .approved id :: w.log else w.log } := by
  simp only [crmStep] at h
  split at h
  · exact Or.inl (Option.some.inj h).symm
  · rename_i lead hget
    obtain ⟨hmem, hid⟩ := Table.mem_of_get? hget
    split at h
    · exact Or.inl (Option.some.inj h).symm
    · rename_i p t' hreview
      obtain ⟨hpid, hflush, hupd⟩ := updateLead_alone hmem hreview
      refine Or.inr ⟨lead, hmem, hid, p.2, t', hflush, ?_, (Option.some.inj h).symm⟩
      rw [← hid, hpid]
      exact hupd

omit [ColumnDriver] in
theorem mem_listPendingCrmSync {t : TradeLeads} {limit : Nat} {q : Participant}
    (h : q ∈ listPendingCrmSync t limit) :
    q ∈ t.rows ∧ (q.2.crmSyncStatus = .failed ∨ q.2.crmSyncStatus = .pending) := by
  have hselect := Table.mem_select.1 (List.mem_of_mem_take h)
  simpa using hselect

/-- A sweep does nothing when the sync is switched off, and visits the waiting rows otherwise. -/
theorem sync_step {limit : Nat} {o : SyncOutside} {w w' : CrmWorld} (hflushed : Flushed w.leads)
    (h : crmStep py (.sync limit o) w = some w') :
    (w.globalSync = false ∧ w' = w) ∨
      (w.globalSync = true ∧ w'.globalSync = w.globalSync ∧ w'.programs = w.programs ∧
        Swept w.globalSync w.programs o (listPendingCrmSync w.leads limit) w.leads w.log w'.leads
          w'.log) := by
  simp only [crmStep, Option.some.injEq] at h
  subst h
  cases hsync : w.globalSync with
  | false =>
      left
      simp only [syncPendingTrade, Bool.false_eq_true, if_false, true_and]
      rw [← hsync]
  | true =>
      right
      obtain ⟨t', log', n, hloop, hswept⟩ := syncLoop_spec true w.programs o w.log hflushed
        (fun q hq => (mem_listPendingCrmSync hq).1) (w.leads.nodup_select _ limit)
      simp only [syncPendingTrade, if_true, hloop]
      exact ⟨trivial, trivial, trivial, hswept⟩

/-! ## Status and log -/

/-- The status of every row agrees with the log: a row is skipped when a sweep has skipped it, and
synced only after a push. -/
structure Tracked (w : CrmWorld) : Prop where
  flushed : Flushed w.leads
  logged : ∀ id, .skipped id ∈ w.log → id < w.leads.nextId
  skipped_iff : ∀ q ∈ w.leads.rows, q.2.crmSyncStatus = .skipped ↔ .skipped q.1 ∈ w.log
  synced : ∀ q ∈ w.leads.rows, q.2.crmSyncStatus = .synced → ∃ gated, .pushed q.1 gated ∈ w.log

/-- A world without participants and without a log. -/
def CrmWorld.Initial (w : CrmWorld) : Prop := w.leads = Table.empty _ ∧ w.log = []

theorem tracked_initial {w : CrmWorld} (h : w.Initial) : Tracked w := by
  obtain ⟨hleads, hlog⟩ := h
  constructor <;> simp [Flushed, hleads, hlog, Table.empty]

theorem tracked_capture {w : CrmWorld} {t' : TradeLeads} {ids : List Nat} (hw : Tracked w)
    (h : Captured w.leads t') :
    Tracked { w with leads := t', log := ids.map .identityChanged ++ w.log } := by
  refine ⟨h.flushed hw.flushed, fun id hid => ?_, fun q' hq' => ?_, fun q' hq' hsynced => ?_⟩
  · have : .skipped id ∈ w.log := by simpa using hid
    exact lt_of_lt_of_le (hw.logged id this) h.nextId_le
  · have hlog : .skipped q'.1 ∈ ids.map Happening.identityChanged ++ w.log ↔
        .skipped q'.1 ∈ w.log := by simp
    rcases h.rows q' hq' with ⟨q, hq, hid, hsync, -⟩ | ⟨hid, hsync, -⟩
    · rw [hlog, hsync, ← hid]
      exact hw.skipped_iff q hq
    · rw [hlog, hsync]
      refine ⟨fun h => (by cases h), fun h => ?_⟩
      -- a new id is in no log
      exact absurd (hw.logged _ h) (not_lt_of_ge hid)
  · rcases h.rows q' hq' with ⟨q, hq, hid, hsync, -⟩ | ⟨-, hsync, -⟩
    · obtain ⟨gated, hpushed⟩ := hw.synced q hq (hsync ▸ hsynced)
      exact ⟨gated, List.mem_append_right _ (hid ▸ hpushed)⟩
    · rw [hsync] at hsynced
      cases hsynced

theorem tracked_review {id : Nat} {status : ReviewStatus} {reviewer : Option String} {now : Int}
    {w w' : CrmWorld} (hw : Tracked w)
    (h : crmStep py (.review id status reviewer now) w = some w') : Tracked w' := by
  rcases review_step h with rfl | ⟨q, hq, rfl, new, t', hflush, hupd, rfl⟩
  · exact hw
  · obtain ⟨_, _, -, -, -, hnew⟩ := flush_eq_some hflush
    have hstatus : new.crmSyncStatus = q.2.crmSyncStatus := by rw [hnew]
    have hlog : ∀ x, (∀ i, x ≠ .approved i) →
        (x ∈ (if status = .approved then .approved q.1 :: w.log else w.log) ↔ x ∈ w.log) := by
      intro x hx
      split
      · simp [hx]
      · rfl
    refine ⟨fun r hr => ?_, fun i hi => ?_, fun r hr => ?_, fun r hr hsynced => ?_⟩
    · rcases (Table.mem_of_update hupd).1 hr with ⟨hr, -⟩ | ⟨rfl, -⟩
      · exact hw.flushed r hr
      · exact flush_flush hflush
    · rw [hlog _ (by simp)] at hi
      exact lt_of_lt_of_eq (hw.logged i hi) (Table.update_eq_some hupd).2.symm
    · rw [hlog _ (by simp)]
      rcases (Table.mem_of_update hupd).1 hr with ⟨hr, -⟩ | ⟨rfl, -⟩
      · exact hw.skipped_iff r hr
      · simp only [hstatus]
        exact hw.skipped_iff q hq
    · have hpushed : ∃ gated, .pushed r.1 gated ∈ w.log := by
        rcases (Table.mem_of_update hupd).1 hr with ⟨hr, -⟩ | ⟨rfl, -⟩
        · exact hw.synced r hr hsynced
        · exact hw.synced q hq (hstatus ▸ hsynced)
      obtain ⟨gated, hpushed⟩ := hpushed
      exact ⟨gated, (hlog _ (by simp)).2 hpushed⟩

theorem mem_sweptLog {globalSync : Bool} {programs : List TradeProgram} {o : SyncOutside}
    {leads : List Participant} {t t' : TradeLeads} {log log' : List Happening}
    (h : Swept globalSync programs o leads t log t' log') {x : Happening} :
    x ∈ log' ↔ (∃ q ∈ leads, x ∈ visitLog globalSync programs o q) ∨ x ∈ log := by
  rw [h.log_eq]
  simp

theorem tracked_sweep {limit : Nat} {o : SyncOutside} {w w' : CrmWorld} (hw : Tracked w)
    (h : Swept w.globalSync w.programs o (listPendingCrmSync w.leads limit) w.leads w.log w'.leads
      w'.log) : Tracked w' := by
  have hskip : ∀ q ∈ listPendingCrmSync w.leads limit, ∀ id,
      (.skipped id ∈ visitLog w.globalSync w.programs o q ↔
        id = q.1 ∧ (afterVisit w.globalSync w.programs o q).crmSyncStatus = .skipped) := by
    intro q hq id
    refine skipped_mem_visitLog ?_
    rcases (mem_listPendingCrmSync hq).2 with hstatus | hstatus <;> simp [hstatus]
  refine ⟨h.flushed, fun id hid => ?_, fun q' hq' => ?_, fun q' hq' hsynced => ?_⟩
  · rw [h.nextId_eq]
    rcases (mem_sweptLog h).1 hid with ⟨q, hq, hvisit⟩ | hold
    · rw [((hskip q hq id).1 hvisit).1]
      exact w.leads.id_lt q (mem_listPendingCrmSync hq).1
    · exact hw.logged id hold
  · rw [mem_sweptLog h]
    rcases h.rows q' hq' with ⟨hq, hnot⟩ | ⟨q, hq, hqt, rfl⟩
    · -- a row that the sweep has not visited keeps its status, and no visit logs a skip of it
      rw [hw.skipped_iff q' hq, iff_or_self]
      rintro ⟨r, hr, hvisit⟩
      have hid := ((hskip r hr _).1 hvisit).1
      exact absurd (w.leads.eq_of_id hq (mem_listPendingCrmSync hr).1 hid ▸ hr) hnot
    · constructor
      · exact fun hstatus => Or.inl ⟨q, hq, (hskip q hq _).2 ⟨rfl, hstatus⟩⟩
      · rintro (⟨r, hr, hvisit⟩ | hold)
        · obtain ⟨hid, hstatus⟩ := (hskip r hr _).1 hvisit
          rwa [w.leads.eq_of_id hqt (mem_listPendingCrmSync hr).1 hid]
        · -- a row that was skipped before is not among those the sweep selects
          have := (hw.skipped_iff q hqt).2 hold
          rcases (mem_listPendingCrmSync hq).2 with hstatus | hstatus <;> simp [hstatus] at this
  · rcases h.rows q' hq' with ⟨hq, -⟩ | ⟨q, hq, hqt, rfl⟩
    · obtain ⟨gated, hpushed⟩ := hw.synced q' hq hsynced
      exact ⟨gated, (mem_sweptLog h).2 (Or.inr hpushed)⟩
    · rcases synced_afterVisit hsynced with hstatus | ⟨gated, hpushed⟩
      · rcases (mem_listPendingCrmSync hq).2 with hwaiting | hwaiting <;>
          simp [hwaiting] at hstatus
      · exact ⟨gated, (mem_sweptLog h).2 (Or.inl ⟨q, hq, hpushed⟩)⟩

theorem tracked_step {act : CrmAct} {w w' : CrmWorld} (hw : Tracked w)
    (h : crmStep py act w = some w') : Tracked w' := by
  cases act with
  | capture slug payload uuid =>
      simp only [crmStep, Option.some.injEq] at h
      subst h
      exact tracked_capture hw (captured_registration py w.programs slug payload uuid w.leads)
  | review id status reviewer now => exact tracked_review hw h
  | configure programId status config =>
      simp only [crmStep, Option.some.injEq] at h
      subst h
      exact ⟨hw.flushed, hw.logged, hw.skipped_iff, hw.synced⟩
  | switch globalSync =>
      simp only [crmStep, Option.some.injEq] at h
      subst h
      exact ⟨hw.flushed, hw.logged, hw.skipped_iff, hw.synced⟩
  | sync limit o =>
      rcases sync_step hw.flushed h with ⟨-, rfl⟩ | ⟨-, -, -, hswept⟩
      · exact hw
      · exact tracked_sweep hw hswept

theorem tracked_exec {acts : List CrmAct} {w w' : CrmWorld} (hw : w.Initial)
    (hrun : exec (crmStep py) acts w = some w') : Tracked w' :=
  exec_invariant (fun _ _ _ hs hstep => tracked_step hs hstep) (tracked_initial hw) hrun

end SalesTrades.Trade
