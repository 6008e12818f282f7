import SalesTrades.Trade.DocumentCalls
import SalesTrades.Trade.Eligibility

/-!
# Concurrent submissions

Any number of submissions for one registration, interleaved. A call computes the status from the
documents it has listed and writes it to one participant after the other, so a slow call can write a
status that is out of date over a newer one. When no call does, and no two calls make the first upload
of one key, all calls return, every uploaded key has its row, and every participant ends with the
status of all documents (`uploads_converge`).
-/

set_option autoImplicit false

namespace SalesTrades.Trade

open SalesTrades.Library SalesTrades.Library.Run SalesTrades.Library.Interleaving

universe u

variable {ι : Type u} [DecidableEq ι] {program : TradeProgram} {args : DocumentArgs}
  {tick : SubmitTick} {w w' : DocumentWorld} {phase phase' : SubmitPhase} {t t' : TradeLeads}
  {documents documents' : TradeDocuments} {e : ι × SubmitTick}
  {c c' : Config ι DocumentWorld SubmitCall}

/-- The status of the documents that are in now. -/
def currentStatus (program : TradeProgram) (registrationId : String) (documents : TradeDocuments) :
    EligibilityStatus :=
  computeEligibilityStatus (presentKeys documents registrationId) program

/-- A step that meets no failure, the deletion of an old object apart. -/
def SubmitPhase.Undisturbed (answer : Answer) : SubmitPhase → Prop
  | .selected _ (some _) => answer ≠ .crashes
  | _ => answer = .succeeds

/-- The condition on a step: a first upload is still the first, and the documents from which a status
was computed give the same status as the documents that are in when it is written. -/
def SubmitPhase.UpToDate (program : TradeProgram) (args : DocumentArgs) (w : DocumentWorld) :
    SubmitPhase → Prop
  | .selected _ none => args.documentKey ∉ presentKeys w.documents args.registrationId
  | .updating (_ :: _) present _ => computeEligibilityStatus present program =
      currentStatus program args.registrationId w.documents
  | _ => True

/-! ## What the calls do to the tables -/

/-- Rows keep their registration, and their status does not go back. -/
structure Climbs (t t' : TradeLeads) : Prop where
  kept : ∀ q ∈ t.rows, ∃ q' ∈ t'.rows, q'.1 = q.1 ∧ q'.2.registrationId = q.2.registrationId ∧
    q.2.eligibilityStatus.rank ≤ q'.2.eligibilityStatus.rank
  old : ∀ q' ∈ t'.rows, ∃ q ∈ t.rows, q.1 = q'.1 ∧ q.2.registrationId = q'.2.registrationId

theorem Climbs.refl (t : TradeLeads) : Climbs t t :=
  ⟨fun q hq => ⟨q, hq, rfl, rfl, le_rfl⟩, fun q hq => ⟨q, hq, rfl, rfl⟩⟩

theorem Climbs.trans {t₁ t₂ t₃ : TradeLeads} (h : Climbs t₁ t₂) (h' : Climbs t₂ t₃) :
    Climbs t₁ t₃ := by
  constructor
  · intro q hq
    obtain ⟨q₂, hq₂, hid, hreg, hrank⟩ := h.kept q hq
    obtain ⟨q₃, hq₃, hid', hreg', hrank'⟩ := h'.kept q₂ hq₂
    exact ⟨q₃, hq₃, hid'.trans hid, hreg'.trans hreg, hrank.trans hrank'⟩
  · intro q hq
    obtain ⟨q₂, hq₂, hid, hreg⟩ := h'.old q hq
    obtain ⟨q₁, hq₁, hid', hreg'⟩ := h.old q₂ hq₂
    exact ⟨q₁, hq₁, hid'.trans hid, hreg'.trans hreg⟩

/-- Documents are not lost, and a row that was found stays in its place. -/
structure DocumentsKept (documents documents' : TradeDocuments) : Prop where
  keys : ∀ registrationId,
    presentKeys documents registrationId ⊆ presentKeys documents' registrationId
  place : ∀ args existing, InPlace args documents existing → InPlace args documents' existing

theorem DocumentsKept.refl (documents : TradeDocuments) : DocumentsKept documents documents :=
  ⟨fun _ => subset_rfl, fun _ _ h => h⟩

theorem documentsKept_store {existing : Option DocumentRow} {now : Int} {d : DocumentRow}
    (hplace : InPlace args documents existing)
    (hstore : storeDocument program args now existing documents = .ok (d, documents')) :
    DocumentsKept documents documents' := by
  constructor
  · intro registrationId k hk
    exact (mem_presentKeys_store hplace hstore).2 (Or.inl hk)
  · obtain ⟨hd, hsame, hdreg, hdkey, hold⟩ := storeDocument_ok hplace hstore
    intro args' existing' hplace' old hexisting
    obtain ⟨hreg, hkey, current, hcurrent, hcreg, hckey⟩ := hplace' old hexisting
    refine ⟨hreg, hkey, ?_⟩
    by_cases hid : old.1 = d.1
    · -- the row that is written keeps registration and key
      obtain ⟨hreg', hkey'⟩ := hold _ hcurrent hid
      refine ⟨d.2, hid ▸ hd, hdreg.trans (hreg'.symm.trans hcreg), hdkey.trans (hkey'.symm.trans hckey)⟩
    · exact ⟨current, (hsame (old.1, current) hid).2 hcurrent, hcreg, hckey⟩

section Driver

variable [ColumnDriver]

/-! ## What a call knows -/

/-- The loaded participants are rows of the registration, which have not gone back since. -/
def Known (args : DocumentArgs) (t : TradeLeads) (ps : List Participant) : Prop :=
  ∀ p ∈ ps, p.2.flush = some p.2 ∧ ∃ q ∈ t.rows, q.1 = p.1 ∧
    q.2.registrationId = args.registrationId ∧
    p.2.eligibilityStatus.rank ≤ q.2.eligibilityStatus.rank

/-- They are all of the registration. -/
structure AllLoaded (args : DocumentArgs) (t : TradeLeads) (ps : List Participant) : Prop where
  known : Known args t ps
  all : ∀ q ∈ t.rows, q.2.registrationId = args.registrationId → q.1 ∈ ps.map Prod.fst

/-- The assertion on a call. -/
def SubmitPhase.Sound (args : DocumentArgs) (w : DocumentWorld) : SubmitPhase → Prop
  | .start => True
  | .listed ps | .uploaded ps => AllLoaded args w.leads ps
  | .selected ps existing => AllLoaded args w.leads ps ∧ InPlace args w.documents existing
  | .cleared ps old => AllLoaded args w.leads ps ∧ InPlace args w.documents (some old)
  | .committed ps _ =>
      AllLoaded args w.leads ps ∧ args.documentKey ∈ presentKeys w.documents args.registrationId
  | .updating todo _ _ =>
      Known args w.leads todo ∧ args.documentKey ∈ presentKeys w.documents args.registrationId
  | .returned _ _ => args.documentKey ∈ presentKeys w.documents args.registrationId
  | .raised _ | .crashed => False

/-- The call will still write the current status to the participant. -/
def SubmitPhase.Covers (program : TradeProgram) (args : DocumentArgs) (documents : TradeDocuments)
    (id : Nat) : SubmitPhase → Prop
  | .committed ps _ => id ∈ ps.map Prod.fst
  | .updating todo present _ => id ∈ todo.map Prod.fst ∧
      computeEligibilityStatus present program = currentStatus program args.registrationId documents
  | _ => False

/-- The call has not committed its document. -/
def SubmitPhase.Uncommitted : SubmitPhase → Prop
  | .start | .listed _ | .uploaded _ | .selected _ _ | .cleared _ _ => True
  | _ => False

theorem Known.mono {ps : List Participant} (hclimbs : Climbs t t') (h : Known args t ps) :
    Known args t' ps := by
  intro p hp
  obtain ⟨hflush, q, hq, hid, hreg, hrank⟩ := h p hp
  obtain ⟨q', hq', hid', hreg', hrank'⟩ := hclimbs.kept q hq
  exact ⟨hflush, q', hq', hid'.trans hid, hreg'.trans hreg, hrank.trans hrank'⟩

theorem AllLoaded.mono {ps : List Participant} (hclimbs : Climbs t t') (h : AllLoaded args t ps) :
    AllLoaded args t' ps := by
  refine ⟨h.known.mono hclimbs, fun q' hq' hreg => ?_⟩
  obtain ⟨q, hq, hid, hreg'⟩ := hclimbs.old q' hq'
  exact hid ▸ h.all q hq (hreg'.trans hreg)

/-- **Stability.** What the others do keeps the assertion on a call. -/
theorem SubmitPhase.Sound.mono (hleads : Climbs w.leads w'.leads)
    (hdocuments : DocumentsKept w.documents w'.documents) (h : phase.Sound args w) :
    phase.Sound args w' := by
  cases phase with
  | start => trivial
  | listed ps => exact AllLoaded.mono hleads h
  | uploaded ps => exact AllLoaded.mono hleads h
  | selected ps existing => exact ⟨h.1.mono hleads, hdocuments.place _ _ h.2⟩
  | cleared ps old => exact ⟨h.1.mono hleads, hdocuments.place _ _ h.2⟩
  | committed ps d => exact ⟨h.1.mono hleads, hdocuments.keys _ h.2⟩
  | updating todo present d => exact ⟨h.1.mono hleads, hdocuments.keys _ h.2⟩
  | returned d status => exact hdocuments.keys _ h
  | raised e => exact h
  | crashed => exact h

/-! ## One step of a call -/

/-- What holds of the tables: rows are as the driver stores them, the registration exists, and no
participant is ahead of the documents. -/
structure DeskSound (program : TradeProgram) (registrationId : String) (w : DocumentWorld) : Prop where
  flushed : Flushed w.leads
  exists_row : ∃ q ∈ w.leads.rows, q.2.registrationId = registrationId
  bound : ∀ q ∈ w.leads.rows, q.2.registrationId = registrationId →
    q.2.eligibilityStatus.rank ≤ (currentStatus program registrationId w.documents).rank

/-- What a step does: nothing to the tables, the commit of a document, or the write of the current
status to one participant. -/
inductive CallMove (program : TradeProgram) (args : DocumentArgs) (w : DocumentWorld)
    (phase : SubmitPhase) (w' : DocumentWorld) (phase' : SubmitPhase) : Prop
  | quiet (hleads : w'.leads = w.leads) (hdocuments : w'.documents = w.documents)
      (hcovers : ∀ id, phase.Covers program args w.documents id →
        phase'.Covers program args w.documents id)
      (hearly : phase.Uncommitted → phase'.Uncommitted)
  | stored {existing : Option DocumentRow} {now : Int} {d : DocumentRow} (hleads : w'.leads = w.leads)
      (hplace : InPlace args w.documents existing)
      (hstore : storeDocument program args now existing w.documents = .ok (d, w'.documents))
      (hcovers : ∀ q ∈ w.leads.rows, q.2.registrationId = args.registrationId →
        phase'.Covers program args w'.documents q.1)
  | wrote {id : Nat} (hdocuments : w'.documents = w.documents) (hclimbs : Climbs w.leads w'.leads)
      (hflushed : Flushed w'.leads) (hothers : Table.SameExcept id w.leads w'.leads)
      (hrow : ∀ q ∈ w'.leads.rows, q.1 = id → q.2.eligibilityStatus =
        currentStatus program args.registrationId w.documents)
      (hcovers : ∀ j, phase.Covers program args w.documents j →
        j = id ∨ phase'.Covers program args w.documents j)
      (hlate : ¬ phase.Uncommitted)

omit [ColumnDriver] in
theorem settle_undisturbed {a : Answer} {done : DocumentWorld × SubmitPhase} {failed : SubmitPhase}
    (ha : a = .succeeds) (h : a.settle w done failed = (w', phase')) : done = (w', phase') := by
  subst ha
  exact h

/-- The query of the participants loads all of them as they are. -/
theorem allLoaded_list (hw : DeskSound program args.registrationId w) :
    AllLoaded args w.leads (listByRegistration w.leads args.registrationId) := by
  constructor
  · intro p hp
    obtain ⟨hp, hreg⟩ := mem_listByRegistration.1 hp
    exact ⟨hw.flushed p hp, p, hp, rfl, hreg, le_rfl⟩
  · intro q hq hreg
    exact List.mem_map.2 ⟨q, mem_listByRegistration.2 ⟨hq, hreg⟩, rfl⟩

/-- The commit of a document goes through. -/
theorem commit_move {existing : Option DocumentRow} {now : Int} {ps : List Participant}
    (hloaded : AllLoaded args w.leads ps) (hplace : InPlace args w.documents existing)
    (hfree : existing = none → args.documentKey ∉ presentKeys w.documents args.registrationId)
    (h : commitPhase program args now ps existing w = (w', phase')) :
    phase'.Sound args w' ∧ CallMove program args w phase w' phase' := by
  obtain ⟨d, documents', hstore⟩ := exists_storeDocument program now hplace hfree
  simp only [commitPhase, hstore, Prod.mk.injEq] at h
  obtain ⟨rfl, rfl⟩ := h
  exact ⟨⟨hloaded, (mem_presentKeys_store hplace hstore).2 (Or.inr ⟨rfl, rfl⟩)⟩,
    .stored rfl hplace hstore hloaded.all⟩

omit [ColumnDriver] in
/-- The write of a roll-up onto a row that has changed since it was loaded touches the status columns
alone. -/
theorem write_rolledUp {status : EligibilityStatus} {now : Int} (loaded current : TradeLead) :
    loaded.write (rolledUp status now loaded) current =
      { current with
        eligibilityStatus := dirtyWrite loaded.eligibilityStatus status current.eligibilityStatus
        eligibilitySubmittedAt := dirtyWrite loaded.eligibilitySubmittedAt
          (rolledUp status now loaded).eligibilitySubmittedAt current.eligibilitySubmittedAt } := by
  simp [TradeLead.write, rolledUp]

theorem updateLead_rolledUp (status : EligibilityStatus) (now : Int) {lead q : Participant}
    (hflush : lead.2.flush = some lead.2) (hq : q ∈ t.rows) (hid : q.1 = lead.1) :
    ∃ row t', updateLead t lead (rolledUp status now lead.2) = .ok ((lead.1, row), t') ∧
      t.update q.1 row = some t' ∧ row.registrationId = q.2.registrationId ∧
      row.eligibilityStatus =
        dirtyWrite lead.2.eligibilityStatus status q.2.eligibilityStatus ∧
      (q.2.flush = some q.2 → row.flush = some row) := by
  have hkey : (lead.2.write (rolledUp status now lead.2) q.2).emailKey = q.2.emailKey := by
    rw [write_rolledUp]
    rfl
  obtain ⟨t', hupdate⟩ := Table.exists_update_of_key_eq hq hkey
  have hget : t.get? lead.1 = some (lead.1, q.2) := Table.get?_eq_some_iff.2 (hid ▸ hq)
  have hupdate' : t.update lead.1 (lead.2.write (rolledUp status now lead.2) q.2) = some t' :=
    hid ▸ hupdate
  refine ⟨_, t', ?_, hupdate, ?_, ?_, fun hstored => ?_⟩
  · simp only [updateLead, rolledUp_flush hflush, hget, hupdate']
  · rw [write_rolledUp]
  · rw [write_rolledUp]
  · rw [write_rolledUp]
    have hcolumns := flush_eq_self_iff.1 hstored
    exact flush_eq_self_iff.2 hcolumns

omit [ColumnDriver] in
/-- A status that is not sent is on the row already: the row has not gone back since it was loaded, and
it is not ahead. -/
theorem dirtyWrite_status {loaded new current : EligibilityStatus} (hkept : loaded.rank ≤ current.rank)
    (hbound : current.rank ≤ new.rank) : dirtyWrite loaded new current = new := by
  apply dirtyWrite_eq_new_iff.2
  intro hsame
  apply EligibilityStatus.rank_injective
  rw [hsame] at hbound
  exact le_antisymm hbound hkept

/-- The write of an up-to-date status leaves the participant with it, whether it is sent or not. -/
theorem update_move {lead : Participant} {todo : List Participant} {present : Finset String}
    {document : DocumentRow} {now : Int} (hw : DeskSound program args.registrationId w)
    (hknown : Known args w.leads (lead :: todo))
    (hkey : args.documentKey ∈ presentKeys w.documents args.registrationId)
    (hcurrent : computeEligibilityStatus present program =
      currentStatus program args.registrationId w.documents)
    (h : updatePhase program now lead todo present document w = (w', phase')) :
    phase'.Sound args w' ∧
      CallMove program args w (.updating (lead :: todo) present document) w' phase' := by
  obtain ⟨⟨hflush, q, hq, hid, hreg, hrank⟩, htodo⟩ := List.forall_mem_cons.1 hknown
  obtain ⟨row, t', hcall, hupdate, hrowreg, hrowstatus, hrowflush⟩ := updateLead_rolledUp
    (computeEligibilityStatus present program) now hflush hq hid
  simp only [updatePhase, hcall, Prod.mk.injEq] at h
  obtain ⟨rfl, rfl⟩ := h
  -- an UPDATE that does not send the status leaves one that is current already
  have hstatus : row.eligibilityStatus = currentStatus program args.registrationId w.documents := by
    rw [hrowstatus, ← hcurrent]
    exact dirtyWrite_status hrank (hcurrent ▸ hw.bound q hq hreg)
  have hrows : ∀ r, r ∈ t'.rows ↔ (r ∈ w.leads.rows ∧ r.1 ≠ q.1) ∨ r = (q.1, row) := by
    intro r
    rw [Table.mem_of_update hupdate]
    exact or_congr_right ⟨fun h => h.1, fun h => ⟨h, q.2, hq⟩⟩
  have hclimbs : Climbs w.leads t' := by
    constructor
    · intro r hr
      by_cases hrid : r.1 = q.1
      · rw [w.leads.eq_of_id hr hq hrid]
        refine ⟨(q.1, row), (hrows _).2 (Or.inr rfl), rfl, hrowreg, ?_⟩
        rw [hstatus]
        exact hw.bound q hq hreg
      · exact ⟨r, (hrows r).2 (Or.inl ⟨hr, hrid⟩), rfl, rfl, le_rfl⟩
    · intro r hr
      rcases (hrows r).1 hr with ⟨hr, -⟩ | rfl
      · exact ⟨r, hr, rfl, rfl⟩
      · exact ⟨q, hq, rfl, hrowreg.symm⟩
  refine ⟨⟨Known.mono hclimbs htodo, hkey⟩, .wrote rfl hclimbs ?_ (Table.sameExcept_update hupdate) ?_ ?_
    fun h => h⟩
  · intro r hr
    rcases (hrows r).1 hr with ⟨hr, -⟩ | rfl
    · exact hw.flushed r hr
    · exact hrowflush (hw.flushed q hq)
  · intro r hr hrid
    rcases (hrows r).1 hr with ⟨-, hne⟩ | rfl
    · exact absurd hrid hne
    · exact hstatus
  · rintro j ⟨hj, -⟩
    rcases List.mem_cons.1 (List.map_cons ▸ hj) with rfl | hj
    · exact Or.inl hid.symm
    · exact Or.inr ⟨hj, hcurrent⟩

/-- **One step.** An undisturbed, up-to-date step keeps the assertion on the call, and is one of the
three moves. -/
theorem submitPhaseStep_move (hw : DeskSound program args.registrationId w)
    (hkey : args.documentKey ∈ documentKeys program) (hsound : phase.Sound args w)
    (hquiet : phase.Undisturbed tick.answer) (hdate : phase.UpToDate program args w)
    (hstep : submitPhaseStep true program args tick w phase = some (w', phase')) :
    phase'.Sound args w' ∧ CallMove program args w phase w' phase' := by
  cases phase with
  | start =>
      have hdone := settle_undisturbed hquiet (Option.some.inj hstep)
      obtain ⟨rfl, rfl⟩ := Prod.mk.inj hdone
      have hloaded := allLoaded_list hw
      cases hlist : listByRegistration w.leads args.registrationId with
      | nil =>
          obtain ⟨q, hq, hreg⟩ := hw.exists_row
          have hmem := mem_listByRegistration.2 ⟨hq, hreg⟩
          rw [hlist] at hmem
          cases hmem
      | cons lead ps =>
          rw [hlist] at hloaded
          have hphase : listPhase program args w = .listed (lead :: ps) := by
            simp [listPhase, hkey, hlist]
          rw [hphase]
          exact ⟨hloaded, .quiet rfl rfl (fun _ h => h.elim) fun h => h⟩
  | listed ps =>
      simp only [submitPhaseStep, Bool.true_eq_false, if_false, Option.some.injEq] at hstep
      obtain ⟨rfl, rfl⟩ := Prod.mk.inj (settle_undisturbed hquiet hstep)
      exact ⟨hsound, .quiet rfl rfl (fun _ h => h.elim) fun h => h⟩
  | uploaded ps =>
      obtain ⟨rfl, rfl⟩ := Prod.mk.inj (settle_undisturbed hquiet (Option.some.inj hstep))
      exact ⟨⟨hsound, inPlace_getDocument args w.documents⟩,
        .quiet rfl rfl (fun _ h => h.elim) fun h => h⟩
  | selected ps existing =>
      cases existing with
      | none =>
          have hdone := settle_undisturbed hquiet (Option.some.inj hstep)
          exact commit_move hsound.1 hsound.2 (fun _ => hdate) hdone
      | some old =>
          -- whatever comes of the deletion, the call goes on
          have hleads : w'.leads = w.leads ∧ w'.documents = w.documents ∧ phase' = .cleared ps old := by
            have hsettled := Option.some.inj hstep
            unfold Answer.settle at hsettled
            split at hsettled
            · cases hsettled
              exact ⟨rfl, rfl, rfl⟩
            · cases hsettled
              exact ⟨rfl, rfl, rfl⟩
            · cases hsettled
              exact ⟨rfl, rfl, rfl⟩
            · rename_i hcrashes
              exact absurd hcrashes hquiet
          obtain ⟨hleads, hdocuments, rfl⟩ := hleads
          refine ⟨?_, .quiet hleads hdocuments (fun _ h => h.elim) fun h => h⟩
          rw [SubmitPhase.Sound, hleads, hdocuments]
          exact hsound
  | cleared ps old =>
      have hdone := settle_undisturbed hquiet (Option.some.inj hstep)
      exact commit_move hsound.1 hsound.2 (fun h => by cases h) hdone
  | committed ps document =>
      obtain ⟨rfl, rfl⟩ := Prod.mk.inj (settle_undisturbed hquiet (Option.some.inj hstep))
      exact ⟨⟨hsound.1.known, hsound.2⟩, .quiet rfl rfl (fun _ h => ⟨h, rfl⟩) fun h => h.elim⟩
  | updating todo present document =>
      cases todo with
      | nil =>
          obtain ⟨rfl, rfl⟩ := Prod.mk.inj (Option.some.inj hstep)
          exact ⟨hsound.2, .quiet rfl rfl (fun _ h => by cases h.1) fun h => h.elim⟩
      | cons lead todo =>
          exact update_move hw hsound.1 hsound.2 hdate
            (settle_undisturbed hquiet (Option.some.inj hstep))
  | returned document status => cases hstep
  | raised e => cases hstep
  | crashed => cases hstep

/-! ## Any number of calls -/

/-- Calls for one registration of the program are about to begin. Its participants may have fallen
behind the documents that are in, and are not ahead of them. -/
structure RaceStart (program : TradeProgram) (registrationId : String)
    (c : Config ι DocumentWorld SubmitCall) : Prop where
  idle : ∀ i, (c.proc i).phase = .start
  registration : ∀ i, (c.proc i).args.registrationId = registrationId
  key : ∀ i, (c.proc i).args.documentKey ∈ documentKeys program
  flushed : Flushed c.shared.leads
  exists_row : ∃ q ∈ c.shared.leads.rows, q.2.registrationId = registrationId
  bound : ∀ q ∈ c.shared.leads.rows, q.2.registrationId = registrationId →
    q.2.eligibilityStatus.rank ≤ (currentStatus program registrationId c.shared.documents).rank

/-- The invariant of the undisturbed, up-to-date runs from `c`. -/
structure RaceInv (program : TradeProgram) (registrationId : String)
    (c c' : Config ι DocumentWorld SubmitCall) : Prop where
  args : ∀ i, (c'.proc i).args = (c.proc i).args
  desk : DeskSound program registrationId c'.shared
  calls : ∀ i, (c'.proc i).phase.Sound (c'.proc i).args c'.shared
  keys : ∀ k ∈ presentKeys c'.shared.documents registrationId,
    k ∈ presentKeys c.shared.documents registrationId ∨ ∃ i, (c.proc i).args.documentKey = k
  kept : presentKeys c.shared.documents registrationId ⊆
    presentKeys c'.shared.documents registrationId
  covered : ∀ q ∈ c'.shared.leads.rows, q.2.registrationId = registrationId →
    q.2.eligibilityStatus = currentStatus program registrationId c'.shared.documents ∨
      (∃ i, (c'.proc i).phase.Covers program (c'.proc i).args c'.shared.documents q.1) ∨
        ∀ i, (c'.proc i).phase.Uncommitted

omit [DecidableEq ι] in
theorem raceInv_start {registrationId : String} (h : RaceStart program registrationId c) :
    RaceInv program registrationId c c where
  args := fun _ => rfl
  desk := ⟨h.flushed, h.exists_row, h.bound⟩
  calls := fun i => by
    rw [h.idle i]
    trivial
  keys := fun _ hk => Or.inl hk
  kept := subset_rfl
  covered := fun q _ _ => Or.inr (Or.inr fun i => by
    rw [h.idle i]
    trivial)

/-- Every call has returned or raised, or its process has died. -/
def Ended (c : Config ι DocumentWorld SubmitCall) : Prop :=
  ∀ i, match (c.proc i).phase with
    | .returned _ _ | .raised _ | .crashed => True
    | _ => False

/-- What the calls that began in `c` should have come to in `c'`. -/
structure Converged (program : TradeProgram) (registrationId : String)
    (c c' : Config ι DocumentWorld SubmitCall) : Prop where
  returned : ∀ i, ∃ document status, (c'.proc i).phase = .returned document status
  keys : ∀ k, k ∈ presentKeys c'.shared.documents registrationId ↔
    k ∈ presentKeys c.shared.documents registrationId ∨ ∃ i, (c.proc i).args.documentKey = k
  single : ∀ d ∈ c'.shared.documents.rows, ∀ d' ∈ c'.shared.documents.rows,
    d.2.registrationId = d'.2.registrationId → d.2.documentKey = d'.2.documentKey → d = d'
  statuses : ∀ q ∈ c'.shared.leads.rows, q.2.registrationId = registrationId →
    q.2.eligibilityStatus = currentStatus program registrationId c'.shared.documents

omit [DecidableEq ι] in
/-- When all calls have ended, nothing is left to be written. -/
theorem RaceInv.converged [Nonempty ι] {registrationId : String}
    (hregistration : ∀ i, (c.proc i).args.registrationId = registrationId)
    (h : RaceInv program registrationId c c') (hended : Ended c') :
    Converged program registrationId c c' := by
  -- no phase of the invariant raises, so a call that has ended has returned
  have hreturned : ∀ i, ∃ document status, (c'.proc i).phase = .returned document status := by
    intro i
    have hcall := hended i
    have hsound := h.calls i
    cases hphase : (c'.proc i).phase <;> simp only [hphase, SubmitPhase.Sound] at hcall hsound
    exact ⟨_, _, rfl⟩
  refine ⟨hreturned, fun k => ⟨h.keys k, ?_⟩, fun d hd d' hd' hreg hkey => ?_, fun q hq hreg => ?_⟩
  · rintro (hk | ⟨i, rfl⟩)
    · exact h.kept hk
    · obtain ⟨document, status, hphase⟩ := hreturned i
      have hsound := h.calls i
      rw [hphase, h.args i] at hsound
      exact hregistration i ▸ hsound
  · have hsame : d.2.registrationKey = d'.2.registrationKey := by
      simp only [TradeDocument.registrationKey, hreg, hkey]
    exact Table.eq_of_key hd hd' hsame rfl
  · rcases h.covered q hq hreg with hstatus | ⟨i, hcovers⟩ | hearly
    · exact hstatus
    · obtain ⟨document, status, hphase⟩ := hreturned i
      rw [hphase] at hcovers
      exact hcovers.elim
    · obtain ⟨i⟩ := ‹Nonempty ι›
      obtain ⟨document, status, hphase⟩ := hreturned i
      have hnone := hearly i
      rw [hphase] at hnone
      exact hnone.elim

/-- A commit raises the bound on the statuses. -/
theorem DeskSound.stored {registrationId : String} (h : DeskSound program registrationId w)
    (hleads : w'.leads = w.leads) (hkept : DocumentsKept w.documents w'.documents) :
    DeskSound program registrationId w' := by
  refine ⟨hleads ▸ h.flushed, hleads ▸ h.exists_row, fun q hq hreg => ?_⟩
  rw [hleads] at hq
  exact (h.bound q hq hreg).trans (rank_compute_le (hkept.keys registrationId))

/-- The write of the current status keeps it. -/
theorem DeskSound.wrote {registrationId : String} {id : Nat}
    (h : DeskSound program registrationId w) (hdocuments : w'.documents = w.documents)
    (hclimbs : Climbs w.leads w'.leads) (hflushed : Flushed w'.leads)
    (hothers : Table.SameExcept id w.leads w'.leads)
    (hrow : ∀ q ∈ w'.leads.rows, q.1 = id →
      q.2.eligibilityStatus = currentStatus program registrationId w.documents) :
    DeskSound program registrationId w' := by
  refine ⟨hflushed, ?_, fun q hq hreg => ?_⟩
  · obtain ⟨q, hq, hreg⟩ := h.exists_row
    obtain ⟨q', hq', -, hreg', -⟩ := hclimbs.kept q hq
    exact ⟨q', hq', hreg'.trans hreg⟩
  · rw [hdocuments]
    by_cases hid : q.1 = id
    · exact (congrArg _ (hrow q hq hid)).le
    · exact h.bound q ((hothers q hid).1 hq) hreg

theorem climbs_move (h : CallMove program args w phase w' phase') : Climbs w.leads w'.leads := by
  cases h with
  | quiet hleads hdocuments hcovers hearly => exact hleads ▸ Climbs.refl _
  | stored hleads hplace hstore hcovers => exact hleads ▸ Climbs.refl _
  | wrote hdocuments hclimbs hflushed hothers hrow hcovers hlate => exact hclimbs

theorem documentsKept_move (h : CallMove program args w phase w' phase') :
    DocumentsKept w.documents w'.documents := by
  cases h with
  | quiet hleads hdocuments hcovers hearly => exact hdocuments ▸ DocumentsKept.refl _
  | stored hleads hplace hstore hcovers => exact documentsKept_store hplace hstore
  | wrote hdocuments hclimbs hflushed hothers hrow hcovers hlate =>
      exact hdocuments ▸ DocumentsKept.refl _

theorem DeskSound.move (h : DeskSound program args.registrationId w)
    (hmove : CallMove program args w phase w' phase') : DeskSound program args.registrationId w' := by
  have hclimbs := climbs_move hmove
  have hkept := documentsKept_move hmove
  cases hmove with
  | quiet hleads hdocuments hcovers hearly => exact h.stored hleads hkept
  | stored hleads hplace hstore hcovers => exact h.stored hleads hkept
  | wrote hdocuments _ hflushed hothers hrow hcovers hlate =>
      exact h.wrote hdocuments hclimbs hflushed hothers hrow

/-- A step adds no document but the one of its call. -/
theorem mem_presentKeys_move {k : String} (hmove : CallMove program args w phase w' phase')
    (hk : k ∈ presentKeys w'.documents args.registrationId) :
    k ∈ presentKeys w.documents args.registrationId ∨ args.documentKey = k := by
  cases hmove with
  | quiet hleads hdocuments hcovers hearly => exact Or.inl (hdocuments ▸ hk)
  | stored hleads hplace hstore hcovers =>
      exact ((mem_presentKeys_store hplace hstore).1 hk).imp_right And.right
  | wrote hdocuments _ hflushed hothers hrow hcovers hlate => exact Or.inl (hdocuments ▸ hk)

omit [ColumnDriver] in
/-- A participant that is still to be written is written by the step, or still to be written. -/
theorem covers_fire {call' : SubmitCall} {q : Nat} (w' : DocumentWorld)
    (hargs : call'.args = (c.proc e.1).args) (hdocuments : w'.documents = c.shared.documents)
    {Written : Prop}
    (hcovers : (c.proc e.1).phase.Covers program (c.proc e.1).args c.shared.documents q →
      Written ∨ call'.phase.Covers program (c.proc e.1).args c.shared.documents q)
    (h : ∃ i, (c.proc i).phase.Covers program (c.proc i).args c.shared.documents q) :
    Written ∨ ∃ i, (Function.update c.proc e.1 call' i).phase.Covers program
      (Function.update c.proc e.1 call' i).args w'.documents q := by
  obtain ⟨i, hi⟩ := h
  by_cases hie : i = e.1
  · subst hie
    refine (hcovers hi).imp_right fun hnew => ⟨e.1, ?_⟩
    rw [Function.update_self, hargs, hdocuments]
    exact hnew
  · refine Or.inr ⟨i, ?_⟩
    rw [Function.update_of_ne hie, hdocuments]
    exact hi

/-- After a step, too, a participant is up to date, in the list of some call, or waiting for the first
commit. -/
theorem covered_fire {call' : SubmitCall} {w' : DocumentWorld}
    (hargs : call'.args = (c.proc e.1).args)
    (hmove : CallMove program (c.proc e.1).args c.shared (c.proc e.1).phase w' call'.phase)
    (hcovered : ∀ q ∈ c.shared.leads.rows, q.2.registrationId = (c.proc e.1).args.registrationId →
      q.2.eligibilityStatus =
          currentStatus program (c.proc e.1).args.registrationId c.shared.documents ∨
        (∃ i, (c.proc i).phase.Covers program (c.proc i).args c.shared.documents q.1) ∨
          ∀ i, (c.proc i).phase.Uncommitted)
    {q : Participant} (hq : q ∈ w'.leads.rows)
    (hreg : q.2.registrationId = (c.proc e.1).args.registrationId) :
    q.2.eligibilityStatus = currentStatus program (c.proc e.1).args.registrationId w'.documents ∨
      (∃ i, (Function.update c.proc e.1 call' i).phase.Covers program
        (Function.update c.proc e.1 call' i).args w'.documents q.1) ∨
        ∀ i, (Function.update c.proc e.1 call' i).phase.Uncommitted := by
  cases hmove with
  | quiet hleads hdocuments hcovers hearly =>
      rw [hleads] at hq
      rcases hcovered q hq hreg with hstatus | hwaiting | hnone
      · exact Or.inl (hdocuments ▸ hstatus)
      · exact (covers_fire w' hargs hdocuments (fun h => Or.inr (hcovers q.1 h)) hwaiting).imp_right
          Or.inl
      · refine Or.inr (Or.inr fun j => ?_)
        by_cases hj : j = e.1
        · subst hj
          rw [Function.update_self]
          exact hearly (hnone e.1)
        · rw [Function.update_of_ne hj]
          exact hnone j
  | stored hleads hplace hstore hcovers =>
      -- the call that commits has all participants ahead of it
      refine Or.inr (Or.inl ⟨e.1, ?_⟩)
      rw [Function.update_self, hargs]
      exact hcovers q (hleads ▸ hq) hreg
  | @wrote id hdocuments _ hflushed hothers hrow hcovers hlate =>
      by_cases hid : q.1 = id
      · left
        rw [hrow q hq hid, hdocuments]
      · rcases hcovered q ((hothers q hid).1 hq) hreg with hstatus | hwaiting | hnone
        · exact Or.inl (hdocuments ▸ hstatus)
        · exact (covers_fire w' hargs hdocuments (hcovers q.1) hwaiting).imp
            (fun hwritten => absurd hwritten hid) Or.inl
        · -- the call that writes has committed
          exact absurd (hnone e.1) hlate

/-- **Step lemma.** An undisturbed, up-to-date step keeps the invariant, and no status goes back. -/
theorem raceInv_fire {registrationId : String} {c₀ : Config ι DocumentWorld SubmitCall}
    (hregistration : ∀ i, (c₀.proc i).args.registrationId = registrationId)
    (hkey : ∀ i, (c₀.proc i).args.documentKey ∈ documentKeys program)
    (hc : RaceInv program registrationId c₀ c)
    (hquiet : (c.proc e.1).phase.Undisturbed e.2.answer)
    (hdate : (c.proc e.1).phase.UpToDate program (c.proc e.1).args c.shared)
    (hfire : fire (submitCallStep true program) e c = some c') :
    RaceInv program registrationId c₀ c' ∧ Climbs c.shared.leads c'.shared.leads := by
  obtain ⟨w', call', hstep, rfl⟩ := fire_eq_some.1 hfire
  obtain ⟨hargs, hstep⟩ := submitCallStep_eq_some hstep
  obtain rfl : (c.proc e.1).args.registrationId = registrationId := by
    rw [hc.args]
    exact hregistration e.1
  obtain ⟨hsound, hmove⟩ := submitPhaseStep_move hc.desk
    (by rw [hc.args]; exact hkey e.1) (hc.calls e.1) hquiet hdate hstep
  have hclimbs := climbs_move hmove
  have hkept := documentsKept_move hmove
  refine ⟨⟨fun j => ?_, hc.desk.move hmove, fun j => ?_, fun k hk => ?_, ?_,
    fun q hq hreg => covered_fire hargs hmove hc.covered hq hreg⟩, hclimbs⟩
  · -- the call that moved, and one that did not
    by_cases hj : j = e.1
    · subst hj
      simpa only [Function.update_self] using hargs.trans (hc.args e.1)
    · simpa only [Function.update_of_ne hj] using hc.args j
  · by_cases hj : j = e.1
    · subst hj
      simpa only [Function.update_self, hargs] using hsound
    · simp only [Function.update_of_ne hj]
      exact (hc.calls j).mono hclimbs hkept
  · rcases mem_presentKeys_move hmove hk with hk | rfl
    · exact hc.keys k hk
    · exact Or.inr ⟨e.1, by rw [hc.args]⟩
  · exact hc.kept.trans (hkept.keys _)

/-! ## Runs -/

/-- No participant that was submitted is pending. -/
def NeverBack (t t' : TradeLeads) : Prop :=
  ∀ q ∈ t.rows, q.2.eligibilityStatus = .submitted → ∀ q' ∈ t'.rows, q'.1 = q.1 →
    q'.2.eligibilityStatus ≠ .pending

omit [ColumnDriver] in
theorem Climbs.neverBack (h : Climbs t t') : NeverBack t t' := by
  intro q hq hsubmitted q' hq' hid hpending
  obtain ⟨r, hr, hrid, -, hrank⟩ := h.kept q hq
  rw [t'.eq_of_id hr hq' (hrid.trans hid.symm), hsubmitted, hpending] at hrank
  exact absurd hrank (by decide)

/-- **Run lemma.** The invariant holds where an undisturbed, up-to-date run ends, and no status has
gone back on the way. -/
theorem raceInv_run {registrationId : String} {c₀ : Config ι DocumentWorld SubmitCall}
    (hregistration : ∀ i, (c₀.proc i).args.registrationId = registrationId)
    (hkey : ∀ i, (c₀.proc i).args.documentKey ∈ documentKeys program)
    {es : List (ι × SubmitTick)} (hc : RaceInv program registrationId c₀ c)
    (hquiet : Guarded (fire (submitCallStep true program))
      (fun e c => (c.proc e.1).phase.Undisturbed e.2.answer) es c)
    (hdate : Guarded (fire (submitCallStep true program))
      (fun e c => (c.proc e.1).phase.UpToDate program (c.proc e.1).args c.shared) es c)
    (hrun : exec (fire (submitCallStep true program)) es c = some c') :
    RaceInv program registrationId c₀ c' ∧ Climbs c.shared.leads c'.shared.leads := by
  induction es generalizing c with
  | nil =>
      obtain rfl := Option.some.inj hrun
      exact ⟨hc, Climbs.refl _⟩
  | cons e es ih =>
      obtain ⟨m, hm, hrest⟩ := exec_cons_eq_some.1 hrun
      obtain ⟨hinv, hclimbs⟩ := raceInv_fire hregistration hkey hc hquiet.1 hdate.1 hm
      obtain ⟨hend, hclimbs'⟩ := ih hinv (hquiet.2 m hm) (hdate.2 m hm) hrest
      exact ⟨hend, hclimbs.trans hclimbs'⟩

/-- **When concurrent submissions converge.** In every run of any number of calls without failures in
which no status is written that the documents no longer give, and no two calls make the first upload
of one key: once all calls have ended they have returned, every uploaded key has its one row, and every
participant has the status of all documents; and from no state on has a submitted participant gone
back to pending. -/
theorem uploads_converge [Nonempty ι] {registrationId : String} {es : List (ι × SubmitTick)}
    (hstart : RaceStart program registrationId c)
    (hquiet : Guarded (fire (submitCallStep true program))
      (fun e c => (c.proc e.1).phase.Undisturbed e.2.answer) es c)
    (hdate : Guarded (fire (submitCallStep true program))
      (fun e c => (c.proc e.1).phase.UpToDate program (c.proc e.1).args c.shared) es c)
    (hrun : exec (fire (submitCallStep true program)) es c = some c') :
    (Ended c' → Converged program registrationId c c') ∧
      ∀ before after m, es = before ++ after →
        exec (fire (submitCallStep true program)) before c = some m →
          NeverBack m.shared.leads c'.shared.leads := by
  have hinv := raceInv_start hstart
  constructor
  · obtain ⟨hend, -⟩ := raceInv_run hstart.registration hstart.key hinv hquiet hdate hrun
    exact hend.converged hstart.registration
  · rintro before after m rfl hbefore
    obtain ⟨hquietBefore, hquietAfter⟩ := guarded_append.1 hquiet
    obtain ⟨hdateBefore, hdateAfter⟩ := guarded_append.1 hdate
    rw [exec_append, hbefore, Option.bind_some] at hrun
    obtain ⟨hmiddle, -⟩ :=
      raceInv_run hstart.registration hstart.key hinv hquietBefore hdateBefore hbefore
    obtain ⟨-, hclimbs⟩ := raceInv_run hstart.registration hstart.key hmiddle
      (hquietAfter m hbefore) (hdateAfter m hbefore) hrun
    exact hclimbs.neverBack

end Driver

attribute [local instance] plainDriver

/-! ## Two uploads -/

instance (answer : Answer) (phase : SubmitPhase) : Decidable (phase.Undisturbed answer) := by
  unfold SubmitPhase.Undisturbed
  split <;> infer_instance

instance (phase : SubmitPhase) : Decidable (phase.UpToDate program args w) := by
  unfold SubmitPhase.UpToDate
  split <;> infer_instance

/-- The program with two required documents. -/
def twoCertificates : TradeProgram :=
  { openProgram with
    config :=
      { openProgram.config with requiredDocuments := [⟨"cac", .bool true⟩, ⟨"tin", .bool true⟩] } }

/-- Ada has registered, and uploads both documents at once. -/
def bothUploads : Config Bool DocumentWorld SubmitCall where
  shared :=
    { emptyDesk with
      leads := (captureRegistration asciiLower [twoCertificates] "launchpad" adaAlone "r-ada"
        emptyDesk.leads).1 }
  proc := fun i =>
    ⟨if i = true then { adaCertificate with documentKey := "tin" } else adaCertificate, .start⟩

theorem bothUploads_start : RaceStart twoCertificates "r-ada" bothUploads := by
  obtain ⟨p, hrows, hreg, hstatus⟩ : ∃ p, bothUploads.shared.leads.rows = [p] ∧
      p.2.registrationId = "r-ada" ∧ p.2.eligibilityStatus = .notRequested :=
    ⟨_, rfl, rfl, rfl⟩
  refine ⟨fun _ => rfl, fun i => ?_, fun i => ?_, ?_, ?_, fun q hq _ => ?_⟩
  · cases i <;> rfl
  · cases i <;> decide
  · exact (captured_registration _ _ _ _ _ _).flushed fun q hq => by
      simp [emptyDesk, Table.empty] at hq
  · exact ⟨p, by rw [hrows]; exact List.mem_singleton_self p, hreg⟩
  · rw [hrows, List.mem_singleton] at hq
    rw [hq, hstatus]
    exact Nat.zero_le _

/-- A step of a call that meets no failure. -/
def undisturbed : SubmitTick := ⟨.succeeds, 0⟩

/-- The certificate is stored and listed, and written when the other call has come and gone. -/
def slowRollUp : List (Bool × SubmitTick) :=
  List.replicate 5 (false, undisturbed) ++ List.replicate 7 (true, undisturbed) ++
    List.replicate 2 (false, undisturbed)

/-- The two uploads, with the roll-up of the first before the commit of the second. -/
def promptRollUp : List (Bool × SubmitTick) :=
  List.replicate 6 (false, undisturbed) ++ List.replicate 7 (true, undisturbed) ++
    [(false, undisturbed)]

theorem ended_of_results {c : Config Bool DocumentWorld SubmitCall}
    (h : ∀ i, (c.proc i).phase.result.isSome = true) : Ended c := by
  intro i
  have hresult := h i
  cases hphase : (c.proc i).phase <;> simp_all [SubmitPhase.result]

theorem prompt_uploads_converge : ∃ c',
    exec (fire (submitCallStep true twoCertificates)) promptRollUp bothUploads = some c' ∧
      Converged twoCertificates "r-ada" bothUploads c' := by
  have hquiet : Guarded (fire (submitCallStep true twoCertificates))
      (fun e c => (c.proc e.1).phase.Undisturbed e.2.answer) promptRollUp bothUploads := by
    decide +kernel
  have hdate : Guarded (fire (submitCallStep true twoCertificates))
      (fun e c => (c.proc e.1).phase.UpToDate twoCertificates (c.proc e.1).args c.shared)
      promptRollUp bothUploads := by
    decide +kernel
  have hresults : (exec (fire (submitCallStep true twoCertificates)) promptRollUp bothUploads).any
      (fun c => ∀ i, (c.proc i).phase.result.isSome = true) = true := by
    decide +kernel
  obtain ⟨c', hrun, hended⟩ := (Option.any_eq_true _ _).1 hresults
  exact ⟨c', hrun, (uploads_converge bothUploads_start hquiet hdate hrun).1
    (ended_of_results (of_decide_eq_true hended))⟩

/-- Both documents are in, and Ada is left at pending. -/
theorem slow_rollUp_diverges : ∃ c',
    exec (fire (submitCallStep true twoCertificates)) slowRollUp bothUploads = some c' ∧
      Ended c' ∧ ¬ Converged twoCertificates "r-ada" bothUploads c' := by
  have hresults : (exec (fire (submitCallStep true twoCertificates)) slowRollUp bothUploads).any
      (fun c => (∀ i, (c.proc i).phase.result.isSome = true) ∧
        ∃ p ∈ c.shared.leads.rows, p.2.registrationId = "r-ada" ∧
          p.2.eligibilityStatus ≠ currentStatus twoCertificates "r-ada" c.shared.documents) = true := by
    decide +kernel
  obtain ⟨c', hrun, hfacts⟩ := (Option.any_eq_true _ _).1 hresults
  obtain ⟨hended, p, hp, hreg, hpending⟩ := of_decide_eq_true hfacts
  exact ⟨c', hrun, ended_of_results hended, fun h => hpending (h.statuses p hp hreg)⟩

end SalesTrades.Trade
