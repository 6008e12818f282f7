import SalesTrades.Trade.DocumentCalls
import SalesTrades.Trade.Eligibility

/-!
# Rows and stored objects

Submissions one after another, each of whose effects may fail or find the process dead. A row points
at a stored object in every state exactly when no deletion of a replaced object takes effect
(`rows_point_at_objects_iff`): the deletion comes before the commit of the row that stops pointing at
the object.
-/

set_option autoImplicit false

namespace SalesTrades.Trade

open SalesTrades.Library SalesTrades.Library.Run SalesTrades.Library.Interleaving

universe u

variable {ι : Type u} [DecidableEq ι] {configured : Bool} {program : TradeProgram}
  {args : DocumentArgs} {tick : SubmitTick} {w w' : DocumentWorld} {phase phase' : SubmitPhase}
  {e : ι × SubmitTick} {c c' : Config ι DocumentWorld SubmitCall}

/-- Every row points at a stored object. -/
def Pointed (w : DocumentWorld) : Prop := ∀ d ∈ w.documents.rows, d.2.storageKey ∈ w.storage

/-- A call that has not begun, or has ended. -/
def SubmitPhase.Idle : SubmitPhase → Prop
  | .start | .returned _ _ | .raised _ | .crashed => True
  | _ => False

/-- The calls come one after another: only the call that moves is under way. -/
def InTurn (e : ι × SubmitTick) (c : Config ι DocumentWorld SubmitCall) : Prop :=
  ∀ j, j ≠ e.1 → (c.proc j).phase.Idle

/-- The condition on a step: it does not remove the object of a row that is to be replaced. -/
def SubmitPhase.KeepsObject (answer : Answer) : SubmitPhase → Prop
  | .selected _ (some _) => ¬ answer.Effective
  | _ => True

/-- What a call that is under way knows: its object is stored, and the row it has looked up is the one
in the table; after the deletion, its object is still stored if the old one is. -/
def SubmitPhase.Tracks (program : TradeProgram) (args : DocumentArgs) (w : DocumentWorld) :
    SubmitPhase → Prop
  | .uploaded _ => args.storageKey program ∈ w.storage
  | .selected _ none => args.storageKey program ∈ w.storage
  | .selected _ (some old) => args.storageKey program ∈ w.storage ∧ old ∈ w.documents.rows
  | .cleared _ old => old ∈ w.documents.rows ∧
      (old.2.storageKey ∈ w.storage → args.storageKey program ∈ w.storage)
  | _ => True

theorem SubmitPhase.Idle.tracks (h : phase.Idle) : phase.Tracks program args w := by
  cases phase <;> trivial

/-! ## One step -/

theorem settle_eq {a : Answer} {done : DocumentWorld × SubmitPhase} {failed : SubmitPhase}
    (h : a.settle w done failed = (w', phase')) :
    (a.Effective ∧ w' = done.1 ∧ (phase' = done.2 ∨ phase' = failed)) ∨
      (¬ a.Effective ∧ w' = w ∧ (phase' = failed ∨ phase' = .crashed)) := by
  cases a <;> simp only [Answer.settle, Prod.mk.injEq] at h <;> obtain ⟨rfl, rfl⟩ := h <;>
    simp [Answer.Effective]

/-- A step without an effect on documents and storage. -/
theorem pointed_of_same (hdocuments : w'.documents = w.documents) (hstorage : w.storage ⊆ w'.storage)
    (h : Pointed w) : Pointed w' :=
  fun d hd => hstorage (h d (hdocuments ▸ hd))

/-- The row that a commit leaves points at the object of the call. -/
theorem pointed_commit {existing : Option DocumentRow} {now : Int} {ps : List Participant}
    (hstored : args.storageKey program ∈ w.storage)
    (hold : ∀ old, existing = some old → old ∈ w.documents.rows) (h : Pointed w) :
    Pointed (commitPhase program args now ps existing w).1 := by
  unfold commitPhase
  cases hstore : storeDocument program args now existing w.documents with
  | error e => exact h
  | ok r =>
      obtain ⟨d, t'⟩ := r
      intro q hq
      cases existing with
      | none =>
          obtain ⟨-, hinsert⟩ := createDocument_ok hstore
          rcases (Table.mem_of_insert hinsert).1 hq with hq | rfl
          · exact h q hq
          · exact hstored
      | some old =>
          obtain ⟨current, hcurrent, rfl, hupdate⟩ := updateDocument_ok hstore
          rcases (Table.mem_of_update hupdate).1 hq with ⟨hq, -⟩ | ⟨rfl, -⟩
          · exact h q hq
          · -- nobody has changed the row since it was looked up
            obtain rfl : old.2 = current :=
              congrArg Prod.snd (w.documents.eq_of_id (hold old rfl) hcurrent rfl)
            rw [TradeDocument.write_current_loaded]
            exact hstored

theorem tracks_commitPhase {existing : Option DocumentRow} {now : Int} {ps : List Participant} :
    (commitPhase program args now ps existing w).2.Tracks program args
      (commitPhase program args now ps existing w).1 := by
  unfold commitPhase
  cases storeDocument program args now existing w.documents <;> trivial

/-- An effect that leaves the documents alone and removes no object. -/
theorem settle_pointed {done : DocumentWorld × SubmitPhase} {failed : SubmitPhase}
    (h : tick.answer.settle w done failed = (w', phase'))
    (hdocuments : done.1.documents = w.documents) (hstorage : w.storage ⊆ done.1.storage)
    (hdone : done.2.Tracks program args done.1) (hfailed : failed.Idle) :
    phase'.Tracks program args w' ∧ (Pointed w → Pointed w') := by
  rcases settle_eq h with ⟨-, rfl, rfl | rfl⟩ | ⟨-, rfl, rfl | rfl⟩
  · exact ⟨hdone, pointed_of_same hdocuments hstorage⟩
  · exact ⟨hfailed.tracks, pointed_of_same hdocuments hstorage⟩
  · exact ⟨hfailed.tracks, id⟩
  · exact ⟨trivial, id⟩

/-- The commit of the document's row. -/
theorem settle_commit {existing : Option DocumentRow} {ps : List Participant}
    (hold : ∀ old, existing = some old → old ∈ w.documents.rows)
    (hstored : Pointed w → args.storageKey program ∈ w.storage)
    (h : tick.answer.settle w (commitPhase program args tick.now ps existing w)
      (.raised .connection) = (w', phase')) :
    phase'.Tracks program args w' ∧ (Pointed w → Pointed w') := by
  rcases settle_eq h with ⟨-, rfl, rfl | rfl⟩ | ⟨-, rfl, rfl | rfl⟩
  · exact ⟨tracks_commitPhase, fun hw => pointed_commit (hstored hw) hold hw⟩
  · exact ⟨trivial, fun hw => pointed_commit (hstored hw) hold hw⟩
  · exact ⟨trivial, id⟩
  · exact ⟨trivial, id⟩

/-- The deletion of the object that is replaced. -/
theorem settle_deletion {old : DocumentRow} {ps : List Participant} (hold : old ∈ w.documents.rows)
    (hstored : args.storageKey program ∈ w.storage)
    (h : tick.answer.settle w
      ({ w with storage := w.storage.erase old.2.storageKey }, .cleared ps old) (.cleared ps old) =
        (w', phase')) :
    phase'.Tracks program args w' ∧ (Pointed w → (Pointed w' ↔ ¬ tick.answer.Effective)) := by
  rcases settle_eq h with ⟨heffective, rfl, hphase⟩ | ⟨hnot, rfl, hphase⟩
  · have hgone : old.2.storageKey ∉ w.storage.erase old.2.storageKey := Finset.notMem_erase _ _
    refine ⟨?_, fun _ => iff_of_false (fun hpointed => hgone (hpointed old hold))
      (not_not.2 heffective)⟩
    rcases hphase with rfl | rfl <;> exact ⟨hold, fun hin => absurd hin hgone⟩
  · refine ⟨?_, fun hw => iff_of_true hw hnot⟩
    rcases hphase with rfl | rfl
    · exact ⟨hold, fun _ => hstored⟩
    · trivial

theorem tracks_listPhase : (listPhase program args w).Tracks program args w := by
  unfold listPhase
  split
  · trivial
  · split <;> trivial

section Driver

variable [ColumnDriver]

theorem updatePhase_tracks (program : TradeProgram) (args : DocumentArgs) (now : Int)
    (lead : Participant) (todo : List Participant) (present : Finset String)
    (document : DocumentRow) (w : DocumentWorld) :
    (updatePhase program now lead todo present document w).2.Tracks program args
        (updatePhase program now lead todo present document w).1 ∧
      (updatePhase program now lead todo present document w).1.documents = w.documents ∧
      (updatePhase program now lead todo present document w).1.storage = w.storage := by
  unfold updatePhase
  cases updateLead w.leads lead
      (rolledUp (computeEligibilityStatus present program) now lead.2) with
  | error e => exact ⟨trivial, rfl, rfl⟩
  | ok r => exact ⟨trivial, rfl, rfl⟩

/-- A step keeps what the call knows, and keeps rows at their objects unless it removes one. -/
theorem submitPhaseStep_pointed (htracks : phase.Tracks program args w)
    (hstep : submitPhaseStep configured program args tick w phase = some (w', phase')) :
    phase'.Tracks program args w' ∧
      (Pointed w → (Pointed w' ↔ phase.KeepsObject tick.answer)) := by
  -- every step but the deletion keeps the rows at their objects
  have hquiet : phase'.Tracks program args w' ∧ (Pointed w → Pointed w') →
      phase.KeepsObject tick.answer → phase'.Tracks program args w' ∧
        (Pointed w → (Pointed w' ↔ phase.KeepsObject tick.answer)) :=
    fun h hkeeps => ⟨h.1, fun hw => iff_of_true (h.2 hw) hkeeps⟩
  cases phase with
  | start =>
      exact hquiet (settle_pointed (Option.some.inj hstep) rfl subset_rfl tracks_listPhase trivial)
        trivial
  | listed ps =>
      simp only [submitPhaseStep] at hstep
      split at hstep
      · obtain ⟨rfl, rfl⟩ := Prod.mk.inj (Option.some.inj hstep)
        exact hquiet ⟨trivial, id⟩ trivial
      · exact hquiet (settle_pointed (Option.some.inj hstep) rfl (Finset.subset_insert _ _)
          (Finset.mem_insert_self _ _) trivial) trivial
  | uploaded ps =>
      refine hquiet (settle_pointed (Option.some.inj hstep) rfl subset_rfl ?_ trivial) trivial
      cases hfound : getDocument w.documents args.registrationId args.documentKey with
      | none => exact htracks
      | some old => exact ⟨htracks, (getDocument_eq_some hfound).1⟩
  | selected ps existing =>
      cases existing with
      | none =>
          apply hquiet _ trivial
          apply settle_commit _ (fun _ => htracks) (Option.some.inj hstep)
          intro old hold
          cases hold
      | some old => exact settle_deletion htracks.2 htracks.1 (Option.some.inj hstep)
  | cleared ps old =>
      apply hquiet _ trivial
      apply settle_commit _ _ (Option.some.inj hstep)
      · intro old' hold'
        exact Option.some.inj hold' ▸ htracks.1
      · exact fun hw => htracks.2 (hw old htracks.1)
  | committed ps document =>
      exact hquiet (settle_pointed (Option.some.inj hstep) rfl subset_rfl trivial trivial) trivial
  | updating todo present document =>
      cases todo with
      | nil =>
          obtain ⟨rfl, rfl⟩ := Prod.mk.inj (Option.some.inj hstep)
          exact hquiet ⟨trivial, id⟩ trivial
      | cons lead todo =>
          obtain ⟨hdone, hdocuments, hstorage⟩ :=
            updatePhase_tracks program args tick.now lead todo present document w
          exact hquiet (settle_pointed (Option.some.inj hstep) hdocuments hstorage.ge hdone trivial)
            trivial
  | returned document status => cases hstep
  | raised e => cases hstep
  | crashed => cases hstep

/-! ## Runs -/

/-- Every call knows what it tracks. -/
def CallsTrack (program : TradeProgram) (c : Config ι DocumentWorld SubmitCall) : Prop :=
  ∀ i, (c.proc i).phase.Tracks program (c.proc i).args c.shared

theorem callsTrack_fire (hc : CallsTrack program c) (hturn : InTurn e c)
    (hfire : fire (submitCallStep configured program) e c = some c') :
    CallsTrack program c' ∧ (Pointed c.shared →
      (Pointed c'.shared ↔ (c.proc e.1).phase.KeepsObject e.2.answer)) := by
  obtain ⟨w', call', hstep, rfl⟩ := fire_eq_some.1 hfire
  obtain ⟨hargs, hstep⟩ := submitCallStep_eq_some hstep
  obtain ⟨htracks, hpointed⟩ := submitPhaseStep_pointed (hc e.1) hstep
  refine ⟨fun j => ?_, hpointed⟩
  by_cases hj : j = e.1
  · subst hj
    simpa only [Function.update_self, hargs] using htracks
  · simp only [Function.update_of_ne hj]
    exact (hturn j hj).tracks

/-- **Exactly which runs keep every row at a stored object.** Of all sequences of submissions, with
failures and crashes at any step, those in which no deletion of a replaced object takes effect. -/
theorem rows_point_at_objects_iff {es : List (ι × SubmitTick)} (hpointed : Pointed c.shared)
    (hstart : ∀ i, (c.proc i).phase = .start)
    (hturn : Guarded (fire (submitCallStep configured program)) InTurn es c)
    (hrun : exec (fire (submitCallStep configured program)) es c = some c') :
    Always (fire (submitCallStep configured program)) (fun c => Pointed c.shared) es c ↔
      Guarded (fire (submitCallStep configured program))
        (fun e c => (c.proc e.1).phase.KeepsObject e.2.answer) es c := by
  have htracks : CallsTrack program c := by
    intro i
    rw [hstart i]
    trivial
  apply always_iff_guarded_of_exact _ _ htracks hpointed hturn hrun
  · exact fun e c c' hc hturn hfire => (callsTrack_fire hc hturn hfire).1
  · exact fun e c c' hc hpointed hturn hfire => (callsTrack_fire hc hturn hfire).2 hpointed

end Driver

attribute [local instance] plainDriver

/-- Ada replaces her certificate. -/
def newCertificate : DocumentArgs := { adaCertificate with suffix := "5eed5eed" }

/-- Her first certificate is stored, and one call to replace it is about to begin. -/
def aboutToReplace : Config Unit DocumentWorld SubmitCall :=
  ⟨afterUpload, fun _ => ⟨newCertificate, .start⟩⟩

theorem pointed_afterUpload : Pointed afterUpload := by
  intro d hd
  have hrows : afterUpload.documents.rows = [(1, newDocument launchpad adaCertificate 0)] := rfl
  rw [hrows, List.mem_singleton] at hd
  rw [hd]
  exact Finset.mem_insert_self _ _

/-- The replacement with a deletion that fails, up to the commit of the row. -/
theorem failed_deletion_keeps_object :
    Always (fire (submitCallStep true launchpad)) (fun c => Pointed c.shared)
      [((), ⟨.succeeds, 1⟩), ((), ⟨.succeeds, 1⟩), ((), ⟨.succeeds, 1⟩), ((), ⟨.fails, 1⟩),
        ((), ⟨.succeeds, 1⟩)] aboutToReplace := by
  apply (rows_point_at_objects_iff pointed_afterUpload (fun _ => rfl)
    ((guarded_of_forall (G := fun _ => True) (fun _ _ => trivial) _).mono
      fun _ _ _ j hj => absurd rfl hj) rfl).2
  refine ⟨trivial, fun _ h₁ => ?_⟩
  obtain rfl := Option.some.inj h₁
  refine ⟨trivial, fun _ h₂ => ?_⟩
  obtain rfl := Option.some.inj h₂
  refine ⟨trivial, fun _ h₃ => ?_⟩
  obtain rfl := Option.some.inj h₃
  have hfails : ¬ Answer.fails.Effective := by decide
  refine ⟨hfails, fun _ h₄ => ?_⟩
  obtain rfl := Option.some.inj h₄
  exact ⟨trivial, fun _ _ => trivial⟩

/-- The deletion takes effect, and whatever comes next, the row points at nothing. -/
theorem replaced_object_missing :
    ¬ Always (fire (submitCallStep true launchpad)) (fun c => Pointed c.shared)
      [((), ⟨.succeeds, 1⟩), ((), ⟨.succeeds, 1⟩), ((), ⟨.succeeds, 1⟩), ((), ⟨.succeeds, 1⟩),
        ((), ⟨.crashes, 1⟩)] aboutToReplace := by
  intro h
  have hpointed := ((((h.2 _ rfl).2 _ rfl).2 _ rfl).2 _ rfl).1
  have hmissing := hpointed (1, newDocument launchpad adaCertificate 0) (List.mem_singleton_self _)
  exact Finset.notMem_erase _ _ hmissing

end SalesTrades.Trade
