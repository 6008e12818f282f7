import SalesTrades.Library.Interleaving
import SalesTrades.Trade.Documents

/-!
# Submitting a document, one effect at a time

`submit_document` as a process over the tables and the storage. Every statement and every request to
the storage is a step of its own, which may fail, lose its answer after it has taken effect, or find
the process dead. A call that runs alone and meets no failure takes the steps of `submitDocument`
(`submit_alone`).
-/

set_option autoImplicit false

namespace SalesTrades.Trade

open SalesTrades.Library SalesTrades.Library.Run SalesTrades.Library.Interleaving

variable {configured : Bool} {program : TradeProgram}

/-- How an effect ends: it happens and is answered, it does not happen and raises, it happens and
raises, or the process dies before it. -/
inductive Answer where
  | succeeds
  | fails
  | lost
  | crashes
  deriving DecidableEq

/-- The effect has happened. -/
def Answer.Effective (a : Answer) : Prop := a = .succeeds ∨ a = .lost

instance (a : Answer) : Decidable a.Effective := inferInstanceAs (Decidable (_ ∨ _))

/-- What a step meets outside. -/
structure SubmitTick where
  answer : Answer
  now : Int
  deriving DecidableEq

/-- Where a call stands, with its local variables. -/
inductive SubmitPhase where
  | start
  /-- The participants are loaded. -/
  | listed (participants : List Participant)
  | uploaded (participants : List Participant)
  /-- The existing row is looked up. -/
  | selected (participants : List Participant) (existing : Option DocumentRow)
  /-- The deletion of the old object has been requested. -/
  | cleared (participants : List Participant) (existing : DocumentRow)
  | committed (participants : List Participant) (document : DocumentRow)
  /-- The documents are listed; these participants are still to be written. -/
  | updating (todo : List Participant) (present : Finset String) (document : DocumentRow)
  | returned (document : DocumentRow) (status : EligibilityStatus)
  | raised (e : SubmitError)
  | crashed

/-- A call with its arguments. -/
structure SubmitCall where
  args : DocumentArgs
  phase : SubmitPhase

/-- The outcome of an effect that leads to `done`, and to `failed` when it raises. -/
def Answer.settle (a : Answer) (w : DocumentWorld) (done : DocumentWorld × SubmitPhase)
    (failed : SubmitPhase) : DocumentWorld × SubmitPhase :=
  match a with
  | .succeeds => done
  | .fails => (w, failed)
  | .lost => (done.1, failed)
  | .crashes => (w, .crashed)

/-- The check of the key, and the query of the participants. -/
def listPhase (program : TradeProgram) (args : DocumentArgs) (w : DocumentWorld) : SubmitPhase :=
  if args.documentKey ∉ documentKeys program then
    .raised (.unknownDocumentKey
      s!"'{args.documentKey}' is not a required document for {program.slug}")
  else
    match listByRegistration w.leads args.registrationId with
    | [] => .raised (.registrationNotFound s!"no registration '{args.registrationId}'")
    | lead :: leads => .listed (lead :: leads)

/-- The commit of the document's row. -/
def commitPhase (program : TradeProgram) (args : DocumentArgs) (now : Int)
    (participants : List Participant) (existing : Option DocumentRow) (w : DocumentWorld) :
    DocumentWorld × SubmitPhase :=
  match storeDocument program args now existing w.documents with
  | .error e => (w, .raised (.python e))
  | .ok (document, documents) => ({ w with documents := documents }, .committed participants document)

variable [ColumnDriver]

/-- The commit of one participant's status. -/
def updatePhase (program : TradeProgram) (now : Int) (lead : Participant) (todo : List Participant)
    (present : Finset String) (document : DocumentRow) (w : DocumentWorld) :
    DocumentWorld × SubmitPhase :=
  match updateLead w.leads lead
      (rolledUp (computeEligibilityStatus present program) now lead.2) with
  | .error e => (w, .raised (.python e))
  | .ok (_, leads) => ({ w with leads := leads }, .updating todo present document)

/-- The next step of a call; one that has returned, raised or died takes none. -/
def submitPhaseStep (configured : Bool) (program : TradeProgram) (args : DocumentArgs)
    (tick : SubmitTick) (w : DocumentWorld) :
    SubmitPhase → Option (DocumentWorld × SubmitPhase)
  | .start => some (tick.answer.settle w (w, listPhase program args w) (.raised .connection))
  | .listed ps =>
      if configured = false then
        some (w, .raised (.storageNotConfigured "Supabase S3 credentials are not configured"))
      else
        some (tick.answer.settle w
          ({ w with storage := insert (args.storageKey program) w.storage }, .uploaded ps)
          (.raised .storage))
  | .uploaded ps =>
      some (tick.answer.settle w
        (w, .selected ps (getDocument w.documents args.registrationId args.documentKey))
        (.raised .connection))
  | .selected ps none =>
      some (tick.answer.settle w (commitPhase program args tick.now ps none w)
        (.raised .connection))
  -- `delete_document` swallows its exceptions
  | .selected ps (some old) =>
      some (tick.answer.settle w
        ({ w with storage := w.storage.erase old.2.storageKey }, .cleared ps old) (.cleared ps old))
  | .cleared ps old =>
      some (tick.answer.settle w (commitPhase program args tick.now ps (some old) w)
        (.raised .connection))
  | .committed ps document =>
      some (tick.answer.settle w
        (w, .updating ps (presentKeys w.documents args.registrationId) document)
        (.raised .connection))
  | .updating [] present document =>
      some (w, .returned document (computeEligibilityStatus present program))
  | .updating (lead :: todo) present document =>
      some (tick.answer.settle w (updatePhase program tick.now lead todo present document w)
        (.raised .connection))
  | .returned _ _ => none
  | .raised _ => none
  | .crashed => none

/-- `submitPhaseStep` on calls. -/
def submitCallStep (configured : Bool) (program : TradeProgram) (tick : SubmitTick)
    (w : DocumentWorld) (call : SubmitCall) : Option (DocumentWorld × SubmitCall) :=
  (submitPhaseStep configured program call.args tick w call.phase).map fun r =>
    (r.1, { call with phase := r.2 })

theorem submitCallStep_eq_some {tick : SubmitTick} {w w' : DocumentWorld} {call call' : SubmitCall}
    (h : submitCallStep configured program tick w call = some (w', call')) :
    call'.args = call.args ∧
      submitPhaseStep configured program call.args tick w call.phase = some (w', call'.phase) := by
  obtain ⟨r, hr, heq⟩ := Option.map_eq_some_iff.1 h
  obtain ⟨rfl, rfl⟩ := Prod.mk.inj heq
  exact ⟨rfl, hr⟩

/-! ## A call that runs alone -/

/-- How a call ended. -/
def SubmitPhase.result :
    SubmitPhase → Option (Except SubmitError (DocumentRow × EligibilityStatus))
  | .returned document status => some (.ok (document, status))
  | .raised e => some (.error e)
  | _ => none

/-- The call without failures, as a step on the tables and the phase. -/
def aloneSubmit (configured : Bool) (program : TradeProgram) (args : DocumentArgs)
    (tick : SubmitTick) (s : DocumentWorld × SubmitPhase) : Option (DocumentWorld × SubmitPhase) :=
  submitPhaseStep configured program args tick s.1 s.2

/-- The loop over the participants, step by step. -/
theorem rollUp_alone {args : DocumentArgs} (now : Int) (present : Finset String)
    (document : DocumentRow) (ps : List Participant) (w : DocumentWorld) :
    ∃ ticks p, exec (aloneSubmit configured program args) ticks
        (w, .updating ps present document) =
        some ({ w with
          leads := (rollUp (computeEligibilityStatus present program) now ps w.leads).1 }, p) ∧
      p.result = some (match (rollUp (computeEligibilityStatus present program) now ps w.leads).2 with
        | .ok () => .ok (document, computeEligibilityStatus present program)
        | .error e => .error (.python e)) := by
  induction ps generalizing w with
  | nil => exact ⟨[⟨.succeeds, now⟩], _, rfl, rfl⟩
  | cons lead ps ih =>
      cases hcall : updateLead w.leads lead
          (rolledUp (computeEligibilityStatus present program) now lead.2) with
      | error e =>
          refine ⟨[⟨.succeeds, now⟩], .raised (.python e), ?_, ?_⟩
          · simp [exec, aloneSubmit, submitPhaseStep, Answer.settle, updatePhase, hcall, rollUp]
          · simp [SubmitPhase.result, rollUp, hcall]
      | ok r =>
          obtain ⟨lead', leads⟩ := r
          obtain ⟨ticks, p, hrun, hresult⟩ := ih { w with leads := leads }
          refine ⟨⟨.succeeds, now⟩ :: ticks, p, ?_, ?_⟩
          · simp only [exec, aloneSubmit, submitPhaseStep, Answer.settle, updatePhase, hcall,
              Option.bind_some, rollUp]
            exact hrun
          · simp only [rollUp, hcall]
            exact hresult

/-- From the lookup of the existing row on. -/
theorem store_alone (configured : Bool) (program : TradeProgram) (args : DocumentArgs) (o : SubmitOutside)
    (ps : List Participant) (w : DocumentWorld) :
    ∃ ticks, exec (aloneSubmit configured program args) ticks
        ({ w with storage := insert (args.storageKey program) w.storage }, .uploaded ps) =
      some (commitPhase program args o.now ps
        (getDocument w.documents args.registrationId args.documentKey)
        { w with
          storage := replaceObject w.storage (args.storageKey program)
            (getDocument w.documents args.registrationId args.documentKey) o.deletes }) := by
  cases hfound : getDocument w.documents args.registrationId args.documentKey with
  | none =>
      refine ⟨[⟨.succeeds, o.now⟩, ⟨.succeeds, o.now⟩], ?_⟩
      simp [exec, aloneSubmit, submitPhaseStep, Answer.settle, hfound, replaceObject]
  | some old =>
      -- the deletion goes through or fails, and the call goes on
      refine ⟨[⟨.succeeds, o.now⟩, ⟨if o.deletes = true then .succeeds else .fails, o.now⟩,
        ⟨.succeeds, o.now⟩], ?_⟩
      cases hdeletes : o.deletes <;>
        simp [exec, aloneSubmit, submitPhaseStep, Answer.settle, hfound, replaceObject]

/-- A call that has stored its document ends with the roll-up. -/
theorem submitDocument_stored {program : TradeProgram} {args : DocumentArgs} {o : SubmitOutside}
    {lead : Participant} {ps : List Participant} {w : DocumentWorld} {document : DocumentRow}
    {documents : TradeDocuments} (hkey : args.documentKey ∈ documentKeys program)
    (hlist : listByRegistration w.leads args.registrationId = lead :: ps) (huploads : o.uploads = true)
    (hstore : storeDocument program args o.now
      (getDocument w.documents args.registrationId args.documentKey) w.documents =
        .ok (document, documents)) :
    submitDocument true program args o w =
      (⟨(rollUp (computeEligibilityStatus (presentKeys documents args.registrationId) program) o.now
          (lead :: ps) w.leads).1, documents,
        replaceObject w.storage (args.storageKey program)
          (getDocument w.documents args.registrationId args.documentKey) o.deletes⟩,
        match (rollUp (computeEligibilityStatus (presentKeys documents args.registrationId) program)
          o.now (lead :: ps) w.leads).2 with
        | .ok () => .ok (document,
            computeEligibilityStatus (presentKeys documents args.registrationId) program)
        | .error e => .error (.python e)) := by
  simp only [submitDocument, hkey, not_true_eq_false, if_false, hlist, huploads, Bool.true_eq_false,
    hstore]
  generalize rollUp (computeEligibilityStatus (presentKeys documents args.registrationId) program)
    o.now (lead :: ps) w.leads = r
  obtain ⟨t, r⟩ := r
  cases r <;> rfl

/-- From the upload on. -/
theorem listed_alone (configured : Bool) (program : TradeProgram) (args : DocumentArgs) (o : SubmitOutside)
    {lead : Participant} {ps : List Participant} {w : DocumentWorld}
    (hkey : args.documentKey ∈ documentKeys program)
    (hlist : listByRegistration w.leads args.registrationId = lead :: ps) :
    ∃ ticks p, exec (aloneSubmit configured program args) ticks (w, .listed (lead :: ps)) =
        some ((submitDocument configured program args o w).1, p) ∧
      p.result = some (submitDocument configured program args o w).2 := by
  cases configured with
  | false =>
      refine ⟨[⟨.succeeds, o.now⟩],
        .raised (.storageNotConfigured "Supabase S3 credentials are not configured"), ?_, ?_⟩
      · simp [exec, aloneSubmit, submitPhaseStep, submitDocument, hkey, hlist]
      · simp [submitDocument, hkey, hlist, SubmitPhase.result]
  | true =>
      cases huploads : o.uploads with
      | false =>
          refine ⟨[⟨.fails, o.now⟩], .raised .storage, ?_, ?_⟩
          · simp [exec, aloneSubmit, submitPhaseStep, Answer.settle, submitDocument, hkey, hlist,
              huploads]
          · simp [submitDocument, hkey, hlist, huploads, SubmitPhase.result]
      | true =>
          have hupload : exec (aloneSubmit true program args) [⟨.succeeds, o.now⟩]
              (w, .listed (lead :: ps)) = some
                ({ w with storage := insert (args.storageKey program) w.storage },
                  .uploaded (lead :: ps)) := rfl
          obtain ⟨ticks, hstored⟩ := store_alone true program args o (lead :: ps) w
          cases hstore : storeDocument program args o.now
              (getDocument w.documents args.registrationId args.documentKey) w.documents with
          | error e =>
              simp only [commitPhase, hstore] at hstored
              refine ⟨[⟨.succeeds, o.now⟩] ++ ticks, .raised (.python e), ?_, ?_⟩
              · rw [exec_append, hupload, Option.bind_some, hstored]
                simp [submitDocument, hkey, hlist, huploads, hstore]
              · simp [submitDocument, hkey, hlist, huploads, hstore, SubmitPhase.result]
          | ok r =>
              obtain ⟨document, documents⟩ := r
              simp only [commitPhase, hstore] at hstored
              obtain ⟨loop, p, hloop, hresult⟩ := rollUp_alone o.now
                (presentKeys documents args.registrationId) document (lead :: ps)
                ⟨w.leads, documents, replaceObject w.storage (args.storageKey program)
                  (getDocument w.documents args.registrationId args.documentKey) o.deletes⟩
              have hcall := submitDocument_stored hkey hlist huploads hstore
              refine ⟨[⟨.succeeds, o.now⟩] ++ (ticks ++ ⟨.succeeds, o.now⟩ :: loop), p, ?_, ?_⟩
              · rw [exec_append, hupload, Option.bind_some, exec_append, hstored, Option.bind_some,
                  hcall]
                exact hloop
              · rw [hcall]
                exact hresult

/-- **The call run on its own is the call run step by step**, when only the storage may fail. -/
theorem submit_alone (configured : Bool) (program : TradeProgram) (args : DocumentArgs)
    (o : SubmitOutside) (w : DocumentWorld) :
    ∃ ticks p, exec (aloneSubmit configured program args) ticks (w, .start) =
        some ((submitDocument configured program args o w).1, p) ∧
      p.result = some (submitDocument configured program args o w).2 := by
  have hfirst : exec (aloneSubmit configured program args) [⟨.succeeds, o.now⟩] (w, .start) =
      some (w, listPhase program args w) := rfl
  by_cases hkey : args.documentKey ∈ documentKeys program
  · cases hlist : listByRegistration w.leads args.registrationId with
    | nil =>
        refine ⟨[⟨.succeeds, o.now⟩], listPhase program args w, ?_, ?_⟩
        · rw [hfirst]
          simp [submitDocument, hkey, hlist]
        · simp [submitDocument, listPhase, hkey, hlist, SubmitPhase.result]
    | cons lead ps =>
        obtain ⟨ticks, p, hrun, hresult⟩ := listed_alone configured program args o hkey hlist
        refine ⟨[⟨.succeeds, o.now⟩] ++ ticks, p, ?_, hresult⟩
        have hlisted : listPhase program args w = .listed (lead :: ps) := by
          simp [listPhase, hkey, hlist]
        rw [exec_append, hfirst, Option.bind_some, hlisted, hrun]
  · refine ⟨[⟨.succeeds, o.now⟩], listPhase program args w, ?_, ?_⟩
    · rw [hfirst]
      simp [submitDocument, hkey]
    · simp [submitDocument, listPhase, hkey, SubmitPhase.result]

end SalesTrades.Trade
