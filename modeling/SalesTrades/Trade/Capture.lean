import SalesTrades.Library.Interleaving
import SalesTrades.Trade.Model

/-!
# Registration capture

`capture_registration` in two forms. `captureRegistration` is the call run on its own, in the order
of the source. `CapturePhase` and `captureStep` are the same call one database statement at a time,
for interleavings; a call that runs alone takes at most four steps and ends with what
`captureInProgram` returns (`captureStep_alone`).
-/

set_option autoImplicit false

namespace SalesTrades.Trade

open SalesTrades.Library

/-- The domain errors of capture with their texts, and what else leaves it. -/
inductive CaptureError where
  | programNotFound (detail : String)
  | programInactive (detail : String)
  | python (e : PyError)

def sharedFieldsFromResponses (responses : List (String × Json)) (k : SharedKey) : Json :=
  Json.member responses k.name

/-- `identity_kwargs` of the second participant. -/
structure SecondKwargs where
  firstName : String
  lastName : String
  email : String
  phone : Json
  jobTitle : Json
  responses : Json

/-- `(value or "").strip()`: a true value that is not a string has no `strip`. -/
def stripOrEmpty (v : Json) : Except PyError String :=
  match v.orElse (.str "") with
  | .str s => .ok (strip s)
  | _ => .error .attributeError

/-- The second participant's identity, `none` when there is no usable one, and the warning about an
email that is the primary's. -/
def secondParticipantFromResponses (py : LowerCase) (responses : List (String × Json))
    (primaryEmail : String) : Except PyError (Option SecondKwargs × Option String) :=
  match (Json.member responses "second_participant").orElse (.obj []) with
  | .obj second => do
      let firstName ← stripOrEmpty (Json.member second "first_name")
      let lastName ← stripOrEmpty (Json.member second "last_name")
      -- a second participant without a name is none
      if firstName = "" ∧ lastName = "" then return (none, none)
      let given := py.lower (← stripOrEmpty (Json.member second "email"))
      -- the address of the primary would violate the unique index, so it is dropped
      let collides := given ≠ "" ∧ given = primaryEmail
      let warning := if collides then
        some s!"2nd participant email '{given}' matches the primary's — dropped" else none
      let email := if collides then "" else given
      return (some
        { firstName := if firstName = "" then "—" else firstName
          lastName := if lastName = "" then "—" else lastName
          email := email
          phone := (Json.member second "phone").orElse .null
          jobTitle := Json.member second "job_title"
          responses := .obj second }, warning)
  | _ => .error .attributeError

/-- `_apply_payload`. -/
def applyPayload (lead : TradeLead) (program : TradeProgram) (payload : Registration) :
    TradeLead :=
  { lead with
    tradeProgramId := program.id
    firstName := payload.firstName
    lastName := payload.lastName
    phone := Json.ofOption payload.phone
    jobTitle := Json.ofOption payload.jobTitle
    company := payload.company
    source := payload.source
    capturedAt := payload.capturedAt
    responses := .obj payload.responses
    tags := some program.config.baseTags
    shared := sharedFieldsFromResponses payload.responses }

/-- The new primary instance, before `_apply_payload`. -/
def newPrimary (program : TradeProgram) (uuid email : String) : TradeLead where
  tradeProgramId := program.id
  registrationId := uuid
  participantIndex := 1
  isPrimary := true
  firstName := ""
  lastName := ""
  email := email
  phone := .null
  jobTitle := .null
  company := none
  shared := fun _ => .null
  source := "form"
  tags := none
  capturedAt := none
  responses := .obj []
  crmSyncStatus := .pending
  crmSyncedAt := none
  crmContactId := none
  crmError := none
  eligibilityStatus := .notRequested
  eligibilitySubmittedAt := none
  reviewStatus := .pending
  reviewedAt := none
  reviewedBy := none

/-- `second_tags`. -/
def secondTags (primary : TradeLead) : Option (List String) :=
  some ((primary.tags.getD []) ++ ["Second Participant"])

/-- What the second participant's row takes from the submission, on creation and on a merge. -/
def applySecond (lead : TradeLead) (primary : TradeLead) (payload : Registration)
    (kwargs : SecondKwargs) : TradeLead :=
  { lead with
    firstName := kwargs.firstName
    lastName := kwargs.lastName
    email := kwargs.email
    phone := kwargs.phone
    jobTitle := kwargs.jobTitle
    responses := kwargs.responses
    shared := sharedFieldsFromResponses payload.responses
    company := payload.company
    tags := secondTags primary }

/-- The new second instance, before its identity and the shared fields. -/
def newSecond (program : TradeProgram) (primary : TradeLead) (payload : Registration) :
    TradeLead :=
  { newPrimary program primary.registrationId "" with
    participantIndex := 2
    isPrimary := false
    source := payload.source }

/-- The database stores the source of the submission, and the driver can send its time as UTC. -/
def Registration.isStorable (payload : Registration) : Bool :=
  isText payload.source && payload.capturedAt.all fun dt => InCalendar dt.instant

section Statements

variable [ColumnDriver]

/-- INSERT when the dedup lookup found nothing, UPDATE otherwise. -/
def writePrimary (program : TradeProgram) (payload : Registration) (email uuid : String)
    (existing : Option Participant) (t : TradeLeads) :
    Except PyError (Participant × TradeLeads) :=
  match existing with
  | none => createLead t (applyPayload (newPrimary program uuid email) program payload)
  | some loaded => updateLead t loaded (applyPayload loaded.2 program payload)

/-- The write of the primary row. No later statement sends a source or a time that this one has not
sent. -/
def storePrimary (program : TradeProgram) (payload : Registration) (email uuid : String)
    (existing : Option Participant) (t : TradeLeads) :
    Except PyError (Participant × TradeLeads) :=
  if payload.isStorable = true then writePrimary program payload email uuid existing t
  else .error .dataError

theorem storePrimary_eq_ok {program : TradeProgram} {payload : Registration} {email uuid : String}
    {existing : Option Participant} {t : TradeLeads} {r : Participant × TradeLeads} :
    storePrimary program payload email uuid existing t = .ok r ↔
      payload.isStorable = true ∧ writePrimary program payload email uuid existing t = .ok r := by
  unfold storePrimary
  by_cases h : payload.isStorable = true
  · simp [h]
  · simp [h]

/-- The registration's second participant. A row the session already holds, here `primary`, comes
back as the instance it holds. -/
def findSecond (t : TradeLeads) (primary : Participant) : Option Participant :=
  ((listByRegistration t primary.2.registrationId).find? fun s => !s.2.isPrimary).map fun s =>
    if s.1 = primary.1 then primary else s

/-- The write of the second participant's row. -/
def storeSecond (program : TradeProgram) (payload : Registration) (primary : Participant)
    (kwargs : SecondKwargs) (found : Option Participant) (t : TradeLeads) :
    Except PyError (Participant × TradeLeads) :=
  match found with
  | none =>
      createLead t (applySecond (newSecond program primary.2 payload) primary.2 payload kwargs)
  | some loaded => updateLead t loaded (applySecond loaded.2 primary.2 payload kwargs)

/-- What leaves the `try` around the primary's write. The handler for an `IntegrityError` rolls back,
which expires `program`, and then reads `program.id`. -/
def primaryError : PyError → PyError
  | .integrityError => .missingGreenlet
  | e => e

/-- `capture_registration` from the dedup lookup on; `uuid` is the identifier it generates. -/
def captureInProgram (py : LowerCase) (program : TradeProgram) (payload : Registration)
    (uuid : String) (t : TradeLeads) :
    TradeLeads × Except PyError (List Participant × Bool) :=
  let email := normaliseEmail py payload.email
  let existing := getByProgramEmail t program.id email
  match storePrimary program payload email uuid existing t with
  | .error e => (t, .error (primaryError e))
  | .ok (primary, t₁) =>
      -- the primary is committed by now, and stays whatever happens to the second participant
      match secondParticipantFromResponses py payload.responses email with
      | .error e => (t₁, .error e)
      | .ok (none, _) => (t₁, .ok ([primary], existing.isNone))
      | .ok (some kwargs, _) =>
          match storeSecond program payload primary kwargs (findSecond t₁ primary) t₁ with
          | .error e => (t₁, .error e)
          | .ok (second, t₂) => (t₂, .ok ([primary, second], existing.isNone))

/-- `capture_registration`, run on its own. -/
def captureRegistration (py : LowerCase) (programs : List TradeProgram) (slug : String)
    (payload : Registration) (uuid : String) (t : TradeLeads) :
    TradeLeads × Except CaptureError (TradeProgram × List Participant × Bool) :=
  match getProgramBySlug programs slug with
  | none => (t, .error (.programNotFound s!"no trade program with slug {slug}"))
  | some program =>
      if program.status ≠ .active then
        (t, .error (.programInactive s!"program {slug} is not accepting registrations"))
      else
        match captureInProgram py program payload uuid t with
        | (t', .error e) => (t', .error (.python e))
        | (t', .ok (participants, created)) => (t', .ok (program, participants, created))

/-! ## One statement at a time -/

/-- Where a call stands: before the dedup lookup, after it, after the primary's commit, after the
sibling lookup, returned, or raised. -/
inductive CapturePhase where
  | start
  | selected (existing : Option Participant)
  | stored (primary : Participant) (created : Bool)
  | siblings (primary : Participant) (created : Bool) (kwargs : SecondKwargs)
      (found : Option Participant)
  | returned (participants : List Participant) (created : Bool)
  | raised (e : PyError)

/-- A call with the identifier it generates for a new registration. -/
structure CaptureCall where
  uuid : String
  phase : CapturePhase

/-- The next statement of a call; a call that has returned or raised takes none. -/
def capturePhaseStep (py : LowerCase) (program : TradeProgram) (payload : Registration)
    (uuid : String) (t : TradeLeads) : CapturePhase → Option (TradeLeads × CapturePhase)
  | .start =>
      some (t, .selected (getByProgramEmail t program.id (normaliseEmail py payload.email)))
  -- the new instance is built from the payload, the loaded one gets it merged
  | .selected existing =>
      match storePrimary program payload (normaliseEmail py payload.email) uuid existing t with
      | .error e => some (t, .raised (primaryError e))
      | .ok (primary, t') => some (t', .stored primary existing.isNone)
  | .stored primary created =>
      match secondParticipantFromResponses py payload.responses
          (normaliseEmail py payload.email) with
      | .error e => some (t, .raised e)
      | .ok (none, _) => some (t, .returned [primary] created)
      | .ok (some kwargs, _) => some (t, .siblings primary created kwargs (findSecond t primary))
  | .siblings primary created kwargs found =>
      match storeSecond program payload primary kwargs found t with
      | .error e => some (t, .raised e)
      | .ok (second, t') => some (t', .returned [primary, second] created)
  | .returned _ _ => none
  | .raised _ => none

/-- `capturePhaseStep` on calls; a step reads nothing from outside. -/
def captureStep (py : LowerCase) (program : TradeProgram) (payload : Registration) (_ : Unit)
    (t : TradeLeads) (call : CaptureCall) : Option (TradeLeads × CaptureCall) :=
  (capturePhaseStep py program payload call.uuid t call.phase).map fun r =>
    (r.1, { call with phase := r.2 })

/-- How a call ended. -/
def CapturePhase.result : CapturePhase → Option (Except PyError (List Participant × Bool))
  | .returned participants created => some (.ok (participants, created))
  | .raised e => some (.error e)
  | _ => none

/-- The statements a call still has to run, at most. -/
def CapturePhase.rank : CapturePhase → Nat
  | .start => 4
  | .selected _ => 3
  | .stored _ _ => 2
  | .siblings _ _ _ _ => 1
  | .returned _ _ => 0
  | .raised _ => 0

/-- A call can take a step until it has ended. -/
theorem capturePhaseStep_isSome_iff {py : LowerCase} {program : TradeProgram}
    {payload : Registration} {uuid : String} {t : TradeLeads} {p : CapturePhase} :
    (capturePhaseStep py program payload uuid t p).isSome = true ↔ p.result = none := by
  cases p with
  | start => simp [capturePhaseStep, CapturePhase.result]
  | selected existing =>
      simp only [capturePhaseStep, CapturePhase.result]
      split <;> simp
  | stored primary created =>
      simp only [capturePhaseStep, CapturePhase.result]
      split <;> simp
  | siblings primary created kwargs found =>
      simp only [capturePhaseStep, CapturePhase.result]
      split <;> simp
  | returned participants created => simp [capturePhaseStep, CapturePhase.result]
  | raised e => simp [capturePhaseStep, CapturePhase.result]

/-- Every step brings the call nearer to its end. -/
theorem capturePhaseStep_rank {py : LowerCase} {program : TradeProgram} {payload : Registration}
    {uuid : String} {t t' : TradeLeads} {p p' : CapturePhase}
    (h : capturePhaseStep py program payload uuid t p = some (t', p')) : p'.rank < p.rank := by
  cases p with
  | start =>
      simp only [capturePhaseStep, Option.some.injEq, Prod.mk.injEq] at h
      simp [← h.2, CapturePhase.rank]
  | selected existing =>
      simp only [capturePhaseStep] at h
      split at h <;> simp only [Option.some.injEq, Prod.mk.injEq] at h <;>
        simp [← h.2, CapturePhase.rank]
  | stored primary created =>
      simp only [capturePhaseStep] at h
      split at h <;> simp only [Option.some.injEq, Prod.mk.injEq] at h <;>
        simp [← h.2, CapturePhase.rank]
  | siblings primary created kwargs found =>
      simp only [capturePhaseStep] at h
      split at h <;> simp only [Option.some.injEq, Prod.mk.injEq] at h <;>
        simp [← h.2, CapturePhase.rank]
  | returned participants created => simp [capturePhaseStep] at h
  | raised e => simp [capturePhaseStep] at h

/-- The call run on its own is the call run step by step without interruption. -/
theorem captureStep_alone (py : LowerCase) (program : TradeProgram) (payload : Registration)
    (uuid : String) (t : TradeLeads) :
    ∃ p, Interleaving.solo (capturePhaseStep py program payload uuid) 4 t .start =
        ((captureInProgram py program payload uuid t).1, p) ∧
      p.result = some (captureInProgram py program payload uuid t).2 := by
  simp only [Interleaving.solo, capturePhaseStep, captureInProgram]
  cases hprimary : storePrimary program payload (normaliseEmail py payload.email) uuid
      (getByProgramEmail t program.id (normaliseEmail py payload.email)) t with
  | error e => exact ⟨_, rfl, rfl⟩
  | ok r =>
      obtain ⟨primary, t₁⟩ := r
      simp only
      cases hsecond : secondParticipantFromResponses py payload.responses
          (normaliseEmail py payload.email) with
      | error e => exact ⟨_, rfl, rfl⟩
      | ok w =>
          obtain ⟨kwargs, warning⟩ := w
          cases kwargs with
          | none => exact ⟨_, rfl, rfl⟩
          | some kwargs =>
              simp only
              cases hstore : storeSecond program payload primary kwargs (findSecond t₁ primary)
                  t₁ with
              | error e => exact ⟨_, rfl, rfl⟩
              | ok w => exact ⟨_, rfl, rfl⟩

end Statements

end SalesTrades.Trade
