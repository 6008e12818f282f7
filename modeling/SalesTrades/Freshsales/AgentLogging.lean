import SalesTrades.Deals.ReferenceSync
import SalesTrades.Library.Retry

/-!
# The logging agent

`log_activity` resolves a deal, checks its pipeline and posts a note and a task. `FreshsalesClient.post`
makes up to four attempts, and an attempt can be carried out by the CRM whatever is answered. The calls
that leave more than one note or task are exactly those for which two attempts of one post are carried
out (`written_once_iff`).
-/

set_option autoImplicit false

namespace SalesTrades.Freshsales

open SalesTrades.Library.Retry SalesTrades.Deals

/-! ## The client -/

/-- A `float`. -/
inductive FloatValue where
  | finite (q : ℚ)
  | inf
  | negInf
  | nan

/-- `retry_after <= _MAX_RETRY_AFTER_SECONDS`. -/
def FloatValue.withinMax : FloatValue → Bool
  | .finite q => decide (q ≤ 30)
  | .negInf => true
  | .inf | .nan => false

/-- The library functions of the client and the agent. -/
structure AgentLib where
  py : LowerCase
  /-- `float(raw)`; `none` is a `ValueError`. -/
  floatOfText : String → Option FloatValue
  /-- `str(value)`. -/
  str : Json → String
  /-- `datetime.fromisoformat`; `none` is a `ValueError`. -/
  fromIsoformat : String → Option Datetime
  /-- `d.replace(tzinfo=_LAGOS)`. -/
  inLagos : Datetime → Datetime
  /-- Tomorrow at 17:00 in Lagos. -/
  tomorrow : Datetime → Datetime
  isoformat : Datetime → String

/-- `response.json()` is `none` when the body is no JSON. -/
structure HttpResponse where
  statusCode : ℕ
  retryAfter : Option String
  json : Option Json

inductive ClientError where
  /-- `httpx.HTTPStatusError`. -/
  | status (response : HttpResponse)
  /-- `httpx.TransportError`. -/
  | transport
  /-- Any other error of the request. -/
  | request
  /-- `json.JSONDecodeError`. -/
  | notJson

/-- `_retry_after_seconds`. -/
def retryAfterSeconds (lib : AgentLib) : ClientError → Option FloatValue
  | .status response => response.retryAfter.bind lib.floatOfText
  | _ => none

/-- `_is_retryable`. -/
def isRetryable (lib : AgentLib) (exc : ClientError) : Bool :=
  match exc with
  | .status response =>
      if response.statusCode = 429 then (retryAfterSeconds lib exc).all FloatValue.withinMax
      else decide (500 ≤ response.statusCode)
  | .transport => true
  | .request | .notJson => false

/-- What comes back for a request: a response, or none. -/
inductive Reply where
  | response (response : HttpResponse)
  | lost
  | broken

/-- `raise_for_status`, then `response.json()`. -/
def Reply.answer : Reply → Except ClientError Json
  | .response r =>
      if 200 ≤ r.statusCode ∧ r.statusCode < 300 then
        match r.json with
        | some data => .ok data
        | none => .error .notJson
      else .error (.status r)
  | .lost => .error .transport
  | .broken => .error .request

/-- One attempt: whether the CRM carries the request out, and what comes back. -/
structure Attempt where
  processed : Bool
  reply : Reply

/-- The bodies of the two posts. -/
inductive CrmWrite where
  | note (description : String) (targetableId : Json)
  | task (title dueDate : String) (ownerId targetableId : Json)
  deriving DecidableEq

def CrmWrite.isNote : CrmWrite → Bool
  | .note _ _ => true
  | .task _ _ _ _ => false

def CrmWrite.isTask : CrmWrite → Bool
  | .note _ _ => false
  | .task _ _ _ _ => true

/-- `post`: `stop_after_attempt(4)`. The records of the CRM grow by the attempts that it carries out. -/
def post (lib : AgentLib) (net : ℕ → Attempt) (body : CrmWrite) (crm : List CrmWrite) :
    Except ClientError Json × List CrmWrite :=
  retry (isRetryable lib) 3 (fun i => (net i).reply.answer)
    (fun i crm => if (net i).processed then crm ++ [body] else crm) crm

/-! ## The agent -/

inductive DealNotFound where
  /-- `deal {deal_id} not found`. -/
  | noDeal (dealId : Int)
  /-- `no deal in allowed pipelines matches {deal_hint!r}`. -/
  | noMatch (dealHint : String)
  /-- `provide deal_id or deal_hint`. -/
  | notGiven

inductive AgentError where
  /-- `intent must be one of ['note', 'note+task', 'task']`. -/
  | invalidIntent
  | dealNotFound (why : DealNotFound)
  /-- `deal {did} is in pipeline {pipeline_id}, not in allowed {sorted(allowed)}`. -/
  | pipelineNotAllowed (dealId pipelineId : Json) (allowed : List Int)
  | client (e : ClientError)
  | python (e : PyError)

/-- An exception of the code itself. -/
def raised {α : Type} : Except PyError α → Except AgentError α
  | .ok a => .ok a
  | .error e => .error (.python e)

structure LogRequest where
  intent : String
  dealId : Option Int
  dealHint : Option String
  noteText : Option String
  taskTitle : Option String
  dueDate : Option String
  ownerId : Option Int

structure LogResult where
  dealId : Json
  dealName : Json
  noteId : Json
  taskId : Json
  confirmation : String

/-- What the CRM answers to the reads of the agent: `get_deal`, and the items of
`iter_pipeline_deal_ids`, which may end with an exception. -/
structure CrmReads where
  deal : Json → Except AgentError JsonObject
  pipelineDealIds : Int → List (Except AgentError Json)

/-- A string that `if` takes as true. -/
def given : Option String → Option String
  | some s => if s = "" then none else some s
  | none => none

/-- `_resolve_due`. -/
def resolveDue (lib : AgentLib) (now : Datetime) (dueDate : Option String) :
    Except PyError String :=
  match given dueDate with
  | some due =>
      match (lib.fromIsoformat due).or (lib.fromIsoformat (due ++ "T17:00:00")) with
      | some d => .ok (lib.isoformat (if d.offset.isNone then lib.inLagos d else d))
      | none => .error .valueError
  | none => .ok (lib.isoformat (lib.tomorrow now))

/-- `_confirmation`. -/
def confirmation (lib : AgentLib) (dealName noteId : Json) (taskTitle : Option String)
    (taskId : Json) (dueDate : Option String) : String :=
  let parts :=
    (if noteId = .null then [] else ["note"]) ++
    (if taskId = .null then [] else
      ["task \"" ++ lib.str (Json.ofOption taskTitle) ++ "\"" ++
        match given dueDate with
        | some due => " due " ++ due
        | none => ""])
  let what := if parts.isEmpty then "nothing" else " + ".intercalate parts
  "✅ Logged on \"" ++ lib.str dealName ++ "\": " ++ what ++ "."

/-- `(value or "").lower()`. -/
def lowerText (py : LowerCase) (value : Json) : Except PyError String :=
  match value.orElse (.str "") with
  | .str s => .ok (py.lower s)
  | _ => .error .attributeError

/-- `part in text`. -/
def inText (part text : String) : Bool :=
  text.toList.tails.any fun rest => part.toList.isPrefixOf rest

/-- The first of the deals that matches the hint. -/
def matchHint (py : LowerCase) (reads : CrmReads) (hint : String) :
    List (Except AgentError Json) → Except AgentError (Option JsonObject)
  | [] => .ok none
  | id :: ids => do
      let deal ← reads.deal (← id)
      let name ← raised (lowerText py (Json.member deal "name"))
      let account ← raised (lowerText py (Json.member deal "sales_account_name"))
      if inText hint name ∨ (account ≠ "" ∧ inText hint account) then return some deal
      else matchHint py reads hint ids

/-- `_resolve_deal`. -/
def resolveDeal (lib : AgentLib) (reads : CrmReads) (allowed : List Int) (dealId : Option Int)
    (dealHint : Option String) : Except AgentError JsonObject :=
  match dealId, given dealHint with
  | some id, _ => do
      let deal ← reads.deal (.num id)
      if Json.hasKey deal "id" then return deal else .error (.dealNotFound (.noDeal id))
  | none, some hint => do
      match ← matchHint lib.py reads (lib.py.lower hint) (allowed.flatMap reads.pipelineDealIds) with
      | some deal => return deal
      | none => .error (.dealNotFound (.noMatch hint))
  | none, none => .error (.dealNotFound .notGiven)

def validIntents : List String := ["note", "task", "note+task"]

/-- The checks of `log_activity`, and the deal with its id. -/
def allowedDeal (lib : AgentLib) (reads : CrmReads) (allowed : List Int) (request : LogRequest) :
    Except AgentError (JsonObject × Json) := do
  if request.intent ∉ validIntents then .error .invalidIntent
  else
    let deal ← resolveDeal lib reads allowed request.dealId request.dealHint
    let id ← raised (requiredMember deal "id")
    let pipelineId := Json.member deal "deal_pipeline_id"
    if ← raised (inIds allowed pipelineId) then return (deal, id)
    else .error (.pipelineNotAllowed id pipelineId allowed)

/-- `create_note` and `create_task`, and the id of the record: `data.get(key, data)`, then
`record.get("id")`. -/
def createRecord (lib : AgentLib) (net : ℕ → Attempt) (key : String) (body : CrmWrite)
    (crm : List CrmWrite) : Except AgentError Json × List CrmWrite :=
  match post lib net body crm with
  | (.error e, crm) => (.error (.client e), crm)
  | (.ok data, crm) => (raised (do (← getOr data key data).get "id"), crm)

/-- The text of the note, when the call asks for one. -/
def wantedNote (request : LogRequest) : Option String :=
  if request.intent ∈ ["note", "note+task"] then given request.noteText else none

/-- The title of the task, when the call asks for one. -/
def wantedTask (request : LogRequest) : Option String :=
  if request.intent ∈ ["task", "note+task"] then given request.taskTitle else none

/-- The note part of `log_activity`. -/
def logNote (lib : AgentLib) (request : LogRequest) (dealId : Json) (notes : ℕ → Attempt)
    (crm : List CrmWrite) : Except AgentError Json × List CrmWrite :=
  match wantedNote request with
  | some text => createRecord lib notes "note" (.note text dealId) crm
  | none => (.ok .null, crm)

/-- `owner_id or deal.get("owner_id")`. -/
def taskOwner (request : LogRequest) (deal : JsonObject) : Json :=
  match request.ownerId with
  | some owner => if owner = 0 then Json.member deal "owner_id" else .num owner
  | none => Json.member deal "owner_id"

/-- The task part of `log_activity`. -/
def logTask (lib : AgentLib) (now : Datetime) (request : LogRequest) (deal : JsonObject) (dealId : Json)
    (tasks : ℕ → Attempt) (crm : List CrmWrite) : Except AgentError Json × List CrmWrite :=
  match wantedTask request with
  | some title =>
      match resolveDue lib now request.dueDate with
      | .ok due =>
          createRecord lib tasks "task" (.task title due (taskOwner request deal) dealId) crm
      | .error e => (.error (.python e), crm)
  | none => (.ok .null, crm)

/-- `log_activity`: `notes` and `tasks` are the attempts of its two posts. -/
def logActivity (lib : AgentLib) (reads : CrmReads) (allowed : List Int) (now : Datetime)
    (request : LogRequest) (notes tasks : ℕ → Attempt) (crm : List CrmWrite) :
    Except AgentError LogResult × List CrmWrite :=
  match allowedDeal lib reads allowed request with
  | .error e => (.error e, crm)
  | .ok (deal, id) =>
      match logNote lib request id notes crm with
      | (.error e, crm) => (.error e, crm)
      | (.ok noteId, crm) =>
          match logTask lib now request deal id tasks crm with
          | (.error e, crm) => (.error e, crm)
          | (.ok taskId, crm) =>
              let dealName := (Json.member deal "name").orElse (.str (lib.str id))
              (.ok
                { dealId := id, dealName, noteId, taskId
                  confirmation :=
                    confirmation lib dealName noteId request.taskTitle taskId request.dueDate },
                crm)

/-! ## What one post leaves -/

section Post

variable {lib : AgentLib} {net : ℕ → Attempt}

/-- No two attempts of one post are carried out: of any two of the four, the second one is not made, or
one of them is not carried out. -/
def CarriedOutOnce (lib : AgentLib) (net : ℕ → Attempt) : Prop :=
  ∀ i j, i < j → j ≤ 3 → (∀ m < j, Retryable (isRetryable lib) (net m).reply.answer) →
    ¬ ((net i).processed = true ∧ (net j).processed = true)

/-- The last attempt of a post. -/
def lastAttempt (lib : AgentLib) (net : ℕ → Attempt) : ℕ :=
  lastMade (isRetryable lib) 3 fun i => (net i).reply.answer

/-- How many attempts of the post are carried out. -/
def carriedOut (lib : AgentLib) (net : ℕ → Attempt) : ℕ :=
  Nat.count (fun i => (net i).processed = true) (lastAttempt lib net + 1)

/-- **One post.** -/
theorem post_eq (lib : AgentLib) (net : ℕ → Attempt) (body : CrmWrite) (crm : List CrmWrite) :
    post lib net body crm = ((net (lastAttempt lib net)).reply.answer,
      crm ++ List.replicate (carriedOut lib net) body) := by
  rw [post, retry_eq, afterAttempts_append]
  rfl

theorem carriedOut_le_one_iff : carriedOut lib net ≤ 1 ↔ CarriedOutOnce lib net := by
  rw [carriedOut, count_le_one_iff]
  constructor
  · intro h i j hij hj hretried
    have hmade : j ≤ lastAttempt lib net := le_lastMade_iff.2 ⟨hj, hretried⟩
    exact h i j hij (Nat.lt_succ_of_le hmade)
  · intro h i j hij hj
    obtain ⟨hlimit, hretried⟩ := le_lastMade_iff.1 (Nat.le_of_lt_succ hj)
    exact h i j hij hlimit hretried

/-- The id that `create_note` or `create_task` ends with. -/
def recordId (lib : AgentLib) (net : ℕ → Attempt) (key : String) : Except AgentError Json :=
  match (net (lastAttempt lib net)).reply.answer with
  | .error e => .error (.client e)
  | .ok data => raised (do (← getOr data key data).get "id")

theorem createRecord_eq (lib : AgentLib) (net : ℕ → Attempt) (key : String) (body : CrmWrite)
    (crm : List CrmWrite) :
    createRecord lib net key body crm =
      (recordId lib net key, crm ++ List.replicate (carriedOut lib net) body) := by
  rw [createRecord, post_eq, recordId]
  cases (net (lastAttempt lib net)).reply.answer with
  | ok data => rfl
  | error e => rfl

end Post

/-! ## What a call leaves -/

section Call

variable {lib : AgentLib} {reads : CrmReads} {allowed : List Int} {now : Datetime}
  {request : LogRequest} {notes tasks : ℕ → Attempt} {crm : List CrmWrite}

/-- The call posts a note: its checks pass and it asks for one. -/
def postsNote (lib : AgentLib) (reads : CrmReads) (allowed : List Int) (request : LogRequest) : Bool :=
  (allowedDeal lib reads allowed request).isOk && (wantedNote request).isSome

/-- The call posts a task: its checks pass, it asks for one with a due date that can be read, and the
note, if it asks for one, has been answered with a record. -/
def postsTask (lib : AgentLib) (reads : CrmReads) (allowed : List Int) (now : Datetime)
    (request : LogRequest) (notes : ℕ → Attempt) : Bool :=
  (allowedDeal lib reads allowed request).isOk && (wantedTask request).isSome &&
    (resolveDue lib now request.dueDate).isOk &&
    ((wantedNote request).isNone || (recordId lib notes "note").isOk)

/-- What a call has left: `m` notes and `n` tasks. -/
def Leaves (before after : List CrmWrite) (m n : ℕ) : Prop :=
  ∃ new, after = before ++ new ∧ new.countP CrmWrite.isNote = m ∧ new.countP CrmWrite.isTask = n

/-- At most one note and one task are written. -/
def WrittenOnce (before after : List CrmWrite) : Prop :=
  ∃ new, after = before ++ new ∧ new.countP CrmWrite.isNote ≤ 1 ∧ new.countP CrmWrite.isTask ≤ 1

theorem Leaves.writtenOnce_iff {before after : List CrmWrite} {m n : ℕ} (h : Leaves before after m n) :
    WrittenOnce before after ↔ m ≤ 1 ∧ n ≤ 1 := by
  obtain ⟨new, rfl, rfl, rfl⟩ := h
  constructor
  · rintro ⟨new', hnew, hnotes, htasks⟩
    obtain rfl := List.append_cancel_left hnew
    exact ⟨hnotes, htasks⟩
  · rintro ⟨hnotes, htasks⟩
    exact ⟨new, rfl, hnotes, htasks⟩

theorem leaves_nothing (crm : List CrmWrite) : Leaves crm crm 0 0 :=
  ⟨[], (List.append_nil crm).symm, rfl, rfl⟩

theorem Leaves.add_notes {before after : List CrmWrite} {m n : ℕ} (h : Leaves before after m n) (k : ℕ)
    (text : String) (id : Json) :
    Leaves before (after ++ List.replicate k (.note text id)) (m + k) n := by
  obtain ⟨new, rfl, rfl, rfl⟩ := h
  refine ⟨new ++ List.replicate k (.note text id), by rw [List.append_assoc], ?_, ?_⟩
  · simp [List.countP_append, List.countP_replicate, CrmWrite.isNote]
  · simp [List.countP_append, List.countP_replicate, CrmWrite.isTask]

theorem Leaves.add_tasks {before after : List CrmWrite} {m n : ℕ} (h : Leaves before after m n) (k : ℕ)
    (title due : String) (owner id : Json) :
    Leaves before (after ++ List.replicate k (.task title due owner id)) m (n + k) := by
  obtain ⟨new, rfl, rfl, rfl⟩ := h
  refine ⟨new ++ List.replicate k (.task title due owner id), by rw [List.append_assoc], ?_, ?_⟩
  · simp [List.countP_append, List.countP_replicate, CrmWrite.isNote]
  · simp [List.countP_append, List.countP_replicate, CrmWrite.isTask]

/-- The note part: its result, and the notes it leaves. -/
theorem logNote_leaves (lib : AgentLib) (request : LogRequest) (id : Json) (notes : ℕ → Attempt)
    (crm : List CrmWrite) :
    ((logNote lib request id notes crm).1.isOk =
        ((wantedNote request).isNone || (recordId lib notes "note").isOk)) ∧
      Leaves crm (logNote lib request id notes crm).2
        (if (wantedNote request).isSome then carriedOut lib notes else 0) 0 := by
  rw [logNote]
  cases wantedNote request with
  | none => exact ⟨rfl, leaves_nothing crm⟩
  | some text =>
      dsimp only
      rw [createRecord_eq]
      refine ⟨rfl, ?_⟩
      have hleaves := (leaves_nothing crm).add_notes (carriedOut lib notes) text id
      rwa [Nat.zero_add] at hleaves

/-- The task part, after a note part that has left `m` notes. -/
theorem logTask_leaves {before : List CrmWrite} {m : ℕ} (h : Leaves before crm m 0) (lib : AgentLib)
    (now : Datetime) (request : LogRequest) (deal : JsonObject) (id : Json) (tasks : ℕ → Attempt) :
    Leaves before (logTask lib now request deal id tasks crm).2 m
      (if (wantedTask request).isSome && (resolveDue lib now request.dueDate).isOk then
        carriedOut lib tasks else 0) := by
  rw [logTask]
  cases wantedTask request with
  | none => exact h
  | some title =>
      cases resolveDue lib now request.dueDate with
      | error e => exact h
      | ok due =>
          dsimp only
          rw [createRecord_eq]
          have hleaves := h.add_tasks (carriedOut lib tasks) title due (taskOwner request deal) id
          rwa [Nat.zero_add] at hleaves

/-- **One call.** The notes are the attempts carried out for a note that is posted, and the tasks those
for a task that is. -/
theorem logActivity_leaves (lib : AgentLib) (reads : CrmReads) (allowed : List Int) (now : Datetime)
    (request : LogRequest) (notes tasks : ℕ → Attempt) (crm : List CrmWrite) :
    Leaves crm (logActivity lib reads allowed now request notes tasks crm).2
      (if postsNote lib reads allowed request then carriedOut lib notes else 0)
      (if postsTask lib reads allowed now request notes then carriedOut lib tasks else 0) := by
  rw [logActivity, postsNote, postsTask]
  cases allowedDeal lib reads allowed request with
  | error e => exact leaves_nothing crm
  | ok target =>
      obtain ⟨deal, id⟩ := target
      obtain ⟨hok, hleaves⟩ := logNote_leaves lib request id notes crm
      dsimp only
      rw [← hok]
      cases hnote : logNote lib request id notes crm with
      | mk result crm' =>
          rw [hnote] at hleaves
          cases result with
          | error e =>
              -- the task is not reached
              simpa [Except.isOk, Except.toBool] using hleaves
          | ok noteId =>
              have htask := logTask_leaves hleaves lib now request deal id tasks
              simp only [Except.isOk, Except.toBool, Bool.true_and, Bool.and_true] at htask ⊢
              cases hresult : logTask lib now request deal id tasks crm' with
              | mk result crm'' =>
                  rw [hresult] at htask
                  cases result with
                  | error e => exact htask
                  | ok taskId => exact htask

/-- **At most once.** A call leaves at most one note and one task exactly when no two attempts of a post
that it makes are carried out. -/
theorem written_once_iff (lib : AgentLib) (reads : CrmReads) (allowed : List Int) (now : Datetime)
    (request : LogRequest) (notes tasks : ℕ → Attempt) (crm : List CrmWrite) :
    WrittenOnce crm (logActivity lib reads allowed now request notes tasks crm).2 ↔
      (postsNote lib reads allowed request = true → CarriedOutOnce lib notes) ∧
        (postsTask lib reads allowed now request notes = true → CarriedOutOnce lib tasks) := by
  rw [(logActivity_leaves lib reads allowed now request notes tasks crm).writtenOnce_iff,
    ← carriedOut_le_one_iff, ← carriedOut_le_one_iff]
  apply and_congr
  all_goals
    split
    · rename_i hposts
      simp only [hposts, true_imp_iff]
    · rename_i hposts
      exact iff_of_true (Nat.zero_le 1) fun h => absurd h hposts

end Call

/-! ## A lost answer -/

/-- A library that reads no numbers and no dates. -/
def plainAgentLib : AgentLib where
  py := asciiLower
  floatOfText _ := none
  str _ := ""
  fromIsoformat _ := none
  inLagos d := d
  tomorrow d := d
  isoformat _ := "2026-01-02T17:00:00+01:00"

/-- Deal 7 in the Test pipeline. -/
def testDealReads : CrmReads where
  deal _ := .ok [("id", .num 7), ("deal_pipeline_id", .num 17000075034)]
  pipelineDealIds _ := []

def noteRequest : LogRequest where
  intent := "note"
  dealId := some 7
  dealHint := none
  noteText := some "Called"
  taskTitle := none
  dueDate := none
  ownerId := none

/-- The CRM carries the first attempt out and answers 503, then carries the second one out. -/
def lostAnswer : ℕ → Attempt
  | 0 => ⟨true, .response ⟨503, none, none⟩⟩
  | _ => ⟨true, .response ⟨201, none, some (.obj [("note", .obj [("id", .num 1)])])⟩⟩

/-- The note is there twice. -/
theorem note_written_twice :
    ¬ ∀ notes tasks : ℕ → Attempt, WrittenOnce [] (logActivity plainAgentLib testDealReads
      [17000075034] noon noteRequest notes tasks []).2 := by
  intro h
  obtain ⟨new, hnew, hnotes, -⟩ := h lostAnswer lostAnswer
  rw [List.nil_append] at hnew
  rw [← hnew] at hnotes
  revert hnotes
  decide

end SalesTrades.Freshsales
