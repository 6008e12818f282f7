import SalesTrades.Freshsales.AgentLogging

/-!
# A call that raises

`log_activity` writes the note before it looks at the due date and before it posts the task. Where the
CRM carries out exactly the requests that it answers, a call that raises has created nothing exactly
when it is not one that fails after its note (`log_all_or_nothing_iff`).
-/

set_option autoImplicit false

namespace SalesTrades.Freshsales

open SalesTrades.Library.Retry SalesTrades.Deals

variable {lib : AgentLib} {reads : CrmReads} {allowed : List Int} {now : Datetime}
  {request : LogRequest} {notes tasks net : ℕ → Attempt} {crm : List CrmWrite} {key : String}

/-! ## The CRM -/

/-- `data.get(key, data)["id"]` of an answer. -/
def answeredRecord (key : String) (data : Json) : Except PyError Json := do
  (← getOr data key data).get "id"

/-- The CRM answers a request that it carries out with the record. Any other request fails. -/
def FailsUnprocessed (key : String) (net : ℕ → Attempt) : Prop :=
  ∀ i, if (net i).processed then
      ∃ data, (net i).reply.answer = .ok data ∧ (answeredRecord key data).isOk = true
    else ∃ e, (net i).reply.answer = .error e

/-- The last attempt of the post is carried out. -/
def goesThrough (lib : AgentLib) (net : ℕ → Attempt) : Bool := (net (lastAttempt lib net)).processed

/-- An attempt that is followed by another one has failed. -/
theorem not_processed_of_lt (h : FailsUnprocessed key net) {i : ℕ} (hi : i < lastAttempt lib net) :
    (net i).processed = false := by
  obtain ⟨-, hretried⟩ := le_lastMade_iff.1 (le_refl (lastAttempt lib net))
  obtain ⟨e, he, -⟩ := hretried i hi
  have hattempt := h i
  split at hattempt
  · obtain ⟨data, hdata, -⟩ := hattempt
    rw [he] at hdata
    cases hdata
  · rename_i hprocessed
    exact (Bool.not_eq_true _).mp hprocessed

theorem carriedOut_eq (h : FailsUnprocessed key net) :
    carriedOut lib net = if goesThrough lib net then 1 else 0 := by
  have hbefore : Nat.count (fun i => (net i).processed = true) (lastAttempt lib net) = 0 := by
    rw [Nat.count_eq_card_filter_range, Finset.card_eq_zero, Finset.filter_eq_empty_iff]
    intro i hi
    rw [not_processed_of_lt h (Finset.mem_range.1 hi)]
    exact Bool.false_ne_true
  rw [carriedOut, Nat.count_succ, hbefore, Nat.zero_add]
  rfl

theorem isOk_recordId (h : FailsUnprocessed key net) :
    (recordId lib net key).isOk = goesThrough lib net := by
  have hlast := h (lastAttempt lib net)
  rw [recordId, goesThrough]
  split at hlast
  · rename_i hprocessed
    obtain ⟨data, hdata, hrecord⟩ := hlast
    rw [hdata, hprocessed]
    dsimp only
    cases hread : answeredRecord key data with
    | error e =>
        rw [hread] at hrecord
        cases hrecord
    | ok id =>
        rw [answeredRecord] at hread
        rw [hread]
        rfl
  · rename_i hprocessed
    obtain ⟨e, he⟩ := hlast
    rw [he, (Bool.not_eq_true _).mp hprocessed]
    rfl

/-- A record is created exactly when its call goes through. -/
theorem createRecord_spec (lib : AgentLib) (h : FailsUnprocessed key net) (body : CrmWrite) (crm : List CrmWrite) :
    (createRecord lib net key body crm).1.isOk = goesThrough lib net ∧
      (createRecord lib net key body crm).2 = if goesThrough lib net then crm ++ [body] else crm := by
  rw [createRecord_eq, isOk_recordId h, carriedOut_eq h]
  refine ⟨rfl, ?_⟩
  split
  · rfl
  · exact List.append_nil crm

/-! ## The call -/

/-- A call that raises has created nothing. -/
def AllOrNothing (result : Except AgentError LogResult × List CrmWrite) (crm : List CrmWrite) : Prop :=
  result.1.isOk = false → result.2 = crm

/-- The call creates a note and asks for a task. -/
def writesBetween (lib : AgentLib) (reads : CrmReads) (allowed : List Int) (request : LogRequest)
    (notes : ℕ → Attempt) : Bool :=
  postsNote lib reads allowed request && goesThrough lib notes && (wantedTask request).isSome

/-- The note part: whether it raises, and whether it creates a note. -/
theorem logNote_spec (lib : AgentLib) (h : FailsUnprocessed "note" notes) (request : LogRequest) (id : Json)
    (crm : List CrmWrite) :
    (logNote lib request id notes crm).1.isOk =
        ((wantedNote request).isNone || goesThrough lib notes) ∧
      ((logNote lib request id notes crm).2 = crm ↔
        ((wantedNote request).isSome && goesThrough lib notes) = false) := by
  rw [logNote]
  cases wantedNote request with
  | none => exact ⟨rfl, iff_of_true rfl rfl⟩
  | some text =>
      obtain ⟨hok, hcrm⟩ := createRecord_spec lib h (.note text id) crm
      dsimp only
      rw [hok, hcrm]
      refine ⟨rfl, ?_⟩
      cases goesThrough lib notes with
      | true => simp
      | false => simp

/-- The task part: whether it raises. When it does, it has created nothing. -/
theorem logTask_spec (lib : AgentLib) (h : FailsUnprocessed "task" tasks) (now : Datetime)
    (request : LogRequest) (deal : JsonObject) (id : Json) (crm : List CrmWrite) :
    (logTask lib now request deal id tasks crm).1.isOk =
        ((wantedTask request).isNone ||
          ((resolveDue lib now request.dueDate).isOk && goesThrough lib tasks)) ∧
      ((logTask lib now request deal id tasks crm).1.isOk = false →
        (logTask lib now request deal id tasks crm).2 = crm) := by
  rw [logTask]
  cases wantedTask request with
  | none => exact ⟨rfl, fun _ => rfl⟩
  | some title =>
      cases resolveDue lib now request.dueDate with
      | error e => exact ⟨rfl, fun _ => rfl⟩
      | ok due =>
          obtain ⟨hok, hcrm⟩ :=
            createRecord_spec lib h (.task title due (taskOwner request deal) id) crm
          dsimp only
          rw [hok, hcrm]
          refine ⟨rfl, fun hfailed => ?_⟩
          rw [hfailed]
          rfl

/-- The task part after a note part that has left `crm'`: it raises with `crm'` as it was before the call
unless something has been created and the task that is asked for fails. -/
theorem logTask_keeps_iff (lib : AgentLib) (h : FailsUnprocessed "task" tasks) (now : Datetime)
    (request : LogRequest) (deal : JsonObject) (id : Json) (crm crm' : List CrmWrite) :
    ((logTask lib now request deal id tasks crm').1.isOk = false →
        (logTask lib now request deal id tasks crm').2 = crm) ↔
      (crm' ≠ crm → (wantedTask request).isSome = true →
        (resolveDue lib now request.dueDate).isOk = true ∧ goesThrough lib tasks = true) := by
  obtain ⟨hok, hcrm⟩ := logTask_spec lib h now request deal id crm'
  constructor
  · intro hkeeps hcreated hwanted
    by_contra hfails
    rw [← Bool.and_eq_true, Bool.not_eq_true] at hfails
    rw [hfails, Bool.or_false, Option.isNone_eq_false_iff.2 hwanted] at hok
    exact hcreated ((hcrm hok).symm.trans (hkeeps hok))
  · intro hfollows hraises
    rw [hcrm hraises]
    by_contra hcreated
    rw [hok, Bool.or_eq_false_iff] at hraises
    have hdone := hfollows hcreated (Option.isNone_eq_false_iff.1 hraises.1)
    rw [← Bool.and_eq_true, hraises.2] at hdone
    cases hdone

/-- **All or nothing.** A call that raises has created nothing exactly when the due date of a call that
creates a note and asks for a task can be read, and its task goes through. -/
theorem log_all_or_nothing_iff (hnotes : FailsUnprocessed "note" notes)
    (htasks : FailsUnprocessed "task" tasks) :
    AllOrNothing (logActivity lib reads allowed now request notes tasks crm) crm ↔
      (writesBetween lib reads allowed request notes = true →
        (resolveDue lib now request.dueDate).isOk = true ∧ goesThrough lib tasks = true) := by
  rw [AllOrNothing, logActivity, writesBetween, postsNote]
  cases allowedDeal lib reads allowed request with
  | error e =>
      -- the checks come before the writes
      refine iff_of_true (fun _ => rfl) fun hposts => ?_
      cases hposts
  | ok target =>
      obtain ⟨deal, id⟩ := target
      obtain ⟨hnoteOk, hnoteCrm⟩ := logNote_spec lib hnotes request id crm
      have hposts : ((Except.ok (deal, id) : Except AgentError (JsonObject × Json)).isOk &&
          (wantedNote request).isSome) = (wantedNote request).isSome := rfl
      rw [hposts]
      dsimp only
      cases hnote : logNote lib request id notes crm with
      | mk result crm' =>
          rw [hnote] at hnoteOk hnoteCrm
          cases result with
          | error e =>
              -- the note has failed, so nothing is there
              have hfailed : ((wantedNote request).isNone || goesThrough lib notes) = false :=
                hnoteOk.symm
              rw [Bool.or_eq_false_iff] at hfailed
              have hnothing : crm' = crm := hnoteCrm.2 (by rw [hfailed.2, Bool.and_false])
              refine iff_of_true (fun _ => hnothing) fun hwrites => ?_
              rw [hfailed.2, Bool.and_false, Bool.false_and] at hwrites
              cases hwrites
          | ok noteId =>
              have htask := logTask_keeps_iff lib htasks now request deal id crm crm'
              rw [Ne, hnoteCrm, Bool.not_eq_false, ← and_imp, ← Bool.and_eq_true] at htask
              rw [← htask]
              dsimp only
              cases logTask lib now request deal id tasks crm' with
              | mk result crm'' =>
                  cases result with
                  | ok taskId => exact Iff.rfl
                  | error e => exact Iff.rfl

/-! ## A due date in words -/

/-- A note and a task for deal 7, due as `dueDate` says. -/
def noteAndTask (dueDate : Option String) : LogRequest where
  intent := "note+task"
  dealId := some 7
  dealHint := none
  noteText := some "Met the tenant"
  taskTitle := some "Send the proposal"
  dueDate := dueDate
  ownerId := none

/-- The CRM carries the first attempt out and answers with the record. -/
def created (key : String) : ℕ → Attempt := fun _ =>
  ⟨true, .response ⟨201, none, some (.obj [(key, .obj [("id", .num 1)])])⟩⟩

theorem failsUnprocessed_created (key : String) : FailsUnprocessed key (created key) := by
  intro i
  refine ⟨_, rfl, ?_⟩
  simp [answeredRecord, getOr, Json.hasKey, Json.member, Json.get, bind, Except.bind, Except.isOk,
    Except.toBool]

/-- Without a due date nothing is left half done. -/
theorem note_and_task_logged : AllOrNothing (logActivity plainAgentLib testDealReads [17000075034] noon
    (noteAndTask none) (created "note") (created "task") []) [] :=
  (log_all_or_nothing_iff (failsUnprocessed_created "note") (failsUnprocessed_created "task")).2
    fun _ => ⟨rfl, rfl⟩

/-- `next Friday` is no date, and the note is there when the call raises. -/
theorem note_left_behind : ¬ AllOrNothing (logActivity plainAgentLib testDealReads [17000075034] noon
    (noteAndTask (some "next Friday")) (created "note") (created "task") []) [] := by
  intro h
  have hcrm := h (by decide)
  revert hcrm
  decide

end SalesTrades.Freshsales
