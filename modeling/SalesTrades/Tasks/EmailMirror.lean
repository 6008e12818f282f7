import SalesTrades.Analytics.DealReports
import SalesTrades.Deals.ReferenceSync
import SalesTrades.Deals.Webhook
import SalesTrades.Library.Interleaving
import SalesTrades.Library.LastEntry
import SalesTrades.Library.Replacement
import SalesTrades.PythonDates

/-!
# The mirror of the emails

`run_email_sync` replaces the emails of each open deal by the conversations in the answer of the CRM, one
transaction a deal. Any number of syncs run at the same time, as the job and the endpoint of the
administrators start them, and a sync may stop anywhere. The emails of every deal are those of the answer
that was committed last for it, throughout a run, exactly when no sync commits a deal that has got emails
since its DELETE started (`emails_mirrored_iff`).
-/

set_option autoImplicit false

namespace SalesTrades.Tasks.EmailMirror

open SalesTrades.Library SalesTrades.Library.Run SalesTrades.Library.Interleaving
  SalesTrades.Library.Keyed SalesTrades.Deals

universe u

/-! ## Parsing -/

/-- `_HEAVY_EMAIL_FIELDS`. -/
def heavyEmailFields : List String :=
  ["html_content", "current_html_content", "display_content", "shrink_content", "attachments",
    "conversation_meta"]

/-- The values of `_parse_email`. The subject is passed on as it was received. -/
structure EmailData where
  dealId : Int
  direction : String
  conversationTime : Datetime
  subject : Json
  rawPayload : List (String × Json)

/-- A row of `email_activity`. -/
structure EmailRow extends Analytics.DirectedEmail where
  subject : Option String
  rawPayload : List (String × Json)

/-- The members of a conversation without the heavy ones. -/
def lightMembers : Json → List (String × Json)
  | .obj members => members.filter fun m => m.1 ∉ heavyEmailFields
  | _ => []

/-- `_parse_email`. `str` is the function of that name. -/
def parseEmail (lib : PyLib) (str : Json → String) (dealId : Int) (conversation : Json) :
    Except PyError (Option EmailData) := do
  let time ← conversation.get "conversation_time"
  match ← parseIsoTimestamp lib time with
  | none => return none
  | some conversationTime =>
      let direction ← conversation.get "direction"
      let subject ← conversation.get "subject"
      return some {
        dealId, conversationTime, subject
        direction := str (direction.orElse (.str "unknown"))
        rawPayload := lightMembers conversation }

/-- The emails in the answer about a deal. -/
def dealEmails (lib : PyLib) (str : Json → String) (dealId : Int) (body : Json) :
    Except PyError (List EmailData) := do
  let conversations ← iterate (← getOr body "email_conversations" (.arr []))
  return (← conversations.mapM (parseEmail lib str dealId)).reduceOption

/-- What the driver makes of the values. -/
def EmailData.encode (lib : PyLib) (email : EmailData) : Except PyError EmailRow := do
  let subject ← optionalCell lib.encodeText email.subject
  return {
    subject
    dealId := email.dealId
    conversationTime := email.conversationTime.instant
    direction := email.direction
    rawPayload := email.rawPayload }

/-! ## The syncs -/

/-- `email_activity`. -/
abbrev EmailTable : Type := Table (Table.noIndex : EmailRow → Option Unit)

/-- What is committed: the table, and the emails that syncs have committed for each deal so far. -/
structure Mirror where
  emails : EmailTable
  log : List (Int × List EmailRow)

/-- The local variables of `run_email_sync`. -/
inductive SyncPhase where
  | start
  | listed (dealIds : List Int)
  | answered (dealId : Int) (rows : List EmailData) (rest : List Int)
  | deleted (dealId : Int) (rows : List EmailData) (rest : List Int) (seen : List Nat)
  | ended (e : Option PyError)

/-- What a sync reads from outside at a step, or that it stops there. -/
inductive SyncInput where
  | openDeals (dealIds : List Int)
  | conversations (answer : Except PyError Json)
  | goOn
  | stop

variable (lib : PyLib) (str : Json → String)

/-- One statement of `run_email_sync`. A DELETE takes the rows that it sees when it starts. Where another
transaction is deleting them as well it waits, which only rules out orders. -/
def syncStep (input : SyncInput) (m : Mirror) (phase : SyncPhase) : Option (Mirror × SyncPhase) :=
  match phase, input with
  | .ended _, _ => none
  | _, .stop => some (m, .ended none)
  | .start, .openDeals dealIds => some (m, .listed dealIds)
  | .listed [], .goOn => some (m, .ended none)
  | .listed (dealId :: rest), .conversations answer =>
      match answer >>= dealEmails lib str dealId with
      | .error e => some (m, .ended (some e))
      | .ok rows => some (m, .answered dealId rows rest)
  | .answered dealId rows rest, .goOn =>
      some (m, .deleted dealId rows rest (m.emails.idsOf (fun email => email.dealId) dealId))
  | .deleted dealId rows rest seen, .goOn =>
      match rows.mapM (EmailData.encode lib) with
      | .error e => some (m, .ended (some e))
      | .ok rows =>
          some (⟨m.emails.replaced (fun email => email.dealId) dealId seen rows, m.log ++ [(dealId, rows)]⟩,
            .listed rest)
  | _, _ => none

/-- What a step commits: the deal, its emails, and what the DELETE has seen. -/
def SyncPhase.committing (phase : SyncPhase) (input : SyncInput) : Option (Int × List EmailRow × List Nat) :=
  match phase, input with
  | .deleted dealId rows _ seen, .goOn =>
      (rows.mapM (EmailData.encode lib)).toOption.map fun rows => (dealId, rows, seen)
  | _, _ => none

/-- What a sync has got from the CRM and not committed. -/
def SyncPhase.inHand : SyncPhase → Option (Int × List EmailData)
  | .answered dealId rows _ | .deleted dealId rows _ _ => some (dealId, rows)
  | .start | .listed _ | .ended _ => none

/-! ## What a step does -/

section Steps

variable {lib str} {input : SyncInput} {m m' : Mirror} {phase phase' : SyncPhase} {dealId : Int}

theorem dealId_of_parseEmail {conversation : Json} {email : EmailData}
    (h : parseEmail lib str dealId conversation = .ok (some email)) : email.dealId = dealId := by
  rw [parseEmail] at h
  obtain ⟨_, -, h⟩ := bind_eq_ok.1 h
  obtain ⟨time, -, h⟩ := bind_eq_ok.1 h
  cases time with
  | none => cases h
  | some conversationTime =>
      obtain ⟨_, -, h⟩ := bind_eq_ok.1 h
      obtain ⟨_, -, h⟩ := bind_eq_ok.1 h
      cases h
      rfl

/-- An email is on the deal that it is listed for. -/
theorem dealId_of_dealEmails {body : Json} {rows : List EmailData}
    (h : dealEmails lib str dealId body = .ok rows) : ∀ email ∈ rows, email.dealId = dealId := by
  rw [dealEmails] at h
  obtain ⟨_, -, h⟩ := bind_eq_ok.1 h
  obtain ⟨_, -, h⟩ := bind_eq_ok.1 h
  obtain ⟨parsed, hparsed, h⟩ := bind_eq_ok.1 h
  cases h
  intro email hemail
  obtain ⟨conversation, -, hparse⟩ := exists_of_mapM_ok hparsed (some email) (List.reduceOption_mem_iff.1 hemail)
  exact dealId_of_parseEmail hparse

theorem dealId_of_encode {email : EmailData} {row : EmailRow} (h : email.encode lib = .ok row) :
    row.dealId = email.dealId := by
  rw [EmailData.encode] at h
  obtain ⟨_, -, h⟩ := bind_eq_ok.1 h
  cases h
  rfl

/-- What a step that commits has in hand, and what it leaves. -/
theorem step_of_committing {rows : List EmailRow} {seen : List Nat}
    (h : phase.committing lib input = some (dealId, rows, seen))
    (hstep : syncStep lib str input m phase = some (m', phase')) :
    m' = ⟨m.emails.replaced (fun email => email.dealId) dealId seen rows, m.log ++ [(dealId, rows)]⟩ ∧
      phase'.inHand = none ∧
      ∃ data, phase.inHand = some (dealId, data) ∧ data.mapM (EmailData.encode lib) = .ok rows := by
  unfold SyncPhase.committing at h
  split at h
  · rename_i d data rest s
    obtain ⟨encoded, hencoded, heq⟩ := Option.map_eq_some_iff.1 h
    have hok := eq_ok_of_toOption hencoded
    cases heq
    simp only [syncStep, hok, Option.some.injEq, Prod.mk.injEq] at hstep
    obtain ⟨rfl, rfl⟩ := hstep
    exact ⟨rfl, rfl, data, rfl, hok⟩
  · cases h

/-- Every other step leaves what is committed alone. What a sync has in hand it had, or the CRM has just
answered. -/
theorem step_of_not_committing (h : phase.committing lib input = none)
    (hstep : syncStep lib str input m phase = some (m', phase')) :
    m' = m ∧ ∀ taken ∈ phase'.inHand, phase.inHand = some taken ∨
      ∃ body, input = .conversations (.ok body) ∧ dealEmails lib str taken.1 body = .ok taken.2 := by
  have hnone : ∀ taken ∈ (none : Option (Int × List EmailData)), phase.inHand = some taken ∨
      ∃ body, input = .conversations (.ok body) ∧ dealEmails lib str taken.1 body = .ok taken.2 := by
    intro taken htaken
    cases htaken
  unfold syncStep at hstep
  split at hstep
  · cases hstep
  · cases hstep
    exact ⟨rfl, hnone⟩
  · cases hstep
    exact ⟨rfl, hnone⟩
  · cases hstep
    exact ⟨rfl, hnone⟩
  · -- the answer is parsed
    rename_i d rest answer
    split at hstep
    · cases hstep
      exact ⟨rfl, hnone⟩
    · rename_i rows hrows
      obtain ⟨body, rfl, hbody⟩ := bind_eq_ok.1 hrows
      cases hstep
      refine ⟨rfl, fun taken htaken => Or.inr ⟨body, rfl, ?_⟩⟩
      obtain rfl := Option.some.inj htaken
      exact hbody
  · cases hstep
    exact ⟨rfl, fun taken htaken => Or.inl htaken⟩
  · -- the driver rejects an email
    split at hstep
    · cases hstep
      exact ⟨rfl, hnone⟩
    · rename_i rows hrows
      rw [SyncPhase.committing, hrows] at h
      cases h
  · cases hstep

end Steps

/-! ## Runs -/

section Runs

variable {ι : Type u} [DecidableEq ι]

/-- The syncs and what they have committed. -/
abbrev Syncs (ι : Type u) : Type u := Config ι Mirror SyncPhase

/-- Before any sync. -/
def fresh (ι : Type u) (emails : EmailTable) : Syncs ι := ⟨⟨emails, []⟩, fun _ => .start⟩

def emailsOf (dealId : Int) (emails : EmailTable) : List EmailRow :=
  emails.valuesOf (fun email => email.dealId) dealId

/-- Each deal has the emails that were committed last for it, or those that it had at the start. -/
def Mirrored (start : EmailTable) (c : Syncs ι) : Prop :=
  ∀ dealId, emailsOf dealId c.shared.emails =
    ((lastWith Prod.fst dealId c.shared.log).map Prod.snd).getD (emailsOf dealId start)

/-- A sync that commits finds no email of the deal but those that its DELETE has seen. -/
def NoneSince (e : ι × SyncInput) (c : Syncs ι) : Prop :=
  ∀ commit ∈ (c.proc e.1).committing lib e.2,
    ∀ q ∈ c.shared.emails.rows, q.2.dealId = commit.1 → q.1 ∈ commit.2.2

instance (e : ι × SyncInput) (c : Syncs ι) : Decidable (NoneSince lib e c) :=
  inferInstanceAs (Decidable (∀ commit ∈ (c.proc e.1).committing lib e.2,
    ∀ q ∈ c.shared.emails.rows, q.2.dealId = commit.1 → q.1 ∈ commit.2.2))

/-- The emails in an answer of the CRM about a deal. -/
def Answered (es : List (ι × SyncInput)) (dealId : Int) (data : List EmailData) : Prop :=
  ∃ i body, (i, SyncInput.conversations (.ok body)) ∈ es ∧ dealEmails lib str dealId body = .ok data

variable {lib str} {emails : EmailTable} {es past : List (ι × SyncInput)} {e : ι × SyncInput}
  {c c' : Syncs ι} {dealId : Int}

omit [DecidableEq ι] in
theorem Answered.mono {data : List EmailData} (h : Answered lib str past dealId data) :
    Answered lib str (past ++ [e]) dealId data := by
  obtain ⟨i, body, hmem, hdata⟩ := h
  exact ⟨i, body, List.mem_append_left _ hmem, hdata⟩

/-- What the syncs have in hand and what they have committed comes from answers of the CRM. -/
structure FromAnswers (lib : PyLib) (str : Json → String) (es : List (ι × SyncInput)) (c : Syncs ι) : Prop where
  inHand : ∀ i, ∀ taken ∈ (c.proc i).inHand, Answered lib str es taken.1 taken.2
  log : ∀ entry ∈ c.shared.log, ∃ data, Answered lib str es entry.1 data ∧
    data.mapM (EmailData.encode lib) = .ok entry.2

theorem fromAnswers_fire (h : FromAnswers lib str past c) (hfire : fire (syncStep lib str) e c = some c') :
    FromAnswers lib str (past ++ [e]) c' := by
  obtain ⟨m', phase', hstep, rfl⟩ := fire_eq_some.1 hfire
  cases hcommit : (c.proc e.1).committing lib e.2 with
  | none =>
      obtain ⟨rfl, htaken⟩ := step_of_not_committing hcommit hstep
      refine ⟨fun i taken hmem => ?_, fun entry hentry => ?_⟩
      · by_cases hi : i = e.1
        · subst hi
          simp only [Function.update_self] at hmem
          rcases htaken taken hmem with hold | ⟨body, hinput, hbody⟩
          · exact (h.inHand e.1 taken hold).mono
          · refine ⟨e.1, body, ?_, hbody⟩
            rw [← hinput]
            exact List.mem_append_right _ List.mem_cons_self
        · simp only [Function.update_of_ne hi] at hmem
          exact (h.inHand i taken hmem).mono
      · obtain ⟨data, hdata, hencode⟩ := h.log entry hentry
        exact ⟨data, hdata.mono, hencode⟩
  | some commit =>
      obtain ⟨d, rows, seen⟩ := commit
      obtain ⟨rfl, hnone, data, hdata, hencode⟩ := step_of_committing hcommit hstep
      refine ⟨fun i taken hmem => ?_, fun entry hentry => ?_⟩
      · by_cases hi : i = e.1
        · subst hi
          simp only [Function.update_self, hnone] at hmem
          cases hmem
        · simp only [Function.update_of_ne hi] at hmem
          exact (h.inHand i taken hmem).mono
      · rcases List.mem_append.1 hentry with hentry | hentry
        · obtain ⟨data, hdata, hencode⟩ := h.log entry hentry
          exact ⟨data, hdata.mono, hencode⟩
        · -- what has just been committed
          obtain rfl := List.mem_singleton.1 hentry
          exact ⟨data, (h.inHand e.1 (d, data) hdata).mono, hencode⟩

/-- What the syncs have in hand for a deal is on the deal. -/
def OnDeal (c : Syncs ι) : Prop :=
  ∀ i, ∀ taken ∈ (c.proc i).inHand, ∀ email ∈ taken.2, email.dealId = taken.1

theorem onDeal_fire (h : OnDeal c) (hfire : fire (syncStep lib str) e c = some c') : OnDeal c' := by
  obtain ⟨m', phase', hstep, rfl⟩ := fire_eq_some.1 hfire
  intro i taken hmem
  by_cases hi : i = e.1
  · subst hi
    simp only [Function.update_self] at hmem
    cases hcommit : (c.proc e.1).committing lib e.2 with
    | none =>
        rcases (step_of_not_committing hcommit hstep).2 taken hmem with hold | ⟨body, -, hbody⟩
        · exact h e.1 taken hold
        · exact dealId_of_dealEmails hbody
    | some commit =>
        obtain ⟨d, rows, seen⟩ := commit
        rw [(step_of_committing hcommit hstep).2.1] at hmem
        cases hmem
  · simp only [Function.update_of_ne hi] at hmem
    exact h i taken hmem

/-- A step keeps the mirror exactly when it commits over what its DELETE has seen. -/
theorem mirrored_fire_iff (hdeal : OnDeal c) (h : Mirrored emails c)
    (hfire : fire (syncStep lib str) e c = some c') : Mirrored emails c' ↔ NoneSince lib e c := by
  obtain ⟨m', phase', hstep, rfl⟩ := fire_eq_some.1 hfire
  cases hcommit : (c.proc e.1).committing lib e.2 with
  | none =>
      obtain ⟨rfl, -⟩ := step_of_not_committing hcommit hstep
      refine iff_of_true h ?_
      rw [NoneSince, hcommit]
      intro commit hmem
      cases hmem
  | some commit =>
      obtain ⟨d, rows, seen⟩ := commit
      obtain ⟨rfl, -, data, hdata, hencode⟩ := step_of_committing hcommit hstep
      have hrows : ∀ row ∈ rows, row.dealId = d := by
        intro row hrow
        obtain ⟨email, hemail, hrow⟩ := exists_of_mapM_ok hencode row hrow
        exact (dealId_of_encode hrow).trans (hdeal e.1 (d, data) hdata email hemail)
      have hother : ∀ dealId, dealId ≠ d →
          (emailsOf dealId (c.shared.emails.replaced (fun email => email.dealId) d seen rows) =
            ((lastWith Prod.fst dealId (c.shared.log ++ [(d, rows)])).map Prod.snd).getD
              (emailsOf dealId emails)) := by
        intro dealId hne
        rw [emailsOf, Table.valuesOf_replaced_of_ne hne hrows, lastWith_append, lastWith_cons,
          if_neg (Ne.symm hne)]
        exact h dealId
      have hsame : emailsOf d (c.shared.emails.replaced (fun email => email.dealId) d seen rows) =
          ((lastWith Prod.fst d (c.shared.log ++ [(d, rows)])).map Prod.snd).getD (emailsOf d emails) ↔
            ∀ q ∈ c.shared.emails.rows, q.2.dealId = d → q.1 ∈ seen := by
        rw [lastWith_append, lastWith_cons, if_pos rfl]
        exact Table.valuesOf_replaced_eq_iff hrows
      constructor
      · intro hmirrored commit hmem
        rw [hcommit] at hmem
        obtain rfl := Option.some.inj hmem
        exact hsame.1 (hmirrored d)
      · intro hnone dealId
        by_cases hd : dealId = d
        · rw [hd]
          exact hsame.2 (hnone (d, rows, seen) hcommit)
        · exact hother dealId hd

/-- **The mirror.** Whatever the CRM answers and wherever syncs stop: what syncs have committed for a deal is
what an answer about it says, and the emails of every deal are those that were committed last for it,
throughout a run, exactly when every sync that commits a deal finds no email there but those that its DELETE
has seen. -/
theorem emails_mirrored_iff (hrun : exec (fire (syncStep lib str)) es (fresh ι emails) = some c) :
    (∀ entry ∈ c.shared.log, ∃ data, Answered lib str es entry.1 data ∧
      data.mapM (EmailData.encode lib) = .ok entry.2) ∧
    (Always (fire (syncStep lib str)) (Mirrored emails) es (fresh ι emails) ↔
      Guarded (fire (syncStep lib str)) (NoneSince lib) es (fresh ι emails)) := by
  have hfresh : FromAnswers lib str [] (fresh ι emails) := by
    refine ⟨fun i taken hmem => ?_, fun entry hentry => ?_⟩
    · cases hmem
    · cases hentry
  have hall : ∀ es (s : Syncs ι), Guarded (fire (syncStep lib str)) (fun _ _ => True) es s :=
    fun es s => guarded_of_forall (fun _ _ => trivial) s
  constructor
  · exact (exec_history (fun past e s t _ hpast _ hfire => fromAnswers_fire hpast hfire) hfresh
      (hall es _) hrun).log
  · refine always_iff_guarded_of_exact (J := OnDeal) (H := fun _ _ => True) ?_ ?_ ?_ ?_ (hall es _) hrun
    · exact fun e s t h _ hfire => onDeal_fire h hfire
    · exact fun e s t hdeal h _ hfire => mirrored_fire_iff hdeal h hfire
    · intro i taken hmem
      cases hmem
    · exact fun dealId => rfl

end Runs

/-- A library that reads ISO time stamps. -/
def isoLib : PyLib := { plainLib with timestampFromIso := datetimeFromIsoformat }

def textOf : Json → String
  | .str s => s
  | _ => ""

/-- One conversation on a deal. -/
def oneConversation : Json :=
  .obj [("email_conversations", .arr [.obj [("conversation_time", .str "2026-07-01T10:00:00+01:00"),
    ("direction", .str "outgoing"), ("subject", .str "Offer"), ("html_content", .str "...")]])]

/-- Two syncs that both delete before the first one commits. -/
def overlapping : List (Bool × SyncInput) :=
  [(true, .openDeals [7]), (true, .conversations (.ok oneConversation)), (false, .openDeals [7]),
    (false, .conversations (.ok oneConversation)), (true, .goOn), (false, .goOn), (true, .goOn),
    (false, .goOn)]

/-- The deal has its email twice in the end. -/
theorem overlapping_not_mirrored : ¬ Always (fire (syncStep isoLib textOf)) (Mirrored (Table.empty _))
    overlapping (fresh Bool (Table.empty _)) := by
  have hends : (exec (fire (syncStep isoLib textOf)) overlapping (fresh Bool (Table.empty _))).isSome := by
    decide +kernel
  obtain ⟨c, hrun⟩ := Option.isSome_iff_exists.1 hends
  rw [(emails_mirrored_iff hrun).2]
  -- the second commit finds the email of the first, which its DELETE has not seen
  decide +kernel

end SalesTrades.Tasks.EmailMirror
