import SalesTrades.Leads.CrmFailures
import SalesTrades.Leads.CaptureRace

/-!
# The contacts that a sync leaves in the CRM

The CRM as a store of contacts by lowercased email, on which an upsert writes the name, phone and job
title that it is given. `sync_lead` sends the lead under its stored email, and the second participant
under the email exactly as the form has it. Whatever the CRM held before, both contacts end up where
they belong exactly when the two addresses, read the way the store reads them, name two contacts or one
person (`participants_apart_iff`).
-/

set_option autoImplicit false

namespace SalesTrades.Leads

open SalesTrades.Library

/-! ## The store -/

/-- The fields of a contact that say who the person is, as they were sent. -/
structure PersonFields where
  firstName : Json
  lastName : Json
  mobileNumber : Json
  jobTitle : Json
  deriving DecidableEq

/-- The contacts of the CRM by lowercased email. -/
abbrev ContactStore := String → Option PersonFields

def ContactPayload.person (p : ContactPayload) : PersonFields :=
  ⟨.str p.firstName, .str p.lastName, .str p.mobileNumber, .ofOption p.jobTitle⟩

def SecondContactPayload.person (p : SecondContactPayload) : PersonFields :=
  ⟨p.firstName, p.lastName, p.mobileNumber, p.jobTitle⟩

/-- `upsert_contact`: what goes through is written under the address it is sent with. -/
def applyUpsert (py : LowerCase) (upsert : Upsert) (store : ContactStore) : ContactStore :=
  match upsert with
  | .contact _ p true => Function.update store (py.lower p.uniqueEmail) (some p.person)
  | .second _ p true =>
      match p.uniqueEmail with
      | .str email => Function.update store (py.lower email) (some p.person)
      -- what is no text is no address
      | _ => store
  | .contact _ _ false | .second _ _ false => store

/-- The contacts after the upserts of a log, which has the newest first. -/
def contactsAfter (py : LowerCase) (log : List Upsert) (store : ContactStore) : ContactStore :=
  log.foldr (applyUpsert py) store

/-! ## The second participant of a form -/

/-- `(lead.responses or {}).get("second_participant") or {}`, where both are objects. -/
def secondAnswers (responses : Json) : Option (List (String × Json)) :=
  match responses.orElse (.obj []) with
  | .obj form =>
      match (Json.member form "second_participant").orElse (.obj []) with
      | .obj second => some second
      | _ => none
  | _ => none

/-- The address of the second participant, where it has one. -/
def secondEmail (second : List (String × Json)) : Option String :=
  match Json.member second "email" with
  | .str email => if email = "" then none else some email
  | _ => none

def secondPerson (second : List (String × Json)) : PersonFields where
  firstName := (Json.member second "first_name").orElse (.str "")
  lastName := (Json.member second "last_name").orElse (.str "")
  mobileNumber := Json.member second "phone"
  jobTitle := Json.member second "job_title"

def Lead.person (l : Lead) : PersonFields :=
  ⟨.str l.firstName, .str l.lastName, .str l.phone, .ofOption l.jobTitle⟩

/-- The store once the second participant has been sent. -/
def storeSecond (py : LowerCase) (second : List (String × Json)) (accepted : Bool)
    (store : ContactStore) : ContactStore :=
  match accepted, secondEmail second with
  | true, some email => Function.update store (py.lower email) (some (secondPerson second))
  | _, _ => store

variable {py : LowerCase} {globalSync force : Bool} {campaign : Campaign} {row : LeadRow}
  {answers : CrmAnswers} {now : Datetime} {lead : Lead}

theorem secondAnswers_eq_some {responses : Json} {second : List (String × Json)} :
    secondAnswers responses = some second ↔ ∃ form, responses.orElse (.obj []) = .obj form ∧
      (Json.member form "second_participant").orElse (.obj []) = .obj second := by
  unfold secondAnswers
  constructor
  · intro h
    split at h
    · rename_i form hform
      split at h
      · rename_i members hmembers
        exact ⟨form, hform, by rw [hmembers, Option.some.inj h]⟩
      · cases h
    · cases h
  · rintro ⟨form, hform, hsecond⟩
    simp only [hform, hsecond]

/-- What is sent of a second participant that has an address, and of one that has none. -/
theorem buildSecond_ok {payload : Option SecondContactPayload}
    (h : buildSecondParticipantContactPayload lead campaign = .ok payload) :
    ∃ second, secondAnswers lead.responses = some second ∧
      match payload with
      | none => (Json.member second "email").truthy = false
      | some p => (Json.member second "email").truthy = true ∧
          p.uniqueEmail = Json.member second "email" ∧ p.person = secondPerson second := by
  obtain ⟨value, hvalue, h⟩ := bind_eq_ok.1 h
  obtain ⟨form, hform, rfl⟩ := get_eq_ok_iff.1 hvalue
  obtain ⟨email, hemail, h⟩ := bind_eq_ok.1 h
  obtain ⟨second, hsecond, rfl⟩ := get_eq_ok_iff.1 hemail
  refine ⟨second, secondAnswers_eq_some.2 ⟨form, hform, hsecond⟩, ?_⟩
  by_cases htruthy : (Json.member second "email").truthy = true
  · rw [hsecond] at h
    simp only [htruthy, Bool.not_true, Bool.false_eq_true, if_false, Json.get, bind, Except.bind,
      pure, Except.pure, Except.ok.injEq] at h
    subst h
    exact ⟨htruthy, rfl, rfl⟩
  · rw [Bool.not_eq_true] at htruthy
    simp only [htruthy, Bool.not_false, if_true, pure, Except.pure, Except.ok.injEq] at h
    subst h
    exact htruthy

/-! ## The store after a sync -/

/-- An answer that counts as accepted leaves the contact of the payload, with or without the status. -/
theorem contactsAfter_upsertContact (id : Nat) (payload : ContactPayload) (store : ContactStore)
    (haccepted : (upsertContactWithStatusFallback id payload answers).1.accepted = true) :
    contactsAfter py (upsertContactWithStatusFallback id payload answers).2 store =
      Function.update store (py.lower payload.uniqueEmail) (some payload.person) := by
  unfold upsertContactWithStatusFallback at haccepted ⊢
  cases hfirst : answers.first with
  | contact contactId => rfl
  | unusable message => rfl
  | error message =>
      rw [hfirst] at haccepted
      cases haccepted
  | statusError message body =>
      rw [hfirst] at haccepted
      dsimp only at haccepted ⊢
      by_cases hraised : payload.contactStatusId = none ∨
          ¬ contactStatusErrorMarker.toList <:+: body.toList
      · rw [if_pos hraised] at haccepted
        cases haccepted
      · rw [if_neg hraised] at haccepted ⊢
        rw [contactsAfter, haccepted]
        -- the rejected call has written nothing
        rfl

/-- The upsert of a second participant that has an address which is a text writes its contact. -/
theorem applyUpsert_second {p : SecondContactPayload} {second : List (String × Json)} (id : Nat)
    (accepted : Bool) (store : ContactStore) (htruthy : (Json.member second "email").truthy = true)
    (hemail : p.uniqueEmail = Json.member second "email") (hperson : p.person = secondPerson second) :
    applyUpsert py (.second id p accepted) store = storeSecond py second accepted store := by
  cases accepted with
  | false => rfl
  | true =>
      simp only [applyUpsert, storeSecond, secondEmail, hemail, hperson]
      cases hvalue : Json.member second "email" with
      | str email =>
          have hne : email ≠ "" := by
            intro h
            rw [hvalue, h] at htruthy
            cases htruthy
          simp only [hne, if_false]
      | null => rfl
      | bool b => rfl
      | num q => rfl
      | arr xs => rfl
      | obj members => rfl

theorem storeSecond_without {second : List (String × Json)} (accepted : Bool) (store : ContactStore)
    (hemail : (Json.member second "email").truthy = false) :
    storeSecond py second accepted store = store := by
  have hnone : secondEmail second = none := by
    unfold secondEmail
    split
    · rename_i email hvalue
      rw [hvalue] at hemail
      simpa [Json.truthy] using hemail
    · rfl
  unfold storeSecond
  split
  · rename_i email hsome
    rw [hnone] at hsome
    cases hsome
  · rfl

/-- A sync that records `synced` has written the lead, and then the second participant of its form. -/
theorem contactsAfter_syncLead (py : LowerCase) (store : ContactStore)
    (hsync : (syncLead globalSync force campaign row answers now).1 = .ok lead)
    (hsynced : lead.crmSyncStatus = .synced) :
    ∃ second, secondAnswers row.2.responses = some second ∧
      contactsAfter py (syncLead globalSync force campaign row answers now).2 store =
        storeSecond py second answers.second.accepted
          (Function.update store (py.lower row.2.email) (some row.2.person)) := by
  unfold syncLead at hsync ⊢
  split at hsync
  · -- behind a closed gate nothing is recorded as synced
    rw [← Except.ok.inj hsync] at hsynced
    cases hsynced
  rename_i hopen
  rw [if_neg hopen]
  dsimp only at hsync ⊢
  set upsert := upsertContactWithStatusFallback row.1 (buildContactPayload row.2 campaign) answers
    with hupsert
  have hlead : lead = recordOutcome row.2 upsert.1 now ∧ ∃ payload,
      buildSecondParticipantContactPayload (recordOutcome row.2 upsert.1 now) campaign =
        .ok payload := by
    split at hsync
    · cases hsync
    · rename_i hsecond
      exact ⟨(Except.ok.inj hsync).symm, none, hsecond⟩
    · rename_i payload hsecond
      exact ⟨(Except.ok.inj hsync).symm, some payload, hsecond⟩
  obtain ⟨rfl, payload, hpayload⟩ := hlead
  have haccepted : upsert.1.accepted = true := by
    rcases recordOutcome_status row.2 upsert.1 now with ⟨-, h⟩ | h
    · exact h
    · rw [h] at hsynced
      cases hsynced
  obtain ⟨second, hsecond, hsent⟩ := buildSecond_ok hpayload
  have hwritten : contactsAfter py upsert.2 store =
      Function.update store (py.lower row.2.email) (some row.2.person) :=
    contactsAfter_upsertContact row.1 (buildContactPayload row.2 campaign) store haccepted
  rw [(sameButCrm_recordOutcome row.2 upsert.1 now).submitted] at hsecond
  refine ⟨second, hsecond, ?_⟩
  rw [hpayload]
  cases payload with
  | none => rw [storeSecond_without _ _ hsent]; exact hwritten
  | some p =>
      obtain ⟨htruthy, hemail, hperson⟩ := hsent
      rw [← hwritten]
      exact applyUpsert_second row.1 answers.second.accepted _ htruthy hemail hperson

/-! ## Two participants -/

/-- The contact under the lead's address is the lead's, and a second participant with an address of
its own that the CRM takes is stored under that address, stripped and lowercased. -/
structure ParticipantsApart (py : LowerCase) (lead : Lead) (second : List (String × Json))
    (taken : Bool) (store : ContactStore) : Prop where
  primary : store (py.lower lead.email) = some lead.person
  second : taken = true → ∀ email, secondEmail second = some email →
    py.lower (strip email) ≠ py.lower lead.email →
      store (py.lower (strip email)) = some (secondPerson second)

/-- The second participant has the lead's key only if it is the same person, and an address other than
the lead's has the key that it has when stripped. -/
structure OwnKeys (py : LowerCase) (lead : Lead) (second : List (String × Json)) (email : String) :
    Prop where
  same : py.lower email = py.lower lead.email → secondPerson second = lead.person
  other : py.lower (strip email) ≠ py.lower lead.email → py.lower email = py.lower (strip email)

/-- The two writes keep the participants apart, whatever was stored, exactly when the keys do. -/
theorem storeSecond_apart_iff (py : LowerCase) (l : Lead) (second : List (String × Json))
    (taken : Bool) :
    (∀ store, ParticipantsApart py l second taken
        (storeSecond py second taken (Function.update store (py.lower l.email) (some l.person)))) ↔
      (taken = true → ∀ email, secondEmail second = some email → OwnKeys py l second email) := by
  constructor
  · rintro h rfl email hemail
    constructor
    · intro hkey
      have hlead := (h fun _ => none).primary
      simp only [storeSecond, hemail] at hlead
      rw [← hkey, Function.update_self] at hlead
      exact Option.some.inj hlead
    · intro hother
      by_contra hne
      -- an empty store then has nothing under the address of the second participant
      have hsecond := (h fun _ => none).second rfl email hemail hother
      simp only [storeSecond, hemail] at hsecond
      rw [Function.update_of_ne (Ne.symm hne), Function.update_of_ne hother] at hsecond
      cases hsecond
  · intro h store
    by_cases hsent : taken = true ∧ ∃ email, secondEmail second = some email
    · obtain ⟨rfl, email, hemail⟩ := hsent
      have hkeys := h rfl email hemail
      simp only [storeSecond, hemail]
      constructor
      · by_cases hkey : py.lower email = py.lower l.email
        · rw [← hkey, Function.update_self, hkeys.same hkey]
        · rw [Function.update_of_ne (Ne.symm hkey), Function.update_self]
      · rintro - email' hemail' hother
        obtain rfl := Option.some.inj (hemail.symm.trans hemail')
        rw [hkeys.other hother, Function.update_self]
    · have hstore : ∀ s, storeSecond py second taken s = s := by
        intro s
        unfold storeSecond
        split
        · rename_i email hemail
          exact absurd ⟨rfl, email, hemail⟩ hsent
        · rfl
      rw [hstore]
      exact ⟨Function.update_self .., fun htaken email hemail => absurd ⟨htaken, email, hemail⟩ hsent⟩

/-- **Neither participant overwrites the other.** After a sync that records `synced`, and whatever the
CRM held before, the participants are stored apart exactly when the address of the second one is not
read as the lead's, unless it is the same person, and needs no stripping. -/
theorem participants_apart_iff (py : LowerCase) (answers : CrmAnswers)
    (hsync : (syncLead globalSync force campaign row answers now).1 = .ok lead)
    (hsynced : lead.crmSyncStatus = .synced) :
    (∀ store, ∃ second, secondAnswers row.2.responses = some second ∧
        ParticipantsApart py row.2 second answers.second.accepted
          (contactsAfter py (syncLead globalSync force campaign row answers now).2 store)) ↔
      (answers.second.accepted = true → ∀ second, secondAnswers row.2.responses = some second →
        ∀ email, secondEmail second = some email → OwnKeys py row.2 second email) := by
  obtain ⟨second, hsecond, -⟩ := contactsAfter_syncLead py (fun _ => none) hsync hsynced
  have hafter : ∀ store, contactsAfter py (syncLead globalSync force campaign row answers now).2 store =
      storeSecond py second answers.second.accepted
        (Function.update store (py.lower row.2.email) (some row.2.person)) := by
    intro store
    obtain ⟨second', hsecond', h⟩ := contactsAfter_syncLead py store hsync hsynced
    obtain rfl := Option.some.inj (hsecond.symm.trans hsecond')
    exact h
  simp only [hsecond, hafter, Option.some.injEq, exists_eq_left', forall_eq']
  exact storeSecond_apart_iff py row.2 second answers.second.accepted

/-! ## Ada and Bola -/

/-- Ada's lead, with the given second participant. -/
def adaWith (second : List (String × Json)) : LeadRow :=
  (1, { newLead 1 "ada@x.ng" with
    firstName := "Ada", lastName := "Obi", responses := .obj [("second_participant", .obj second)] })

def bolaAt (email : String) : List (String × Json) :=
  [("first_name", .str "Bola"), ("last_name", .str "Ade"), ("email", .str email)]

/-- The CRM takes both. -/
def takesBoth : CrmAnswers := ⟨.contact (some "7"), .error "", .contact (some "8")⟩

/-- With an address of their own both are stored. -/
theorem bola_stored_apart :
    ∃ second, secondAnswers (adaWith (bolaAt "bola@x.ng")).2.responses = some second ∧
      ParticipantsApart asciiLower (adaWith (bolaAt "bola@x.ng")).2 second true
        (contactsAfter asciiLower
          (syncLead true false plainCampaign (adaWith (bolaAt "bola@x.ng")) takesBoth noon).2
          fun _ => none) := by
  refine (participants_apart_iff asciiLower takesBoth rfl rfl).2 ?_ fun _ => none
  intro _ second hsecond email hemail
  obtain rfl := Option.some.inj hsecond
  obtain rfl := Option.some.inj hemail
  exact ⟨fun h => absurd h (by decide), fun _ => by decide⟩

/-- Bola gives Ada's address in capitals: the contact under it is then Bola's. -/
theorem bola_overwrites_ada :
    ¬ ∀ store, ∃ second, secondAnswers (adaWith (bolaAt "ADA@x.ng")).2.responses = some second ∧
      ParticipantsApart asciiLower (adaWith (bolaAt "ADA@x.ng")).2 second true
        (contactsAfter asciiLower
          (syncLead true false plainCampaign (adaWith (bolaAt "ADA@x.ng")) takesBoth noon).2 store) := by
  intro h
  obtain ⟨second, -, hapart⟩ := h fun _ => none
  exact absurd (congrArg (Option.map PersonFields.firstName) hapart.primary) (by decide)

end SalesTrades.Leads
