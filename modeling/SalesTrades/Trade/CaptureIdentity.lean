import SalesTrades.Trade.Capture

/-!
# Whose row a registration lands on

A call that returns has stored the submission on a primary row under its email, and left the people
of other registrations alone, exactly when no second participant of the program already has the
email (`captureRegistration_stores_iff`): the dedup lookup ignores `is_primary`, so otherwise the
submission is written over that second participant (`captureRegistration_overwrites_second`).
-/

set_option autoImplicit false

namespace SalesTrades.Trade

open SalesTrades.Library

variable {py : LowerCase} {program : TradeProgram} {payload : Registration}

/-! ## What the two writes do -/

theorem getByProgramEmail_eq_some {t : TradeLeads} {programId : Nat} {email : String}
    {q : Participant} (h : getByProgramEmail t programId email = some q) :
    q ∈ t.rows ∧ q.2.tradeProgramId = programId ∧ q.2.email = email := by
  unfold getByProgramEmail at h
  split at h
  · cases h
  · obtain ⟨hmem, hq⟩ := Table.mem_of_first h
    simp only [Bool.and_eq_true, beq_iff_eq] at hq
    exact ⟨hmem, hq⟩

theorem getByProgramEmail_eq_none {t : TradeLeads} {programId : Nat} {email : String}
    (hemail : email ≠ "") (h : getByProgramEmail t programId email = none) :
    ∀ q ∈ t.rows, ¬ (q.2.tradeProgramId = programId ∧ q.2.email = email) := by
  unfold getByProgramEmail at h
  rw [if_neg hemail, Table.first_eq_none_iff] at h
  intro q hq hkey
  have := h q hq
  simp [hkey] at this

/-- The unique index: the lookup finds the row of the program that has the email. -/
theorem getByProgramEmail_of_mem {t : TradeLeads} {email : String} {q : Participant}
    (hemail : email ≠ "") (hq : q ∈ t.rows) (hqe : q.2.email = email) :
    getByProgramEmail t q.2.tradeProgramId email = some q := by
  cases h : getByProgramEmail t q.2.tradeProgramId email with
  | none => exact absurd ⟨rfl, hqe⟩ (getByProgramEmail_eq_none hemail h q hq)
  | some r =>
      obtain ⟨hr, hrp, hre⟩ := getByProgramEmail_eq_some h
      have hkey : ∀ x : Participant, x.2.tradeProgramId = q.2.tradeProgramId → x.2.email = email →
          x.2.emailKey = some (q.2.tradeProgramId, email) := by
        intro x hp he
        exact TradeLead.emailKey_eq_some.2 ⟨he ▸ hemail, hp, he⟩
      rw [t.eq_of_key hr hq (hkey r hrp hre) (hkey q rfl hqe)]

theorem findSecond_eq_some {t : TradeLeads} {primary s : Participant} (hmem : primary ∈ t.rows)
    (h : findSecond t primary = some s) :
    s ∈ t.rows ∧ s.2.registrationId = primary.2.registrationId ∧ s.2.isPrimary = false := by
  simp only [findSecond, Option.map_eq_some_iff] at h
  obtain ⟨q, hq, rfl⟩ := h
  have hqmem : q ∈ t.rows ∧ q.2.registrationId = primary.2.registrationId := by
    have := List.mem_of_find?_eq_some hq
    rw [listByRegistration, List.mem_insertionSort, Table.mem_select, beq_iff_eq] at this
    exact this
  have hqp : q.2.isPrimary = false := by simpa using List.find?_some hq
  split
  · rename_i hid
    have := t.eq_of_id hqmem.1 hmem hid
    subst this
    exact ⟨hmem, rfl, hqp⟩
  · exact ⟨hqmem.1, hqmem.2, hqp⟩

section Driver

variable [ColumnDriver]

/-- The primary's write: it leaves a row with the payload's names under the payload's email, primary
when it is new or was primary before, and touches no other row. -/
theorem storePrimary_ok {email uuid : String} {t t' : TradeLeads} {p : Participant}
    (h : storePrimary program payload email uuid (getByProgramEmail t program.id email) t =
      .ok (p, t')) :
    p ∈ t'.rows ∧ Table.SameExcept p.1 t t' ∧ p.2.tradeProgramId = program.id ∧
      p.2.email = email ∧ p.2.firstName = payload.firstName ∧ p.2.lastName = payload.lastName ∧
      ((getByProgramEmail t program.id email = none ∧ (∀ q ∈ t.rows, q.1 ≠ p.1) ∧
          p.2.isPrimary = true) ∨
        ∃ loaded, getByProgramEmail t program.id email = some (p.1, loaded) ∧
          p.2.isPrimary = loaded.isPrimary ∧ p.2.registrationId = loaded.registrationId) := by
  replace h := (storePrimary_eq_ok.1 h).2
  cases hex : getByProgramEmail t program.id email with
  | none =>
      rw [hex] at h
      obtain ⟨hflush, hins⟩ := createLead_ok h
      obtain ⟨phone, jobTitle, -, -, -, hp⟩ := flush_eq_some hflush
      have hfields : p.2.tradeProgramId = program.id ∧ p.2.email = email ∧
          p.2.firstName = payload.firstName ∧ p.2.lastName = payload.lastName ∧
          p.2.isPrimary = true := by
        rw [hp]
        exact ⟨rfl, rfl, rfl, rfl, rfl⟩
      obtain ⟨hprog, hemail, hfirst, hlast, hprim⟩ := hfields
      have hid := (Table.insert_eq_some hins).1
      refine ⟨(Table.mem_of_insert hins).2 (Or.inr rfl), Table.sameExcept_insert hins, hprog, hemail,
        hfirst, hlast, Or.inl ⟨rfl, ?_, hprim⟩⟩
      intro q hq
      exact hid ▸ Nat.ne_of_lt (t.id_lt q hq)
  | some loaded =>
      rw [hex] at h
      obtain ⟨hmem, -, hloaded_email⟩ := getByProgramEmail_eq_some hex
      obtain ⟨new, current, hflush, hcurrent, hp, hupd⟩ := updateLead_ok h
      obtain ⟨phone, jobTitle, -, -, -, hnew⟩ := flush_eq_some hflush
      -- alone, the row is still the one the lookup loaded, so the flush leaves the new values
      have hsame : (loaded.1, current) = loaded := t.eq_of_id hcurrent hmem rfl
      have hcur : current = loaded.2 := congrArg Prod.snd hsame
      rw [hcur, TradeLead.write_current_loaded] at hp
      subst hp
      simp only at hupd ⊢
      refine ⟨(Table.mem_of_update hupd).2 (Or.inr ⟨rfl, loaded.2, hmem⟩),
        Table.sameExcept_update hupd, ?_⟩
      subst hnew
      exact ⟨rfl, hloaded_email, rfl, rfl, Or.inr ⟨loaded.2, rfl, rfl, rfl⟩⟩

/-- The second participant's write: it leaves a row of the primary's registration that is not
primary, new or not primary before, and touches no other row. -/
theorem storeSecond_ok {t t' : TradeLeads} {primary second : Participant} {kwargs : SecondKwargs}
    (hmem : primary ∈ t.rows)
    (h : storeSecond program payload primary kwargs (findSecond t primary) t = .ok (second, t')) :
    second ∈ t'.rows ∧ Table.SameExcept second.1 t t' ∧ second.2.isPrimary = false ∧
      second.2.registrationId = primary.2.registrationId ∧
      ∀ q ∈ t.rows, q.1 = second.1 →
        q.2.isPrimary = false ∧ q.2.registrationId = primary.2.registrationId := by
  cases hfound : findSecond t primary with
  | none =>
      rw [hfound] at h
      obtain ⟨hflush, hins⟩ := createLead_ok h
      obtain ⟨phone, jobTitle, -, -, -, hs⟩ := flush_eq_some hflush
      have hfields : second.2.isPrimary = false ∧
          second.2.registrationId = primary.2.registrationId := by
        rw [hs]
        exact ⟨rfl, rfl⟩
      refine ⟨(Table.mem_of_insert hins).2 (Or.inr rfl), Table.sameExcept_insert hins, hfields.1,
        hfields.2, ?_⟩
      intro q hq hid
      have := t.id_lt q hq
      rw [hid, (Table.insert_eq_some hins).1] at this
      exact absurd this (lt_irrefl _)
  | some loaded =>
      rw [hfound] at h
      obtain ⟨hloaded, hreg, hprim⟩ := findSecond_eq_some hmem hfound
      obtain ⟨new, current, hflush, hcurrent, hs, hupd⟩ := updateLead_ok h
      obtain ⟨phone, jobTitle, -, -, -, hnew⟩ := flush_eq_some hflush
      have hsame : (loaded.1, current) = loaded := t.eq_of_id hcurrent hloaded rfl
      have hcur : current = loaded.2 := congrArg Prod.snd hsame
      rw [hcur, TradeLead.write_current_loaded] at hs
      subst hs
      simp only at hupd ⊢
      refine ⟨(Table.mem_of_update hupd).2 (Or.inr ⟨rfl, loaded.2, hloaded⟩),
        Table.sameExcept_update hupd, ?_⟩
      subst hnew
      refine ⟨hprim, hreg, fun q hq hid => ?_⟩
      rw [t.eq_of_id hq hloaded hid]
      exact ⟨hprim, hreg⟩

/-! ## The whole call -/

/-- A call that returns has written the primary, and nothing else or the second participant. -/
theorem captureInProgram_ok {uuid : String} {t t' : TradeLeads} {participants : List Participant}
    {created : Bool}
    (h : captureInProgram py program payload uuid t = (t', .ok (participants, created))) :
    ∃ primary t₁,
      storePrimary program payload (normaliseEmail py payload.email) uuid
          (getByProgramEmail t program.id (normaliseEmail py payload.email)) t =
        .ok (primary, t₁) ∧
      (t' = t₁ ∨ ∃ kwargs second,
        storeSecond program payload primary kwargs (findSecond t₁ primary) t₁ =
          .ok (second, t')) := by
  simp only [captureInProgram] at h
  split at h
  · simp at h
  · rename_i primary t₁ hprimary
    refine ⟨primary, t₁, hprimary, ?_⟩
    split at h
    · simp at h
    · simp only [Prod.mk.injEq] at h
      -- no second participant: the primary was the only write
      exact Or.inl h.1.symm
    · rename_i kwargs warning _
      split at h
      · simp at h
      · rename_i second t₂ hsecond
        simp only [Prod.mk.injEq] at h
        exact Or.inr ⟨kwargs, second, h.1 ▸ hsecond⟩

theorem captureRegistration_ok {programs : List TradeProgram} {slug uuid : String}
    {t t' : TradeLeads} {participants : List Participant} {created : Bool}
    (h : captureRegistration py programs slug payload uuid t =
      (t', .ok (program, participants, created))) :
    captureInProgram py program payload uuid t = (t', .ok (participants, created)) := by
  unfold captureRegistration at h
  split at h
  · simp at h
  · split at h
    · simp at h
    · split at h
      · simp at h
      · rename_i found _ _ t₁ ps c hcall
        simp only [Prod.mk.injEq, Except.ok.injEq] at h
        obtain ⟨rfl, rfl, rfl, rfl⟩ := h
        exact hcall

/-- The columns that say who a participant is. -/
structure Identity where
  firstName : String
  lastName : String
  email : String
  phone : Json
  jobTitle : Json
  responses : Json

def TradeLead.identity (l : TradeLead) : Identity where
  firstName := l.firstName
  lastName := l.lastName
  email := l.email
  phone := l.phone
  jobTitle := l.jobTitle
  responses := l.responses

/-- The submission is stored: a primary row of the program under the payload's email, with the
payload's names, and nobody of another registration has changed. -/
def Stored (py : LowerCase) (program : TradeProgram) (payload : Registration)
    (t t' : TradeLeads) : Prop :=
  ∃ p ∈ t'.rows, p.2.tradeProgramId = program.id ∧ p.2.isPrimary = true ∧
    p.2.email = normaliseEmail py payload.email ∧ p.2.firstName = payload.firstName ∧
    p.2.lastName = payload.lastName ∧
    ∀ q ∈ t.rows, q.2.registrationId ≠ p.2.registrationId →
      ∃ r ∈ t'.rows, r.1 = q.1 ∧ r.2.identity = q.2.identity

/-- The row the dedup lookup finds decides whether the submission is stored. -/
theorem stored_of_primary {uuid : String} {t t' : TradeLeads} {participants : List Participant}
    {created : Bool}
    (h : captureInProgram py program payload uuid t = (t', .ok (participants, created)))
    (hprim : ∀ q ∈ t.rows, q.2.tradeProgramId = program.id →
      q.2.email = normaliseEmail py payload.email → q.2.isPrimary = true) :
    Stored py program payload t t' := by
  obtain ⟨p, t₁, hstore, hrest⟩ := captureInProgram_ok h
  obtain ⟨hp, hsame, hprog, hemail, hfirst, hlast, hcase⟩ := storePrimary_ok hstore
  have hp_prim : p.2.isPrimary = true := by
    rcases hcase with ⟨-, -, hnew⟩ | ⟨loaded, hfound, hkeep, -⟩
    · exact hnew
    · obtain ⟨hmem, hlp, hle⟩ := getByProgramEmail_eq_some hfound
      rw [hkeep]
      exact hprim _ hmem hlp hle
  -- a row of another registration is not the one the primary's write touches
  have hkept₁ : ∀ q ∈ t.rows, q.2.registrationId ≠ p.2.registrationId → q ∈ t₁.rows := by
    intro q hq hreg
    refine (hsame q ?_).2 hq
    rcases hcase with ⟨-, hfresh, -⟩ | ⟨loaded, hfound, -, hregEq⟩
    · exact hfresh q hq
    · intro hid
      have hmem := (getByProgramEmail_eq_some hfound).1
      have := t.eq_of_id hq hmem hid
      subst this
      exact hreg hregEq.symm
  rcases hrest with rfl | ⟨kwargs, second, hsecond⟩
  · exact ⟨p, hp, hprog, hp_prim, hemail, hfirst, hlast,
      fun q hq hreg => ⟨q, hkept₁ q hq hreg, rfl, rfl⟩⟩
  · -- the second write touches a row of this registration that is not primary, so not `p`
    obtain ⟨-, hsame₂, -, -, hold⟩ := storeSecond_ok hp hsecond
    have hp' : p ∈ t'.rows := by
      refine (hsame₂ p ?_).2 hp
      intro hid
      have := (hold p hp hid).1
      rw [hp_prim] at this
      cases this
    refine ⟨p, hp', hprog, hp_prim, hemail, hfirst, hlast, fun q hq hreg => ?_⟩
    refine ⟨q, (hsame₂ q ?_).2 (hkept₁ q hq hreg), rfl, rfl⟩
    exact fun hid => hreg (hold q (hkept₁ q hq hreg) hid).2

/-- A second participant that has the email is written over, and no primary row under the email is
left to store the submission. -/
theorem not_stored_of_second {uuid : String} {t t' : TradeLeads} {participants : List Participant}
    {created : Bool} {q : Participant}
    (h : captureInProgram py program payload uuid t = (t', .ok (participants, created)))
    (hq : q ∈ t.rows) (hqprog : q.2.tradeProgramId = program.id)
    (hqemail : q.2.email = normaliseEmail py payload.email) (hqprim : q.2.isPrimary = false) :
    ¬ Stored py program payload t t' := by
  rintro ⟨r, hr, hrprog, hrprim, hremail, -⟩
  have hne := normaliseEmail_ne_empty py payload.email
  have hfound := getByProgramEmail_of_mem hne hq hqemail
  rw [hqprog] at hfound
  obtain ⟨p, t₁, hstore, hrest⟩ := captureInProgram_ok h
  obtain ⟨hp, hsame, -, -, -, -, hcase⟩ := storePrimary_ok hstore
  have hpq : p.1 = q.1 ∧ p.2.isPrimary = false := by
    rcases hcase with ⟨hnone, -⟩ | ⟨loaded, hsome, hkeep, -⟩
    · rw [hfound] at hnone
      cases hnone
    · rw [hfound] at hsome
      cases hsome
      exact ⟨rfl, hkeep.trans hqprim⟩
  -- the second write leaves a row that is not primary, so `r` was there before it
  have hr₁ : r ∈ t₁.rows := by
    rcases hrest with rfl | ⟨kwargs, second, hsecond⟩
    · exact hr
    · obtain ⟨hmem, hsame₂, hnot, -⟩ := storeSecond_ok hp hsecond
      refine (hsame₂ r ?_).1 hr
      intro hid
      rw [t'.eq_of_id hr hmem hid, hnot] at hrprim
      cases hrprim
  have hrp : r.1 ≠ p.1 := by
    intro hid
    rw [t₁.eq_of_id hr₁ hp hid, hpq.2] at hrprim
    cases hrprim
  -- the primary row would be a second row of the program under the email
  have hrt : r ∈ t.rows := (hsame r hrp).1 hr₁
  have hkey : ∀ x : Participant, x.2.tradeProgramId = program.id →
      x.2.email = normaliseEmail py payload.email →
      x.2.emailKey = some (program.id, normaliseEmail py payload.email) :=
    fun x hx he => TradeLead.emailKey_eq_some.2 ⟨he ▸ hne, hx, he⟩
  have := t.eq_of_key hrt hq (hkey r hrprog hremail) (hkey q hqprog hqemail)
  exact hrp (this ▸ hpq.1.symm)

/-- **Exactly when a registration is stored.** A call that returns has stored the submission on a
primary row, with everybody else's registration untouched, if and only if no second participant of
the program has the payload's email. -/
theorem captureRegistration_stores_iff {programs : List TradeProgram} {slug uuid : String}
    {t t' : TradeLeads} {participants : List Participant} {created : Bool}
    (h : captureRegistration py programs slug payload uuid t =
      (t', .ok (program, participants, created))) :
    Stored py program payload t t' ↔
      ∀ q ∈ t.rows, q.2.tradeProgramId = program.id →
        q.2.email = normaliseEmail py payload.email → q.2.isPrimary = true := by
  have hcall := captureRegistration_ok h
  refine ⟨fun hstored q hq hqprog hqemail => ?_, stored_of_primary hcall⟩
  -- a second participant with the email would be the row the lookup finds
  by_contra hqprim
  exact not_stored_of_second hcall hq hqprog hqemail (by simpa using hqprim) hstored

end Driver

/-! ## A registration over somebody's colleague -/

/-- An active program without a review step. -/
def openProgram : TradeProgram where
  id := 1
  slug := "launchpad"
  status := .active
  config :=
    { baseTags := ["Launchpad"], crmSyncEnabled := none, requireAdminApproval := none
      crmLeadSourceId := .null }

/-- A submission of `name` under `email`, with the given responses. -/
def submission (name : String) (email : EmailStr) (responses : List (String × Json)) :
    Registration where
  firstName := name
  lastName := "Obi"
  email := email
  phone := none
  company := none
  jobTitle := none
  source := "form"
  capturedAt := none
  responses := responses

/-- Ada registers with Ben as her second participant. -/
def adaWithBen : Registration :=
  submission "Ada" adaEmail
    [("second_participant", .obj [("first_name", .str "Ben"), ("email", .str "ben@x.ng")])]

/-- The address Ada gives for Ben. -/
def benEmail : EmailStr := ⟨"ben@x.ng", by decide⟩

/-- Someone at another company registers under the email Ada gave for Ben. -/
def benAlone : Registration := submission "Benedict" benEmail []

attribute [local instance] plainDriver

/-- The table after Ada's registration. -/
def afterAda : TradeLeads :=
  (captureRegistration asciiLower [openProgram] "launchpad" adaWithBen "r-ada"
    (Table.empty _)).1

/-- The second submission returns, and is stored over Ada's second participant. -/
theorem captureRegistration_overwrites_second : ∃ t' participants,
    captureRegistration asciiLower [openProgram] "launchpad" benAlone "r-ben" afterAda =
      (t', .ok (openProgram, participants, false)) ∧
    ¬ Stored asciiLower openProgram benAlone afterAda t' := by
  refine ⟨_, _, rfl, ?_⟩
  rintro ⟨p, hp, -, hprim, hemail, -⟩
  revert p
  decide

/-- Ada's own re-submission lands on her row, and is stored. -/
theorem captureRegistration_stores_ada : ∃ t' participants,
    captureRegistration asciiLower [openProgram] "launchpad" adaWithBen "r-ada2" afterAda =
      (t', .ok (openProgram, participants, false)) ∧
    Stored asciiLower openProgram adaWithBen afterAda t' := by
  have hprim : ∀ q ∈ afterAda.rows, q.2.tradeProgramId = openProgram.id →
      q.2.email = normaliseEmail asciiLower adaWithBen.email → q.2.isPrimary = true := by decide
  obtain ⟨t', participants, hrun⟩ : ∃ t' participants,
      captureRegistration asciiLower [openProgram] "launchpad" adaWithBen "r-ada2" afterAda =
        (t', .ok (openProgram, participants, false)) := ⟨_, _, rfl⟩
  exact ⟨t', participants, hrun, (captureRegistration_stores_iff hrun).2 hprim⟩

end SalesTrades.Trade
