import SalesTrades.Library.PartialRecord
import SalesTrades.Trade.CaptureRace
import SalesTrades.Trade.SharedFields

/-!
# Registering again

A registration is filled in over several calls under one address. What it should hold is the partial
record of the answers given so far, each submission laid over the earlier ones. `_apply_payload`
replaces instead: a row holds what the last submission says, and null where that one says nothing. The
two agree exactly when no submission leaves out what an earlier one said
(`reregistration_merges_iff`).
-/

set_option autoImplicit false

namespace SalesTrades.Trade

open SalesTrades.Library SalesTrades.Library.Run SalesTrades.Library.PartialRecord

variable {py : LowerCase} {program : TradeProgram} {payload : Registration} {uuid : String}
  {programs : List TradeProgram} {t t' : TradeLeads}

/-! ## Answers -/

/-- The fields of a registration. -/
inductive RegField where
  | company
  | phone
  | jobTitle
  | shared (k : SharedKey)
  | response (key : String)

/-- What a submission has for the field, null when it leaves it out. -/
def RegField.value (payload : Registration) : RegField → Json
  | .company => Json.ofOption payload.company
  | .phone => Json.ofOption payload.phone
  | .jobTitle => Json.ofOption payload.jobTitle
  | .shared k => sharedFieldsFromResponses payload.responses k
  | .response key => Json.member payload.responses key

/-- The fields that both rows of a registration have. -/
def RegField.OnBoth : RegField → Prop
  | .company | .shared _ => True
  | .phone | .jobTitle | .response _ => False

abbrev Answers := PartialRecord fun _ : RegField => Json

/-- The fields that a submission carries with a value other than null. -/
def carried (payload : Registration) : Answers := fun f =>
  match f.value payload with
  | .null => none
  | v => some v

theorem carried_eq_none_iff {f : RegField} : carried payload f = none ↔ f.value payload = .null := by
  unfold carried
  cases f.value payload <;> simp

theorem carried_eq_some_iff {f : RegField} {v : Json} :
    carried payload f = some v ↔ f.value payload = v ∧ v ≠ .null := by
  unfold carried
  cases f.value payload <;> cases v <;> simp

section Driver

variable [ColumnDriver]

/-- The row holds the value in the field, as the driver stores it. -/
def RegField.Holds (l : TradeLead) (v : Json) : RegField → Prop
  | .company => Json.ofOption l.company = v
  | .phone => l.phone = v
  | .jobTitle => l.jobTitle = v
  | .shared k => k.columnType.bind v = some (l.shared k)
  | .response key => ∃ members, l.responses = .obj members ∧ Json.member members key = v

/-- A field that holds null holds nothing else. -/
theorem RegField.Holds.eq_null {f : RegField} {l : TradeLead} {v : Json} (hnull : f.Holds l .null)
    (h : f.Holds l v) : v = .null := by
  cases f with
  | company => exact h.symm.trans hnull
  | phone => exact h.symm.trans hnull
  | jobTitle => exact h.symm.trans hnull
  | shared k =>
      exact ColumnType.bind_eq_null_iff.1
        (h.trans (hnull.symm.trans (ColumnType.bind_eq_null_iff.2 rfl)))
  | response key =>
      obtain ⟨members, hmembers, hmember⟩ := h
      obtain ⟨members', hmembers', hmember'⟩ := hnull
      obtain rfl : members = members' := Json.obj.inj (hmembers.symm.trans hmembers')
      exact hmember.symm.trans hmember'

/-! ## What the writes put into the fields -/

theorem PrimaryWrite.holds {p : Participant} (h : PrimaryWrite py program payload uuid t p t')
    (f : RegField) : f.Holds p.2 (f.value payload) := by
  obtain ⟨hcompany, hphone, hjob, hresponses, -, hshared⟩ := h.values
  cases f with
  | company => exact congrArg Json.ofOption hcompany
  | phone => exact hphone
  | jobTitle => exact hjob
  | shared k => exact hshared k
  | response key => exact ⟨payload.responses, hresponses, rfl⟩

theorem SecondWrite.holds {primary s : Participant} {kwargs : SecondKwargs}
    (h : SecondWrite program payload primary kwargs t s t') {f : RegField} (hf : f.OnBoth) :
    f.Holds s.2 (f.value payload) := by
  cases f with
  | company => exact congrArg Json.ofOption h.shared.1
  | shared k => exact h.shared.2 k
  | phone => exact hf.elim
  | jobTitle => exact hf.elim
  | response key => exact hf.elim

/-! ## What a registration should hold -/

/-- The row under the address holds the value, and so does the other row of its registration where it
has the field. -/
def HeldAt (program : TradeProgram) (email : String) (t : TradeLeads) (f : RegField) (v : Json) :
    Prop :=
  ∃ p, getByProgramEmail t program.id email = some p ∧ f.Holds p.2 v ∧
    (f.OnBoth → ∀ o ∈ t.rows, o.2.registrationId = p.2.registrationId → f.Holds o.2 v)

/-- The table, and the answers that the submissions have given so far. -/
structure Wizard where
  leads : TradeLeads
  latest : Answers

/-- One submission: its answers are laid over the earlier ones. -/
def submit (py : LowerCase) (programs : List TradeProgram) (act : CaptureAct) (s : Wizard) :
    Option Wizard :=
  (captureAct py programs act s.leads).map fun leads =>
    { leads := leads, latest := overlay (carried act.payload) s.latest }

/-- Every answer given so far is held. -/
def Merged (program : TradeProgram) (email : String) (s : Wizard) : Prop :=
  ∀ f v, s.latest f = some v → HeldAt program email s.leads f v

/-- The submission carries every field that an earlier one carried. -/
def Complete (payload : Registration) (latest : Answers) : Prop :=
  ∀ f, latest f ≠ none → carried payload f ≠ none

/-- The submission names a second participant that can be stored. -/
def StoresSecond (py : LowerCase) (program : TradeProgram) (payload : Registration)
    (t : TradeLeads) : Prop :=
  namedSecond py payload ≠ none ∧ SecondStorable py program payload t

/-- What keeps the answers when a submission is stored. -/
structure Merges (py : LowerCase) (program : TradeProgram) (payload : Registration)
    (s : Wizard) : Prop where
  complete : Complete payload s.latest
  lands : StoresSecond py program payload s.leads → ∀ loaded,
    getByProgramEmail s.leads program.id (normaliseEmail py payload.email) = some loaded →
      loaded.2.isPrimary = true
  others : ¬ StoresSecond py program payload s.leads → ∀ loaded,
    getByProgramEmail s.leads program.id (normaliseEmail py payload.email) = some loaded →
      ∀ o ∈ s.leads.rows, o.2.registrationId = loaded.2.registrationId → o.1 ≠ loaded.1 →
        ∀ f : RegField, f.OnBoth → carried payload f ≠ none → f.Holds o.2 (f.value payload)

/-- What a submission has to meet to keep the answers: one that is stored merges, one that is not has
nothing to add. -/
structure KeepsAnswers (py : LowerCase) (program : TradeProgram) (act : CaptureAct)
    (s : Wizard) : Prop where
  stored : program.status = .active → ColumnsFit py act.payload → Merges py program act.payload s
  unstored : ¬ (program.status = .active ∧ ColumnsFit py act.payload) →
    ∀ f v, carried act.payload f = some v →
      HeldAt program (normaliseEmail py act.payload.email) s.leads f v

/-! ## One submission -/

omit [ColumnDriver] in
/-- A second participant is named by a field of `responses`. -/
theorem carried_second {kwargs : SecondKwargs} (h : namedSecond py payload = some kwargs) :
    carried payload (.response "second_participant") ≠ none := by
  intro hnone
  have hnull : Json.member payload.responses "second_participant" = .null :=
    carried_eq_none_iff.1 hnone
  have hparse : secondParticipantFromResponses py payload.responses
      (normaliseEmail py payload.email) = .ok (none, none) := by
    rw [secondParticipantFromResponses, hnull]
    rfl
  rw [namedSecond, hparse] at h
  cases h

/-- A row that holds what the submission says in every field holds all answers exactly when the
submission is complete. -/
theorem holds_latest_iff {l : TradeLead} {latest : Answers} (hlatest : ∀ f, latest f ≠ some .null)
    (hl : ∀ f : RegField, f.Holds l (f.value payload)) :
    (∀ f v, overlay (carried payload) latest f = some v → f.Holds l v) ↔
      Complete payload latest := by
  constructor
  · intro h f hf hnone
    obtain ⟨v, hv⟩ := Option.ne_none_iff_exists'.1 hf
    have hnull : f.Holds l .null := carried_eq_none_iff.1 hnone ▸ hl f
    apply hlatest f
    rw [hv, hnull.eq_null (h f v ((overlay_of_none hnone).trans hv))]
  · intro hcomplete f v hv
    cases hcarried : carried payload f with
    | none =>
        rw [overlay_of_none hcarried] at hv
        exact absurd hcarried (hcomplete f (by rw [hv]; exact Option.some_ne_none v))
    | some w =>
        rw [overlay_of_some hcarried, Option.some.injEq] at hv
        rw [← hv, ← (carried_eq_some_iff.1 hcarried).1]
        exact hl f

omit [ColumnDriver] in
/-- The answers after a complete submission are its own. -/
theorem Complete.overlay_eq {latest : Answers} (h : Complete payload latest) :
    overlay (carried payload) latest = carried payload := by
  funext f
  apply overlay_eq_data_iff.2
  exact fun hnone => not_not.1 fun hlatest => h f hlatest hnone

/-- After a write that leaves the submission in the row under the address, the answers are kept
exactly when it is complete and the other row of the registration holds what both rows have. -/
theorem merged_iff_of_row {p : Participant} {latest : Answers} {email : String}
    (hlatest : ∀ f, latest f ≠ some .null)
    (hlookup : getByProgramEmail t program.id email = some p)
    (hp : ∀ f : RegField, f.Holds p.2 (f.value payload)) :
    Merged program email ⟨t, overlay (carried payload) latest⟩ ↔
      Complete payload latest ∧ ∀ o ∈ t.rows, o.2.registrationId = p.2.registrationId →
        o.1 ≠ p.1 → ∀ f : RegField, f.OnBoth → carried payload f ≠ none →
          f.Holds o.2 (f.value payload) := by
  have hheld : ∀ f v, HeldAt program email t f v ↔ f.Holds p.2 v ∧ (f.OnBoth →
      ∀ o ∈ t.rows, o.2.registrationId = p.2.registrationId → f.Holds o.2 v) := by
    intro f v
    unfold HeldAt
    rw [hlookup]
    simp only [Option.some.injEq, exists_eq_left']
  constructor
  · intro h
    have hcomplete := (holds_latest_iff hlatest hp).1 fun f v hv => ((hheld f v).1 (h f v hv)).1
    refine ⟨hcomplete, fun o ho hreg _ f hf hcarried => ?_⟩
    obtain ⟨v, hv⟩ := Option.ne_none_iff_exists'.1 hcarried
    rw [(carried_eq_some_iff.1 hv).1]
    exact ((hheld f v).1 (h f v ((overlay_of_some hv)))).2 hf o ho hreg
  · rintro ⟨hcomplete, hothers⟩ f v hv
    have hlast := (holds_latest_iff hlatest hp).2 hcomplete f v hv
    refine (hheld f v).2 ⟨hlast, fun hf o ho hreg => ?_⟩
    by_cases hid : o.1 = p.1
    · rw [t.eq_of_id ho (getByProgramEmail_eq_some hlookup).1 hid]
      exact hlast
    · dsimp only at hv
      rw [hcomplete.overlay_eq] at hv
      rw [← (carried_eq_some_iff.1 hv).1]
      exact hothers o ho hreg hid f hf (by rw [hv]; exact Option.some_ne_none v)

/-- The write of the primary alone. -/
theorem merged_primaryWrite_iff {p : Participant} {s : Wizard}
    (hlatest : ∀ f, s.latest f ≠ some .null) (hfresh : FreshId uuid s.leads)
    (hwrite : PrimaryWrite py program payload uuid s.leads p t')
    (halone : ¬ StoresSecond py program payload s.leads) :
    Merged program (normaliseEmail py payload.email) ⟨t', overlay (carried payload) s.latest⟩ ↔
      Merges py program payload s := by
  obtain ⟨hp, hprogram, hemail⟩ := hwrite.stored
  rw [merged_iff_of_row hlatest (getByProgramEmail_primary hp hprogram hemail) hwrite.holds]
  constructor
  · rintro ⟨hcomplete, hothers⟩
    refine ⟨hcomplete, fun h => absurd h halone, fun _ loaded hfound o ho hreg hne => ?_⟩
    obtain ⟨hid, hpreg, -⟩ := hwrite.of_found hfound
    have hother : o.1 ≠ p.1 := hid ▸ hne
    exact hothers o ((hwrite.others o hother).2 ho) (hreg.trans hpreg.symm) hother
  · intro h
    refine ⟨h.complete, fun o ho hreg hne => ?_⟩
    have ho := (hwrite.others o hne).1 ho
    rcases hwrite.registration with ⟨-, hpreg, -⟩ | ⟨loaded, hfound, hpreg, -⟩
    · exact absurd (hreg.trans hpreg) (hfresh o ho)
    · exact h.others halone _ hfound o ho (hreg.trans hpreg) hne

/-- The writes of both rows. Where the submission has landed on a second participant, the second
write takes the address off the row again. -/
theorem merged_secondWrite_iff {p r : Participant} {kwargs : SecondKwargs} {t₁ t₂ : TradeLeads}
    {s : Wizard} (ht : Shaped py s.leads) (hlatest : ∀ f, s.latest f ≠ some .null)
    (hfresh : FreshId uuid s.leads)
    (hprimary : PrimaryWrite py program payload uuid s.leads p t₁)
    (hnamed : namedSecond py payload = some kwargs)
    (hstorable : SecondStorable py program payload s.leads)
    (hstored : SecondWrite program payload p kwargs t₁ r t₂) :
    Merged program (normaliseEmail py payload.email) ⟨t₂, overlay (carried payload) s.latest⟩ ↔
      Merges py program payload s := by
  obtain ⟨hp, hprogram, hemail⟩ := hprimary.stored
  obtain ⟨hr, hothers, hrreg, hrsecond, hremail⟩ := hstored.stored hp
  have ht₁ := shaped_primaryWrite ht hfresh hprimary
  have hboth : StoresSecond py program payload s.leads :=
    ⟨by rw [hnamed]; exact Option.some_ne_none kwargs, hstorable⟩
  cases hprim : p.2.isPrimary with
  | true =>
      obtain ⟨-, hp₂⟩ := hstored.keeps_primary hp hprim
      have ht₂ := shaped_secondWrite ht₁ hp hprogram hstored
      rw [merged_iff_of_row hlatest (getByProgramEmail_primary hp₂ hprogram hemail) hprimary.holds]
      constructor
      · rintro ⟨hcomplete, -⟩
        refine ⟨hcomplete, fun _ loaded hfound => ?_, fun h => absurd hboth h⟩
        obtain ⟨-, -, hsame⟩ := hprimary.of_found hfound
        exact hsame.symm.trans hprim
      · intro h
        refine ⟨h.complete, fun o ho hreg hne f hf _ => ?_⟩
        -- the other row of the registration is the one the second write leaves
        have hor : o = r := by
          cases hoprim : o.2.isPrimary with
          | true =>
              exact absurd (congrArg Prod.fst (ht₂.only o ho p hp₂ hreg (hoprim.trans hprim.symm)))
                hne
          | false =>
              exact ht₂.only o ho r hr (hreg.trans hrreg.symm) (hoprim.trans hrsecond.symm)
        rw [hor]
        exact hstored.holds hf
  | false =>
      refine iff_of_false (fun h => ?_) fun h => ?_
      · obtain ⟨v, hv⟩ := Option.ne_none_iff_exists'.1 (carried_second hnamed)
        obtain ⟨q, hlookup, -⟩ := h _ v (overlay_of_some hv)
        obtain ⟨hq, hqprogram, hqemail⟩ := getByProgramEmail_eq_some hlookup
        have hne : q.1 ≠ r.1 := by
          intro hid
          rw [t₂.eq_of_id hq hr hid, hremail] at hqemail
          exact namedSecond_email_ne hnamed hqemail
        have heq := eq_of_email ((hothers q hne).1 hq) hp (hqprogram.trans hprogram.symm)
          (hqemail.trans hemail.symm) (hqemail ▸ normaliseEmail_ne_empty py payload.email)
        exact hne ((congrArg Prod.fst heq).trans (hstored.same ht₁ hp hprim).symm)
      · rcases hprimary.registration with ⟨-, -, -, hnew⟩ | ⟨loaded, hfound, -, hsame⟩
        · rw [hprim] at hnew
          cases hnew
        · have := h.lands hboth _ hfound
          rw [← hsame, hprim] at this
          cases this

/-- **Exactly when a submission keeps the answers.** -/
theorem merged_submit_iff {act : CaptureAct} {s s' : Wizard}
    (hslug : getProgramBySlug programs act.slug = some program) (ht : Shaped py s.leads)
    (hlatest : ∀ f, s.latest f ≠ some .null) (hfresh : FreshId act.uuid s.leads)
    (hmerged : Merged program (normaliseEmail py act.payload.email) s)
    (hstep : submit py programs act s = some s') :
    Merged program (normaliseEmail py act.payload.email) s' ↔
      KeepsAnswers py program act s := by
  simp only [submit, captureAct, Option.map_some, Option.some.injEq] at hstep
  subst hstep
  -- nothing is written: what is new has to be there already
  have hidle : Merged program (normaliseEmail py act.payload.email)
      ⟨s.leads, overlay (carried act.payload) s.latest⟩ ↔
        ∀ f v, carried act.payload f = some v →
          HeldAt program (normaliseEmail py act.payload.email) s.leads f v := by
    constructor
    · exact fun h f v hv => h f v (overlay_of_some hv)
    · intro h f v hv
      cases hcarried : carried act.payload f with
      | none => exact hmerged f v ((overlay_of_none hcarried).symm.trans hv)
      | some w => exact h f v (hcarried.trans ((overlay_of_some hcarried).symm.trans hv))
  by_cases hactive : program.status = .active
  · rw [(captureRegistration_active hslug hactive act.payload act.uuid s.leads).1]
    have houtcome : CaptureOutcome py program act.payload act.uuid s.leads
        (captureInProgram py program act.payload act.uuid s.leads) :=
      captureInProgram_outcome ht hfresh
    revert houtcome
    generalize captureInProgram py program act.payload act.uuid s.leads = r
    intro houtcome
    -- a stored submission keeps them when it merges
    have hkeeps : ColumnsFit py act.payload →
        (KeepsAnswers py program act s ↔ Merges py program act.payload s) := fun hfits =>
      ⟨fun h => h.stored hactive hfits,
        fun h => ⟨fun _ _ => h, fun hnot => absurd ⟨hactive, hfits⟩ hnot⟩⟩
    cases houtcome with
    | rejected hunfit =>
        rw [hidle]
        exact ⟨fun h => ⟨fun _ hfits => absurd hfits hunfit, fun _ => h⟩,
          fun h => h.unstored fun hboth => hunfit hboth.2⟩
    | alone hfits hprimary hsecond hnone =>
        rw [hkeeps hfits]
        exact merged_primaryWrite_iff hlatest hfresh hprimary fun h => h.1 hnone
    | halfway hfits hprimary hsecond =>
        rw [hkeeps hfits]
        exact merged_primaryWrite_iff hlatest hfresh hprimary fun h => hsecond h.2
    | paired hfits hprimary hsecond hnamed hstored =>
        rw [hkeeps hfits]
        exact merged_secondWrite_iff ht hlatest hfresh hprimary hnamed hsecond hstored
  · have hunchanged : (captureRegistration py programs act.slug act.payload act.uuid
        s.leads).1 = s.leads := by
      simp [captureRegistration, hslug, hactive]
    rw [hunchanged, hidle]
    exact ⟨fun h => ⟨fun h => absurd h hactive, fun _ => h⟩,
      fun h => h.unstored fun hboth => hactive hboth.1⟩

/-! ## Runs -/

theorem latest_submit {act : CaptureAct} {s s' : Wizard} (hlatest : ∀ f, s.latest f ≠ some .null)
    (hstep : submit py programs act s = some s') : ∀ f, s'.latest f ≠ some .null := by
  simp only [submit, captureAct, Option.map_some, Option.some.injEq] at hstep
  subst hstep
  intro f hf
  cases hcarried : carried act.payload f with
  | none => exact hlatest f ((overlay_of_none hcarried).symm.trans hf)
  | some v =>
      have hv : v = .null := Option.some.inj ((overlay_of_some hcarried).symm.trans hf)
      exact (carried_eq_some_iff.1 hcarried).2 hv

/-- **Exactly which sequences of submissions merge.** Of all sequences of submissions under one
address to one program, from any table of the right shape, those in which every submission that is
stored leaves out nothing an earlier one said, does not move the address to a second participant, and
reaches the other row with what both rows have. -/
theorem reregistration_merges_iff {slug email : String} {acts : List CaptureAct}
    (hslug : getProgramBySlug programs slug = some program) (ht : Shaped py t)
    (hsame : ∀ act ∈ acts, act.slug = slug ∧ normaliseEmail py act.payload.email = email)
    (hnodup : (acts.map CaptureAct.uuid).Nodup) (hunused : ∀ act ∈ acts, FreshId act.uuid t) :
    Always (submit py programs) (Merged program email) acts ⟨t, PartialRecord.empty⟩ ↔
      Guarded (submit py programs) (KeepsAnswers py program) acts ⟨t, PartialRecord.empty⟩ := by
  have htotal : ∀ act s, (submit py programs act s).isSome = true := fun _ _ => rfl
  obtain ⟨s', hrun⟩ := Option.isSome_iff_exists.1
    (exec_isSome htotal acts ⟨t, PartialRecord.empty⟩)
  have hproject : ∀ act s, (submit py programs act s).map Wizard.leads =
      captureAct py programs act s.leads := fun _ _ => rfl
  have hfresh : Guarded (submit py programs) (fun act s => FreshId act.uuid s.leads) acts
      ⟨t, PartialRecord.empty⟩ := guarded_of_map hproject (guarded_fresh hnodup hunused)
  refine always_iff_guarded_of_exact
    (J := fun s => Shaped py s.leads ∧ ∀ f, s.latest f ≠ some .null) ?_ ?_
    ⟨ht, fun _ => Option.some_ne_none _ ∘ Eq.symm⟩ ?_ (hfresh.and (guarded_of_forall hsame _)) hrun
  · rintro act s s' ⟨hs, hlatest⟩ ⟨hfresh, -⟩ hstep
    have hcapture : captureAct py programs act s.leads = some s'.leads := by
      rw [← hproject, hstep]
      rfl
    exact ⟨shaped_captureAct hs hfresh hcapture, latest_submit hlatest hstep⟩
  · rintro act s s' ⟨hs, hlatest⟩ hmerged ⟨hfresh, rfl, rfl⟩ hstep
    exact merged_submit_iff hslug hs hlatest hfresh hmerged hstep
  · intro f v hv
    cases hv

end Driver

attribute [local instance] plainDriver

theorem carried_adaAlone (f : RegField) : carried adaAlone f = none := by
  cases f <;> rfl

/-- Ada gives her name and address first, and the name of her company later. -/
theorem company_added_later : Always (submit asciiLower [openProgram])
    (Merged openProgram "ada@x.ng")
    [⟨"launchpad", adaAlone, "r-ada"⟩, ⟨"launchpad", adaAtXyz, "r-again"⟩]
    ⟨Table.empty _, PartialRecord.empty⟩ := by
  have hslug : getProgramBySlug [openProgram] "launchpad" = some openProgram := rfl
  apply (reregistration_merges_iff hslug (shaped_empty asciiLower) (by decide) (by decide)
    fun act _ => fresh_empty act.uuid).2
  have halone : ∀ t, ¬ StoresSecond asciiLower openProgram adaAlone t := fun t h => h.1 rfl
  have hxyz : ∀ t, ¬ StoresSecond asciiLower openProgram adaAtXyz t := fun t h => h.1 rfl
  refine ⟨⟨fun _ _ => ⟨?_, fun h => absurd h (halone _), ?_⟩, fun hnot => ?_⟩,
    fun s hs => ⟨⟨fun _ _ => ⟨?_, fun h => absurd h (hxyz _), ?_⟩, fun hnot => ?_⟩,
      fun _ _ => trivial⟩⟩
  · exact fun f hf => absurd rfl hf
  · intro _ loaded hfound
    have := (getByProgramEmail_eq_some hfound).1
    simp [Table.empty] at this
  · exact absurd ⟨rfl, by decide⟩ hnot
  · -- the first submission has said nothing
    intro f hf
    obtain rfl := Option.some.inj hs
    exact absurd ((overlay_of_none (carried_adaAlone f)).trans rfl) hf
  · intro _ loaded hfound o ho _ hne
    obtain rfl := Option.some.inj hs
    obtain ⟨p, hrows⟩ : ∃ p, (captureRegistration asciiLower [openProgram] "launchpad" adaAlone
      "r-ada" (Table.empty _)).1.rows = [p] := ⟨_, rfl⟩
    have hloaded := (getByProgramEmail_eq_some hfound).1
    dsimp only at ho hloaded
    rw [hrows, List.mem_singleton] at ho hloaded
    exact absurd (by rw [ho, hloaded]) hne
  · exact absurd ⟨rfl, by decide⟩ hnot

/-- The retry of the first step arrives after the complete payload. -/
theorem company_erased : ¬ Always (submit asciiLower [openProgram]) (Merged openProgram "ada@x.ng")
    [⟨"launchpad", adaAtXyz, "r-ada"⟩, ⟨"launchpad", adaAlone, "r-again"⟩]
    ⟨Table.empty _, PartialRecord.empty⟩ := by
  intro h
  have hmerged := (h.2 _ rfl).2 _ rfl
  obtain ⟨p, hlookup, hheld, -⟩ := hmerged .company (.str "Xyz Ltd") rfl
  obtain ⟨q, hfound, hcompany⟩ : ∃ q, getByProgramEmail
      (captureRegistration asciiLower [openProgram] "launchpad" adaAlone "r-again"
        (captureRegistration asciiLower [openProgram] "launchpad" adaAtXyz "r-ada"
          (Table.empty _)).1).1 openProgram.id "ada@x.ng" = some q ∧ q.2.company = none :=
    ⟨_, rfl, rfl⟩
  obtain rfl : q = p := Option.some.inj (hfound.symm.trans hlookup)
  have hxyz : Json.ofOption q.2.company = .str "Xyz Ltd" := hheld
  rw [hcompany] at hxyz
  cases hxyz

end SalesTrades.Trade
