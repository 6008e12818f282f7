import SalesTrades.Trade.CaptureOutcome

/-!
# Registrations that fail

Which bodies that the request model accepts are stored and acknowledged (`accepted_body_kept_iff`),
and when a call that raises leaves the table as it was (`capture_atomic_iff`). The primary is
committed before the second participant is looked at, so whatever is wrong with the second one is
noticed when the first commit stands.
-/

set_option autoImplicit false

namespace SalesTrades.Trade

open SalesTrades.Library

variable {py : LowerCase} {program : TradeProgram} {payload : Registration} {slug uuid : String}
  {programs : List TradeProgram} {t t' : TradeLeads}

/-- A call that leaves a table and ends without an exception. -/
def Returns {ε α : Type} (r : TradeLeads × Except ε α) : Prop := ∃ answer, r.2 = .ok answer

/-- The table has a primary row of the program with the submitted responses. -/
def Verbatim (py : LowerCase) (program : TradeProgram) (payload : Registration) (t : TradeLeads) :
    Prop :=
  ∃ p ∈ t.rows, p.2.tradeProgramId = program.id ∧ p.2.isPrimary = true ∧
    p.2.email = normaliseEmail py payload.email ∧ p.2.responses = .obj payload.responses

/-- The call returns, and a primary row under the payload's address has the submitted responses. -/
def BodyKept (py : LowerCase) (program : TradeProgram) (payload : Registration)
    (r : TradeLeads × Except CaptureError (TradeProgram × List Participant × Bool)) : Prop :=
  Returns r ∧ Verbatim py program payload r.1

section Kept

variable [ColumnDriver]

/-- A call for an active program is the call from the dedup lookup on. -/
theorem captureRegistration_active (hslug : getProgramBySlug programs slug = some program)
    (hactive : program.status = .active) (payload : Registration) (uuid : String) (t : TradeLeads) :
    (captureRegistration py programs slug payload uuid t).1 =
        (captureInProgram py program payload uuid t).1 ∧
      (Returns (captureRegistration py programs slug payload uuid t) ↔
        Returns (captureInProgram py program payload uuid t)) := by
  unfold captureRegistration Returns
  simp only [hslug, hactive, ne_eq, not_true_eq_false, if_false]
  split
  · rename_i hcall
    simp [hcall]
  · rename_i hcall
    simp [hcall]

/-! ## Bodies that are kept -/

theorem verbatim_of_row {p : Participant} (hwrite : PrimaryWrite py program payload uuid t p t')
    {t₂ : TradeLeads} (hp : p ∈ t₂.rows) (hprim : p.2.isPrimary = true) :
    Verbatim py program payload t₂ := by
  obtain ⟨-, hprogram, hemail⟩ := hwrite.stored
  exact ⟨p, hp, hprogram, hprim, hemail, hwrite.values.2.2.2.1⟩

/-- A primary row under the payload's address, after the primary's write, is the row written. -/
theorem isPrimary_of_verbatim {p : Participant}
    (hwrite : PrimaryWrite py program payload uuid t p t') (h : Verbatim py program payload t') :
    p.2.isPrimary = true := by
  obtain ⟨hp, hprogram, hemail⟩ := hwrite.stored
  obtain ⟨r, hr, hrprogram, hrprim, hremail, -⟩ := h
  rw [eq_of_email hp hr (hprogram.trans hrprogram.symm) (hemail.trans hremail.symm)
    (hemail ▸ normaliseEmail_ne_empty py payload.email)]
  exact hrprim

/-- **Exactly which accepted bodies are kept.** The columns take the values, the second participant is
none or one that can be stored, and no second participant of the program has the payload's address. -/
theorem accepted_body_kept_iff (hslug : getProgramBySlug programs slug = some program)
    (hactive : program.status = .active) (ht : Shaped py t) (hfresh : FreshId uuid t) :
    BodyKept py program payload (captureRegistration py programs slug payload uuid t) ↔
      ColumnsFit py payload ∧ SecondStorable py program payload t ∧
        ∀ q ∈ t.rows, q.2.tradeProgramId = program.id →
          q.2.email = normaliseEmail py payload.email → q.2.isPrimary = true := by
  obtain ⟨htable, hreturns⟩ :=
    captureRegistration_active hslug hactive payload uuid t
  rw [BodyKept, hreturns, htable]
  have houtcome : CaptureOutcome py program payload uuid t
      (captureInProgram py program payload uuid t) := captureInProgram_outcome ht hfresh
  revert houtcome
  generalize captureInProgram py program payload uuid t = r
  intro houtcome
  cases houtcome with
  | rejected hunfit => simp [Returns, hunfit]
  | halfway hfits hprimary hsecond => simp [Returns, hsecond]
  | alone hfits hprimary hsecond hnone =>
      rw [← hprimary.isPrimary_iff]
      constructor
      · exact fun h => ⟨hfits, hsecond, isPrimary_of_verbatim hprimary h.2⟩
      · exact fun h => ⟨⟨_, rfl⟩, verbatim_of_row hprimary hprimary.stored.1 h.2.2⟩
  | paired hfits hprimary hsecond hnamed hstored =>
      obtain ⟨hp, hprogram, -⟩ := hprimary.stored
      rw [← hprimary.isPrimary_iff]
      constructor
      · rintro ⟨-, r, hr, hrprogram, hrprim, hremail, hresponses⟩
        refine ⟨hfits, hsecond, ?_⟩
        obtain ⟨hs, hothers, -, hsprim, -⟩ := hstored.stored hp
        -- a primary is not the row of the second write, so it was there before
        have hne : r.1 ≠ _ := fun hid => by
          rw [Table.eq_of_id hr hs hid, hsprim] at hrprim
          cases hrprim
        exact isPrimary_of_verbatim hprimary
          ⟨r, (hothers r hne).1 hr, hrprogram, hrprim, hremail, hresponses⟩
      · intro h
        exact ⟨⟨_, rfl⟩, verbatim_of_row hprimary (hstored.keeps_primary hp h.2.2).2 h.2.2⟩

end Kept

section Samples

attribute [local instance] plainDriver

/-- Ada registers alone. -/
def adaAlone : Registration := submission "Ada" adaEmail []

/-- Ada gives the founding year of her company as a number. -/
def adaFounded : Registration := submission "Ada" adaEmail [("company_founded", .num 2019)]

theorem adaAlone_storable :
    SecondStorable asciiLower openProgram adaAlone (Table.empty TradeLead.emailKey) := by
  have hnone : namedSecond asciiLower adaAlone = none := rfl
  refine ⟨⟨none, rfl⟩, fun kwargs h => ?_, fun kwargs h => ?_⟩
  · rw [hnone] at h
    cases h
  · rw [hnone] at h
    cases h

theorem fresh_empty (uuid : String) : FreshId uuid (Table.empty TradeLead.emailKey) := by
  simp [FreshId, Table.empty]

/-- Her registration is kept. -/
theorem ada_alone_kept : BodyKept asciiLower openProgram adaAlone
    (captureRegistration asciiLower [openProgram] "launchpad" adaAlone "r-ada" (Table.empty _)) :=
  (accepted_body_kept_iff rfl rfl (shaped_empty asciiLower) (fresh_empty "r-ada")).2
    ⟨by decide, adaAlone_storable, by simp [Table.empty]⟩

/-- The body with the founding year is accepted by the request model, and lost. -/
theorem numeric_year_lost : ¬ BodyKept asciiLower openProgram adaFounded
    (captureRegistration asciiLower [openProgram] "launchpad" adaFounded "r-ada"
      (Table.empty _)) := by
  rintro ⟨⟨answer, hreturns⟩, -⟩
  have hraises : (captureRegistration asciiLower [openProgram] "launchpad" adaFounded "r-ada"
      (Table.empty _)).2 = .error (.python .dataError) := rfl
  rw [hraises] at hreturns
  cases hreturns

/-- A NUL character anywhere in the document is as bad. -/
example : ¬ ColumnsFit asciiLower
    (submission "Ada" adaEmail [("note", .arr [.str (String.singleton (Char.ofNat 0))])]) := by
  decide

end Samples

/-! ## Calls that raise -/

section Atomic

variable [ColumnDriver]

/-- The payload's address belongs to a row that is as the payload would leave it. -/
def AlreadyStored (py : LowerCase) (program : TradeProgram) (payload : Registration)
    (t : TradeLeads) : Prop :=
  ∃ loaded, getByProgramEmail t program.id (normaliseEmail py payload.email) = some loaded ∧
    (applyPayload loaded.2 program payload).flush = some loaded.2

/-- The primary's write changes nothing exactly when the row is as it would leave it. -/
theorem primaryWrite_idle_iff {p : Participant}
    (h : PrimaryWrite py program payload uuid t p t') :
    t' = t ↔ AlreadyStored py program payload t := by
  cases h with
  | registered hnone hflush hinsert =>
      constructor
      · rintro rfl
        have hnext := (Table.insert_eq_some hinsert).2.2
        omega
      · rintro ⟨loaded, hfound, -⟩
        rw [hnone] at hfound
        cases hfound
  | merged hfound hflush hupdate =>
      obtain ⟨hloaded, -, -⟩ := getByProgramEmail_eq_some hfound
      constructor
      · rintro rfl
        have hp := (Table.mem_of_update hupdate).2 (Or.inr ⟨rfl, _, hloaded⟩)
        have heq : p.2 = _ := congrArg Prod.snd (t'.eq_of_id hp hloaded rfl)
        exact ⟨_, hfound, hflush.trans (congrArg some heq)⟩
      · rintro ⟨loaded', hfound', hsame⟩
        rw [hfound, Option.some.injEq] at hfound'
        subst hfound'
        rw [hflush, Option.some.injEq] at hsame
        rw [hsame, Table.update_self hloaded, Option.some.injEq] at hupdate
        exact hupdate.symm

/-- A call is atomic: one that raises leaves the table as it was; and where only the second
participant's address is taken, the call returns with the submission stored. -/
def Atomic (py : LowerCase) (program : TradeProgram) (payload : Registration) (t : TradeLeads)
    (r : TradeLeads × Except CaptureError (TradeProgram × List Participant × Bool)) : Prop :=
  (¬ Returns r → r.1 = t) ∧
    (WellFormed py payload → (∃ kwargs, namedSecond py payload = some kwargs ∧
      ¬ AddressFree py program payload kwargs t) → BodyKept py program payload r)

omit [ColumnDriver] in
/-- A second participant that cannot be stored is not well-formed, or its address is taken. -/
theorem secondStorable_iff (hfits : ColumnsFit py payload) :
    SecondStorable py program payload t ↔ WellFormed py payload ∧
      ¬ ∃ kwargs, namedSecond py payload = some kwargs ∧
        ¬ AddressFree py program payload kwargs t := by
  rw [wellFormed_iff]
  constructor
  · rintro ⟨hreads, hsecond, hfree⟩
    refine ⟨⟨hfits, hreads, hsecond⟩, ?_⟩
    rintro ⟨kwargs, hnamed, htaken⟩
    exact htaken (hfree kwargs hnamed)
  · rintro ⟨⟨-, hreads, hsecond⟩, hfree⟩
    exact ⟨hreads, hsecond, fun kwargs hnamed => not_not.1 fun h => hfree ⟨kwargs, hnamed, h⟩⟩

/-- **Exactly when a call is atomic.** Either a value is not taken and nothing is written, or the second
participant can be stored too; or it is not well-formed and the primary's row is already as the
payload leaves it. -/
theorem capture_atomic_iff (hslug : getProgramBySlug programs slug = some program)
    (hactive : program.status = .active) (ht : Shaped py t) (hfresh : FreshId uuid t) :
    Atomic py program payload t (captureRegistration py programs slug payload uuid t) ↔
      (ColumnsFit py payload → SecondStorable py program payload t ∨
        ¬ WellFormed py payload ∧ AlreadyStored py program payload t) := by
  obtain ⟨htable, hreturns⟩ :=
    captureRegistration_active hslug hactive payload uuid t
  rw [Atomic, BodyKept, hreturns, htable]
  have houtcome : CaptureOutcome py program payload uuid t
      (captureInProgram py program payload uuid t) := captureInProgram_outcome ht hfresh
  revert houtcome
  generalize captureInProgram py program payload uuid t = r
  intro houtcome
  cases houtcome with
  | rejected hunfit =>
      exact ⟨fun _ hfits => absurd hfits hunfit,
        fun _ => ⟨fun _ => rfl, fun hwell => absurd hwell.columns hunfit⟩⟩
  | alone hfits hprimary hsecond hnone =>
      have hfree := ((secondStorable_iff hfits).1 hsecond).2
      exact ⟨fun _ _ => Or.inl hsecond,
        fun _ => ⟨fun h => absurd ⟨_, rfl⟩ h, fun _ htaken => absurd htaken hfree⟩⟩
  | paired hfits hprimary hsecond hnamed hstored =>
      have hfree := ((secondStorable_iff hfits).1 hsecond).2
      exact ⟨fun _ _ => Or.inl hsecond,
        fun _ => ⟨fun h => absurd ⟨_, rfl⟩ h, fun _ htaken => absurd htaken hfree⟩⟩
  | halfway hfits hprimary hsecond =>
      have hraises : ∀ {e : PyError} {t₁ : TradeLeads},
          ¬ Returns ((t₁, .error e) : TradeLeads × Except PyError (List Participant × Bool)) := by
        rintro e t₁ ⟨answer, h⟩
        cases h
      constructor
      · rintro ⟨hsame, hkept⟩ -
        right
        refine ⟨fun hwell => ?_, (primaryWrite_idle_iff hprimary).1 (hsame hraises)⟩
        -- a well-formed second participant fails on its address alone, and the call does not return
        have htaken := not_not.1 fun h => hsecond ((secondStorable_iff hfits).2 ⟨hwell, h⟩)
        exact hraises (hkept hwell htaken).1
      · intro h
        rcases h hfits with hstorable | ⟨hill, hstored⟩
        · exact absurd hstorable hsecond
        · exact ⟨fun _ => (primaryWrite_idle_iff hprimary).2 hstored,
            fun hwell => absurd hwell hill⟩

end Atomic

section Samples

attribute [local instance] plainDriver

/-- The registration of Ada alone is atomic. -/
theorem ada_alone_atomic : Atomic asciiLower openProgram adaAlone (Table.empty _)
    (captureRegistration asciiLower [openProgram] "launchpad" adaAlone "r-ada" (Table.empty _)) :=
  (capture_atomic_iff rfl rfl (shaped_empty asciiLower) (fresh_empty "r-ada")).2
    fun _ => Or.inl adaAlone_storable

/-- Somebody at another company names Ada's colleague Ben as well. -/
def chidiWithBen : Registration :=
  submission "Chidi" ⟨"chidi@y.ng", by decide⟩
    [("second_participant", .obj [("first_name", .str "Ben"), ("email", .str "ben@x.ng")])]

/-- His call raises on the unique index, with his own row left behind. -/
theorem shared_colleague_not_atomic : ¬ Atomic asciiLower openProgram chidiWithBen afterAda
    (captureRegistration asciiLower [openProgram] "launchpad" chidiWithBen "r-chidi"
      afterAda) := by
  rintro ⟨hsame, -⟩
  have hraises : (captureRegistration asciiLower [openProgram] "launchpad" chidiWithBen "r-chidi"
      afterAda).2 = .error (.python .integrityError) := rfl
  have hunchanged := hsame (by
    rintro ⟨answer, hreturns⟩
    rw [hraises] at hreturns
    cases hreturns)
  have hnext := congrArg Table.nextId hunchanged
  revert hnext
  decide

end Samples

end SalesTrades.Trade
