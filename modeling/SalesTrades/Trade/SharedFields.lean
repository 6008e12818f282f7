import SalesTrades.Trade.CaptureFailures

/-!
# The fields that both participants share

Company and the columns of `SHARED_RESPONSE_KEYS` are stored on both rows of a registration, by two
writes. A step of a run keeps them equal exactly when the submission reaches both rows or carries what
the row it does not reach already has (`sharedAgree_capture_iff`), and so does a run
(`shared_fields_agree_iff`).
-/

set_option autoImplicit false

namespace SalesTrades.Trade

open SalesTrades.Library SalesTrades.Library.Run

section Driver

variable [ColumnDriver] {py : LowerCase} {program : TradeProgram} {payload : Registration}
  {uuid : String}
  {programs : List TradeProgram} {t t' : TradeLeads}

/-- The rows of a registration have the same company and the same shared columns. -/
def SharedAgree (t : TradeLeads) : Prop :=
  ∀ p ∈ t.rows, ∀ s ∈ t.rows, p.2.registrationId = s.2.registrationId →
    p.2.company = s.2.company ∧ ∀ k, p.2.shared k = s.2.shared k

/-- The row has the shared fields of the payload, as the driver stores them. -/
def CarriesShared (payload : Registration) (l : TradeLead) : Prop :=
  l.company = payload.company ∧
    ∀ k : SharedKey, k.columnType.bind (sharedFieldsFromResponses payload.responses k) =
      some (l.shared k)

/-- A submission reaches both rows of a registration when it lands on the primary and names a second
participant that can be stored. -/
def ReachesBoth (py : LowerCase) (program : TradeProgram) (payload : Registration)
    (loaded : TradeLead) (t : TradeLeads) : Prop :=
  loaded.isPrimary = true ∧ namedSecond py payload ≠ none ∧ SecondStorable py program payload t

/-- What a submission has to meet to keep the shared fields equal: it reaches both rows, or the other
row has what it carries. -/
def KeepsShared (py : LowerCase) (programs : List TradeProgram) (act : CaptureAct)
    (t : TradeLeads) : Prop :=
  ∀ program, getProgramBySlug programs act.slug = some program → program.status = .active →
    ColumnsFit py act.payload → ∀ loaded,
      getByProgramEmail t program.id (normaliseEmail py act.payload.email) = some loaded →
        ReachesBoth py program act.payload loaded.2 t ∨
          ∀ o ∈ t.rows, o.2.registrationId = loaded.2.registrationId → o.1 ≠ loaded.1 →
            CarriesShared act.payload o.2

theorem CarriesShared.agree {l l' : TradeLead} (h : CarriesShared payload l)
    (h' : CarriesShared payload l') : l.company = l'.company ∧ ∀ k, l.shared k = l'.shared k :=
  ⟨h.1.trans h'.1.symm, fun k => Option.some.inj ((h.2 k).symm.trans (h'.2 k))⟩

theorem CarriesShared.transfer {l l' : TradeLead} (h : CarriesShared payload l)
    (hsame : l.company = l'.company ∧ ∀ k, l.shared k = l'.shared k) :
    CarriesShared payload l' :=
  ⟨hsame.1.symm.trans h.1, fun k => hsame.2 k ▸ h.2 k⟩

/-! ## One write, or two -/

/-- After a write of one row the fields agree when the other row of its registration carries them. -/
theorem sharedAgree_write_iff {r : Participant} (hagree : SharedAgree t)
    (hsame : Table.SameExcept r.1 t t') (hr : r ∈ t'.rows) (hwritten : CarriesShared payload r.2) :
    SharedAgree t' ↔ ∀ o ∈ t.rows, o.2.registrationId = r.2.registrationId → o.1 ≠ r.1 →
      CarriesShared payload o.2 := by
  constructor
  · intro h o ho hreg hne
    exact hwritten.transfer (h r hr o ((hsame o hne).2 ho) hreg.symm)
  · intro h
    have hcarries : ∀ o ∈ t'.rows, o.2.registrationId = r.2.registrationId →
        CarriesShared payload o.2 := by
      intro o ho hreg
      by_cases hid : o.1 = r.1
      · rw [t'.eq_of_id ho hr hid]
        exact hwritten
      · exact h o ((hsame o hid).1 ho) hreg hid
    intro p hp s hs hreg
    by_cases hpreg : p.2.registrationId = r.2.registrationId
    · exact (hcarries p hp hpreg).agree (hcarries s hs (hreg.symm.trans hpreg))
    · -- neither row is the one that was written
      have hne : ∀ q : Participant, q ∈ t'.rows →
          q.2.registrationId ≠ r.2.registrationId → q ∈ t.rows := by
        intro q hq hqreg
        refine (hsame q fun hid => hqreg ?_).1 hq
        rw [t'.eq_of_id hq hr hid]
      exact hagree p (hne p hp hpreg) s (hne s hs fun h => hpreg (hreg.trans h)) hreg

/-- After the writes of both rows of a registration the fields agree. -/
theorem sharedAgree_both {p s : Participant} (hagree : SharedAgree t) (ht' : Shaped py t')
    (hp : p ∈ t'.rows) (hs : s ∈ t'.rows) (hreg : s.2.registrationId = p.2.registrationId)
    (hpprim : p.2.isPrimary = true) (hsprim : s.2.isPrimary = false)
    (hold : ∀ q ∈ t'.rows, q.1 ≠ p.1 → q.1 ≠ s.1 → q ∈ t.rows)
    (hpwritten : CarriesShared payload p.2) (hswritten : CarriesShared payload s.2) :
    SharedAgree t' := by
  have hcarries : ∀ q ∈ t'.rows, q.2.registrationId = p.2.registrationId →
      CarriesShared payload q.2 := by
    intro q hq hqreg
    cases hqprim : q.2.isPrimary with
    | true =>
        rw [ht'.only q hq p hp hqreg (hqprim.trans hpprim.symm)]
        exact hpwritten
    | false =>
        rw [ht'.only q hq s hs (hqreg.trans hreg.symm) (hqprim.trans hsprim.symm)]
        exact hswritten
  have hother : ∀ q ∈ t'.rows, q.2.registrationId ≠ p.2.registrationId → q ∈ t.rows := by
    intro q hq hqreg
    refine hold q hq (fun hid => hqreg ?_) fun hid => hqreg ?_
    · rw [t'.eq_of_id hq hp hid]
    · rw [t'.eq_of_id hq hs hid, hreg]
  intro a ha b hb hab
  by_cases hareg : a.2.registrationId = p.2.registrationId
  · exact (hcarries a ha hareg).agree (hcarries b hb (hab.symm.trans hareg))
  · exact hagree a (hother a ha hareg) b (hother b hb fun h => hareg (hab.trans h)) hab

/-! ## One call -/

theorem PrimaryWrite.carries {p : Participant} (h : PrimaryWrite py program payload uuid t p t') :
    CarriesShared payload p.2 :=
  ⟨h.values.1, h.values.2.2.2.2.2⟩

theorem SecondWrite.carries {primary s : Participant} {kwargs : SecondKwargs}
    (h : SecondWrite program payload primary kwargs t s t') : CarriesShared payload s.2 :=
  h.shared

/-- The primary's write alone keeps the fields equal when the other row of the registration it lands on
carries them. -/
theorem sharedAgree_primaryWrite_iff {p : Participant} (hfresh : FreshId uuid t)
    (hagree : SharedAgree t) (h : PrimaryWrite py program payload uuid t p t') :
    SharedAgree t' ↔ ∀ loaded,
      getByProgramEmail t program.id (normaliseEmail py payload.email) = some loaded →
        ∀ o ∈ t.rows, o.2.registrationId = loaded.2.registrationId → o.1 ≠ loaded.1 →
          CarriesShared payload o.2 := by
  rw [sharedAgree_write_iff hagree h.others h.stored.1 h.carries]
  rcases h.registration with ⟨hnone, hreg, -⟩ | ⟨loaded, hfound, hreg, -⟩
  · constructor
    · intro _ loaded hloaded
      rw [hnone] at hloaded
      cases hloaded
    · intro _ o ho horeg
      exact absurd (horeg.trans hreg) (hfresh o ho)
  · rw [hfound, hreg]
    simp only [Option.some.injEq, forall_eq']

/-- A submission that lands on a second participant and names one writes that row twice. -/
theorem SecondWrite.same {p s : Participant} {kwargs : SecondKwargs} (ht : Shaped py t)
    (hp : p ∈ t.rows) (hsecond : p.2.isPrimary = false)
    (h : SecondWrite program payload p kwargs t s t') : s.1 = p.1 := by
  have hself : findSecond t p = some p := (findSecond_eq_some_iff ht hp).2 ⟨hp, rfl, hsecond⟩
  cases h with
  | joined hnone hflush hinsert =>
      rw [hself] at hnone
      cases hnone
  | rejoined hfound hflush hupdate =>
      rw [hself, Option.some.injEq] at hfound
      rw [hfound]

/-- The writes of both rows: the fields agree, unless the submission has landed on a second
participant and the primary does not have what it carries. -/
theorem sharedAgree_paired_iff {p s : Participant} {kwargs : SecondKwargs} {t₁ t₂ : TradeLeads}
    (ht : Shaped py t) (hagree : SharedAgree t) (hfresh : FreshId uuid t)
    (hprimary : PrimaryWrite py program payload uuid t p t₁)
    (hstored : SecondWrite program payload p kwargs t₁ s t₂) :
    SharedAgree t₂ ↔ p.2.isPrimary = true ∨ ∀ loaded,
      getByProgramEmail t program.id (normaliseEmail py payload.email) = some loaded →
        ∀ o ∈ t.rows, o.2.registrationId = loaded.2.registrationId → o.1 ≠ loaded.1 →
          CarriesShared payload o.2 := by
  obtain ⟨hp, hprogram, -⟩ := hprimary.stored
  obtain ⟨hs, hothers, hsreg, hsprim, -⟩ := hstored.stored hp
  have ht₁ := shaped_primaryWrite ht hfresh hprimary
  cases hprim : p.2.isPrimary with
  | true =>
      refine iff_of_true ?_ (Or.inl rfl)
      obtain ⟨-, hp₂⟩ := hstored.keeps_primary hp hprim
      apply sharedAgree_both hagree (shaped_secondWrite ht₁ hp hprogram hstored) hp₂ hs hsreg hprim
        hsprim _ hprimary.carries hstored.carries
      exact fun q hq hqp hqs => (hprimary.others q hqp).1 ((hothers q hqs).1 hq)
  | false =>
      have hsame := hstored.same ht₁ hp hprim
      -- both writes are of the row the submission has landed on
      have hboth : Table.SameExcept s.1 t t₂ := fun q hq =>
        (hothers q hq).trans (hprimary.others q (hsame ▸ hq))
      rw [or_iff_right Bool.false_ne_true, sharedAgree_write_iff hagree hboth hs hstored.carries]
      rcases hprimary.registration with ⟨-, -, -, hnew⟩ | ⟨loaded, hfound, hreg, -⟩
      · rw [hprim] at hnew
        cases hnew
      · rw [hfound, hsreg, hreg, hsame]
        simp only [Option.some.injEq, forall_eq']

/-- **Exactly when a call keeps the shared fields equal.** -/
theorem sharedAgree_captureInProgram_iff (ht : Shaped py t) (hagree : SharedAgree t)
    (hfresh : FreshId uuid t) :
    SharedAgree (captureInProgram py program payload uuid t).1 ↔
      (ColumnsFit py payload → ∀ loaded,
        getByProgramEmail t program.id (normaliseEmail py payload.email) = some loaded →
          ReachesBoth py program payload loaded.2 t ∨
            ∀ o ∈ t.rows, o.2.registrationId = loaded.2.registrationId → o.1 ≠ loaded.1 →
              CarriesShared payload o.2) := by
  have houtcome : CaptureOutcome py program payload uuid t
      (captureInProgram py program payload uuid t) := captureInProgram_outcome ht hfresh
  revert houtcome
  generalize captureInProgram py program payload uuid t = r
  intro houtcome
  cases houtcome with
  | rejected hunfit => exact iff_of_true hagree fun hfits => absurd hfits hunfit
  | alone hfits hprimary hsecond hnone =>
      rw [sharedAgree_primaryWrite_iff hfresh hagree hprimary]
      have hnot : ∀ l, ¬ ReachesBoth py program payload l t := fun l h => h.2.1 hnone
      simp only [hfits, true_implies, hnot, false_or]
  | halfway hfits hprimary hsecond =>
      rw [sharedAgree_primaryWrite_iff hfresh hagree hprimary]
      have hnot : ∀ l, ¬ ReachesBoth py program payload l t := fun l h => hsecond h.2.2
      simp only [hfits, true_implies, hnot, false_or]
  | paired hfits hprimary hsecond hnamed hstored =>
      rw [sharedAgree_paired_iff ht hagree hfresh hprimary hstored]
      have hreaches : ∀ l, ReachesBoth py program payload l t ↔ l.isPrimary = true := fun l =>
        ⟨fun h => h.1, fun h => ⟨h, by rw [hnamed]; exact Option.some_ne_none _, hsecond⟩⟩
      simp only [hfits, true_implies, hreaches]
      -- a new registration, or the one of the row that has the address
      rcases hprimary.registration with ⟨hnone, -, -, hprim⟩ | ⟨loaded, hfound, -, hprim⟩
      · rw [hnone, hprim]
        simp
      · rw [hfound, hprim]
        simp only [Option.some.injEq, forall_eq']

theorem sharedAgree_capture_iff {act : CaptureAct} (ht : Shaped py t) (hagree : SharedAgree t)
    (hfresh : FreshId act.uuid t) (hstep : captureAct py programs act t = some t') :
    SharedAgree t' ↔ KeepsShared py programs act t := by
  simp only [captureAct, Option.some.injEq] at hstep
  subst hstep
  cases hslug : getProgramBySlug programs act.slug with
  | none => simpa [KeepsShared, captureRegistration, hslug] using hagree
  | some program =>
      by_cases hactive : program.status = .active
      · rw [(captureRegistration_active hslug hactive act.payload act.uuid t).1,
          sharedAgree_captureInProgram_iff ht hagree hfresh]
        simp only [KeepsShared, hslug, Option.some.injEq, forall_eq', hactive, true_implies]
      · simpa [KeepsShared, captureRegistration, hslug, hactive] using hagree

/-! ## Runs -/

/-- **Exactly which runs keep the shared fields equal.** Of all runs that start without participants
and are handed no identifier twice, those in which every submission reaches both rows, or carries what
the row it does not reach has. -/
theorem shared_fields_agree_iff (py : LowerCase) (programs : List TradeProgram)
    {acts : List CaptureAct} (hnodup : (acts.map CaptureAct.uuid).Nodup) :
    Always (captureAct py programs) SharedAgree acts (Table.empty _) ↔
      Guarded (captureAct py programs) (KeepsShared py programs) acts (Table.empty _) := by
  have htotal : ∀ act t, (captureAct py programs act t).isSome = true := fun _ _ => rfl
  obtain ⟨t, hrun⟩ := Option.isSome_iff_exists.1 (exec_isSome htotal acts (Table.empty _))
  refine always_iff_guarded_of_exact (J := Shaped py) (H := fun act t => FreshId act.uuid t) ?_
    (fun _ _ _ => sharedAgree_capture_iff) (shaped_empty py) ?_
    (guarded_fresh hnodup fun act _ => fresh_empty act.uuid) hrun
  · intro act t t' ht hfresh hstep
    exact shaped_captureAct ht hfresh hstep
  · intro p hp
    simp [Table.empty] at hp

end Driver

attribute [local instance] plainDriver

/-- Ada's registration with Ben writes both rows. -/
theorem shared_fields_with_ben : Always (captureAct asciiLower [openProgram]) SharedAgree
    [⟨"launchpad", adaWithBen, "r-ada"⟩] (Table.empty _) := by
  apply (shared_fields_agree_iff asciiLower [openProgram] (by decide)).2
  refine ⟨?_, fun _ _ => trivial⟩
  intro program _ _ _ loaded hfound
  have := (getByProgramEmail_eq_some hfound).1
  simp [Table.empty] at this

/-- Ada registers again, with the name of her company and without a second participant. -/
def adaAtXyz : Registration := { submission "Ada" adaEmail [] with company := some "Xyz Ltd" }

/-- Only her own row gets the name. -/
theorem company_on_one_row : ¬ Always (captureAct asciiLower [openProgram]) SharedAgree
    [⟨"launchpad", adaWithBen, "r-ada"⟩, ⟨"launchpad", adaAtXyz, "r-again"⟩] (Table.empty _) := by
  intro h
  have hafter : SharedAgree
      (captureRegistration asciiLower [openProgram] "launchpad" adaAtXyz "r-again" afterAda).1 :=
    (h.2 _ rfl).2 _ rfl
  obtain ⟨p, s, hrows⟩ : ∃ p s, (captureRegistration asciiLower [openProgram] "launchpad" adaAtXyz
      "r-again" afterAda).1.rows = [p, s] ∧ p.2.registrationId = s.2.registrationId ∧
      p.2.company = some "Xyz Ltd" ∧ s.2.company = none := ⟨_, _, rfl, rfl, rfl, rfl⟩
  obtain ⟨hrows, hreg, hp, hs⟩ := hrows
  have := (hafter p (by rw [hrows]; simp) s (by rw [hrows]; simp) hreg).1
  rw [hp, hs] at this
  cases this

end SalesTrades.Trade
