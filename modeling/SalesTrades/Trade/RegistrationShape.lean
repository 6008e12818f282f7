import SalesTrades.Trade.CrmRuns

/-!
# The shape of registrations

A call of `capture_registration` writes nothing, the primary, or both participants, whether it returns
or raises (`captureRegistration_captureWrites`). Each write keeps the shape of the registrations: one
primary with index 1 and an address, at most one second participant with index 2, all of one program.
The identifiers of new registrations come from `uuid4`; the one assumption on it is that no identifier
is handed out twice.
-/

set_option autoImplicit false

namespace SalesTrades.Trade

open SalesTrades.Library SalesTrades.Library.Run

variable {py : LowerCase} {program : TradeProgram} {payload : Registration} {uuid : String}
  {t t' : TradeLeads}

/-! ## The two writes -/

section Writes

variable [ColumnDriver]

/-- The write of the primary: a new row, or the row of the dedup lookup with the payload merged into
it. -/
inductive PrimaryWrite (py : LowerCase) (program : TradeProgram) (payload : Registration)
    (uuid : String) (t : TradeLeads) (p : Participant) (t' : TradeLeads) : Prop where
  | registered
      (hnone : getByProgramEmail t program.id (normaliseEmail py payload.email) = none)
      (hflush : (applyPayload (newPrimary program uuid (normaliseEmail py payload.email)) program
        payload).flush = some p.2)
      (hinsert : t.insert p.2 = some (p.1, t'))
  | merged {loaded : TradeLead}
      (hfound : getByProgramEmail t program.id (normaliseEmail py payload.email) =
        some (p.1, loaded))
      (hflush : (applyPayload loaded program payload).flush = some p.2)
      (hupdate : t.update p.1 p.2 = some t')

/-- The write of the second participant: a new row, or the one of the registration with the payload
merged into it. -/
inductive SecondWrite (program : TradeProgram) (payload : Registration) (primary : Participant)
    (kwargs : SecondKwargs) (t : TradeLeads) (s : Participant) (t' : TradeLeads) : Prop where
  | joined (hnone : findSecond t primary = none)
      (hflush : (applySecond (newSecond program primary.2 payload) primary.2 payload kwargs).flush =
        some s.2)
      (hinsert : t.insert s.2 = some (s.1, t'))
  | rejoined {loaded : TradeLead} (hfound : findSecond t primary = some (s.1, loaded))
      (hflush : (applySecond loaded primary.2 payload kwargs).flush = some s.2)
      (hupdate : t.update s.1 s.2 = some t')

theorem primaryWrite_of_store {p : Participant}
    (h : storePrimary program payload (normaliseEmail py payload.email) uuid
      (getByProgramEmail t program.id (normaliseEmail py payload.email)) t = .ok (p, t')) :
    PrimaryWrite py program payload uuid t p t' := by
  replace h := (storePrimary_eq_ok.1 h).2
  cases hfound : getByProgramEmail t program.id (normaliseEmail py payload.email) with
  | none =>
      rw [hfound] at h
      obtain ⟨hflush, hinsert⟩ := createLead_ok h
      exact .registered hfound hflush hinsert
  | some loaded =>
      rw [hfound] at h
      obtain ⟨hid, hflush, hupdate⟩ := updateLead_alone (getByProgramEmail_eq_some hfound).1 h
      rw [← Prod.eta loaded, hid] at hfound
      exact .merged hfound hflush hupdate

theorem secondWrite_of_store {primary s : Participant} {kwargs : SecondKwargs}
    (hprimary : primary ∈ t.rows)
    (h : storeSecond program payload primary kwargs (findSecond t primary) t = .ok (s, t')) :
    SecondWrite program payload primary kwargs t s t' := by
  cases hfound : findSecond t primary with
  | none =>
      rw [hfound] at h
      obtain ⟨hflush, hinsert⟩ := createLead_ok h
      exact .joined hfound hflush hinsert
  | some loaded =>
      rw [hfound] at h
      obtain ⟨hid, hflush, hupdate⟩ :=
        updateLead_alone (findSecond_eq_some hprimary hfound).1 h
      rw [← Prod.eta loaded, hid] at hfound
      exact .rejoined hfound hflush hupdate

/-- What a call leaves: the table as it was, the primary written, or both participants. -/
inductive CaptureWrites (py : LowerCase) (program : TradeProgram) (payload : Registration)
    (uuid : String) (t : TradeLeads) : TradeLeads → Prop where
  | nothing : CaptureWrites py program payload uuid t t
  | primary {p : Participant} {t₁ : TradeLeads}
      (hprimary : PrimaryWrite py program payload uuid t p t₁) :
      CaptureWrites py program payload uuid t t₁
  | both {p s : Participant} {kwargs : SecondKwargs} {t₁ t₂ : TradeLeads}
      (hprimary : PrimaryWrite py program payload uuid t p t₁)
      (hnamed : namedSecond py payload = some kwargs)
      (hsecond : SecondWrite program payload p kwargs t₁ s t₂) :
      CaptureWrites py program payload uuid t t₂

theorem captureInProgram_captureWrites (py : LowerCase) (program : TradeProgram)
    (payload : Registration) (uuid : String) (t : TradeLeads) :
    CaptureWrites py program payload uuid t (captureInProgram py program payload uuid t).1 := by
  rcases captureInProgram_writes py program payload uuid t with h | ⟨primary, t₁, hstore, h⟩
  · rw [h]
    exact .nothing
  · have hfirst := primaryWrite_of_store hstore
    rcases h with h | ⟨kwargs, second, hnamed, hsecond⟩
    · rw [h]
      exact .primary hfirst
    · exact .both hfirst hnamed (secondWrite_of_store (storePrimary_ok hstore).1 hsecond)

/-- A registration writes nothing, or makes the writes of the program under the slug. -/
theorem captureRegistration_captureWrites (py : LowerCase) (programs : List TradeProgram)
    (slug : String) (payload : Registration) (uuid : String) (t : TradeLeads) :
    (captureRegistration py programs slug payload uuid t).1 = t ∨
    ∃ program, getProgramBySlug programs slug = some program ∧
      CaptureWrites py program payload uuid t
        (captureRegistration py programs slug payload uuid t).1 := by
  rcases captureRegistration_writes py programs slug payload uuid t with h | ⟨program, hslug, h⟩
  · exact Or.inl h
  · rw [h]
    exact Or.inr ⟨program, hslug, captureInProgram_captureWrites py program payload uuid t⟩

/-- The row that the primary's write leaves. -/
theorem PrimaryWrite.stored {p : Participant} (h : PrimaryWrite py program payload uuid t p t') :
    p ∈ t'.rows ∧ p.2.tradeProgramId = program.id ∧
      p.2.email = normaliseEmail py payload.email := by
  cases h with
  | registered hnone hflush hinsert =>
      obtain ⟨_, _, -, -, -, hrow⟩ := flush_eq_some hflush
      refine ⟨(Table.mem_of_insert hinsert).2 (Or.inr rfl), ?_⟩
      rw [hrow]
      exact ⟨rfl, rfl⟩
  | merged hfound hflush hupdate =>
      obtain ⟨_, _, -, -, -, hrow⟩ := flush_eq_some hflush
      obtain ⟨hloaded, -, hemail⟩ := getByProgramEmail_eq_some hfound
      refine ⟨(Table.mem_of_update hupdate).2 (Or.inr ⟨rfl, _, hloaded⟩), ?_⟩
      rw [hrow]
      exact ⟨rfl, hemail⟩

end Writes

/-! ## The shape -/

/-- A stripped and lowercased string that is not empty. -/
def Normalised (py : LowerCase) (email : String) : Prop :=
  email ≠ "" ∧ ∃ s, email = py.lower (strip s)

/-- The rows of every registration are one primary, under an address, and at most one second
participant, of one program; and no two rows of a program share an address. -/
structure Shaped (py : LowerCase) (t : TradeLeads) : Prop where
  primary : ∀ q ∈ t.rows, ∃ p ∈ t.rows,
    p.2.registrationId = q.2.registrationId ∧ p.2.isPrimary = true
  only : ∀ p ∈ t.rows, ∀ q ∈ t.rows, p.2.registrationId = q.2.registrationId →
    p.2.isPrimary = q.2.isPrimary → p = q
  index : ∀ q ∈ t.rows, q.2.participantIndex = if q.2.isPrimary then 1 else 2
  address : ∀ q ∈ t.rows, q.2.isPrimary = true → Normalised py q.2.email
  program : ∀ p ∈ t.rows, ∀ q ∈ t.rows, p.2.registrationId = q.2.registrationId →
    p.2.tradeProgramId = q.2.tradeProgramId
  email : ∀ p ∈ t.rows, ∀ q ∈ t.rows, p.2.tradeProgramId = q.2.tradeProgramId →
    p.2.email = q.2.email → p.2.email ≠ "" → p = q

/-- The unique index on program and email. -/
theorem eq_of_email {p q : Participant} (hp : p ∈ t.rows) (hq : q ∈ t.rows)
    (hprogram : p.2.tradeProgramId = q.2.tradeProgramId) (hemail : p.2.email = q.2.email)
    (hne : p.2.email ≠ "") : p = q := by
  have hkey : p.2.emailKey = some (q.2.tradeProgramId, q.2.email) :=
    TradeLead.emailKey_eq_some.2 ⟨hne, hprogram, hemail⟩
  exact t.eq_of_key hp hq hkey (TradeLead.emailKey_eq_some.2 ⟨hemail ▸ hne, rfl, rfl⟩)

theorem shaped_empty (py : LowerCase) : Shaped py (Table.empty TradeLead.emailKey) := by
  constructor <;> simp [Table.empty]

/-- The row stands in the place of the old one: its registration, program, index and role, and as a
primary its address. -/
structure SamePlace (old new : TradeLead) : Prop where
  registration : new.registrationId = old.registrationId
  program : new.tradeProgramId = old.tradeProgramId
  index : new.participantIndex = old.participantIndex
  primary : new.isPrimary = old.isPrimary
  email : old.isPrimary = true → new.email = old.email

theorem SamePlace.refl (l : TradeLead) : SamePlace l l := ⟨rfl, rfl, rfl, rfl, fun _ => rfl⟩

/-- Writes that leave every row in its place keep the shape. -/
theorem Shaped.of_places (h : Shaped py t)
    (hplace : ∀ q ∈ t'.rows, ∃ q₀ ∈ t.rows, q₀.1 = q.1 ∧ SamePlace q₀.2 q.2)
    (hkept : ∀ q₀ ∈ t.rows, ∃ q ∈ t'.rows, SamePlace q₀.2 q.2) : Shaped py t' := by
  refine ⟨fun q hq => ?_, fun p hp q hq hreg hprim => ?_, fun q hq => ?_, fun q hq hprim => ?_,
    fun p hp q hq hreg => ?_, fun p hp q hq => eq_of_email hp hq⟩
  · obtain ⟨q₀, hq₀, -, hplace₀⟩ := hplace q hq
    obtain ⟨p₀, hp₀, hreg, hprim⟩ := h.primary q₀ hq₀
    obtain ⟨p, hp, hplace₁⟩ := hkept p₀ hp₀
    exact ⟨p, hp, hplace₁.registration.trans (hreg.trans hplace₀.registration.symm),
      hplace₁.primary.trans hprim⟩
  · obtain ⟨p₀, hp₀, hpid, hp₁⟩ := hplace p hp
    obtain ⟨q₀, hq₀, hqid, hq₁⟩ := hplace q hq
    have hsame := h.only p₀ hp₀ q₀ hq₀
      (hp₁.registration.symm.trans (hreg.trans hq₁.registration))
      (hp₁.primary.symm.trans (hprim.trans hq₁.primary))
    exact t'.eq_of_id hp hq (hpid.symm.trans (hsame ▸ hqid))
  · obtain ⟨q₀, hq₀, -, hq₁⟩ := hplace q hq
    rw [hq₁.index, hq₁.primary]
    exact h.index q₀ hq₀
  · obtain ⟨q₀, hq₀, -, hq₁⟩ := hplace q hq
    have hprim₀ : q₀.2.isPrimary = true := hq₁.primary.symm.trans hprim
    rw [hq₁.email hprim₀]
    exact h.address q₀ hq₀ hprim₀
  · obtain ⟨p₀, hp₀, -, hp₁⟩ := hplace p hp
    obtain ⟨q₀, hq₀, -, hq₁⟩ := hplace q hq
    rw [hp₁.program, hq₁.program]
    exact h.program p₀ hp₀ q₀ hq₀ (hp₁.registration.symm.trans (hreg.trans hq₁.registration))

/-- An update of one row that leaves it in its place. -/
theorem Shaped.update (h : Shaped py t) {old : Participant} {row : TradeLead} (hold : old ∈ t.rows)
    (hupdate : t.update old.1 row = some t') (hplace : SamePlace old.2 row) : Shaped py t' := by
  apply h.of_places
  · intro q hq
    rcases (Table.mem_of_update hupdate).1 hq with ⟨hq, -⟩ | ⟨rfl, -⟩
    · exact ⟨q, hq, rfl, SamePlace.refl q.2⟩
    · exact ⟨old, hold, rfl, hplace⟩
  · intro q₀ hq₀
    by_cases hid : q₀.1 = old.1
    · rw [t.eq_of_id hq₀ hold hid]
      exact ⟨(old.1, row), (Table.mem_of_update hupdate).2 (Or.inr ⟨rfl, old.2, hold⟩), hplace⟩
    · exact ⟨q₀, (Table.mem_of_update hupdate).2 (Or.inl ⟨hq₀, hid⟩), SamePlace.refl q₀.2⟩

/-- The identifier of a new registration belongs to none yet. -/
def FreshId (uuid : String) (t : TradeLeads) : Prop := ∀ q ∈ t.rows, q.2.registrationId ≠ uuid

/-- A new row that opens a registration, or that joins one as its second participant. -/
theorem Shaped.insert (h : Shaped py t) {id : Nat} {row : TradeLead}
    (hinsert : t.insert row = some (id, t'))
    (hplace : (row.isPrimary = true ∧ row.participantIndex = 1 ∧ Normalised py row.email ∧
        FreshId row.registrationId t) ∨
      (row.isPrimary = false ∧ row.participantIndex = 2 ∧
        (∀ q ∈ t.rows, q.2.registrationId = row.registrationId → q.2.isPrimary = true) ∧
        ∃ p ∈ t.rows, p.2.registrationId = row.registrationId ∧
          p.2.tradeProgramId = row.tradeProgramId)) : Shaped py t' := by
  have hmem : ∀ q, q ∈ t'.rows ↔ q ∈ t.rows ∨ q = (id, row) := fun q => Table.mem_of_insert hinsert
  -- no old row has the place of the new one
  have hfree : ∀ q ∈ t.rows, q.2.registrationId = row.registrationId →
      q.2.isPrimary ≠ row.isPrimary := by
    intro q hq hreg hprim
    rcases hplace with ⟨-, -, -, hfresh⟩ | ⟨hsecond, -, hothers, -⟩
    · exact hfresh q hq hreg
    · rw [hsecond, hothers q hq hreg] at hprim
      cases hprim
  -- the program of a row of the registration that is joined
  have hjoined : ∀ q ∈ t.rows, q.2.registrationId = row.registrationId →
      q.2.tradeProgramId = row.tradeProgramId := by
    intro q hq hreg
    rcases hplace with ⟨-, -, -, hfresh⟩ | ⟨-, -, -, p, hp, hpreg, hpprog⟩
    · exact absurd hreg (hfresh q hq)
    · exact (h.program q hq p hp (hreg.trans hpreg.symm)).trans hpprog
  refine ⟨fun q hq => ?_, fun p hp q hq hreg hprim => ?_, fun q hq => ?_, fun q hq hprim => ?_,
    fun p hp q hq hreg => ?_, fun p hp q hq => eq_of_email hp hq⟩
  · rcases (hmem q).1 hq with hq | rfl
    · obtain ⟨p, hp, hpreg⟩ := h.primary q hq
      exact ⟨p, (hmem p).2 (Or.inl hp), hpreg⟩
    · rcases hplace with ⟨hprim, -⟩ | ⟨-, -, hothers, p, hp, hpreg, -⟩
      · exact ⟨(id, row), hq, rfl, hprim⟩
      · exact ⟨p, (hmem p).2 (Or.inl hp), hpreg, hothers p hp hpreg⟩
  · rcases (hmem p).1 hp with hp | rfl
    · rcases (hmem q).1 hq with hq | rfl
      · exact h.only p hp q hq hreg hprim
      · exact absurd hprim (hfree p hp hreg)
    · rcases (hmem q).1 hq with hq | rfl
      · exact absurd hprim.symm (hfree q hq hreg.symm)
      · rfl
  · rcases (hmem q).1 hq with hq | rfl
    · exact h.index q hq
    · rcases hplace with ⟨hprim, hindex, -⟩ | ⟨hprim, hindex, -⟩ <;> simp [hprim, hindex]
  · rcases (hmem q).1 hq with hq | rfl
    · exact h.address q hq hprim
    · rcases hplace with ⟨-, -, haddress, -⟩ | ⟨hsecond, -⟩
      · exact haddress
      · rw [hsecond] at hprim
        cases hprim
  · rcases (hmem p).1 hp with hp | rfl
    · rcases (hmem q).1 hq with hq | rfl
      · exact h.program p hp q hq hreg
      · exact hjoined p hp hreg
    · rcases (hmem q).1 hq with hq | rfl
      · exact (hjoined q hq hreg.symm).symm
      · rfl

section Driver

variable [ColumnDriver]

theorem shaped_primaryWrite {p : Participant} (h : Shaped py t) (hfresh : FreshId uuid t)
    (hwrite : PrimaryWrite py program payload uuid t p t') : Shaped py t' := by
  cases hwrite with
  | registered hnone hflush hinsert =>
      obtain ⟨_, _, -, -, -, hrow⟩ := flush_eq_some hflush
      refine h.insert hinsert (Or.inl ?_)
      rw [hrow]
      exact ⟨rfl, rfl, ⟨normaliseEmail_ne_empty py payload.email, payload.email.1, rfl⟩, hfresh⟩
  | merged hfound hflush hupdate =>
      obtain ⟨_, _, -, -, -, hrow⟩ := flush_eq_some hflush
      obtain ⟨hloaded, hprogram, -⟩ := getByProgramEmail_eq_some hfound
      rw [hrow] at hupdate
      exact h.update hloaded hupdate ⟨rfl, hprogram.symm, rfl, rfl, fun _ => rfl⟩

theorem shaped_secondWrite {primary s : Participant} {kwargs : SecondKwargs} (h : Shaped py t)
    (hprimary : primary ∈ t.rows) (hprogram : primary.2.tradeProgramId = program.id)
    (hwrite : SecondWrite program payload primary kwargs t s t') : Shaped py t' := by
  cases hwrite with
  | joined hnone hflush hinsert =>
      obtain ⟨_, _, -, -, -, hrow⟩ := flush_eq_some hflush
      refine h.insert hinsert (Or.inr ?_)
      rw [hrow]
      exact ⟨rfl, rfl, findSecond_eq_none hnone, primary, hprimary, rfl, hprogram⟩
  | rejoined hfound hflush hupdate =>
      obtain ⟨_, _, -, -, -, hrow⟩ := flush_eq_some hflush
      obtain ⟨hloaded, -, hsecond⟩ := findSecond_eq_some hprimary hfound
      rw [hrow] at hupdate
      refine h.update hloaded hupdate ⟨rfl, rfl, rfl, rfl, fun hprim => ?_⟩
      rw [hsecond] at hprim
      cases hprim

/-- A call keeps the shape, also one that raises between its two writes. -/
theorem shaped_capture (h : Shaped py t) (hfresh : FreshId uuid t)
    (hwrites : CaptureWrites py program payload uuid t t') : Shaped py t' := by
  cases hwrites with
  | nothing => exact h
  | primary hprimary => exact shaped_primaryWrite h hfresh hprimary
  | both hprimary hnamed hsecond =>
      obtain ⟨hp, hprogram, -⟩ := hprimary.stored
      exact shaped_secondWrite (shaped_primaryWrite h hfresh hprimary) hp hprogram hsecond

/-! ## Runs of registrations -/

/-- A call of `capture_registration`, with the identifier that `uuid4` would give it. -/
structure CaptureAct where
  slug : String
  payload : Registration
  uuid : String

/-- One call, run on its own. A call that raises may have written the primary already. -/
def captureAct (py : LowerCase) (programs : List TradeProgram) (act : CaptureAct) (t : TradeLeads) :
    Option TradeLeads :=
  some (captureRegistration py programs act.slug act.payload act.uuid t).1

/-- No write brings in another identifier than the one generated for the call. -/
theorem registrationId_capture (hwrites : CaptureWrites py program payload uuid t t') :
    ∀ q ∈ t'.rows, (∃ q₀ ∈ t.rows, q₀.2.registrationId = q.2.registrationId) ∨
      q.2.registrationId = uuid := by
  -- the write of the primary first: it keeps an identifier or brings in the generated one
  have hprimary : ∀ {p : Participant} {t₁ : TradeLeads},
      PrimaryWrite py program payload uuid t p t₁ →
      ∀ q ∈ t₁.rows, (∃ q₀ ∈ t.rows, q₀.2.registrationId = q.2.registrationId) ∨
        q.2.registrationId = uuid := by
    intro p t₁ hwrite q hq
    cases hwrite with
    | registered hnone hflush hinsert =>
        obtain ⟨_, _, -, -, -, hrow⟩ := flush_eq_some hflush
        rcases (Table.mem_of_insert hinsert).1 hq with hq | rfl
        · exact Or.inl ⟨q, hq, rfl⟩
        · exact Or.inr (by rw [hrow]; rfl)
    | merged hfound hflush hupdate =>
        obtain ⟨_, _, -, -, -, hrow⟩ := flush_eq_some hflush
        rcases (Table.mem_of_update hupdate).1 hq with ⟨hq, -⟩ | ⟨rfl, -⟩
        · exact Or.inl ⟨q, hq, rfl⟩
        · exact Or.inl ⟨_, (getByProgramEmail_eq_some hfound).1, by rw [hrow]; rfl⟩
  cases hwrites with
  | nothing => exact fun q hq => Or.inl ⟨q, hq, rfl⟩
  | primary hwrite => exact hprimary hwrite
  | @both p s kwargs t₁ _ hwrite hnamed hsecond =>
      intro q hq
      have hp := hwrite.stored.1
      cases hsecond with
      | joined hnone hflush hinsert =>
          obtain ⟨_, _, -, -, -, hrow⟩ := flush_eq_some hflush
          rcases (Table.mem_of_insert hinsert).1 hq with hq | rfl
          · exact hprimary hwrite q hq
          · have hreg : s.2.registrationId = p.2.registrationId := by rw [hrow]; rfl
            rw [hreg]
            exact hprimary hwrite p hp
      | rejoined hfound hflush hupdate =>
          obtain ⟨_, _, -, -, -, hrow⟩ := flush_eq_some hflush
          rcases (Table.mem_of_update hupdate).1 hq with ⟨hq, -⟩ | ⟨rfl, -⟩
          · exact hprimary hwrite q hq
          · obtain ⟨hloaded, -, -⟩ := findSecond_eq_some hp hfound
            have := hprimary hwrite _ hloaded
            rw [hrow]
            exact this

/-- No row goes away, and a row stays in its registration. -/
theorem CaptureWrites.kept (hwrites : CaptureWrites py program payload uuid t t') :
    ∀ q ∈ t.rows, ∃ q' ∈ t'.rows, q'.1 = q.1 ∧ q'.2.registrationId = q.2.registrationId := by
  -- both writes insert a row or update one in place
  have hprimary : ∀ {p : Participant} {t₁ : TradeLeads},
      PrimaryWrite py program payload uuid t p t₁ →
      ∀ q ∈ t.rows, ∃ q' ∈ t₁.rows, q'.1 = q.1 ∧ q'.2.registrationId = q.2.registrationId := by
    intro p t₁ hwrite q hq
    cases hwrite with
    | registered hnone hflush hinsert =>
        exact ⟨q, (Table.mem_of_insert hinsert).2 (Or.inl hq), rfl, rfl⟩
    | merged hfound hflush hupdate =>
        obtain ⟨_, _, -, -, -, hrow⟩ := flush_eq_some hflush
        have hloaded := (getByProgramEmail_eq_some hfound).1
        by_cases hid : q.1 = p.1
        · refine ⟨p, (Table.mem_of_update hupdate).2 (Or.inr ⟨rfl, _, hloaded⟩), hid.symm, ?_⟩
          rw [t.eq_of_id hq hloaded hid, hrow]
          rfl
        · exact ⟨q, (Table.mem_of_update hupdate).2 (Or.inl ⟨hq, hid⟩), rfl, rfl⟩
  cases hwrites with
  | nothing => exact fun q hq => ⟨q, hq, rfl, rfl⟩
  | primary hwrite => exact hprimary hwrite
  | @both p s kwargs t₁ _ hwrite hnamed hsecond =>
      intro q hq
      obtain ⟨q₁, hq₁, hid₁, hreg₁⟩ := hprimary hwrite q hq
      cases hsecond with
      | joined hnone hflush hinsert =>
          exact ⟨q₁, (Table.mem_of_insert hinsert).2 (Or.inl hq₁), hid₁, hreg₁⟩
      | @rejoined loaded hfound hflush hupdate =>
          obtain ⟨_, _, -, -, -, hrow⟩ := flush_eq_some hflush
          have hloaded := (findSecond_eq_some hwrite.stored.1 hfound).1
          by_cases hid : q₁.1 = s.1
          · refine ⟨s, (Table.mem_of_update hupdate).2 (Or.inr ⟨rfl, _, hloaded⟩),
              hid.symm.trans hid₁, ?_⟩
            rw [← hreg₁, t₁.eq_of_id hq₁ hloaded hid, hrow]
            rfl
          · exact ⟨q₁, (Table.mem_of_update hupdate).2 (Or.inl ⟨hq₁, hid⟩), hid₁, hreg₁⟩

theorem captureRegistration_kept (py : LowerCase) (programs : List TradeProgram) (slug : String)
    (payload : Registration) (uuid : String) :
    ∀ q ∈ t.rows, ∃ q' ∈ (captureRegistration py programs slug payload uuid t).1.rows,
      q'.1 = q.1 ∧ q'.2.registrationId = q.2.registrationId := by
  rcases captureRegistration_captureWrites py programs slug payload uuid t with
    hsame | ⟨program, -, hwrites⟩
  · rw [hsame]
    exact fun q hq => ⟨q, hq, rfl, rfl⟩
  · exact hwrites.kept

theorem captureAct_registrationId {programs : List TradeProgram} {act : CaptureAct}
    (h : captureAct py programs act t = some t') :
    ∀ q ∈ t'.rows, (∃ q₀ ∈ t.rows, q₀.2.registrationId = q.2.registrationId) ∨
      q.2.registrationId = act.uuid := by
  simp only [captureAct, Option.some.injEq] at h
  rcases captureRegistration_captureWrites py programs act.slug act.payload act.uuid t with
    hsame | ⟨program, -, hwrites⟩
  · rw [← h, hsame]
    exact fun q hq => Or.inl ⟨q, hq, rfl⟩
  · rw [← h]
    exact registrationId_capture hwrites

/-- A call uses no other identifier than its own. -/
theorem freshId_captureAct {programs : List TradeProgram} {act : CaptureAct} {id : String}
    (h : captureAct py programs act t = some t') (hid : FreshId id t) (hne : id ≠ act.uuid) :
    FreshId id t' := by
  intro q hq hreg
  rcases captureAct_registrationId h q hq with ⟨q₀, hq₀, hreg₀⟩ | hnew
  · exact hid q₀ hq₀ (hreg₀.trans hreg)
  · exact hne (hreg.symm.trans hnew)

theorem shaped_captureAct {programs : List TradeProgram} {act : CaptureAct} (ht : Shaped py t)
    (hfresh : FreshId act.uuid t) (hstep : captureAct py programs act t = some t') :
    Shaped py t' := by
  simp only [captureAct, Option.some.injEq] at hstep
  subst hstep
  rcases captureRegistration_captureWrites py programs act.slug act.payload act.uuid t with
    hsame | ⟨program, -, hwrites⟩
  · rw [hsame]
    exact ht
  · exact shaped_capture ht hfresh hwrites

/-- Identifiers that are all different and in no row stay unused until their turn. -/
theorem guarded_fresh {programs : List TradeProgram} {acts : List CaptureAct} {t : TradeLeads}
    (hnodup : (acts.map CaptureAct.uuid).Nodup)
    (hunused : ∀ act ∈ acts, FreshId act.uuid t) :
    Guarded (captureAct py programs) (fun act t => FreshId act.uuid t) acts t := by
  have hnames : (acts.flatMap fun act => [act.uuid]).Nodup := by
    rw [← List.map_eq_flatMap]
    exact hnodup
  have hguarded : Guarded (captureAct py programs)
      (fun act t => ∀ id ∈ [act.uuid], FreshId id t) acts t := by
    refine guarded_unused (J := fun _ => True) (fun _ _ _ _ _ _ => trivial) ?_ trivial hnames ?_
    · intro act t t' _ hstep id hid hne
      exact freshId_captureAct hstep hid (List.ne_of_not_mem_cons hne)
    · intro act hact id hid
      rw [List.mem_singleton.1 hid]
      exact hunused act hact
  exact hguarded.mono fun act t h => h act.uuid (List.mem_singleton_self _)

/-- **Registrations keep their shape.** After every call of every run that starts without
participants and is handed no identifier twice. -/
theorem registrations_shaped (py : LowerCase) (programs : List TradeProgram)
    {acts : List CaptureAct} (hnodup : (acts.map CaptureAct.uuid).Nodup) :
    Always (captureAct py programs) (Shaped py) acts (Table.empty _) := by
  refine always_of_step (G := fun act t => FreshId act.uuid t) ?_ (shaped_empty py)
    (guarded_fresh hnodup ?_)
  · intro act t t' ht hfresh hstep
    exact shaped_captureAct ht hfresh hstep
  · intro act _ q hq
    simp [Table.empty] at hq

end Driver

attribute [local instance] plainDriver

/-- Ada registers with Ben, and someone registers under the address she gave for him. -/
theorem shaped_after_ben : Always (captureAct asciiLower [openProgram]) (Shaped asciiLower)
    [⟨"launchpad", adaWithBen, "r-ada"⟩, ⟨"launchpad", benAlone, "r-ben"⟩] (Table.empty _) :=
  registrations_shaped asciiLower [openProgram] (by decide)

end SalesTrades.Trade
