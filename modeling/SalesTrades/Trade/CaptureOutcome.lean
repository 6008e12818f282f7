import SalesTrades.Trade.RegistrationShape

/-!
# How a registration ends

On a table of the right shape a call of `capture_registration` ends in one of four ways
(`captureInProgram_outcome`): it rejects values that do not fit their columns, it stores the primary
alone, it stores both participants, or it raises with the primary stored. Which of them it is can be
told from the payload and the table before the call (`ColumnsFit`, `SecondStorable`).
-/

set_option autoImplicit false

namespace SalesTrades.Trade

open SalesTrades.Library

variable {py : LowerCase} {program : TradeProgram} {payload : Registration} {uuid : String}
  {t t' : TradeLeads}

/-! ## What has to fit -/

/-- `second_participant_from_responses` returns. -/
def SecondReads (py : LowerCase) (payload : Registration) : Prop :=
  ∃ warning, secondParticipantFromResponses py payload.responses (normaliseEmail py payload.email) =
    .ok (namedSecond py payload, warning)

/-- No row of the program has the address of the second participant, the second row of the payload's
own registration apart. -/
def AddressFree (py : LowerCase) (program : TradeProgram) (payload : Registration)
    (kwargs : SecondKwargs) (t : TradeLeads) : Prop :=
  ∀ q ∈ t.rows, q.2.tradeProgramId = program.id → q.2.email = kwargs.email → kwargs.email ≠ "" →
    q.2.isPrimary = false ∧ ∃ loaded,
      getByProgramEmail t program.id (normaliseEmail py payload.email) = some loaded ∧
        q.2.registrationId = loaded.2.registrationId

/-- The second participant of the payload is none, or one that can be stored. -/
structure SecondStorable (py : LowerCase) (program : TradeProgram) (payload : Registration)
    (t : TradeLeads) : Prop where
  reads : SecondReads py payload
  fits : ∀ kwargs, namedSecond py payload = some kwargs → SecondFits kwargs
  free : ∀ kwargs, namedSecond py payload = some kwargs → AddressFree py program payload kwargs t

theorem wellFormed_iff : WellFormed py payload ↔ ColumnsFit py payload ∧ SecondReads py payload ∧
    ∀ kwargs, namedSecond py payload = some kwargs → SecondFits kwargs :=
  ⟨fun h => ⟨h.columns, h.second, h.secondColumns⟩, fun h => ⟨h.1, h.2.1, h.2.2⟩⟩

/-- The address of the primary is dropped from the second participant. -/
theorem namedSecond_email_ne {kwargs : SecondKwargs} (h : namedSecond py payload = some kwargs) :
    kwargs.email ≠ normaliseEmail py payload.email := by
  have hne := normaliseEmail_ne_empty py payload.email
  unfold namedSecond at h
  split at h
  · rename_i kwargs' warning hparse
    subst h
    unfold secondParticipantFromResponses at hparse
    split at hparse
    · simp only [bind_eq_ok] at hparse
      obtain ⟨first, -, last, -, hparse⟩ := hparse
      split at hparse
      · cases hparse
      · simp only [bind_eq_ok] at hparse
        obtain ⟨given, -, hparse⟩ := hparse
        cases hparse
        dsimp only
        split
        · exact hne.symm
        · rename_i hcollides
          exact fun heq => hcollides ⟨fun hempty => hne (heq ▸ hempty), heq⟩
    · cases hparse
  · cases h

/-! ## The primary -/

variable [ColumnDriver]

/-- A submission with a value that its column does not take fails on the first write. -/
theorem storePrimary_unfit (program : TradeProgram) (uuid : String) (t : TradeLeads)
    (h : ¬ ColumnsFit py payload) :
    storePrimary program payload (normaliseEmail py payload.email) uuid
      (getByProgramEmail t program.id (normaliseEmail py payload.email)) t = .error .dataError := by
  unfold storePrimary
  split
  · rename_i hsource
    have hflush : ∀ l : TradeLead, l.email = normaliseEmail py payload.email →
        (applyPayload l program payload).flush = none := by
      intro l hemail
      rw [← Option.not_isSome_iff_eq_none, Option.isSome_iff_exists]
      exact fun hrow => h ((applyPayload_flush_iff program payload hemail).1 ⟨hsource, hrow⟩)
    cases hfound : getByProgramEmail t program.id (normaliseEmail py payload.email) with
    | none =>
        have hnew := hflush (newPrimary program uuid (normaliseEmail py payload.email)) rfl
        simp only [writePrimary, createLead, hnew]
    | some loaded =>
        have hemail := (getByProgramEmail_eq_some hfound).2.2
        simp only [writePrimary, updateLead, hflush _ hemail]
  · rfl

/-- Values that fit are stored: the lookup has found the row that holds the address, if there is one. -/
theorem exists_primaryWrite (program : TradeProgram) (uuid : String) (t : TradeLeads)
    (h : ColumnsFit py payload) :
    ∃ p t', storePrimary program payload (normaliseEmail py payload.email) uuid
        (getByProgramEmail t program.id (normaliseEmail py payload.email)) t = .ok (p, t') ∧
      PrimaryWrite py program payload uuid t p t' := by
  obtain ⟨p, t', hstore⟩ := exists_storePrimary program h uuid t
  exact ⟨p, t', hstore, primaryWrite_of_store hstore⟩

/-! ## The second participant -/

omit [ColumnDriver] in
/-- On a table of the right shape the sibling lookup finds the second participant. -/
theorem findSecond_eq_some_iff (ht : Shaped py t) {primary s : Participant}
    (hprimary : primary ∈ t.rows) : findSecond t primary = some s ↔
      s ∈ t.rows ∧ s.2.registrationId = primary.2.registrationId ∧ s.2.isPrimary = false := by
  refine ⟨findSecond_eq_some hprimary, fun ⟨hs, hreg, hsecond⟩ => ?_⟩
  cases hfound : findSecond t primary with
  | none =>
      have := findSecond_eq_none hfound s hs hreg
      rw [hsecond] at this
      cases this
  | some r =>
      obtain ⟨hr, hrreg, hrsecond⟩ := findSecond_eq_some hprimary hfound
      rw [ht.only r hr s hs (hrreg.trans hreg.symm) (hrsecond.trans hsecond.symm)]

/-- A flushed second participant keeps its program and has the address of its fields. -/
theorem applySecond_key {primary : Participant} {kwargs : SecondKwargs} {l row : TradeLead}
    (hrow : (applySecond l primary.2 payload kwargs).flush = some row) :
    row.tradeProgramId = l.tradeProgramId ∧ row.email = kwargs.email := by
  obtain ⟨_, _, -, -, -, rfl⟩ := flush_eq_some hrow
  exact ⟨rfl, rfl⟩

/-- A second participant is inserted when its values fit and no row has the address. -/
theorem createSecond_ok_iff {primary : Participant} {kwargs : SecondKwargs}
    (hcolumns : ColumnsFit py payload) (hfound : findSecond t primary = none) :
    (∃ s t', createLead t (applySecond (newSecond program primary.2 payload) primary.2 payload
        kwargs) = .ok (s, t')) ↔
      SecondFits kwargs ∧
        ∀ q ∈ t.rows, q.2.tradeProgramId = program.id → q.2.email = kwargs.email →
          kwargs.email ≠ "" →
          q.2.isPrimary = false ∧ q.2.registrationId = primary.2.registrationId := by
  constructor
  · rintro ⟨s, t', h⟩
    obtain ⟨hflush, hinsert⟩ := createLead_ok h
    refine ⟨(applySecond_flush_iff _ _ _ hcolumns).1 ⟨_, hflush⟩, fun q hq hqprogram hqemail hne => ?_⟩
    -- the index would have rejected the new row
    obtain ⟨hrowprogram, hrowemail⟩ := applySecond_key hflush
    have hnone : t.insert s.2 = none := Table.insert_eq_none_iff.2
      ⟨q, hq, (program.id, kwargs.email),
        TradeLead.emailKey_eq_some.2 ⟨hrowemail ▸ hne, hrowprogram, hrowemail⟩,
        TradeLead.emailKey_eq_some.2 ⟨hqemail ▸ hne, hqprogram, hqemail⟩⟩
    rw [hnone] at hinsert
    cases hinsert
  · rintro ⟨hfits, hfree⟩
    obtain ⟨row, hrow⟩ := (applySecond_flush_iff (newSecond program primary.2 payload) primary.2
      kwargs hcolumns).2 hfits
    obtain ⟨hrowprogram, hrowemail⟩ := applySecond_key hrow
    obtain ⟨r, hr⟩ := exists_createLead (t := t) hrow fun k hk => by
      obtain ⟨hne, hp, he⟩ := TradeLead.emailKey_eq_some.1 hk
      cases hlookup : getByProgramEmail t k.1 k.2 with
      | none => rfl
      | some q =>
          obtain ⟨hq, hqprogram, hqemail⟩ := getByProgramEmail_eq_some hlookup
          obtain ⟨hsecond, hreg⟩ := hfree q hq (hqprogram.trans (hp.symm.trans hrowprogram))
            (hqemail.trans (he.symm.trans hrowemail)) (hrowemail ▸ hne)
          -- the registration has no second participant
          have := findSecond_eq_none hfound q hq hreg
          rw [hsecond] at this
          cases this
    exact ⟨r.1, r.2, hr⟩

/-- A second participant is updated when the values fit and no row but its own has the address. -/
theorem updateSecond_ok_iff (ht : Shaped py t) {primary loaded : Participant} {kwargs : SecondKwargs}
    (hcolumns : ColumnsFit py payload) (hprimary : primary ∈ t.rows)
    (hprogram : primary.2.tradeProgramId = program.id)
    (hfound : findSecond t primary = some loaded) :
    (∃ s t', updateLead t loaded (applySecond loaded.2 primary.2 payload kwargs) = .ok (s, t')) ↔
      SecondFits kwargs ∧
        ∀ q ∈ t.rows, q.2.tradeProgramId = program.id → q.2.email = kwargs.email →
          kwargs.email ≠ "" →
          q.2.isPrimary = false ∧ q.2.registrationId = primary.2.registrationId := by
  obtain ⟨hloaded, hloadedreg, hloadedsecond⟩ := findSecond_eq_some hprimary hfound
  have hloadedprogram : loaded.2.tradeProgramId = program.id :=
    (ht.program loaded hloaded primary hprimary hloadedreg).trans hprogram
  constructor
  · rintro ⟨s, t', h⟩
    obtain ⟨hid, hflush, hupdate⟩ := updateLead_alone hloaded h
    refine ⟨(applySecond_flush_iff _ _ _ hcolumns).1 ⟨_, hflush⟩, fun q hq hqprogram hqemail hne => ?_⟩
    obtain ⟨hrowprogram, hrowemail⟩ := applySecond_key hflush
    -- the row that has the address is the second one itself, or the index refuses the UPDATE
    by_cases hqs : q.1 = s.1
    · rw [t.eq_of_id hq hloaded (hqs.trans hid.symm)]
      exact ⟨hloadedsecond, hloadedreg⟩
    · have hnone : t.update s.1 s.2 = none := Table.update_eq_none_iff.2
        ⟨q, hq, hqs, (program.id, kwargs.email),
          TradeLead.emailKey_eq_some.2
            ⟨hrowemail ▸ hne, hrowprogram.trans hloadedprogram, hrowemail⟩,
          TradeLead.emailKey_eq_some.2 ⟨hqemail ▸ hne, hqprogram, hqemail⟩⟩
      rw [hnone] at hupdate
      cases hupdate
  · rintro ⟨hfits, hfree⟩
    obtain ⟨row, hrow⟩ := (applySecond_flush_iff loaded.2 primary.2 kwargs hcolumns).2 hfits
    obtain ⟨hrowprogram, hrowemail⟩ := applySecond_key hrow
    obtain ⟨r, hr⟩ := exists_updateLead hloaded hrow fun k hk q hlookup => by
      obtain ⟨hne, hp, he⟩ := TradeLead.emailKey_eq_some.1 hk
      obtain ⟨hq, hqprogram, hqemail⟩ := getByProgramEmail_eq_some hlookup
      obtain ⟨hsecond, hreg⟩ := hfree q hq
        (hqprogram.trans (hp.symm.trans (hrowprogram.trans hloadedprogram)))
        (hqemail.trans (he.symm.trans hrowemail)) (hrowemail ▸ hne)
      rw [ht.only q hq loaded hloaded (hreg.trans hloadedreg.symm)
        (hsecond.trans hloadedsecond.symm)]
    exact ⟨r.1, r.2, hr⟩

/-- The second participant is stored when the values fit and no row outside the registration has the
address. -/
theorem storeSecond_ok_iff (ht : Shaped py t) {primary : Participant} {kwargs : SecondKwargs}
    (hcolumns : ColumnsFit py payload) (hprimary : primary ∈ t.rows)
    (hprogram : primary.2.tradeProgramId = program.id) :
    (∃ s t', storeSecond program payload primary kwargs (findSecond t primary) t = .ok (s, t')) ↔
      SecondFits kwargs ∧
        ∀ q ∈ t.rows, q.2.tradeProgramId = program.id → q.2.email = kwargs.email →
          kwargs.email ≠ "" →
          q.2.isPrimary = false ∧ q.2.registrationId = primary.2.registrationId := by
  cases hfound : findSecond t primary with
  | none => exact createSecond_ok_iff hcolumns hfound
  | some loaded => exact updateSecond_ok_iff ht hcolumns hprimary hprogram hfound

/-- The registration of the primary's row is the one the lookup found, or a new one. -/
theorem PrimaryWrite.registration {p : Participant}
    (h : PrimaryWrite py program payload uuid t p t') :
    (getByProgramEmail t program.id (normaliseEmail py payload.email) = none ∧
        p.2.registrationId = uuid ∧ p.1 = t.nextId ∧ p.2.isPrimary = true) ∨
      ∃ loaded, getByProgramEmail t program.id (normaliseEmail py payload.email) =
        some (p.1, loaded) ∧ p.2.registrationId = loaded.registrationId ∧
        p.2.isPrimary = loaded.isPrimary := by
  cases h with
  | registered hnone hflush hinsert =>
      obtain ⟨_, _, -, -, -, hrow⟩ := flush_eq_some hflush
      refine Or.inl ⟨hnone, ?_, (Table.insert_eq_some hinsert).1, ?_⟩
      · rw [hrow]
        rfl
      · rw [hrow]
        rfl
  | merged hfound hflush hupdate =>
      obtain ⟨_, _, -, -, -, hrow⟩ := flush_eq_some hflush
      refine Or.inr ⟨_, hfound, ?_, ?_⟩
      · rw [hrow]
        rfl
      · rw [hrow]
        rfl

/-- The row that the lookup found is the one written, and it keeps its registration and its place. -/
theorem PrimaryWrite.of_found {p loaded : Participant}
    (h : PrimaryWrite py program payload uuid t p t')
    (hfound : getByProgramEmail t program.id (normaliseEmail py payload.email) = some loaded) :
    p.1 = loaded.1 ∧ p.2.registrationId = loaded.2.registrationId ∧
      p.2.isPrimary = loaded.2.isPrimary := by
  rcases h.registration with ⟨hnone, -⟩ | ⟨old, hold, hreg, hprim⟩
  · rw [hnone] at hfound
    cases hfound
  · obtain rfl : (p.1, old) = loaded := Option.some.inj (hold.symm.trans hfound)
    exact ⟨rfl, hreg, hprim⟩

/-- The primary's write leaves every other row alone. -/
theorem PrimaryWrite.others {p : Participant} (h : PrimaryWrite py program payload uuid t p t') :
    Table.SameExcept p.1 t t' := by
  cases h with
  | registered hnone hflush hinsert => exact Table.sameExcept_insert hinsert
  | merged hfound hflush hupdate => exact Table.sameExcept_update hupdate

/-- The columns of the primary's row that the payload determines. -/
theorem PrimaryWrite.values {p : Participant} (h : PrimaryWrite py program payload uuid t p t') :
    p.2.company = payload.company ∧ p.2.phone = Json.ofOption payload.phone ∧
      p.2.jobTitle = Json.ofOption payload.jobTitle ∧ p.2.responses = .obj payload.responses ∧
      p.2.tags = some program.config.baseTags ∧
      ∀ k : SharedKey, k.columnType.bind (sharedFieldsFromResponses payload.responses k) =
        some (p.2.shared k) := by
  obtain ⟨l, hflush⟩ : ∃ l, (applyPayload l program payload).flush = some p.2 := by
    cases h with
    | registered hnone hflush hinsert => exact ⟨_, hflush⟩
    | merged hfound hflush hupdate => exact ⟨_, hflush⟩
  obtain ⟨phone, jobTitle, hphone, hjob, hshared, hrow⟩ := flush_eq_some hflush
  rw [hrow]
  refine ⟨rfl, ?_, ?_, rfl, rfl, fun k => (Option.some_get (hshared k)).symm.trans ?_⟩
  · exact ColumnType.bind_eq_of_texts (Or.inl rfl) hphone
  · exact ColumnType.bind_eq_of_texts (Or.inl rfl) hjob
  · rw [Option.get_eq_getD]

/-- The row that the second participant's write leaves, in the registration of the primary. -/
theorem SecondWrite.stored {primary s : Participant} {kwargs : SecondKwargs}
    (hprimary : primary ∈ t.rows) (h : SecondWrite program payload primary kwargs t s t') :
    s ∈ t'.rows ∧ Table.SameExcept s.1 t t' ∧
      s.2.registrationId = primary.2.registrationId ∧ s.2.isPrimary = false ∧
      s.2.email = kwargs.email := by
  cases h with
  | joined hnone hflush hinsert =>
      obtain ⟨_, _, -, -, -, hrow⟩ := flush_eq_some hflush
      refine ⟨(Table.mem_of_insert hinsert).2 (Or.inr rfl), Table.sameExcept_insert hinsert, ?_⟩
      rw [hrow]
      exact ⟨rfl, rfl, rfl⟩
  | rejoined hfound hflush hupdate =>
      obtain ⟨_, _, -, -, -, hrow⟩ := flush_eq_some hflush
      obtain ⟨hloaded, hreg, hsecond⟩ := findSecond_eq_some hprimary hfound
      refine ⟨(Table.mem_of_update hupdate).2 (Or.inr ⟨rfl, _, hloaded⟩),
        Table.sameExcept_update hupdate, ?_⟩
      rw [hrow]
      exact ⟨hreg, hsecond, rfl⟩

/-- The submission lands on a primary row unless a second participant of the program has its address. -/
theorem PrimaryWrite.isPrimary_iff {p : Participant}
    (h : PrimaryWrite py program payload uuid t p t') :
    p.2.isPrimary = true ↔ ∀ q ∈ t.rows, q.2.tradeProgramId = program.id →
      q.2.email = normaliseEmail py payload.email → q.2.isPrimary = true := by
  have hne := normaliseEmail_ne_empty py payload.email
  rcases h.registration with ⟨hnone, -, -, hprim⟩ | ⟨loaded, hfound, -, hprim⟩
  · exact ⟨fun _ q hq hprogram hemail =>
      absurd ⟨hprogram, hemail⟩ (getByProgramEmail_eq_none hne hnone q hq), fun _ => hprim⟩
  · obtain ⟨hloaded, hlprogram, hlemail⟩ := getByProgramEmail_eq_some hfound
    rw [hprim]
    constructor
    · intro hl q hq hprogram hemail
      rw [eq_of_email hq hloaded (hprogram.trans hlprogram.symm) (hemail.trans hlemail.symm)
        (hemail ▸ hne)]
      exact hl
    · exact fun hall => hall _ hloaded hlprogram hlemail

/-- The second participant's write leaves a primary alone. -/
theorem SecondWrite.keeps_primary {primary s : Participant} {kwargs : SecondKwargs}
    (hprimary : primary ∈ t.rows) (hprim : primary.2.isPrimary = true)
    (h : SecondWrite program payload primary kwargs t s t') :
    s.1 ≠ primary.1 ∧ primary ∈ t'.rows := by
  have hne : s.1 ≠ primary.1 := by
    cases h with
    | joined hnone hflush hinsert =>
        rw [(Table.insert_eq_some hinsert).1]
        exact (t.id_lt primary hprimary).ne'
    | rejoined hfound hflush hupdate =>
        obtain ⟨hloaded, -, hsecond⟩ := findSecond_eq_some hprimary hfound
        intro hid
        rw [← t.eq_of_id hloaded hprimary hid] at hprim
        rw [hsecond] at hprim
        cases hprim
  exact ⟨hne, ((h.stored hprimary).2.1 primary hne.symm).2 hprimary⟩

/-- The columns of the second participant's row that it shares with the primary's. -/
theorem SecondWrite.shared {primary s : Participant} {kwargs : SecondKwargs}
    (h : SecondWrite program payload primary kwargs t s t') :
    s.2.company = payload.company ∧
      ∀ k : SharedKey, k.columnType.bind (sharedFieldsFromResponses payload.responses k) =
        some (s.2.shared k) := by
  obtain ⟨l, hflush⟩ : ∃ l, (applySecond l primary.2 payload kwargs).flush = some s.2 := by
    cases h with
    | joined hnone hflush hinsert => exact ⟨_, hflush⟩
    | rejoined hfound hflush hupdate => exact ⟨_, hflush⟩
  obtain ⟨_, _, -, -, hshared, hrow⟩ := flush_eq_some hflush
  rw [hrow]
  refine ⟨rfl, fun k => (Option.some_get (hshared k)).symm.trans ?_⟩
  rw [Option.get_eq_getD]

/-- After the primary's write the address of the second participant is as free as before. -/
theorem addressFree_iff {p : Participant} {kwargs : SecondKwargs} (hfresh : FreshId uuid t)
    (hnamed : namedSecond py payload = some kwargs)
    (h : PrimaryWrite py program payload uuid t p t') :
    AddressFree py program payload kwargs t ↔
      ∀ q ∈ t'.rows, q.2.tradeProgramId = program.id → q.2.email = kwargs.email →
        kwargs.email ≠ "" → q.2.isPrimary = false ∧
          q.2.registrationId = p.2.registrationId := by
  obtain ⟨hp, -, hpemail⟩ := h.stored
  -- neither the row that is written nor the one it replaces has the address
  have hne : ∀ q : Participant, q.2.email = kwargs.email →
      q.2.email ≠ normaliseEmail py payload.email :=
    fun q hq heq => namedSecond_email_ne hnamed (hq.symm.trans heq)
  have hrows : ∀ q : Participant, q.2.email = kwargs.email → (q ∈ t'.rows ↔ q ∈ t.rows) := by
    intro q hq
    by_cases hid : q.1 = p.1
    · constructor
      · intro hmem
        rw [t'.eq_of_id hmem hp hid] at hq
        exact absurd hpemail (hne p hq)
      · intro hmem
        rcases h.registration with ⟨-, -, hnext, -⟩ | ⟨loaded, hfound, -⟩
        · exact absurd (hid.trans hnext) (t.id_lt q hmem).ne
        · obtain ⟨hloaded, -, hemail⟩ := getByProgramEmail_eq_some hfound
          rw [t.eq_of_id hmem hloaded hid] at hq
          exact absurd hemail (hne _ hq)
    · exact h.others q hid
  rcases h.registration with ⟨hnone, hreg, -⟩ | ⟨loaded, hfound, hreg, -⟩
  · constructor
    · intro hfree q hq hqprogram hqemail hempty
      obtain ⟨-, loaded, hfound, -⟩ := hfree q ((hrows q hqemail).1 hq) hqprogram hqemail hempty
      rw [hnone] at hfound
      cases hfound
    · intro hfree q hq hqprogram hqemail hempty
      have := (hfree q ((hrows q hqemail).2 hq) hqprogram hqemail hempty).2
      exact absurd (this.trans hreg) (hfresh q hq)
  · constructor
    · intro hfree q hq hqprogram hqemail hempty
      obtain ⟨hsecond, loaded', hfound', hqreg⟩ :=
        hfree q ((hrows q hqemail).1 hq) hqprogram hqemail hempty
      rw [hfound, Option.some.injEq] at hfound'
      subst hfound'
      exact ⟨hsecond, hqreg.trans hreg.symm⟩
    · intro hfree q hq hqprogram hqemail hempty
      obtain ⟨hsecond, hqreg⟩ := hfree q ((hrows q hqemail).2 hq) hqprogram hqemail hempty
      exact ⟨hsecond, (p.1, loaded), hfound, hqreg.trans hreg⟩

/-! ## The whole call -/

/-- The four ways a call ends, with what each says of the payload and the table before it. -/
inductive CaptureOutcome (py : LowerCase) (program : TradeProgram) (payload : Registration)
    (uuid : String) (t : TradeLeads) :
    TradeLeads × Except PyError (List Participant × Bool) → Prop where
  | rejected (hunfit : ¬ ColumnsFit py payload) :
      CaptureOutcome py program payload uuid t (t, .error .dataError)
  | alone {p : Participant} {t₁ : TradeLeads} (hfits : ColumnsFit py payload)
      (hprimary : PrimaryWrite py program payload uuid t p t₁)
      (hsecond : SecondStorable py program payload t) (hnone : namedSecond py payload = none) :
      CaptureOutcome py program payload uuid t
        (t₁, .ok ([p],
          (getByProgramEmail t program.id (normaliseEmail py payload.email)).isNone))
  | paired {p s : Participant} {kwargs : SecondKwargs} {t₁ t₂ : TradeLeads}
      (hfits : ColumnsFit py payload) (hprimary : PrimaryWrite py program payload uuid t p t₁)
      (hsecond : SecondStorable py program payload t)
      (hnamed : namedSecond py payload = some kwargs)
      (hstored : SecondWrite program payload p kwargs t₁ s t₂) :
      CaptureOutcome py program payload uuid t
        (t₂, .ok ([p, s],
          (getByProgramEmail t program.id (normaliseEmail py payload.email)).isNone))
  | halfway {p : Participant} {t₁ : TradeLeads} {e : PyError} (hfits : ColumnsFit py payload)
      (hprimary : PrimaryWrite py program payload uuid t p t₁)
      (hsecond : ¬ SecondStorable py program payload t) :
      CaptureOutcome py program payload uuid t (t₁, .error e)

/-- **How a call ends.** -/
theorem captureInProgram_outcome (ht : Shaped py t) (hfresh : FreshId uuid t) :
    CaptureOutcome py program payload uuid t (captureInProgram py program payload uuid t) := by
  by_cases hfits : ColumnsFit py payload
  · obtain ⟨p, t₁, hstore, hprimary⟩ := exists_primaryWrite program uuid t hfits
    simp only [captureInProgram, hstore]
    obtain ⟨hp, hprogram, -⟩ := hprimary.stored
    have ht₁ := shaped_primaryWrite ht hfresh hprimary
    -- the primary is committed before the second participant is read
    cases hparse : secondParticipantFromResponses py payload.responses
        (normaliseEmail py payload.email) with
    | error e =>
        refine .halfway hfits hprimary fun hsecond => ?_
        obtain ⟨warning, hreads⟩ := hsecond.reads
        rw [hparse] at hreads
        cases hreads
    | ok r =>
        obtain ⟨named, warning⟩ := r
        have hnamed : namedSecond py payload = named := by rw [namedSecond, hparse]
        have hreads : SecondReads py payload := ⟨warning, by rw [hparse, hnamed]⟩
        cases named with
        | none =>
            refine .alone hfits hprimary ⟨hreads, fun kwargs h => ?_, fun kwargs h => ?_⟩ hnamed
            · rw [hnamed] at h
              cases h
            · rw [hnamed] at h
              cases h
        | some kwargs =>
            have hiff : (∃ s t₂, storeSecond program payload p kwargs (findSecond t₁ p) t₁ =
                .ok (s, t₂)) ↔ SecondFits kwargs ∧
                  AddressFree py program payload kwargs t := by
              rw [addressFree_iff hfresh hnamed hprimary]
              exact storeSecond_ok_iff ht₁ hfits hp hprogram
            dsimp only
            cases hsecond : storeSecond program payload p kwargs (findSecond t₁ p) t₁ with
            | error e =>
                refine .halfway hfits hprimary fun hstorable => ?_
                obtain ⟨s, t₂, hok⟩ := hiff.2
                  ⟨hstorable.fits kwargs hnamed, hstorable.free kwargs hnamed⟩
                rw [hsecond] at hok
                cases hok
            | ok r =>
                obtain ⟨s, t₂⟩ := r
                obtain ⟨hsfits, hfree⟩ := hiff.1 ⟨s, t₂, hsecond⟩
                refine .paired hfits hprimary ⟨hreads, fun kwargs' h => ?_, fun kwargs' h => ?_⟩
                  hnamed (secondWrite_of_store hp hsecond)
                · rw [hnamed, Option.some.injEq] at h
                  exact h ▸ hsfits
                · rw [hnamed, Option.some.injEq] at h
                  exact h ▸ hfree
  · simp only [captureInProgram, storePrimary_unfit program uuid t hfits]
    exact .rejected hfits

end SalesTrades.Trade
