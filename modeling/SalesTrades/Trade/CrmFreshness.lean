import SalesTrades.Trade.Eligibility
import SalesTrades.Trade.PushedContacts

/-!
# Contacts that fall behind their participants

A capture merges into rows, and a roll-up writes their status, without putting a synced row back into
the queue, and a sweep looks at waiting rows only. So the contacts of the synced rows are those last
pushed for them throughout a run exactly when no call changes what a synced row would push
(`contacts_fresh_iff`). Rows that were transferred in as synced have never been pushed, and are left
out.
-/

set_option autoImplicit false

namespace SalesTrades.Trade

open SalesTrades.Library SalesTrades.Library.Run

variable {py : LowerCase} {programs : List TradeProgram} {program : TradeProgram}
  {configured : Bool} {transferred : Finset Nat} {payload : Registration} {uuid : String}
  {t t' : TradeLeads} {log : List Push} {q q' : Participant}

/-! ## Calls -/

/-- The tables, and the upserts, newest first. -/
structure PushWorld where
  desk : DocumentWorld
  pushes : List Push

/-- A registration with the identifier `uuid4` would give it, the submission of a document, or a run of
the sweep. -/
inductive FreshAct where
  | register (slug : String) (payload : Registration) (uuid : String)
  | submit (slug : String) (args : DocumentArgs) (o : SubmitOutside)
  | sync (globalSync : Bool) (limit : Nat) (o : SyncOutside)

/-- One call, run on its own. -/
def freshStep [ColumnDriver] (py : LowerCase) (programs : List TradeProgram) (configured : Bool) :
    FreshAct → PushWorld → Option PushWorld
  | .register slug payload uuid, w =>
      some { w with
        desk := { w.desk with
          leads := (captureRegistration py programs slug payload uuid w.desk.leads).1 } }
  | .submit slug args o, w =>
      match getProgramBySlug programs slug with
      | none => some w
      | some program => some { w with desk := (submitDocument configured program args o w.desk).1 }
  | .sync globalSync limit o, w =>
      let result := pushPendingTrade globalSync programs o limit w.desk.leads w.pushes
      some ⟨{ w.desk with leads := result.1.1 }, result.1.2⟩

/-- The identifier that a call may bring in. -/
def FreshAct.names : FreshAct → List String
  | .register _ _ uuid => [uuid]
  | .submit _ _ _ => []
  | .sync _ _ _ => []

/-- A synced row that was not transferred in. -/
def Watched (transferred : Finset Nat) (q : Participant) : Prop :=
  q.1 ∉ transferred ∧ q.2.crmSyncStatus = .synced

/-- The CRM has every synced row as it is stored. -/
def ContactsFresh (programs : List TradeProgram) (transferred : Finset Nat) (log : List Push)
    (t : TradeLeads) : Prop :=
  ∀ q ∈ t.rows, Watched transferred q → AtCrm programs log q

/-- What a submission has to repeat when it is stored: about the row it lands on, unless the second
participant is written over that row, and about the second participant it stores. -/
structure Repeats (py : LowerCase) (transferred : Finset Nat) (program : TradeProgram)
    (payload : Registration) (t : TradeLeads) : Prop where
  own : ∀ loaded,
    getByProgramEmail t program.id (normaliseEmail py payload.email) = some loaded →
      Watched transferred loaded →
        (StoresSecond py program payload t → loaded.2.isPrimary = true) →
          loaded.2.contactFields = payload.contactFields program
  second : StoresSecond py program payload t → ∀ loaded,
    getByProgramEmail t program.id (normaliseEmail py payload.email) = some loaded →
      ∀ s ∈ t.rows, s.2.registrationId = loaded.2.registrationId → s.2.isPrimary = false →
        Watched transferred s → ∀ kwargs, namedSecond py payload = some kwargs →
          s.2.email = kwargs.email ∧ s.2.contactFields = kwargs.contactFields payload program

/-- The condition on a call: a submission repeats what the synced rows it writes have, and a document
leaves the synced rows of its registration at the status they have. -/
def KeepsContacts (py : LowerCase) (programs : List TradeProgram) (configured : Bool)
    (transferred : Finset Nat) (w : PushWorld) : FreshAct → Prop
  | .register slug payload _ => ∀ program, getProgramBySlug programs slug = some program →
      program.status = .active → ColumnsFit py payload →
        Repeats py transferred program payload w.desk.leads
  | .submit slug args o => ∀ program, getProgramBySlug programs slug = some program →
      Accepted configured program args o w.desk.leads →
        ∀ q ∈ w.desk.leads.rows, q.2.registrationId = args.registrationId →
          Watched transferred q → q.2.eligibilityStatus = computeEligibilityStatus
            (insert args.documentKey (presentKeys w.desk.documents args.registrationId)) program
  | .sync _ _ _ => True

/-! ## Writes to one row -/

/-- A row that is rewritten in its program is still at the CRM exactly when its contact is the same. -/
theorem AtCrm.rewritten_iff (h : AtCrm programs log q) (q' : Participant) (hid : q'.1 = q.1)
    (hprogram : q'.2.tradeProgramId = q.2.tradeProgramId) :
    AtCrm programs log q' ↔ q'.2.contactFields = q.2.contactFields ∧ q'.2.email = q.2.email ∧
      q'.2.eligibilityStatus = q.2.eligibilityStatus := by
  obtain ⟨program, payload, hfound, hlast, hbuild⟩ := h
  rw [← buildContactPayload_congr_iff hbuild]
  constructor
  · rintro ⟨program', payload', hfound', hlast', hbuild'⟩
    rw [hprogram, hfound, Option.some.injEq] at hfound'
    rw [hid, hlast, Option.some.injEq] at hlast'
    subst hfound' hlast'
    exact hbuild'
  · intro hbuild'
    exact ⟨program, payload, hprogram ▸ hfound, hid ▸ hlast, hbuild'⟩

/-- After some rows have been written the synced rows are at the CRM exactly when those are. -/
theorem contactsFresh_write_iff {written : List Participant}
    (hfresh : ContactsFresh programs transferred log t)
    (hrows : ∀ q ∈ t'.rows, q ∈ t.rows ∨ q ∈ written) (hwritten : ∀ q ∈ written, q ∈ t'.rows) :
    ContactsFresh programs transferred log t' ↔
      ∀ q ∈ written, Watched transferred q → AtCrm programs log q := by
  constructor
  · exact fun h q hq => h q (hwritten q hq)
  · intro h q hq
    rcases hrows q hq with hold | hnew
    · exact hfresh q hold
    · exact h q hnew

section Driver

variable [ColumnDriver]

/-- The fields of a row whose shared columns are those of the payload. -/
theorem contactFields_of_stored {firstName lastName : String} {phone jobTitle : Json}
    {tags : List String} {company : Option String} {given stored : SharedKey → Json}
    (h : ∀ k : SharedKey, k.columnType.bind (given k) = some (stored k)) :
    contactFields firstName lastName phone jobTitle tags company stored =
      contactFields firstName lastName phone jobTitle tags company given := by
  have hsame : ∀ k : SharedKey, k.columnType = .text ∨ k.columnType = .textArray →
      stored k = given k :=
    fun k hk => ColumnType.bind_eq_of_texts hk (h k)
  simp only [contactFields]
  rw [hsame .country (Or.inl rfl), hsame .industrySector (Or.inl rfl),
    hsame .companyFounded (Or.inl rfl), hsame .employeeCount (Or.inl rfl),
    hsame .sourcesInternationally (Or.inl rfl), hsame .sellsInternationally (Or.inl rfl),
    hsame .topicsOfInterest (Or.inr rfl)]

/-! ## The two writes of a registration -/

/-- A merge leaves program, sync status and eligibility status as they were. -/
structure KeptColumns (old new : TradeLead) : Prop where
  program : new.tradeProgramId = old.tradeProgramId
  sync : new.crmSyncStatus = old.crmSyncStatus
  eligibility : new.eligibilityStatus = old.eligibilityStatus

omit [ColumnDriver] in
theorem KeptColumns.trans {l₁ l₂ l₃ : TradeLead} (h : KeptColumns l₁ l₂) (h' : KeptColumns l₂ l₃) :
    KeptColumns l₁ l₃ :=
  ⟨h'.program.trans h.program, h'.sync.trans h.sync, h'.eligibility.trans h.eligibility⟩

omit [ColumnDriver] in
theorem KeptColumns.watched_iff (h : KeptColumns q.2 q'.2) (hid : q'.1 = q.1) :
    Watched transferred q' ↔ Watched transferred q := by
  unfold Watched
  rw [hid, h.sync]

/-- A new row waits for its first push; a merge keeps address and status. -/
theorem PrimaryWrite.kept {p : Participant} (h : PrimaryWrite py program payload uuid t p t') :
    (getByProgramEmail t program.id (normaliseEmail py payload.email) = none ∧
        p.2.crmSyncStatus = .pending) ∨
      ∃ loaded, getByProgramEmail t program.id (normaliseEmail py payload.email) =
        some (p.1, loaded) ∧ KeptColumns loaded p.2 ∧ p.2.email = loaded.email := by
  cases h with
  | registered hnone hflush hinsert =>
      obtain ⟨_, _, -, -, -, hrow⟩ := flush_eq_some hflush
      refine Or.inl ⟨hnone, ?_⟩
      rw [hrow]
      rfl
  | merged hfound hflush hupdate =>
      obtain ⟨_, _, -, -, -, hrow⟩ := flush_eq_some hflush
      obtain ⟨-, hprogram, -⟩ := getByProgramEmail_eq_some hfound
      refine Or.inr ⟨_, hfound, ?_, ?_⟩
      · rw [hrow]
        exact ⟨hprogram.symm, rfl, rfl⟩
      · rw [hrow]
        rfl

/-- The second participant's row is new and waits, or keeps its status. -/
theorem SecondWrite.kept {primary s : Participant} {kwargs : SecondKwargs}
    (h : SecondWrite program payload primary kwargs t s t') :
    (findSecond t primary = none ∧ s.2.crmSyncStatus = .pending) ∨
      ∃ loaded, findSecond t primary = some (s.1, loaded) ∧ KeptColumns loaded s.2 := by
  cases h with
  | joined hnone hflush hinsert =>
      obtain ⟨_, _, -, -, -, hrow⟩ := flush_eq_some hflush
      refine Or.inl ⟨hnone, ?_⟩
      rw [hrow]
      rfl
  | rejoined hfound hflush hupdate =>
      obtain ⟨_, _, -, -, -, hrow⟩ := flush_eq_some hflush
      refine Or.inr ⟨_, hfound, ?_⟩
      rw [hrow]
      exact ⟨rfl, rfl, rfl⟩

/-- The primary's write leaves what the submission says about its participant. -/
theorem PrimaryWrite.contactFields {p : Participant}
    (h : PrimaryWrite py program payload uuid t p t') :
    p.2.contactFields = payload.contactFields program := by
  obtain ⟨hcompany, hphone, hjob, -, htags, hshared⟩ := h.values
  obtain ⟨hfirst, hlast⟩ : p.2.firstName = payload.firstName ∧ p.2.lastName = payload.lastName := by
    obtain ⟨l, hflush⟩ : ∃ l, (applyPayload l program payload).flush = some p.2 := by
      cases h with
      | registered hnone hflush hinsert => exact ⟨_, hflush⟩
      | merged hfound hflush hupdate => exact ⟨_, hflush⟩
    obtain ⟨_, _, -, -, -, hrow⟩ := flush_eq_some hflush
    rw [hrow]
    exact ⟨rfl, rfl⟩
  simp only [TradeLead.contactFields, hfirst, hlast, hphone, hjob, htags, hcompany,
    Option.getD_some]
  exact contactFields_of_stored hshared

/-- The second write leaves what the submission says about the second participant. -/
theorem SecondWrite.contactFields {primary s : Participant} {kwargs : SecondKwargs}
    (htags : primary.2.tags = some program.config.baseTags)
    (h : SecondWrite program payload primary kwargs t s t') :
    s.2.contactFields = kwargs.contactFields payload program := by
  obtain ⟨hcompany, hshared⟩ := h.shared
  obtain ⟨l, hflush⟩ : ∃ l, (applySecond l primary.2 payload kwargs).flush = some s.2 := by
    cases h with
    | joined hnone hflush hinsert => exact ⟨_, hflush⟩
    | rejoined hfound hflush hupdate => exact ⟨_, hflush⟩
  obtain ⟨phone, jobTitle, hphone, hjob, -, hrow⟩ := flush_eq_some hflush
  have hfields : s.2.firstName = kwargs.firstName ∧ s.2.lastName = kwargs.lastName ∧
      s.2.phone = kwargs.phone ∧ s.2.jobTitle = kwargs.jobTitle ∧
      s.2.tags = some (program.config.baseTags ++ ["Second Participant"]) := by
    have hgivenPhone : phone = kwargs.phone := ColumnType.bind_eq_of_texts (Or.inl rfl) hphone
    have hgivenJob : jobTitle = kwargs.jobTitle := ColumnType.bind_eq_of_texts (Or.inl rfl) hjob
    rw [hrow]
    refine ⟨rfl, rfl, hgivenPhone, hgivenJob, ?_⟩
    simp only [applySecond, secondTags, htags, Option.getD_some]
  obtain ⟨hfirst, hlast, hsphone, hsjob, hstags⟩ := hfields
  simp only [TradeLead.contactFields, hfirst, hlast, hsphone, hsjob, hstags, hcompany,
    Option.getD_some]
  exact contactFields_of_stored hshared

/-- The row that the primary's write leaves is at the CRM exactly when the submission repeats what the
row it has landed on says. -/
theorem PrimaryWrite.atCrm_iff {p : Participant}
    (hfresh : ContactsFresh programs transferred log t)
    (h : PrimaryWrite py program payload uuid t p t') :
    (Watched transferred p → AtCrm programs log p) ↔ ∀ loaded,
      getByProgramEmail t program.id (normaliseEmail py payload.email) = some loaded →
        Watched transferred loaded → loaded.2.contactFields = payload.contactFields program := by
  rcases h.kept with ⟨hnone, hpending⟩ | ⟨loaded, hfound, hkept, hemail⟩
  · rw [hnone]
    refine iff_of_true (fun hwatched => ?_) fun _ hloaded => by cases hloaded
    have hsynced := hwatched.2
    rw [hpending] at hsynced
    cases hsynced
  · simp only [hfound, Option.some.injEq, forall_eq']
    have hwatched : Watched transferred p ↔ Watched transferred (p.1, loaded) :=
      KeptColumns.watched_iff hkept rfl
    rw [hwatched]
    refine imp_congr_right fun hw => ?_
    have hold := hfresh _ (getByProgramEmail_eq_some hfound).1 hw
    rw [hold.rewritten_iff p rfl hkept.program, h.contactFields]
    constructor
    · exact fun hsame => hsame.1.symm
    · exact fun hsame => ⟨hsame.symm, hemail, hkept.eligibility⟩

/-- Where the second participant's row comes from: it is new, or it was the registration's before the
call. -/
theorem SecondWrite.origin {p s : Participant} {kwargs : SecondKwargs} {t₁ t₂ : TradeLeads}
    (hunused : FreshId uuid t) (hprimary : PrimaryWrite py program payload uuid t p t₁)
    (hstored : SecondWrite program payload p kwargs t₁ s t₂) :
    (s.2.crmSyncStatus = .pending ∧ ∀ loaded,
        getByProgramEmail t program.id (normaliseEmail py payload.email) = some loaded →
          ∀ r ∈ t.rows, r.2.registrationId = loaded.2.registrationId → r.2.isPrimary = true) ∨
      ∃ loaded old, getByProgramEmail t program.id (normaliseEmail py payload.email) = some loaded ∧
        (s.1, old) ∈ t.rows ∧ old.registrationId = loaded.2.registrationId ∧
        old.isPrimary = false ∧ KeptColumns old s.2 := by
  have hp := hprimary.stored.1
  rcases hstored.kept with ⟨hnone, hpending⟩ | ⟨loaded₁, hsecond, hkept⟩
  · refine Or.inl ⟨hpending, fun loaded hfound r hr hreg => ?_⟩
    obtain ⟨hid, hpreg, hpprim⟩ := hprimary.of_found hfound
    have hall := (findSecond_eq_none_iff hp).1 hnone
    exact (hprimary.allPrimary_iff (hid ▸ hfound) hpreg hpprim).1 hall r hr hreg
  · obtain ⟨hloaded₁, hreg₁, hprim₁⟩ := findSecond_eq_some hp hsecond
    right
    rcases hprimary.registration with ⟨-, hpreg, -, hpprim⟩ | ⟨loaded, hfound, hpreg, hpprim⟩
    · -- a new registration has no second participant
      have hne : s.1 ≠ p.1 := by
        intro hid
        rw [t₁.eq_of_id hloaded₁ hp hid, hpprim] at hprim₁
        cases hprim₁
      exact absurd (hreg₁.trans hpreg) (hunused _ ((hprimary.others (s.1, loaded₁) hne).1 hloaded₁))
    · by_cases hid : s.1 = p.1
      · -- the second participant is the row that the submission has landed on
        have hsame := t₁.eq_of_id hloaded₁ hp hid
        rcases hprimary.kept with ⟨hnone, -⟩ | ⟨loaded', hfound', hpkept, -⟩
        · rw [hnone] at hfound
          cases hfound
        · obtain rfl : loaded' = loaded :=
            congrArg Prod.snd (Option.some.inj (hfound'.symm.trans hfound))
          refine ⟨_, loaded', hfound, hid ▸ (getByProgramEmail_eq_some hfound).1, rfl, ?_, ?_⟩
          · rw [hsame] at hprim₁
            exact hpprim.symm.trans hprim₁
          · exact hpkept.trans (congrArg Prod.snd hsame ▸ hkept)
      · exact ⟨_, loaded₁, hfound, (hprimary.others (s.1, loaded₁) hid).1 hloaded₁,
          hreg₁.trans hpreg, hprim₁, hkept⟩

/-- The row that the second write leaves is at the CRM exactly when the submission repeats what the
registration's second participant says. -/
theorem SecondWrite.atCrm_iff {p s : Participant} {kwargs : SecondKwargs} {t₁ t₂ : TradeLeads}
    (ht : Shaped py t) (hfresh : ContactsFresh programs transferred log t)
    (hunused : FreshId uuid t) (hprimary : PrimaryWrite py program payload uuid t p t₁)
    (hnamed : namedSecond py payload = some kwargs)
    (hstored : SecondWrite program payload p kwargs t₁ s t₂) :
    (Watched transferred s → AtCrm programs log s) ↔ ∀ loaded,
      getByProgramEmail t program.id (normaliseEmail py payload.email) = some loaded →
        ∀ r ∈ t.rows, r.2.registrationId = loaded.2.registrationId → r.2.isPrimary = false →
          Watched transferred r → ∀ kwargs, namedSecond py payload = some kwargs →
            r.2.email = kwargs.email ∧ r.2.contactFields = kwargs.contactFields payload program := by
  have hemail : s.2.email = kwargs.email := (hstored.stored hprimary.stored.1).2.2.2.2
  have hfields := hstored.contactFields hprimary.values.2.2.2.2.1
  rcases hstored.origin hunused hprimary with ⟨hpending, hall⟩ | ⟨loaded, old, hfound, hold, hreg,
    hprim, hkept⟩
  · refine iff_of_true (fun hwatched => ?_) fun loaded hfound r hr hreg hsecond => ?_
    · have hsynced := hwatched.2
      rw [hpending] at hsynced
      cases hsynced
    · rw [hall loaded hfound r hr hreg] at hsecond
      cases hsecond
  · have hwatched : Watched transferred s ↔ Watched transferred (s.1, old) :=
      KeptColumns.watched_iff hkept rfl
    rw [hwatched]
    constructor
    · intro h loaded' hfound' r hr hrreg hrprim hw kwargs' hnamed'
      obtain rfl : loaded = loaded' := Option.some.inj (hfound.symm.trans hfound')
      obtain rfl : kwargs = kwargs' := Option.some.inj (hnamed.symm.trans hnamed')
      obtain rfl : (s.1, old) = r :=
        ht.only _ hold r hr (hreg.trans hrreg.symm) (hprim.trans hrprim.symm)
      obtain ⟨hsame, hsameEmail, -⟩ :=
        ((hfresh _ hold hw).rewritten_iff s rfl hkept.program).1 (h hw)
      exact ⟨hsameEmail.symm.trans hemail, hsame.symm.trans hfields⟩
    · intro h hw
      obtain ⟨hsameEmail, hsame⟩ := h loaded hfound _ hold hreg hprim hw kwargs hnamed
      exact ((hfresh _ hold hw).rewritten_iff s rfl hkept.program).2
        ⟨hfields.trans hsame.symm, hemail.trans hsameEmail.symm, hkept.eligibility⟩

/-! ## One call -/

/-- The primary's write alone keeps the contacts exactly when the submission repeats what the row it
lands on says. -/
theorem contactsFresh_primaryWrite_iff {p : Participant}
    (hfresh : ContactsFresh programs transferred log t)
    (h : PrimaryWrite py program payload uuid t p t')
    (halone : ¬ StoresSecond py program payload t) :
    ContactsFresh programs transferred log t' ↔ Repeats py transferred program payload t := by
  have hp := h.stored.1
  have hrows : ∀ q ∈ t'.rows, q ∈ t.rows ∨ q ∈ [p] := by
    intro q hq
    by_cases hid : q.1 = p.1
    · exact Or.inr (List.mem_singleton.2 (t'.eq_of_id hq hp hid))
    · exact Or.inl ((h.others q hid).1 hq)
  rw [contactsFresh_write_iff hfresh hrows (by simpa using hp)]
  simp only [List.mem_singleton, forall_eq]
  rw [h.atCrm_iff hfresh]
  constructor
  · intro hown
    exact ⟨fun loaded hfound hw _ => hown loaded hfound hw, fun hstores => absurd hstores halone⟩
  · intro hrepeats loaded hfound hw
    exact hrepeats.own loaded hfound hw fun hstores => absurd hstores halone

/-- The writes of both rows keep them exactly when the submission repeats what both say. -/
theorem contactsFresh_secondWrite_iff {p s : Participant} {kwargs : SecondKwargs}
    {t₁ t₂ : TradeLeads} (ht : Shaped py t) (hfresh : ContactsFresh programs transferred log t)
    (hunused : FreshId uuid t) (hprimary : PrimaryWrite py program payload uuid t p t₁)
    (hnamed : namedSecond py payload = some kwargs)
    (hstored : SecondWrite program payload p kwargs t₁ s t₂)
    (hstores : StoresSecond py program payload t) :
    ContactsFresh programs transferred log t₂ ↔ Repeats py transferred program payload t := by
  have hp := hprimary.stored.1
  obtain ⟨hs, hothers, -⟩ := hstored.stored hp
  have hsecond := hstored.atCrm_iff ht hfresh hunused hprimary hnamed
  have hown := hprimary.atCrm_iff hfresh
  have hloaded : ∀ loaded,
      getByProgramEmail t program.id (normaliseEmail py payload.email) = some loaded →
        loaded.2.isPrimary = p.2.isPrimary := by
    intro loaded hfound
    obtain ⟨-, -, hprim⟩ := hprimary.of_found hfound
    exact hprim.symm
  cases hprim : p.2.isPrimary with
  | true =>
      have hp₂ := (hstored.keeps_primary hp hprim).2
      have hrows : ∀ q ∈ t₂.rows, q ∈ t.rows ∨ q ∈ [p, s] := by
        intro q hq
        by_cases hids : q.1 = s.1
        · exact Or.inr (by simp [t₂.eq_of_id hq hs hids])
        · by_cases hidp : q.1 = p.1
          · exact Or.inr (by simp [t₂.eq_of_id hq hp₂ hidp])
          · exact Or.inl ((hprimary.others q hidp).1 ((hothers q hids).1 hq))
      rw [contactsFresh_write_iff hfresh hrows (by simp [hp₂, hs])]
      simp only [List.forall_mem_cons, List.not_mem_nil, false_implies, implies_true, and_true]
      rw [hown, hsecond]
      constructor
      · intro h
        exact ⟨fun loaded hfound hw _ => h.1 loaded hfound hw, fun _ => h.2⟩
      · intro h
        refine ⟨fun loaded hfound hw => h.own loaded hfound hw fun _ => ?_, h.second hstores⟩
        exact (hloaded loaded hfound).trans hprim
  | false =>
      -- the second write is one of the same row
      have ht₁ := shaped_primaryWrite ht hunused hprimary
      have hsame : s.1 = p.1 := hstored.same ht₁ hp hprim
      have hrows : ∀ q ∈ t₂.rows, q ∈ t.rows ∨ q ∈ [s] := by
        intro q hq
        by_cases hid : q.1 = s.1
        · exact Or.inr (List.mem_singleton.2 (t₂.eq_of_id hq hs hid))
        · exact Or.inl ((hprimary.others q (hsame ▸ hid)).1 ((hothers q hid).1 hq))
      rw [contactsFresh_write_iff hfresh hrows (by simpa using hs)]
      simp only [List.mem_singleton, forall_eq]
      rw [hsecond]
      constructor
      · intro h
        refine ⟨fun loaded hfound hw hlands => ?_, fun _ => h⟩
        have honto := hlands hstores
        rw [hloaded loaded hfound, hprim] at honto
        cases honto
      · exact fun h => h.second hstores

/-- **Exactly when a registration keeps the contacts.** -/
theorem contactsFresh_capture_iff {slug : String} (ht : Shaped py t)
    (hfresh : ContactsFresh programs transferred log t) (hunused : FreshId uuid t) :
    ContactsFresh programs transferred log
        (captureRegistration py programs slug payload uuid t).1 ↔
      ∀ program, getProgramBySlug programs slug = some program → program.status = .active →
        ColumnsFit py payload → Repeats py transferred program payload t := by
  cases hslug : getProgramBySlug programs slug with
  | none =>
      have hunchanged : (captureRegistration py programs slug payload uuid t).1 = t := by
        simp [captureRegistration, hslug]
      rw [hunchanged]
      exact iff_of_true hfresh fun _ h => by cases h
  | some program =>
      simp only [Option.some.injEq, forall_eq']
      by_cases hactive : program.status = .active
      · rw [(captureRegistration_active hslug hactive payload uuid t).1]
        have houtcome : CaptureOutcome py program payload uuid t
            (captureInProgram py program payload uuid t) := captureInProgram_outcome ht hunused
        revert houtcome
        generalize captureInProgram py program payload uuid t = r
        intro houtcome
        cases houtcome with
        | rejected hunfit => exact iff_of_true hfresh fun _ hfits => absurd hfits hunfit
        | alone hfits hprimary hsecond hnone =>
            have halone : ¬ StoresSecond py program payload t := fun h => h.1 hnone
            rw [contactsFresh_primaryWrite_iff hfresh hprimary halone]
            exact ⟨fun h _ _ => h, fun h => h hactive hfits⟩
        | halfway hfits hprimary hsecond =>
            have halone : ¬ StoresSecond py program payload t := fun h => hsecond h.2
            rw [contactsFresh_primaryWrite_iff hfresh hprimary halone]
            exact ⟨fun h _ _ => h, fun h => h hactive hfits⟩
        | paired hfits hprimary hsecond hnamed hstored =>
            have hstores : StoresSecond py program payload t :=
              ⟨by rw [hnamed]; exact Option.some_ne_none _, hsecond⟩
            rw [contactsFresh_secondWrite_iff ht hfresh hunused hprimary hnamed hstored hstores]
            exact ⟨fun h _ _ => h, fun h => h hactive hfits⟩
      · have hunchanged : (captureRegistration py programs slug payload uuid t).1 = t := by
          simp [captureRegistration, hslug, hactive]
        rw [hunchanged]
        exact iff_of_true hfresh fun h => absurd h hactive

omit [ColumnDriver] in
/-- The document of a submission is in afterwards, and no other one. -/
theorem presentKeys_store {args : DocumentArgs} {documents documents' : TradeDocuments} {now : Int}
    {d : DocumentRow} (h : storeDocument program args now
      (getDocument documents args.registrationId args.documentKey) documents = .ok (d, documents')) :
    presentKeys documents' args.registrationId =
      insert args.documentKey (presentKeys documents args.registrationId) := by
  ext k
  rw [mem_presentKeys_store (inPlace_getDocument args documents) h, Finset.mem_insert, or_comm]
  simp [eq_comm]

omit [ColumnDriver] in
/-- **Exactly when a document keeps the contacts.** -/
theorem contactsFresh_submit_iff {args : DocumentArgs} {o : SubmitOutside} {w w' : DocumentWorld}
    (hfresh : ContactsFresh programs transferred log w.leads)
    (h : SubmitWrites configured program args o w w') :
    ContactsFresh programs transferred log w'.leads ↔
      (Accepted configured program args o w.leads →
        ∀ q ∈ w.leads.rows, q.2.registrationId = args.registrationId →
          Watched transferred q → q.2.eligibilityStatus = computeEligibilityStatus
            (insert args.documentKey (presentKeys w.documents args.registrationId)) program) := by
  cases h with
  | nothing hrejected hleads hdocuments =>
      rw [hleads]
      exact iff_of_true hfresh fun haccepted => absurd haccepted hrejected
  | stored haccepted hstore hnext hrows =>
      rw [← presentKeys_store hstore]
      -- a document changes the eligibility status and nothing else that is pushed
      have hrolled : ∀ status, ∀ p ∈ w.leads.rows, Watched transferred p →
          (AtCrm programs log (p.1, rolledUp status o.now p.2) ↔
            p.2.eligibilityStatus = status) := by
        intro status p hp hwatched
        rw [(hfresh p hp hwatched).rewritten_iff (p.1, rolledUp status o.now p.2) rfl rfl]
        exact ⟨fun hsame => hsame.2.2.symm, fun hsame => ⟨rfl, rfl, hsame.symm⟩⟩
      constructor
      · intro hall _ p hp hreg hwatched
        apply (hrolled _ p hp hwatched).1
        exact hall _ ((hrows _).2 (Or.inr ⟨p, hp, hreg, rfl⟩)) hwatched
      · intro hkeeps q hq hwatched
        rcases (hrows q).1 hq with ⟨hq, -⟩ | ⟨p, hp, hreg, rfl⟩
        · exact hfresh q hq hwatched
        · exact (hrolled _ p hp hwatched).2 (hkeeps haccepted p hp hreg hwatched)

/-- A sweep keeps the contacts. -/
theorem contactsFresh_sweep (globalSync : Bool) (o : SyncOutside) (limit : Nat)
    (hflushed : Flushed t) (hfresh : ContactsFresh programs transferred log t) :
    ContactsFresh programs transferred
      (pushPendingTrade globalSync programs o limit t log).1.2
      (pushPendingTrade globalSync programs o limit t log).1.1 := by
  intro q hq hwatched
  rcases pushed_sweep limit log hflushed q hq hwatched.2 with ⟨hold, hlast⟩ | hpushed
  · obtain ⟨program, payload, hprogram, hsent, hbuild⟩ := hfresh q hold hwatched
    exact ⟨program, payload, hprogram, hlast.trans hsent, hbuild⟩
  · exact hpushed

/-- A sweep leaves every row in its place. -/
theorem sweep_places (globalSync : Bool) (programs : List TradeProgram) (o : SyncOutside)
    (limit : Nat) (log : List Push) (hflushed : Flushed t) :
    Flushed (pushPendingTrade globalSync programs o limit t log).1.1 ∧
      (∀ q ∈ (pushPendingTrade globalSync programs o limit t log).1.1.rows,
        ∃ q₀ ∈ t.rows, q₀.1 = q.1 ∧ SamePlace q₀.2 q.2) ∧
      ∀ q₀ ∈ t.rows, ∃ q ∈ (pushPendingTrade globalSync programs o limit t log).1.1.rows,
        SamePlace q₀.2 q.2 := by
  rw [(pushPendingTrade_table limit t log []).1]
  cases globalSync with
  | false =>
      exact ⟨hflushed, fun q hq => ⟨q, hq, rfl, SamePlace.refl q.2⟩,
        fun q hq => ⟨q, hq, SamePlace.refl q.2⟩⟩
  | true =>
      obtain ⟨t', log', n, hloop, hswept⟩ := syncLoop_spec true programs o [] hflushed
        (fun q hq => (mem_listPendingCrmSync hq).1) (t.nodup_select _ limit)
      rw [syncPendingTrade, if_pos rfl, hloop]
      have hplace : ∀ q ∈ t'.rows, ∃ q₀ ∈ t.rows, q₀.1 = q.1 ∧ SamePlace q₀.2 q.2 := by
        intro q hq
        rcases hswept.rows q hq with ⟨hq, -⟩ | ⟨p, -, hp, rfl⟩
        · exact ⟨q, hq, rfl, SamePlace.refl q.2⟩
        · obtain ⟨_, _, _, _, hframe⟩ := afterVisit_frame true programs o p
          refine ⟨p, hp, rfl, ?_⟩
          rw [hframe]
          exact ⟨rfl, rfl, rfl, rfl, fun _ => rfl⟩
      refine ⟨hswept.flushed, hplace, fun q₀ hq₀ => ?_⟩
      obtain ⟨q, hq, hid⟩ := hswept.kept q₀ hq₀
      obtain ⟨q₁, hq₁, hid₁, hsame⟩ := hplace q hq
      rw [t.eq_of_id hq₀ hq₁ (hid.symm.trans hid₁.symm)]
      exact ⟨q, hq, hsame⟩

theorem desk_sweep (globalSync : Bool) (programs : List TradeProgram) (o : SyncOutside)
    (limit : Nat) (log : List Push) {w : DocumentWorld} (hw : Desk py w) :
    Desk py { w with
      leads := (pushPendingTrade globalSync programs o limit w.leads log).1.1 } := by
  obtain ⟨hflushed, hplace, hkept⟩ := sweep_places globalSync programs o limit log hw.flushed
  refine ⟨hw.shaped.of_places hplace hkept, hflushed, fun d hd => ?_⟩
  obtain ⟨q₀, hq₀, hreg⟩ := hw.owned d hd
  obtain ⟨q, hq, hsame⟩ := hkept q₀ hq₀
  exact ⟨q, hq, hsame.registration.trans hreg⟩

theorem freshId_sweep (globalSync : Bool) (programs : List TradeProgram) (o : SyncOutside)
    (limit : Nat) (log : List Push) {id : String} (hflushed : Flushed t) (hid : FreshId id t) :
    FreshId id (pushPendingTrade globalSync programs o limit t log).1.1 := by
  intro q hq hreg
  obtain ⟨q₀, hq₀, -, hsame⟩ :=
    (sweep_places globalSync programs o limit log hflushed).2.1 q hq
  exact hid q₀ hq₀ (hsame.registration.symm.trans hreg)

/-- What every call keeps. -/
theorem desk_freshStep {act : FreshAct} {w w' : PushWorld} (hw : Desk py w.desk)
    (hunused : ∀ id ∈ act.names, FreshId id w.desk.leads)
    (hstep : freshStep py programs configured act w = some w') : Desk py w'.desk := by
  cases act with
  | register slug payload uuid =>
      obtain rfl := Option.some.inj hstep
      exact desk_register programs slug payload hw (hunused uuid (List.mem_singleton_self uuid))
  | submit slug args o =>
      simp only [freshStep] at hstep
      cases hslug : getProgramBySlug programs slug with
      | none =>
          rw [hslug] at hstep
          obtain rfl := Option.some.inj hstep
          exact hw
      | some program =>
          rw [hslug] at hstep
          obtain rfl := Option.some.inj hstep
          exact desk_submit hw (submitDocument_writes configured program args o hw.flushed)
  | sync globalSync limit o =>
      obtain rfl := Option.some.inj hstep
      exact desk_sweep globalSync programs o limit w.pushes hw

/-- A call uses no other identifier than its own. -/
theorem freshId_freshStep {act : FreshAct} {w w' : PushWorld} {id : String} (hw : Desk py w.desk)
    (hstep : freshStep py programs configured act w = some w') (hid : FreshId id w.desk.leads)
    (hne : id ∉ act.names) : FreshId id w'.desk.leads := by
  cases act with
  | register slug payload uuid =>
      obtain rfl := Option.some.inj hstep
      have hcapture : captureAct py programs ⟨slug, payload, uuid⟩ w.desk.leads = some _ := rfl
      exact freshId_captureAct hcapture hid (List.ne_of_not_mem_cons hne)
  | submit slug args o =>
      simp only [freshStep] at hstep
      cases hslug : getProgramBySlug programs slug with
      | none =>
          rw [hslug] at hstep
          obtain rfl := Option.some.inj hstep
          exact hid
      | some program =>
          rw [hslug] at hstep
          obtain rfl := Option.some.inj hstep
          exact freshId_submit (submitDocument_writes configured program args o hw.flushed) hid
  | sync globalSync limit o =>
      obtain rfl := Option.some.inj hstep
      exact freshId_sweep globalSync programs o limit w.pushes hw.flushed hid

/-! ## Runs -/

/-- **Exactly which runs keep the contacts of the synced rows those last pushed for them.** Of all
runs of registrations, documents and sweeps under fixed programs. -/
theorem contacts_fresh_iff (configured : Bool) {acts : List FreshAct} {w : PushWorld}
    (hw : Desk py w.desk) (hfresh : ContactsFresh programs transferred w.pushes w.desk.leads)
    (hnodup : (acts.flatMap FreshAct.names).Nodup)
    (hunused : ∀ act ∈ acts, ∀ id ∈ act.names, FreshId id w.desk.leads) :
    Always (freshStep py programs configured)
        (fun w => ContactsFresh programs transferred w.pushes w.desk.leads) acts w ↔
      Guarded (freshStep py programs configured)
        (fun act w => KeepsContacts py programs configured transferred w act) acts w := by
  have hdesk : ∀ act w w', Desk py (PushWorld.desk w) →
      (∀ id ∈ FreshAct.names act, FreshId id w.desk.leads) →
        freshStep py programs configured act w = some w' → Desk py w'.desk :=
    fun _ _ _ => desk_freshStep
  have hnames : ∀ act w w', Desk py (PushWorld.desk w) →
      freshStep py programs configured act w = some w' →
        ∀ id, FreshId id w.desk.leads → id ∉ FreshAct.names act → FreshId id w'.desk.leads :=
    fun _ _ _ hw hstep _ => freshId_freshStep hw hstep
  -- the rule leaves two goals: every step is enabled, and one step is exact
  refine always_iff_guarded_of_unused ?_ hdesk hnames ?_ hw hfresh hnodup hunused
  · intro act w
    cases act with
    | register slug payload uuid => rfl
    | submit slug args o =>
        simp only [freshStep]
        cases getProgramBySlug programs slug <;> rfl
    | sync globalSync limit o => rfl
  · intro act w w' hw hfresh hunused hstep
    cases act with
    | register slug payload uuid =>
        obtain rfl := Option.some.inj hstep
        exact contactsFresh_capture_iff hw.shaped hfresh
          (hunused uuid (List.mem_singleton_self uuid))
    | submit slug args o =>
        simp only [freshStep] at hstep
        simp only [KeepsContacts]
        cases hslug : getProgramBySlug programs slug with
        | none =>
            rw [hslug] at hstep
            obtain rfl := Option.some.inj hstep
            exact iff_of_true hfresh fun _ h => by cases h
        | some program =>
            rw [hslug] at hstep
            obtain rfl := Option.some.inj hstep
            simp only [Option.some.injEq, forall_eq']
            exact contactsFresh_submit_iff hfresh
              (submitDocument_writes configured program args o hw.flushed)
    | sync globalSync limit o =>
        obtain rfl := Option.some.inj hstep
        exact iff_of_true (contactsFresh_sweep globalSync o limit hw.flushed hfresh) trivial

end Driver

attribute [local instance] plainDriver

/-- The CRM takes every contact. -/
def crmTakesAll : SyncOutside := ⟨fun _ => .contact (some "9"), 0⟩

def emptyPushWorld : PushWorld := ⟨emptyDesk, []⟩

theorem contactsFresh_empty (programs : List TradeProgram) (transferred : Finset Nat) :
    ContactsFresh programs transferred emptyPushWorld.pushes emptyPushWorld.desk.leads := by
  intro q hq
  simp [emptyPushWorld, emptyDesk, Table.empty] at hq

/-- Ada's registration is pushed, and she sends it again. -/
theorem repeated_registration_fresh :
    Always (freshStep asciiLower [openProgram] true)
      (fun w => ContactsFresh [openProgram] ∅ w.pushes w.desk.leads)
      [.register "launchpad" adaAlone "r-ada", .sync true 200 crmTakesAll,
        .register "launchpad" adaAlone "r-again"] emptyPushWorld := by
  apply (contacts_fresh_iff true (desk_empty asciiLower)
    (contactsFresh_empty [openProgram] ∅) (by decide) fun _ _ id _ => fresh_empty id).2
  have halone : ∀ t, ¬ StoresSecond asciiLower openProgram adaAlone t := fun t h => h.1 rfl
  refine ⟨fun program hslug _ _ => ?_, fun w₁ h₁ => ⟨trivial, fun w₂ h₂ =>
    ⟨fun program hslug _ _ => ?_, fun _ _ => trivial⟩⟩⟩
  · obtain rfl := Option.some.inj hslug
    refine ⟨fun loaded hfound => ?_, fun h => absurd h (halone _)⟩
    cases hfound
  · obtain rfl := Option.some.inj hslug
    obtain rfl := Option.some.inj h₁
    obtain rfl := Option.some.inj h₂
    refine ⟨fun loaded hfound _ _ => ?_, fun h => absurd h (halone _)⟩
    obtain rfl := Option.some.inj hfound
    rfl

/-- She adds her company after the push, and the CRM is never told. -/
theorem company_never_pushed :
    ¬ Always (freshStep asciiLower [openProgram] true)
      (fun w => ContactsFresh [openProgram] ∅ w.pushes w.desk.leads)
      [.register "launchpad" adaAlone "r-ada", .sync true 200 crmTakesAll,
        .register "launchpad" adaAtXyz "r-again", .sync true 200 crmTakesAll] emptyPushWorld := by
  intro h
  obtain ⟨w, hrun, p, hrows, hsynced, hcompany, sent, hlast, hsent⟩ : ∃ w,
      exec (freshStep asciiLower [openProgram] true)
        [.register "launchpad" adaAlone "r-ada", .sync true 200 crmTakesAll,
          .register "launchpad" adaAtXyz "r-again", .sync true 200 crmTakesAll] emptyPushWorld =
            some w ∧
      ∃ p, w.desk.leads.rows = [p] ∧ p.2.crmSyncStatus = .synced ∧
        p.2.company = some "Xyz Ltd" ∧ ∃ sent, lastPush w.pushes p.1 = some sent ∧
          sent.cfCompany = none :=
    ⟨_, rfl, _, rfl, rfl, rfl, _, rfl, rfl⟩
  obtain ⟨program, payload, -, hpushed, hbuild⟩ :=
    h.last hrun p (by rw [hrows]; exact List.mem_singleton_self p) ⟨Finset.notMem_empty _, hsynced⟩
  obtain rfl : sent = payload := Option.some.inj (hlast.symm.trans hpushed)
  -- the contact of the row has the company, the one that was pushed has none
  rw [buildContactPayload_eq] at hbuild
  cases htopics : p.2.contactFields.cfTopicsOfInterest with
  | error e =>
      rw [htopics] at hbuild
      cases hbuild
  | ok topics =>
      rw [htopics] at hbuild
      have hsame := congrArg ContactPayload.cfCompany (Except.ok.inj hbuild)
      rw [hsent] at hsame
      have hnone : p.2.company = none := hsame
      rw [hcompany] at hnone
      cases hnone

end SalesTrades.Trade
