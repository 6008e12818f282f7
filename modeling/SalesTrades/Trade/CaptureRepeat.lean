import Mathlib.Data.List.Find
import SalesTrades.Trade.CaptureIdentity

/-!
# The same submission twice

A second write of a submission leaves the rows as the first one left them (`storePrimary_again`,
`storeSecond_again`), from whichever of the two states the writer had loaded its row, and the lookups
after a write find the row it stored (`findSecond_storeSecond`). The writes succeed when the values
fit their columns and no other row has the email (`exists_storePrimary`, `exists_storeSecond`).
-/

set_option autoImplicit false

namespace SalesTrades.Trade

open SalesTrades.Library

variable {py : LowerCase} {program : TradeProgram} {payload : Registration}

/-! ## Writing a submission twice -/

section Writes

variable [ColumnDriver]

theorem applyPayload_flush {l r : TradeLead}
    (h : (applyPayload l program payload).flush = some r) :
    applyPayload r program payload = applyPayload l program payload := by
  obtain ⟨phone, jobTitle, -, -, -, rfl⟩ := flush_eq_some h
  rfl

theorem applySecond_flush {l r primary : TradeLead} {kwargs : SecondKwargs}
    (h : (applySecond l primary payload kwargs).flush = some r) :
    applySecond r primary payload kwargs = applySecond l primary payload kwargs := by
  obtain ⟨phone, jobTitle, -, -, -, rfl⟩ := flush_eq_some h
  rfl

/-- An update whose values the row already has leaves the table as it is, whatever was loaded. -/
theorem updateLead_settled {t : TradeLeads} {loaded p : Participant} {lead : TradeLead}
    (hflush : lead.flush = some p.2) (hmem : p ∈ t.rows) (hid : loaded.1 = p.1) :
    updateLead t loaded lead = .ok (p, t) := by
  have hget : t.get? p.1 = some (p.1, p.2) := Table.get?_eq_some_iff.2 hmem
  simp only [updateLead, hflush, hid, hget, TradeLead.write_current_new, Table.update_self hmem]

/-- What an update by a call that runs alone does to the row it loaded. -/
theorem updateLead_alone {t t' : TradeLeads} {loaded p : Participant} {lead : TradeLead}
    (hmem : loaded ∈ t.rows) (h : updateLead t loaded lead = .ok (p, t')) :
    loaded.1 = p.1 ∧ lead.flush = some p.2 ∧ t.update p.1 p.2 = some t' := by
  obtain ⟨new, current, hflush, hcurrent, rfl, hupd⟩ := updateLead_ok h
  -- no one else has written the row, so it is still as it was loaded
  have hcur : current = loaded.2 := congrArg Prod.snd (t.eq_of_id hcurrent hmem rfl)
  subst hcur
  simp only [TradeLead.write_current_loaded] at hupd ⊢
  exact ⟨trivial, hflush, hupd⟩

/-- The stored primary is what a new write of the payload over it, or over the row the lookup had
found, would store. -/
theorem storePrimary_flush {email uuid : String} {t t' : TradeLeads} {p : Participant}
    (h : storePrimary program payload email uuid (getByProgramEmail t program.id email) t =
      .ok (p, t')) :
    (applyPayload p.2 program payload).flush = some p.2 ∧
      ∀ loaded, getByProgramEmail t program.id email = some loaded →
        loaded.1 = p.1 ∧ (applyPayload loaded.2 program payload).flush = some p.2 := by
  replace h := (storePrimary_eq_ok.1 h).2
  cases hfound : getByProgramEmail t program.id email with
  | none =>
      rw [hfound] at h
      have hflush := (createLead_ok h).1
      rw [applyPayload_flush hflush]
      exact ⟨hflush, fun loaded hloaded => by cases hloaded⟩
  | some loaded =>
      rw [hfound] at h
      obtain ⟨hid, hflush, -⟩ := updateLead_alone (getByProgramEmail_eq_some hfound).1 h
      rw [applyPayload_flush hflush]
      refine ⟨hflush, fun loaded' hloaded' => ?_⟩
      cases hloaded'
      exact ⟨hid, hflush⟩

/-- The primary's write, repeated on a table that has the stored row. -/
theorem storePrimary_again {email uuid uuid' : String} {t t' g : TradeLeads} {p loaded : Participant}
    (h : storePrimary program payload email uuid (getByProgramEmail t program.id email) t =
      .ok (p, t'))
    (hmem : p ∈ g.rows)
    (hloaded : getByProgramEmail t program.id email = some loaded ∨ loaded = p) :
    storePrimary program payload email uuid' (some loaded) g = .ok (p, g) := by
  obtain ⟨hflush, hfound⟩ := storePrimary_flush h
  refine storePrimary_eq_ok.2 ⟨(storePrimary_eq_ok.1 h).1, ?_⟩
  rcases hloaded with hloaded | rfl
  · obtain ⟨hid, hflush'⟩ := hfound loaded hloaded
    exact updateLead_settled hflush' hmem hid
  · exact updateLead_settled hflush hmem rfl

theorem storeSecond_flush {t t' : TradeLeads} {primary s : Participant} {kwargs : SecondKwargs}
    (hprimary : primary ∈ t.rows)
    (h : storeSecond program payload primary kwargs (findSecond t primary) t = .ok (s, t')) :
    (applySecond s.2 primary.2 payload kwargs).flush = some s.2 ∧
      ∀ loaded, findSecond t primary = some loaded →
        loaded.1 = s.1 ∧ (applySecond loaded.2 primary.2 payload kwargs).flush = some s.2 := by
  cases hfound : findSecond t primary with
  | none =>
      rw [hfound] at h
      have hflush := (createLead_ok h).1
      rw [applySecond_flush hflush]
      exact ⟨hflush, fun loaded hloaded => by cases hloaded⟩
  | some loaded =>
      rw [hfound] at h
      obtain ⟨hid, hflush, -⟩ := updateLead_alone (findSecond_eq_some hprimary hfound).1 h
      rw [applySecond_flush hflush]
      refine ⟨hflush, fun loaded' hloaded' => ?_⟩
      cases hloaded'
      exact ⟨hid, hflush⟩

/-- The second participant's write, repeated on a table that has the stored row. -/
theorem storeSecond_again {t t' g : TradeLeads} {primary s loaded : Participant}
    {kwargs : SecondKwargs} (hprimary : primary ∈ t.rows)
    (h : storeSecond program payload primary kwargs (findSecond t primary) t = .ok (s, t'))
    (hmem : s ∈ g.rows) (hloaded : findSecond t primary = some loaded ∨ loaded = s) :
    storeSecond program payload primary kwargs (some loaded) g = .ok (s, g) := by
  obtain ⟨hflush, hfound⟩ := storeSecond_flush hprimary h
  rcases hloaded with hloaded | rfl
  · obtain ⟨hid, hflush'⟩ := hfound loaded hloaded
    exact updateLead_settled hflush' hmem hid
  · exact updateLead_settled hflush hmem rfl

/-! ## The lookups after the writes -/

end Writes

theorem findSecond_eq_none {t : TradeLeads} {primary : Participant}
    (h : findSecond t primary = none) :
    ∀ q ∈ t.rows, q.2.registrationId = primary.2.registrationId → q.2.isPrimary = true := by
  intro q hq hreg
  rw [findSecond, Option.map_eq_none_iff, List.find?_eq_none] at h
  have := h q (by
    rw [listByRegistration, List.mem_insertionSort, Table.mem_select, beq_iff_eq]
    exact ⟨hq, hreg⟩)
  simpa using this

/-- The only second participant of the registration is the one found. -/
theorem findSecond_eq_of_unique {t : TradeLeads} {primary s : Participant} (hs : s ∈ t.rows)
    (hreg : s.2.registrationId = primary.2.registrationId) (hprim : s.2.isPrimary = false)
    (hne : s.1 ≠ primary.1)
    (honly : ∀ q ∈ t.rows, q.2.registrationId = primary.2.registrationId →
      q.2.isPrimary = false → q = s) : findSecond t primary = some s := by
  have hmem : ∀ q, q ∈ listByRegistration t primary.2.registrationId ↔
      q ∈ t.rows ∧ q.2.registrationId = primary.2.registrationId := by
    intro q
    rw [listByRegistration, List.mem_insertionSort, Table.mem_select, beq_iff_eq]
  cases hfind : (listByRegistration t primary.2.registrationId).find? fun s => !s.2.isPrimary with
  | none =>
      have := List.find?_eq_none.1 hfind s ((hmem s).2 ⟨hs, hreg⟩)
      simp [hprim] at this
  | some q =>
      have hq := (hmem q).1 (List.mem_of_find?_eq_some hfind)
      have hqp : q.2.isPrimary = false := by simpa using List.find?_some hfind
      have hqs := honly q hq.1 hq.2 hqp
      subst hqs
      rw [findSecond, hfind, Option.map_some, if_neg hne]

/-- An update of a row that keeps its registration, index and role keeps the order of the
registration. -/
theorem findSecond_update {t t' : TradeLeads} {primary old : Participant} {new : TradeLead}
    (hupd : t.update old.1 new = some t') (hold : old ∈ t.rows)
    (hreg : new.registrationId = old.2.registrationId)
    (hindex : new.participantIndex = old.2.participantIndex)
    (hprim : new.isPrimary = old.2.isPrimary) (hne : old.1 ≠ primary.1)
    (hfound : findSecond t primary = some old) : findSecond t' primary = some (old.1, new) := by
  -- `f` is the update seen on rows; it keeps the registration, the order and the roles
  let f : Participant → Participant := fun q => if q.1 = old.1 then (old.1, new) else q
  have hf : ∀ q ∈ t.rows, (f q).2.registrationId = q.2.registrationId ∧
      (f q).2.participantIndex = q.2.participantIndex ∧ (f q).2.isPrimary = q.2.isPrimary := by
    intro q hq
    by_cases hid : q.1 = old.1
    · rw [t.eq_of_id hq hold hid]
      simp [f, hreg, hindex, hprim]
    · simp [f, hid]
  have hmem : ∀ q ∈ t.select fun l => l.registrationId == primary.2.registrationId, q ∈ t.rows :=
    fun q hq => (Table.mem_select.1 hq).1
  have hlist : listByRegistration t' primary.2.registrationId =
      (listByRegistration t primary.2.registrationId).map f := by
    have hselect : (t'.select fun l => l.registrationId == primary.2.registrationId) =
        (t.select fun l => l.registrationId == primary.2.registrationId).map f := by
      simp only [Table.select, (Table.update_eq_some hupd).1, List.filter_map]
      congr 1
      refine List.filter_congr fun q hq => ?_
      exact congrArg (· == primary.2.registrationId) (hf q hq).1
    rw [listByRegistration, hselect]
    refine (List.map_insertionSort _ _ _ _ fun a ha b hb => ?_).symm
    rw [(hf a (hmem a ha)).2.1, (hf b (hmem b hb)).2.1]
  have hfind : ((listByRegistration t primary.2.registrationId).map f).find?
        (fun s => !s.2.isPrimary) =
      ((listByRegistration t primary.2.registrationId).find? fun s => !s.2.isPrimary).map f := by
    rw [List.find?_map]
    congr 1
    refine List.find?_congr fun q hq => ?_
    rw [listByRegistration, List.mem_insertionSort] at hq
    simp only [Function.comp_apply, (hf q (hmem q hq)).2.2]
  rw [findSecond, Option.map_eq_some_iff] at hfound
  obtain ⟨q, hq, hqold⟩ := hfound
  have hqid : q.1 ≠ primary.1 := by
    intro hid
    rw [if_pos hid] at hqold
    exact hne (hqold ▸ rfl)
  rw [if_neg hqid] at hqold
  subst hqold
  rw [findSecond, hlist, hfind, hq]
  simp [f, hne]

variable [ColumnDriver]

/-- After the second participant's write, the sibling lookup finds the stored row. -/
theorem findSecond_storeSecond {t t' : TradeLeads} {primary s : Participant}
    {kwargs : SecondKwargs} (hprimary : primary ∈ t.rows)
    (hne : ∀ q, findSecond t primary = some q → q.1 ≠ primary.1)
    (h : storeSecond program payload primary kwargs (findSecond t primary) t = .ok (s, t')) :
    s.1 ≠ primary.1 ∧ findSecond t' primary = some s := by
  obtain ⟨hs, hsame, hsprim, hsreg, -⟩ := storeSecond_ok hprimary h
  cases hfound : findSecond t primary with
  | none =>
      rw [hfound] at h
      -- there was no second participant, so the new row is the only one
      have hins := (createLead_ok h).2
      have hsid : s.1 ≠ primary.1 := by
        rw [(Table.insert_eq_some hins).1]
        exact (Nat.ne_of_lt (t.id_lt primary hprimary)).symm
      refine ⟨hsid, findSecond_eq_of_unique hs hsreg hsprim hsid fun q hq hqreg hqprim => ?_⟩
      rcases (Table.mem_of_insert hins).1 hq with hq | rfl
      · have := findSecond_eq_none hfound q hq hqreg
        rw [hqprim] at this
        cases this
      · rfl
  | some old =>
      rw [hfound] at h
      -- the row found before is written in its place
      obtain ⟨hold, -, -⟩ := findSecond_eq_some hprimary hfound
      obtain ⟨hid, hflush, hupd⟩ := updateLead_alone hold h
      obtain ⟨phone, jobTitle, -, -, -, hnew⟩ := flush_eq_some hflush
      have hkeep : s.2.registrationId = old.2.registrationId ∧
          s.2.participantIndex = old.2.participantIndex ∧ s.2.isPrimary = old.2.isPrimary := by
        rw [hnew]
        exact ⟨rfl, rfl, rfl⟩
      rw [← hid] at hupd
      have hsecond := findSecond_update hupd hold hkeep.1 hkeep.2.1 hkeep.2.2 (hne old hfound)
        hfound
      refine ⟨hid ▸ hne old hfound, hsecond.trans ?_⟩
      rw [hid]

/-! ## When a write succeeds -/

/-- The second participant a submission names. -/
def namedSecond (py : LowerCase) (payload : Registration) : Option SecondKwargs :=
  match secondParticipantFromResponses py payload.responses (normaliseEmail py payload.email) with
  | .ok (kwargs, _) => kwargs
  | .error _ => none

/-- The database stores the texts of the submission and its document. -/
def Registration.hasTexts (py : LowerCase) (payload : Registration) : Bool :=
  isText payload.firstName && isText payload.lastName && isText (normaliseEmail py payload.email) &&
    payload.phone.all isText && payload.company.all isText && payload.jobTitle.all isText &&
    (Json.obj payload.responses).isStorable && payload.isStorable

/-- Every value that the submission brings is one that its column takes. -/
structure ColumnsFit (py : LowerCase) (payload : Registration) : Prop where
  texts : payload.hasTexts py = true
  shared : ∀ k : SharedKey,
    k.columnType.takes (sharedFieldsFromResponses payload.responses k) = true

instance (py : LowerCase) (payload : Registration) : Decidable (ColumnsFit py payload) :=
  decidable_of_iff (payload.hasTexts py = true ∧ ∀ k ∈ sharedResponseKeys,
      k.columnType.takes (sharedFieldsFromResponses payload.responses k) = true)
    ⟨fun h => ⟨h.1, fun k => h.2 k (mem_sharedResponseKeys k)⟩,
      fun h => ⟨h.texts, fun k _ => h.shared k⟩⟩

/-- The columns take the values of the second participant. -/
def SecondFits (kwargs : SecondKwargs) : Prop :=
  (isText kwargs.firstName && isText kwargs.lastName && isText kwargs.email &&
    kwargs.responses.isStorable && ColumnType.text.takes kwargs.phone &&
    ColumnType.text.takes kwargs.jobTitle) = true

instance (kwargs : SecondKwargs) : Decidable (SecondFits kwargs) :=
  inferInstanceAs (Decidable (_ = true))

/-- The values of the submission have the types that the code and the columns expect. -/
structure WellFormed (py : LowerCase) (payload : Registration) : Prop where
  columns : ColumnsFit py payload
  second : ∃ warning, secondParticipantFromResponses py payload.responses
    (normaliseEmail py payload.email) = .ok (namedSecond py payload, warning)
  secondColumns : ∀ kwargs, namedSecond py payload = some kwargs → SecondFits kwargs

/-- The statement goes through exactly when every column takes its value. -/
theorem flush_isSome_iff {l : TradeLead} : (∃ row, l.flush = some row) ↔
    l.hasTexts = true ∧ ColumnType.text.takes l.phone = true ∧
      ColumnType.text.takes l.jobTitle = true ∧
      ∀ k : SharedKey, k.columnType.takes (l.shared k) = true := by
  simp only [← ColumnType.bind_isSome]
  constructor
  · rintro ⟨row, hrow⟩
    obtain ⟨phone, jobTitle, hphone, hjob, hshared, -⟩ := flush_eq_some hrow
    exact ⟨hasTexts_of_flush hrow, by rw [hphone]; rfl, by rw [hjob]; rfl, hshared⟩
  · rintro ⟨htexts, hphone, hjob, hshared⟩
    obtain ⟨phone, hphone⟩ := Option.isSome_iff_exists.1 hphone
    obtain ⟨jobTitle, hjob⟩ := Option.isSome_iff_exists.1 hjob
    have hall : (sharedResponseKeys.all fun k => (k.columnType.bind (l.shared k)).isSome) = true :=
      List.all_eq_true.2 fun k _ => hshared k
    rw [← Option.isSome_iff_exists, TradeLead.flush, hphone, hjob]
    simp only [htexts, hall, Bool.and_self, if_true, Option.isSome_some]

omit [ColumnDriver] in
theorem takes_ofOption (o : Option String) :
    ColumnType.text.takes (Json.ofOption o) = o.all isText := by
  cases o <;> rfl

/-- The primary's row is taken when the submission's values are. -/
theorem applyPayload_flush_iff {l : TradeLead} (program : TradeProgram) (payload : Registration)
    (hemail : l.email = normaliseEmail py payload.email) :
    (payload.isStorable = true ∧ ∃ row, (applyPayload l program payload).flush = some row) ↔
      ColumnsFit py payload := by
  have htexts : (applyPayload l program payload).hasTexts =
      (isText payload.firstName && isText payload.lastName &&
        isText (normaliseEmail py payload.email) && payload.company.all isText &&
        (Json.obj payload.responses).isStorable) := by
    rw [← hemail]
    rfl
  rw [flush_isSome_iff, htexts]
  simp only [applyPayload, takes_ofOption, Bool.and_eq_true]
  constructor
  · rintro ⟨hsource, ⟨⟨⟨⟨hfirst, hlast⟩, hmail⟩, hcompany⟩, hdocument⟩, hphone, hjob, hshared⟩
    refine ⟨?_, hshared⟩
    simp only [Registration.hasTexts, Bool.and_eq_true]
    exact ⟨⟨⟨⟨⟨⟨⟨hfirst, hlast⟩, hmail⟩, hphone⟩, hcompany⟩, hjob⟩, hdocument⟩, hsource⟩
  · rintro ⟨htexts, hshared⟩
    simp only [Registration.hasTexts, Bool.and_eq_true] at htexts
    obtain ⟨⟨⟨⟨⟨⟨⟨hfirst, hlast⟩, hmail⟩, hphone⟩, hcompany⟩, hjob⟩, hdocument⟩, hsource⟩ := htexts
    exact ⟨hsource, ⟨⟨⟨⟨hfirst, hlast⟩, hmail⟩, hcompany⟩, hdocument⟩, hphone, hjob, hshared⟩

/-- The second participant's row is taken when its own values are, after the submission's. -/
theorem applySecond_flush_iff (l primary : TradeLead) {payload : Registration}
    (kwargs : SecondKwargs) (hfits : ColumnsFit py payload) :
    (∃ row, (applySecond l primary payload kwargs).flush = some row) ↔ SecondFits kwargs := by
  have hcompany : payload.company.all isText = true := by
    have htexts := hfits.texts
    simp only [Registration.hasTexts, Bool.and_eq_true] at htexts
    exact htexts.1.1.1.2
  rw [flush_isSome_iff]
  simp only [TradeLead.hasTexts, SecondFits, applySecond, hcompany, Bool.and_true, Bool.and_eq_true]
  constructor
  · rintro ⟨⟨⟨⟨hfirst, hlast⟩, hmail⟩, hdocument⟩, hphone, hjob, -⟩
    exact ⟨⟨⟨⟨⟨hfirst, hlast⟩, hmail⟩, hdocument⟩, hphone⟩, hjob⟩
  · rintro ⟨⟨⟨⟨⟨hfirst, hlast⟩, hmail⟩, hdocument⟩, hphone⟩, hjob⟩
    exact ⟨⟨⟨⟨hfirst, hlast⟩, hmail⟩, hdocument⟩, hphone, hjob, hfits.shared⟩

/-- A new row is stored when no row has its key. -/
theorem exists_createLead {t : TradeLeads} {lead row : TradeLead} (hflush : lead.flush = some row)
    (hfree : ∀ k, row.emailKey = some k → getByProgramEmail t k.1 k.2 = none) :
    ∃ r, createLead t lead = .ok r := by
  cases hins : t.insert row with
  | none =>
      obtain ⟨q, hq, k, hk, hqk⟩ := Table.insert_eq_none_iff.1 hins
      obtain ⟨hne, -, hemail⟩ := TradeLead.emailKey_eq_some.1 hk
      obtain ⟨-, hqprog, hqemail⟩ := TradeLead.emailKey_eq_some.1 hqk
      exact absurd ⟨hqprog, hqemail⟩
        (getByProgramEmail_eq_none (hemail ▸ hne) (hfree k hk) q hq)
  | some r =>
      refine ⟨((r.1, row), r.2), ?_⟩
      rw [createLead, hflush]
      simp only [hins]

/-- A loaded row is stored when no other row has its new key. -/
theorem exists_updateLead {t : TradeLeads} {loaded : Participant} {lead row : TradeLead}
    (hmem : loaded ∈ t.rows) (hflush : lead.flush = some row)
    (hfree : ∀ k, row.emailKey = some k → ∀ q, getByProgramEmail t k.1 k.2 = some q →
      q.1 = loaded.1) : ∃ r, updateLead t loaded lead = .ok r := by
  have hget : t.get? loaded.1 = some (loaded.1, loaded.2) := Table.get?_eq_some_iff.2 hmem
  simp only [updateLead, hflush, hget, TradeLead.write_current_loaded]
  cases hupd : t.update loaded.1 row with
  | none =>
      obtain ⟨q, hq, hid, k, hk, hqk⟩ := Table.update_eq_none_iff.1 hupd
      obtain ⟨hne, -, hemail⟩ := TradeLead.emailKey_eq_some.1 hk
      obtain ⟨-, hqprog, hqemail⟩ := TradeLead.emailKey_eq_some.1 hqk
      have hfound := getByProgramEmail_of_mem (hemail ▸ hne) hq hqemail
      rw [hqprog] at hfound
      -- another row with the key would be the row the lookup finds
      exact absurd (hfree k hk q hfound) hid
  | some t' => exact ⟨_, rfl⟩

theorem exists_storePrimary (program : TradeProgram) (hfits : ColumnsFit py payload) (uuid : String)
    (t : TradeLeads) :
    ∃ p t', storePrimary program payload (normaliseEmail py payload.email) uuid
      (getByProgramEmail t program.id (normaliseEmail py payload.email)) t = .ok (p, t') := by
  have hkey : ∀ l row, (applyPayload l program payload).flush = some row →
      l.email = normaliseEmail py payload.email → ∀ k, row.emailKey = some k →
      k = (program.id, normaliseEmail py payload.email) := by
    intro l row hrow hemail k hk
    obtain ⟨phone, jobTitle, -, -, -, rfl⟩ := flush_eq_some hrow
    obtain ⟨-, hprog, hmail⟩ := TradeLead.emailKey_eq_some.1 hk
    exact Prod.ext hprog.symm (hmail.symm.trans hemail)
  cases hfound : getByProgramEmail t program.id (normaliseEmail py payload.email) with
  | none =>
      have hnew : (newPrimary program uuid (normaliseEmail py payload.email)).email =
          normaliseEmail py payload.email := rfl
      obtain ⟨hsource, row, hrow⟩ := (applyPayload_flush_iff program payload hnew).2 hfits
      obtain ⟨r, hr⟩ := exists_createLead (t := t) hrow fun k hk => by
        rw [hkey _ row hrow hnew k hk]
        exact hfound
      exact ⟨r.1, r.2, storePrimary_eq_ok.2 ⟨hsource, hr⟩⟩
  | some loaded =>
      obtain ⟨hmem, -, hemail⟩ := getByProgramEmail_eq_some hfound
      obtain ⟨hsource, row, hrow⟩ := (applyPayload_flush_iff program payload hemail).2 hfits
      obtain ⟨r, hr⟩ := exists_updateLead hmem hrow fun k hk q hq => by
        rw [hkey _ row hrow hemail k hk, hfound] at hq
        cases hq
        rfl
      exact ⟨r.1, r.2, storePrimary_eq_ok.2 ⟨hsource, hr⟩⟩

/-- The second participant's email is free for the row that is to hold it: for a new row no row of
the program has it, for a loaded row no other row has. -/
def SecondEmailFree (program : TradeProgram) (kwargs : SecondKwargs) (found : Option Participant)
    (t : TradeLeads) : Prop :=
  match found with
  | none => getByProgramEmail t program.id kwargs.email = none
  | some s => ∀ q, getByProgramEmail t s.2.tradeProgramId kwargs.email = some q → q.1 = s.1

instance (program : TradeProgram) (kwargs : SecondKwargs) (t : TradeLeads) :
    ∀ found, Decidable (SecondEmailFree program kwargs found t)
  | none => inferInstanceAs (Decidable (getByProgramEmail t program.id kwargs.email = none))
  | some s => inferInstanceAs
      (Decidable (∀ q ∈ getByProgramEmail t s.2.tradeProgramId kwargs.email, q.1 = s.1))

theorem exists_storeSecond (hwf : WellFormed py payload) {kwargs : SecondKwargs} {t : TradeLeads}
    {primary : Participant} (hkw : namedSecond py payload = some kwargs) (hmem : primary ∈ t.rows)
    (hfree : SecondEmailFree program kwargs (findSecond t primary) t) :
    ∃ s t', storeSecond program payload primary kwargs (findSecond t primary) t = .ok (s, t') := by
  have hflush : ∀ l, ∃ row, (applySecond l primary.2 payload kwargs).flush = some row :=
    fun l => (applySecond_flush_iff l primary.2 kwargs hwf.columns).2 (hwf.secondColumns kwargs hkw)
  have hkey : ∀ l row, (applySecond l primary.2 payload kwargs).flush = some row →
      ∀ k, row.emailKey = some k → k = (l.tradeProgramId, kwargs.email) := by
    intro l row hrow k hk
    obtain ⟨phone, jobTitle, -, -, -, rfl⟩ := flush_eq_some hrow
    obtain ⟨-, hprog, hmail⟩ := TradeLead.emailKey_eq_some.1 hk
    exact Prod.ext hprog.symm hmail.symm
  cases hfound : findSecond t primary with
  | none =>
      rw [hfound] at hfree
      obtain ⟨row, hrow⟩ := hflush (newSecond program primary.2 payload)
      obtain ⟨r, hr⟩ := exists_createLead (t := t) hrow fun k hk => by
        rw [hkey _ row hrow k hk]
        exact hfree
      exact ⟨r.1, r.2, hr⟩
  | some loaded =>
      rw [hfound] at hfree
      obtain ⟨row, hrow⟩ := hflush loaded.2
      obtain ⟨r, hr⟩ := exists_updateLead (findSecond_eq_some hmem hfound).1 hrow fun k hk q hq => by
        rw [hkey _ row hrow k hk] at hq
        exact hfree q hq
      exact ⟨r.1, r.2, hr⟩

end SalesTrades.Trade
