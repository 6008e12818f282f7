import SalesTrades.Trade.CrmGates

/-!
# Who reaches the CRM in a program that requires approval

The gate of `sync_trade_lead` reads the review status at the moment of the push; a re-submission
writes a new identity into a row without touching that status. So every push of a program that
requires approval sends an identity that an admin has approved, as long as no registration meets an
approved row that is still waiting for its push with another identity (`pushes_vouched`); otherwise
an identity nobody approved is pushed (`unapproved_identity_pushed`).
-/

set_option autoImplicit false

namespace SalesTrades.Trade

open SalesTrades.Library SalesTrades.Library.Run

/-- An admin has approved the row after the last change of its identity. -/
def Vouched (log : List Happening) (id : Nat) : Prop :=
  ∃ recent earlier, log = recent ++ .approved id :: earlier ∧ .identityChanged id ∉ recent

/-- Every push of a program that requires approval came after such an approval. -/
def PushesVouched (log : List Happening) : Prop :=
  ∀ id earlier, .pushed id true :: earlier <:+ log → Vouched earlier id

theorem vouched_cons {h : Happening} {log : List Happening} {id : Nat}
    (hne : h ≠ .identityChanged id) (hlog : Vouched log id) : Vouched (h :: log) id := by
  obtain ⟨recent, earlier, rfl, hnot⟩ := hlog
  exact ⟨h :: recent, earlier, rfl, fun hmem => (List.mem_cons.1 hmem).elim (hne ·.symm) hnot⟩

/-- A change of identity ends every approval before it. -/
theorem not_vouched_changed {log : List Happening} {id : Nat} :
    ¬ Vouched (.identityChanged id :: log) id := by
  rintro ⟨recent, earlier, hlog, hnot⟩
  cases recent with
  | nil => cases hlog
  | cons h recent => exact hnot ((List.cons.inj hlog).1 ▸ List.mem_cons_self)

theorem vouched_append {new log : List Happening} {id : Nat}
    (hne : .identityChanged id ∉ new) (hlog : Vouched log id) : Vouched (new ++ log) id := by
  induction new with
  | nil => exact hlog
  | cons h new ih =>
      obtain ⟨hh, hnew⟩ := not_or.1 (List.mem_cons.not.1 hne)
      exact vouched_cons (Ne.symm hh) (ih hnew)

/-- Appending to the log keeps the property when what is appended changes no identity after a push
and pushes vouched rows only. -/
theorem pushesVouched_append {new log : List Happening} (hlog : PushesVouched log)
    (hne : ∀ id gated, .pushed id gated ∈ new → ∀ i, .identityChanged i ∉ new)
    (hnew : ∀ id, .pushed id true ∈ new → Vouched log id) : PushesVouched (new ++ log) := by
  induction new with
  | nil => exact hlog
  | cons h new ih =>
      intro id earlier hsuffix
      rcases List.suffix_cons_iff.1 hsuffix with heq | hsuffix
      · simp only [List.cons.injEq] at heq
        obtain ⟨rfl, rfl⟩ := heq
        refine vouched_append (fun hmem => ?_) (hnew id List.mem_cons_self)
        exact hne id true List.mem_cons_self id (List.mem_cons_of_mem _ hmem)
      · refine ih (fun i gated hi j hj => ?_) (fun i hi => hnew i (List.mem_cons_of_mem _ hi)) id
          earlier hsuffix
        exact hne i gated (List.mem_cons_of_mem _ hi) j (List.mem_cons_of_mem _ hj)

/-! ## What a registration does to the identity of a row -/

section Driver

variable [ColumnDriver] {py : LowerCase} {program : TradeProgram} {payload : Registration}

/-- The identity the submission gives its own row. -/
def submittedIdentity (py : LowerCase) (payload : Registration) : PushedIdentity where
  firstName := payload.firstName
  lastName := payload.lastName
  email := normaliseEmail py payload.email
  phone := Json.ofOption payload.phone

/-- The identity the submission gives the second participant's row. -/
def SecondKwargs.identity (kwargs : SecondKwargs) : PushedIdentity where
  firstName := kwargs.firstName
  lastName := kwargs.lastName
  email := kwargs.email
  phone := kwargs.phone

theorem storePrimary_identity {uuid : String} {t t' : TradeLeads} {p : Participant}
    (h : storePrimary program payload (normaliseEmail py payload.email) uuid
      (getByProgramEmail t program.id (normaliseEmail py payload.email)) t = .ok (p, t')) :
    p.2.pushedIdentity = submittedIdentity py payload := by
  obtain ⟨-, -, -, hemail, hfirst, hlast, -⟩ := storePrimary_ok h
  obtain ⟨phone, _, hphone, -, -, hrow⟩ := flush_eq_some (storePrimary_flush h).1
  have hp : p.2.phone = Json.ofOption payload.phone :=
    (congrArg TradeLead.phone hrow).trans (ColumnType.bind_eq_of_texts (Or.inl rfl) hphone)
  simp only [TradeLead.pushedIdentity, submittedIdentity, hemail, hfirst, hlast, hp]

theorem storeSecond_identity {t t' : TradeLeads} {primary s : Participant} {kwargs : SecondKwargs}
    (hprimary : primary ∈ t.rows)
    (h : storeSecond program payload primary kwargs (findSecond t primary) t = .ok (s, t')) :
    s.2.pushedIdentity = kwargs.identity := by
  obtain ⟨phone, _, hphone, -, -, hrow⟩ := flush_eq_some (storeSecond_flush hprimary h).1
  rw [hrow, ColumnType.bind_eq_of_texts (Or.inl rfl) hphone]
  rfl

/-- The registration the submission is stored under. -/
def registrationOf (py : LowerCase) (program : TradeProgram) (payload : Registration)
    (uuid : String) (t : TradeLeads) : String :=
  match getByProgramEmail t program.id (normaliseEmail py payload.email) with
  | some q => q.2.registrationId
  | none => uuid

theorem storePrimary_registration {uuid : String} {t t' : TradeLeads} {p : Participant}
    (h : storePrimary program payload (normaliseEmail py payload.email) uuid
      (getByProgramEmail t program.id (normaliseEmail py payload.email)) t = .ok (p, t')) :
    p.2.registrationId = registrationOf py program payload uuid t := by
  have hwrite := (storePrimary_eq_ok.1 h).2
  unfold registrationOf
  cases hfound : getByProgramEmail t program.id (normaliseEmail py payload.email) with
  | none =>
      rw [hfound] at hwrite
      obtain ⟨_, _, -, -, -, hrow⟩ := flush_eq_some (createLead_ok hwrite).1
      rw [hrow]
      rfl
  | some loaded =>
      obtain ⟨_, _, -, -, -, hrow⟩ := flush_eq_some ((storePrimary_flush h).2 loaded hfound).2
      rw [hrow]
      rfl

/-- No row of `protects` gets another identity from the submission: neither the row its email
selects, nor the second participant of its registration when it names one. -/
def Respects (py : LowerCase) (program : TradeProgram) (payload : Registration) (uuid : String)
    (t : TradeLeads) (protects : Participant → Prop) : Prop :=
  (∀ q, getByProgramEmail t program.id (normaliseEmail py payload.email) = some q → protects q →
    q.2.pushedIdentity = submittedIdentity py payload) ∧
  ∀ kwargs, namedSecond py payload = some kwargs → ∀ s ∈ t.rows, s.2.isPrimary = false →
    s.2.registrationId = registrationOf py program payload uuid t → protects s →
    s.2.pushedIdentity = kwargs.identity

/-- The first write of such a submission keeps the identity of every protected row. -/
theorem identity_storePrimary {uuid : String} {t t₁ : TradeLeads} {p : Participant}
    {protects : Participant → Prop} (hG : Respects py program payload uuid t protects)
    (h : storePrimary program payload (normaliseEmail py payload.email) uuid
      (getByProgramEmail t program.id (normaliseEmail py payload.email)) t = .ok (p, t₁))
    {q : Participant} (hq : q ∈ t.rows) (hprotected : protects q) :
    ∃ q₁ ∈ t₁.rows, q₁.1 = q.1 ∧ q₁.2.pushedIdentity = q.2.pushedIdentity ∧
      q₁.2.isPrimary = q.2.isPrimary ∧ q₁.2.registrationId = q.2.registrationId := by
  obtain ⟨hp, hsame, -, -, -, -, hcase⟩ := storePrimary_ok h
  by_cases hid : q.1 = p.1
  · rcases hcase with ⟨-, hfresh, -⟩ | ⟨loaded, hfound, hprim, hreg⟩
    · exact absurd hid (hfresh q hq)
    · obtain rfl := t.eq_of_id hq (getByProgramEmail_eq_some hfound).1 hid
      exact ⟨p, hp, rfl, (storePrimary_identity h).trans (hG.1 _ hfound hprotected).symm, hprim,
        hreg⟩
  · exact ⟨q, (hsame q hid).2 hq, rfl, rfl, rfl, rfl⟩

/-- A submission that respects the protected rows changes the identity of none of them. -/
theorem not_mem_changedIds {uuid : String} {t : TradeLeads} {protects : Participant → Prop}
    (hG : Respects py program payload uuid t protects) {q : Participant} (hq : q ∈ t.rows)
    (hprotected : protects q) :
    q.1 ∉ changedIds t (captureInProgram py program payload uuid t).1 := by
  have hsuffices : ∀ t', (∀ q' ∈ t'.rows, q'.1 = q.1 →
      q'.2.pushedIdentity = q.2.pushedIdentity) → q.1 ∉ changedIds t t' := by
    intro t' hall hmem
    obtain ⟨q', hq', hid, hne⟩ := mem_changedIds.1 hmem
    exact hne q hq rfl (hall q' hq' hid).symm
  refine hsuffices _ ?_
  rcases captureInProgram_writes py program payload uuid t with h | ⟨p, t₁, hstore, h⟩
  · rw [h]
    intro q' hq' hid
    rw [t.eq_of_id hq' hq hid]
  · obtain ⟨q₁, hq₁, hid₁, hident₁, hprim₁, hreg₁⟩ := identity_storePrimary hG hstore hq hprotected
    rcases h with h | ⟨kwargs, s, hkw, hsecond⟩
    · rw [h]
      intro q' hq' hid
      rw [t₁.eq_of_id hq' hq₁ (hid.trans hid₁.symm), hident₁]
    · have hp := (storePrimary_ok hstore).1
      obtain ⟨hs, hsame, -, -, hold⟩ := storeSecond_ok hp hsecond
      intro q' hq' hid
      by_cases hsid : q'.1 = s.1
      · rw [Table.eq_of_id hq' hs hsid, storeSecond_identity hp hsecond]
        obtain ⟨hprim, hreg⟩ := hold q₁ hq₁ (hid₁.trans (hid.symm.trans hsid))
        refine (hG.2 kwargs hkw q hq (hprim₁ ▸ hprim) ?_ hprotected).symm
        rw [← hreg₁, hreg, storePrimary_registration hstore]
      · have hq'₁ : q' ∈ t₁.rows := (hsame q' hsid).1 hq'
        rw [t₁.eq_of_id hq'₁ hq₁ (hid.trans hid₁.symm), hident₁]

/-! ## Runs -/

/-- The row's program requires approval. -/
def RequiresApproval (programs : List TradeProgram) (q : Participant) : Prop :=
  ∃ program, getProgram programs q.2.tradeProgramId = some program ∧
    program.requiresApproval = true

/-- An approved row of a program that requires approval, still waiting for its push. -/
def ApprovedWaiting (programs : List TradeProgram) (q : Participant) : Prop :=
  q.2.reviewStatus = .approved ∧ waiting q.2 = true ∧ RequiresApproval programs q

/-- The condition on a step: a registration respects the approved rows that are still waiting, and an
edit of a program does not begin to require approval. -/
def RespectsApproved (py : LowerCase) (act : CrmAct) (w : CrmWorld) : Prop :=
  match act with
  | .capture slug payload uuid => ∀ program, getProgramBySlug w.programs slug = some program →
      Respects py program payload uuid w.leads (ApprovedWaiting w.programs)
  | .configure programId status config => ∀ p ∈ w.programs, p.id = programId →
      TradeProgram.requiresApproval { p with status := status, config := config } = true →
      p.requiresApproval = true
  | _ => True

/-- Every push was vouched for, and every row that is ready for one is. -/
structure Approvals (w : CrmWorld) : Prop where
  pushes : PushesVouched w.log
  ready : ∀ q ∈ w.leads.rows, ApprovedWaiting w.programs q → Vouched w.log q.1

theorem approvals_capture {slug : String} {uuid : String} {w : CrmWorld} (hw : Approvals w)
    (hG : RespectsApproved py (.capture slug payload uuid) w) {w' : CrmWorld}
    (h : crmStep py (.capture slug payload uuid) w = some w') : Approvals w' := by
  simp only [crmStep, Option.some.injEq] at h
  subst h
  refine ⟨pushesVouched_append hw.pushes (by simp) (by simp), ?_⟩
  · intro q' hq' happroved
    have hcaptured := captured_registration py w.programs slug payload uuid w.leads
    rcases hcaptured.rows q' hq' with ⟨q, hq, hid, hsync, hreview, hprogram⟩ | ⟨-, -, hreview⟩
    · -- the registration keeps the review, the condition keeps the identity
      have hready : ApprovedWaiting w.programs q := by
        obtain ⟨happ, hwait, hreq⟩ := happroved
        refine ⟨hreview ▸ happ, ?_, ?_⟩
        · simpa [waiting, hsync] using hwait
        · simpa [RequiresApproval, hprogram] using hreq
      refine vouched_append ?_ (hid ▸ hw.ready q hq hready)
      simp only [List.mem_map, Happening.identityChanged.injEq, exists_eq_right]
      rw [← hid]
      rcases captureRegistration_writes py w.programs slug payload uuid w.leads with
        heq | ⟨program, hfound, heq⟩
      · rw [heq]
        intro hmem
        obtain ⟨r, hr, hrid, hne⟩ := mem_changedIds.1 hmem
        exact hne r hr hrid rfl
      · rw [heq]
        exact not_mem_changedIds (hG program hfound) hq hready
    · -- a new row has not been reviewed
      rw [happroved.1] at hreview
      cases hreview

theorem approvals_review {id : Nat} {status : ReviewStatus} {reviewer : Option String} {now : Int}
    {w w' : CrmWorld} (hw : Approvals w)
    (h : crmStep py (.review id status reviewer now) w = some w') : Approvals w' := by
  rcases review_step h with rfl | ⟨q, hq, rfl, new, t', hflush, hupd, rfl⟩
  · exact ⟨hw.pushes, hw.ready⟩
  · obtain ⟨_, _, -, -, -, hnew⟩ := flush_eq_some hflush
    have hlog : ∀ i, Vouched w.log i →
        Vouched (if status = .approved then .approved q.1 :: w.log else w.log) i := by
      intro i hi
      split
      · exact vouched_cons (by simp) hi
      · exact hi
    refine ⟨?_, fun r hr happroved => ?_⟩
    · split
      · have hpushes : PushesVouched ([.approved q.1] ++ w.log) :=
          pushesVouched_append hw.pushes (by simp) (by simp)
        exact hpushes
      · exact hw.pushes
    · rcases (Table.mem_of_update hupd).1 hr with ⟨hr, -⟩ | ⟨rfl, -⟩
      · exact hlog r.1 (hw.ready r hr happroved)
      · -- the reviewed row is approved by this very review, which the log has first
        have hstatus : status = .approved := by
          have := happroved.1
          rw [hnew] at this
          exact this
        simp only [hstatus, if_true]
        exact ⟨[], w.log, rfl, List.not_mem_nil⟩

omit [ColumnDriver] in
/-- An edit changes no id, and the edited program keeps its own. -/
theorem getProgram_configured {programs : List TradeProgram} {programId id : Nat}
    {status : ProgramStatus} {config : ProgramConfig} {p : TradeProgram}
    (h : getProgram (configured programs programId status config) id = some p) :
    ∃ p₀ ∈ programs, getProgram programs id = some p₀ ∧
      p = if p₀.id = programId then { p₀ with status := status, config := config } else p₀ := by
  unfold getProgram configured at h
  rw [List.find?_map, Option.map_eq_some_iff] at h
  obtain ⟨p₀, hfound, rfl⟩ := h
  have heq : getProgram programs id = some p₀ := by
    rw [← hfound, getProgram]
    refine List.find?_congr fun p _ => ?_
    simp only [Function.comp_apply]
    split <;> rfl
  exact ⟨p₀, List.mem_of_find?_eq_some heq, heq, rfl⟩

theorem approvals_configure {programId : Nat} {status : ProgramStatus} {config : ProgramConfig}
    {w w' : CrmWorld} (hw : Approvals w)
    (hG : RespectsApproved py (.configure programId status config) w)
    (h : crmStep py (.configure programId status config) w = some w') : Approvals w' := by
  simp only [crmStep, Option.some.injEq] at h
  subst h
  refine ⟨hw.pushes, fun q hq happroved => hw.ready q hq ?_⟩
  obtain ⟨happ, hwait, program, hprogram, hreq⟩ := happroved
  refine ⟨happ, hwait, ?_⟩
  obtain ⟨p₀, hp₀, hfound, rfl⟩ := getProgram_configured hprogram
  refine ⟨p₀, hfound, ?_⟩
  split at hreq
  · exact hG p₀ hp₀ ‹_› hreq
  · exact hreq

theorem approvals_sync {limit : Nat} {o : SyncOutside} {w w' : CrmWorld} (htracked : Tracked w)
    (hw : Approvals w) (h : crmStep py (.sync limit o) w = some w') : Approvals w' := by
  rcases sync_step htracked.flushed h with ⟨-, rfl⟩ | ⟨-, -, hprograms, hswept⟩
  · exact hw
  · have hready : ∀ q ∈ listPendingCrmSync w.leads limit, q.2.reviewStatus = .approved →
        RequiresApproval w.programs q → Vouched w.log q.1 := by
      intro q hq happ hreq
      obtain ⟨hqmem, hstatus⟩ := mem_listPendingCrmSync hq
      refine hw.ready q hqmem ⟨happ, ?_, hreq⟩
      rcases hstatus with hstatus | hstatus <;> simp [waiting, hstatus]
    -- a sweep changes no identity, so what was vouched for stays so
    have hkinds : ∀ i, .identityChanged i ∉ (listPendingCrmSync w.leads limit).reverse.flatMap
        (visitLog w.globalSync w.programs o) := by
      intro i hi
      obtain ⟨q, -, hvisit⟩ := List.mem_flatMap.1 hi
      rcases visitLog_kinds hvisit with ⟨gated, heq⟩ | heq <;> cases heq
    refine ⟨?_, fun q' hq' happroved => ?_⟩
    · rw [hswept.log_eq]
      refine pushesVouched_append hw.pushes (fun _ _ _ => hkinds) fun id hid => ?_
      obtain ⟨q, hq, hvisit⟩ := List.mem_flatMap.1 hid
      obtain ⟨rfl, program, hprogram, hgated, hgates, -⟩ := pushed_mem_visitLog.1 hvisit
      exact hready q (List.mem_reverse.1 hq) (hgates.2.2.1 hgated.symm)
        ⟨program, hprogram, hgated.symm⟩
    · rw [hswept.log_eq]
      refine vouched_append (hkinds _) ?_
      rw [hprograms] at happroved
      obtain ⟨happ, hwait, hreq⟩ := happroved
      rcases hswept.rows q' hq' with ⟨hq, -⟩ | ⟨q, hq, -, rfl⟩
      · exact hw.ready q' hq ⟨happ, hwait, hreq⟩
      · obtain ⟨_, _, _, _, hframe⟩ := afterVisit_frame w.globalSync w.programs o q
        refine hready q hq ?_ ?_
        · simpa [hframe] using happ
        · simpa [RequiresApproval, hframe] using hreq

/-- **When the approval gate holds.** From a world without participants, in every run whose
registrations respect the approved rows still waiting for their push and whose program edits do not
begin to require approval: in every state, every push of a program that requires approval came after
an approval of the row that no change of its identity followed. -/
theorem pushes_vouched {acts : List CrmAct} {w₀ : CrmWorld} (hinit : w₀.Initial)
    (hG : Guarded (crmStep py) (RespectsApproved py) acts w₀) :
    Always (crmStep py) (fun w => PushesVouched w.log) acts w₀ := by
  have hfirst : Tracked w₀ ∧ Approvals w₀ := by
    refine ⟨tracked_initial hinit, ?_, ?_⟩
    · intro id earlier hsuffix
      rw [hinit.2] at hsuffix
      cases List.suffix_nil.1 hsuffix
    · intro q hq
      rw [hinit.1] at hq
      cases hq
  refine (always_of_step (I := fun w => Tracked w ∧ Approvals w) ?_ hfirst hG).mono
    fun w hw => hw.2.pushes
  rintro act w w' ⟨htracked, hw⟩ hact hstep
  refine ⟨tracked_step htracked hstep, ?_⟩
  cases act with
  | capture slug payload uuid => exact approvals_capture hw hact hstep
  | review id status reviewer now => exact approvals_review hw hstep
  | configure programId status config => exact approvals_configure hw hact hstep
  | switch globalSync =>
      simp only [crmStep, Option.some.injEq] at hstep
      subst hstep
      exact ⟨hw.pushes, hw.ready⟩
  | sync limit o => exact approvals_sync htracked hw hstep

end Driver

attribute [local instance] plainDriver

/-! ## An identity nobody approved -/

/-- `openProgram` with the review step. -/
def reviewedProgram : TradeProgram :=
  { openProgram with
    config := { openProgram.config with requireAdminApproval := some (.bool true) } }

def reviewWorld : CrmWorld where
  globalSync := true
  programs := [reviewedProgram]
  leads := Table.empty _
  log := []

/-- Somebody registers again under Benedict's address. -/
def mallory : Registration := submission "Mallory" benEmail []

/-- Benedict registers, an admin approves him, the row is overwritten, and a sweep runs. -/
def overwriteApproved : List CrmAct :=
  [.capture "launchpad" benAlone "r-1", .review 1 .approved (some "admin@x.ng") 0,
    .capture "launchpad" mallory "r-2", .sync 200 acceptAll]

/-- The sweep pushes a row whose identity has changed since its only approval. -/
theorem unapproved_identity_pushed : ∃ w, exec (crmStep asciiLower) overwriteApproved reviewWorld =
    some w ∧ ¬ PushesVouched w.log := by
  refine ⟨_, rfl, fun h => ?_⟩
  exact not_vouched_changed
    (h 1 [.identityChanged 1, .approved 1, .identityChanged 1] (List.suffix_refl _))

/-- Benedict registers, is approved and is pushed. -/
def approveThenSync : List CrmAct :=
  [.capture "launchpad" benAlone "r-1", .review 1 .approved (some "admin@x.ng") 0,
    .sync 200 acceptAll]

/-- His push was approved. -/
theorem approved_identity_pushed :
    Always (crmStep asciiLower) (fun w => PushesVouched w.log) approveThenSync reviewWorld := by
  refine pushes_vouched ⟨rfl, rfl⟩ ⟨?_, fun w hw => ?_⟩
  · intro program _
    exact ⟨fun q hq => (by cases hq), fun _ _ s hs => (by cases hs)⟩
  · exact ⟨trivial, fun w hw => ⟨trivial, fun w hw => trivial⟩⟩

end SalesTrades.Trade
