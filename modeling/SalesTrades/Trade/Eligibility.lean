import SalesTrades.Trade.Documents
import SalesTrades.Trade.Reregistration

/-!
# The eligibility status of every row

`submit_document` writes the roll-up to the participants that a registration has at that moment, and
`capture_registration` never reads the documents. The rows agree with the documents throughout a run
exactly when no second participant joins a registration that has documents
(`eligibility_agrees_iff`).
-/

set_option autoImplicit false

namespace SalesTrades.Trade

open SalesTrades.Library SalesTrades.Library.Run

variable {py : LowerCase} {programs : List TradeProgram} {slug : String} {program : TradeProgram}
  {configured : Bool} {payload : Registration} {uuid : String} {t t' : TradeLeads}
  {documents : TradeDocuments} {w w' : DocumentWorld}

/-! ## Calls -/

/-- A registration with the identifier `uuid4` would give it, or the submission of a document. -/
inductive DeskAct where
  | register (payload : Registration) (uuid : String)
  | submit (args : DocumentArgs) (o : SubmitOutside)

section Driver

variable [ColumnDriver]

/-- One call for the program under the slug, run on its own. -/
def deskStep (py : LowerCase) (programs : List TradeProgram) (slug : String)
    (program : TradeProgram) (configured : Bool) : DeskAct → DocumentWorld → Option DocumentWorld
  | .register payload uuid, w =>
      some { w with leads := (captureRegistration py programs slug payload uuid w.leads).1 }
  | .submit args o, w => some (submitDocument configured program args o w).1

/-- The identifier that a call may bring in. -/
def DeskAct.names : DeskAct → List String
  | .register _ uuid => [uuid]
  | .submit _ _ => []

/-- Every row of the program has the status of the documents that are in for its registration. -/
def StatusAgrees (program : TradeProgram) (w : DocumentWorld) : Prop :=
  ∀ q ∈ w.leads.rows, q.2.tradeProgramId = program.id →
    q.2.eligibilityStatus =
      computeEligibilityStatus (presentKeys w.documents q.2.registrationId) program

/-- What every call keeps. -/
structure Desk (py : LowerCase) (w : DocumentWorld) : Prop where
  shaped : Shaped py w.leads
  flushed : Flushed w.leads
  owned : ∀ d ∈ w.documents.rows, ∃ q ∈ w.leads.rows, q.2.registrationId = d.2.registrationId

/-- The condition on a call: a registration for which a second participant joins has no documents. -/
def JoinsBeforeDocuments (py : LowerCase) (program : TradeProgram) (w : DocumentWorld) :
    DeskAct → Prop
  | .submit _ _ => True
  | .register payload _ => program.status = .active → ColumnsFit py payload →
      StoresSecond py program payload w.leads → ∀ loaded,
        getByProgramEmail w.leads program.id (normaliseEmail py payload.email) = some loaded →
          (∀ q ∈ w.leads.rows, q.2.registrationId = loaded.2.registrationId →
            q.2.isPrimary = true) →
          presentKeys w.documents loaded.2.registrationId = ∅

/-! ## What the two writes of a registration do to the status -/

/-- A new row has not been asked for anything; a merge keeps the status. -/
theorem PrimaryWrite.eligibility {p : Participant}
    (h : PrimaryWrite py program payload uuid t p t') :
    (getByProgramEmail t program.id (normaliseEmail py payload.email) = none ∧
        p.2.registrationId = uuid ∧ p.2.eligibilityStatus = .notRequested) ∨
      ∃ loaded, getByProgramEmail t program.id (normaliseEmail py payload.email) =
          some (p.1, loaded) ∧ p.2.registrationId = loaded.registrationId ∧
        p.2.isPrimary = loaded.isPrimary ∧ p.2.eligibilityStatus = loaded.eligibilityStatus := by
  cases h with
  | registered hnone hflush hinsert =>
      obtain ⟨_, _, -, -, -, hrow⟩ := flush_eq_some hflush
      refine Or.inl ⟨hnone, ?_, ?_⟩
      · rw [hrow]
        rfl
      · rw [hrow]
        rfl
  | merged hfound hflush hupdate =>
      obtain ⟨_, _, -, -, -, hrow⟩ := flush_eq_some hflush
      refine Or.inr ⟨_, hfound, ?_, ?_, ?_⟩
      · rw [hrow]
        rfl
      · rw [hrow]
        rfl
      · rw [hrow]
        rfl

/-- The second participant's row is new, or keeps its status. -/
theorem SecondWrite.eligibility {primary s : Participant} {kwargs : SecondKwargs}
    (h : SecondWrite program payload primary kwargs t s t') :
    (findSecond t primary = none ∧ s.2.eligibilityStatus = .notRequested ∧
        s.2.tradeProgramId = program.id) ∨
      ∃ loaded, findSecond t primary = some (s.1, loaded) ∧
        s.2.registrationId = loaded.registrationId ∧
        s.2.tradeProgramId = loaded.tradeProgramId ∧
        s.2.eligibilityStatus = loaded.eligibilityStatus := by
  cases h with
  | joined hnone hflush hinsert =>
      obtain ⟨_, _, -, -, -, hrow⟩ := flush_eq_some hflush
      refine Or.inl ⟨hnone, ?_, ?_⟩
      · rw [hrow]
        rfl
      · rw [hrow]
        rfl
  | rejoined hfound hflush hupdate =>
      obtain ⟨_, _, -, -, -, hrow⟩ := flush_eq_some hflush
      refine Or.inr ⟨_, hfound, ?_, ?_, ?_⟩
      · rw [hrow]
        rfl
      · rw [hrow]
        rfl
      · rw [hrow]
        rfl

/-- The rows of the program agree with the documents. -/
def LeadsAgree (program : TradeProgram) (documents : TradeDocuments) (t : TradeLeads) : Prop :=
  StatusAgrees program ⟨t, documents, ∅⟩

theorem leadsAgree_primaryWrite {p : Participant} (hagree : LeadsAgree program documents t)
    (hfresh : presentKeys documents uuid = ∅)
    (h : PrimaryWrite py program payload uuid t p t') : LeadsAgree program documents t' := by
  obtain ⟨hp, -, -⟩ := h.stored
  intro q hq hprogram
  by_cases hid : q.1 = p.1
  · rw [t'.eq_of_id hq hp hid]
    rcases h.eligibility with ⟨-, hreg, hstatus⟩ | ⟨loaded, hfound, hreg, -, hstatus⟩
    · rw [hreg, hstatus]
      exact (computeEligibilityStatus_eq_notRequested_iff.2 hfresh).symm
    · obtain ⟨hloaded, hlprogram, -⟩ := getByProgramEmail_eq_some hfound
      rw [hreg, hstatus]
      exact hagree _ hloaded hlprogram
  · exact hagree q ((h.others q hid).1 hq) hprogram

/-- A second participant agrees when it was there before, or joins a registration without
documents. -/
theorem leadsAgree_secondWrite_iff {primary s : Participant} {kwargs : SecondKwargs}
    (hprimary : primary ∈ t.rows) (hagree : LeadsAgree program documents t)
    (h : SecondWrite program payload primary kwargs t s t') :
    LeadsAgree program documents t' ↔
      (findSecond t primary = none → presentKeys documents primary.2.registrationId = ∅) := by
  obtain ⟨hs, hothers, hreg, -, -⟩ := h.stored hprimary
  have hrest : ∀ q ∈ t'.rows, q.1 ≠ s.1 → q.2.tradeProgramId = program.id →
      q.2.eligibilityStatus =
        computeEligibilityStatus (presentKeys documents q.2.registrationId) program :=
    fun q hq hid hprogram => hagree q ((hothers q hid).1 hq) hprogram
  -- a new second participant starts at not_requested, one that was there keeps its status
  rcases h.eligibility with ⟨hnone, hstatus, hsprogram⟩ | ⟨loaded, hfound, hsreg, hsprogram, hstatus⟩
  · rw [hnone]
    simp only [true_implies]
    rw [← computeEligibilityStatus_eq_notRequested_iff, ← hreg]
    constructor
    · intro hall
      rw [← hstatus]
      exact (hall s hs hsprogram).symm
    · intro hempty q hq hprogram
      by_cases hid : q.1 = s.1
      · rw [t'.eq_of_id hq hs hid, hstatus]
        exact hempty.symm
      · exact hrest q hq hid hprogram
  · refine iff_of_true (fun q hq hprogram => ?_) fun hnone => ?_
    · by_cases hid : q.1 = s.1
      · rw [t'.eq_of_id hq hs hid] at hprogram ⊢
        rw [hstatus, hsreg]
        exact hagree _ (findSecond_eq_some hprimary hfound).1 (hsprogram ▸ hprogram)
      · exact hrest q hq hid hprogram
    · rw [hnone] at hfound
      cases hfound

omit [ColumnDriver] in
theorem findSecond_eq_none_iff {primary : Participant} (hprimary : primary ∈ t.rows) :
    findSecond t primary = none ↔ ∀ q ∈ t.rows,
      q.2.registrationId = primary.2.registrationId → q.2.isPrimary = true := by
  constructor
  · exact findSecond_eq_none
  · intro h
    cases hfound : findSecond t primary with
    | none => rfl
    | some s =>
        obtain ⟨hs, hreg, hsecond⟩ := findSecond_eq_some hprimary hfound
        rw [h s hs hreg] at hsecond
        cases hsecond

/-- A merge into a row does not change which rows of its registration are primary. -/
theorem PrimaryWrite.allPrimary_iff {p : Participant} {loaded : TradeLead}
    (h : PrimaryWrite py program payload uuid t p t')
    (hfound : getByProgramEmail t program.id (normaliseEmail py payload.email) = some (p.1, loaded))
    (hreg : p.2.registrationId = loaded.registrationId)
    (hprim : p.2.isPrimary = loaded.isPrimary) :
    (∀ q ∈ t'.rows, q.2.registrationId = p.2.registrationId → q.2.isPrimary = true) ↔
      ∀ q ∈ t.rows, q.2.registrationId = loaded.registrationId → q.2.isPrimary = true := by
  have hp := h.stored.1
  have hloaded := (getByProgramEmail_eq_some hfound).1
  constructor
  · intro hall q hq hqreg
    by_cases hid : q.1 = p.1
    · rw [t.eq_of_id hq hloaded hid]
      exact hprim.symm.trans (hall p hp rfl)
    · exact hall q ((h.others q hid).2 hq) (hqreg.trans hreg.symm)
  · intro hall q hq hqreg
    by_cases hid : q.1 = p.1
    · rw [t'.eq_of_id hq hp hid]
      exact hprim.trans (hall _ hloaded rfl)
    · exact hall q ((h.others q hid).1 hq) (hqreg.trans hreg)

/-! ## One call -/

/-- **Exactly when a registration keeps the agreement.** -/
theorem statusAgrees_register_iff (hslug : getProgramBySlug programs slug = some program)
    (hw : Desk py w) (hagree : StatusAgrees program w) (hfresh : FreshId uuid w.leads) :
    StatusAgrees program
        { w with leads := (captureRegistration py programs slug payload uuid w.leads).1 } ↔
      JoinsBeforeDocuments py program w (.register payload uuid) := by
  have hleads : ∀ t, StatusAgrees program { w with leads := t } ↔
      LeadsAgree program w.documents t := fun _ => Iff.rfl
  have hold : LeadsAgree program w.documents w.leads := hagree
  -- no document has the identifier of a registration that is not there yet
  have hnokeys : presentKeys w.documents uuid = ∅ := by
    rw [Finset.eq_empty_iff_forall_notMem]
    intro k hk
    obtain ⟨d, hd, hreg, -⟩ := mem_presentKeys.1 hk
    obtain ⟨q, hq, hqreg⟩ := hw.owned d hd
    exact hfresh q hq (hqreg.trans hreg)
  rw [hleads]
  by_cases hactive : program.status = .active
  · rw [(captureRegistration_active hslug hactive payload uuid w.leads).1]
    have houtcome : CaptureOutcome py program payload uuid w.leads
        (captureInProgram py program payload uuid w.leads) :=
      captureInProgram_outcome hw.shaped hfresh
    revert houtcome
    generalize captureInProgram py program payload uuid w.leads = r
    intro houtcome
    cases houtcome with
    | rejected hunfit => exact iff_of_true hold fun _ hfits => absurd hfits hunfit
    | alone hfits hprimary hsecond hnone =>
        exact iff_of_true (leadsAgree_primaryWrite hold hnokeys hprimary)
          fun _ _ hstores => absurd hnone hstores.1
    | halfway hfits hprimary hsecond =>
        exact iff_of_true (leadsAgree_primaryWrite hold hnokeys hprimary)
          fun _ _ hstores => absurd hstores.2 hsecond
    | @paired p s kwargs t₁ t₂ hfits hprimary hsecond hnamed hstored =>
        have hp := hprimary.stored.1
        have hstores : StoresSecond py program payload w.leads :=
          ⟨by rw [hnamed]; exact Option.some_ne_none kwargs, hsecond⟩
        rw [leadsAgree_secondWrite_iff hp (leadsAgree_primaryWrite hold hnokeys hprimary) hstored]
        rcases hprimary.eligibility with ⟨hnone, hreg, -⟩ | ⟨loaded, hfound, hreg, hprim, -⟩
        · rw [hreg]
          refine iff_of_true (fun _ => hnokeys) fun _ _ _ loaded hfound => ?_
          rw [hnone] at hfound
          cases hfound
        · rw [findSecond_eq_none_iff hp, hprimary.allPrimary_iff hfound hreg hprim, hreg]
          constructor
          · intro h _ _ _ loaded' hfound'
            obtain rfl : (p.1, loaded) = loaded' := Option.some.inj (hfound.symm.trans hfound')
            exact h
          · exact fun h => h hactive hfits hstores _ hfound
  · have hunchanged : (captureRegistration py programs slug payload uuid w.leads).1 = w.leads := by
      simp [captureRegistration, hslug, hactive]
    rw [hunchanged]
    exact iff_of_true hold fun h => absurd h hactive

omit [ColumnDriver] in
/-- A submission writes the roll-up of what it leaves to every row of the registration. -/
theorem statusAgrees_submit {args : DocumentArgs} {o : SubmitOutside}
    (hagree : StatusAgrees program w) (h : SubmitWrites configured program args o w w') :
    StatusAgrees program w' := by
  cases h with
  | nothing hrejected hleads hdocuments =>
      intro q hq hprogram
      rw [hleads] at hq
      rw [hdocuments]
      exact hagree q hq hprogram
  | stored haccepted hstore hnext hrows =>
      intro q hq hprogram
      rcases (hrows q).1 hq with ⟨hq, hreg⟩ | ⟨p, hp, hreg, rfl⟩
      · -- the documents of another registration are the same
        have hsame : presentKeys w'.documents q.2.registrationId =
            presentKeys w.documents q.2.registrationId := by
          ext k
          rw [mem_presentKeys_store (inPlace_getDocument args w.documents) hstore]
          exact or_iff_left fun h => hreg h.1.symm
        rw [hsame]
        exact hagree q hq hprogram
      · have hrolled : (rolledUp (computeEligibilityStatus
            (presentKeys w'.documents args.registrationId) program) o.now p.2).registrationId =
              args.registrationId := hreg
        rw [hrolled]
        rfl

omit [ColumnDriver] in
theorem rolledUp_samePlace {status : EligibilityStatus} {now : Int} (l : TradeLead) :
    SamePlace l (rolledUp status now l) :=
  ⟨rfl, rfl, rfl, rfl, fun _ => rfl⟩

/-- A submission leaves the rows in their places and gives documents to registrations that exist. -/
theorem desk_submit {args : DocumentArgs} {o : SubmitOutside} (hw : Desk py w)
    (h : SubmitWrites configured program args o w w') : Desk py w' := by
  cases h with
  | nothing hrejected hleads hdocuments =>
      refine ⟨hleads ▸ hw.shaped, hleads ▸ hw.flushed, fun d hd => ?_⟩
      rw [hdocuments] at hd
      rw [hleads]
      exact hw.owned d hd
  | @stored stored haccepted hstore hnext hrows =>
      have hkept : ∀ q₀ ∈ w.leads.rows, ∃ q ∈ w'.leads.rows, SamePlace q₀.2 q.2 := by
        intro q₀ hq₀
        by_cases hreg : q₀.2.registrationId = args.registrationId
        · exact ⟨_, (hrows _).2 (Or.inr ⟨q₀, hq₀, hreg, rfl⟩), rolledUp_samePlace q₀.2⟩
        · exact ⟨q₀, (hrows _).2 (Or.inl ⟨hq₀, hreg⟩), SamePlace.refl q₀.2⟩
      refine ⟨hw.shaped.of_places (fun q hq => ?_) hkept, fun q hq => ?_, fun d hd => ?_⟩
      · rcases (hrows q).1 hq with ⟨hq, -⟩ | ⟨p, hp, -, rfl⟩
        · exact ⟨q, hq, rfl, SamePlace.refl q.2⟩
        · exact ⟨p, hp, rfl, rolledUp_samePlace p.2⟩
      · rcases (hrows q).1 hq with ⟨hq, -⟩ | ⟨p, hp, -, rfl⟩
        · exact hw.flushed q hq
        · exact rolledUp_flush (hw.flushed p hp)
      · obtain ⟨hstored, hsame, hdreg, -, -⟩ :=
          storeDocument_ok (inPlace_getDocument args w.documents) hstore
        obtain ⟨q₀, hq₀, hreg₀⟩ : ∃ q₀ ∈ w.leads.rows,
            q₀.2.registrationId = d.2.registrationId := by
          by_cases hid : d.1 = stored.1
          · rw [w'.documents.eq_of_id hd hstored hid, hdreg]
            exact haccepted.registered
          · exact hw.owned d ((hsame d hid).1 hd)
        obtain ⟨q, hq, hplace⟩ := hkept q₀ hq₀
        exact ⟨q, hq, hplace.registration.trans hreg₀⟩

theorem desk_register (programs : List TradeProgram) (slug : String) (payload : Registration)
    (hw : Desk py w) (hfresh : FreshId uuid w.leads) :
    Desk py { w with
      leads := (captureRegistration py programs slug payload uuid w.leads).1 } := by
  have hstep : captureAct py programs ⟨slug, payload, uuid⟩ w.leads = some _ := rfl
  refine ⟨shaped_captureAct hw.shaped hfresh hstep,
    (captured_registration py programs slug payload uuid w.leads).flushed hw.flushed,
    fun d hd => ?_⟩
  obtain ⟨q, hq, hreg⟩ := hw.owned d hd
  obtain ⟨q', hq', -, hreg'⟩ := captureRegistration_kept py programs slug payload uuid q hq
  exact ⟨q', hq', hreg'.trans hreg⟩

theorem desk_step {act : DeskAct} (hw : Desk py w)
    (hfresh : ∀ id ∈ act.names, FreshId id w.leads)
    (hstep : deskStep py programs slug program configured act w = some w') : Desk py w' := by
  cases act with
  | submit args o =>
      obtain rfl := Option.some.inj hstep
      exact desk_submit hw (submitDocument_writes configured program args o hw.flushed)
  | register payload uuid =>
      obtain rfl := Option.some.inj hstep
      exact desk_register programs slug payload hw (hfresh uuid (List.mem_singleton_self uuid))

/-! ## Runs -/

omit [ColumnDriver] in
/-- A submission uses no identifier that is not in use. -/
theorem freshId_submit {args : DocumentArgs} {o : SubmitOutside} {id : String}
    (h : SubmitWrites configured program args o w w') (hid : FreshId id w.leads) :
    FreshId id w'.leads := by
  intro q hq
  cases h with
  | nothing hrejected hleads hdocuments =>
      rw [hleads] at hq
      exact hid q hq
  | stored haccepted hstore hnext hrows =>
      rcases (hrows q).1 hq with ⟨hq, -⟩ | ⟨p, hp, -, rfl⟩
      · exact hid q hq
      · exact hid p hp

/-- A call uses no other identifier than its own. -/
theorem freshId_deskStep {act : DeskAct} {id : String} (hw : Desk py w)
    (hstep : deskStep py programs slug program configured act w = some w')
    (hid : FreshId id w.leads) (hne : id ∉ act.names) : FreshId id w'.leads := by
  cases act with
  | register payload uuid =>
      obtain rfl := Option.some.inj hstep
      have hcapture : captureAct py programs ⟨slug, payload, uuid⟩ w.leads = some _ := rfl
      exact freshId_captureAct hcapture hid (List.ne_of_not_mem_cons hne)
  | submit args o =>
      obtain rfl := Option.some.inj hstep
      exact freshId_submit (submitDocument_writes configured program args o hw.flushed) hid

/-- **Exactly which runs keep rows and documents in agreement.** -/
theorem eligibility_agrees_iff (configured : Bool)
    (hslug : getProgramBySlug programs slug = some program) {acts : List DeskAct}
    (hw : Desk py w) (hagree : StatusAgrees program w) (hnodup : (acts.flatMap DeskAct.names).Nodup)
    (hunused : ∀ act ∈ acts, ∀ id ∈ act.names, FreshId id w.leads) :
    Always (deskStep py programs slug program configured) (StatusAgrees program) acts w ↔
      Guarded (deskStep py programs slug program configured)
        (fun act w => JoinsBeforeDocuments py program w act) acts w := by
  have hdesk : ∀ act w w', Desk py w → (∀ id ∈ DeskAct.names act, FreshId id w.leads) →
      deskStep py programs slug program configured act w = some w' → Desk py w' :=
    fun _ _ _ => desk_step
  have hnames : ∀ act w w', Desk py w →
      deskStep py programs slug program configured act w = some w' →
        ∀ id, FreshId id w.leads → id ∉ DeskAct.names act → FreshId id w'.leads :=
    fun _ _ _ hw hstep _ => freshId_deskStep hw hstep
  refine always_iff_guarded_of_unused ?_ hdesk hnames ?_ hw hagree hnodup hunused
  · intro act w
    cases act <;> rfl
  · intro act w w' hw hagree hfresh hstep
    cases act with
    | register payload uuid =>
        obtain rfl := Option.some.inj hstep
        exact statusAgrees_register_iff hslug hw hagree (hfresh uuid (List.mem_singleton_self uuid))
    | submit args o =>
        obtain rfl := Option.some.inj hstep
        exact iff_of_true
          (statusAgrees_submit hagree (submitDocument_writes configured program args o hw.flushed))
          trivial

end Driver

attribute [local instance] plainDriver

/-- The program with one required document. -/
def launchpad : TradeProgram :=
  { openProgram with
    config := { openProgram.config with requiredDocuments := [⟨"cac", .bool true⟩] } }

/-- Ada uploads her certificate. -/
def adaCertificate : DocumentArgs :=
  ⟨"r-ada", "cac", "certificate.pdf", some "application/pdf", .empty, "0badf00d"⟩

def emptyDesk : DocumentWorld := ⟨Table.empty _, Table.empty _, ∅⟩

theorem desk_empty (py : LowerCase) : Desk py emptyDesk := by
  refine ⟨shaped_empty py, fun q hq => ?_, fun d hd => ?_⟩
  · simp [emptyDesk, Table.empty] at hq
  · simp [emptyDesk, Table.empty] at hd

theorem statusAgrees_empty (program : TradeProgram) : StatusAgrees program emptyDesk := by
  intro q hq
  simp [emptyDesk, Table.empty] at hq

/-- Ada registers and uploads her certificate. -/
theorem certificate_agrees :
    Always (deskStep asciiLower [launchpad] "launchpad" launchpad true) (StatusAgrees launchpad)
      [.register adaAlone "r-ada", .submit adaCertificate ⟨true, true, 0⟩] emptyDesk := by
  apply (eligibility_agrees_iff true rfl (desk_empty asciiLower) (statusAgrees_empty launchpad)
    (by decide) fun _ _ id _ => fresh_empty id).2
  exact ⟨fun _ _ hstores => absurd rfl hstores.1, fun _ _ => ⟨trivial, fun _ _ => trivial⟩⟩

/-- The tables after her registration and the upload. -/
def afterUpload : DocumentWorld :=
  (submitDocument true launchpad adaCertificate ⟨true, true, 0⟩
    { emptyDesk with
      leads := (captureRegistration asciiLower [launchpad] "launchpad" adaAlone "r-ada"
        emptyDesk.leads).1 }).1

/-- Her second participant joins after the upload, and has not been asked for anything. -/
theorem late_second_disagrees :
    ¬ Always (deskStep asciiLower [launchpad] "launchpad" launchpad true) (StatusAgrees launchpad)
      [.register adaAlone "r-ada", .submit adaCertificate ⟨true, true, 0⟩,
        .register adaWithBen "r-again"] emptyDesk := by
  intro h
  have hagree : StatusAgrees launchpad
      { afterUpload with
        leads := (captureRegistration asciiLower [launchpad] "launchpad" adaWithBen "r-again"
          afterUpload.leads).1 } := ((h.2 _ rfl).2 _ rfl).2 _ rfl
  obtain ⟨p, s, hrows, hprogram, hreg, hstatus⟩ : ∃ p s,
      (captureRegistration asciiLower [launchpad] "launchpad" adaWithBen "r-again"
        afterUpload.leads).1.rows = [p, s] ∧ s.2.tradeProgramId = launchpad.id ∧
      s.2.registrationId = "r-ada" ∧ s.2.eligibilityStatus = .notRequested :=
    ⟨_, _, rfl, rfl, rfl, rfl⟩
  have hs := hagree s (by rw [hrows]; simp) hprogram
  have hcomputed :
      computeEligibilityStatus (presentKeys afterUpload.documents "r-ada") launchpad =
        .submitted := by decide
  rw [hstatus, hreg, hcomputed] at hs
  cases hs

end SalesTrades.Trade
