import SalesTrades.Trade.DocumentCalls
import SalesTrades.Trade.Eligibility

/-!
# Which programs a submitted document touches

`POST /trade/programs/{slug}/eligibility`. The registration and its documents are looked up by their
identifiers alone, and nothing compares their program with the one of the slug. So an accepted
submission stays within the program exactly when the registration, and the document it replaces, are
the program's own (`submission_framed_iff`).
-/

set_option autoImplicit false

namespace SalesTrades.Trade

open SalesTrades.Library

/-! ## The endpoint -/

def maxDocumentSizeBytes : Nat := 15 * 1024 * 1024

/-- The multipart form, and the `uuid4` digits that name the object. -/
structure EligibilityForm where
  registrationId : String
  documentKey : String
  fileName : Option String
  contentType : Option String
  body : ByteArray
  suffix : String

/-- What the endpoint passes to `submit_document`. -/
def EligibilityForm.args (form : EligibilityForm) : DocumentArgs where
  registrationId := strip form.registrationId
  documentKey := strip form.documentKey
  fileName :=
    match form.fileName with
    | none => form.documentKey
    | some name => if name = "" then form.documentKey else name
  contentType := form.contentType
  body := form.body
  suffix := form.suffix

/-- The answers of the endpoint that are no success, with their details. -/
inductive EligibilityError where
  | notFound (detail : String)
  | tooLarge (detail : String)
  | submission (e : SubmitError)

def submitEligibilityDocument [ColumnDriver] (configured : Bool) (programs : List TradeProgram)
    (slug : String) (form : EligibilityForm) (o : SubmitOutside) (w : DocumentWorld) :
    DocumentWorld × Except EligibilityError (DocumentRow × EligibilityStatus) :=
  match getProgramBySlug programs (strip slug) with
  | none => (w, .error (.notFound "Program not found"))
  | some program =>
      if form.body.size > maxDocumentSizeBytes then (w, .error (.tooLarge "File too large"))
      else
        match submitDocument configured program form.args o w with
        | (w', .error e) => (w', .error (.submission e))
        | (w', .ok r) => (w', .ok r)

/-! ## The frame -/

variable {configured : Bool} {programs : List TradeProgram} {program : TradeProgram} {slug : String}
  {form : EligibilityForm} {args : DocumentArgs} {o : SubmitOutside} {w w' : DocumentWorld}

/-- Some participant of the registration is in another program. -/
def BelongsElsewhere (program : TradeProgram) (registrationId : String) (t : TradeLeads) : Prop :=
  ∃ q ∈ t.rows, q.2.registrationId = registrationId ∧ q.2.tradeProgramId ≠ program.id

/-- A call that succeeds changes rows of the program only, and one for a registration of another
program is rejected and changes nothing. -/
structure Framed (program : TradeProgram) (registrationId : String) (w w' : DocumentWorld)
    (succeeds : Prop) : Prop where
  participants : succeeds →
    Table.ChangesWithin (fun l : TradeLead => l.tradeProgramId = program.id) w.leads w'.leads
  documents : succeeds →
    Table.ChangesWithin (fun d : TradeDocument => d.tradeProgramId = program.id) w.documents
      w'.documents
  elsewhere : BelongsElsewhere program registrationId w.leads →
    ¬ succeeds ∧ w'.leads = w.leads ∧ w'.documents = w.documents

/-- The registration is the program's own, and so is the document that is replaced, unless it is
replaced by itself. -/
structure OwnRegistration (program : TradeProgram) (args : DocumentArgs) (o : SubmitOutside)
    (w : DocumentWorld) : Prop where
  participants : ¬ BelongsElsewhere program args.registrationId w.leads
  document : ∀ d, getDocument w.documents args.registrationId args.documentKey = some d →
    replacedDocument program args o.now d.2 = d.2 ∨ d.2.tradeProgramId = program.id

/-- The commit of a document changes a row of the program, or one that is replaced by itself. -/
theorem changesWithin_storeDocument_iff {now : Int} {d : DocumentRow} {t t' : TradeDocuments}
    (h : storeDocument program args now (getDocument t args.registrationId args.documentKey) t =
      .ok (d, t')) :
    Table.ChangesWithin (fun d : TradeDocument => d.tradeProgramId = program.id) t t' ↔
      ∀ d, getDocument t args.registrationId args.documentKey = some d →
        replacedDocument program args now d.2 = d.2 ∨ d.2.tradeProgramId = program.id := by
  cases hfound : getDocument t args.registrationId args.documentKey with
  | none =>
      rw [hfound] at h
      obtain ⟨hd, hinsert⟩ := createDocument_ok h
      refine iff_of_true (Table.changesWithin_insert hinsert ?_) fun _ hnone => by cases hnone
      rfl
  | some old =>
      rw [hfound] at h
      obtain ⟨hold, -, -⟩ := getDocument_eq_some hfound
      obtain ⟨current, hcurrent, rfl, hupdate⟩ := updateDocument_ok h
      obtain rfl : old.2 = current := congrArg Prod.snd (t.eq_of_id hold hcurrent rfl)
      rw [TradeDocument.write_current_loaded] at hupdate
      rw [Table.changesWithin_update_iff hcurrent hupdate]
      simp only [Option.some.injEq, forall_eq']
      -- the replacement keeps the program of the row
      exact or_congr_right (and_iff_left_of_imp fun hown => hown)

section Driver

variable [ColumnDriver]

/-- A submission that is accepted succeeds. -/
theorem submitDocument_accepted (hflushed : Flushed w.leads)
    (haccepted : Accepted configured program args o w.leads) :
    ∃ document status, (submitDocument configured program args o w).2 = .ok (document, status) := by
  obtain ⟨q, hq, hreg⟩ := haccepted.registered
  have hlisted := mem_listByRegistration.2 ⟨hq, hreg⟩
  obtain ⟨d, documents, hstore⟩ := exists_storeDocument program o.now
    (inPlace_getDocument args w.documents) fun hnone hin => by
      obtain ⟨q, hq, hqkey⟩ := mem_presentKeys.1 hin
      exact getDocument_eq_none hnone q hq hqkey
  cases hlist : listByRegistration w.leads args.registrationId with
  | nil =>
      rw [hlist] at hlisted
      cases hlisted
  | cons lead ps =>
      obtain ⟨leads', hroll, -⟩ := rollUp_registration args.registrationId
        (computeEligibilityStatus (presentKeys documents args.registrationId) program) o.now hflushed
      rw [hlist] at hroll
      rw [haccepted.configured,
        submitDocument_stored haccepted.key hlist haccepted.uploads hstore, hroll]
      exact ⟨_, _, rfl⟩

/-- One that is not leaves an error. -/
theorem submitDocument_not_accepted (h : ¬ Accepted configured program args o w.leads) :
    ∃ e, (submitDocument configured program args o w).2 = .error e := by
  unfold submitDocument
  split
  · exact ⟨_, rfl⟩
  · rename_i hkey
    split
    · exact ⟨_, rfl⟩
    · rename_i lead ps hlist
      obtain ⟨hmem, hreg⟩ := mem_listByRegistration.1 (hlist ▸ List.mem_cons_self (a := lead))
      split
      · exact ⟨_, rfl⟩
      · rename_i hconfigured
        split
        · exact ⟨_, rfl⟩
        · rename_i huploads
          exact absurd ⟨not_not.1 hkey, ⟨lead, hmem, hreg⟩, (Bool.not_eq_false _).mp hconfigured,
            (Bool.not_eq_false _).mp huploads⟩ h

omit [ColumnDriver] in
/-- An accepted submission is framed exactly when the registration is the program's own. -/
theorem framed_accepted_iff (h : SubmitWrites configured program args o w w')
    (haccepted : Accepted configured program args o w.leads) {succeeds : Prop}
    (hsucceeds : succeeds) :
    Framed program args.registrationId w w' succeeds ↔ OwnRegistration program args o w := by
  cases h with
  | nothing hrejected hleads hdocuments => exact absurd haccepted hrejected
  | stored _ hstore hnext hrows =>
      constructor
      · intro hframed
        exact ⟨fun helsewhere => (hframed.elsewhere helsewhere).1 hsucceeds,
          (changesWithin_storeDocument_iff hstore).1 (hframed.documents hsucceeds)⟩
      · intro hown
        refine ⟨fun _ q => ?_, fun _ => (changesWithin_storeDocument_iff hstore).2 hown.document,
          fun helsewhere => absurd helsewhere hown.participants⟩
        by_cases hprogram : q.2.tradeProgramId = program.id
        · exact Or.inr hprogram
        · -- a row of another program is of another registration
          have hmine : ∀ p ∈ w.leads.rows, p.2.registrationId = args.registrationId →
              p.2.tradeProgramId = program.id := by
            intro p hp hreg
            by_contra hne
            exact hown.participants ⟨p, hp, hreg, hne⟩
          left
          rw [hrows]
          constructor
          · rintro (⟨hq, -⟩ | ⟨p, hp, hreg, rfl⟩)
            · exact hq
            · exact absurd (hmine p hp hreg) hprogram
          · exact fun hq => Or.inl ⟨hq, fun hreg => hprogram (hmine q hq hreg)⟩

omit [ColumnDriver] in
theorem framed_rejected {registrationId : String} {succeeds : Prop} (hrejected : ¬ succeeds)
    (hleads : w'.leads = w.leads) (hdocuments : w'.documents = w.documents) :
    Framed program registrationId w w' succeeds :=
  ⟨fun h => absurd h hrejected, fun h => absurd h hrejected, fun _ => ⟨hrejected, hleads, hdocuments⟩⟩

/-- **Documents of one program.** A submission through the endpoint changes rows of its program only,
and rejects a registration of another program without a change, exactly when the registration is the
program's own or the submission is rejected for another reason. -/
theorem submission_framed_iff (configured : Bool) (form : EligibilityForm) (o : SubmitOutside)
    (hflushed : Flushed w.leads) (hslug : getProgramBySlug programs (strip slug) = some program) :
    Framed program form.args.registrationId w
        (submitEligibilityDocument configured programs slug form o w).1
        (∃ r, (submitEligibilityDocument configured programs slug form o w).2 = .ok r) ↔
      (form.body.size ≤ maxDocumentSizeBytes → Accepted configured program form.args o w.leads →
        OwnRegistration program form.args o w) := by
  by_cases hsize : form.body.size > maxDocumentSizeBytes
  · have hcall : submitEligibilityDocument configured programs slug form o w =
        (w, .error (.tooLarge "File too large")) := by
      simp [submitEligibilityDocument, hslug, hsize]
    rw [hcall]
    exact iff_of_true (framed_rejected (by simp) rfl rfl) fun hle => absurd hsize hle.not_gt
  by_cases haccepted : Accepted configured program form.args o w.leads
  · obtain ⟨document, status, hok⟩ := submitDocument_accepted hflushed haccepted
    have hcall : submitEligibilityDocument configured programs slug form o w =
        ((submitDocument configured program form.args o w).1, .ok (document, status)) := by
      simp only [submitEligibilityDocument, hslug, hsize, if_false]
      generalize submitDocument configured program form.args o w = r at hok ⊢
      obtain ⟨w', r⟩ := r
      cases hok
      rfl
    rw [hcall, framed_accepted_iff (submitDocument_writes configured program form.args o hflushed)
      haccepted ⟨_, rfl⟩]
    exact ⟨fun h _ _ => h, fun h => h (not_lt.1 hsize) haccepted⟩
  · obtain ⟨e, herror⟩ := submitDocument_not_accepted haccepted
    have hcall : submitEligibilityDocument configured programs slug form o w =
        (w, .error (.submission e)) := by
      simp only [submitEligibilityDocument, hslug, hsize, if_false]
      have hsame := submitDocument_rejected haccepted
      generalize submitDocument configured program form.args o w = r at herror hsame ⊢
      obtain ⟨w', r⟩ := r
      cases herror
      cases hsame
      rfl
    rw [hcall]
    exact iff_of_true (framed_rejected (by simp) rfl rfl) fun _ h => absurd h haccepted

end Driver

attribute [local instance] plainDriver

/-- Ada uploads her certificate through the form. -/
def adaForm : EligibilityForm :=
  ⟨" r-ada ", "cac", some "certificate.pdf", some "application/pdf", .empty, "0badf00d"⟩

/-- A second program that asks for the same document. -/
def expo : TradeProgram := { launchpad with id := 2, slug := "expo" }

/-- Ada has registered with the first program. -/
def adaRegistered : DocumentWorld :=
  { emptyDesk with
    leads := (captureRegistration asciiLower [launchpad, expo] "launchpad" adaAlone "r-ada"
      emptyDesk.leads).1 }

theorem adaRegistered_desk : Desk asciiLower adaRegistered :=
  desk_register [launchpad, expo] "launchpad" adaAlone (desk_empty asciiLower) (fresh_empty "r-ada")

/-- Her upload stays within the first program. -/
theorem ada_submission_framed :
    Framed launchpad "r-ada" adaRegistered
      (submitEligibilityDocument true [launchpad, expo] "launchpad" adaForm ⟨true, true, 0⟩
        adaRegistered).1
      (∃ r, (submitEligibilityDocument true [launchpad, expo] "launchpad" adaForm ⟨true, true, 0⟩
        adaRegistered).2 = .ok r) := by
  apply (submission_framed_iff true adaForm ⟨true, true, 0⟩ adaRegistered_desk.flushed rfl).2
  intro _ _
  refine ⟨?_, fun d hd => ?_⟩
  · rintro ⟨q, hq, -, hprogram⟩
    obtain ⟨p, hrows, hp⟩ : ∃ p, adaRegistered.leads.rows = [p] ∧ p.2.tradeProgramId = launchpad.id :=
      ⟨_, rfl, rfl⟩
    rw [hrows, List.mem_singleton] at hq
    exact hprogram (hq ▸ hp)
  · cases hd

/-- Through the second program the same form is accepted, and writes Ada's row of the first. -/
theorem other_program_not_framed :
    ¬ Framed expo "r-ada" adaRegistered
      (submitEligibilityDocument true [launchpad, expo] "expo" adaForm ⟨true, true, 0⟩
        adaRegistered).1
      (∃ r, (submitEligibilityDocument true [launchpad, expo] "expo" adaForm ⟨true, true, 0⟩
        adaRegistered).2 = .ok r) := by
  intro h
  obtain ⟨p, hrows, hreg, hprogram⟩ : ∃ p, adaRegistered.leads.rows = [p] ∧
      p.2.registrationId = "r-ada" ∧ p.2.tradeProgramId = 1 := ⟨_, rfl, rfl, rfl⟩
  have helsewhere : BelongsElsewhere expo "r-ada" adaRegistered.leads := by
    refine ⟨p, by rw [hrows]; exact List.mem_singleton_self p, hreg, ?_⟩
    rw [hprogram]
    decide
  exact (h.elsewhere helsewhere).1 ⟨_, rfl⟩

end SalesTrades.Trade
