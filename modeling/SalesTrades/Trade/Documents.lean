import Mathlib.Data.Finset.Basic
import SalesTrades.Trade.Capture

/-!
# Eligibility documents

The `trade_documents` table, the object storage as the set of its keys, and `submit_document`. The
roll-up `computeEligibilityStatus` is a function of the set of keys that are in; it only rises when
documents are added (`rank_compute_le`).
-/

set_option autoImplicit false

namespace SalesTrades.Trade

open SalesTrades.Library

/-! ## Documents -/

/-- A row of `trade_documents`, and an instance of it in a session. -/
structure TradeDocument where
  tradeProgramId : Nat
  registrationId : String
  documentKey : String
  storageKey : String
  fileName : String
  contentType : Option String
  sizeBytes : Nat
  uploadedAt : Int

/-- `idx_trade_documents_registration_key`, unique on registration and document key. -/
def TradeDocument.registrationKey (d : TradeDocument) : Option (String × String) :=
  some (d.registrationId, d.documentKey)

abbrev TradeDocuments := Table TradeDocument.registrationKey

/-- A document with its row id. -/
abbrev DocumentRow := Nat × TradeDocument

/-- The row after a session that loaded `loaded` flushes `new` onto `current`. -/
def TradeDocument.write (loaded new current : TradeDocument) : TradeDocument where
  tradeProgramId := dirtyWrite loaded.tradeProgramId new.tradeProgramId current.tradeProgramId
  registrationId := dirtyWrite loaded.registrationId new.registrationId current.registrationId
  documentKey := dirtyWrite loaded.documentKey new.documentKey current.documentKey
  storageKey := dirtyWrite loaded.storageKey new.storageKey current.storageKey
  fileName := dirtyWrite loaded.fileName new.fileName current.fileName
  contentType := dirtyWrite loaded.contentType new.contentType current.contentType
  sizeBytes := dirtyWrite loaded.sizeBytes new.sizeBytes current.sizeBytes
  uploadedAt := dirtyWrite loaded.uploadedAt new.uploadedAt current.uploadedAt

@[simp]
theorem TradeDocument.write_current_loaded (loaded new : TradeDocument) :
    loaded.write new loaded = new := by
  simp [TradeDocument.write]

def listDocuments (t : TradeDocuments) (registrationId : String) : List DocumentRow :=
  (t.select fun d => d.registrationId == registrationId).insertionSort
    fun a b => a.2.documentKey ≤ b.2.documentKey

def getDocument (t : TradeDocuments) (registrationId documentKey : String) : Option DocumentRow :=
  t.first fun d => d.registrationId == registrationId && d.documentKey == documentKey

/-- `upsert_document` of a new instance. -/
def createDocument (t : TradeDocuments) (document : TradeDocument) :
    Except PyError (DocumentRow × TradeDocuments) :=
  match t.insert document with
  | none => .error .integrityError
  | some (id, t') => .ok ((id, document), t')

/-- `upsert_document` of an instance that was loaded as `loaded`. -/
def updateDocument (t : TradeDocuments) (loaded : DocumentRow) (document : TradeDocument) :
    Except PyError (DocumentRow × TradeDocuments) :=
  match t.get? loaded.1 with
  | none => .error .staleDataError
  | some (_, current) =>
      match t.update loaded.1 (loaded.2.write document current) with
      | none => .error .integrityError
      | some t' => .ok ((loaded.1, loaded.2.write document current), t')

/-- The keys of the documents that are in for the registration. -/
def presentKeys (t : TradeDocuments) (registrationId : String) : Finset String :=
  ((listDocuments t registrationId).map fun d => d.2.documentKey).toFinset

/-! ## The roll-up -/

def documentKeys (program : TradeProgram) : Finset String :=
  (program.config.requiredDocuments.map RequiredDocument.key).toFinset

def requiredKeys (program : TradeProgram) : Finset String :=
  ((program.config.requiredDocuments.filter fun d => d.required.truthy).map
    RequiredDocument.key).toFinset

def computeEligibilityStatus (present : Finset String) (program : TradeProgram) :
    EligibilityStatus :=
  let required := requiredKeys program
  if present = ∅ then .notRequested
  else if required ≠ ∅ ∧ required ⊆ present then .submitted
  else if required = ∅ then .submitted
  -- some but not all required documents are in
  else .pending

/-- The new values of a participant. -/
def rolledUp (status : EligibilityStatus) (now : Int) (lead : TradeLead) : TradeLead :=
  { lead with
    eligibilityStatus := status
    eligibilitySubmittedAt :=
      if status = .submitted ∧ lead.eligibilitySubmittedAt = none then some now
      else lead.eligibilitySubmittedAt }

/-- The loop over the participants, each with a commit of its own. -/
def rollUp [ColumnDriver] (status : EligibilityStatus) (now : Int) :
    List Participant → TradeLeads → TradeLeads × Except PyError Unit
  | [], t => (t, .ok ())
  | lead :: leads, t =>
      match updateLead t lead (rolledUp status now lead.2) with
      | .error e => (t, .error e)
      | .ok (_, t') => rollUp status now leads t'

/-! ## Submission -/

/-- The arguments of `submit_document`, and the `uuid4` digits that name its object. -/
structure DocumentArgs where
  registrationId : String
  documentKey : String
  fileName : String
  contentType : Option String
  body : ByteArray
  suffix : String

/-- The domain errors of a submission with their texts, and what else leaves it. -/
inductive SubmitError where
  | unknownDocumentKey (detail : String)
  | registrationNotFound (detail : String)
  | storageNotConfigured (detail : String)
  /-- The request to the storage has failed. -/
  | storage
  /-- The connection to the database is lost. -/
  | connection
  | python (e : PyError)

/-- The part of a file name after its last dot, with the dot. -/
def extension (fileName : String) : String :=
  if '.' ∈ fileName.toList then
    "." ++ String.ofList ((fileName.toList.reverse.takeWhile fun c => c != '.').reverse)
  else ""

def buildStorageKey (programSlug registrationId documentKey fileName suffix : String) : String :=
  s!"{programSlug}/{registrationId}/{documentKey}-{suffix}{extension fileName}"

/-- The key of the object that the call uploads. -/
def DocumentArgs.storageKey (args : DocumentArgs) (program : TradeProgram) : String :=
  buildStorageKey program.slug args.registrationId args.documentKey args.fileName args.suffix

/-- The participants, the document rows, and the keys of the stored objects. -/
structure DocumentWorld where
  leads : TradeLeads
  documents : TradeDocuments
  storage : Finset String

/-- The new instance of a first upload. -/
def newDocument (program : TradeProgram) (args : DocumentArgs) (now : Int) : TradeDocument where
  tradeProgramId := program.id
  registrationId := args.registrationId
  documentKey := args.documentKey
  storageKey := args.storageKey program
  fileName := args.fileName
  contentType := args.contentType
  sizeBytes := args.body.size
  uploadedAt := now

/-- The new values of a row whose file is replaced. -/
def replacedDocument (program : TradeProgram) (args : DocumentArgs) (now : Int)
    (existing : TradeDocument) : TradeDocument :=
  { existing with
    storageKey := args.storageKey program
    fileName := args.fileName
    contentType := args.contentType
    sizeBytes := args.body.size
    uploadedAt := now }

/-- The commit of the document's row. -/
def storeDocument (program : TradeProgram) (args : DocumentArgs) (now : Int)
    (existing : Option DocumentRow) (t : TradeDocuments) :
    Except PyError (DocumentRow × TradeDocuments) :=
  match existing with
  | none => createDocument t (newDocument program args now)
  | some loaded => updateDocument t loaded (replacedDocument program args now loaded.2)

/-- What a call meets outside: whether the upload and the deletion of the old object go through, and
the clock. -/
structure SubmitOutside where
  uploads : Bool
  deletes : Bool
  now : Int

/-- The keys after the upload, and after the deletion of the object that is replaced. -/
def replaceObject (storage : Finset String) (storageKey : String) (existing : Option DocumentRow)
    (deletes : Bool) : Finset String :=
  match existing with
  | none => insert storageKey storage
  | some old =>
      if deletes = true then (insert storageKey storage).erase old.2.storageKey
      else insert storageKey storage

/-- `submit_document`, run on its own. `configured` says whether the storage has credentials. -/
def submitDocument [ColumnDriver] (configured : Bool) (program : TradeProgram) (args : DocumentArgs)
    (o : SubmitOutside) (w : DocumentWorld) :
    DocumentWorld × Except SubmitError (DocumentRow × EligibilityStatus) :=
  if args.documentKey ∉ documentKeys program then
    (w, .error (.unknownDocumentKey
      s!"'{args.documentKey}' is not a required document for {program.slug}"))
  else
    match listByRegistration w.leads args.registrationId with
    | [] => (w, .error (.registrationNotFound s!"no registration '{args.registrationId}'"))
    | lead :: leads =>
        if configured = false then
          (w, .error (.storageNotConfigured "Supabase S3 credentials are not configured"))
        else if o.uploads = false then (w, .error .storage)
        else
          let existing := getDocument w.documents args.registrationId args.documentKey
          let storage := replaceObject w.storage (args.storageKey program) existing o.deletes
          match storeDocument program args o.now existing w.documents with
          | .error e => (⟨w.leads, w.documents, storage⟩, .error (.python e))
          | .ok (document, documents) =>
              let status :=
                computeEligibilityStatus (presentKeys documents args.registrationId) program
              match rollUp status o.now (lead :: leads) w.leads with
              | (t, .error e) => (⟨t, documents, storage⟩, .error (.python e))
              | (t, .ok ()) => (⟨t, documents, storage⟩, .ok (document, status))

/-! ## What the roll-up says -/

variable {program : TradeProgram} {present present' : Finset String}

theorem computeEligibilityStatus_eq (present : Finset String) (program : TradeProgram) :
    computeEligibilityStatus present program =
      if present = ∅ then .notRequested
      else if requiredKeys program ⊆ present then .submitted else .pending := by
  unfold computeEligibilityStatus
  by_cases hrequired : requiredKeys program = ∅
  · simp [hrequired]
  · simp [hrequired]

/-- Nothing has been requested until a document is in. -/
theorem computeEligibilityStatus_eq_notRequested_iff :
    computeEligibilityStatus present program = .notRequested ↔ present = ∅ := by
  rw [computeEligibilityStatus_eq]
  split
  · simp_all
  · split <;> simp_all

/-- How far a registration has come with its documents. -/
def EligibilityStatus.rank : EligibilityStatus → Nat
  | .notRequested => 0
  | .pending => 1
  | .submitted => 2
  | .approved => 3
  | .rejected => 4

/-- A document more never moves the status back. -/
theorem rank_compute_le (h : present ⊆ present') :
    (computeEligibilityStatus present program).rank ≤
      (computeEligibilityStatus present' program).rank := by
  rw [computeEligibilityStatus_eq, computeEligibilityStatus_eq]
  by_cases hempty : present = ∅
  · rw [if_pos hempty]
    apply Nat.zero_le
  · have hempty' : present' ≠ ∅ := fun h' => hempty (Finset.subset_empty.1 (h' ▸ h))
    rw [if_neg hempty, if_neg hempty']
    by_cases hrequired : requiredKeys program ⊆ present
    · rw [if_pos hrequired, if_pos (hrequired.trans h)]
    · rw [if_neg hrequired]
      split <;> simp [EligibilityStatus.rank]

theorem EligibilityStatus.rank_injective : Function.Injective EligibilityStatus.rank := by
  intro a b h
  cases a <;> cases b <;> first | rfl | cases h

/-! ## What the queries and the commits do -/

variable {t t' : TradeDocuments} {registrationId documentKey : String}

theorem mem_presentKeys : documentKey ∈ presentKeys t registrationId ↔
    ∃ d ∈ t.rows, d.2.registrationId = registrationId ∧ d.2.documentKey = documentKey := by
  simp only [presentKeys, listDocuments, List.mem_toFinset, List.mem_map, List.mem_insertionSort,
    Table.mem_select, beq_iff_eq]
  constructor
  · rintro ⟨d, ⟨hd, hreg⟩, hkey⟩
    exact ⟨d, hd, hreg, hkey⟩
  · rintro ⟨d, hd, hreg, hkey⟩
    exact ⟨d, ⟨hd, hreg⟩, hkey⟩

theorem getDocument_eq_some {d : DocumentRow} (h : getDocument t registrationId documentKey = some d) :
    d ∈ t.rows ∧ d.2.registrationId = registrationId ∧ d.2.documentKey = documentKey := by
  obtain ⟨hd, hkey⟩ := Table.mem_of_first h
  simp only [Bool.and_eq_true, beq_iff_eq] at hkey
  exact ⟨hd, hkey⟩

theorem getDocument_eq_none (h : getDocument t registrationId documentKey = none) :
    ∀ d ∈ t.rows, ¬ (d.2.registrationId = registrationId ∧ d.2.documentKey = documentKey) := by
  intro d hd hkey
  have := Table.first_eq_none_iff.1 h d hd
  simp [hkey] at this

theorem createDocument_ok {document : TradeDocument} {d : DocumentRow}
    (h : createDocument t document = .ok (d, t')) :
    d.2 = document ∧ t.insert document = some (d.1, t') := by
  unfold createDocument at h
  split at h
  · cases h
  · rename_i hinsert
    cases h
    exact ⟨rfl, hinsert⟩

theorem updateDocument_ok {document : TradeDocument} {loaded d : DocumentRow}
    (h : updateDocument t loaded document = .ok (d, t')) :
    ∃ current, (loaded.1, current) ∈ t.rows ∧ d = (loaded.1, loaded.2.write document current) ∧
      t.update loaded.1 d.2 = some t' := by
  unfold updateDocument at h
  split at h
  · cases h
  · rename_i current hget
    obtain ⟨hmem, hid⟩ := Table.mem_of_get? hget
    split at h
    · cases h
    · rename_i hupdate
      cases h
      exact ⟨current, hid ▸ hmem, rfl, hupdate⟩

/-- The instance a call has loaded stands for the row it writes: the row has kept its place. -/
def InPlace (args : DocumentArgs) (t : TradeDocuments) (existing : Option DocumentRow) : Prop :=
  ∀ old, existing = some old →
    old.2.registrationId = args.registrationId ∧ old.2.documentKey = args.documentKey ∧
    ∃ current, (old.1, current) ∈ t.rows ∧ current.registrationId = args.registrationId ∧
      current.documentKey = args.documentKey

theorem inPlace_getDocument (args : DocumentArgs) (t : TradeDocuments) :
    InPlace args t (getDocument t args.registrationId args.documentKey) := by
  intro old hold
  obtain ⟨hmem, hreg, hkey⟩ := getDocument_eq_some hold
  exact ⟨hreg, hkey, old.2, hmem, hreg, hkey⟩

theorem InPlace.write (program : TradeProgram) {args : DocumentArgs} {old : DocumentRow} (now : Int)
    (h : InPlace args t (some old)) {current : TradeDocument} (hcurrent : (old.1, current) ∈ t.rows) :
    (old.2.write (replacedDocument program args now old.2) current).registrationId =
        args.registrationId ∧
      (old.2.write (replacedDocument program args now old.2) current).documentKey =
        args.documentKey ∧
      current.registrationId = args.registrationId ∧ current.documentKey = args.documentKey := by
  obtain ⟨-, -, current', hmem, hreg, hkey⟩ := h old rfl
  obtain rfl : current' = current := congrArg Prod.snd (t.eq_of_id hmem hcurrent rfl)
  exact ⟨by simpa [TradeDocument.write, replacedDocument] using hreg,
    by simpa [TradeDocument.write, replacedDocument] using hkey, hreg, hkey⟩

/-- The commit of a document writes one row, under the registration and key of the call. -/
theorem storeDocument_ok {args : DocumentArgs} {now : Int} {existing : Option DocumentRow}
    {d : DocumentRow} (hplace : InPlace args t existing)
    (h : storeDocument program args now existing t = .ok (d, t')) :
    d ∈ t'.rows ∧ Table.SameExcept d.1 t t' ∧ d.2.registrationId = args.registrationId ∧
      d.2.documentKey = args.documentKey ∧
      ∀ q ∈ t.rows, q.1 = d.1 → q.2.registrationId = args.registrationId ∧
        q.2.documentKey = args.documentKey := by
  cases existing with
  | none =>
      obtain ⟨hd, hinsert⟩ := createDocument_ok h
      refine ⟨(Table.mem_of_insert hinsert).2 (Or.inr ?_), Table.sameExcept_insert hinsert, ?_, ?_, ?_⟩
      · rw [← hd]
      · rw [hd]
        rfl
      · rw [hd]
        rfl
      · intro q hq hid
        exact absurd (hid.trans (Table.insert_eq_some hinsert).1) (t.id_lt q hq).ne
  | some old =>
      obtain ⟨current, hcurrent, rfl, hupdate⟩ := updateDocument_ok h
      obtain ⟨hreg, hkey, hcreg, hckey⟩ := hplace.write program now hcurrent
      refine ⟨(Table.mem_of_update hupdate).2 (Or.inr ⟨rfl, current, hcurrent⟩),
        Table.sameExcept_update hupdate, hreg, hkey, fun q hq hid => ?_⟩
      rw [t.eq_of_id hq hcurrent hid]
      exact ⟨hcreg, hckey⟩

/-- It adds the key of the call to the registration, and nothing else. -/
theorem mem_presentKeys_store {args : DocumentArgs} {now : Int} {existing : Option DocumentRow}
    {d : DocumentRow} (hplace : InPlace args t existing)
    (h : storeDocument program args now existing t = .ok (d, t')) :
    documentKey ∈ presentKeys t' registrationId ↔ documentKey ∈ presentKeys t registrationId ∨
      (args.registrationId = registrationId ∧ args.documentKey = documentKey) := by
  obtain ⟨hd, hsame, hdreg, hdkey, hold⟩ := storeDocument_ok hplace h
  rw [mem_presentKeys, mem_presentKeys]
  constructor
  · rintro ⟨q, hq, hreg, hkey⟩
    by_cases hid : q.1 = d.1
    · rw [t'.eq_of_id hq hd hid] at hreg hkey
      exact Or.inr ⟨hdreg.symm.trans hreg, hdkey.symm.trans hkey⟩
    · exact Or.inl ⟨q, (hsame q hid).1 hq, hreg, hkey⟩
  · rintro (⟨q, hq, hreg, hkey⟩ | ⟨hreg, hkey⟩)
    · by_cases hid : q.1 = d.1
      · obtain ⟨hqreg, hqkey⟩ := hold q hq hid
        exact ⟨d, hd, hdreg.trans (hqreg.symm.trans hreg), hdkey.trans (hqkey.symm.trans hkey)⟩
      · exact ⟨q, (hsame q hid).2 hq, hreg, hkey⟩
    · exact ⟨d, hd, hdreg.trans hreg, hdkey.trans hkey⟩

/-- The index rejects the commit only when a first upload comes second. -/
theorem exists_storeDocument (program : TradeProgram) {args : DocumentArgs}
    {existing : Option DocumentRow} (now : Int)
    (hplace : InPlace args t existing)
    (hfree : existing = none → args.documentKey ∉ presentKeys t args.registrationId) :
    ∃ d t', storeDocument program args now existing t = .ok (d, t') := by
  cases existing with
  | none =>
      cases hinsert : t.insert (newDocument program args now) with
      | some r => exact ⟨(r.1, newDocument program args now), r.2, by
          simp only [storeDocument, createDocument, hinsert]⟩
      | none =>
          obtain ⟨q, hq, k, hk, hqk⟩ := Table.insert_eq_none_iff.1 hinsert
          obtain ⟨hreg, hkey⟩ := Prod.mk.inj (Option.some.inj (hqk.trans hk.symm))
          exact absurd (mem_presentKeys.2 ⟨q, hq, hreg, hkey⟩) (hfree rfl)
  | some old =>
      obtain ⟨-, -, current, hcurrent, -⟩ := hplace old rfl
      obtain ⟨hreg, hkey, hcreg, hckey⟩ := hplace.write program now hcurrent
      have hsame : (old.2.write (replacedDocument program args now old.2) current).registrationKey =
          current.registrationKey := by
        simp only [TradeDocument.registrationKey, hreg, hkey, hcreg, hckey]
      obtain ⟨t', hupdate⟩ := Table.exists_update_of_key_eq hcurrent hsame
      exact ⟨(old.1, old.2.write (replacedDocument program args now old.2) current), t', by
        simp only [storeDocument, updateDocument, Table.get?_eq_some_iff.2 hcurrent, hupdate]⟩

/-! ## The loop over the participants -/

section Driver

variable [ColumnDriver] {leads leads' : TradeLeads} {status : EligibilityStatus} {now : Int}

theorem rolledUp_flush {l : TradeLead} (h : l.flush = some l) :
    (rolledUp status now l).flush = some (rolledUp status now l) := by
  have hstored := flush_eq_self_iff.1 h
  exact flush_eq_self_iff.2 hstored

/-- Every participant of the list gets the status, and nothing else changes. -/
theorem rollUp_spec {ps : List Participant} (hsub : ∀ p ∈ ps, p ∈ leads.rows)
    (hnodup : (ps.map Prod.fst).Nodup) (hflush : ∀ p ∈ ps, p.2.flush = some p.2) :
    ∃ leads', rollUp status now ps leads = (leads', .ok ()) ∧ leads'.nextId = leads.nextId ∧
      ∀ q, q ∈ leads'.rows ↔ (q ∈ leads.rows ∧ q.1 ∉ ps.map Prod.fst) ∨
        ∃ p ∈ ps, q = (p.1, rolledUp status now p.2) := by
  induction ps generalizing leads with
  | nil => exact ⟨leads, rfl, rfl, by simp⟩
  | cons p ps ih =>
      obtain ⟨hp, hps⟩ := List.forall_mem_cons.1 hsub
      obtain ⟨hpflush, hpsflush⟩ := List.forall_mem_cons.1 hflush
      obtain ⟨hnot, hnodup⟩ := List.nodup_cons.1 hnodup
      have hrolled : (rolledUp status now p.2).flush = some (rolledUp status now p.2) :=
        rolledUp_flush hpflush
      obtain ⟨leads₁, hcall, hupdate⟩ := updateLead_keyed hp hrolled rfl rfl
      have hne : ∀ q ∈ ps, q.1 ≠ p.1 := fun q hq hid => hnot (List.mem_map.2 ⟨q, hq, hid⟩)
      -- the rest of the list is still as it was loaded
      obtain ⟨leads', hrest, hnext, hrows⟩ := ih
        (fun q hq => (Table.mem_of_update hupdate).2 (Or.inl ⟨hps q hq, hne q hq⟩)) hnodup hpsflush
      refine ⟨leads', by simp only [rollUp, hcall, hrest],
        hnext.trans (Table.update_eq_some hupdate).2, fun q => ?_⟩
      rw [hrows, Table.mem_of_update hupdate]
      simp only [List.map_cons, List.mem_cons, not_or, exists_eq_or_imp]
      constructor
      · rintro (⟨⟨hq, hid⟩ | ⟨rfl, -⟩, hrest⟩ | hq)
        · exact Or.inl ⟨hq, hid, hrest⟩
        · exact Or.inr (Or.inl rfl)
        · exact Or.inr (Or.inr hq)
      · rintro (⟨hq, hid, hrest⟩ | rfl | hq)
        · exact Or.inl ⟨Or.inl ⟨hq, hid⟩, hrest⟩
        · exact Or.inl ⟨Or.inr ⟨rfl, p.2, hp⟩, hnot⟩
        · exact Or.inr hq

omit [ColumnDriver] in
theorem mem_listByRegistration {q : Participant} {registrationId : String} :
    q ∈ listByRegistration leads registrationId ↔
      q ∈ leads.rows ∧ q.2.registrationId = registrationId := by
  simp [listByRegistration, Table.mem_select]

omit [ColumnDriver] in
theorem nodup_listByRegistration (leads : TradeLeads) (registrationId : String) :
    ((listByRegistration leads registrationId).map Prod.fst).Nodup := by
  apply List.Nodup.map_on
  · exact fun a ha b hb => Table.eq_of_id (mem_listByRegistration.1 ha).1
      (mem_listByRegistration.1 hb).1
  · exact (List.perm_insertionSort _ _).nodup_iff.2 ((List.Nodup.of_map _ leads.nodup).filter _)

/-! ## A call that runs alone -/

/-- The submission gets past its checks, and its file is uploaded. -/
structure Accepted (configured : Bool) (program : TradeProgram) (args : DocumentArgs)
    (o : SubmitOutside) (t : TradeLeads) : Prop where
  key : args.documentKey ∈ documentKeys program
  registered : ∃ q ∈ t.rows, q.2.registrationId = args.registrationId
  configured : configured = true
  uploads : o.uploads = true

/-- What a submission leaves: the tables as they were, or the document stored and every participant of
the registration rolled up to the documents that are then in. -/
inductive SubmitWrites (configured : Bool) (program : TradeProgram) (args : DocumentArgs)
    (o : SubmitOutside) (w w' : DocumentWorld) : Prop where
  | nothing (hrejected : ¬ Accepted configured program args o w.leads)
      (hleads : w'.leads = w.leads) (hdocuments : w'.documents = w.documents)
  | stored {d : DocumentRow} (haccepted : Accepted configured program args o w.leads)
      (hstore : storeDocument program args o.now
        (getDocument w.documents args.registrationId args.documentKey) w.documents =
          .ok (d, w'.documents))
      (hnext : w'.leads.nextId = w.leads.nextId)
      (hrows : ∀ q, q ∈ w'.leads.rows ↔
        (q ∈ w.leads.rows ∧ q.2.registrationId ≠ args.registrationId) ∨
        ∃ p ∈ w.leads.rows, p.2.registrationId = args.registrationId ∧
          q = (p.1, rolledUp (computeEligibilityStatus
            (presentKeys w'.documents args.registrationId) program) o.now p.2))

theorem submitDocument_rejected {configured : Bool} {args : DocumentArgs} {o : SubmitOutside}
    {w : DocumentWorld} (h : ¬ Accepted configured program args o w.leads) :
    (submitDocument configured program args o w).1 = w := by
  unfold submitDocument
  split
  · rfl
  · rename_i hkey
    split
    · rfl
    · rename_i lead ps hlist
      have hlead : lead ∈ listByRegistration w.leads args.registrationId := by
        rw [hlist]
        exact List.mem_cons_self ..
      obtain ⟨hmem, hreg⟩ := mem_listByRegistration.1 hlead
      split
      · rfl
      · rename_i hconfigured
        split
        · rfl
        · rename_i huploads
          exact absurd ⟨not_not.1 hkey, ⟨lead, hmem, hreg⟩, (Bool.not_eq_false _).mp hconfigured,
            (Bool.not_eq_false _).mp huploads⟩ h

/-- The roll-up over the participants that a registration has. -/
theorem rollUp_registration (registrationId : String) (status : EligibilityStatus) (now : Int)
    (hflushed : Flushed leads) :
    ∃ leads', rollUp status now (listByRegistration leads registrationId) leads =
        (leads', .ok ()) ∧ leads'.nextId = leads.nextId ∧
      ∀ q, q ∈ leads'.rows ↔ (q ∈ leads.rows ∧ q.2.registrationId ≠ registrationId) ∨
        ∃ p ∈ leads.rows, p.2.registrationId = registrationId ∧
          q = (p.1, rolledUp status now p.2) := by
  obtain ⟨leads', hroll, hnext, hrows⟩ := rollUp_spec
    (fun p hp => (mem_listByRegistration.1 hp).1) (nodup_listByRegistration leads registrationId)
    fun p hp => hflushed p (mem_listByRegistration.1 hp).1
  have hids : ∀ q ∈ leads.rows, q.1 ∉ (listByRegistration leads registrationId).map Prod.fst ↔
      q.2.registrationId ≠ registrationId := by
    intro q hq
    rw [not_iff_not, List.mem_map]
    constructor
    · rintro ⟨p, hp, hid⟩
      obtain ⟨hp, hreg⟩ := mem_listByRegistration.1 hp
      rw [← leads.eq_of_id hp hq hid]
      exact hreg
    · exact fun hreg => ⟨q, mem_listByRegistration.2 ⟨hq, hreg⟩, rfl⟩
  refine ⟨leads', hroll, hnext, fun q => (hrows q).trans (or_congr ?_ ?_)⟩
  · exact and_congr_right (hids q)
  · simp only [mem_listByRegistration, and_assoc]

theorem submitDocument_writes (configured : Bool) (program : TradeProgram) (args : DocumentArgs)
    (o : SubmitOutside) {w : DocumentWorld} (hflushed : Flushed w.leads) :
    SubmitWrites configured program args o w (submitDocument configured program args o w).1 := by
  by_cases haccepted : Accepted configured program args o w.leads
  · obtain ⟨d, documents, hstore⟩ := exists_storeDocument program o.now
      (inPlace_getDocument args w.documents) fun hnone hin => by
        obtain ⟨q, hq, hqkey⟩ := mem_presentKeys.1 hin
        exact getDocument_eq_none hnone q hq hqkey
    obtain ⟨leads', hroll, hnext, hrows⟩ := rollUp_registration args.registrationId
      (computeEligibilityStatus (presentKeys documents args.registrationId) program) o.now hflushed
    have hcall : (submitDocument configured program args o w).1 =
        ⟨leads', documents, replaceObject w.storage (args.storageKey program)
          (getDocument w.documents args.registrationId args.documentKey) o.deletes⟩ := by
      obtain ⟨q, hq, hreg⟩ := haccepted.registered
      have hlisted := mem_listByRegistration.2 ⟨hq, hreg⟩
      cases hlist : listByRegistration w.leads args.registrationId with
      | nil =>
          rw [hlist] at hlisted
          cases hlisted
      | cons lead ps =>
          rw [hlist] at hroll
          simp [submitDocument, haccepted.key, haccepted.configured, haccepted.uploads, hlist,
            hstore, hroll]
    rw [hcall]
    exact .stored haccepted hstore hnext hrows
  · rw [submitDocument_rejected haccepted]
    exact .nothing haccepted rfl rfl

end Driver

end SalesTrades.Trade
