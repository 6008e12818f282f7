import SalesTrades.Trade.CaptureIdentity

/-!
# The import of participants from a sheet

The script `import_trade_leads.py`. It reads a sheet as `csv.DictReader` does (`readRows_eq_ok_iff`),
selects the rows that name a participant whose email the program does not have (`selectRows_ok`), and
then creates the selected rows one commit after another.
-/

set_option autoImplicit false

namespace SalesTrades.Transfer

open SalesTrades.Library SalesTrades.Trade

universe u

/-! ## Reading the sheet -/

/-- A row of the sheet, cleaned: the columns in the order of the header. -/
abbrev SheetRow : Type := List (String × String)

/-- How the script ends when it does not return. -/
inductive ImportError where
  /-- `SystemExit` with the columns. -/
  | missingColumns (columns : List String)
  | python (e : PyError)
  deriving DecidableEq

/-- `_REQUIRED_COLUMNS`. -/
def requiredColumns : List String := ["first_name", "last_name", "email"]

/-- `d[key] = value`. -/
def setItem {α : Type u} (d : List (String × α)) (key : String) (value : α) : List (String × α) :=
  if d.any fun m => m.1 == key then d.map fun m => if m.1 == key then (key, value) else m
  else d ++ [(key, value)]

/-- A record as `csv.DictReader` returns it: the columns of the header, `None` where the record is short,
and the cells past the header. -/
def dictRow (fieldnames cells : List String) : List (String × Option String) × List String :=
  let named := (fieldnames.zip cells).foldl (fun d m => setItem d m.1 (some m.2)) []
  ((fieldnames.drop cells.length).foldl (fun d key => setItem d key none) named,
    cells.drop fieldnames.length)

/-- `(v or "").strip()` on every column. -/
def cleanColumns (columns : List (String × Option String)) : SheetRow :=
  columns.map fun m => (m.1, strip (m.2.getD ""))

/-- `_clean_row`: cells past the header are a list, which has no `strip`. -/
def cleanRow : List (String × Option String) × List String → Except PyError SheetRow
  | (columns, []) => .ok (cleanColumns columns)
  | (_, _ :: _) => .error .attributeError

/-- `_read_rows`; `records` is what `csv.reader` yields, the header first. Blank lines are skipped. -/
def readRows (records : List (List String)) : Except ImportError (List SheetRow) :=
  let fieldnames := records.headD []
  let missing := requiredColumns.filter fun c => c ∉ fieldnames
  if missing = [] then
    match (records.tail.filter (· ≠ [])).mapM fun cells => cleanRow (dictRow fieldnames cells) with
    | .error e => .error (.python e)
    | .ok rows => .ok rows
  else .error (.missingColumns missing)

namespace SheetRow

/-- `row[key]`. -/
def item (row : SheetRow) (key : String) : Except PyError String :=
  match row.find? fun m => m.1 == key with
  | some m => .ok m.2
  | none => .error .keyError

/-- `row.get(key) or None`. -/
def orNone (row : SheetRow) (key : String) : Option String :=
  ((row.find? fun m => m.1 == key).map Prod.snd).filter (· ≠ "")

end SheetRow

/-! ## The run -/

/-- An instance of `TradeLead` as the script builds it. -/
structure SheetLead extends TradeLead where
  middleName : Option String

/-- `trade_leads`, with the column that only the scripts fill. -/
structure SheetDb where
  trade : TradeLeads
  middleNames : List (Nat × Option String)

/-- The database stores the texts of the row. -/
def SheetLead.isStorable (lead : SheetLead) : Bool :=
  lead.hasTexts && lead.middleName.all isText && lead.phone.isStorable && lead.jobTitle.isStorable &&
    sharedResponseKeys.all fun k => (lead.shared k).isStorable

/-- What PostgreSQL takes: a text as a parameter of a query, and the columns of a new row. It takes no
index entry or document that is too large. -/
structure SheetStore where
  takesText : String → Bool
  takesRow : SheetLead → Bool
  /-- Nor a NUL character. -/
  storable : ∀ lead, takesRow lead = true → lead.isStorable = true

/-- `PROGRAM_SLUG`. -/
def importProgramSlug : String := "export-launchpad-2026"

/-- The instance that is built from a row with these names and this email. -/
def buildLead (py : LowerCase) (programId : Nat) (uuid : String) (row : SheetRow)
    (firstName lastName email : String) : SheetLead where
  tradeProgramId := programId
  registrationId := "sheet-import-" ++ uuid
  participantIndex := 1
  isPrimary := true
  firstName := firstName
  middleName := row.orNone "middle_name"
  lastName := lastName
  email := py.lower email
  phone := Json.ofOption (row.orNone "phone")
  jobTitle := Json.ofOption (row.orNone "job_title")
  company := row.orNone "company"
  shared
    -- the script does not set these
    | .ownership | .sourceCountries | .salesCountries | .topicsOfInterest | .consentTerms
    | .consentDataProcessing | .consentLiabilityWaiver | .consentPhotoVideo => .null
    | k => Json.ofOption (row.orNone k.name)
  source := "sheet_import"
  tags := none
  capturedAt := none
  responses := .obj (row.map fun m => (m.1, .str m.2))
  crmSyncStatus := .pending
  crmSyncedAt := none
  crmContactId := none
  crmError := none
  eligibilityStatus := .notRequested
  reviewStatus := .pending
  reviewedAt := none
  reviewedBy := none

def sheetLead (py : LowerCase) (programId : Nat) (uuid : String) (row : SheetRow) :
    Except PyError SheetLead := do
  let firstName ← row.item "first_name"
  let lastName ← row.item "last_name"
  let email ← row.item "email"
  return buildLead py programId uuid row firstName lastName email

/-- What the loop over the rows has sorted them into. -/
structure Selection where
  toImport : List SheetRow
  skipped : List (SheetRow × String)
  existing : Nat

/-- What the script prints. -/
structure ImportReport where
  importable : Nat
  existing : Nat
  skipped : List (SheetRow × String)
  /-- Only with `--commit`. -/
  created : Option Nat
  deriving DecidableEq

section Run

variable (py : LowerCase) (store : SheetStore) (programId : Nat) (uuids : Nat → String)

/-- One pass of the first loop. -/
def selectRow (t : TradeLeads) (selection : Selection) (row : SheetRow) : Except PyError Selection := do
  let email := py.lower (← row.item "email")
  let firstName ← row.item "first_name"
  let lastName ← row.item "last_name"
  if firstName = "" ∨ lastName = "" ∨ email = "" then
    return { selection with
      skipped := selection.skipped ++ [(row, "missing first_name/last_name/email")] }
  else if store.takesText email then
    match getByProgramEmail t programId email with
    | some _ => return { selection with existing := selection.existing + 1 }
    | none => return { selection with toImport := selection.toImport ++ [row] }
  else throw .dataError

/-- `create_lead`. -/
def createSheetLead [ColumnDriver] (db : SheetDb) (lead : SheetLead) : Except PyError SheetDb :=
  if store.takesRow lead then
    match createLead db.trade lead.toTradeLead with
    | .error e => .error e
    | .ok (row, trade) => .ok ⟨trade, db.middleNames ++ [(row.1, lead.middleName)]⟩
  else .error .dataError

/-- The loop over `to_import`, with what is committed when it ends. -/
def importLoop [ColumnDriver] : Nat → List SheetRow → SheetDb → SheetDb × Except PyError Nat
  | created, [], db => (db, .ok created)
  | created, row :: rest, db =>
      match sheetLead py programId (uuids created) row >>= createSheetLead store db with
      | .error e => (db, .error e)
      | .ok db' => importLoop (created + 1) rest db'

end Run

/-- `run`. It returns without a report where the program is not found. -/
def runImport [ColumnDriver] (py : LowerCase) (store : SheetStore) (programs : List TradeProgram)
    (uuids : Nat → String) (commit : Bool) (records : List (List String)) (db : SheetDb) :
    SheetDb × Except ImportError (Option ImportReport) :=
  match readRows records with
  | .error e => (db, .error e)
  | .ok rows =>
      match getProgramBySlug programs importProgramSlug with
      | none => (db, .ok none)
      | some program =>
          match rows.foldlM (selectRow py store program.id db.trade) ⟨[], [], 0⟩ with
          | .error e => (db, .error (.python e))
          | .ok selection =>
              let report := ImportReport.mk selection.toImport.length selection.existing
                selection.skipped
              if commit then
                match importLoop py store program.id uuids 0 selection.toImport db with
                | (db', .error e) => (db', .error (.python e))
                | (db', .ok created) => (db', .ok (some (report (some created))))
              -- the dry run
              else (db, .ok (some (report none)))

/-! ## What is read -/

/-- The text of a column. -/
def SheetRow.text (row : SheetRow) (key : String) : String :=
  ((row.find? fun m => m.1 == key).map Prod.snd).getD ""

/-- The row has the required columns. -/
def SheetRow.Complete (row : SheetRow) : Prop := ∀ c ∈ requiredColumns, c ∈ row.map Prod.fst

/-- The rows of a sheet, whether it can be read or not. -/
def sheetRows (records : List (List String)) : List SheetRow :=
  (records.tail.filter (· ≠ [])).map fun cells =>
    cleanColumns (dictRow (records.headD []) cells).1

section Reading

variable {α : Type u} {key : String} {row : SheetRow}

theorem item_eq (h : key ∈ row.map Prod.fst) : row.item key = .ok (row.text key) := by
  obtain ⟨m, hm, rfl⟩ := List.mem_map.1 h
  have hfound : (row.find? fun n => n.1 == m.1).isSome = true :=
    List.find?_isSome.2 ⟨m, hm, beq_self_eq_true _⟩
  obtain ⟨n, hn⟩ := Option.isSome_iff_exists.1 hfound
  rw [SheetRow.item, SheetRow.text, hn]
  rfl

theorem mem_keys_setItem {d : List (String × α)} {k : String} {value : α} :
    key ∈ (setItem d k value).map Prod.fst ↔ key ∈ d.map Prod.fst ∨ key = k := by
  rw [setItem]
  split
  · rename_i hany
    have hkeys : (d.map fun m => if m.1 == k then (k, value) else m).map Prod.fst = d.map Prod.fst := by
      rw [List.map_map]
      apply List.map_congr_left
      intro m _
      by_cases hm : m.1 = k <;> simp [hm]
    obtain ⟨m, hm, hmk⟩ := List.any_eq_true.1 hany
    rw [hkeys]
    refine (or_iff_left_of_imp ?_).symm
    rintro rfl
    exact List.mem_map.2 ⟨m, hm, eq_of_beq hmk⟩
  · rw [List.map_append, List.mem_append, List.map_singleton, List.mem_singleton]

theorem mem_keys_foldl_setItem {β : Type u} (f : β → String) (g : β → α) (xs : List β)
    (d : List (String × α)) :
    key ∈ (xs.foldl (fun d x => setItem d (f x) (g x)) d).map Prod.fst ↔
      key ∈ d.map Prod.fst ∨ key ∈ xs.map f := by
  induction xs generalizing d with
  | nil => simp
  | cons x xs ih => rw [List.foldl_cons, ih, mem_keys_setItem, List.map_cons, List.mem_cons, or_assoc]

/-- A column is filled from the record, or past its end. -/
theorem mem_zip_or_drop {keys cells : List String} (h : key ∈ keys) :
    key ∈ (keys.zip cells).map Prod.fst ∨ key ∈ keys.drop cells.length := by
  induction keys generalizing cells with
  | nil => cases h
  | cons k keys ih =>
      cases cells with
      | nil => exact Or.inr h
      | cons cell cells =>
          rw [List.zip_cons_cons, List.map_cons, List.mem_cons, List.length_cons,
            List.drop_succ_cons]
          rcases List.mem_cons.1 h with rfl | hlater
          · exact Or.inl (Or.inl rfl)
          · exact (ih hlater).imp Or.inr id

/-- A record has every column of the header. -/
theorem mem_keys_dictRow {fieldnames : List String} (cells : List String) (h : key ∈ fieldnames) :
    key ∈ (cleanColumns (dictRow fieldnames cells).1).map Prod.fst := by
  have hkeys : (cleanColumns (dictRow fieldnames cells).1).map Prod.fst =
      (dictRow fieldnames cells).1.map Prod.fst := by
    rw [cleanColumns, List.map_map]
    rfl
  rw [hkeys, dictRow]
  dsimp only
  rw [mem_keys_foldl_setItem (fun k => k) (fun _ => none),
    mem_keys_foldl_setItem Prod.fst (fun m => some m.2)]
  have hplace : key ∈ (fieldnames.zip cells).map Prod.fst ∨ key ∈ fieldnames.drop cells.length :=
    mem_zip_or_drop h
  rcases hplace with hzip | hdrop
  · exact Or.inl (Or.inr hzip)
  · exact Or.inr (by rwa [List.map_id'])

theorem complete_of_mem {records : List (List String)}
    (hcolumns : ∀ c ∈ requiredColumns, c ∈ records.headD []) :
    ∀ row ∈ sheetRows records, row.Complete := by
  intro row hrow c hc
  obtain ⟨cells, -, rfl⟩ := List.mem_map.1 hrow
  exact mem_keys_dictRow cells (hcolumns c hc)

/-- A record is cleaned unless it has cells past the header. -/
theorem cleanRow_eq_ok_iff {fieldnames cells : List String} :
    cleanRow (dictRow fieldnames cells) = .ok row ↔
      cells.length ≤ fieldnames.length ∧ row = cleanColumns (dictRow fieldnames cells).1 := by
  have hrest : (dictRow fieldnames cells).2 = cells.drop fieldnames.length := rfl
  cases hdict : dictRow fieldnames cells with
  | mk columns rest =>
      rw [hdict] at hrest
      dsimp only at hrest
      rw [← List.drop_eq_nil_iff, ← hrest]
      cases rest with
      | nil => simp [cleanRow, eq_comm]
      | cons cell rest => simp [cleanRow]

theorem mapM_cleanRow_eq_ok_iff {fieldnames : List String} {records : List (List String)}
    {rows : List SheetRow} :
    records.mapM (fun cells => cleanRow (dictRow fieldnames cells)) = .ok rows ↔
      (∀ cells ∈ records, cells.length ≤ fieldnames.length) ∧
        rows = records.map fun cells => cleanColumns (dictRow fieldnames cells).1 := by
  induction records generalizing rows with
  | nil => simp [pure, Except.pure, eq_comm]
  | cons cells rest ih =>
      rw [List.mapM_cons, bind_eq_ok, List.forall_mem_cons, List.map_cons]
      simp only [bind_eq_ok, cleanRow_eq_ok_iff, ih, pure, Except.pure, Except.ok.injEq]
      constructor
      · rintro ⟨_, ⟨hcells, rfl⟩, _, ⟨hrest, rfl⟩, rfl⟩
        exact ⟨⟨hcells, hrest⟩, rfl⟩
      · rintro ⟨⟨hcells, hrest⟩, rfl⟩
        exact ⟨_, ⟨hcells, rfl⟩, _, ⟨hrest, rfl⟩, rfl⟩

/-- When a sheet can be read, and to what. -/
theorem readRows_eq_ok_iff {records : List (List String)} {rows : List SheetRow} :
    readRows records = .ok rows ↔
      (∀ c ∈ requiredColumns, c ∈ records.headD []) ∧
        (∀ cells ∈ records.tail, cells.length ≤ (records.headD []).length) ∧
          rows = sheetRows records := by
  have hmissing : requiredColumns.filter (fun c => c ∉ records.headD []) = [] ↔
      ∀ c ∈ requiredColumns, c ∈ records.headD [] := by
    rw [List.filter_eq_nil_iff]
    simp
  -- a blank record has no cells, so leaving it out changes nothing
  have hblank : (∀ cells ∈ records.tail.filter (· ≠ []),
        cells.length ≤ (records.headD []).length) ↔
      ∀ cells ∈ records.tail, cells.length ≤ (records.headD []).length := by
    constructor
    · intro hall cells hcells
      by_cases hempty : cells = []
      · rw [hempty]
        exact Nat.zero_le _
      · exact hall cells (List.mem_filter.2 ⟨hcells, decide_eq_true hempty⟩)
    · exact fun hall cells hcells => hall cells (List.mem_filter.1 hcells).1
  rw [readRows]
  by_cases hcolumns : ∀ c ∈ requiredColumns, c ∈ records.headD []
  · have hread : (records.tail.filter (· ≠ [])).mapM
          (fun cells => cleanRow (dictRow (records.headD []) cells)) = .ok rows ↔
        (∀ cells ∈ records.tail, cells.length ≤ (records.headD []).length) ∧
          rows = sheetRows records := by
      rw [mapM_cleanRow_eq_ok_iff, hblank, sheetRows]
    rw [if_pos (hmissing.2 hcolumns)]
    cases hrows : (records.tail.filter (· ≠ [])).mapM
        fun cells => cleanRow (dictRow (records.headD []) cells) with
    | error e =>
        rw [hrows] at hread
        exact iff_of_false (fun h => by cases h) fun h => by cases hread.2 h.2
    | ok read =>
        rw [hrows, Except.ok.injEq] at hread
        dsimp only
        rw [Except.ok.injEq, hread]
        exact (and_iff_right hcolumns).symm
  · rw [if_neg (fun h => hcolumns (hmissing.1 h))]
    exact iff_of_false (fun h => by cases h) fun h => hcolumns h.1

end Reading

/-! ## What is selected -/

def normalisedEmail (py : LowerCase) (row : SheetRow) : String := py.lower (row.text "email")

/-- The required-field check. -/
def Passes (py : LowerCase) (row : SheetRow) : Prop :=
  row.text "first_name" ≠ "" ∧ row.text "last_name" ≠ "" ∧ normalisedEmail py row ≠ ""

instance (py : LowerCase) (row : SheetRow) : Decidable (Passes py row) :=
  inferInstanceAs (Decidable (_ ∧ _ ∧ _))

/-- The row passes the check, and the program does not have its email. -/
def isNew (py : LowerCase) (programId : Nat) (t : TradeLeads) (row : SheetRow) : Bool :=
  decide (Passes py row) && (getByProgramEmail t programId (normalisedEmail py row)).isNone

section Selecting

variable {py : LowerCase} {store : SheetStore} {programId : Nat} {t : TradeLeads} {row : SheetRow}
  {rows : List SheetRow}

theorem isNew_iff : isNew py programId t row = true ↔
    Passes py row ∧ getByProgramEmail t programId (normalisedEmail py row) = none := by
  rw [isNew, Bool.and_eq_true, decide_eq_true_iff, Option.isNone_iff_eq_none]

/-- A row that PostgreSQL takes is sorted. -/
theorem selectRow_ok (hcomplete : row.Complete)
    (htakes : Passes py row → store.takesText (normalisedEmail py row) = true)
    (selection : Selection) :
    ∃ selection', selectRow py store programId t selection row = .ok selection' ∧
      selection'.toImport = selection.toImport ++ [row].filter (isNew py programId t) := by
  have hfirst := item_eq (hcomplete "first_name" (by decide))
  have hlast := item_eq (hcomplete "last_name" (by decide))
  have hemail := item_eq (hcomplete "email" (by decide))
  simp only [selectRow, hfirst, hlast, hemail, bind, Except.bind, pure, Except.pure]
  by_cases hpasses : Passes py row
  · obtain ⟨hnoFirst, hnoLast, hnoEmail⟩ := hpasses
    have htaken : store.takesText (py.lower (row.text "email")) = true :=
      htakes ⟨hnoFirst, hnoLast, hnoEmail⟩
    rw [if_neg (by simp only [not_or]; exact ⟨hnoFirst, hnoLast, hnoEmail⟩), if_pos htaken]
    cases hlookup : getByProgramEmail t programId (py.lower (row.text "email")) with
    | some q =>
        have hnot : ¬ isNew py programId t row = true := by
          rw [isNew_iff, normalisedEmail, hlookup]
          exact fun h => by cases h.2
        exact ⟨_, rfl, by rw [List.filter_cons_of_neg hnot, List.filter_nil, List.append_nil]⟩
    | none =>
        have hnew : isNew py programId t row = true :=
          isNew_iff.2 ⟨⟨hnoFirst, hnoLast, hnoEmail⟩, hlookup⟩
        exact ⟨_, rfl, by rw [List.filter_cons_of_pos hnew, List.filter_nil]⟩
  · have hempty : row.text "first_name" = "" ∨ row.text "last_name" = "" ∨
        py.lower (row.text "email") = "" := by
      simpa only [Passes, normalisedEmail, not_and_or, not_not] using hpasses
    have hnot : ¬ isNew py programId t row = true := fun h => hpasses (isNew_iff.1 h).1
    rw [if_pos hempty]
    exact ⟨_, rfl, by rw [List.filter_cons_of_neg hnot, List.filter_nil, List.append_nil]⟩

theorem selectRow_error (hcomplete : row.Complete) (hpasses : Passes py row)
    (hrejects : store.takesText (normalisedEmail py row) = false) (selection : Selection) :
    selectRow py store programId t selection row = .error .dataError := by
  have hfirst := item_eq (hcomplete "first_name" (by decide))
  have hlast := item_eq (hcomplete "last_name" (by decide))
  have hemail := item_eq (hcomplete "email" (by decide))
  obtain ⟨hnoFirst, hnoLast, hnoEmail⟩ := hpasses
  simp only [selectRow, hfirst, hlast, hemail, bind, Except.bind]
  rw [if_neg (by simp only [not_or]; exact ⟨hnoFirst, hnoLast, hnoEmail⟩),
    if_neg (by rw [← normalisedEmail, hrejects]; exact Bool.false_ne_true)]
  rfl

/-- The first loop gets to its end when PostgreSQL takes the emails that are looked up. -/
theorem selectRows_ok (programId : Nat) (t : TradeLeads) (hcomplete : ∀ row ∈ rows, row.Complete)
    (htakes : ∀ row ∈ rows, Passes py row → store.takesText (normalisedEmail py row) = true)
    (selection : Selection) :
    ∃ selection', rows.foldlM (selectRow py store programId t) selection = .ok selection' ∧
      selection'.toImport = selection.toImport ++ rows.filter (isNew py programId t) := by
  induction rows generalizing selection with
  | nil => exact ⟨selection, rfl, (List.append_nil _).symm⟩
  | cons row rest ih =>
      obtain ⟨hrow, hrest⟩ := List.forall_mem_cons.1 hcomplete
      obtain ⟨htakesRow, htakesRest⟩ := List.forall_mem_cons.1 htakes
      obtain ⟨next, hnext, himport⟩ := selectRow_ok (t := t) hrow htakesRow selection
      obtain ⟨last, hlast, hall⟩ := ih hrest htakesRest next
      refine ⟨last, ?_, ?_⟩
      · rw [List.foldlM_cons, hnext]
        exact hlast
      · rw [hall, himport, List.append_assoc, ← List.filter_append]
        rfl

theorem takes_of_selectRows {selection selection' : Selection}
    (hcomplete : ∀ row ∈ rows, row.Complete)
    (h : rows.foldlM (selectRow py store programId t) selection = .ok selection') :
    ∀ row ∈ rows, Passes py row → store.takesText (normalisedEmail py row) = true := by
  induction rows generalizing selection with
  | nil => exact List.forall_mem_nil _
  | cons row rest ih =>
      obtain ⟨hrow, hrest⟩ := List.forall_mem_cons.1 hcomplete
      rw [List.foldlM_cons] at h
      obtain ⟨next, hnext, h⟩ := bind_eq_ok.1 h
      refine List.forall_mem_cons.2 ⟨fun hpasses => ?_, ih hrest h⟩
      by_contra hrejects
      rw [Bool.not_eq_true] at hrejects
      rw [selectRow_error hrow hpasses hrejects] at hnext
      cases hnext

end Selecting

end SalesTrades.Transfer
