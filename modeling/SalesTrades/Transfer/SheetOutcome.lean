import SalesTrades.Transfer.SheetImport

/-!
# Which sheets are imported

The selection looks at the table before any row is written. So two rows of one sheet with the same email
are both selected, and the second one violates the unique index after the first has been committed
(`ada_twice_raises`). Otherwise a sheet that can be read and stored is handled: one row for each email
that is new, nothing else changed, and nothing to create in a second run (`import_handles_iff`).
-/

set_option autoImplicit false

namespace SalesTrades.Transfer

open SalesTrades.Library SalesTrades.Trade

/-! ## What is created -/

/-- The instance that is built from a row with the required columns. -/
def leadOf (py : LowerCase) (programId : Nat) (uuid : String) (row : SheetRow) : SheetLead :=
  buildLead py programId uuid row (row.text "first_name") (row.text "last_name") (row.text "email")

section Creating

variable {py : LowerCase} {store : SheetStore} {programId created : Nat} {uuids : Nat → String}
  {row : SheetRow} {rows : List SheetRow} {db db' : SheetDb}

theorem sheetLead_eq (hcomplete : row.Complete) (uuid : String) :
    sheetLead py programId uuid row = .ok (leadOf py programId uuid row) := by
  simp only [sheetLead, item_eq (hcomplete "first_name" (by decide)),
    item_eq (hcomplete "last_name" (by decide)), item_eq (hcomplete "email" (by decide)), bind,
    Except.bind]
  rfl

theorem getByProgramEmail_eq_none_iff {t : TradeLeads} {email : String} (hemail : email ≠ "") :
    getByProgramEmail t programId email = none ↔
      ∀ q ∈ t.rows, ¬ (q.2.tradeProgramId = programId ∧ q.2.email = email) := by
  refine ⟨getByProgramEmail_eq_none hemail, fun hnone => ?_⟩
  cases hlookup : getByProgramEmail t programId email with
  | none => rfl
  | some q =>
      obtain ⟨hq, hkey⟩ := getByProgramEmail_eq_some hlookup
      exact absurd hkey (hnone q hq)

/-- A lookup after a row has been added. -/
theorem lookup_after_create {uuid email : String} {t t' : TradeLeads} {id : Nat} (hemail : email ≠ "")
    (hrows : t'.rows = t.rows ++ [(id, (leadOf py programId uuid row).toTradeLead)]) :
    getByProgramEmail t' programId email = none ↔
      getByProgramEmail t programId email = none ∧ email ≠ normalisedEmail py row := by
  rw [getByProgramEmail_eq_none_iff hemail, getByProgramEmail_eq_none_iff hemail, hrows,
    List.forall_mem_append, List.forall_mem_singleton]
  refine and_congr_right fun _ => not_congr ?_
  exact ⟨fun h => h.2.symm, fun h => ⟨rfl, h.symm⟩⟩

/-- What the second loop needs of the rows: PostgreSQL takes them, and their emails are free and
different. -/
structure Insertable (py : LowerCase) (store : SheetStore) (programId : Nat) (uuids : Nat → String)
    (created : Nat) (rows : List SheetRow) (t : TradeLeads) : Prop where
  takes : ∀ p ∈ rows.zipIdx created, store.takesRow (leadOf py programId (uuids p.2) p.1) = true
  distinct : (rows.map (normalisedEmail py)).Nodup
  free : ∀ row ∈ rows, getByProgramEmail t programId (normalisedEmail py row) = none

theorem insertable_cons {t t' : TradeLeads} {id : Nat} (hrest : ∀ r ∈ rows, Passes py r)
    (hrows : t'.rows = t.rows ++ [(id, (leadOf py programId (uuids created) row).toTradeLead)])
    (hfree : getByProgramEmail t programId (normalisedEmail py row) = none)
    (htakes : store.takesRow (leadOf py programId (uuids created) row) = true) :
    Insertable py store programId uuids created (row :: rows) t ↔
      Insertable py store programId uuids (created + 1) rows t' := by
  constructor
  · rintro ⟨htakesAll, hdistinct, hfreeAll⟩
    rw [List.zipIdx_cons] at htakesAll
    rw [List.map_cons, List.nodup_cons] at hdistinct
    refine ⟨(List.forall_mem_cons.1 htakesAll).2, hdistinct.2, fun r hr => ?_⟩
    apply (lookup_after_create (hrest r hr).2.2 hrows).2
    refine ⟨hfreeAll r (List.mem_cons_of_mem row hr), fun hsame => hdistinct.1 ?_⟩
    rw [← hsame]
    exact List.mem_map_of_mem hr
  · rintro ⟨htakesRest, hdistinct, hfreeRest⟩
    have hlater (r : SheetRow) (hr : r ∈ rows) :=
      (lookup_after_create (hrest r hr).2.2 hrows).1 (hfreeRest r hr)
    refine ⟨?_, ?_, List.forall_mem_cons.2 ⟨hfree, fun r hr => (hlater r hr).1⟩⟩
    · rw [List.zipIdx_cons]
      exact List.forall_mem_cons.2 ⟨htakes, htakesRest⟩
    · rw [List.map_cons, List.nodup_cons]
      refine ⟨fun hmem => ?_, hdistinct⟩
      obtain ⟨r, hr, hsame⟩ := List.mem_map.1 hmem
      exact (hlater r hr).2 hsame

variable [ColumnDriver]

/-- The driver stores an instance that PostgreSQL takes as it is. -/
theorem flush_leadOf {uuid : String}
    (htakes : store.takesRow (leadOf py programId uuid row) = true) :
    (leadOf py programId uuid row).toTradeLead.flush =
      some (leadOf py programId uuid row).toTradeLead := by
  have hstorable := store.storable _ htakes
  simp only [SheetLead.isStorable, Bool.and_eq_true, List.all_eq_true] at hstorable
  obtain ⟨⟨⟨⟨htexts, -⟩, hphone⟩, hjob⟩, hshared⟩ := hstorable
  refine flush_eq_self_iff.2 ⟨htexts, ColumnType.bind_ofOption hphone,
    ColumnType.bind_ofOption hjob, fun k => ?_⟩
  -- a text column, or one that the script leaves null
  have hk := hshared k (mem_sharedResponseKeys k)
  cases k <;> first | exact ColumnType.bind_eq_null_iff.2 rfl | exact ColumnType.bind_ofOption hk

/-- `create_lead` for a row whose email the program does not have. -/
theorem createSheetLead_ok (hpasses : Passes py row) {uuid : String}
    (htakes : store.takesRow (leadOf py programId uuid row) = true)
    (hfree : getByProgramEmail db.trade programId (normalisedEmail py row) = none) :
    ∃ id trade, createSheetLead store db (leadOf py programId uuid row) =
        .ok ⟨trade, db.middleNames ++ [(id, (leadOf py programId uuid row).middleName)]⟩ ∧
      trade.rows = db.trade.rows ++ [(id, (leadOf py programId uuid row).toTradeLead)] := by
  have hflush := flush_leadOf htakes
  cases hinsert : db.trade.insert (leadOf py programId uuid row).toTradeLead with
  | none =>
      obtain ⟨q, hq, k, hk, hqk⟩ := Table.insert_eq_none_iff.1 hinsert
      obtain ⟨-, hprogram, hemail⟩ := TradeLead.emailKey_eq_some.1 hk
      obtain ⟨-, hqprogram, hqemail⟩ := TradeLead.emailKey_eq_some.1 hqk
      exact absurd ⟨hqprogram.trans hprogram.symm, hqemail.trans hemail.symm⟩
        ((getByProgramEmail_eq_none_iff hpasses.2.2).1 hfree q hq)
  | some inserted =>
      obtain ⟨id, trade⟩ := inserted
      obtain ⟨rfl, hrows, -⟩ := Table.insert_eq_some hinsert
      refine ⟨_, trade, ?_, hrows⟩
      rw [createSheetLead, if_pos htakes]
      simp only [createLead, hflush, hinsert]

theorem of_createSheetLead {uuid : String} (hpasses : Passes py row)
    (h : createSheetLead store db (leadOf py programId uuid row) = .ok db') :
    store.takesRow (leadOf py programId uuid row) = true ∧
      getByProgramEmail db.trade programId (normalisedEmail py row) = none := by
  rw [createSheetLead] at h
  split at h
  · rename_i htakes
    refine ⟨htakes, (getByProgramEmail_eq_none_iff hpasses.2.2).2 fun q hq hkey => ?_⟩
    cases hcreate : createLead db.trade (leadOf py programId uuid row).toTradeLead with
    | error e =>
        rw [hcreate] at h
        cases h
    | ok result =>
        obtain ⟨hflush, hinsert⟩ := createLead_ok hcreate
        rw [flush_leadOf htakes, Option.some.injEq] at hflush
        rw [← hflush] at hinsert
        have hown : (leadOf py programId uuid row).toTradeLead.emailKey =
            some (programId, normalisedEmail py row) :=
          TradeLead.emailKey_eq_some.2 ⟨hpasses.2.2, rfl, rfl⟩
        have hother : q.2.emailKey = some (programId, normalisedEmail py row) :=
          TradeLead.emailKey_eq_some.2 ⟨hkey.2 ▸ hpasses.2.2, hkey.1, hkey.2⟩
        -- the index would have rejected the row
        have htaken := Table.insert_eq_none_iff.2 ⟨q, hq, _, hown, hother⟩
        rw [hinsert] at htaken
        cases htaken
  · cases h

/-- What the second loop leaves when it gets to its end. -/
structure SheetCreated (py : LowerCase) (programId : Nat) (uuids : Nat → String) (created : Nat)
    (rows : List SheetRow) (db db' : SheetDb) : Prop where
  rows : ∃ new : List Participant, db'.trade.rows = db.trade.rows ++ new ∧
    new.map Prod.snd =
      (rows.zipIdx created).map fun p => (leadOf py programId (uuids p.2) p.1).toTradeLead
  middleNames : db.middleNames <+: db'.middleNames

theorem importLoop_ok (hcomplete : ∀ row ∈ rows, row.Complete) (hpasses : ∀ row ∈ rows, Passes py row)
    (h : Insertable py store programId uuids created rows db.trade) :
    ∃ db', importLoop py store programId uuids created rows db = (db', .ok (created + rows.length)) ∧
      SheetCreated py programId uuids created rows db db' := by
  induction rows generalizing created db with
  | nil => exact ⟨db, rfl, ⟨[], (List.append_nil _).symm, rfl⟩, List.prefix_rfl⟩
  | cons row rest ih =>
      obtain ⟨hrowComplete, hrestComplete⟩ := List.forall_mem_cons.1 hcomplete
      obtain ⟨hrow, hrest⟩ := List.forall_mem_cons.1 hpasses
      have htakes : store.takesRow (leadOf py programId (uuids created) row) = true :=
        h.takes (row, created) (by rw [List.zipIdx_cons]; exact List.mem_cons_self)
      have hfree := h.free row List.mem_cons_self
      obtain ⟨id, trade, hcreate, hrows⟩ := createSheetLead_ok hrow htakes hfree
      have hnext := (insertable_cons hrest hrows hfree htakes).1 h
      obtain ⟨db', hloop, ⟨new, hnew, hleads⟩, hnames⟩ :=
        @ih (created + 1) ⟨trade, db.middleNames ++ [(id, _)]⟩ hrestComplete hrest hnext
      refine ⟨db', ?_,
        ⟨(id, (leadOf py programId (uuids created) row).toTradeLead) :: new, ?_, ?_⟩,
        (List.prefix_append _ _).trans hnames⟩
      · rw [importLoop, sheetLead_eq hrowComplete]
        dsimp only [bind, Except.bind]
        rw [hcreate]
        dsimp only
        rw [hloop, List.length_cons, Nat.add_assoc, Nat.add_comm 1]
      · rw [hnew, hrows, List.append_assoc]
        rfl
      · rw [List.map_cons, hleads, List.zipIdx_cons, List.map_cons]

theorem of_importLoop {n : Nat} (hcomplete : ∀ row ∈ rows, row.Complete)
    (hpasses : ∀ row ∈ rows, Passes py row)
    (h : (importLoop py store programId uuids created rows db).2 = .ok n) :
    Insertable py store programId uuids created rows db.trade := by
  induction rows generalizing created db with
  | nil => exact ⟨List.forall_mem_nil _, List.nodup_nil, List.forall_mem_nil _⟩
  | cons row rest ih =>
      obtain ⟨hrowComplete, hrestComplete⟩ := List.forall_mem_cons.1 hcomplete
      obtain ⟨hrow, hrest⟩ := List.forall_mem_cons.1 hpasses
      rw [importLoop, sheetLead_eq hrowComplete] at h
      dsimp only [bind, Except.bind] at h
      cases hcreate : createSheetLead store db (leadOf py programId (uuids created) row) with
      | error e =>
          rw [hcreate] at h
          cases h
      | ok db₁ =>
          rw [hcreate] at h
          obtain ⟨htakes, hfree⟩ := of_createSheetLead hrow hcreate
          obtain ⟨id, trade, hcreate', hrows⟩ := createSheetLead_ok hrow htakes hfree
          rw [hcreate', Except.ok.injEq] at hcreate
          subst hcreate
          exact (insertable_cons hrest hrows hfree htakes).2 (ih hrestComplete hrest h)

end Creating

/-! ## Which sheets are handled -/

/-- The rows to import: they pass the check, and the program does not have their emails. -/
def newRows (py : LowerCase) (programId : Nat) (records : List (List String)) (t : TradeLeads) :
    List SheetRow :=
  (sheetRows records).filter (isNew py programId t)

/-- The header has the required columns, no record has cells past it, PostgreSQL takes the values, and
no two of the rows to import have the same email. -/
structure ImportableSheet (py : LowerCase) (store : SheetStore) (programId : Nat)
    (uuids : Nat → String) (records : List (List String)) (t : TradeLeads) : Prop where
  columns : ∀ c ∈ requiredColumns, c ∈ records.headD []
  cells : ∀ cells ∈ records.tail, cells.length ≤ (records.headD []).length
  lookups : ∀ row ∈ sheetRows records, Passes py row →
    store.takesText (normalisedEmail py row) = true
  takes : ∀ p ∈ (newRows py programId records t).zipIdx,
    store.takesRow (leadOf py programId (uuids p.2) p.1) = true
  distinct : ((newRows py programId records t).map (normalisedEmail py)).Nodup

/-- A run with `--commit` returns, creates one row for each email that passes the check and that the
program does not have, and changes no other row; and a second run creates nothing. -/
structure HandlesSheet [ColumnDriver] (py : LowerCase) (store : SheetStore)
    (programs : List TradeProgram) (program : TradeProgram) (uuids : Nat → String)
    (records : List (List String)) (db : SheetDb) :
    Prop where
  completes : ∃ report, (runImport py store programs uuids true records db).2 = .ok (some report)
  created : ∃ new : List Participant,
    (runImport py store programs uuids true records db).1.trade.rows = db.trade.rows ++ new ∧
    (∀ q ∈ new, q.2.tradeProgramId = program.id) ∧ (new.map fun q => q.2.email).Nodup ∧
    ∀ email, email ∈ (new.map fun q => q.2.email) ↔
      ∃ row ∈ sheetRows records, Passes py row ∧ normalisedEmail py row = email ∧
        getByProgramEmail db.trade program.id email = none
  middleNames : db.middleNames <+: (runImport py store programs uuids true records db).1.middleNames
  again : ∀ uuids', ∃ report, report.created = some 0 ∧
    runImport py store programs uuids' true records
        (runImport py store programs uuids true records db).1 =
      ((runImport py store programs uuids true records db).1, .ok (some report))

section Sheets

variable [ColumnDriver] {py : LowerCase} {store : SheetStore} {programs : List TradeProgram}
  {program : TradeProgram} {uuids : Nat → String} {records : List (List String)} {db db' : SheetDb}

omit [ColumnDriver] in
theorem passes_newRows {t : TradeLeads} :
    ∀ row ∈ newRows py program.id records t, Passes py row :=
  fun _ hrow => (isNew_iff.1 (List.mem_filter.1 hrow).2).1

/-- A sheet that can be read and looked up comes to the second loop. -/
theorem runImport_eq (uuids : Nat → String) (db : SheetDb)
    (hprogram : getProgramBySlug programs importProgramSlug = some program)
    (hcolumns : ∀ c ∈ requiredColumns, c ∈ records.headD [])
    (hcells : ∀ cells ∈ records.tail, cells.length ≤ (records.headD []).length)
    (hlookups : ∀ row ∈ sheetRows records, Passes py row →
      store.takesText (normalisedEmail py row) = true) :
    ∃ report : Nat → ImportReport, (∀ n, (report n).created = some n) ∧
      runImport py store programs uuids true records db =
        match importLoop py store program.id uuids 0 (newRows py program.id records db.trade) db with
        | (db', .error e) => (db', .error (.python e))
        | (db', .ok created) => (db', .ok (some (report created))) := by
  have hread := readRows_eq_ok_iff.2 ⟨hcolumns, hcells, rfl⟩
  obtain ⟨selection, hselect, himport⟩ := selectRows_ok program.id db.trade (complete_of_mem hcolumns)
    hlookups ⟨[], [], 0⟩
  rw [List.nil_append] at himport
  refine ⟨fun n => ImportReport.mk selection.toImport.length selection.existing selection.skipped
    (some n), fun _ => rfl, ?_⟩
  rw [runImport, hread]
  simp only [hprogram, hselect, if_true]
  rw [himport]
  rfl

/-- A run over an importable sheet. -/
theorem runImport_ok (hprogram : getProgramBySlug programs importProgramSlug = some program)
    (h : ImportableSheet py store program.id uuids records db.trade) :
    ∃ db' report, runImport py store programs uuids true records db = (db', .ok (some report)) ∧
      SheetCreated py program.id uuids 0 (newRows py program.id records db.trade) db db' := by
  obtain ⟨report, -, hrun⟩ := runImport_eq uuids db hprogram h.columns h.cells h.lookups
  have hinsertable : Insertable py store program.id uuids 0
      (newRows py program.id records db.trade) db.trade :=
    ⟨h.takes, h.distinct, fun row hrow => (isNew_iff.1 (List.mem_filter.1 hrow).2).2⟩
  have hcomplete : ∀ row ∈ newRows py program.id records db.trade, row.Complete :=
    fun row hrow => complete_of_mem h.columns row (List.mem_filter.1 hrow).1
  obtain ⟨db', hloop, hcreated⟩ := importLoop_ok hcomplete passes_newRows hinsertable
  rw [hloop] at hrun
  exact ⟨db', _, hrun, hcreated⟩

/-- A run that returns a report was over an importable sheet. -/
theorem importable_of_completes
    (hprogram : getProgramBySlug programs importProgramSlug = some program) {report : ImportReport}
    (h : (runImport py store programs uuids true records db).2 = .ok (some report)) :
    ImportableSheet py store program.id uuids records db.trade := by
  rw [runImport] at h
  cases hread : readRows records with
  | error e =>
      rw [hread] at h
      cases h
  | ok rows =>
      obtain ⟨hcolumns, hcells, rfl⟩ := readRows_eq_ok_iff.1 hread
      have hcomplete := complete_of_mem hcolumns
      rw [hread] at h
      simp only [hprogram, if_true] at h
      cases hselect : (sheetRows records).foldlM (selectRow py store program.id db.trade)
          ⟨[], [], 0⟩ with
      | error e =>
          rw [hselect] at h
          cases h
      | ok selection =>
          have hlookups := takes_of_selectRows hcomplete hselect
          obtain ⟨selection', hselect', himport⟩ := selectRows_ok program.id db.trade
            hcomplete hlookups ⟨[], [], 0⟩
          rw [hselect, Except.ok.injEq] at hselect'
          subst hselect'
          rw [hselect] at h
          dsimp only at h
          rw [himport, List.nil_append] at h
          -- all lookups come before the first INSERT
          cases hloop : importLoop py store program.id uuids 0
              ((sheetRows records).filter (isNew py program.id db.trade)) db with
          | mk db' result =>
              rw [hloop] at h
              cases result with
              | error e => cases h
              | ok created =>
                  obtain ⟨htakes, hdistinct, -⟩ := of_importLoop
                    (fun row hrow => hcomplete row (List.mem_filter.1 hrow).1) passes_newRows
                    (congrArg Prod.snd hloop)
                  exact ⟨hcolumns, hcells, hlookups, htakes, hdistinct⟩

omit [ColumnDriver] in
/-- After a run the program has the emails of all rows that pass the check. -/
theorem newRows_after (hcreated : SheetCreated py program.id uuids 0
    (newRows py program.id records db.trade) db db') :
    newRows py program.id records db'.trade = [] := by
  obtain ⟨new, hrows, hleads⟩ := hcreated.rows
  apply List.filter_eq_nil_iff.2
  intro row hrow hnew
  obtain ⟨hpasses, hfree⟩ := isNew_iff.1 hnew
  rw [getByProgramEmail_eq_none_iff hpasses.2.2, hrows, List.forall_mem_append] at hfree
  have hold : getByProgramEmail db.trade program.id (normalisedEmail py row) = none :=
    (getByProgramEmail_eq_none_iff hpasses.2.2).2 hfree.1
  have hselected : row ∈ newRows py program.id records db.trade :=
    List.mem_filter.2 ⟨hrow, isNew_iff.2 ⟨hpasses, hold⟩⟩
  obtain ⟨i, hi, hrowAt⟩ := List.mem_iff_getElem.1 hselected
  have hlead : (leadOf py program.id (uuids i) row).toTradeLead ∈ new.map Prod.snd := by
    rw [hleads]
    refine List.mem_map.2 ⟨(row, i), ?_, rfl⟩
    exact List.mk_mem_zipIdx_iff_getElem?.2 (List.getElem?_eq_some_iff.2 ⟨hi, hrowAt⟩)
  obtain ⟨q, hq, hsame⟩ := List.mem_map.1 hlead
  exact hfree.2 q hq (by rw [hsame]; exact ⟨rfl, rfl⟩)

/-- **Which sheets are handled.** In every database with the program, for every sheet: the import
handles it if and only if it is importable. -/
theorem import_handles_iff (hprogram : getProgramBySlug programs importProgramSlug = some program) :
    HandlesSheet py store programs program uuids records db ↔
      ImportableSheet py store program.id uuids records db.trade := by
  constructor
  · intro h
    obtain ⟨report, hreport⟩ := h.completes
    exact importable_of_completes hprogram hreport
  · intro h
    obtain ⟨db', report, hrun, hcreated⟩ := runImport_ok hprogram h
    obtain ⟨new, hrows, hleads⟩ := hcreated.rows
    have hemails : (new.map fun q => q.2.email) =
        (newRows py program.id records db.trade).map (normalisedEmail py) := by
      have hmapped := congrArg (List.map TradeLead.email) hleads
      rw [List.map_map, List.map_map] at hmapped
      refine hmapped.trans ?_
      rw [← List.zipIdx_map_fst 0 (newRows py program.id records db.trade), List.map_map,
        List.zipIdx_map_fst]
      rfl
    refine ⟨⟨report, by rw [hrun]⟩, ⟨new, by rw [hrun]; exact hrows, fun q hq => ?_, ?_, ?_⟩, ?_, ?_⟩
    · have hlead : q.2 ∈ new.map Prod.snd := List.mem_map_of_mem hq
      rw [hleads] at hlead
      obtain ⟨p, -, hsame⟩ := List.mem_map.1 hlead
      rw [← hsame]
      rfl
    · rw [hemails]
      exact h.distinct
    · intro email
      rw [hemails, List.mem_map]
      constructor
      · rintro ⟨row, hrow, rfl⟩
        obtain ⟨hmem, hnew⟩ := List.mem_filter.1 hrow
        obtain ⟨hpasses, hfree⟩ := isNew_iff.1 hnew
        exact ⟨row, hmem, hpasses, rfl, hfree⟩
      · rintro ⟨row, hmem, hpasses, rfl, hfree⟩
        exact ⟨row, List.mem_filter.2 ⟨hmem, isNew_iff.2 ⟨hpasses, hfree⟩⟩, rfl⟩
    · rw [hrun]
      exact hcreated.middleNames
    · intro uuids'
      -- in a second run every address is known
      obtain ⟨again, hcount, hagain⟩ := runImport_eq uuids' db' hprogram h.columns h.cells
        h.lookups
      rw [newRows_after hcreated] at hagain
      rw [hrun]
      exact ⟨again 0, hcount 0, hagain⟩

end Sheets

/-! ## An email twice -/

attribute [local instance] plainDriver

/-- The program of the import. -/
def launchpad2026 : TradeProgram := { openProgram with slug := importProgramSlug }

/-- PostgreSQL takes every text without a NUL character. -/
def textStore : SheetStore where
  takesText := isText
  takesRow := SheetLead.isStorable
  storable _ h := h

/-- No participants. -/
def noParticipants : SheetDb := ⟨Table.empty _, []⟩

/-- The sheet of two people. -/
def twoPeople : List (List String) :=
  [["first_name", "last_name", "email"], ["Ada", "Obi", "ada@x.ng"], ["Ben", "Obi", "Ben@X.ng"]]

/-- Two new people are imported. -/
theorem import_handles_twoPeople :
    HandlesSheet asciiLower textStore [launchpad2026] launchpad2026 toString twoPeople
      noParticipants :=
  (import_handles_iff rfl).2 ⟨by decide, by decide, by decide, by decide, by decide⟩

/-- Ada's email twice, in different cases. -/
def adaTwice : List (List String) :=
  [["first_name", "last_name", "email"], ["Ada", "Obi", "ada@x.ng"], ["Ada", "Obi", "Ada@X.ng"]]

/-- The second row of the sheet violates the index: the run ends with an exception, after the first row
has been committed. -/
theorem ada_twice_raises :
    ¬ HandlesSheet asciiLower textStore [launchpad2026] launchpad2026 toString adaTwice
        noParticipants ∧
      (runImport asciiLower textStore [launchpad2026] toString true adaTwice noParticipants).2 =
        .error (.python .integrityError) ∧
      ((runImport asciiLower textStore [launchpad2026] toString true adaTwice
        noParticipants).1.trade.rows.map fun q => q.2.email) = ["ada@x.ng"] := by
  have hraises : (runImport asciiLower textStore [launchpad2026] toString true adaTwice
      noParticipants).2 = .error (.python .integrityError) := by
    decide +kernel
  refine ⟨fun h => ?_, hraises, by decide +kernel⟩
  obtain ⟨report, hreturns⟩ := h.completes
  rw [hraises] at hreturns
  cases hreturns

end SalesTrades.Transfer
