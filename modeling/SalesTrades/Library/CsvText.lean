import Mathlib.Data.List.Basic
import Mathlib.Tactic.Common

/-!
# Comma-separated values

The `excel` dialect of Python's `csv` module: `writeRows` writes records as `csv.writer` does, and
`readCsv` reads a text as `csv.reader` does, character by character. Whatever the cells contain, commas,
quotes and line ends included, the reader gives back the records that were written
(`readCsv_writeRows`).
-/

set_option autoImplicit false

namespace SalesTrades.Library.CsvText

/-! ## Writing -/

def delimiter : Char := ','

def quotechar : Char := '"'

def carriageReturn : Char := '\r'

def lineFeed : Char := '\n'

/-- `lineterminator`. -/
def lineTerminator : List Char := [carriageReturn, lineFeed]

/-- A cell with one of these is quoted. -/
def isSpecial (c : Char) : Bool :=
  c == delimiter || c == quotechar || c == carriageReturn || c == lineFeed

/-- A quote within quotes is written twice. -/
def doubleQuotes (cs : List Char) : List Char :=
  cs.flatMap fun c => if c = quotechar then [quotechar, quotechar] else [c]

def quoted (cs : List Char) : List Char := quotechar :: (doubleQuotes cs ++ [quotechar])

/-- `QUOTE_MINIMAL`. -/
def writeCell (cs : List Char) : List Char := if cs.any isSpecial then quoted cs else cs

/-- The cells of a record, joined with the delimiter. -/
def joinCells : List (List Char) → List Char
  | [] => []
  | [cell] => writeCell cell
  | cell :: cells => writeCell cell ++ delimiter :: joinCells cells

/-- `writer.writerow`: a record of one empty cell is quoted, to tell it from one of no cells. -/
def writeRow : List (List Char) → List Char
  | [[]] => quoted [] ++ lineTerminator
  | cells => joinCells cells ++ lineTerminator

def writeRows (rows : List (List (List Char))) : List Char := rows.flatMap writeRow

/-! ## Reading -/

/-- The state of the reader: the cells of the record so far, and the cell it is in. -/
inductive ReadState where
  | startRecord
  /-- After a carriage return that has ended a record. -/
  | afterReturn
  | startField (cells : List (List Char))
  | inField (cells : List (List Char)) (cell : List Char)
  | inQuotedField (cells : List (List Char)) (cell : List Char)
  | quoteInQuotedField (cells : List (List Char)) (cell : List Char)
  deriving DecidableEq

/-- What a character does, and the record that it ends. -/
abbrev Outcome : Type := ReadState × Option (List (List Char))

/-- A character that ends the cell or goes on with it. -/
def afterCell (cells : List (List Char)) (cell : List Char) (c : Char) (otherwise : ReadState) : Outcome :=
  if c = delimiter then (.startField (cells ++ [cell]), none)
  else if c = carriageReturn then (.afterReturn, some (cells ++ [cell]))
  else if c = lineFeed then (.startRecord, some (cells ++ [cell]))
  else (otherwise, none)

/-- The first character of a cell. -/
def onStartField (cells : List (List Char)) (c : Char) : Outcome :=
  if c = quotechar then (.inQuotedField cells [], none) else afterCell cells [] c (.inField cells [c])

/-- The first character of a record. A blank line is a record of no cells. -/
def onStartRecord (c : Char) : Outcome :=
  if c = carriageReturn then (.afterReturn, some [])
  else if c = lineFeed then (.startRecord, some [])
  else onStartField [] c

def onChar : ReadState → Char → Outcome
  | .startRecord, c => onStartRecord c
  | .afterReturn, c => if c = lineFeed then (.startRecord, none) else onStartRecord c
  | .startField cells, c => onStartField cells c
  | .inField cells cell, c => afterCell cells cell c (.inField cells (cell ++ [c]))
  | .inQuotedField cells cell, c =>
      if c = quotechar then (.quoteInQuotedField cells cell, none)
      else (.inQuotedField cells (cell ++ [c]), none)
  | .quoteInQuotedField cells cell, c =>
      if c = quotechar then (.inQuotedField cells (cell ++ [c]), none)
      else afterCell cells cell c (.inField cells (cell ++ [c]))

/-- A record that the end of the text ends. -/
def atEnd : ReadState → Option (List (List Char))
  | .startRecord | .afterReturn => none
  | .startField cells => some (cells ++ [[]])
  | .inField cells cell | .inQuotedField cells cell | .quoteInQuotedField cells cell =>
      some (cells ++ [cell])

/-- The records of the rest of a text. -/
def readFrom (s : ReadState) : List Char → List (List (List Char))
  | [] => (atEnd s).toList
  | c :: cs => (onChar s c).2.toList ++ readFrom (onChar s c).1 cs

/-- The records that `csv.reader` yields. -/
def readCsv (text : List Char) : List (List (List Char)) := readFrom .startRecord text

/-! ## Reading what was written -/

section RoundTrip

variable {cells : List (List Char)} {cell cs rest : List Char} {c : Char} {s : ReadState}
  {row : List (List Char)} {rows : List (List (List Char))}

theorem readFrom_cons (s : ReadState) (c : Char) (cs : List Char) :
    readFrom s (c :: cs) = (onChar s c).2.toList ++ readFrom (onChar s c).1 cs :=
  rfl

theorem not_special_iff : isSpecial c = false ↔
    c ≠ delimiter ∧ c ≠ quotechar ∧ c ≠ carriageReturn ∧ c ≠ lineFeed := by
  simp only [isSpecial, Bool.or_eq_false_iff, beq_eq_false_iff_ne, ne_eq, and_assoc]

/-- Where a cell ends: at the delimiter, or at the end of the record. -/
def Ends (cells : List (List Char)) (s : ReadState) (cell : List Char) : Prop :=
  ∀ rest, readFrom s (delimiter :: rest) = readFrom (.startField (cells ++ [cell])) rest ∧
    readFrom s (lineTerminator ++ rest) = (cells ++ [cell]) :: readFrom .startRecord rest

theorem ends_of_afterCell (otherwise : Char → ReadState)
    (h : ∀ c, c ≠ quotechar → onChar s c = afterCell cells cell c (otherwise c)) : Ends cells s cell := by
  intro rest
  constructor
  · rw [readFrom_cons, h delimiter (by decide)]
    rfl
  · rw [lineTerminator, List.cons_append, readFrom_cons, h carriageReturn (by decide)]
    rfl

theorem ends_startField (cells : List (List Char)) : Ends cells (.startField cells) [] := by
  apply ends_of_afterCell fun c => .inField cells [c]
  intro c hc
  exact if_neg hc

theorem ends_inField (cells : List (List Char)) (cell : List Char) :
    Ends cells (.inField cells cell) cell :=
  ends_of_afterCell (fun c => .inField cells (cell ++ [c])) fun _ _ => rfl

theorem ends_quoteInQuotedField (cells : List (List Char)) (cell : List Char) :
    Ends cells (.quoteInQuotedField cells cell) cell := by
  apply ends_of_afterCell fun c => .inField cells (cell ++ [c])
  intro c hc
  exact if_neg hc

/-- Characters that need no quotes are read as they are. -/
theorem readFrom_inField (h : ∀ c ∈ cs, isSpecial c = false) :
    readFrom (.inField cells cell) (cs ++ rest) = readFrom (.inField cells (cell ++ cs)) rest := by
  induction cs generalizing cell with
  | nil => rw [List.nil_append, List.append_nil]
  | cons c cs ih =>
      obtain ⟨hc, hcs⟩ := List.forall_mem_cons.1 h
      obtain ⟨hdelimiter, -, hreturn, hfeed⟩ := not_special_iff.1 hc
      rw [List.cons_append, readFrom_cons]
      simp only [onChar, afterCell, if_neg hdelimiter, if_neg hreturn, if_neg hfeed, Option.toList_none,
        List.nil_append]
      rw [ih hcs, List.append_assoc, List.singleton_append]

/-- Within quotes a doubled quote is one, and everything else is itself. -/
theorem readFrom_inQuotedField (cells : List (List Char)) (cell cs rest : List Char) :
    readFrom (.inQuotedField cells cell) (doubleQuotes cs ++ quotechar :: rest) =
      readFrom (.quoteInQuotedField cells (cell ++ cs)) rest := by
  induction cs generalizing cell with
  | nil => rw [List.append_nil]; rfl
  | cons c cs ih =>
      rw [doubleQuotes, List.flatMap_cons, List.append_assoc]
      have hread : readFrom (.inQuotedField cells cell)
          ((if c = quotechar then [quotechar, quotechar] else [c]) ++
            (doubleQuotes cs ++ quotechar :: rest)) =
          readFrom (.inQuotedField cells (cell ++ [c])) (doubleQuotes cs ++ quotechar :: rest) := by
        split
        · next hquote =>
            subst hquote
            rfl
        · next hquote =>
            rw [List.singleton_append, readFrom_cons]
            simp only [onChar, if_neg hquote, Option.toList_none, List.nil_append]
      rw [doubleQuotes] at hread ih
      rw [hread, ih, List.append_assoc, List.singleton_append]

/-- A cell that was written is read, up to a state in which it can end. -/
theorem exists_readFrom_writeCell (cells : List (List Char)) (cell : List Char) :
    ∃ s, Ends cells s cell ∧
      ∀ rest, readFrom (.startField cells) (writeCell cell ++ rest) = readFrom s rest := by
  rw [writeCell]
  split
  · refine ⟨_, ends_quoteInQuotedField cells cell, fun rest => ?_⟩
    rw [quoted, List.cons_append, List.append_assoc]
    exact readFrom_inQuotedField cells [] cell rest
  · next hplain =>
      have hspecial : ∀ c ∈ cell, isSpecial c = false := fun c hc =>
        Bool.eq_false_iff.2 fun h => hplain (List.any_eq_true.2 ⟨c, hc, h⟩)
      cases cell with
      | nil => exact ⟨_, ends_startField cells, fun rest => rfl⟩
      | cons c cs =>
          obtain ⟨hc, hcs⟩ := List.forall_mem_cons.1 hspecial
          obtain ⟨hdelimiter, hquote, hreturn, hfeed⟩ := not_special_iff.1 hc
          refine ⟨_, ends_inField cells (c :: cs), fun rest => ?_⟩
          rw [List.cons_append, readFrom_cons]
          simp only [onChar, onStartField, afterCell, if_neg hquote, if_neg hdelimiter, if_neg hreturn,
            if_neg hfeed, Option.toList_none, List.nil_append]
          exact readFrom_inField hcs

/-- The cells of a record are read one after another. -/
theorem readFrom_joinCells (cells : List (List Char)) (hrow : row ≠ []) (rest : List Char) :
    readFrom (.startField cells) (joinCells row ++ (lineTerminator ++ rest)) =
      (cells ++ row) :: readFrom .startRecord rest := by
  induction row generalizing cells with
  | nil => exact absurd rfl hrow
  | cons cell row ih =>
      obtain ⟨s, hends, hread⟩ := exists_readFrom_writeCell cells cell
      cases row with
      | nil => rw [joinCells, hread, (hends rest).2]
      | cons next row =>
          rw [joinCells, List.append_assoc, List.cons_append, hread, (hends _).1,
            ih (cells ++ [cell]) (List.cons_ne_nil _ _), List.append_assoc, List.singleton_append]
          exact List.cons_ne_nil _ _

/-- A record whose text does not begin with a line end is read like its first cell. -/
theorem readFrom_startRecord (hreturn : c ≠ carriageReturn) (hfeed : c ≠ lineFeed) :
    readFrom .startRecord (c :: cs) = readFrom (.startField []) (c :: cs) := by
  rw [readFrom_cons, readFrom_cons]
  simp only [onChar, onStartRecord, if_neg hreturn, if_neg hfeed]

/-- The text of a record that is not empty or one empty cell begins with no line end. -/
theorem exists_joinCells_eq_cons (hrow : row ≠ []) (hempty : row ≠ [[]]) :
    ∃ c cs, joinCells row = c :: cs ∧ c ≠ carriageReturn ∧ c ≠ lineFeed := by
  obtain ⟨cell, cells, rfl⟩ := List.exists_cons_of_ne_nil hrow
  -- the text of the first cell, or the delimiter after an empty one
  have hbegins : ∀ cs, writeCell cell = [] ∨ ∃ c cs', writeCell cell ++ cs = c :: cs' ∧
      c ≠ carriageReturn ∧ c ≠ lineFeed := by
    intro cs
    rw [writeCell]
    split
    · exact Or.inr ⟨quotechar, _, rfl, by decide, by decide⟩
    · next hplain =>
        cases cell with
        | nil => exact Or.inl rfl
        | cons c cell =>
            have hc : isSpecial c = false := Bool.eq_false_iff.2 fun h =>
              hplain (List.any_eq_true.2 ⟨c, List.mem_cons_self, h⟩)
            exact Or.inr ⟨c, cell ++ cs, rfl, (not_special_iff.1 hc).2.2⟩
  cases cells with
  | nil =>
      rcases hbegins [] with hnil | ⟨c, cs, heq, hc⟩
      · exfalso
        rw [writeCell] at hnil
        split at hnil
        · cases hnil
        · exact hempty (congrArg (fun x => [x]) hnil)
      · rw [List.append_nil] at heq
        exact ⟨c, cs, heq, hc⟩
  | cons next cells =>
      rw [joinCells]
      · rcases hbegins (delimiter :: joinCells (next :: cells)) with hnil | ⟨c, cs, heq, hc⟩
        · rw [hnil]
          exact ⟨delimiter, _, rfl, by decide, by decide⟩
        · exact ⟨c, cs, heq, hc⟩
      · exact List.cons_ne_nil _ _

theorem readFrom_writeRow (row : List (List Char)) (rest : List Char) :
    readFrom .startRecord (writeRow row ++ rest) = row :: readFrom .startRecord rest := by
  by_cases hempty : row = [[]]
  · subst hempty
    rfl
  · have hwritten : writeRow row = joinCells row ++ lineTerminator := by
      rw [writeRow]
      exact hempty
    rw [hwritten, List.append_assoc]
    by_cases hrow : row = []
    · subst hrow
      rfl
    · obtain ⟨c, cs, hjoin, hreturn, hfeed⟩ := exists_joinCells_eq_cons hrow hempty
      rw [hjoin, List.cons_append, readFrom_startRecord hreturn hfeed, ← List.cons_append, ← hjoin,
        readFrom_joinCells [] hrow, List.nil_append]

/-- **Round trip.** The reader gives back the records that were written. -/
theorem readCsv_writeRows (rows : List (List (List Char))) : readCsv (writeRows rows) = rows := by
  induction rows with
  | nil => rfl
  | cons row rows ih =>
      rw [readCsv, writeRows, List.flatMap_cons, readFrom_writeRow]
      exact congrArg (row :: ·) ih

end RoundTrip

end SalesTrades.Library.CsvText
