import SalesTrades.Leads.Capture
import SalesTrades.PythonDates

/-!
# The sheet of the sales reps

`import_rep_leads.py` reads the tabs of a sheet, one for each rep, and makes a submission of each row
with a name and an address. Of the rows with one address the first one counts (`payloads_collect`), and
every row is imported, skipped with a reason, or merged onto an earlier one (`collect_accounts`).
-/

set_option autoImplicit false

namespace SalesTrades.Leads.RepImport

open SalesTrades.Library SalesTrades.Library.CivilDate

/-! ## Cells -/

/-- What the script uses of the language and of the library of the request models. -/
structure SheetLib where
  py : LowerCase
  /-- `\d`. -/
  isDecimal : Char → Bool
  /-- `str(int(float(text)))`. -/
  intOfFloat : String → Except PyError String
  /-- An `EmailStr` field. -/
  validateEmail : String → Option EmailStr

def colName : ℕ := 1
def colCompany : ℕ := 2
def colTitle : ℕ := 3
def colEmail : ℕ := 4
def colPhone : ℕ := 5
def colExhibition : ℕ := 6
def colTour : ℕ := 7
def colSupport : ℕ := 8
def colPriority : ℕ := 9

/-- A cell of a row that is filled up with empty ones. -/
def cell (row : List String) (col : ℕ) : String := row.getD col ""

/-- `_HONORIFICS`. -/
def honorifics : List String :=
  ["dr", "engr", "mr", "mrs", "ms", "miss", "alh", "alhaji", "sir", "prof", "barr", "chief", "capt", "hon",
    "pastor", "rev", "mallam", "mal", "arc"]

/-- `text.split()`. -/
def words (text : List Char) : List (List Char) := (text.splitOnP isWhitespace).filter (· ≠ [])

/-- `token.rstrip(".").lower() in _HONORIFICS`. -/
def isHonorific (py : LowerCase) (token : List Char) : Bool :=
  py.lower (String.ofList (token.reverse.dropWhile (· = '.')).reverse) ∈ honorifics

/-- The loop that drops honorifics, which leaves the last token. -/
def dropHonorifics (py : LowerCase) : List (List Char) → List (List Char)
  | token :: next :: rest =>
      if isHonorific py token then dropHonorifics py (next :: rest) else token :: next :: rest
  | tokens => tokens

/-- `_split_name`: the words before the first comma, where a full stop ends a word. -/
def splitName (py : LowerCase) (raw : String) : String × String :=
  let name := (raw.toList.takeWhile (· ≠ ',')).flatMap fun c => if c = '.' then ['.', ' '] else [c]
  match dropHonorifics py (words name) with
  | [] => ("", "")
  | [token] => (String.ofList token, "—")
  | token :: rest => (String.ofList token, String.ofList (rest.intersperse [' ']).flatten)

/-- `text.strip("/.,;:")`. -/
def stripPunctuation (text : List Char) : List Char :=
  let punctuation := fun c => decide (c ∈ ['/', '.', ',', ';', ':'])
  ((text.dropWhile punctuation).reverse.dropWhile punctuation).reverse

/-- The pattern `[^@\s]+@[^@\s]+\.[^@\s]+`: one `@`, no white space, and a full stop inside the domain. -/
def isAddress (text : List Char) : Bool :=
  match text.splitOn '@' with
  | [name, domain] =>
      text.all (fun c => !isWhitespace c) && name ≠ [] && decide ('.' ∈ domain.tail.dropLast)
  | _ => false

/-- `_EMAIL_RE.match`, whose `$` also matches before a last line break. -/
def matchesEmail (text : List Char) : Bool :=
  isAddress text || (text.getLast? = some '\n' && isAddress text.dropLast)

/-- `_clean_email`: the cell as it is, or the first address among its words. -/
def cleanEmail (py : LowerCase) (raw : String) : Option String :=
  let email := (py.lower (String.ofList (stripPunctuation (strip raw).toList))).toList
  if matchesEmail email then some (String.ofList email)
  else (((words email).map stripPunctuation).find? matchesEmail).map String.ofList

/-- The two ways in which a sheet stores a number: `[0-9.]+E[0-9]+` and `[0-9]+\.[0-9]+`. -/
def isFloatText (text : List Char) : Bool :=
  let scientific := match text.dropWhile fun c => c.isDigit || c = '.' with
    | e :: exponent =>
        (e = 'E' || e = 'e') && exponent ≠ [] && exponent.all Char.isDigit &&
          (text.head?.any fun c => c.isDigit || c = '.')
    | [] => false
  let plain := match text.dropWhile Char.isDigit with
    | point :: decimals =>
        point = '.' && decimals ≠ [] && decimals.all Char.isDigit && text.head?.any Char.isDigit
    | [] => false
  scientific || plain

/-- The number in full, or the cell where it is none. -/
def expandNumber (lib : SheetLib) (val : String) : Except PyError String :=
  if isFloatText val.toList then
    match lib.intOfFloat val with
    | .ok number => .ok number
    | .error .valueError => .ok val
    | .error e => .error e
  else .ok val

/-- How the digits of a phone number are written. -/
def phoneOf (hadPlus : Bool) (digits : List Char) : List Char :=
  if digits.length = 11 ∧ digits.head? = some '0' then digits
  else if digits.length = 10 ∧ digits.head?.any (fun c => c ∈ ['7', '8', '9']) then '0' :: digits
  else if ['2', '3', '4'] <+: digits then '+' :: digits
  else if hadPlus ∨ 11 ≤ digits.length then '+' :: digits
  else digits

/-- `_clean_phone`. -/
def cleanPhone (lib : SheetLib) (raw : String) : Except PyError String := do
  let val := strip raw
  if val = "" then return ""
  let number ← expandNumber lib val
  let digits := number.toList.filter lib.isDecimal
  if digits = [] then return ""
  return String.ofList (phoneOf (val.toList.head? = some '+') digits)

/-- `part in text`. -/
def contains (text part : String) : Bool := decide (part.toList <:+: text.toList)

/-- `_interests`. -/
def interestsOf (py : LowerCase) (support : String) : List String :=
  (if contains (py.lower support) "office" then ["Office Leasing"] else []) ++
    if contains (py.lower support) "resid" then ["Executive Residences"] else []

/-- `_wants_tour`. -/
def wantsTour (py : LowerCase) (tour : String) : Bool :=
  decide ("yes".toList <+: (py.lower (strip tour)).toList)

/-! ## Rows -/

/-- Why a row is no submission: `SkipRow`, or an exception that ends the script. -/
inductive RowError where
  | skip (reason : String)
  | python (e : PyError)
  deriving DecidableEq

/-- `PACK_MATERIALS`. -/
def packMaterials : List String := ["Corporate Prospectus", "Office Floorplates", "Residence Floorplans"]

/-- `CAPTURED_AT`. -/
def capturedAt : Datetime := ⟨wallAt (ordinal 2026 7 7) 43200000000, none⟩

def importBatch : String := "nog-2026-rep-sheet-day1"

/-- `text[:n]`. -/
def truncated (n : ℕ) (text : String) : String := String.ofList (text.toList.take n)

/-- What the request model checks of a submission that the script makes. -/
def isValid (payload : LeadCreateRequest) : Bool :=
  1 ≤ payload.firstName.toList.length && payload.firstName.toList.length ≤ 120 &&
    1 ≤ payload.lastName.toList.length && payload.lastName.toList.length ≤ 120 &&
    payload.phone.all (fun phone => phone.toList.length ≤ 40) &&
    1 ≤ payload.company.toList.length && payload.company.toList.length ≤ 200 &&
    payload.jobTitle.all fun title => title.toList.length ≤ 200

/-- What the submission of a row notes. -/
def answersOf (rep : String) (row : List String) : List (String × Json) :=
  [("captured_by", .str rep), ("raw_name", .str (strip (cell row colName))),
    ("support_needed", .str (strip (cell row colSupport))),
    ("exhibition_visit", .str (strip (cell row colExhibition))),
    ("interested_in_tour", .str (strip (cell row colTour))),
    ("tomorrow_priority", .str (strip (cell row colPriority))),
    ("import_batch", .str importBatch)]

/-- The submission of a row. -/
def requestOf (py : LowerCase) (rep : String) (row : List String) (email : EmailStr) (phone : String) :
    LeadCreateRequest :=
  let names := splitName py (strip (cell row colName))
  let company := strip (cell row colCompany)
  let title := strip (cell row colTitle)
  let interests := interestsOf py (cell row colSupport)
  { firstName := truncated 120 names.1
    lastName := truncated 120 names.2
    email
    phone := if phone = "" then none else some phone
    company := truncated 200 (if company = "" then "—" else company)
    jobTitle := if title = "" then none else some title
    source := "rep_upload"
    deviceId := none
    timing := none
    interests := if interests = [] then none else some interests
    requestedMaterials := some packMaterials
    inspectionRequested := wantsTour py (cell row colTour)
    inspectionType := none
    marketingOptIn := false
    consentStatus := true
    capturedAt := some capturedAt
    responses := answersOf rep row }

/-- `_row_to_payload`. -/
def rowToPayload (lib : SheetLib) (rep : String) (row : List String) :
    Except RowError LeadCreateRequest :=
  let rawName := strip (cell row colName)
  if rawName = "" then .error (.skip "no name")
  else
    match cleanEmail lib.py (cell row colEmail) with
    | none => .error (.skip "no valid email")
    | some email =>
        if (splitName lib.py rawName).1 = "" then .error (.skip "no name")
        else
          match cleanPhone lib (cell row colPhone), lib.validateEmail email with
          | .error e, _ => .error (.python e)
          | .ok _, none => .error (.skip "invalid email/field")
          | .ok phone, some address =>
              let payload := requestOf lib.py rep row address phone
              if isValid payload then .ok payload else .error (.skip "invalid email/field")

theorem eq_requestOf {lib : SheetLib} {rep : String} {row : List String} {payload : LeadCreateRequest}
    (h : rowToPayload lib rep row = .ok payload) :
    ∃ email phone, payload = requestOf lib.py rep row email phone := by
  rw [rowToPayload] at h
  dsimp only at h
  split at h
  · cases h
  · split at h
    · cases h
    · split at h
      · cases h
      · split at h
        · cases h
        · cases h
        · split at h
          · exact ⟨_, _, (Except.ok.inj h).symm⟩
          · cases h

/-! ## The sheet -/

/-- A tab, with the name of the rep that `_rep_name` reads off its title. -/
structure Tab where
  rep : String
  rows : List (List String)

/-- `DATA_START_ROW`. -/
def dataStartRow : ℕ := 4

/-- The rows that the loop looks at, each with its rep. -/
def dataRows (tabs : List Tab) : List (String × List String) :=
  tabs.flatMap fun tab =>
    ((tab.rows.drop dataStartRow).filter fun row => row.any fun c => strip c ≠ "").map fun row =>
      (tab.rep, row)

/-- What `_collect` returns. The keys of `payloads` are the addresses in them. -/
structure Collected where
  payloads : List (String × LeadCreateRequest) := []
  skipped : List (String × String × String) := []
  merged : List (String × String) := []

/-- The body of the loop. -/
def collectRow (lib : SheetLib) (c : Collected) (entry : String × List String) :
    Except PyError Collected :=
  match rowToPayload lib entry.1 entry.2 with
  | .error (.python e) => .error e
  | .error (.skip reason) =>
      let rawName := strip (cell entry.2 colName)
      let shown := if rawName = "" then "(blank)" else rawName
      .ok { c with skipped := c.skipped ++ [(entry.1, shown, reason)] }
  | .ok payload =>
      if c.payloads.any fun p => p.2.email.1 = payload.email.1 then
        .ok { c with merged := c.merged ++ [(payload.email.1, entry.1)] }
      else .ok { c with payloads := c.payloads ++ [(entry.1, payload)] }

/-- `_collect`. -/
def collect (lib : SheetLib) (tabs : List Tab) : Except PyError Collected :=
  (dataRows tabs).foldlM (collectRow lib) {}

/-- The rows that make a submission, in the order of the sheet. -/
def importable (lib : SheetLib) (tabs : List Tab) : List (String × LeadCreateRequest) :=
  (dataRows tabs).filterMap fun entry =>
    (rowToPayload lib entry.1 entry.2).toOption.map fun payload => (entry.1, payload)

/-- `payload.email in payloads`. -/
def sameAddress (payload payload' : LeadCreateRequest) : Bool := payload'.email.1 = payload.email.1

/-- The first entry of each address. -/
def firstByAddress (entries : List (String × LeadCreateRequest)) : List (String × LeadCreateRequest) :=
  entries.foldl (fun ps e => if ps.any fun p => sameAddress e.2 p.2 then ps else ps ++ [e]) []

section Collect

variable {lib : SheetLib} {tabs : List Tab} {c c' : Collected} {rows : List (String × List String)}
  {entries : List (String × LeadCreateRequest)} {e : String × LeadCreateRequest}

theorem firstByAddress_concat (entries : List (String × LeadCreateRequest))
    (e : String × LeadCreateRequest) : firstByAddress (entries ++ [e]) =
      if (firstByAddress entries).any fun p => sameAddress e.2 p.2 then firstByAddress entries
      else firstByAddress entries ++ [e] := by
  rw [firstByAddress, List.foldl_append]
  rfl

theorem any_firstByAddress (payload : LeadCreateRequest) (entries : List (String × LeadCreateRequest)) :
    (firstByAddress entries).any (fun p => sameAddress payload p.2) =
      entries.any fun p => sameAddress payload p.2 := by
  induction entries using List.reverseRecOn with
  | nil => rfl
  | append_singleton entries e ih =>
      rw [firstByAddress_concat, List.any_append, ← ih]
      split
      next hold =>
        rw [Bool.eq_iff_iff, Bool.or_eq_true, or_iff_left_of_imp]
        intro hnew
        -- the address of the last entry is an earlier one
        have heq : sameAddress payload e.2 = true := by simpa using hnew
        obtain ⟨p, hp, hsame⟩ := List.any_eq_true.1 hold
        refine List.any_eq_true.2 ⟨p, hp, ?_⟩
        simp only [sameAddress, decide_eq_true_eq] at heq hsame ⊢
        exact hsame.trans heq
      next => rw [List.any_append]

/-- The first entry of an address is the one that a search finds. -/
theorem mem_firstByAddress : e ∈ firstByAddress entries ↔
    entries.find? (fun p => sameAddress e.2 p.2) = some e := by
  induction entries using List.reverseRecOn with
  | nil => exact iff_of_false List.not_mem_nil (Option.some_ne_none e).symm
  | append_singleton entries last ih =>
      rw [firstByAddress_concat, List.find?_append]
      cases hfound : entries.find? fun p => sameAddress e.2 p.2 with
      | some first =>
          rw [hfound] at ih
          rw [Option.some_or, ← ih]
          split
          · exact Iff.rfl
          · rw [List.mem_append, List.mem_singleton, or_iff_left_of_imp]
            rintro rfl
            -- an entry with the address is there already
            have hsame : sameAddress e.2 first.2 = true := by
              simpa only using List.find?_some hfound
            have hhas : (entries.any fun p => sameAddress e.2 p.2) = true :=
              List.any_eq_true.2 ⟨first, List.mem_of_find?_eq_some hfound, hsame⟩
            rename_i hnone
            rw [any_firstByAddress] at hnone
            exact absurd hhas hnone
      | none =>
          rw [hfound] at ih
          have hnot : e ∉ firstByAddress entries := fun hin => Option.some_ne_none e (ih.1 hin).symm
          rw [Option.none_or, List.find?_singleton]
          split
          next hold =>
            refine iff_of_false hnot ?_
            split
            next hlast =>
              rintro heq
              cases heq
              rw [any_firstByAddress, List.any_eq_true] at hold
              obtain ⟨p, hp, hsame⟩ := hold
              exact List.find?_eq_none.1 hfound p hp hsame
            next => exact (Option.some_ne_none e).symm
          next hnew =>
            rw [List.mem_append, List.mem_singleton, or_iff_right hnot]
            constructor
            · rintro rfl
              exact if_pos (decide_eq_true rfl)
            · intro h
              split at h
              · exact (Option.some.inj h).symm
              · cases h

/-- The loop from some row on. -/
theorem foldlM_collectRow (h : rows.foldlM (collectRow lib) c = .ok c') :
    c'.payloads = (rows.filterMap fun entry =>
        (rowToPayload lib entry.1 entry.2).toOption.map fun payload => (entry.1, payload)).foldl
          (fun ps e => if ps.any fun p => sameAddress e.2 p.2 then ps else ps ++ [e]) c.payloads ∧
      c'.payloads.length + c'.skipped.length + c'.merged.length =
        c.payloads.length + c.skipped.length + c.merged.length + rows.length := by
  induction rows generalizing c with
  | nil =>
      obtain rfl := Except.ok.inj h
      exact ⟨rfl, rfl⟩
  | cons entry rows ih =>
      obtain ⟨next, hnext, h⟩ := bind_eq_ok.1 (List.foldlM_cons.symm.trans h)
      obtain ⟨hpayloads, hlength⟩ := ih h
      rw [hpayloads, List.length_cons]
      rw [collectRow] at hnext
      cases hrow : rowToPayload lib entry.1 entry.2 with
      | error e =>
          rw [hrow] at hnext
          cases e with
          | python e => cases hnext
          | skip reason =>
              cases hnext
              rw [List.filterMap_cons_none (by rw [hrow]; rfl)]
              refine ⟨rfl, ?_⟩
              rw [← hpayloads, hlength, List.length_append]
              simp only [List.length_singleton]
              omega
      | ok payload =>
          rw [hrow] at hnext
          rw [List.filterMap_cons_some (by rw [hrow]; rfl), List.foldl_cons]
          dsimp only at hnext
          split at hnext
          next hold =>
            cases hnext
            have hold' : (c.payloads.any fun p => sameAddress payload p.2) = true := hold
            rw [if_pos hold']
            refine ⟨rfl, ?_⟩
            rw [← hpayloads, hlength, List.length_append]
            simp only [List.length_singleton]
            omega
          next hnew =>
            cases hnext
            have hnew' : ¬ (c.payloads.any fun p => sameAddress payload p.2) = true := hnew
            rw [if_neg hnew']
            refine ⟨rfl, ?_⟩
            rw [← hpayloads, hlength, List.length_append]
            simp only [List.length_singleton]
            omega

/-- **The first row of an address** is the one that is imported. -/
theorem payloads_collect (h : collect lib tabs = .ok c) :
    c.payloads = firstByAddress (importable lib tabs) :=
  (foldlM_collectRow h).1

/-- Every row is imported, skipped or merged. -/
theorem collect_accounts (h : collect lib tabs = .ok c) :
    c.payloads.length + c.skipped.length + c.merged.length = (dataRows tabs).length := by
  have hlength := (foldlM_collectRow h).2
  simpa using hlength

end Collect

end SalesTrades.Leads.RepImport
