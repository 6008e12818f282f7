import Mathlib.Tactic.IntervalCases
import SalesTrades.Library.DateText

/-!
# `strptime`

A format is compiled to directives, each a list of alternatives that are tried in order, and the text
is matched from its start. The first match counts: it is not tried again when characters remain after
it, and then the text is rejected (`strptime_monthDayYear`). The digits are those of ASCII, and what is
white space is a parameter.
-/

set_option autoImplicit false

namespace SalesTrades.Library.Strptime

open SalesTrades.Library.CivilDate SalesTrades.Library.DateText

/-! ## Formats -/

/-- `%m`, `%d`, `%Y`, `%H`, `%M`, `%S`, another character, or white space. -/
inductive Directive where
  | month
  | day
  | year
  | hour
  | minute
  | second
  | literal (c : Char)
  | whitespace
  deriving DecidableEq

def directive? : Char → Option Directive
  | 'm' => some .month
  | 'd' => some .day
  | 'Y' => some .year
  | 'H' => some .hour
  | 'M' => some .minute
  | 'S' => some .second
  | _ => none

/-- The directives of a format; `none` where one is not known. -/
def compile (space : Char → Bool) : List Char → Option (List Directive)
  | [] => some []
  | ['%'] => none
  | '%' :: c :: format => (directive? c).bind fun d => (compile space format).map (d :: ·)
  | c :: format =>
      (compile space format).map fun ds =>
        -- a run of white space is one directive
        if space c then if ds.head? = some .whitespace then ds else .whitespace :: ds
        else .literal c :: ds

/-! ## Matching -/

/-- The values of a text, with those of a text that leaves them out. -/
structure Fields where
  month : ℕ := 1
  day : ℕ := 1
  year : ℕ := 1900
  hour : ℕ := 0
  minute : ℕ := 0
  second : ℕ := 0

def Fields.set (f : Fields) (value : ℕ) : Directive → Fields
  | .month => { f with month := value }
  | .day => { f with day := value }
  | .year => { f with year := value }
  | .hour => { f with hour := value }
  | .minute => { f with minute := value }
  | .second => { f with second := value }
  | .literal _ => f
  | .whitespace => f

def between (lo hi c : Char) : Bool := decide (lo ≤ c) && decide (c ≤ hi)

/-- The patterns of the directives: alternatives in order, each a list of character classes. -/
def Directive.patterns : Directive → List (List (Char → Bool))
  | .month => [[between '1' '1', between '0' '2'], [between '0' '0', between '1' '9'],
      [between '1' '9']]
  | .day => [[between '3' '3', between '0' '1'], [between '1' '2', Char.isDigit],
      [between '0' '0', between '1' '9'], [between '1' '9'], [between ' ' ' ', between '1' '9']]
  | .year => [[Char.isDigit, Char.isDigit, Char.isDigit, Char.isDigit]]
  | .hour => [[between '2' '2', between '0' '3'], [between '0' '1', Char.isDigit], [Char.isDigit]]
  | .minute => [[between '0' '5', Char.isDigit], [Char.isDigit]]
  | .second => [[between '6' '6', between '0' '1'], [between '0' '5', Char.isDigit], [Char.isDigit]]
  | .literal c => [[between c c]]
  | .whitespace => []

/-- A text that starts with characters of the classes, split after them. -/
def takeClasses : List (Char → Bool) → List Char → Option (List Char × List Char)
  | [], cs => some ([], cs)
  | p :: ps, c :: cs => if p c then (takeClasses ps cs).map fun r => (c :: r.1, r.2) else none
  | _ :: _, [] => none

/-- The matches of a directive at the start of a text, in the order they are tried; of white space the
longest first. -/
def Directive.candidates (space : Char → Bool) (d : Directive) (cs : List Char) :
    List (List Char × List Char) :=
  if d = .whitespace then
    let run := (cs.takeWhile space).length
    (List.range run).map fun i => (cs.take (run - i), cs.drop (run - i))
  else d.patterns.filterMap fun ps => takeClasses ps cs

/-- `int(text)`. -/
def valueOf (text : List Char) : ℕ :=
  text.foldl (fun n c => if c.isDigit then 10 * n + (c.toNat - 48) else n) 0

/-- The matches of a format, in the order they are tried. -/
def matchAll (space : Char → Bool) : List Directive → List Char → Fields → List (Fields × List Char)
  | [], cs, f => [(f, cs)]
  | d :: ds, cs, f =>
      (d.candidates space cs).flatMap fun r => matchAll space ds r.2 (f.set (valueOf r.1) d)

/-- `datetime.strptime`; `none` is a `ValueError`. -/
def strptime (space : Char → Bool) (cs format : List Char) : Option Stamp :=
  (compile space format).bind fun ds =>
    match (matchAll space ds cs {}).head? with
    | some (f, []) =>
        if Valid f.year f.month f.day ∧ f.second < 60 then
          some ⟨ordinal f.year f.month f.day, Clock.micros ⟨f.hour, f.minute, f.second, 0⟩, none⟩
        else none
    | _ => none

/-! ## First matches -/

variable {space : Char → Bool} {d : Directive} {ds : List Directive} {cs text rest : List Char}
  {f : Fields}

/-- The first match of a format starts with the first match of its first directive, when the others
match what that leaves. -/
theorem head_matchAll {result : Fields × List Char}
    (hfirst : (d.candidates space cs).head? = some (text, rest))
    (hrest : (matchAll space ds rest (f.set (valueOf text) d)).head? = some result) :
    (matchAll space (d :: ds) cs f).head? = some result := by
  obtain ⟨others, hcandidates⟩ : ∃ others, d.candidates space cs = (text, rest) :: others := by
    cases hlist : d.candidates space cs with
    | nil =>
        rw [hlist] at hfirst
        cases hfirst
    | cons r others =>
        rw [hlist, List.head?_cons, Option.some.injEq] at hfirst
        exact ⟨others, by rw [hfirst]⟩
  rw [matchAll, hcandidates, List.flatMap_cons, List.head?_append, hrest, Option.some_or]

theorem valueOf_padded {width n : ℕ} (h : n < 10 ^ width) : valueOf (padded width n) = n := by
  induction width generalizing n with
  | zero =>
      have hzero : n = 0 := by simpa using h
      rw [hzero]
      rfl
  | succ width ih =>
      rw [pow_succ] at h
      obtain ⟨hdigit, hvalue⟩ := digitChar_facts (n % 10) (Nat.mod_lt n (by decide))
      have hprevious := ih (n := n / 10) (by omega)
      rw [valueOf] at hprevious
      rw [valueOf, padded, List.foldl_append, hprevious, List.foldl_cons, List.foldl_nil, if_pos hdigit,
        hvalue]
      omega

theorem month_candidates (cs : List Char) {month : ℕ} (hpos : 1 ≤ month) (hle : month ≤ 12) :
    (Directive.month.candidates space (padded 2 month ++ cs)).head? = some (padded 2 month, cs) := by
  interval_cases month <;> rfl

theorem day_candidates (cs : List Char) {day : ℕ} (hpos : 1 ≤ day) (hle : day ≤ 31) :
    (Directive.day.candidates space (padded 2 day ++ cs)).head? = some (padded 2 day, cs) := by
  interval_cases day <;> rfl

theorem year_candidates (cs : List Char) (year : ℕ) :
    (Directive.year.candidates space (padded 4 year ++ cs)).head? = some (padded 4 year, cs) := by
  have hdigit : ∀ n, (Nat.digitChar (n % 10)).isDigit = true :=
    fun n => (digitChar_facts _ (Nat.mod_lt n (by decide))).1
  simp [Directive.candidates, Directive.patterns, takeClasses, padded, hdigit]

theorem literal_candidates (c : Char) (cs : List Char) :
    ((Directive.literal c).candidates space (c :: cs)).head? = some ([c], cs) := by
  simp [Directive.candidates, Directive.patterns, takeClasses, between]

/-! ## Months first -/

/-- `MM-DD-YYYY`. -/
def monthDayYear (d : Date) : List Char :=
  padded 2 d.month ++ '-' :: (padded 2 d.day ++ '-' :: padded 4 d.year)

/-- The format `%m-%d-%Y` takes a date with nothing after it. -/
theorem strptime_monthDayYear (hspace : space '-' = false) (d : Date) (rest : List Char) :
    strptime space (monthDayYear d ++ rest) ['%', 'm', '-', '%', 'd', '-', '%', 'Y'] =
      if rest = [] then some ⟨ordinal d.year d.month d.day, 0, none⟩ else none := by
  have hcompile : compile space ['%', 'm', '-', '%', 'd', '-', '%', 'Y'] =
      some [.month, .literal '-', .day, .literal '-', .year] := by
    simp [compile, directive?, hspace]
  have hall : ∀ leap, ∀ m < 13, daysInMonth leap m ≤ 31 := by decide
  have hday : d.day ≤ 31 :=
    d.day_le.trans (hall (isLeap d.year) d.month (Nat.lt_succ_of_le d.month_le))
  have hmatch : (matchAll space [.month, .literal '-', .day, .literal '-', .year]
      (monthDayYear d ++ rest) {}).head? =
        some ({ month := d.month, day := d.day, year := d.year }, rest) := by
    simp only [monthDayYear, List.append_assoc, List.cons_append]
    apply head_matchAll (month_candidates _ d.month_pos d.month_le)
    apply head_matchAll (literal_candidates _ _)
    apply head_matchAll (day_candidates _ d.day_pos hday)
    apply head_matchAll (literal_candidates _ _)
    apply head_matchAll (year_candidates _ _)
    simp [matchAll, Fields.set, valueOf_padded d.month_lt, valueOf_padded d.day_lt,
      valueOf_padded d.year_lt]
  rw [strptime, hcompile, Option.bind_some, hmatch]
  cases rest with
  | nil =>
      rw [if_pos rfl]
      simp [d.valid, Clock.micros]
  | cons c rest => rfl

/-- No month starts with a space. -/
theorem strptime_space (cs : List Char) (hspace : space '-' = false) :
    strptime space (' ' :: cs) ['%', 'm', '-', '%', 'd', '-', '%', 'Y'] = none := by
  have hcompile : compile space ['%', 'm', '-', '%', 'd', '-', '%', 'Y'] =
      some [.month, .literal '-', .day, .literal '-', .year] := by
    simp [compile, directive?, hspace]
  rw [strptime, hcompile]
  rfl

end SalesTrades.Library.Strptime
