import Mathlib.Data.List.Basic
import Mathlib.Data.List.TakeWhile
import Mathlib.Tactic.Ring
import SalesTrades.Library.CivilDate

/-!
# Dates and times as text

`fromisoformat` reads a date in one of the ISO 8601 forms and a time of day with an optional offset;
`isoformat` writes them, and `dateFromisoformat` reads a date alone. Whatever form a date and time are
written in, with dashes and colons, `fromisoformat` reads them back (`fromisoformat_written`), and so it
does what `isoformat` writes (`fromisoformat_isoformat`).
-/

set_option autoImplicit false

namespace SalesTrades.Library.DateText

open SalesTrades.Library.CivilDate

/-! ## Digits -/

/-- The last `width` decimal digits of `n`. -/
def padded : ℕ → ℕ → List Char
  | 0, _ => []
  | width + 1, n => padded width (n / 10) ++ [Nat.digitChar (n % 10)]

/-- Exactly `width` digits, after which `acc` has been read, and the rest of the text. -/
def readDigits : ℕ → ℕ → List Char → Option (ℕ × List Char)
  | 0, acc, cs => some (acc, cs)
  | width + 1, acc, c :: cs =>
      if c.isDigit then readDigits width (10 * acc + (c.toNat - 48)) cs else none
  | _ + 1, _, [] => none

theorem digitChar_facts : ∀ d < 10, (Nat.digitChar d).isDigit = true ∧
    (Nat.digitChar d).toNat - 48 = d := by
  decide

theorem length_padded (width n : ℕ) : (padded width n).length = width := by
  induction width generalizing n with
  | zero => rfl
  | succ width ih => rw [padded, List.length_append, ih, List.length_singleton]

theorem isDigit_padded {width n : ℕ} {c : Char} (h : c ∈ padded width n) : c.isDigit = true := by
  induction width generalizing n with
  | zero => cases h
  | succ width ih =>
      rw [padded, List.mem_append, List.mem_singleton] at h
      rcases h with h | rfl
      · exact ih h
      · exact (digitChar_facts _ (Nat.mod_lt n (by decide))).1

/-- Digits are read in two goes. -/
theorem readDigits_add (width width' acc : ℕ) (cs : List Char) : readDigits (width + width') acc cs =
    (readDigits width acc cs).bind fun r => readDigits width' r.1 r.2 := by
  induction width generalizing acc cs with
  | zero => rw [Nat.zero_add, readDigits, Option.bind_some]
  | succ width ih =>
      rw [Nat.succ_add]
      cases cs with
      | nil => rfl
      | cons c cs =>
          simp only [readDigits]
          split
          · exact ih _ _
          · rfl

/-- What is written in digits is read back. -/
theorem readDigits_padded {width n : ℕ} (h : n < 10 ^ width) (acc : ℕ) (cs : List Char) :
    readDigits width acc (padded width n ++ cs) = some (acc * 10 ^ width + n, cs) := by
  induction width generalizing n cs with
  | zero =>
      have hzero : n = 0 := by simpa using h
      rw [hzero]
      simp [padded, readDigits]
  | succ width ih =>
      rw [pow_succ] at h
      obtain ⟨hdigit, hvalue⟩ := digitChar_facts (n % 10) (Nat.mod_lt n (by decide))
      rw [padded, List.append_assoc, readDigits_add, ih (by omega), Option.bind_some]
      simp only [List.singleton_append, readDigits, hdigit, if_true, hvalue, Option.some.injEq,
        Prod.mk.injEq, and_true]
      rw [pow_succ]
      have hsplit := Nat.div_add_mod n 10
      have hshift : 10 * (acc * 10 ^ width) = acc * (10 ^ width * 10) := by ring
      omega

/-! ## Reading -/

/-- The character between the date and the time: where `fromisoformat` splits its text. -/
def separatorLocation (cs : List Char) : Option ℕ :=
  if cs.length = 7 then some 7
  else if cs[4]? = some '-' then
    if cs[5]? = some 'W' then
      if cs[8]? = some '-' then
        if cs.length = 9 then none
        else if cs[10]?.any Char.isDigit then some 8
        else some 10
      else some 8
    else some 10
  else if cs[4]? = some 'W' then
    let digits := ((cs.drop 7).takeWhile Char.isDigit).length
    if digits < 2 then some (7 + digits)
    else if digits % 2 = 1 then some 7
    else some 8
  else some 8

/-- The rest after the dash of a text with dashes. -/
def afterDash (dashed : Bool) (cs : List Char) : Option (List Char) :=
  if dashed then
    match cs with
    | '-' :: rest => some rest
    | _ => none
  else some cs

/-- Monday is `0`. -/
def weekday (n : ℕ) : ℕ := (n + 6) % 7

/-- The last day of the year 9999. -/
def maxOrdinal : ℕ := 3652059

/-- The number of a day of a week. -/
def isoWeekday (year week day : ℕ) : Option ℕ :=
  let first := weekday (ordinal year 1 1)
  let longYear := first = 3 ∨ (first = 2 ∧ isLeap year = true)
  if (1 ≤ year ∧ year ≤ 9999) ∧ 1 ≤ week ∧ (week ≤ 52 ∨ week = 53 ∧ longYear) ∧ 1 ≤ day ∧ day ≤ 7 then
    let monday := ordinal year 1 1 - first + if 3 < first then 7 else 0
    let n := monday + (week - 1) * 7 + (day - 1)
    if n ≤ maxOrdinal then some n else none
  else none

/-- `_parse_isoformat_date`: the number of the day. -/
def parseIsoformatDate (cs : List Char) : Option ℕ :=
  (readDigits 4 0 cs).bind fun (year, cs) =>
    let dashed : Bool := cs.head? = some '-'
    let cs := if dashed then cs.tail else cs
    if cs.head? = some 'W' then
      (readDigits 2 0 cs.tail).bind fun (week, cs) =>
        if cs = [] then isoWeekday year week 1
        else (afterDash dashed cs).bind fun cs => (readDigits 1 0 cs).bind fun (day, cs) =>
          if cs = [] then isoWeekday year week day else none
    else
      (readDigits 2 0 cs).bind fun (month, cs) => (afterDash dashed cs).bind fun cs =>
        (readDigits 2 0 cs).bind fun (day, cs) =>
          if cs = [] ∧ Valid year month day then some (ordinal year month day) else none

/-- `date.fromisoformat`. -/
def dateFromisoformat (cs : List Char) : Option ℕ :=
  if cs.length = 7 ∨ cs.length = 8 ∨ cs.length = 10 then parseIsoformatDate cs else none

/-- Two digits, after a colon where the text has colons. -/
def component (colons : Bool) (cs : List Char) : Option (ℕ × List Char) :=
  if colons then
    match cs with
    | ':' :: rest => readDigits 2 0 rest
    | _ => none
  else readDigits 2 0 cs

/-- A fraction of a second in microseconds; digits after the sixth are dropped. -/
def fraction : List Char → Option ℕ
  | [] => some 0
  | c :: digits =>
      if (c = '.' ∨ c = ',') ∧ digits ≠ [] ∧ digits.all Char.isDigit then
        (readDigits (min 6 digits.length) 0 digits).map fun r =>
          r.1 * 10 ^ (6 - min 6 digits.length)
      else none

/-- `_parse_hh_mm_ss_ff`. -/
def parseHhMmSsFf (cs : List Char) : Option Clock :=
  (readDigits 2 0 cs).bind fun (hour, cs) =>
    if cs = [] then some ⟨hour, 0, 0, 0⟩
    else
      let colons : Bool := cs.head? = some ':'
      (component colons cs).bind fun (minute, cs) =>
        if cs = [] then some ⟨hour, minute, 0, 0⟩
        else (component colons cs).bind fun (second, cs) =>
          (fraction cs).map fun microsecond => ⟨hour, minute, second, microsecond⟩

def isZoneStart (c : Char) : Bool := c = '+' || c = '-' || c = 'Z'

/-- `_parse_isoformat_time`: the clock, and the offset in microseconds. -/
def parseIsoformatTime (cs : List Char) : Option (Clock × Option ℤ) :=
  (parseHhMmSsFf (cs.takeWhile fun c => !isZoneStart c)).bind fun clock =>
    match cs.dropWhile fun c => !isZoneStart c with
    | [] => some (clock, none)
    | sign :: zone =>
        if sign = 'Z' then if zone = [] then some (clock, some 0) else none
        else (parseHhMmSsFf zone).bind fun z =>
          -- `timezone` takes less than a day
          if z.micros < 86400000000 then
            some (clock, some (if sign = '-' then -(z.micros : ℤ) else z.micros))
          else none

/-- The day, the microseconds of the day, and the offset, if there is one. -/
structure Stamp where
  day : ℕ
  micros : ℕ
  offset : Option ℤ
  deriving DecidableEq

/-- `datetime.fromisoformat`; a date alone is its midnight. -/
def fromisoformat (cs : List Char) : Option Stamp :=
  if cs.length < 7 then none
  else (separatorLocation cs).bind fun location =>
    (parseIsoformatDate (cs.take location)).bind fun day =>
      match cs.drop location with
      | [] => some ⟨day, 0, none⟩
      | _ :: time => (parseIsoformatTime time).bind fun (clock, offset) =>
          if clock.Valid then some ⟨day, clock.micros, offset⟩ else none

/-! ## Writing -/

def dateText (year month day : ℕ) : List Char :=
  padded 4 year ++ '-' :: (padded 2 month ++ '-' :: padded 2 day)

/-- `YYYY-MM-DD`. -/
def isoDate (d : Date) : List Char := dateText d.year d.month d.day

/-- How far a time of day is written out. -/
inductive Precision where
  | hours
  | minutes
  | seconds
  | fraction (digits : ℕ)

/-- The text of this precision has all of the time. -/
def Precision.Exact : Precision → Clock → Prop
  | .hours, c => c.minute = 0 ∧ c.second = 0 ∧ c.microsecond = 0
  | .minutes, c => c.second = 0 ∧ c.microsecond = 0
  | .seconds, c => c.microsecond = 0
  | .fraction digits, c => 1 ≤ digits ∧ digits ≤ 6 ∧ 10 ^ (6 - digits) ∣ c.microsecond

/-- `HH[:MM[:SS[.ffffff]]]`. -/
def clockText : Precision → Clock → List Char
  | .hours, c => padded 2 c.hour
  | .minutes, c => padded 2 c.hour ++ ':' :: padded 2 c.minute
  | .seconds, c => padded 2 c.hour ++ ':' :: (padded 2 c.minute ++ ':' :: padded 2 c.second)
  | .fraction digits, c =>
      padded 2 c.hour ++ ':' :: (padded 2 c.minute ++ ':' :: (padded 2 c.second ++
        '.' :: padded digits (c.microsecond / 10 ^ (6 - digits))))

/-- A time of day with the precision it is written in. -/
structure WrittenClock where
  clock : Clock
  precision : Precision
  valid : clock.Valid
  isExact : precision.Exact clock

def WrittenClock.text (t : WrittenClock) : List Char := clockText t.precision t.clock

/-- `Z`, or an offset with its sign. -/
inductive ZoneText where
  | utc
  | signed (negative : Bool) (time : WrittenClock)

def ZoneText.text : ZoneText → List Char
  | .utc => ['Z']
  | .signed negative time => (if negative then '-' else '+') :: time.text

/-- The offset in microseconds. -/
def ZoneText.value : ZoneText → ℤ
  | .utc => 0
  | .signed negative time => if negative then -(time.clock.micros : ℤ) else time.clock.micros

def zoneText (zone : Option ZoneText) : List Char := (zone.map ZoneText.text).getD []

/-! ## Reading what is written -/

theorem padded_ne_nil {width n : ℕ} (hwidth : 1 ≤ width) : padded width n ≠ [] := by
  intro hnil
  have hlength := length_padded width n
  rw [hnil, List.length_nil] at hlength
  omega

theorem head_padded_ne {width n : ℕ} {c : Char} {cs : List Char} (hwidth : 1 ≤ width)
    (hc : c.isDigit = false) : (padded width n ++ cs).head? ≠ some c := by
  intro h
  rw [List.head?_append_of_ne_nil _ (padded_ne_nil hwidth)] at h
  rw [isDigit_padded (List.mem_of_head? h)] at hc
  cases hc

/-- A fraction of up to six digits. -/
theorem fraction_padded {digits micros : ℕ} (hpos : 1 ≤ digits) (hle : digits ≤ 6)
    (hdvd : 10 ^ (6 - digits) ∣ micros) (hmicros : micros < 1000000) :
    fraction ('.' :: padded digits (micros / 10 ^ (6 - digits))) = some micros := by
  have hlt : micros / 10 ^ (6 - digits) < 10 ^ digits := by
    apply Nat.div_lt_of_lt_mul
    rw [← pow_add, show 6 - digits + digits = 6 by omega]
    exact hmicros
  have hall : (padded digits (micros / 10 ^ (6 - digits))).all Char.isDigit = true := by
    rw [List.all_eq_true]
    exact fun c hc => isDigit_padded hc
  have hread := readDigits_padded hlt 0 []
  rw [List.append_nil, Nat.zero_mul, Nat.zero_add] at hread
  rw [fraction, if_pos ⟨Or.inl rfl, padded_ne_nil hpos, hall⟩, length_padded, min_eq_right hle, hread,
    Option.map_some, Nat.div_mul_cancel hdvd]

theorem readTwo {n : ℕ} (h : n < 100) (cs : List Char) :
    readDigits 2 0 (padded 2 n ++ cs) = some (n, cs) := by
  have hread := readDigits_padded (show n < 10 ^ 2 from h) 0 cs
  rwa [Nat.zero_mul, Nat.zero_add] at hread

/-- The parser of the times reads what is written in any precision. -/
theorem parseHhMmSsFf_text (t : WrittenClock) : parseHhMmSsFf t.text = some t.clock := by
  obtain ⟨⟨hour, minute, second, microsecond⟩, precision, ⟨hhour, hminute, hsecond, hmicro⟩, hexact⟩ := t
  dsimp only at hhour hminute hsecond hmicro
  have h2 : ∀ {n : ℕ}, n < 60 → ∀ cs, readDigits 2 0 (padded 2 n ++ cs) = some (n, cs) :=
    fun hn => readTwo (by omega)
  cases precision with
  | hours =>
      obtain ⟨hm, hs, hus⟩ := hexact
      dsimp only at hm hs hus
      have hread := readTwo (show hour < 100 by omega) []
      rw [List.append_nil] at hread
      simp [WrittenClock.text, clockText, parseHhMmSsFf, hread, hm, hs, hus]
  | minutes =>
      obtain ⟨hs, hus⟩ := hexact
      dsimp only at hs hus
      have hread := h2 hminute []
      rw [List.append_nil] at hread
      simp [WrittenClock.text, clockText, parseHhMmSsFf, readTwo (show hour < 100 by omega),
        component, hread, hs, hus]
  | seconds =>
      have hus : microsecond = 0 := hexact
      have hread := h2 hsecond []
      rw [List.append_nil] at hread
      simp [WrittenClock.text, clockText, parseHhMmSsFf, readTwo (show hour < 100 by omega),
        h2 hminute, component, hread, fraction, hus]
  | fraction digits =>
      obtain ⟨hpos, hle, hdvd⟩ := hexact
      simp [WrittenClock.text, clockText, parseHhMmSsFf, readTwo (show hour < 100 by omega),
        h2 hminute, h2 hsecond, component, fraction_padded hpos hle hdvd hmicro]

/-- A time of day has no character that starts an offset. -/
theorem isZoneStart_text {t : WrittenClock} {c : Char} (h : c ∈ t.text) : isZoneStart c = false := by
  have hdigit : ∀ {c : Char}, c.isDigit = true → isZoneStart c = false := by
    intro c hc
    have hne : ∀ x : Char, x.isDigit = false → c ≠ x := by
      rintro x hx rfl
      rw [hc] at hx
      cases hx
    simp [isZoneStart, hne '+' rfl, hne '-' rfl, hne 'Z' rfl]
  have hpadded : ∀ {width n : ℕ}, c ∈ padded width n → isZoneStart c = false :=
    fun hc => hdigit (isDigit_padded hc)
  obtain ⟨clock, precision, hvalid, hexact⟩ := t
  cases precision with
  | hours => exact hpadded h
  | minutes =>
      simp only [WrittenClock.text, clockText, List.mem_append, List.mem_cons] at h
      rcases h with h | rfl | h
      · exact hpadded h
      · rfl
      · exact hpadded h
  | seconds =>
      simp only [WrittenClock.text, clockText, List.mem_append, List.mem_cons] at h
      rcases h with h | rfl | h | rfl | h
      · exact hpadded h
      · rfl
      · exact hpadded h
      · rfl
      · exact hpadded h
  | fraction digits =>
      simp only [WrittenClock.text, clockText, List.mem_append, List.mem_cons] at h
      rcases h with h | rfl | h | rfl | h | rfl | h
      · exact hpadded h
      · rfl
      · exact hpadded h
      · rfl
      · exact hpadded h
      · rfl
      · exact hpadded h

theorem parseIsoformatTime_text (t : WrittenClock) (zone : Option ZoneText) :
    parseIsoformatTime (t.text ++ zoneText zone) = some (t.clock, zone.map ZoneText.value) := by
  have htext : ∀ c ∈ t.text, (!isZoneStart c) = true := fun c hc => by rw [isZoneStart_text hc]; rfl
  unfold parseIsoformatTime
  cases zone with
  | none =>
      simp only [zoneText, Option.map_none, Option.getD_none, List.append_nil]
      rw [List.takeWhile_eq_self_iff.2 htext, List.dropWhile_eq_nil_iff.2 htext, parseHhMmSsFf_text]
      rfl
  | some zone =>
      cases zone with
      | utc =>
          simp only [zoneText, ZoneText.text, Option.map_some, Option.getD_some]
          rw [List.takeWhile_append_of_pos htext, List.dropWhile_append_of_pos htext]
          simp [isZoneStart, parseHhMmSsFf_text, ZoneText.value]
      | signed negative time =>
          have hday := Clock.micros_lt time.valid
          have hsign : isZoneStart (if negative then '-' else '+') = true := by
            cases negative with
            | true => rfl
            | false => rfl
          simp only [zoneText, ZoneText.text, Option.map_some, Option.getD_some]
          rw [List.takeWhile_append_of_pos htext, List.dropWhile_append_of_pos htext]
          simp only [List.takeWhile_cons, List.dropWhile_cons, hsign, Bool.not_true,
            Bool.false_eq_true, if_false, List.append_nil]
          rw [parseHhMmSsFf_text, Option.bind_some, parseHhMmSsFf_text, Option.bind_some, if_pos hday]
          cases negative with
          | true => rfl
          | false => rfl

theorem length_isoDate (d : Date) : (isoDate d).length = 10 := by
  simp [isoDate, dateText, length_padded]

/-- The day of a date in dashes. -/
theorem parseIsoformatDate_isoDate (d : Date) :
    parseIsoformatDate (isoDate d) = some (ordinal d.year d.month d.day) := by
  have hyear := readDigits_padded d.year_lt 0
    ('-' :: (padded 2 d.month ++ '-' :: padded 2 d.day))
  rw [Nat.zero_mul, Nat.zero_add] at hyear
  have hweek : (padded 2 d.month ++ '-' :: padded 2 d.day).head? ≠ some 'W' :=
    head_padded_ne (by decide) rfl
  have hday := readTwo d.day_lt []
  rw [List.append_nil] at hday
  simp only [isoDate, dateText, parseIsoformatDate, hyear, Option.bind_some, List.head?_cons,
    decide_true, if_true, List.tail_cons, if_neg hweek, readTwo d.month_lt, afterDash, hday, d.valid,
    and_self]

theorem separatorLocation_isoDate (d : Date) (c : Char) (cs : List Char) :
    separatorLocation (isoDate d ++ c :: cs) = some 10 ∧ separatorLocation (isoDate d) = some 10 := by
  have hfour : ∀ rest, (isoDate d ++ rest)[4]? = some '-' := by
    intro rest
    simp [isoDate, dateText, padded]
  have hfive : ∀ rest, (isoDate d ++ rest)[5]? ≠ some 'W' := by
    intro rest h
    have hdigit := (digitChar_facts (d.month / 10 % 10) (Nat.mod_lt _ (by decide))).1
    simp only [isoDate, dateText, padded, List.nil_append, List.cons_append,
      List.getElem?_cons_succ, List.getElem?_cons_zero, Option.some.injEq] at h
    rw [h] at hdigit
    cases hdigit
  have hlength := length_isoDate d
  constructor
  · rw [separatorLocation, if_neg (by rw [List.length_append, hlength, List.length_cons]; omega),
      if_pos (hfour _), if_neg (hfive _)]
  · have h4 := hfour []
    have h5 := hfive []
    rw [List.append_nil] at h4 h5
    rw [separatorLocation, if_neg (by omega), if_pos h4, if_neg h5]

/-- **A date alone is read as its midnight.** -/
theorem fromisoformat_isoDate (d : Date) :
    fromisoformat (isoDate d) = some ⟨ordinal d.year d.month d.day, 0, none⟩ := by
  have hlength := length_isoDate d
  rw [fromisoformat, if_neg (by omega), (separatorLocation_isoDate d ' ' []).2, Option.bind_some,
    List.take_of_length_le hlength.le, parseIsoformatDate_isoDate, Option.bind_some,
    List.drop_eq_nil_of_le (by omega)]

/-- **Round trip.** A date and time are read back in every precision, with every separator, and with or
without an offset. -/
theorem fromisoformat_written (d : Date) (separator : Char) (t : WrittenClock)
    (zone : Option ZoneText) : fromisoformat (isoDate d ++ separator :: (t.text ++ zoneText zone)) =
      some ⟨ordinal d.year d.month d.day, t.clock.micros, zone.map ZoneText.value⟩ := by
  have hlength := length_isoDate d
  have htake : (isoDate d ++ separator :: (t.text ++ zoneText zone)).take 10 = isoDate d := by
    rw [← hlength, List.take_left]
  have hdrop : (isoDate d ++ separator :: (t.text ++ zoneText zone)).drop 10 =
      separator :: (t.text ++ zoneText zone) := by
    rw [← hlength, List.drop_left]
  rw [fromisoformat, if_neg (by rw [List.length_append]; omega),
    (separatorLocation_isoDate d separator _).1, Option.bind_some, htake, parseIsoformatDate_isoDate,
    Option.bind_some, hdrop]
  dsimp only
  rw [parseIsoformatTime_text, Option.bind_some, if_pos t.valid]

/-! ## What is written by `isoformat` -/

/-- The precision of `isoformat`: seconds, and microseconds where there are any. -/
def fullPrecision (c : Clock) : Precision := if c.microsecond = 0 then .seconds else .fraction 6

/-- The precision of an offset: minutes, and what is finer where there is any. -/
def offsetPrecision (c : Clock) : Precision :=
  if c.second = 0 ∧ c.microsecond = 0 then .minutes else fullPrecision c

/-- `_format_offset`. -/
def formatOffset (offset : ℤ) : List Char :=
  let c := Clock.ofMicros offset.natAbs
  (if offset < 0 then '-' else '+') :: clockText (offsetPrecision c) c

/-- `datetime.isoformat`. -/
def isoformat (s : Stamp) : List Char :=
  let c := Clock.ofMicros s.micros
  dateText (yearOf s.day) (monthOf s.day) (dayOf s.day) ++
    'T' :: (clockText (fullPrecision c) c ++ (s.offset.map formatOffset).getD [])

theorem fullPrecision_exact (c : Clock) : (fullPrecision c).Exact c := by
  unfold fullPrecision
  split
  · assumption
  · exact ⟨by decide, le_refl 6, one_dvd _⟩

theorem offsetPrecision_exact (c : Clock) : (offsetPrecision c).Exact c := by
  unfold offsetPrecision
  split
  · assumption
  · exact fullPrecision_exact c

/-- An offset of less than a day. -/
def IsOffset (offset : ℤ) : Prop := offset.natAbs < 86400000000

instance (offset : ℤ) : Decidable (IsOffset offset) :=
  inferInstanceAs (Decidable (offset.natAbs < 86400000000))

theorem ZoneText.isOffset (zone : ZoneText) : IsOffset zone.value := by
  cases zone with
  | utc =>
      rw [IsOffset, ZoneText.value, Int.natAbs_zero]
      omega
  | signed negative time =>
      have hday := Clock.micros_lt time.valid
      rw [IsOffset, ZoneText.value]
      cases negative with
      | true => simpa using hday
      | false => simpa using hday

/-- The text of an offset as one that is read. -/
theorem formatOffset_eq {offset : ℤ} (h : IsOffset offset) :
    ∃ zone : ZoneText, formatOffset offset = zone.text ∧ zone.value = offset := by
  obtain ⟨hvalid, hmicros⟩ := Clock.valid_ofMicros h
  refine ⟨.signed (decide (offset < 0)) ⟨_, _, hvalid, offsetPrecision_exact _⟩, ?_, ?_⟩
  · by_cases hneg : offset < 0
    · simp [formatOffset, ZoneText.text, WrittenClock.text, hneg]
    · simp [formatOffset, ZoneText.text, WrittenClock.text, hneg]
  · simp only [ZoneText.value, hmicros, decide_eq_true_eq]
    split
    · omega
    · omega

/-- **Round trip.** `isoformat` writes what `fromisoformat` reads. -/
theorem fromisoformat_isoformat (d : Date) {micros : ℕ} (hmicros : micros < 86400000000)
    {offset : Option ℤ} (hoffset : ∀ o ∈ offset, IsOffset o) :
    fromisoformat (isoformat ⟨ordinal d.year d.month d.day, micros, offset⟩) =
      some ⟨ordinal d.year d.month d.day, micros, offset⟩ := by
  obtain ⟨hvalid, hclock⟩ := Clock.valid_ofMicros hmicros
  obtain ⟨zone, htext, hvalue⟩ : ∃ zone : Option ZoneText,
      (offset.map formatOffset).getD [] = zoneText zone ∧ zone.map ZoneText.value = offset := by
    cases offset with
    | none => exact ⟨none, rfl, rfl⟩
    | some o =>
        obtain ⟨zone, htext, hvalue⟩ := formatOffset_eq (hoffset o rfl)
        exact ⟨some zone, htext, congrArg some hvalue⟩
  have hread := fromisoformat_written d 'T' ⟨_, _, hvalid, fullPrecision_exact _⟩ zone
  simp only [isoformat, d.yearOf_ordinal, d.monthOf_ordinal, d.dayOf_ordinal, htext]
  rw [isoDate, hclock, hvalue] at hread
  exact hread

end SalesTrades.Library.DateText
