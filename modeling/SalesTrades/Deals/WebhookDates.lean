import SalesTrades.Deals.Webhook
import SalesTrades.PythonDates

/-!
# The dates of a webhook

`parse_webhook_date` reads the expected close of a deal and `_coerce_date` its custom date fields, from
the same webhook. The first strips the text and drops a time; the second passes the text to `strptime` as
it is. So they agree on a date alone, and a date with a time or with spaces around it is lost as a custom
field (`coerceDate_agrees_iff`).
-/

set_option autoImplicit false

namespace SalesTrades.Deals

open SalesTrades.Library.DateText SalesTrades.Library.Strptime

/-- `date.fromisoformat`; `none` is a `ValueError`. -/
def dateFromIso (s : String) : Option Date :=
  (dateFromisoformat s.toList).map fun n : ℕ => ⟨n - epochOrdinal⟩

/-- The library functions on dates. -/
def dateLib (base : PyLib) : PyLib :=
  { base with
    strptime := datetimeStrptime
    timestampFromIso := datetimeFromIsoformat
    dateFromIso := dateFromIso }

/-! ## What a webhook sends -/

/-- `MM-DD-YYYY` or `MM-DD-YYYY HH:MM:SS` with spaces around it. -/
structure WebhookText where
  before : ℕ
  date : SalesTrades.Library.CivilDate.Date
  time : Option SalesTrades.Library.CivilDate.Clock
  after : ℕ

namespace WebhookText

/-- The time with the space before it. -/
def timeText (w : WebhookText) : List Char :=
  (w.time.map fun c => ' ' :: clockText .seconds c).getD []

def chars (w : WebhookText) : List Char :=
  List.replicate w.before ' ' ++ (monthDayYear w.date ++ w.timeText) ++ List.replicate w.after ' '

def text (w : WebhookText) : String := String.ofList w.chars

/-- The day that is sent. -/
def day (w : WebhookText) : Date :=
  ⟨SalesTrades.Library.CivilDate.ordinal w.date.year w.date.month w.date.day - epochOrdinal⟩

/-- The date alone. -/
def DateOnly (w : WebhookText) : Prop := w.before = 0 ∧ w.time = none ∧ w.after = 0

end WebhookText

/-! ## Stripping -/

theorem dropWhile_replicate (n : ℕ) {c : Char} (cs : List Char) (hc : isWhitespace c = false) :
    (List.replicate n ' ' ++ c :: cs).dropWhile isWhitespace = c :: cs := by
  induction n with
  | zero => simp [hc]
  | succ n ih => simpa [List.replicate_succ, show isWhitespace ' ' = true from rfl] using ih

/-- Spaces around a text that starts and ends with other characters are stripped. -/
theorem strip_spaces (n m : ℕ) {cs : List Char} {first last : Char} {rest init : List Char}
    (hcons : cs = first :: rest) (hsnoc : cs = init ++ [last]) (hfirst : isWhitespace first = false)
    (hlast : isWhitespace last = false) :
    strip (String.ofList (List.replicate n ' ' ++ cs ++ List.replicate m ' ')) = String.ofList cs := by
  have hleft : (List.replicate n ' ' ++ cs ++ List.replicate m ' ').dropWhile isWhitespace =
      cs ++ List.replicate m ' ' := by
    rw [List.append_assoc, hcons, List.cons_append, dropWhile_replicate n _ hfirst]
  rw [strip, String.toList_ofList, hleft, List.reverse_append, List.reverse_replicate, hsnoc,
    List.reverse_append, List.reverse_singleton, List.singleton_append, dropWhile_replicate m _ hlast,
    List.reverse_cons, List.reverse_reverse]

theorem isWhitespace_of_isDigit {c : Char} (h : c.isDigit = true) : isWhitespace c = false := by
  rw [Char.isDigit_iff_toNat, show '0'.toNat = 48 from rfl, show '9'.toNat = 57 from rfl] at h
  simp only [isWhitespace, Bool.or_eq_false_iff, Bool.and_eq_false_iff, decide_eq_false_iff_not,
    beq_eq_false_iff_ne]
  omega

theorem padded_snoc (width n : ℕ) : ∃ init last, padded (width + 1) n = init ++ [last] ∧
    last.isDigit = true :=
  ⟨_, _, rfl, (digitChar_facts _ (Nat.mod_lt n (by decide))).1⟩

theorem padded_cons (width n : ℕ) : ∃ first rest, padded (width + 1) n = first :: rest ∧
    first.isDigit = true := by
  obtain ⟨first, rest, hcons⟩ := List.exists_cons_of_ne_nil (padded_ne_nil (n := n) width.succ_pos)
  exact ⟨first, rest, hcons, isDigit_padded (hcons ▸ List.mem_cons_self)⟩

section Webhook

variable (w : WebhookText)

/-- The text in the middle starts and ends with a digit. -/
theorem WebhookText.strip_text :
    strip w.text = String.ofList (monthDayYear w.date ++ w.timeText) := by
  obtain ⟨first, rest, hcons, hfirst⟩ := padded_cons 1 w.date.month
  have hends : ∃ init last, monthDayYear w.date ++ w.timeText = init ++ [last] ∧
      last.isDigit = true := by
    cases htime : w.time with
    | none =>
        obtain ⟨init, last, hsnoc, hlast⟩ := padded_snoc 3 w.date.year
        refine ⟨padded 2 w.date.month ++ '-' :: (padded 2 w.date.day ++ '-' :: init), last, ?_, hlast⟩
        simp [WebhookText.timeText, htime, monthDayYear, hsnoc]
    | some c =>
        obtain ⟨init, last, hsnoc, hlast⟩ := padded_snoc 1 c.second
        refine ⟨monthDayYear w.date ++ ' ' ::
          (padded 2 c.hour ++ ':' :: (padded 2 c.minute ++ ':' :: init)), last, ?_, hlast⟩
        simp [WebhookText.timeText, htime, clockText, hsnoc]
  obtain ⟨init, last, hsnoc, hlast⟩ := hends
  have hhead : monthDayYear w.date ++ w.timeText = first :: (rest ++
      '-' :: (padded 2 w.date.day ++ '-' :: padded 4 w.date.year) ++ w.timeText) := by
    rw [monthDayYear, hcons]
    rfl
  exact strip_spaces w.before w.after hhead hsnoc (isWhitespace_of_isDigit hfirst)
    (isWhitespace_of_isDigit hlast)

/-- The first word is the date. -/
theorem WebhookText.firstWord_strip :
    firstWord (strip w.text) = String.ofList (monthDayYear w.date) := by
  have hspace : ∀ c ∈ monthDayYear w.date, (c != ' ') = true := by
    intro c hc
    have hdigit : ∀ {c : Char}, c.isDigit = true → (c != ' ') = true := by
      rintro c hc
      rw [bne_iff_ne]
      rintro rfl
      cases hc
    simp only [monthDayYear, List.mem_append, List.mem_cons] at hc
    rcases hc with hc | rfl | hc | rfl | hc
    · exact hdigit (isDigit_padded hc)
    · rfl
    · exact hdigit (isDigit_padded hc)
    · rfl
    · exact hdigit (isDigit_padded hc)
  rw [w.strip_text, firstWord, String.toList_ofList, List.takeWhile_append_of_pos hspace]
  cases htime : w.time with
  | none => simp [WebhookText.timeText, htime]
  | some c => simp [WebhookText.timeText, htime]

theorem webhookDateFormat_toList :
    webhookDateFormat.toList = ['%', 'm', '-', '%', 'd', '-', '%', 'Y'] := by decide

/-- A date that `strptime` has read at midnight. -/
theorem dateOf_datetimeOf (n : ℕ) : dateOf (datetimeOf ⟨n, 0, none⟩) = ⟨n - epochOrdinal⟩ := by
  have hmidnight : 0 < 86400000000 := by decide
  have hday := (wallAt_div n hmidnight).1
  rw [dateOf, datetimeOf, Date.mk.injEq]
  exact hday

/-- **`parse_webhook_date` reads the date of everything that a webhook sends.** -/
theorem parseWebhookDate_text (base : PyLib) :
    parseWebhookDate (dateLib base) (some w.text) = .ok (some w.day) := by
  have hne : w.text ≠ "" := by
    intro hempty
    have hnil := congrArg String.toList (hempty ▸ w.strip_text)
    have hstrip : (strip "").toList = [] := by decide
    rw [hstrip, String.toList_ofList] at hnil
    have hmonth := (List.append_eq_nil_iff.1 (List.append_eq_nil_iff.1 hnil.symm).1).1
    exact padded_ne_nil (by decide) hmonth
  have hread : datetimeStrptime (firstWord (strip w.text)) webhookDateFormat =
      some (datetimeOf ⟨SalesTrades.Library.CivilDate.ordinal w.date.year w.date.month w.date.day, 0,
        none⟩) := by
    have hdash : isWhitespace '-' = false := rfl
    have hstrptime := strptime_monthDayYear hdash w.date []
    rw [if_pos rfl, List.append_nil] at hstrptime
    rw [w.firstWord_strip, datetimeStrptime, String.toList_ofList, webhookDateFormat_toList, hstrptime,
      Option.map_some]
  simp only [parseWebhookDate, if_neg hne, dateLib, hread, dateOf_datetimeOf]
  rfl

/-- What a webhook sends is no ISO date. -/
theorem WebhookText.dateFromIso_firstTen : dateFromIso (firstTen w.text) = none := by
  have hread : readDigits 4 0 (w.chars.take 10) = none := by
    cases hbefore : w.before with
    | zero =>
        simp [WebhookText.chars, hbefore, monthDayYear, padded, readDigits]
    | succ n =>
        simp [WebhookText.chars, hbefore, List.replicate_succ, readDigits]
  rw [dateFromIso, firstTen, WebhookText.text, String.toList_ofList, String.toList_ofList,
    dateFromisoformat]
  split
  · rw [parseIsoformatDate, hread]
    rfl
  · rfl

/-- **`_coerce_date` reads a date alone, and nothing else.** -/
theorem coerceDate_text (base : PyLib) :
    (w.DateOnly → coerceDate (dateLib base) (.str w.text) = some w.day) ∧
      (¬ w.DateOnly → coerceDate (dateLib base) (.str w.text) = none) := by
  have hcoerce : coerceDate (dateLib base) (.str w.text) =
      (datetimeStrptime w.text webhookDateFormat).map dateOf := by
    simp only [coerceDate, dateLib, w.dateFromIso_firstTen, Option.none_or]
  rw [hcoerce, datetimeStrptime, WebhookText.text, String.toList_ofList, webhookDateFormat_toList,
    Option.map_map]
  cases hbefore : w.before with
  | succ n =>
      have hnone : strptime isWhitespace w.chars ['%', 'm', '-', '%', 'd', '-', '%', 'Y'] = none := by
        rw [WebhookText.chars, hbefore, List.replicate_succ, List.cons_append, List.cons_append,
          strptime_space _ rfl]
      rw [hnone]
      refine ⟨fun hdate => ?_, fun _ => rfl⟩
      rw [hdate.1] at hbefore
      cases hbefore
  | zero =>
      have hchars : w.chars = monthDayYear w.date ++ (w.timeText ++ List.replicate w.after ' ') := by
        rw [WebhookText.chars, hbefore, List.replicate_zero, List.nil_append, List.append_assoc]
      have hrest : w.timeText ++ List.replicate w.after ' ' = [] ↔ w.DateOnly := by
        rw [List.append_eq_nil_iff, List.replicate_eq_nil_iff, WebhookText.DateOnly, hbefore]
        cases htime : w.time with
        | none => simp [WebhookText.timeText, htime]
        | some c => simp [WebhookText.timeText, htime]
      rw [hchars, strptime_monthDayYear rfl]
      constructor
      · intro hdate
        rw [if_pos (hrest.2 hdate), Option.map_some, Function.comp_apply, dateOf_datetimeOf]
        rfl
      · intro hdate
        rw [if_neg (fun hnil => hdate (hrest.1 hnil))]
        rfl

/-- A custom date that is sent with a time or with spaces around it becomes no value. -/
theorem coerceCfValue_dropped (base : PyLib) (hdate : ¬ w.DateOnly) :
    coerceCfValue (dateLib base) .date (.str w.text) = .ok none := by
  unfold coerceCfValue
  split
  · rfl
  · simp only [(coerceDate_text w base).2 hdate, Option.map_none]

end Webhook

/-! ## Both parsers -/

/-- A value that is read: by the parsers of the webhook, or by those of the REST API. -/
inductive DateInput where
  | webhook (w : WebhookText)
  | iso (s : String)

/-- `_coerce_date` returns what the other parser of the value returns, and on a webhook something. -/
def DateInput.Agrees (lib : PyLib) : DateInput → Prop
  | .webhook w => ∃ d, parseWebhookDate lib (some w.text) = .ok (some d) ∧
      coerceDate lib (.str w.text) = some d
  | .iso s => ∀ d, parseIsoDate lib (.str s) = .ok (some d) → coerceDate lib (.str s) = some d

/-- A value of the REST API, or a webhook that sends the date alone. -/
def DateInput.Plain : DateInput → Prop
  | .webhook w => w.DateOnly
  | .iso _ => True

/-- What `parse_iso_date` reads, `_coerce_date` reads first. -/
theorem coerceDate_of_parseIsoDate {lib : PyLib} {s : String} {d : Date}
    (h : parseIsoDate lib (.str s) = .ok (some d)) : coerceDate lib (.str s) = some d := by
  unfold parseIsoDate at h
  split at h
  · dsimp only at h
    cases hread : lib.dateFromIso (firstTen s) with
    | none =>
        rw [hread] at h
        cases h
    | some r =>
        rw [hread] at h
        cases h
        simp only [coerceDate, hread, Option.some_or]
  · cases h

/-- Both read the date of an ISO date or timestamp, whatever follows the date. -/
theorem parseIsoDate_isoDate (base : PyLib) (d : SalesTrades.Library.CivilDate.Date)
    (rest : List Char) :
    parseIsoDate (dateLib base) (.str (String.ofList (isoDate d ++ rest))) =
      .ok (some ⟨SalesTrades.Library.CivilDate.ordinal d.year d.month d.day - epochOrdinal⟩) := by
  have hne : String.ofList (isoDate d ++ rest) ≠ "" := by
    intro hempty
    have hnil : isoDate d ++ rest = [] := by simpa using congrArg String.toList hempty
    have hlength := length_isoDate d
    rw [(List.append_eq_nil_iff.1 hnil).1] at hlength
    cases hlength
  have hten : firstTen (String.ofList (isoDate d ++ rest)) = String.ofList (isoDate d) := by
    rw [firstTen, String.toList_ofList, ← length_isoDate d, List.take_left]
  have hread : dateFromIso (String.ofList (isoDate d)) =
      some ⟨SalesTrades.Library.CivilDate.ordinal d.year d.month d.day - epochOrdinal⟩ := by
    rw [dateFromIso, String.toList_ofList, dateFromisoformat,
      if_pos (Or.inr (Or.inr (length_isoDate d))), parseIsoformatDate_isoDate, Option.map_some]
  have htruthy : (Json.str (String.ofList (isoDate d ++ rest))).truthy = true := by
    rw [Json.truthy, bne_iff_ne]
    exact hne
  simp only [parseIsoDate, htruthy, if_true, dateLib, hten, hread]

/-- The date parsers agree exactly when a webhook sends the date alone. -/
theorem coerceDate_agrees_iff (base : PyLib) (input : DateInput) :
    input.Agrees (dateLib base) ↔ input.Plain := by
  cases input with
  | webhook w =>
      constructor
      · rintro ⟨d, -, hcoerce⟩
        by_contra hdate
        rw [(coerceDate_text w base).2 hdate] at hcoerce
        cases hcoerce
      · exact fun hdate => ⟨w.day, parseWebhookDate_text w base, (coerceDate_text w base).1 hdate⟩
  | iso s => exact iff_of_true (fun d h => coerceDate_of_parseIsoDate h) trivial

/-! ## A lease end with a time -/

theorem leaseEnd_valid : SalesTrades.Library.CivilDate.Valid 2027 12 31 := by decide

/-- 31 December 2027 at 10:00. -/
def leaseEnd : WebhookText := ⟨0, .ofValid leaseEnd_valid, some ⟨10, 0, 0, 0⟩, 0⟩

/-- It is read as an expected close, and lost as a term end. -/
theorem leaseEnd_lost : leaseEnd.text = "12-31-2027 10:00:00" ∧
    parseWebhookDate (dateLib plainLib) (some leaseEnd.text) = .ok (some ⟨21183⟩) ∧
    coerceDate (dateLib plainLib) (.str leaseEnd.text) = none ∧
    ¬ (DateInput.webhook leaseEnd).Agrees (dateLib plainLib) := by
  have hnot : ¬ leaseEnd.DateOnly := by
    rintro ⟨-, htime, -⟩
    cases htime
  have hlost := (coerceDate_text leaseEnd plainLib).2 hnot
  refine ⟨by decide, (parseWebhookDate_text leaseEnd plainLib).trans ?_, hlost, ?_⟩
  · rfl
  · rintro ⟨d, -, hcoerce⟩
    rw [hlost] at hcoerce
    cases hcoerce

end SalesTrades.Deals
