import SalesTrades.Freshsales.AgentLogging
import SalesTrades.PythonDates

/-!
# The due dates of the logging agent

`_resolve_due` with the `datetime` of the standard library. It means to tell a bare date from a date and
time by the exception that `fromisoformat` raises, but `fromisoformat` reads a bare date as well, as its
midnight. So the due date of the task is the one that was written exactly when a time was written
(`due_date_means_iff`).
-/

set_option autoImplicit false

namespace SalesTrades.Freshsales

open SalesTrades.Library.CivilDate SalesTrades.Library.DateText

/-- What `utcoffset` may return. -/
abbrev UtcOffset : Type := { offset : ℤ // IsOffset offset }

/-- The library functions on dates; `lagos` is the offset of `Africa/Lagos` at a wall clock. -/
def dueLib (base : AgentLib) (lagos : ℤ → UtcOffset) : AgentLib :=
  { base with
    fromIsoformat := datetimeFromIsoformat
    inLagos := fun d => { d with offset := some (lagos d.wall).1 }
    isoformat := datetimeIsoformat }

/-! ## What is written -/

/-- A due date as it is written: `YYYY-MM-DD`, a date and time, or a date and time with an offset. -/
inductive DueText where
  | bareDate (d : Date)
  | naive (d : Date) (separator : Char) (t : WrittenClock)
  | zoned (d : Date) (separator : Char) (t : WrittenClock) (zone : ZoneText)

def DueText.text : DueText → String
  | .bareDate d => String.ofList (isoDate d)
  | .naive d separator t => String.ofList (isoDate d ++ separator :: (t.text ++ zoneText none))
  | .zoned d separator t zone =>
      String.ofList (isoDate d ++ separator :: (t.text ++ zoneText (some zone)))

/-- A time is written. -/
def DueText.HasTime : DueText → Prop
  | .bareDate _ => False
  | .naive _ _ _ | .zoned _ _ _ _ => True

/-- The wall clock at a time of a date. -/
def wallOn (d : Date) (t : Clock) : ℤ := wallAt (ordinal d.year d.month d.day) t.micros

def midnight : Clock := ⟨0, 0, 0, 0⟩

def seventeen : Clock := ⟨17, 0, 0, 0⟩

/-- The wall clock on the Lagos clock. -/
def onLagosClock (lagos : ℤ → UtcOffset) (wall : ℤ) : Datetime := ⟨wall, some (lagos wall).1⟩

/-- What a due date means: 17:00 in Lagos on a bare date, the time in Lagos where no offset is written,
and else the instant. -/
def DueText.Means (lagos : ℤ → UtcOffset) : DueText → Datetime → Prop
  | .bareDate d, r => r = onLagosClock lagos (wallOn d seventeen)
  | .naive d _ t, r => r = onLagosClock lagos (wallOn d t.clock)
  | .zoned d _ t zone, r => r.offset.isSome = true ∧ r.instant = wallOn d t.clock - zone.value

/-! ## What is resolved -/

section Resolve

variable (base : AgentLib) (lagos : ℤ → UtcOffset) (now : Datetime)

/-- A text that `fromisoformat` reads is resolved from what it reads, and never as a bare date. -/
theorem resolveDue_of_read {cs : List Char} {s : Stamp} (h : fromisoformat cs = some s) :
    resolveDue (dueLib base lagos) now (some (String.ofList cs)) = .ok (datetimeIsoformat
      (if s.offset.isNone then onLagosClock lagos (datetimeOf s).wall else datetimeOf s)) := by
  have hne : String.ofList cs ≠ "" := by
    intro hempty
    have hnil : cs = [] := by simpa using congrArg String.toList hempty
    rw [hnil] at h
    cases h
  have hread : datetimeFromIsoformat (String.ofList cs) = some (datetimeOf s) := by
    rw [datetimeFromIsoformat, String.toList_ofList, h, Option.map_some]
  have hgiven : given (some (String.ofList cs)) = some (String.ofList cs) := if_neg hne
  simp only [resolveDue, hgiven, dueLib, hread, Option.some_or]
  rfl

/-- Without an offset it is put on the Lagos clock. -/
theorem resolveDue_of_naive {cs : List Char} {day micros : ℕ}
    (h : fromisoformat cs = some ⟨day, micros, none⟩) :
    resolveDue (dueLib base lagos) now (some (String.ofList cs)) =
      .ok (datetimeIsoformat (onLagosClock lagos (wallAt day micros))) := by
  rw [resolveDue_of_read base lagos now h]
  simp only [Option.isNone_none, if_true, datetimeOf]

theorem readBack_onLagosClock (d : Date) {t : Clock} (ht : t.Valid) :
    datetimeFromIsoformat (datetimeIsoformat (onLagosClock lagos (wallOn d t))) =
      some (onLagosClock lagos (wallOn d t)) := by
  apply datetimeFromIsoformat_isoformat d (Clock.micros_lt ht)
  rintro o ho
  rw [← Option.some.inj ho]
  exact (lagos _).2

/-- **A bare date is resolved to its midnight in Lagos.** -/
theorem resolveDue_bareDate (d : Date) :
    resolveDue (dueLib base lagos) now (some (DueText.bareDate d).text) =
      .ok (datetimeIsoformat (onLagosClock lagos (wallOn d midnight))) := by
  rw [DueText.text, resolveDue_of_naive base lagos now (fromisoformat_isoDate d), wallOn]
  congr 1

theorem resolveDue_naive (d : Date) (separator : Char) (t : WrittenClock) :
    resolveDue (dueLib base lagos) now (some (DueText.naive d separator t).text) =
      .ok (datetimeIsoformat (onLagosClock lagos (wallOn d t.clock))) := by
  rw [DueText.text, resolveDue_of_naive base lagos now (fromisoformat_written d separator t none),
    wallOn]

theorem resolveDue_zoned (d : Date) (separator : Char) (t : WrittenClock) (zone : ZoneText) :
    resolveDue (dueLib base lagos) now (some (DueText.zoned d separator t zone).text) =
      .ok (datetimeIsoformat ⟨wallOn d t.clock, some zone.value⟩) := by
  rw [DueText.text,
    resolveDue_of_read base lagos now (fromisoformat_written d separator t (some zone)), wallOn]
  simp only [Option.map_some, Option.isNone_some, Bool.false_eq_true, if_false, datetimeOf]

/-- Midnight is not 17:00. -/
theorem not_means_midnight (d : Date) :
    ¬ (DueText.bareDate d).Means lagos (onLagosClock lagos (wallOn d midnight)) := by
  intro h
  have hwall : wallOn d midnight = wallOn d seventeen := congrArg Datetime.wall h
  have hmicros := ((wallAt_inj (by decide) (by decide)).1 hwall).2
  exact absurd hmicros (by decide)

/-- **Due dates mean what was written exactly when a time was written.** -/
theorem due_date_means_iff (due : DueText) :
    (∃ s r, resolveDue (dueLib base lagos) now (some due.text) = .ok s ∧
      datetimeFromIsoformat s = some r ∧ due.Means lagos r) ↔ due.HasTime := by
  cases due with
  | bareDate d =>
      refine iff_of_false ?_ id
      rintro ⟨s, r, hresolve, hread, hmeans⟩
      rw [resolveDue_bareDate, Except.ok.injEq] at hresolve
      rw [← hresolve, readBack_onLagosClock lagos d (by decide), Option.some.injEq] at hread
      rw [← hread] at hmeans
      exact not_means_midnight lagos d hmeans
  | naive d separator t =>
      refine iff_of_true ⟨_, _, resolveDue_naive base lagos now d separator t, ?_, rfl⟩ trivial
      exact readBack_onLagosClock lagos d t.valid
  | zoned d separator t zone =>
      refine iff_of_true ⟨_, ⟨wallOn d t.clock, some zone.value⟩,
        resolveDue_zoned base lagos now d separator t zone, ?_, rfl, rfl⟩ trivial
      apply datetimeFromIsoformat_isoformat d (Clock.micros_lt t.valid)
      rintro o ho
      rw [← Option.some.inj ho]
      exact zone.isOffset

end Resolve

/-! ## A bare date -/

theorem thirdOfJuly_valid : Valid 2026 7 3 := by decide

/-- 3 July 2026. -/
def thirdOfJuly : Date := .ofValid thirdOfJuly_valid

theorem isOffset_hour : IsOffset 3600000000 := by decide

/-- The offset of Lagos in our time: one hour. -/
def westAfrica (_ : ℤ) : UtcOffset := ⟨3600000000, isOffset_hour⟩

/-- The task that is to be done on 3 July 2026 is due at the first second of that day. -/
theorem due_on_third_of_july :
    (DueText.bareDate thirdOfJuly).text = "2026-07-03" ∧
    resolveDue (dueLib plainAgentLib westAfrica) ⟨0, some 0⟩ (some "2026-07-03") =
      .ok "2026-07-03T00:00:00+01:00" ∧
    ¬ ∃ s r, resolveDue (dueLib plainAgentLib westAfrica) ⟨0, some 0⟩ (some "2026-07-03") = .ok s ∧
      datetimeFromIsoformat s = some r ∧ (DueText.bareDate thirdOfJuly).Means westAfrica r := by
  have htext : (DueText.bareDate thirdOfJuly).text = "2026-07-03" := by decide
  have hresolve := resolveDue_bareDate plainAgentLib westAfrica ⟨0, some 0⟩ thirdOfJuly
  rw [htext] at hresolve
  refine ⟨htext, hresolve.trans rfl, ?_⟩
  rintro ⟨s, r, hs, hread, hmeans⟩
  rw [hresolve, Except.ok.injEq] at hs
  rw [← hs, readBack_onLagosClock westAfrica thirdOfJuly (by decide), Option.some.injEq] at hread
  rw [← hread] at hmeans
  exact not_means_midnight westAfrica thirdOfJuly hmeans

end SalesTrades.Freshsales
