import SalesTrades.Library.JsonRoundTrip

/-!
# Where a JSON text begins and ends

A foreign character stands in a JSON text only inside a string, or between its parts when it is blank.
So foreign characters around a text that is accepted are blank and can be left out, and a text that is
accepted is no longer accepted when a foreign character that is not blank comes after it
(`finish_run_of_foreign`).
-/

set_option autoImplicit false

namespace SalesTrades.Library.JsonText

/-- No letter, digit or sign of the grammar. -/
def Foreign (c : Char) : Prop :=
  c.isAlphanum = false ∧
    ∀ sign ∈ [quote, backslash, '{', '}', '[', ']', ',', ':', '-', '+', '.'], c ≠ sign

instance (c : Char) : Decidable (Foreign c) := @instDecidableAnd _ _ _ (List.decidableBAll _ _)

section Machine

variable {s : State} {stack : List Frame} {v : JsonValue} {c : Char} {cs xs : List Char}

theorem Foreign.ne_of_isAlphanum (h : Foreign c) {x : Char} (hx : x.isAlphanum = true) : c ≠ x := by
  rintro rfl
  rw [h.1] at hx
  cases hx

theorem Foreign.isDigit (h : Foreign c) : c.isDigit = false := by
  have hnot := h.1
  simp only [Char.isAlphanum, Bool.or_eq_false_iff] at hnot
  exact hnot.2

/-! ### The letters of words -/

/-- The machine spells words of letters only. -/
def Spells (s : State) : Prop := ∀ rest v, s.phase = .word rest v → ∀ d ∈ rest, d.isAlpha = true

theorem spells_deliver (stack : List Frame) (v : JsonValue) : Spells (deliver stack v) := by
  intro rest w h
  cases stack with
  | nil => cases h
  | cons frame stack =>
      cases frame with
      | arr items => cases h
      | obj members key => cases h

theorem spells_word {rest : List Char} (h : ∀ d ∈ rest, d.isAlpha = true) :
    Spells ⟨stack, .word rest v⟩ := by
  intro rest' w heq
  cases heq
  exact h

/-- A phase that is no word. -/
theorem spells_of_ne {phase : Phase} (h : ∀ rest v, phase ≠ .word rest v) : Spells ⟨stack, phase⟩ :=
  fun rest v heq => absurd heq (h rest v)

theorem spells_ite {p : Prop} [Decidable p] {t : State} (hs : Spells s) (ht : Spells t) :
    Spells (if p then s else t) := by
  split
  · exact hs
  · exact ht

theorem spells_startValue (stack : List Frame) (c : Char) : Spells (startValue stack c) := by
  rw [startValue]
  repeat' apply spells_ite
  -- the words are those of the grammar
  any_goals exact spells_word (List.all_eq_true.1 (by decide))
  all_goals exact spells_of_ne fun _ _ h => by cases h

theorem spells_stepAfter (s : State) (c : Char) (h : Spells s) : Spells (stepAfter s c) := by
  obtain ⟨stack, phase⟩ := s
  have hfailed : Spells ⟨stack, .failed⟩ := spells_of_ne fun _ _ h => by cases h
  cases phase with
  | afterItem items =>
      refine spells_ite h (spells_ite ?_ (spells_ite (spells_deliver stack _) hfailed))
      exact spells_of_ne fun _ _ h => by cases h
  | afterMember members =>
      refine spells_ite h (spells_ite ?_ (spells_ite (spells_deliver stack _) hfailed))
      exact spells_of_ne fun _ _ h => by cases h
  | done v => exact spells_ite h hfailed
  | _ => exact hfailed

/-- **Step.** -/
theorem spells_step (h : Spells s) (c : Char) : Spells (step s c) := by
  obtain ⟨stack, phase⟩ := s
  have hplain : ∀ {phase : Phase}, (∀ rest v, phase ≠ .word rest v) → Spells ⟨stack, phase⟩ :=
    spells_of_ne
  have hfailed : Spells ⟨stack, .failed⟩ := spells_of_ne fun _ _ h => by cases h
  cases phase with
  | value => exact spells_ite h (spells_startValue stack c)
  | firstItem => exact spells_ite h (spells_ite (spells_deliver stack _) (spells_startValue _ c))
  | key first members =>
      refine spells_ite h (spells_ite ?_ (spells_ite (spells_deliver stack _) hfailed))
      exact hplain fun _ _ h => by cases h
  | colon members key =>
      refine spells_ite h (spells_ite ?_ hfailed)
      exact spells_of_ne fun _ _ h => by cases h
  | text slot codes =>
      refine spells_ite ?_ (spells_ite ?_ (spells_ite hfailed ?_))
      · cases slot with
        | value => exact spells_deliver stack _
        | key members => exact hplain fun _ _ h => by cases h
      · exact hplain fun _ _ h => by cases h
      · exact hplain fun _ _ h => by cases h
  | escape slot codes =>
      refine spells_ite (hplain fun _ _ h => by cases h) ?_
      cases unescape c with
      | none => exact hfailed
      | some code => exact hplain fun _ _ h => by cases h
  | hex slot codes left value =>
      simp only [step]
      cases hexDigit c with
      | none => exact hfailed
      | some digit =>
          exact spells_ite (hplain fun _ _ h => by cases h) (hplain fun _ _ h => by cases h)
  | word rest v =>
      cases rest with
      | nil => exact hfailed
      | cons d rest =>
          refine spells_ite hfailed (spells_ite (spells_deliver stack v) ?_)
          exact spells_word fun d' hd' => h _ _ rfl d' (List.mem_cons_of_mem d hd')
  | number part lexeme =>
      simp only [step]
      cases part.next c with
      | some part' => exact hplain fun _ _ h => by cases h
      | none =>
          refine spells_ite (spells_word (List.all_eq_true.1 (by decide))) ?_
          cases numberValue part lexeme with
          | none => exact hfailed
          | some v => exact spells_stepAfter _ c (spells_deliver stack v)
  | afterItem items => exact spells_stepAfter _ c h
  | afterMember members => exact spells_stepAfter _ c h
  | done v => exact spells_stepAfter _ c h
  | failed => exact spells_stepAfter _ c h

theorem spells_run (h : Spells s) (cs : List Char) : Spells (run s cs) := by
  induction cs generalizing s with
  | nil => exact h
  | cons c cs ih => exact ih (spells_step h c)

/-! ### Foreign characters -/

theorem finish_eq_some_iff : finish s = some v ↔ s.stack = [] ∧
    (s.phase = .done v ∨ ∃ part lexeme, s.phase = .number part lexeme ∧
      numberValue part lexeme = some v) := by
  obtain ⟨stack, phase⟩ := s
  cases stack with
  | cons frame stack => simp [finish]
  | nil => cases phase <;> simp [finish]

theorem finish_of_failed (h : s.phase = .failed) : finish s = none := by
  obtain ⟨stack, phase⟩ := s
  cases h
  cases stack with
  | nil => rfl
  | cons frame stack => rfl

theorem failed_run (h : s.phase = .failed) (cs : List Char) : (run s cs).phase = .failed := by
  induction cs generalizing s with
  | nil => exact h
  | cons c cs ih =>
      apply ih
      obtain ⟨stack, phase⟩ := s
      cases h
      rfl

theorem startValue_of_foreign (stack : List Frame) (hc : Foreign c) :
    startValue stack c = ⟨stack, .failed⟩ := by
  obtain ⟨hother, hsign⟩ := id hc
  simp only [List.forall_mem_cons] at hsign
  rw [startValue, if_neg hsign.1, if_neg hsign.2.2.1, if_neg hsign.2.2.2.2.1,
    if_neg hsign.2.2.2.2.2.2.2.2.1, if_neg (hc.ne_of_isAlphanum (by decide)), hc.isDigit,
    if_neg Bool.false_ne_true, if_neg (hc.ne_of_isAlphanum (by decide)),
    if_neg (hc.ne_of_isAlphanum (by decide)), if_neg (hc.ne_of_isAlphanum (by decide)),
    if_neg (hc.ne_of_isAlphanum (by decide)), if_neg (hc.ne_of_isAlphanum (by decide))]

theorem next_of_foreign (part : NumberPart) (hc : Foreign c) : part.next c = none := by
  obtain ⟨-, hsign⟩ := id hc
  simp only [List.forall_mem_cons] at hsign
  have hminus : c ≠ '-' := hsign.2.2.2.2.2.2.2.2.1
  have hplus : c ≠ '+' := hsign.2.2.2.2.2.2.2.2.2.1
  have hpoint : c ≠ '.' := hsign.2.2.2.2.2.2.2.2.2.2.1
  have hzero : c ≠ '0' := hc.ne_of_isAlphanum (by decide)
  have he : c ≠ 'e' := hc.ne_of_isAlphanum (by decide)
  have hE : c ≠ 'E' := hc.ne_of_isAlphanum (by decide)
  cases part <;> simp [NumberPart.next, afterInt, hc.isDigit, hminus, hplus, hpoint, hzero, he, hE]

/-- A number ends at a foreign character. -/
theorem step_number_of_foreign {part : NumberPart} {lexeme : List Char} (hc : Foreign c)
    (hv : numberValue part lexeme = some v) :
    step ⟨stack, .number part lexeme⟩ c = stepAfter (deliver stack v) c := by
  have hinfinity : ¬ (part = .minus ∧ c = 'I') := fun h => hc.ne_of_isAlphanum (by decide) h.2
  simp only [step, next_of_foreign part hc, if_neg hinfinity, hv]

/-- A complete text goes on with blanks only. -/
theorem step_of_finish (hc : Foreign c) (h : finish s = some v) :
    step s c = if isBlank c then ⟨[], .done v⟩ else ⟨[], .failed⟩ := by
  obtain ⟨stack, phase⟩ := s
  obtain ⟨rfl, rfl | ⟨part, lexeme, rfl, hv⟩⟩ := finish_eq_some_iff.1 h
  · rfl
  · rw [step_number_of_foreign hc hv]
    rfl

/-- A phase in which no text is complete. -/
theorem finish_of_open {phase : Phase} (hdone : ∀ v, phase ≠ .done v)
    (hnumber : ∀ part lexeme, phase ≠ .number part lexeme) : finish ⟨stack, phase⟩ ≠ some v := by
  intro h
  obtain ⟨-, hphase | ⟨part, lexeme, hphase, -⟩⟩ := finish_eq_some_iff.1 h
  · exact hdone v hphase
  · exact hnumber part lexeme hphase

theorem finish_failed : finish ⟨stack, .failed⟩ ≠ some v :=
  finish_of_open (fun _ h => by cases h) fun _ _ h => by cases h

/-- After a foreign character a text is complete only if it was complete before. -/
theorem finish_step_foreign (hs : Spells s) (hc : Foreign c) (h : finish (step s c) = some v) :
    isBlank c = true ∧ finish s = some v := by
  obtain ⟨stack, phase⟩ := s
  obtain ⟨-, hsign⟩ := id hc
  simp only [List.forall_mem_cons] at hsign
  obtain ⟨hquote, hback, hopen, hclose, hbracket, hend, hcomma, hcolon, -⟩ := hsign
  have hnone : ∀ {phase : Phase}, (∀ v, phase ≠ .done v) →
      (∀ part lexeme, phase ≠ .number part lexeme) → finish ⟨stack, phase⟩ ≠ some v := finish_of_open
  cases phase with
  | value =>
      simp only [step, startValue_of_foreign stack hc] at h
      split at h
      · exact absurd h (hnone (fun _ h => by cases h) fun _ _ h => by cases h)
      · exact absurd h finish_failed
  | firstItem =>
      simp only [step, if_neg hend, startValue_of_foreign _ hc] at h
      split at h
      · exact absurd h (hnone (fun _ h => by cases h) fun _ _ h => by cases h)
      · exact absurd h finish_failed
  | key first members =>
      have hempty : ¬ (c = '}' ∧ first = true) := fun h => hclose h.1
      simp only [step, if_neg hquote, if_neg hempty] at h
      split at h
      · exact absurd h (hnone (fun _ h => by cases h) fun _ _ h => by cases h)
      · exact absurd h finish_failed
  | colon members key =>
      simp only [step, if_neg hcolon] at h
      split at h
      · exact absurd h (hnone (fun _ h => by cases h) fun _ _ h => by cases h)
      · exact absurd h finish_failed
  | text slot codes =>
      simp only [step, if_neg hquote, if_neg hback] at h
      split at h
      · exact absurd h finish_failed
      · exact absurd h (hnone (fun _ h => by cases h) fun _ _ h => by cases h)
  | escape slot codes =>
      have hu : c ≠ 'u' := hc.ne_of_isAlphanum (by decide)
      simp only [step, if_neg hu] at h
      split at h
      · exact absurd h finish_failed
      · exact absurd h (hnone (fun _ h => by cases h) fun _ _ h => by cases h)
  | hex slot codes left value =>
      simp only [step] at h
      split at h
      · exact absurd h finish_failed
      · split at h
        · exact absurd h (hnone (fun _ h => by cases h) fun _ _ h => by cases h)
        · exact absurd h (hnone (fun _ h => by cases h) fun _ _ h => by cases h)
  | word rest w =>
      cases rest with
      | nil => exact absurd h finish_failed
      | cons d rest =>
          have hd : d.isAlphanum = true := by
            rw [Char.isAlphanum, hs _ _ rfl d List.mem_cons_self, Bool.true_or]
          simp only [step, if_pos (hc.ne_of_isAlphanum hd)] at h
          exact absurd h finish_failed
  | number part lexeme =>
      cases hv : numberValue part lexeme with
      | none =>
          have hinfinity : ¬ (part = .minus ∧ c = 'I') :=
            fun h => hc.ne_of_isAlphanum (by decide) h.2
          simp only [step, next_of_foreign part hc, if_neg hinfinity, hv] at h
          exact absurd h finish_failed
      | some w =>
          rw [step_number_of_foreign hc hv] at h
          cases stack with
          | nil =>
              simp only [deliver, stepAfter] at h
              split at h
              · rename_i hblank
                exact ⟨hblank, hv.trans h⟩
              · exact absurd h finish_failed
          | cons frame stack =>
              cases frame with
              | arr items =>
                  simp only [deliver, stepAfter, if_neg hcomma, if_neg hend] at h
                  split at h
                  · exact absurd h (finish_of_open (fun _ h => by cases h) fun _ _ h => by cases h)
                  · exact absurd h finish_failed
              | obj members key =>
                  simp only [deliver, stepAfter, if_neg hcomma, if_neg hclose] at h
                  split at h
                  · exact absurd h (finish_of_open (fun _ h => by cases h) fun _ _ h => by cases h)
                  · exact absurd h finish_failed
  | afterItem items =>
      simp only [step, stepAfter, if_neg hcomma, if_neg hend] at h
      split at h
      · exact absurd h (hnone (fun _ h => by cases h) fun _ _ h => by cases h)
      · exact absurd h finish_failed
  | afterMember members =>
      simp only [step, stepAfter, if_neg hcomma, if_neg hclose] at h
      split at h
      · exact absurd h (hnone (fun _ h => by cases h) fun _ _ h => by cases h)
      · exact absurd h finish_failed
  | done w =>
      simp only [step, stepAfter] at h
      split at h
      · rename_i hblank
        exact ⟨hblank, h⟩
      · exact absurd h finish_failed
  | failed => exact absurd h finish_failed

/-! ### The ends of a text -/

/-- Foreign characters after a text that is accepted can be left out. -/
theorem finish_run_of_append (hs : Spells s) {gap : List Char} (hgap : ∀ c ∈ gap, Foreign c)
    (h : finish (run s (cs ++ gap)) = some v) : finish (run s cs) = some v := by
  induction gap generalizing cs with
  | nil => rwa [List.append_nil] at h
  | cons c gap ih =>
      obtain ⟨hc, hgap⟩ := List.forall_mem_cons.1 hgap
      have hmore : finish (run s (cs ++ [c])) = some v := by
        apply ih hgap
        rwa [List.append_assoc, List.singleton_append]
      rw [run_append] at hmore
      exact (finish_step_foreign (spells_run hs cs) hc hmore).2

/-- So can foreign characters before it, which are blank. -/
theorem finish_run_of_prepend {gap : List Char} (hgap : ∀ c ∈ gap, Foreign c)
    (h : finish (run ⟨stack, .value⟩ (gap ++ cs)) = some v) :
    finish (run ⟨stack, .value⟩ cs) = some v := by
  induction gap with
  | nil => exact h
  | cons c gap ih =>
      obtain ⟨hc, hgap⟩ := List.forall_mem_cons.1 hgap
      rw [List.cons_append, run_cons] at h
      simp only [step, startValue_of_foreign stack hc] at h
      split at h
      · exact ih hgap h
      · rw [finish_of_failed (failed_run rfl _)] at h
        cases h

/-- A foreign character that begins a text is blank. -/
theorem isBlank_of_finish_run (hc : Foreign c)
    (h : finish (run ⟨stack, .value⟩ (c :: cs)) = some v) : isBlank c = true := by
  rw [run_cons] at h
  simp only [step, startValue_of_foreign stack hc] at h
  split at h
  · assumption
  · rw [finish_of_failed (failed_run rfl _)] at h
    cases h

/-- After a text that is accepted, only blanks can come before a foreign character. -/
theorem finish_run_of_foreign {gap : List Char} (h : finish (run s cs) = some v)
    (hgap : ∀ c ∈ gap, Foreign c) (hc : Foreign c) (hblank : isBlank c = false) (xs : List Char) :
    finish (run s (cs ++ (gap ++ c :: xs))) = none := by
  rw [run_append]
  generalize run s cs = t at h
  induction gap generalizing t with
  | nil =>
      rw [List.nil_append, run_cons, step_of_finish hc h, hblank]
      exact finish_of_failed (failed_run rfl xs)
  | cons d gap ih =>
      obtain ⟨hd, hgap⟩ := List.forall_mem_cons.1 hgap
      rw [List.cons_append, run_cons, step_of_finish hd h]
      split
      · exact ih hgap _ rfl
      · exact finish_of_failed (failed_run rfl _)

end Machine

end SalesTrades.Library.JsonText
