import SalesTrades.Library.Run
import SalesTrades.Trade.CaptureRepeat

/-!
# The same submission, several times at once

Any number of calls with one payload, interleaved one statement at a time. The calls agree as long as
no step runs into what the code does not handle (`Handled`): an INSERT of the primary that another
call has made since the lookup (the handler reads `program` after the rollback), a second INSERT of
the second participant, an email of the second participant that another row has, and a submission
whose own email belongs to the second participant it then updates. In runs without such steps every
call returns what a single call returns, and the table is the one a single call leaves
(`captures_agree`). Two calls that both look up before either inserts are no such run
(`capture_race_raises`).
-/

set_option autoImplicit false

namespace SalesTrades.Trade

open SalesTrades.Library SalesTrades.Library.Run SalesTrades.Library.Interleaving

universe u

section Driver

variable [ColumnDriver] {ι : Type u} {py : LowerCase} {program : TradeProgram} {payload : Registration}

/-- The condition on a step in phase `phase`, about the table before it. -/
def Handled (py : LowerCase) (program : TradeProgram) (payload : Registration) (t : TradeLeads) :
    CapturePhase → Prop
  -- the INSERT of the primary: no row has been stored under the email since the lookup
  | .selected none => getByProgramEmail t program.id (normaliseEmail py payload.email) = none
  -- the sibling lookup: the row the email selected is not itself the second participant found
  | .stored primary _ => namedSecond py payload ≠ none →
      ∀ s, findSecond t primary = some s → s.1 ≠ primary.1
  -- the second participant's write: no one has stored it since the lookup, and its email is free
  | .siblings primary _ kwargs found =>
      (found = none → findSecond t primary = none) ∧ SecondEmailFree program kwargs found t
  | _ => True

instance (py : LowerCase) (program : TradeProgram) (payload : Registration) (t : TradeLeads) :
    ∀ phase, Decidable (Handled py program payload t phase)
  | .selected none => inferInstanceAs (Decidable (getByProgramEmail t program.id
      (normaliseEmail py payload.email) = none))
  | .stored primary _ => inferInstanceAs (Decidable (¬ namedSecond py payload = none →
      ∀ s ∈ findSecond t primary, s.1 ≠ primary.1))
  | .siblings primary _ kwargs found => inferInstanceAs (Decidable
      ((found = none → findSecond t primary = none) ∧ SecondEmailFree program kwargs found t))
  | .start | .selected (some _) | .returned _ _ | .raised _ => isTrue trivial

/-- The condition on an event of a run. -/
def HandledEvent (py : LowerCase) (program : TradeProgram) (payload : Registration)
    (e : ι × Unit) (c : Config ι TradeLeads CaptureCall) : Prop :=
  Handled py program payload c.shared (c.proc e.1).phase

instance (e : ι × Unit) (c : Config ι TradeLeads CaptureCall) :
    Decidable (HandledEvent py program payload e c) :=
  inferInstanceAs (Decidable (Handled py program payload c.shared (c.proc e.1).phase))

/-! ## One step of a call -/

/-- How far a run has got with the second participant, when `t₁` is the table with the primary. -/
inductive SecondStored (py : LowerCase) (program : TradeProgram) (payload : Registration)
    (p : Participant) (t₁ : TradeLeads) : Option Participant → TradeLeads → Prop where
  | notYet : SecondStored py program payload p t₁ none t₁
  | stored {kwargs : SecondKwargs} {s : Participant} {g : TradeLeads}
      (hkw : namedSecond py payload = some kwargs)
      (hapart : ∀ s, findSecond t₁ p = some s → s.1 ≠ p.1)
      (hstore : storeSecond program payload p kwargs (findSecond t₁ p) t₁ = .ok (s, g)) :
      SecondStored py program payload p t₁ (some s) g

/-- The phases of a call before anything is written. -/
def Unwritten (existing : Option Participant) : CapturePhase → Prop
  | .start => True
  | .selected found => found = existing
  | _ => False

/-- The phases of a call once the primary is stored: `wrote` says whether this call stored it first.
-/
def Agrees (py : LowerCase) (payload : Registration) (existing : Option Participant)
    (p : Participant) (t₁ : TradeLeads) (second : Option Participant) (wrote : Prop) :
    CapturePhase → Prop
  | .start => ¬ wrote
  | .selected found => ¬ wrote ∧ (found = existing ∨ found = some p)
  | .stored q created => q = p ∧ (created = true ↔ existing = none ∧ wrote)
  | .siblings q created kwargs found => q = p ∧ (created = true ↔ existing = none ∧ wrote) ∧
      namedSecond py payload = some kwargs ∧ (∀ s, findSecond t₁ p = some s → s.1 ≠ p.1) ∧
      (found = findSecond t₁ p ∨ ∃ s, second = some s ∧ found = some s)
  | .returned participants created => participants = p :: second.toList ∧
      (created = true ↔ existing = none ∧ wrote) ∧ second.isSome = (namedSecond py payload).isSome
  | .raised _ => False

omit [ColumnDriver] in
/-- The lookup finds the primary as long as it is in the table. -/
theorem getByProgramEmail_primary {g : TradeLeads} {p : Participant} (hmem : p ∈ g.rows)
    (hprog : p.2.tradeProgramId = program.id) (hemail : p.2.email = normaliseEmail py payload.email) :
    getByProgramEmail g program.id (normaliseEmail py payload.email) = some p :=
  hprog ▸ getByProgramEmail_of_mem (normaliseEmail_ne_empty py payload.email) hmem hemail

/-- A call before anything is written either looks up or stores the primary. -/
theorem unwritten_step (hwf : WellFormed py payload) {t₀ g : TradeLeads} {uuid : String}
    {phase phase' : CapturePhase}
    (hphase : Unwritten (getByProgramEmail t₀ program.id (normaliseEmail py payload.email)) phase)
    (h : capturePhaseStep py program payload uuid t₀ phase = some (g, phase')) :
    (g = t₀ ∧
        Unwritten (getByProgramEmail t₀ program.id (normaliseEmail py payload.email)) phase') ∨
      ∃ p, storePrimary program payload (normaliseEmail py payload.email) uuid
          (getByProgramEmail t₀ program.id (normaliseEmail py payload.email)) t₀ = .ok (p, g) ∧
        phase' = .stored p
          (getByProgramEmail t₀ program.id (normaliseEmail py payload.email)).isNone := by
  cases phase with
  | start =>
      simp only [capturePhaseStep, Option.some.injEq, Prod.mk.injEq] at h
      obtain ⟨rfl, rfl⟩ := h
      exact Or.inl ⟨rfl, rfl⟩
  | selected found =>
      simp only [Unwritten] at hphase
      subst hphase
      obtain ⟨p, t', hstore⟩ := exists_storePrimary program hwf.columns uuid t₀
      simp only [capturePhaseStep, hstore, Option.some.injEq, Prod.mk.injEq] at h
      obtain ⟨rfl, rfl⟩ := h
      exact Or.inr ⟨p, hstore, rfl⟩
  | stored q created => exact hphase.elim
  | siblings q created kwargs found => exact hphase.elim
  | returned participants created => exact hphase.elim
  | raised e => exact hphase.elim

/-- The table has the primary, and the second participant where it is stored. -/
theorem SecondStored.lookups {p : Participant} {t₁ g : TradeLeads} {second : Option Participant}
    (h : SecondStored py program payload p t₁ second g) (hmem : p ∈ t₁.rows) :
    p ∈ g.rows ∧ ∀ s, second = some s → s ∈ g.rows ∧ findSecond g p = some s := by
  cases h with
  | notYet => exact ⟨hmem, fun s hs => by cases hs⟩
  | stored hkw hapart hstore =>
      obtain ⟨hs, hsame, -, -, -⟩ := storeSecond_ok hmem hstore
      obtain ⟨hne, hfind⟩ := findSecond_storeSecond hmem hapart hstore
      refine ⟨(hsame p hne.symm).2 hmem, fun s hs' => ?_⟩
      cases hs'
      exact ⟨hs, hfind⟩

/-- A call whose primary is stored looks for the second participant, or returns where none is named. -/
theorem stored_step (hwf : WellFormed py payload) {t₀ t₁ g g' : TradeLeads} {uuid : String}
    {p q : Participant} {created : Bool} {second : Option Participant} {wrote : Prop}
    {phase' : CapturePhase} (hp : p ∈ t₁.rows)
    (hsecond : SecondStored py program payload p t₁ second g)
    (hphase : Agrees py payload (getByProgramEmail t₀ program.id (normaliseEmail py payload.email)) p
      t₁ second wrote (.stored q created))
    (hG : Handled py program payload g (.stored q created))
    (h : capturePhaseStep py program payload uuid g (.stored q created) = some (g', phase')) :
    g' = g ∧ Agrees py payload (getByProgramEmail t₀ program.id (normaliseEmail py payload.email)) p
      t₁ second wrote phase' := by
  obtain ⟨-, hsg⟩ := hsecond.lookups hp
  obtain ⟨rfl, hcreated⟩ := hphase
  obtain ⟨warning, hparse⟩ := hwf.second
  cases hkw : namedSecond py payload with
  | none =>
      simp only [capturePhaseStep, hparse, hkw, Option.some.injEq, Prod.mk.injEq] at h
      obtain ⟨rfl, rfl⟩ := h
      cases hsecond with
      | notYet => exact ⟨rfl, rfl, hcreated, by simp [hkw]⟩
      | stored hsome => simp [hkw] at hsome
  | some kwargs =>
      simp only [capturePhaseStep, hparse, hkw, Option.some.injEq, Prod.mk.injEq] at h
      obtain ⟨rfl, rfl⟩ := h
      have hapart_g := hG (by simp [hkw])
      refine ⟨rfl, rfl, hcreated, hkw, ?_⟩
      cases hsecond with
      | notYet => exact ⟨hapart_g, Or.inl rfl⟩
      | stored _ hapart _ => exact ⟨hapart, Or.inr ⟨_, rfl, (hsg _ rfl).2⟩⟩

/-- A call that has looked for the second participant stores it, or repeats what is stored. -/
theorem siblings_step (hwf : WellFormed py payload) {t₀ t₁ g g' : TradeLeads} {uuid : String}
    {p q : Participant} {created : Bool} {kwargs : SecondKwargs} {found second : Option Participant}
    {wrote : Prop} {phase' : CapturePhase} (hp : p ∈ t₁.rows)
    (hsecond : SecondStored py program payload p t₁ second g)
    (hphase : Agrees py payload (getByProgramEmail t₀ program.id (normaliseEmail py payload.email)) p
      t₁ second wrote (.siblings q created kwargs found))
    (hG : Handled py program payload g (.siblings q created kwargs found))
    (h : capturePhaseStep py program payload uuid g (.siblings q created kwargs found) =
      some (g', phase')) :
    ∃ second', SecondStored py program payload p t₁ second' g' ∧
      (second' = second ∨ second = none ∧ namedSecond py payload ≠ none) ∧
      Agrees py payload (getByProgramEmail t₀ program.id (normaliseEmail py payload.email)) p t₁
        second' wrote phase' := by
  obtain ⟨-, hsg⟩ := hsecond.lookups hp
  obtain ⟨rfl, hcreated, hkw, hapart, hfound⟩ := hphase
  obtain ⟨hfresh, hfree⟩ := hG
  cases hsecond with
  | notYet =>
      -- this call is the first to store the second participant
      have hfound' : found = findSecond t₁ q := by
        rcases hfound with hfound | ⟨s, hs, -⟩
        · exact hfound
        · cases hs
      subst hfound'
      obtain ⟨s, t', hs⟩ := exists_storeSecond hwf hkw hp hfree
      simp only [capturePhaseStep, hs, Option.some.injEq, Prod.mk.injEq] at h
      obtain ⟨rfl, rfl⟩ := h
      refine ⟨some s, .stored hkw hapart hs, Or.inr ⟨rfl, by simp [hkw]⟩, rfl, hcreated, ?_⟩
      simp [hkw]
  | stored hkw' hapart' hs =>
      rename_i kwargs' s
      -- it is stored already, and the write repeats what is there
      obtain rfl : kwargs' = kwargs := Option.some.inj (hkw'.symm.trans hkw)
      obtain ⟨hsmem, hsfind⟩ := hsg s rfl
      cases found with
      | none =>
          have := hfresh rfl
          rw [hsfind] at this
          cases this
      | some loaded =>
          have hagain : storeSecond program payload q kwargs' (some loaded) g = .ok (s, g) := by
            refine storeSecond_again hp hs hsmem ?_
            rcases hfound with hfound | ⟨s', hs', hfound⟩
            · exact Or.inl hfound.symm
            · exact Or.inr (Option.some.inj (hfound.trans hs'.symm))
          simp only [capturePhaseStep, hagain, Option.some.injEq, Prod.mk.injEq] at h
          obtain ⟨rfl, rfl⟩ := h
          refine ⟨some s, .stored hkw hapart hs, Or.inl rfl, rfl, hcreated, ?_⟩
          simp [hkw]

/-- A call after the primary is stored repeats what is stored, or stores the second participant. -/
theorem settled_step (hwf : WellFormed py payload) {t₀ t₁ g g' : TradeLeads} {uuid₀ uuid : String}
    {p : Participant} {second : Option Participant} {wrote : Prop} {phase phase' : CapturePhase}
    (hstore : storePrimary program payload (normaliseEmail py payload.email) uuid₀
      (getByProgramEmail t₀ program.id (normaliseEmail py payload.email)) t₀ = .ok (p, t₁))
    (hsecond : SecondStored py program payload p t₁ second g)
    (hphase : Agrees py payload
      (getByProgramEmail t₀ program.id (normaliseEmail py payload.email)) p t₁ second wrote phase)
    (hG : Handled py program payload g phase)
    (h : capturePhaseStep py program payload uuid g phase = some (g', phase')) :
    ∃ second', SecondStored py program payload p t₁ second' g' ∧
      (second' = second ∨ second = none ∧ namedSecond py payload ≠ none) ∧
      Agrees py payload (getByProgramEmail t₀ program.id (normaliseEmail py payload.email)) p t₁
        second' wrote phase' := by
  obtain ⟨hp, -, hprog, hemail, -⟩ := storePrimary_ok hstore
  obtain ⟨hpg, -⟩ := hsecond.lookups hp
  have hlookup := getByProgramEmail_primary hpg hprog hemail
  cases phase with
  | start =>
      simp only [capturePhaseStep, hlookup, Option.some.injEq, Prod.mk.injEq] at h
      obtain ⟨rfl, rfl⟩ := h
      exact ⟨second, hsecond, Or.inl rfl, hphase, Or.inr rfl⟩
  | selected found =>
      obtain ⟨hwrote, hfound⟩ := hphase
      cases found with
      | none =>
          -- the INSERT would be rejected, which is what `Handled` excludes
          simp only [Handled, hlookup] at hG
          cases hG
      | some loaded =>
          have hagain : storePrimary program payload (normaliseEmail py payload.email) uuid
              (some loaded) g = .ok (p, g) := by
            refine storePrimary_again hstore hpg ?_
            rcases hfound with hfound | hfound
            · exact Or.inl hfound.symm
            · exact Or.inr (Option.some.inj hfound)
          simp only [capturePhaseStep, hagain, Option.some.injEq, Prod.mk.injEq] at h
          obtain ⟨rfl, rfl⟩ := h
          exact ⟨second, hsecond, Or.inl rfl, rfl, by simp [hwrote]⟩
  | stored q created =>
      obtain ⟨rfl, hagrees⟩ := stored_step hwf hp hsecond hphase hG h
      exact ⟨second, hsecond, Or.inl rfl, hagrees⟩
  | siblings q created kwargs found => exact siblings_step hwf hp hsecond hphase hG h
  | returned participants created => simp [capturePhaseStep] at h
  | raised e => simp [capturePhaseStep] at h

omit [ColumnDriver] in
theorem agrees_of_unwritten {existing : Option Participant} {p : Participant} {t₁ : TradeLeads}
    {second : Option Participant} {wrote : Prop} {phase : CapturePhase} (hwrote : ¬ wrote)
    (h : Unwritten existing phase) : Agrees py payload existing p t₁ second wrote phase := by
  cases phase with
  | start => exact hwrote
  | selected found => exact ⟨hwrote, Or.inl h⟩
  | stored q created => exact h.elim
  | siblings q created kwargs found => exact h.elim
  | returned participants created => exact h.elim
  | raised e => exact h.elim

omit [ColumnDriver] in
/-- Storing the second participant keeps what is known of the other calls. -/
theorem agrees_of_second {existing : Option Participant} {p : Participant} {t₁ : TradeLeads}
    {second second' : Option Participant} {wrote : Prop} {phase : CapturePhase}
    (hnew : second' = second ∨ second = none ∧ namedSecond py payload ≠ none)
    (h : Agrees py payload existing p t₁ second wrote phase) :
    Agrees py payload existing p t₁ second' wrote phase := by
  rcases hnew with rfl | ⟨rfl, hkw⟩
  · exact h
  · cases phase with
    | start => exact h
    | selected found => exact h
    | stored q created => exact h
    | siblings q created kwargs found =>
        obtain ⟨hq, hcreated, hkw, hapart, hfound⟩ := h
        refine ⟨hq, hcreated, hkw, hapart, ?_⟩
        rcases hfound with hfound | ⟨s, hs, -⟩
        · exact Or.inl hfound
        · cases hs
    | returned participants created =>
        have := h.2.2
        rw [Option.isSome_none, eq_comm, Option.isSome_eq_false_iff, Option.isNone_iff_eq_none]
          at this
        exact absurd this hkw
    | raised e => exact h

/-! ## Runs -/

/-- The state of a run that started from `t₀` with the calls named by `uuid`. -/
def Progress (py : LowerCase) (program : TradeProgram) (payload : Registration) (t₀ : TradeLeads)
    (uuid : ι → String) (c : Config ι TradeLeads CaptureCall) : Prop :=
  (∀ i, (c.proc i).uuid = uuid i) ∧
  ((c.shared = t₀ ∧ ∀ i, Unwritten
      (getByProgramEmail t₀ program.id (normaliseEmail py payload.email)) (c.proc i).phase) ∨
    ∃ w p t₁ second,
      storePrimary program payload (normaliseEmail py payload.email) (uuid w)
          (getByProgramEmail t₀ program.id (normaliseEmail py payload.email)) t₀ = .ok (p, t₁) ∧
        SecondStored py program payload p t₁ second c.shared ∧
        ∀ i, Agrees py payload
          (getByProgramEmail t₀ program.id (normaliseEmail py payload.email)) p t₁ second (i = w)
          (c.proc i).phase)

theorem progress_fire [DecidableEq ι] (hwf : WellFormed py payload) {t₀ : TradeLeads}
    {uuid : ι → String} {e : ι × Unit} {c c' : Config ι TradeLeads CaptureCall}
    (hc : Progress py program payload t₀ uuid c) (hG : HandledEvent py program payload e c)
    (h : fire (captureStep py program payload) e c = some c') :
    Progress py program payload t₀ uuid c' := by
  obtain ⟨g, call, hstep, rfl⟩ := fire_eq_some.1 h
  simp only [captureStep, Option.map_eq_some_iff] at hstep
  obtain ⟨⟨g', phase'⟩, hphase, heq⟩ := hstep
  simp only [Prod.mk.injEq] at heq
  obtain ⟨rfl, rfl⟩ := heq
  obtain ⟨huuid, hstage⟩ := hc
  refine ⟨(Function.forall_update_iff _ fun i (call : CaptureCall) => call.uuid = uuid i).2
    ⟨huuid e.1, fun i _ => huuid i⟩, ?_⟩
  -- what holds of the phase of every call, when the mover is known to be in `phase'`
  have hall : ∀ Q : ι → CapturePhase → Prop, Q e.1 phase' →
      (∀ i, i ≠ e.1 → Q i (c.proc i).phase) →
      ∀ i, Q i ((Function.update c.proc e.1 ⟨(c.proc e.1).uuid, phase'⟩) i).phase :=
    fun Q hmover hother =>
      (Function.forall_update_iff _ fun i (call : CaptureCall) => Q i call.phase).2 ⟨hmover, hother⟩
  rcases hstage with ⟨rfl, hphases⟩ | ⟨w, p, t₁, second, hstore, hsecond, hphases⟩
  · -- nothing is written yet: the step is a lookup or the first write
    rcases unwritten_step hwf (hphases e.1) hphase with ⟨rfl, hmover⟩ | ⟨p, hstore, rfl⟩
    · exact Or.inl ⟨rfl, hall (fun _ => Unwritten _) hmover fun i _ => hphases i⟩
    · rw [huuid e.1] at hstore
      refine Or.inr ⟨e.1, p, g', none, hstore, .notYet, ?_⟩
      refine hall (fun i => Agrees py payload _ p g' none (i = e.1)) ⟨rfl, by simp⟩ ?_
      exact fun i hi => agrees_of_unwritten hi (hphases i)
  · obtain ⟨second', hsecond', hnew, hmover⟩ := settled_step hwf hstore hsecond (hphases e.1) hG
      hphase
    refine Or.inr ⟨w, p, t₁, second', hstore, hsecond', ?_⟩
    exact hall (fun i => Agrees py payload _ p t₁ second' (i = w)) hmover
      fun i _ => agrees_of_second hnew (hphases i)

/-- Any call of the run is in a phase it has not raised from. -/
theorem progress_not_raised {t₀ : TradeLeads} {uuid : ι → String}
    {c : Config ι TradeLeads CaptureCall} (hc : Progress py program payload t₀ uuid c) (i : ι) :
    ∀ e, (c.proc i).phase ≠ .raised e := by
  intro e hi
  obtain ⟨-, ⟨-, hphases⟩ | ⟨w, p, t₁, second, -, -, hphases⟩⟩ := hc
  · have := hphases i
    rwa [hi] at this
  · have := hphases i
    rwa [hi] at this

/-- A call that has not raised has returned or can take its next step. -/
theorem returned_or_enabled [DecidableEq ι] {c : Config ι TradeLeads CaptureCall} {i : ι}
    (h : ∀ e, (c.proc i).phase ≠ .raised e) :
    (∃ participants created, (c.proc i).phase = .returned participants created) ∨
      ∃ next, fire (captureStep py program payload) (i, ()) c = some next := by
  cases hphase : (c.proc i).phase with
  | returned participants created => exact Or.inl ⟨participants, created, rfl⟩
  | raised e => exact absurd hphase (h e)
  | _ =>
      right
      rw [← Option.isSome_iff_exists, fire, Option.isSome_map, captureStep, Option.isSome_map,
        hphase, capturePhaseStep_isSome_iff]
      rfl

/-- A run has at most four steps of each call, whatever the others do. -/
theorem capture_steps_le [DecidableEq ι] {c c' : Config ι TradeLeads CaptureCall}
    {es : List (ι × Unit)} {i : ι} (hstart : (c.proc i).phase = .start)
    (hrun : exec (fire (captureStep py program payload)) es c = some c') :
    (es.countP fun e => e.1 = i) ≤ 4 := by
  have hcount := count_le_rank (fun call : CaptureCall => call.phase.rank) ?_ i hrun
  · simp only [hstart, CapturePhase.rank] at hcount
    omega
  · intro _ t call t' call' hstep
    simp only [captureStep, Option.map_eq_some_iff, Prod.mk.injEq] at hstep
    obtain ⟨⟨g', phase'⟩, hphase, -, rfl⟩ := hstep
    exact capturePhaseStep_rank hphase

/-- What is stored when the run is over is what a single call stores and returns. -/
theorem captureInProgram_of_stored (hwf : WellFormed py payload) {t₀ t₁ g : TradeLeads}
    {uuid : String} {p : Participant} {second : Option Participant}
    (hstore : storePrimary program payload (normaliseEmail py payload.email) uuid
      (getByProgramEmail t₀ program.id (normaliseEmail py payload.email)) t₀ = .ok (p, t₁))
    (hsecond : SecondStored py program payload p t₁ second g)
    (hdone : second.isSome = (namedSecond py payload).isSome) :
    captureInProgram py program payload uuid t₀ = (g, .ok (p :: second.toList,
      (getByProgramEmail t₀ program.id (normaliseEmail py payload.email)).isNone)) := by
  obtain ⟨warning, hparse⟩ := hwf.second
  cases hsecond with
  | notYet =>
      have hkw : namedSecond py payload = none := by
        rwa [Option.isSome_none, eq_comm, Option.isSome_eq_false_iff, Option.isNone_iff_eq_none]
          at hdone
      simp only [captureInProgram, hstore, hparse, hkw, Option.toList_none]
  | stored hkw hapart hs =>
      simp only [captureInProgram, hstore, hparse, hkw, hs, Option.toList_some]

/-- **When re-submission is idempotent.** Any number of calls with one well-formed payload start on
any table and run interleaved; no step runs into what the code does not handle. Then every call has
returned or can take its next step, and when all have returned there is a call `w` such that the
table and the participants every call returns are those of `w` run alone, and exactly `w` reports a
creation if the email was new, no call otherwise. -/
theorem captures_agree [DecidableEq ι] [Nonempty ι] (hwf : WellFormed py payload)
    {c c' : Config ι TradeLeads CaptureCall} {es : List (ι × Unit)}
    (hstart : ∀ i, (c.proc i).phase = .start)
    (hrun : exec (fire (captureStep py program payload)) es c = some c')
    (hG : Guarded (fire (captureStep py program payload)) (HandledEvent py program payload) es c) :
    (∀ i, (∃ participants created, (c'.proc i).phase = .returned participants created) ∨
      ∃ next, fire (captureStep py program payload) (i, ()) c' = some next) ∧
    ((∀ i, (c'.proc i).phase.result.isSome = true) → ∃ w participants created,
      captureInProgram py program payload (c.proc w).uuid c.shared =
          (c'.shared, .ok (participants, created)) ∧
        (created = true ↔
          getByProgramEmail c.shared program.id (normaliseEmail py payload.email) = none) ∧
        ∀ i, ∃ created', (c'.proc i).phase = .returned participants created' ∧
          (created' = true ↔ created = true ∧ i = w)) := by
  have hinit : Progress py program payload c.shared (fun i => (c.proc i).uuid) c := by
    refine ⟨fun i => rfl, Or.inl ⟨rfl, fun i => ?_⟩⟩
    rw [hstart i]
    trivial
  have hfinal := (always_of_step (fun e d d' hd hGd hf => progress_fire hwf hd hGd hf) hinit
    hG).last hrun
  refine ⟨fun i => returned_or_enabled (progress_not_raised hfinal i), fun hdone => ?_⟩
  obtain ⟨-, ⟨-, hphases⟩ | ⟨w, p, t₁, second, hstore, hsecond, hphases⟩⟩ := hfinal
  · -- a call that has written nothing has not returned
    obtain ⟨i⟩ := ‹Nonempty ι›
    have hi := hphases i
    have hd := hdone i
    cases hph : (c'.proc i).phase <;> simp_all [Unwritten, CapturePhase.result]
  · have hreturned : ∀ i, ∃ created', (c'.proc i).phase =
        .returned (p :: second.toList) created' ∧
        (created' = true ↔ getByProgramEmail c.shared program.id
          (normaliseEmail py payload.email) = none ∧ i = w) ∧
        second.isSome = (namedSecond py payload).isSome := by
      intro i
      have hi := hphases i
      have hd := hdone i
      cases hph : (c'.proc i).phase with
      | returned participants created =>
          rw [hph] at hi
          obtain ⟨rfl, hcreated, hsome⟩ := hi
          exact ⟨created, rfl, hcreated, hsome⟩
      | _ => simp_all [Agrees, CapturePhase.result]
    obtain ⟨-, -, -, hsome⟩ := hreturned w
    refine ⟨w, _, _, captureInProgram_of_stored hwf hstore hsecond hsome,
      Option.isNone_iff_eq_none, fun i => ?_⟩
    obtain ⟨created', hph, hcreated, -⟩ := hreturned i
    exact ⟨created', hph, by rw [hcreated, Option.isNone_iff_eq_none]⟩

end Driver

attribute [local instance] plainDriver

/-! ## Two calls -/

/-- Two calls with one payload on an empty table. -/
def twoCaptures : Config Bool TradeLeads CaptureCall where
  shared := Table.empty _
  proc i := ⟨if i then "r-1" else "r-2", .start⟩

/-- Both calls look up before either inserts: the second INSERT violates the unique index, and its
handler raises. -/
theorem capture_race_raises : ∃ c',
    exec (fire (captureStep asciiLower openProgram benAlone))
      [(true, ()), (false, ()), (true, ()), (false, ()), (true, ())] twoCaptures = some c' ∧
    (∃ participants, (c'.proc true).phase = .returned participants true) ∧
    (c'.proc false).phase = .raised .missingGreenlet :=
  ⟨_, rfl, ⟨_, rfl⟩, rfl⟩

/-- One call after the other. -/
def oneAfterTheOther : List (Bool × Unit) :=
  [(true, ()), (true, ()), (true, ()), (true, ()), (false, ()), (false, ()), (false, ()),
    (false, ())]

theorem adaWithBen_wellFormed : WellFormed asciiLower adaWithBen where
  columns := by decide
  second := ⟨_, rfl⟩
  secondColumns kwargs h := by
    cases h
    decide

/-- One call after the other, both with a second participant, agree on what one call stores. -/
theorem sequential_captures_agree : ∃ c', exec (fire (captureStep asciiLower openProgram adaWithBen))
      oneAfterTheOther twoCaptures = some c' ∧
    ∃ w participants, captureInProgram asciiLower openProgram adaWithBen (twoCaptures.proc w).uuid
      twoCaptures.shared = (c'.shared, .ok (participants, true)) := by
  obtain ⟨c', hrun, hdone⟩ : ∃ c', exec (fire (captureStep asciiLower openProgram adaWithBen))
      oneAfterTheOther twoCaptures = some c' ∧
      ∀ i, (c'.proc i).phase.result.isSome = true := ⟨_, rfl, by decide⟩
  obtain ⟨w, participants, created, hsingle, hcreated, -⟩ :=
    (captures_agree adaWithBen_wellFormed (fun i => rfl) hrun (by decide)).2 hdone
  obtain rfl : created = true := hcreated.2 rfl
  exact ⟨c', hrun, w, participants, hsingle⟩

end SalesTrades.Trade
