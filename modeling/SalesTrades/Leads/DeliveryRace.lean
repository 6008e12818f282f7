import Mathlib.Data.Fintype.Basic
import SalesTrades.Library.Run
import SalesTrades.Leads.DeliveryMoves

/-!
# Concurrent delivery paths

Any number of submissions and sweeps, interleaved. No request is mailed twice, and with accepted emails
every request is mailed, in runs in which no path takes up a lead that another has in hand
(`requests_mailed_once`). Nothing in the code keeps a sweep from taking up a lead whose submission is
still sending: then the request is mailed twice (`sweep_repeats_capture`).
-/

set_option autoImplicit false

namespace SalesTrades.Leads

open SalesTrades.Library SalesTrades.Library.Run SalesTrades.Library.Interleaving

universe u

variable {ι : Type u} [DecidableEq ι] {py : LowerCase} {transport : Bool} {campaigns : Campaigns}
  {c c' : Config ι DeliveryShared DeliveryCall} {e : ι × Attempt}

/-- The condition on a step: it takes up no lead that another process has in hand. -/
def TakesFree (py : LowerCase) (campaigns : Campaigns) (e : ι × Attempt)
    (c : Config ι DeliveryShared DeliveryCall) : Prop :=
  ∀ id ∈ (c.proc e.1).takesUp py campaigns.list c.shared, ∀ i, i ≠ e.1 →
    id ∉ (c.proc i).phase.inHand

instance [Fintype ι] (py : LowerCase) (campaigns : Campaigns) (e : ι × Attempt)
    (c : Config ι DeliveryShared DeliveryCall) : Decidable (TakesFree py campaigns e c) := by
  unfold TakesFree
  infer_instance

/-- Only the first step of a process takes up leads. -/
theorem phase_eq_start {campaigns : List Campaign} {call : DeliveryCall} {s : DeliveryShared} {id : Nat}
    (h : id ∈ call.takesUp py campaigns s) : call.phase = .start := by
  obtain ⟨caller, phase⟩ := call
  cases phase with
  | start => rfl
  | _ => simp [DeliveryCall.takesUp] at h

/-! ## At most once -/

/-- Every lead in hand is in good order and in one hand only; a lead in no hand was mailed at most once
since its last request, and not at all if it waits. -/
structure Custody (transport : Bool) (c : Config ι DeliveryShared DeliveryCall) : Prop where
  good : ∀ i, (c.proc i).phase.Good transport c.shared
  exclusive : Exclusive (fun call : DeliveryCall => call.phase.inHand) c
  free : ∀ id, (∀ i, id ∉ (c.proc i).phase.inHand) → emailsSince id c.shared.log ≤ 1 ∧
    ∀ l, (id, l) ∈ c.shared.leads.rows → waiting l = true → emailsSince id c.shared.log = 0

/-- The step of a process, as a `Move`. -/
theorem move_of_fire (hc : Custody transport c) (hfree : TakesFree py campaigns e c)
    (h : fire (deliveryStep py transport campaigns.list) e c = some c') :
    ∃ s' phase', c' = ⟨s', Function.update c.proc e.1 ⟨(c.proc e.1).caller, phase'⟩⟩ ∧
      deliveryPhaseStep py transport campaigns.list (c.proc e.1).caller e.2 c.shared
        (c.proc e.1).phase = some (s', phase') ∧
      Move transport (c.proc e.1).phase phase' c.shared s'
        ((c.proc e.1).takesUp py campaigns.list c.shared) := by
  obtain ⟨s', call, hstep, rfl⟩ := fire_eq_some.1 h
  simp only [deliveryStep, Option.map_eq_some_iff, Prod.mk.injEq] at hstep
  obtain ⟨⟨s₁, phase'⟩, hphase, rfl, rfl⟩ := hstep
  refine ⟨s₁, phase', rfl, hphase, deliveryPhaseStep_move (hc.good e.1) ?_ hphase⟩
  intro id hid l hl hwaiting
  refine (hc.free id fun i => ?_).2 l hl hwaiting
  by_cases hi : i = e.1
  · rw [hi, phase_eq_start hid]
    exact List.not_mem_nil
  · exact hfree id hid i hi

theorem custody_fire (hc : Custody transport c) (hfree : TakesFree py campaigns e c)
    (h : fire (deliveryStep py transport campaigns.list) e c = some c') : Custody transport c' := by
  obtain ⟨s', phase', rfl, -, hmove⟩ := move_of_fire hc hfree h
  -- a lead that the mover has in hand afterwards, nobody else has in hand
  have hothers : ∀ id ∈ phase'.inHand, ∀ i, i ≠ e.1 → id ∉ (c.proc i).phase.inHand := by
    intro id hid i hi hother
    rcases hmove.inHand id hid with hold | htaken | ⟨-, hnew⟩
    · exact hi (hc.exclusive i e.1 id hother hold)
    · exact hfree id htaken i hi hother
    · obtain ⟨l, hl⟩ := ((hc.good i).lead hother).1
      exact hnew l hl
  refine ⟨fun i => ?_, ?_, fun id hnobody => ?_⟩
  · by_cases hi : i = e.1
    · subst hi
      simpa using hmove.good
    · simp only [Function.update_of_ne hi]
      refine (hc.good i).stable hmove.keeps fun id hid => hmove.silent id ?_ ?_
      · exact fun hmover => hi (hc.exclusive i e.1 id hid hmover)
      · exact fun hmover => hothers id hmover i hi hid
  · exact hc.exclusive.fire e.1 s' fun id hid => Or.inr (hothers id hid)
  · have hmover : id ∉ phase'.inHand := by simpa using hnobody e.1
    by_cases hheld : id ∈ (c.proc e.1).phase.inHand
    · exact hmove.released id hheld hmover
    · obtain ⟨hle, hzero⟩ := hc.free id fun i => by
        by_cases hi : i = e.1
        · exact hi ▸ hheld
        · simpa [Function.update_of_ne hi] using hnobody i
      simp only [hmove.silent id hheld hmover]
      refine ⟨hle, fun l hl hwaiting => ?_⟩
      obtain ⟨l₀, hl₀, hwaiting₀⟩ := hmove.untouched id hheld hmover l hl hwaiting
      exact hzero l₀ hl₀ hwaiting₀

omit [DecidableEq ι] in
theorem custody_start (hstart : ∀ i, (c.proc i).phase = .start) (hlog : c.shared.log = []) :
    Custody transport c := by
  refine ⟨fun i => ?_, fun i j id hid => ?_, fun id _ => ?_⟩
  · rw [hstart i]
    trivial
  · simp only [hstart i] at hid
    cases hid
  · rw [hlog]
    exact ⟨Nat.zero_le 1, fun _ _ _ => rfl⟩

/-! ## At least once -/

/-- How the request for `id` is served. -/
def ServedLead (id : Nat) (c : Config ι DeliveryShared DeliveryCall) : Prop :=
  (∃ i task created, (c.proc i).phase = .packing task created ∧ task.row.1 = id ∧
    deliverableLabels task.row.2 task.campaign ≠ [] ∧ task.answer ≠ some false) ∨
  ((∀ i, id ∉ (c.proc i).phase.inHand) ∧ emailsSince id c.shared.log = 1)

/-- A step that does not take up the lead keeps its request served. -/
theorem servedLead_step {s' : DeliveryShared} {phase' : DeliveryPhase} {id : Nat}
    (hc : Custody true c) (haccepted : e.2.accepted = true)
    (hphase : deliveryPhaseStep py true campaigns.list (c.proc e.1).caller e.2 c.shared
      (c.proc e.1).phase = some (s', phase'))
    (hsilent : id ∉ (c.proc e.1).phase.inHand → id ∉ phase'.inHand →
      emailsSince id s'.log = emailsSince id c.shared.log)
    (hnew : id ∈ phase'.inHand → id ∈ (c.proc e.1).phase.inHand) (hserved : ServedLead id c) :
    ServedLead id ⟨s', Function.update c.proc e.1 ⟨(c.proc e.1).caller, phase'⟩⟩ := by
  rcases hserved with ⟨i, task, created, hi, rfl, hlabels, hanswer⟩ | ⟨hnobody, hone⟩
  · by_cases hmover : i = e.1
    · subst hmover
      have hgood := hc.good e.1
      rw [hi] at hgood hphase
      obtain ⟨hloaded, hmails⟩ := hgood
      simp only [deliveryPhaseStep] at hphase
      cases htask : task.answer with
      | none =>
          simp only [htask, Option.some.injEq, Prod.mk.injEq] at hphase
          obtain ⟨rfl, rfl⟩ := hphase
          exact Or.inl ⟨e.1, (sendStep true task e.2 c.shared).2, created, by simp, rfl, hlabels,
            by simp [sendStep, haccepted]⟩
      | some answer =>
          -- the pack was mailed, and its commit puts the lead down
          have htrue : task.answer = some true := by
            cases answer with
            | true => exact htask
            | false => exact absurd htask hanswer
          obtain ⟨new, t', -, hcommit, -⟩ :=
            commitStep_spec true hloaded htask e.2.now
          simp only [htask, hcommit, Option.some.injEq, Prod.mk.injEq] at hphase
          obtain ⟨rfl, rfl⟩ := hphase
          refine Or.inr ⟨fun j hj => ?_, ?_⟩
          · by_cases hje : j = e.1
            · subst hje
              simp at hj
            · simp only [Function.update_of_ne hje] at hj
              refine hje (hc.exclusive j e.1 task.row.1 hj ?_)
              simp [hi, DeliveryPhase.inHand]
          · rw [hmails, PackTask.mails, if_pos ⟨hlabels, rfl, htrue⟩]
    · exact Or.inl ⟨i, task, created, by simpa [Function.update_of_ne hmover] using hi, rfl, hlabels,
        hanswer⟩
  · have hout : id ∉ phase'.inHand := fun h => hnobody e.1 (hnew h)
    refine Or.inr ⟨fun j hj => ?_, (hsilent (hnobody e.1) hout).trans hone⟩
    by_cases hje : j = e.1
    · subst hje
      exact hout (by simpa using hj)
    · exact hnobody j (by simpa [Function.update_of_ne hje] using hj)

omit [DecidableEq ι] in
/-- A lead that waits and is in no hand has no served request. -/
theorem ServedLead.not_waiting (hc : Custody true c) {row : LeadRow} (hmem : row ∈ c.shared.leads.rows)
    (hwaiting : waiting row.2 = true) (hnobody : ∀ i, row.1 ∉ (c.proc i).phase.inHand) :
    ¬ ServedLead row.1 c := by
  rintro (⟨i, task, created, hi, htask, -⟩ | ⟨-, hone⟩)
  · apply hnobody i
    simp [hi, DeliveryPhase.inHand, htask]
  · have hzero := (hc.free row.1 hnobody).2 row.2 hmem hwaiting
    omega

/-- The leads on the list of a sweep wait and are in no hand, so their requests were not served. -/
theorem not_served_takesUp (hc : Custody true c) (hfree : TakesFree py campaigns e c)
    {underLock : Bool} {limit id : Nat} (hstart : (c.proc e.1).phase = .start)
    (hcaller : (c.proc e.1).caller = .sweep underLock limit)
    (htaken : id ∈ (c.proc e.1).takesUp py campaigns.list c.shared) : ¬ ServedLead id c := by
  have hlist := htaken
  simp only [DeliveryCall.takesUp, hstart, hcaller] at hlist
  split at hlist
  · cases hlist
  · obtain ⟨row, hrow, rfl⟩ := List.mem_map.1 hlist
    obtain ⟨hmem, hwaiting⟩ := mem_listPendingPackDelivery hrow
    refine ServedLead.not_waiting hc hmem hwaiting fun i => ?_
    by_cases hi : i = e.1
    · rw [hi, hstart]
      exact List.not_mem_nil
    · exact hfree row.1 htaken i hi

/-- A request for deliverable materials is in the hand of the submission that made it, or it was mailed
and is in no hand. -/
def Served (c : Config ι DeliveryShared DeliveryCall) : Prop :=
  ∀ id labels, lastRequest id c.shared.log = some labels → labels ≠ [] → ServedLead id c

/-- With the key set and the email accepted, a step keeps every request served. -/
theorem served_fire (hc : Custody true c) (hserved : Served c) (hfree : TakesFree py campaigns e c)
    (haccepted : e.2.accepted = true)
    (h : fire (deliveryStep py true campaigns.list) e c = some c') : Served c' := by
  obtain ⟨s', phase', rfl, hphase, hmove⟩ := move_of_fire hc hfree h
  intro id labels hrequest hlabels
  have hkeep : lastRequest id s'.log = lastRequest id c.shared.log →
      (id ∈ phase'.inHand → id ∈ (c.proc e.1).phase.inHand) →
      ServedLead id ⟨s', Function.update c.proc e.1 ⟨(c.proc e.1).caller, phase'⟩⟩ :=
    fun hsame hnew => servedLead_step hc haccepted hphase (hmove.silent id) hnew
      (hserved id labels (hsame ▸ hrequest) hlabels)
  by_cases hstart : (c.proc e.1).phase = .start
  · rw [hstart] at hphase
    cases hcaller : (c.proc e.1).caller with
    | endpoint slug payload =>
        rw [← hcaller]
        simp only [hcaller, deliveryPhaseStep, Option.some.injEq] at hphase
        -- the submission is stored as `row`, or nothing is
        have hstored : ∀ campaign row created t', afterSubmit campaign row created t' c.shared =
            (s', phase') →
            ServedLead id ⟨s', Function.update c.proc e.1 ⟨(c.proc e.1).caller, phase'⟩⟩ := by
          intro campaign row created t' hafter
          unfold afterSubmit at hafter
          split at hafter
          · rw [Prod.mk.injEq] at hafter
            obtain ⟨rfl, rfl⟩ := hafter
            by_cases hid : row.1 = id
            · simp only [lastRequest, hid, if_true, Option.some.injEq] at hrequest
              exact Or.inl ⟨e.1, ⟨campaign, row, none⟩, created, by simp, hid, hrequest ▸ hlabels,
                by simp⟩
            · refine hkeep (by simp [lastRequest, hid]) fun h => ?_
              exact absurd (List.mem_singleton.1 h).symm hid
          · rw [Prod.mk.injEq] at hafter
            obtain ⟨rfl, rfl⟩ := hafter
            exact hkeep rfl (by simp)
        rcases submitStep_cases py campaigns slug payload e.2.now c.shared with hidle |
          ⟨campaign, -, -, ⟨row, t', -, -, hsubmit⟩ | ⟨t', -, hsubmit⟩⟩
        · rw [hidle, Prod.mk.injEq] at hphase
          obtain ⟨rfl, rfl⟩ := hphase
          exact hkeep rfl (by simp [DeliveryPhase.inHand])
        · exact hstored _ _ _ _ (hsubmit ▸ hphase)
        · exact hstored _ _ _ _ (hsubmit ▸ hphase)
    | sweep underLock limit =>
        rw [← hcaller]
        simp only [hcaller, deliveryPhaseStep] at hphase
        split at hphase
        · rw [Option.some.injEq, Prod.mk.injEq] at hphase
          obtain ⟨rfl, rfl⟩ := hphase
          exact hkeep rfl (by simp [DeliveryPhase.inHand])
        · rename_i hgo
          rw [Option.some.injEq, Prod.mk.injEq] at hphase
          obtain ⟨rfl, rfl⟩ := hphase
          refine hkeep rfl fun hid => ?_
          have htaken : id ∈ (c.proc e.1).takesUp py campaigns.list c.shared := by
            simp only [DeliveryCall.takesUp, hstart, hcaller, hgo]
            exact hid
          exact absurd (hserved id labels hrequest hlabels)
            (not_served_takesUp hc hfree hstart hcaller htaken)
  · refine hkeep (hmove.requests hstart id) fun hid => ?_
    rcases hmove.inHand id hid with hold | htaken | ⟨h, -⟩
    · exact hold
    · exact absurd (phase_eq_start htaken) hstart
    · exact absurd h hstart

/-! ## Runs -/

/-- A process that has not ended can take its next step. -/
theorem deliveryPhaseStep_isSome {campaigns : List Campaign} {caller : Caller} {a : Attempt}
    {s : DeliveryShared} {phase : DeliveryPhase} (h : phase ≠ .ended) :
    (deliveryPhaseStep py transport campaigns caller a s phase).isSome = true := by
  cases phase with
  | start =>
      cases caller with
      | endpoint slug payload => rfl
      | sweep underLock limit =>
          simp only [deliveryPhaseStep]
          split <;> rfl
  | packing task created =>
      simp only [deliveryPhaseStep]
      cases task.answer with
      | none => rfl
      | some accepted =>
          simp only
          split <;> rfl
  | viewing task =>
      simp only [deliveryPhaseStep]
      cases task.answer <;> rfl
  | sweeping todo task =>
      cases task with
      | none =>
          cases todo with
          | nil => rfl
          | cons row rest =>
              simp only [deliveryPhaseStep]
              split <;> rfl
      | some task =>
          simp only [deliveryPhaseStep]
          cases task.answer with
          | none => rfl
          | some accepted =>
              simp only
              split <;> rfl
  | ended => exact absurd rfl h

/-- **When concurrent delivery paths mail a request once.** Submissions and sweeps, any number of them,
interleaved from any table, in a run in which no step takes up a lead that another process has in hand:
no lead is mailed twice for one request, whatever emails are accepted; if the key is set and all emails
are accepted, a request with deliverable materials has been mailed exactly once as soon as its lead is
in no hand; and every process can go on until it has ended. -/
theorem requests_mailed_once {es : List (ι × Attempt)} (hstart : ∀ i, (c.proc i).phase = .start)
    (hlog : c.shared.log = [])
    (hfree : Guarded (fire (deliveryStep py transport campaigns.list)) (TakesFree py campaigns) es c)
    (hrun : exec (fire (deliveryStep py transport campaigns.list)) es c = some c') :
    (∀ id, emailsSince id c'.shared.log ≤ 1) ∧
    (transport = true → (∀ e ∈ es, e.2.accepted = true) → ∀ id labels,
      lastRequest id c'.shared.log = some labels → labels ≠ [] →
      (∀ i, id ∉ (c'.proc i).phase.inHand) → emailsSince id c'.shared.log = 1) ∧
    ∀ i, (c'.proc i).phase ≠ .ended → ∀ a, ∃ next,
      fire (deliveryStep py transport campaigns.list) (i, a) c' = some next := by
  have hcustody : Custody transport c' :=
    (always_of_step (fun _ _ _ hd hG hf => custody_fire hd hG hf) (custody_start hstart hlog)
      hfree).last hrun
  refine ⟨fun id => ?_, ?_, fun i hi a => ?_⟩
  · by_cases hheld : ∃ i, id ∈ (c'.proc i).phase.inHand
    · obtain ⟨i, hid⟩ := hheld
      exact ((hcustody.good i).lead hid).2
    · exact (hcustody.free id (not_exists.1 hheld)).1
  · rintro rfl haccepted id labels hrequest hlabels hnobody
    have hserved : Custody true c' ∧ Served c' := by
      refine (always_of_step (I := fun d => Custody true d ∧ Served d) ?_ ⟨custody_start hstart hlog, ?_⟩
        (hfree.and (guarded_of_forall haccepted c))).last hrun
      · exact fun e d d' hd hG hf =>
          ⟨custody_fire hd.1 hG.1 hf, served_fire hd.1 hd.2 hG.1 hG.2 hf⟩
      · intro id labels hrequest
        rw [hlog] at hrequest
        cases hrequest
    rcases hserved.2 id labels hrequest hlabels with ⟨i, task, created, hi, rfl, -⟩ | ⟨-, hone⟩
    · refine absurd ?_ (hnobody i)
      simp [hi, DeliveryPhase.inHand]
    · exact hone
  · rw [← Option.isSome_iff_exists, fire, Option.isSome_map, deliveryStep, Option.isSome_map]
    exact deliveryPhaseStep_isSome hi

/-! ## A submission and a sweep -/

/-- Ada asks for the prospectus while the job runs. -/
def captureAndSweep : Config Bool DeliveryShared DeliveryCall where
  shared := ⟨Table.empty _, [], false⟩
  proc i := ⟨if i then .endpoint "nog-2026" (packRequest ["Prospectus"]) else .sweep true 200, .start⟩

/-- The events of a run in which every email is accepted. -/
def allAccepted (movers : List Bool) : List (Bool × Attempt) := movers.map fun i => (i, accepted)

/-- The job loads its list between the commit of the lead and the commit of its delivery: Ada gets the
prospectus twice. -/
theorem sweep_repeats_capture : ∃ c',
    exec (fire (deliveryStep asciiLower true standWorld.campaigns.list))
      (allAccepted [true, false, true, true, false, false, false, false]) captureAndSweep = some c' ∧
    (∀ i, (c'.proc i).phase = .ended) ∧ lastRequest 1 c'.shared.log = some ["Prospectus"] ∧
    emailsSince 1 c'.shared.log = 2 := by
  refine ⟨_, rfl, ?_, rfl, rfl⟩
  rintro (_ | _) <;> rfl

/-- The job loads its list after the delivery: Ada gets the prospectus once. -/
theorem sweep_after_capture : ∃ c',
    exec (fire (deliveryStep asciiLower true standWorld.campaigns.list))
      (allAccepted [true, true, true, false, false]) captureAndSweep = some c' ∧
    (∀ i, (c'.proc i).phase = .ended) ∧ emailsSince 1 c'.shared.log = 1 := by
  obtain ⟨c', hrun, hended, hrequest⟩ : ∃ c',
      exec (fire (deliveryStep asciiLower true standWorld.campaigns.list))
        (allAccepted [true, true, true, false, false]) captureAndSweep = some c' ∧
      (∀ i, (c'.proc i).phase = .ended) ∧ lastRequest 1 c'.shared.log = some ["Prospectus"] := by
    refine ⟨_, rfl, ?_, rfl⟩
    rintro (_ | _) <;> rfl
  refine ⟨c', hrun, hended, (requests_mailed_once (fun i => rfl) rfl (by decide) hrun).2.1 rfl ?_ 1 _
    hrequest (by simp) fun i => ?_⟩
  · simp [allAccepted, accepted]
  · rw [hended i]
    exact List.not_mem_nil

end SalesTrades.Leads
