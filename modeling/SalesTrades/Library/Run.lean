import Mathlib.Logic.Function.Basic

/-!
# Runs of a labelled transition function

A system is a function `step : E → S → Option S`: the state after an event, or `none` when the
event is not enabled. A run is a list of events. `Always` says that a predicate holds in every state
a run passes through, `Guarded` that every event of the run meets a condition on the state before
it. The rules below turn a fact about one step into a fact about whole runs (`always_of_step`), and
back (`guarded_of_always`), so that a condition on steps can be shown to be exactly what keeps an
invariant (`always_iff_guarded`, `always_iff_guarded_of_exact`), or what gives every step of the run a
property (`eachStep_iff_guarded`).
-/

set_option autoImplicit false

namespace SalesTrades.Library.Run

universe u v

variable {E : Type u} {S : Type v}

/-- The state after the events of the list, taken in order; `none` when one is not enabled. -/
def exec (step : E → S → Option S) : List E → S → Option S
  | [], s => some s
  | e :: es, s => (step e s).bind (exec step es)

/-- `P` holds in every state of the run, its start and its end included. -/
def Always (step : E → S → Option S) (P : S → Prop) : List E → S → Prop
  | [], s => P s
  | e :: es, s => P s ∧ ∀ t, step e s = some t → Always step P es t

/-- Every event of the run meets `G` in the state before it. -/
def Guarded (step : E → S → Option S) (G : E → S → Prop) : List E → S → Prop
  | [], _ => True
  | e :: es, s => G e s ∧ ∀ t, step e s = some t → Guarded step G es t

variable {step : E → S → Option S}

/-- Whether a given run meets a decidable condition can be evaluated. -/
instance Guarded.decidable {G : E → S → Prop} [∀ e s, Decidable (G e s)] :
    ∀ es s, Decidable (Guarded step G es s)
  | [], _ => isTrue trivial
  | e :: es, s =>
      match h : step e s with
      | none => decidable_of_iff (G e s) (by simp [Guarded, h])
      | some t =>
          @decidable_of_iff _ (G e s ∧ Guarded step G es t) (by simp [Guarded, h])
            (@instDecidableAnd _ _ _ (Guarded.decidable es t))

theorem exec_cons_eq_some {e : E} {es : List E} {s t : S} :
    exec step (e :: es) s = some t ↔ ∃ m, step e s = some m ∧ exec step es m = some t := by
  simp [exec, Option.bind_eq_some_iff]

theorem exec_append {es fs : List E} {s : S} :
    exec step (es ++ fs) s = (exec step es s).bind (exec step fs) := by
  induction es generalizing s with
  | nil => rfl
  | cons e es ih =>
      simp only [List.cons_append, exec, Option.bind_assoc]
      congr 1
      funext m
      exact ih

/-- A guarded run step by step. -/
theorem guarded_run_cons {G : E → S → Prop} {P : S → Prop} {e : E} {es : List E} {s m : S}
    (h : step e s = some m) (hG : G e s)
    (hrest : ∃ t, exec step es m = some t ∧ Guarded step G es m ∧ P t) :
    ∃ t, exec step (e :: es) s = some t ∧ Guarded step G (e :: es) s ∧ P t := by
  obtain ⟨t, ht, hes, hP⟩ := hrest
  refine ⟨t, exec_cons_eq_some.2 ⟨m, h, ht⟩, ⟨hG, fun m' hm' => ?_⟩, hP⟩
  obtain rfl : m = m' := Option.some.inj (h.symm.trans hm')
  exact hes

/-- When every event is enabled everywhere, every run goes through. -/
theorem exec_isSome (htotal : ∀ e s, (step e s).isSome = true) (es : List E) (s : S) :
    (exec step es s).isSome = true := by
  induction es generalizing s with
  | nil => rfl
  | cons e es ih =>
      obtain ⟨t, ht⟩ := Option.isSome_iff_exists.1 (htotal e s)
      simpa [exec, ht] using ih t

/-- A run is guarded when its first part is, and its second from the state the first leads to. -/
theorem guarded_append {G : E → S → Prop} {es fs : List E} {s : S} :
    Guarded step G (es ++ fs) s ↔
      Guarded step G es s ∧ ∀ t, exec step es s = some t → Guarded step G fs t := by
  induction es generalizing s with
  | nil => simp [Guarded, exec]
  | cons e es ih =>
      simp only [List.cons_append, Guarded, ih, exec_cons_eq_some]
      constructor
      · rintro ⟨he, hrest⟩
        refine ⟨⟨he, fun t ht => (hrest t ht).1⟩, ?_⟩
        rintro u ⟨t, ht, hu⟩
        exact (hrest t ht).2 u hu
      · rintro ⟨⟨he, hes⟩, hfs⟩
        exact ⟨he, fun t ht => ⟨hes t ht, fun u hu => hfs u ⟨t, ht, hu⟩⟩⟩

theorem Always.head {P : S → Prop} {es : List E} {s : S} (h : Always step P es s) : P s := by
  cases es with
  | nil => exact h
  | cons e es => exact h.1

theorem Always.mono {P Q : S → Prop} (hPQ : ∀ s, P s → Q s) {es : List E} {s : S}
    (h : Always step P es s) : Always step Q es s := by
  induction es generalizing s with
  | nil => exact hPQ s h
  | cons e es ih => exact ⟨hPQ s h.1, fun t ht => ih (h.2 t ht)⟩

/-- What holds throughout a run holds where it ends. -/
theorem Always.last {P : S → Prop} {es : List E} {s t : S} (h : Always step P es s)
    (hrun : exec step es s = some t) : P t := by
  induction es generalizing s with
  | nil =>
      simp only [exec, Option.some.injEq] at hrun
      exact hrun ▸ h
  | cons e es ih =>
      obtain ⟨m, hm, hrest⟩ := exec_cons_eq_some.1 hrun
      exact ih (h.2 m hm) hrest

/-- **Invariant rule.** A predicate that every step meeting the guard preserves holds throughout
every run whose steps all meet it. -/
theorem always_of_step {I : S → Prop} {G : E → S → Prop}
    (hstep : ∀ e s t, I s → G e s → step e s = some t → I t) {es : List E} {s : S} (hs : I s)
    (hG : Guarded step G es s) : Always step I es s := by
  induction es generalizing s with
  | nil => exact hs
  | cons e es ih => exact ⟨hs, fun t ht => ih (hstep e s t hs hG.1 ht) (hG.2 t ht)⟩

/-- A condition on the events alone, met by all of them. -/
theorem guarded_of_forall {G : E → Prop} {es : List E} (h : ∀ e ∈ es, G e) (s : S) :
    Guarded step (fun e _ => G e) es s := by
  induction es generalizing s with
  | nil => trivial
  | cons e es ih =>
      obtain ⟨he, hes⟩ := List.forall_mem_cons.1 h
      exact ⟨he, fun t _ => ih hes t⟩

theorem Guarded.mono {G H : E → S → Prop} (hGH : ∀ e s, G e s → H e s) {es : List E} {s : S}
    (h : Guarded step G es s) : Guarded step H es s := by
  induction es generalizing s with
  | nil => trivial
  | cons e es ih => exact ⟨hGH e s h.1, fun t ht => ih (h.2 t ht)⟩

theorem Guarded.and {G H : E → S → Prop} {es : List E} {s : S} (hG : Guarded step G es s)
    (hH : Guarded step H es s) : Guarded step (fun e s => G e s ∧ H e s) es s := by
  induction es generalizing s with
  | nil => trivial
  | cons e es ih => exact ⟨⟨hG.1, hH.1⟩, fun t ht => ih (hG.2 t ht) (hH.2 t ht)⟩

/-- A system that another one projects to meets a condition on the projection when the other does. -/
theorem guarded_of_map {T : Type*} {step' : E → T → Option T} {π : S → T} {G : E → T → Prop}
    (hmap : ∀ e s, (step e s).map π = step' e (π s)) {es : List E} {s : S}
    (h : Guarded step' G es (π s)) : Guarded step (fun e s => G e (π s)) es s := by
  induction es generalizing s with
  | nil => trivial
  | cons e es ih =>
      refine ⟨h.1, fun t ht => ih (h.2 (π t) ?_)⟩
      rw [← hmap, ht]
      rfl

/-- **Fresh names.** When a step brings in no other names than its event's, events whose names are all
different and unused at the start find them unused when their turn comes. -/
theorem guarded_unused {κ : Type*} {names : E → List κ} {Unused : S → κ → Prop} {J : S → Prop}
    (hJ : ∀ e s t, J s → (∀ k ∈ names e, Unused s k) → step e s = some t → J t)
    (hstep : ∀ e s t, J s → step e s = some t → ∀ k, Unused s k → k ∉ names e → Unused t k)
    {es : List E} {s : S} (hs : J s) (hnodup : (es.flatMap names).Nodup)
    (hunused : ∀ e ∈ es, ∀ k ∈ names e, Unused s k) :
    Guarded step (fun e s => ∀ k ∈ names e, Unused s k) es s := by
  induction es generalizing s with
  | nil => trivial
  | cons e es ih =>
      obtain ⟨he, hes⟩ := List.forall_mem_cons.1 hunused
      obtain ⟨-, hrest, hdisjoint⟩ := List.nodup_append.1 hnodup
      refine ⟨he, fun t ht => ih (hJ e s t hs he ht) hrest fun f hf k hk => ?_⟩
      apply hstep e s t hs ht k (hes f hf k hk)
      exact fun hnew => hdisjoint k hnew k (List.mem_flatMap.2 ⟨f, hf, hk⟩) rfl

/-- The invariant rule without a guard, for the state a run ends in. -/
theorem exec_invariant {I : S → Prop} (hstep : ∀ e s t, I s → step e s = some t → I t)
    {es : List E} {s t : S} (hs : I s) (hrun : exec step es s = some t) : I t := by
  induction es generalizing s with
  | nil =>
      simp only [exec, Option.some.injEq] at hrun
      exact hrun ▸ hs
  | cons e es ih =>
      obtain ⟨m, hm, hrest⟩ := exec_cons_eq_some.1 hrun
      exact ih (hstep e s m hs hm) hrest

/-- **Invariant rule with a history.** What a guarded step makes of the events so far and the state they
lead to holds of every guarded run and the state that it ends in. -/
theorem exec_history {I : List E → S → Prop} {H : E → S → Prop} {start : S}
    (hstep : ∀ past e s t, exec step past start = some s → I past s → H e s → step e s = some t →
      I (past ++ [e]) t) {es : List E} {t : S} (hstart : I [] start) (hH : Guarded step H es start)
    (hrun : exec step es start = some t) : I es t := by
  have hmore : ∀ (es past : List E) (s : S), exec step past start = some s → I past s →
      Guarded step H es s → exec step es s = some t → I (past ++ es) t := by
    intro es
    induction es with
    | nil =>
        intro past s _ hI _ hes
        obtain rfl := Option.some.inj hes
        rwa [List.append_nil]
    | cons e es ih =>
        intro past s hpast hI hG hes
        obtain ⟨m, hm, hrest⟩ := exec_cons_eq_some.1 hes
        have hnext : exec step (past ++ [e]) start = some m := by
          rw [exec_append, hpast, Option.bind_some, exec, hm]
          rfl
        have hend := ih (past ++ [e]) m hnext (hstep past e s m hpast hI hG.1 hm) (hG.2 m hm) hrest
        rwa [List.append_assoc] at hend
  exact hmore es [] start rfl hstart hH hrun

/-- When a step between two good states can only be a guarded one, a run through good states is a
guarded run. -/
theorem guarded_of_always {P : S → Prop} {G : E → S → Prop}
    (hstep : ∀ e s t, step e s = some t → P s → P t → G e s) {es : List E} {s t : S}
    (hrun : exec step es s = some t) (hP : Always step P es s) : Guarded step G es s := by
  induction es generalizing s with
  | nil => trivial
  | cons e es ih =>
      obtain ⟨m, hm, hrest⟩ := exec_cons_eq_some.1 hrun
      -- the state after the event is determined, so the rest of the run is guarded by induction
      refine ⟨hstep e s m hm hP.1 (hP.2 m hm).head, fun m' hm' => ?_⟩
      have hmm : m = m' := Option.some.inj (hm.symm.trans hm')
      subst hmm
      exact ih hrest (hP.2 m hm)

theorem Always.and {P Q : S → Prop} {es : List E} {s : S} (hP : Always step P es s)
    (hQ : Always step Q es s) : Always step (fun s => P s ∧ Q s) es s := by
  induction es generalizing s with
  | nil => exact ⟨hP, hQ⟩
  | cons e es ih => exact ⟨⟨hP.1, hQ.1⟩, fun t ht => ih (hP.2 t ht) (hQ.2 t ht)⟩

/-- A predicate that every step preserves holds throughout every run. -/
theorem always_of_invariant {J : S → Prop} (hJ : ∀ e s t, J s → step e s = some t → J t)
    {es : List E} {s : S} (hs : J s) : Always step J es s := by
  induction es generalizing s with
  | nil => exact hs
  | cons e es ih => exact ⟨hs, fun t ht => ih (hJ e s t hs ht)⟩

/-- **Exactness rule.** `I` strengthens `P` to an invariant of the guarded steps, `J` is an
invariant of all steps, and every step from a `J`-state between two `P`-states is guarded: then a
run keeps `P` exactly when all its steps are guarded. -/
theorem always_iff_guarded {I J P : S → Prop} {G : E → S → Prop} (hIP : ∀ s, I s → P s)
    (hstep : ∀ e s t, I s → G e s → step e s = some t → I t)
    (hJ : ∀ e s t, J s → step e s = some t → J t)
    (hback : ∀ e s t, step e s = some t → P s ∧ J s → P t ∧ J t → G e s) {es : List E} {s t : S}
    (hI : I s) (hJs : J s) (hrun : exec step es s = some t) :
    Always step P es s ↔ Guarded step G es s := by
  constructor
  · intro h
    exact guarded_of_always hback hrun (h.and (always_of_invariant hJ hJs))
  · intro h
    exact (always_of_step hstep hI h).mono hIP

/-- **Exactness rule for one step.** `J` is kept by every step that the environment `H` allows, and a
step from a state with `J` and `P` keeps `P` exactly when it is guarded: then a run that the
environment allows keeps `P` exactly when all its steps are guarded. -/
theorem always_iff_guarded_of_exact {J P : S → Prop} {H G : E → S → Prop}
    (hJ : ∀ e s t, J s → H e s → step e s = some t → J t)
    (hexact : ∀ e s t, J s → P s → H e s → step e s = some t → (P t ↔ G e s)) {es : List E} {s t : S}
    (hJs : J s) (hPs : P s) (hH : Guarded step H es s) (hrun : exec step es s = some t) :
    Always step P es s ↔ Guarded step G es s := by
  induction es generalizing s with
  | nil => exact ⟨fun _ => trivial, fun _ => hPs⟩
  | cons e es ih =>
      obtain ⟨m, hm, hrest⟩ := exec_cons_eq_some.1 hrun
      have hiff := hexact e s m hJs hPs hH.1 hm
      have hJm := hJ e s m hJs hH.1 hm
      constructor
      · intro h
        have hPm := (h.2 m hm).head
        refine ⟨hiff.1 hPm, fun m' hm' => ?_⟩
        obtain rfl : m = m' := Option.some.inj (hm.symm.trans hm')
        exact (ih hJm hPm (hH.2 m hm) hrest).1 (h.2 m hm)
      · intro h
        have hPm := hiff.2 h.1
        refine ⟨hPs, fun m' hm' => ?_⟩
        obtain rfl : m = m' := Option.some.inj (hm.symm.trans hm')
        exact (ih hJm hPm (hH.2 m hm) hrest).2 (h.2 m hm)

/-- The exactness rule for a system whose steps never block, where the environment hands every event
names that are all different and unused. -/
theorem always_iff_guarded_of_unused {κ : Type*} {names : E → List κ} {Unused : S → κ → Prop}
    {J P : S → Prop} {G : E → S → Prop} (htotal : ∀ e s, (step e s).isSome = true)
    (hJ : ∀ e s t, J s → (∀ k ∈ names e, Unused s k) → step e s = some t → J t)
    (hnames : ∀ e s t, J s → step e s = some t → ∀ k, Unused s k → k ∉ names e → Unused t k)
    (hexact : ∀ e s t, J s → P s → (∀ k ∈ names e, Unused s k) → step e s = some t →
      (P t ↔ G e s))
    {es : List E} {s : S} (hJs : J s) (hPs : P s) (hnodup : (es.flatMap names).Nodup)
    (hunused : ∀ e ∈ es, ∀ k ∈ names e, Unused s k) :
    Always step P es s ↔ Guarded step G es s := by
  obtain ⟨t, hrun⟩ := Option.isSome_iff_exists.1 (exec_isSome htotal es s)
  exact always_iff_guarded_of_exact hJ hexact hJs hPs
    (guarded_unused hJ hnames hJs hnodup hunused) hrun

/-- `Q` holds between the states before and after every step of the run. -/
def EachStep (step : E → S → Option S) (Q : S → S → Prop) : List E → S → Prop
  | [], _ => True
  | e :: es, s => ∀ t, step e s = some t → Q s t ∧ EachStep step Q es t

/-- The invariant rule for runs whose steps all have `Q`. -/
theorem EachStep.invariant {Q : S → S → Prop} {I : S → Prop}
    (hstep : ∀ e s t, I s → Q s t → step e s = some t → I t) {es : List E} {s t : S}
    (h : EachStep step Q es s) (hs : I s) (hrun : exec step es s = some t) : I t := by
  induction es generalizing s with
  | nil =>
      simp only [exec, Option.some.injEq] at hrun
      exact hrun ▸ hs
  | cons e es ih =>
      obtain ⟨m, hm, hrest⟩ := exec_cons_eq_some.1 hrun
      obtain ⟨hQ, hnext⟩ := h m hm
      exact ih hnext (hstep e s m hs hQ hm) hrest

/-- **Exactness rule for steps.** Where a step that the environment `H` allows has `Q` exactly when it
is guarded, a run has `Q` throughout exactly when all its steps are guarded. -/
theorem eachStep_iff_guarded {Q : S → S → Prop} {H G : E → S → Prop}
    (hexact : ∀ e s t, H e s → step e s = some t → (Q s t ↔ G e s)) {es : List E} {s t : S}
    (hH : Guarded step H es s) (hrun : exec step es s = some t) :
    EachStep step Q es s ↔ Guarded step G es s := by
  induction es generalizing s with
  | nil => exact Iff.rfl
  | cons e es ih =>
      obtain ⟨m, hm, hrest⟩ := exec_cons_eq_some.1 hrun
      have hiff := hexact e s m hH.1 hm
      have hnext := ih (hH.2 m hm) hrest
      constructor
      · intro h
        refine ⟨hiff.1 (h m hm).1, fun m' hm' => ?_⟩
        obtain rfl : m = m' := Option.some.inj (hm.symm.trans hm')
        exact hnext.1 (h m hm).2
      · intro h m' hm'
        obtain rfl : m = m' := Option.some.inj (hm.symm.trans hm')
        exact ⟨hiff.2 h.1, hnext.2 (h.2 m hm)⟩

/-- `Q` relates every event of the run to the states before and after it. -/
def EachEvent (step : E → S → Option S) (Q : E → S → S → Prop) : List E → S → Prop
  | [], _ => True
  | e :: es, s => ∀ t, step e s = some t → Q e s t ∧ EachEvent step Q es t

/-- **Exactness rule for events.** `J` is kept by every step that the environment `H` allows and that
has `Q`, and an allowed step from a state with `J` has `Q` exactly when its event is guarded: then all
events of a run have `Q` exactly when all are guarded. -/
theorem eachEvent_iff_guarded {Q : E → S → S → Prop} {J : S → Prop} {H G : E → S → Prop}
    (hJ : ∀ e s t, J s → H e s → Q e s t → step e s = some t → J t)
    (hexact : ∀ e s t, J s → H e s → step e s = some t → (Q e s t ↔ G e s)) {es : List E} {s t : S}
    (hs : J s) (hH : Guarded step H es s) (hrun : exec step es s = some t) :
    EachEvent step Q es s ↔ Guarded step G es s := by
  induction es generalizing s with
  | nil => exact Iff.rfl
  | cons e es ih =>
      obtain ⟨m, hm, hrest⟩ := exec_cons_eq_some.1 hrun
      have hiff := hexact e s m hs hH.1 hm
      have hnext : Q e s m → (EachEvent step Q es m ↔ Guarded step G es m) := fun hQ =>
        ih (hJ e s m hs hH.1 hQ hm) (hH.2 m hm) hrest
      constructor
      · intro h
        have hQ := (h m hm).1
        refine ⟨hiff.1 hQ, fun m' hm' => ?_⟩
        obtain rfl : m = m' := Option.some.inj (hm.symm.trans hm')
        exact (hnext hQ).1 (h m hm).2
      · intro h m' hm'
        obtain rfl : m = m' := Option.some.inj (hm.symm.trans hm')
        have hQ := hiff.2 h.1
        exact ⟨hQ, (hnext hQ).2 (h.2 m hm)⟩

end SalesTrades.Library.Run
