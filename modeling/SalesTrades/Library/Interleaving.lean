import SalesTrades.Library.Run

/-!
# Interleaved processes over a shared state

Every process runs the same program on a local state of its own and on one shared state; the index
type of the processes is arbitrary, so their number is not bounded. An event names the process that
moves and what it reads from outside. The proof rule is an Owicki-Gries outline: an assertion on the
shared state and one on each local state, re-established by the process that moves and stable under
what the others may do to the shared state.
-/

set_option autoImplicit false

namespace SalesTrades.Library.Interleaving

open SalesTrades.Library.Run

universe u v w x

variable {ι : Type u} {A : Type x} {G : Type v} {L : Type w}

/-- A shared state and the local state of every process. -/
structure Config (ι : Type u) (G : Type v) (L : Type w) where
  shared : G
  proc : ι → L

variable [DecidableEq ι] (prog : A → G → L → Option (G × L))

/-- Process `e.1` moves, reading `e.2`; every other local state is left alone. -/
def fire (e : ι × A) (c : Config ι G L) : Option (Config ι G L) :=
  (prog e.2 c.shared (c.proc e.1)).map fun r => ⟨r.1, Function.update c.proc e.1 r.2⟩

variable {prog}

theorem fire_eq_some {e : ι × A} {c c' : Config ι G L} :
    fire prog e c = some c' ↔ ∃ g l, prog e.2 c.shared (c.proc e.1) = some (g, l) ∧
      c' = ⟨g, Function.update c.proc e.1 l⟩ := by
  simp only [fire, Option.map_eq_some_iff, Prod.exists]
  exact exists₂_congr fun g l => and_congr_right fun _ => eq_comm

theorem fire_of_step {i : ι} {a : A} {c : Config ι G L} {g : G} {l : L}
    (h : prog a c.shared (c.proc i) = some (g, l)) :
    fire prog (i, a) c = some ⟨g, Function.update c.proc i l⟩ :=
  fire_eq_some.2 ⟨g, l, h, rfl⟩

/-- An assertion on the shared state, and one on the local state of each process. -/
structure Outline (ι : Type u) (G : Type v) (L : Type w) where
  shared : G → Prop
  proc : ι → L → G → Prop

/-- Every assertion of the outline holds. -/
def Outline.Holds (o : Outline ι G L) (c : Config ι G L) : Prop :=
  o.shared c.shared ∧ ∀ i, o.proc i (c.proc i) c.shared

/-- **Non-interference rule.** The process that moves re-establishes the shared assertion and its
own, changes the shared state within `R`, and `R` keeps the assertion of every other process. -/
theorem Outline.holds_fire {o : Outline ι G L} {R : ι → G → G → Prop} {e : ι × A}
    {c c' : Config ι G L}
    (own : ∀ g l, prog e.2 c.shared (c.proc e.1) = some (g, l) →
      o.shared g ∧ o.proc e.1 l g ∧ R e.1 c.shared g)
    (stable : ∀ j, j ≠ e.1 → ∀ g, R e.1 c.shared g →
      o.proc j (c.proc j) c.shared → o.proc j (c.proc j) g)
    (hc : o.Holds c) (hfire : fire prog e c = some c') : o.Holds c' := by
  obtain ⟨g, l, hstep, rfl⟩ := fire_eq_some.1 hfire
  obtain ⟨hg, hl, hR⟩ := own g l hstep
  refine ⟨hg, fun j => ?_⟩
  -- the process that moved, and one that did not
  by_cases hj : j = e.1
  · subst hj
    simpa using hl
  · simpa [Function.update_of_ne hj] using stable j hj g hR (hc.2 j)

/-- What a process has in hand, no other process has in hand. -/
def Exclusive {κ : Type*} (inHand : L → List κ) (c : Config ι G L) : Prop :=
  ∀ i j k, k ∈ inHand (c.proc i) → k ∈ inHand (c.proc j) → i = j

/-- **Exclusion rule.** A process that takes up only what no other process has in hand keeps
everything in one hand. -/
theorem Exclusive.fire {κ : Type*} {inHand : L → List κ} {c : Config ι G L}
    (hc : Exclusive inHand c) (i : ι) {l : L} (g : G)
    (htakes : ∀ k ∈ inHand l, k ∈ inHand (c.proc i) ∨ ∀ j, j ≠ i → k ∉ inHand (c.proc j)) :
    Exclusive inHand ⟨g, Function.update c.proc i l⟩ := by
  have hother : ∀ j k, j ≠ i → k ∈ inHand (c.proc j) → k ∉ inHand l := by
    intro j k hj hk hl
    rcases htakes k hl with hold | hfree
    · exact hj (hc j i k hk hold)
    · exact hfree j hj hk
  intro j m k hj hm
  dsimp only at hj hm
  by_cases hji : j = i
  · subst hji
    rw [Function.update_self] at hj
    by_cases hmi : m = j
    · exact hmi.symm
    · rw [Function.update_of_ne hmi] at hm
      exact absurd hj (hother m k hmi hm)
  · rw [Function.update_of_ne hji] at hj
    by_cases hmi : m = i
    · subst hmi
      rw [Function.update_self] at hm
      exact absurd hm (hother j k hji hj)
    · rw [Function.update_of_ne hmi] at hm
      exact hc j m k hj hm

/-- **Step bound.** When every step of the program lowers a rank of the local state, a run has no
more steps of a process than its rank at the start, whatever the other processes do. -/
theorem count_le_rank (rank : L → Nat)
    (hrank : ∀ a g l g' l', prog a g l = some (g', l') → rank l' < rank l) (i : ι)
    {es : List (ι × A)} {c c' : Config ι G L} (hrun : exec (fire prog) es c = some c') :
    (es.countP fun e => e.1 = i) + rank (c'.proc i) ≤ rank (c.proc i) := by
  induction es generalizing c with
  | nil =>
      simp only [exec, Option.some.injEq] at hrun
      simp [hrun]
  | cons e es ih =>
      obtain ⟨m, hm, hrest⟩ := exec_cons_eq_some.1 hrun
      -- a step of `i` is paid for by its rank, a step of another process leaves the rank alone
      have hes := ih hrest
      obtain ⟨g, l, hstep, rfl⟩ := fire_eq_some.1 hm
      rw [List.countP_cons]
      by_cases hi : i = e.1
      · subst hi
        have hlt := hrank _ _ _ _ _ hstep
        simp only [Function.update_self, decide_true, if_true] at hes ⊢
        omega
      · simpa [Function.update_of_ne hi, Ne.symm hi] using hes

/-- **Silent processes.** Processes whose steps leave the shared state alone can be taken out of a run:
the shared state and the other processes end where they end without them, and these may run another
program that does the same from every state of the run. -/
theorem exec_without (prog' : A → G → L → Option (G × L)) (silent : ι → Prop) [DecidablePred silent]
    {I : Config ι G L → Prop} (hI : ∀ e c c', I c → fire prog e c = some c' → I c')
    (hsilent : ∀ (e : ι × A) (c : Config ι G L) g l, I c → silent e.1 →
      prog e.2 c.shared (c.proc e.1) = some (g, l) → g = c.shared)
    (hother : ∀ (e : ι × A) (c : Config ι G L), I c → ¬ silent e.1 →
      prog e.2 c.shared (c.proc e.1) = prog' e.2 c.shared (c.proc e.1))
    {es : List (ι × A)} {c c' d : Config ι G L} (hc : I c) (hshared : d.shared = c.shared)
    (hproc : ∀ i, ¬ silent i → d.proc i = c.proc i) (hrun : exec (fire prog) es c = some c') :
    ∃ d', exec (fire prog') (es.filter fun e => ¬ silent e.1) d = some d' ∧
      d'.shared = c'.shared ∧ ∀ i, ¬ silent i → d'.proc i = c'.proc i := by
  induction es generalizing c d with
  | nil =>
      obtain rfl : c = c' := Option.some.inj hrun
      exact ⟨d, rfl, hshared, hproc⟩
  | cons e es ih =>
      obtain ⟨m, hm, hrest⟩ := exec_cons_eq_some.1 hrun
      have hIm := hI e c m hc hm
      obtain ⟨g, l, hstep, rfl⟩ := fire_eq_some.1 hm
      by_cases he : silent e.1
      · -- the shorter run stays where it is
        have hg : g = c.shared := hsilent e c g l hc he hstep
        rw [List.filter_cons_of_neg (by simpa using he)]
        refine ih hIm (hshared.trans hg.symm) (fun i hi => ?_) hrest
        have hne : i ≠ e.1 := fun h => hi (h ▸ he)
        simpa [Function.update_of_ne hne] using hproc i hi
      · have hstep' : prog' e.2 d.shared (d.proc e.1) = some (g, l) := by
          rw [hshared, hproc e.1 he, ← hother e c hc he]
          exact hstep
        have hproc' : ∀ i, ¬ silent i →
            Function.update d.proc e.1 l i = Function.update c.proc e.1 l i := by
          intro i hi
          by_cases hie : i = e.1
          · subst hie
            simp
          · simpa [Function.update_of_ne hie] using hproc i hi
        obtain ⟨d', hd', hend⟩ := ih (d := ⟨g, Function.update d.proc e.1 l⟩) hIm rfl hproc' hrest
        refine ⟨d', ?_, hend⟩
        rw [List.filter_cons_of_pos (by simpa using he)]
        exact exec_cons_eq_some.2 ⟨_, fire_of_step hstep', hd'⟩

/-- At most `n` steps of a process that runs alone. -/
def solo (step : G → L → Option (G × L)) : Nat → G → L → G × L
  | 0, g, l => (g, l)
  | n + 1, g, l =>
      match step g l with
      | none => (g, l)
      | some (g', l') => solo step n g' l'

/-- What every step keeps holds after a process has run alone. -/
theorem solo_invariant {step : G → L → Option (G × L)} {I : G → L → Prop}
    (hstep : ∀ g l g' l', I g l → step g l = some (g', l') → I g' l') (n : Nat) {g : G} {l : L}
    (h : I g l) : I (solo step n g l).1 (solo step n g l).2 := by
  induction n generalizing g l with
  | zero => exact h
  | succ n ih =>
      simp only [solo]
      split
      · exact h
      · rename_i g' l' hnext
        exact ih (hstep g l g' l' h hnext)

end SalesTrades.Library.Interleaving
