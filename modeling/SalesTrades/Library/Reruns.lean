/-!
# Jobs that commit along the way

A job that commits several times leaves its last commit behind when it is interrupted, and is run again
from there until it completes. An interruption is clean when the next run ends where this one would have
ended. Where every other interruption loses something that no later run brings back, the reruns end like
one uninterrupted run exactly when each interruption is clean (`Reruns.like_uninterrupted_iff`).
-/

set_option autoImplicit false

namespace SalesTrades.Library

universe u v

/-- What a job commits when it is started in a state, each commit with a label, and the state in which it
completes, `none` where it raises. -/
structure Job (σ : Type u) (ℓ : Type v) where
  commits : σ → List (ℓ × σ)
  completes : σ → Option σ

namespace Job

variable {σ : Type u} {ℓ : Type v} {job : Job σ ℓ}

/-- What an interrupted run leaves behind: before its first commit the state is as it was, afterwards it
is that of the last commit, whose label is recorded. -/
inductive Leaves (job : Job σ ℓ) (s : σ) : Option ℓ → σ → Prop
  | start : Leaves job s none s
  | commit {label : ℓ} {m : σ} : (label, m) ∈ job.commits s → Leaves job s (some label) m

/-- Runs that are interrupted one after another, then one that completes. -/
inductive Reruns (job : Job σ ℓ) : List (Option ℓ) → σ → σ → Prop
  | completed {s t : σ} : job.completes s = some t → Reruns job [] s t
  | interrupted {cut : Option ℓ} {cuts : List (Option ℓ)} {s m t : σ} :
      Leaves job s cut m → Reruns job cuts m t → Reruns job (cut :: cuts) s t

variable {cuts : List (Option ℓ)} {s t : σ}

/-- What every run keeps, interrupted or not, holds when the last one completes. -/
theorem Reruns.invariant {P : σ → Prop} (hleaves : ∀ {s cut m}, P s → job.Leaves s cut m → P m)
    (hcompletes : ∀ {s t}, P s → job.completes s = some t → P t) (h : job.Reruns cuts s t) (hs : P s) :
    P t := by
  induction h with
  | completed hdone => exact hcompletes hs hdone
  | interrupted hcut _ ih => exact ih (hleaves hs hcut)

/-- The last run is one that completes. -/
theorem Reruns.last (h : job.Reruns cuts s t) : ∃ m, job.completes m = some t := by
  induction h with
  | completed hdone => exact ⟨_, hdone⟩
  | interrupted _ _ ih => exact ih

variable {Inv Lost : σ → Prop} {Clean : Option ℓ → Prop}

/-- After clean interruptions only, the end is that of an uninterrupted run. -/
theorem Reruns.completes_of_clean
    (hclean : ∀ {s cut m}, Inv s → job.Leaves s cut m → Clean cut →
      Inv m ∧ job.completes m = job.completes s)
    (h : job.Reruns cuts s t) (hs : Inv s) (hcuts : ∀ cut ∈ cuts, Clean cut) :
    job.completes s = some t := by
  induction h with
  | completed hdone => exact hdone
  | interrupted hcut _ ih =>
      obtain ⟨hcut', hrest⟩ := List.forall_mem_cons.1 hcuts
      obtain ⟨hm, hsame⟩ := hclean hs hcut hcut'
      rw [← hsame]
      exact ih hm hrest

/-- Where the end has lost nothing, every interruption was clean. -/
theorem Reruns.clean_of_not_lost
    (hclean : ∀ {s cut m}, Inv s → job.Leaves s cut m → Clean cut →
      Inv m ∧ job.completes m = job.completes s)
    (hdirty : ∀ {s cut m}, Inv s → job.Leaves s cut m → ¬ Clean cut → Lost m)
    (hleaves : ∀ {s cut m}, Lost s → job.Leaves s cut m → Lost m)
    (hcompletes : ∀ {s t}, Lost s → job.completes s = some t → Lost t)
    (h : job.Reruns cuts s t) (hs : Inv s) (hlost : ¬ Lost t) : ∀ cut ∈ cuts, Clean cut := by
  induction h with
  | completed _ => exact fun _ hcut => absurd hcut List.not_mem_nil
  | @interrupted cut _ _ _ _ hcut hrest ih =>
      by_cases hc : Clean cut
      · exact List.forall_mem_cons.2 ⟨hc, ih (hclean hs hcut hc).1 hlost⟩
      · -- what this interruption loses is still lost at the end
        exact absurd (hrest.invariant hleaves hcompletes (hdirty hs hcut hc)) hlost

/-- The reruns end like an uninterrupted run, with nothing lost, exactly when every interruption is
clean. -/
theorem Reruns.like_uninterrupted_iff (Inv Lost : σ → Prop) (Clean : Option ℓ → Prop)
    (hclean : ∀ {s cut m}, Inv s → job.Leaves s cut m → Clean cut →
      Inv m ∧ job.completes m = job.completes s)
    (hdirty : ∀ {s cut m}, Inv s → job.Leaves s cut m → ¬ Clean cut → Lost m)
    (hleaves : ∀ {s cut m}, Lost s → job.Leaves s cut m → Lost m)
    (hcompletes : ∀ {s t}, Lost s → job.completes s = some t → Lost t)
    (hdone : ∀ {s t}, Inv s → job.completes s = some t → ¬ Lost t)
    (h : job.Reruns cuts s t) (hs : Inv s) :
    (job.completes s = some t ∧ ¬ Lost t) ↔ ∀ cut ∈ cuts, Clean cut := by
  constructor
  · rintro ⟨-, hlost⟩
    exact h.clean_of_not_lost hclean hdirty hleaves hcompletes hs hlost
  · intro hcuts
    have hend := h.completes_of_clean hclean hs hcuts
    exact ⟨hend, hdone hs hend⟩

end Job

end SalesTrades.Library
