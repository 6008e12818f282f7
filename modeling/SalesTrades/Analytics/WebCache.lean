import Mathlib.Tactic.NormNum
import SalesTrades.Library.TtlCache

/-!
# The cache of the website panel

`get_website_analytics` keeps the reports of Google Analytics for two minutes, one for each number of days,
to stay inside the quota. The lock is held for the lookup and for the store, not while Google is asked. So a
panel never shows a report that was asked for two minutes or more before the request came in, but Google is
asked twice within two minutes for one number of days when a request comes in while the last report of it
has not come, has failed, or has been overwritten by one that was asked for before it
(`reports_spaced_iff`).
-/

set_option autoImplicit false

namespace SalesTrades.Analytics.WebCache

open SalesTrades.Library.Run SalesTrades.Library.Interleaving SalesTrades.Library.TtlCache

universe u v

/-- The settings that the panel reads. -/
structure GaSettings where
  gaPropertyId : String
  gaServiceAccountJson : String

/-- `is_configured`. -/
def isConfigured (settings : GaSettings) : Bool :=
  settings.gaPropertyId ≠ "" && settings.gaServiceAccountJson ≠ ""

/-- `_CACHE_TTL_S`. -/
def cacheTtl : ℚ := 120

theorem cacheTtl_pos : 0 < cacheTtl := by
  norm_num [cacheTtl]

/-- Why there is no report: Google Analytics is not set up, or the exception that `_run_blocking` raised. -/
inductive PanelError where
  | notConfigured
  | raised (text : String)

/-- `WebsiteAnalyticsResponse`, with the report that `_run_blocking` has made. -/
inductive PanelResponse (R : Type v) where
  | notConfigured (days : ℕ)
  | failed (days : ℕ) (error : String)
  | report (report : R)

variable {ι : Type u} [DecidableEq ι] {R : Type v}

/-- What a request gets where Google Analytics is not set up. -/
def notConfigured (input : Input ℕ PanelError R) : Request ℕ PanelError R → Option (Request ℕ PanelError R)
  | .idle =>
      match input with
      | .arrive days _ => some (.failed days .notConfigured)
      | .finish _ => none
  | .fetching _ _ | .answered _ _ _ _ | .failed _ _ => none

/-- A statement of `get_website_analytics`. -/
def panelStep (settings : GaSettings) (input : Input ℕ PanelError R) (w : World ℕ R)
    (request : Request ℕ PanelError R) : Option (World ℕ R × Request ℕ PanelError R) :=
  if isConfigured settings then step cacheTtl input w request
  else (notConfigured input request).map fun request => (w, request)

/-- What a request returns. -/
def response : Request ℕ PanelError R → Option (PanelResponse R)
  | .idle | .fetching _ _ => none
  | .answered _ _ _ report => some (.report report)
  | .failed days .notConfigured => some (.notConfigured days)
  | .failed days (.raised text) => some (.failed days (String.ofList (text.toList.take 300)))

/-- The panel before its first request. -/
def unasked (ι : Type u) (R : Type v) (clock : ℚ) : Config ι (World ℕ R) (Request ℕ PanelError R) :=
  ⟨⟨clock, fun _ => none, [], []⟩, fun _ => .idle⟩

/-- A report that is shown was asked for, for the same number of days, less than two minutes before the
request came in. -/
def ShowsYoung (c : Config ι (World ℕ R) (Request ℕ PanelError R)) : Prop :=
  ∀ i days arrival start report, c.proc i = .answered days arrival start report →
    (days, start) ∈ c.shared.fetches ∧ (days, start, report) ∈ c.shared.values ∧ arrival - start < cacheTtl

omit [DecidableEq ι] in
theorem sound_unasked (clock : ℚ) : Sound cacheTtl (unasked ι R clock) where
  started f hf := absurd hf List.not_mem_nil
  cached key start value h := absurd h (Option.some_ne_none _).symm
  fetched v hv := absurd hv List.not_mem_nil
  fetching i key start h := by cases h
  answers i key arrival start value h := by cases h

/-- Nothing is asked where Google Analytics is not set up. -/
structure Unasked (c : Config ι (World ℕ R) (Request ℕ PanelError R)) : Prop where
  fetches : c.shared.fetches = []
  answers : ∀ i days arrival start report, c.proc i ≠ .answered days arrival start report

theorem unasked_fire {settings : GaSettings} (hoff : isConfigured settings = false)
    {e : ι × Input ℕ PanelError R} {c c' : Config ι (World ℕ R) (Request ℕ PanelError R)} (h : Unasked c)
    (hfire : fire (panelStep settings) e c = some c') : Unasked c' := by
  obtain ⟨w', request', hstep, rfl⟩ := fire_eq_some.1 hfire
  rw [panelStep, hoff, if_neg Bool.false_ne_true] at hstep
  obtain ⟨request, hrequest, heq⟩ := Option.map_eq_some_iff.1 hstep
  cases heq
  refine ⟨h.fetches, fun i days arrival start report hi => ?_⟩
  rcases proc_cases hi with ⟨-, rfl⟩ | hi
  · unfold notConfigured at hrequest
    split at hrequest
    · split at hrequest
      · cases hrequest
      · cases hrequest
    all_goals cases hrequest
  · exact h.answers i days arrival start report hi

/-- **The panel.** In every run of overlapping requests: a report that is shown is of the days that were
asked for, and was asked for less than two minutes before; and Google is asked for a number of days at least
two minutes apart exactly when no request comes in within two minutes of a question whose report is not the
one in the cache. -/
theorem reports_spaced_iff {settings : GaSettings} {clock : ℚ} {es : List (ι × Input ℕ PanelError R)}
    {c : Config ι (World ℕ R) (Request ℕ PanelError R)}
    (hrun : exec (fire (panelStep settings)) es (unasked ι R clock) = some c) :
    ShowsYoung c ∧ (Always (fire (panelStep settings)) (Spaced cacheTtl) es (unasked ι R clock) ↔
      Guarded (fire (panelStep settings)) (FindsYounger cacheTtl) es (unasked ι R clock)) := by
  cases hon : isConfigured settings with
  | true =>
      have hstep : (panelStep settings : Input ℕ PanelError R → _) = step cacheTtl := by
        funext input w request
        rw [panelStep, hon, if_pos rfl]
      rw [hstep] at hrun ⊢
      obtain ⟨hsound, hiff⟩ := spaced_iff cacheTtl_pos (sound_unasked clock) List.Pairwise.nil hrun
      refine ⟨fun i days arrival start report hi => ?_, hiff⟩
      obtain ⟨hvalue, hyoung⟩ := hsound.answers i days arrival start report hi
      exact ⟨hsound.fetched _ hvalue, hvalue, hyoung⟩
  | false =>
      have hstart : Unasked (unasked ι R clock) := ⟨rfl, fun i days arrival start report h => by cases h⟩
      have hinvariant := fun e s t h hfire => @unasked_fire ι _ R settings hon e s t h hfire
      have hall : Always (fire (panelStep settings)) Unasked es (unasked ι R clock) :=
        always_of_invariant hinvariant hstart
      constructor
      · intro i days arrival start report hi
        exact absurd hi ((hall.last hrun).answers i days arrival start report)
      · refine iff_of_true (hall.mono fun s hs => ?_) ?_
        · rw [Spaced, hs.fetches]
          exact List.Pairwise.nil
        · refine guarded_of_always (fun e s t _ hs _ key now _ start hmem => ?_) hrun hall
          rw [hs.fetches] at hmem
          cases hmem

/-- A second request while Google is asked. -/
def impatient : List (Bool × Input ℕ PanelError String) :=
  [(true, .arrive 28 0), (false, .arrive 28 5), (true, .finish (.ok "report")), (false, .finish (.ok "report"))]

/-- It asks again. -/
theorem asked_twice : ¬ Always (fire (panelStep ⟨"123", "key"⟩)) (Spaced cacheTtl) impatient
    (unasked Bool String 0) := by
  have hrun : ∃ c, exec (fire (panelStep ⟨"123", "key"⟩)) impatient (unasked Bool String 0) = some c := by
    refine ⟨_, rfl⟩
  obtain ⟨c, hc⟩ := hrun
  rw [(reports_spaced_iff hc).2]
  intro hguard
  have hfinds := hguard.2 _ rfl |>.1
  obtain ⟨report, hreport⟩ := hfinds 28 5 rfl 0 List.mem_cons_self (by norm_num [cacheTtl])
  cases hreport

end SalesTrades.Analytics.WebCache
