import SalesTrades.Emails.Rollups
import SalesTrades.Library.Run

/-!
# One bad event in a batch

The docstring of `ingest_events` promises that one bad row cannot drop the batch. The exception
handler breaks the promise: it raises itself (`logFailure_raises`), so the first event that cannot
be read ends the batch. `batch_isolated_iff` is the exact condition on the batch.
-/

set_option autoImplicit false

namespace SalesTrades.Emails

open SalesTrades.Library SalesTrades.Library.Run SalesTrades.Leads

variable {lib : Lib} {campaigns : List CampaignRow}

/-- One event of a batch, whether it fails or not. -/
def ingestStep (lib : Lib) (campaigns : List CampaignRow) (x : PostedEvent × EventClock)
    (w : EmailWorld) : Option EmailWorld :=
  some (ingestOne lib campaigns x.1 x.2 w).1

/-- The event is an object, and every field the code comes to can be read, with the assets of the
campaigns that it is looked up in. -/
def ReadableEvent (lib : Lib) (campaigns : List CampaignRow) (x : PostedEvent × EventClock)
    (w : EmailWorld) : Prop :=
  ∃ members, x.1 = .obj members ∧ Readable lib campaigns w members

/-- The event is well formed and about a lead. -/
def isAttributable (lib : Lib) (campaigns : List CampaignRow) (leads : LeadTable)
    (x : PostedEvent × EventClock) : Bool :=
  match x.1 with
  | .obj members =>
      match eventKey members with
      | .ok (some key) =>
          match readEvent lib campaigns x.2.received leads members key with
          | .ok (some _) => true
          | _ => false
      | _ => false
  | _ => false

theorem isAttributable_iff {leads : LeadTable} {x : PostedEvent × EventClock} :
    isAttributable lib campaigns leads x = true ↔
      ∃ event, Becomes lib campaigns leads x.1 event := by
  constructor
  · intro h
    unfold isAttributable at h
    split at h
    · rename_i members hevt
      split at h
      · rename_i key hkey
        split at h
        · rename_i r hread
          obtain ⟨lead, event⟩ := r
          obtain ⟨hsame, -, -, -⟩ := readEvent_row hread
          subst hsame
          exact ⟨event, members, x.2.received, lead, hevt, hkey, hread⟩
        · cases h
      · cases h
    · cases h
  · rintro ⟨event, members, received, lead, hevt, hkey, hread⟩
    obtain ⟨event', hread'⟩ := readEvent_any_time x.2.received hread
    simp [isAttributable, hevt, hkey, hread']

/-- An event goes through exactly when it can be read. -/
theorem ingestOne_ok_iff {x : PostedEvent × EventClock} {w : EmailWorld} :
    (∃ processed, (ingestOne lib campaigns x.1 x.2 w).2 = .ok processed) ↔
      ReadableEvent lib campaigns x w := by
  have hattribute : (∃ r, attributeEvent lib campaigns x.2.received w x.1 = .ok r) ↔
      ReadableEvent lib campaigns x w := by
    unfold ReadableEvent
    cases hevt : x.1 with
    | obj members =>
        rw [attributeEvent_ok_iff]
        simp
    | _ => simp [attributeEvent]
  rw [← hattribute]
  rcases ingestOne_cases lib campaigns x.1 x.2 w with
    ⟨e, he, hingest⟩ | ⟨hnone, hingest⟩ | ⟨lead, event, w', hsome, hingest, -⟩
  · simp [he, hingest]
  · simp [hnone, hingest]
  · simp [hsome, hingest]

/-- A batch returns exactly when each of its events can be read in the state its predecessors leave.
-/
theorem ingestEvents_ok_iff {batch : List (PostedEvent × EventClock)} {w : EmailWorld} :
    (∃ n, (ingestEvents lib campaigns batch w).2 = .ok n) ↔
      Guarded (ingestStep lib campaigns) (ReadableEvent lib campaigns) batch w := by
  induction batch generalizing w with
  | nil => exact ⟨fun _ => trivial, fun _ => ⟨0, rfl⟩⟩
  | cons x rest ih =>
      simp only [Guarded, ingestStep, Option.some.injEq, forall_eq']
      rw [← ih, ← ingestOne_ok_iff]
      rcases hingest : ingestOne lib campaigns x.1 x.2 w with ⟨w', r⟩
      cases r with
      | error e =>
          have hraises : ∃ e', ingestEvents lib campaigns (x :: rest) w = (w', .error e') :=
            ingestEvents_cons_error hingest
          obtain ⟨e', hbatch⟩ := hraises
          simp [hbatch]
      | ok processed =>
          rw [ingestEvents_cons_ok hingest]
          cases (ingestEvents lib campaigns rest w').2 with
          | error e => simp [Except.map]
          | ok n => simp [Except.map]

/-- An event that is not about a lead changes nothing. -/
theorem ingestOne_of_not_attributable {start : LeadTable} {x : PostedEvent × EventClock}
    {w : EmailWorld} (hsame : SameLeads start w.leads)
    (h : isAttributable lib campaigns start x ≠ true) :
    (ingestOne lib campaigns x.1 x.2 w).1 = w := by
  rcases ingestOne_cases lib campaigns x.1 x.2 w with
    ⟨e, -, hingest⟩ | ⟨-, hingest⟩ | ⟨lead, event, w', hsome, -, -⟩
  · rw [hingest]
  · rw [hingest]
  · obtain ⟨hbecomes, -⟩ := becomes_of_attributeEvent hsame hsome
    exact absurd (isAttributable_iff.2 ⟨event, hbecomes⟩) h

/-- A batch that returns leaves the tables its attributable events alone would leave. -/
theorem ingestEvents_filter {start : LeadTable} {batch : List (PostedEvent × EventClock)}
    {w : EmailWorld} (hsame : SameLeads start w.leads)
    (hguard : Guarded (ingestStep lib campaigns) (ReadableEvent lib campaigns) batch w) :
    (ingestEvents lib campaigns batch w).1 =
      (ingestEvents lib campaigns (batch.filter (isAttributable lib campaigns start)) w).1 := by
  induction batch generalizing w with
  | nil => rfl
  | cons x rest ih =>
      obtain ⟨hread, hrest⟩ := hguard
      obtain ⟨processed, hprocessed⟩ := ingestOne_ok_iff.2 hread
      have hnext : SameLeads start (ingestOne lib campaigns x.1 x.2 w).1.leads :=
        ingestOne_sameLeads x.1 x.2 hsame
      have htail := ih hnext (hrest _ rfl)
      have hingest : ingestOne lib campaigns x.1 x.2 w =
          ((ingestOne lib campaigns x.1 x.2 w).1, .ok processed) := by rw [← hprocessed]
      rw [ingestEvents_cons_ok hingest]
      by_cases hx : isAttributable lib campaigns start x = true
      · rw [List.filter_cons_of_pos hx, ingestEvents_cons_ok hingest]
        exact htail
      · rw [List.filter_cons_of_neg hx]
        rw [ingestOne_of_not_attributable hsame hx] at htail
        rw [ingestOne_of_not_attributable hsame hx]
        exact htail

/-- **When one bad event does not sink the batch.** The batch returns, with the tables its
attributable events alone would leave, exactly when no event comes up that cannot be read. -/
theorem batch_isolated_iff (lib : Lib) (campaigns : List CampaignRow)
    (batch : List (PostedEvent × EventClock)) (w : EmailWorld) :
    ((∃ n, (ingestEvents lib campaigns batch w).2 = .ok n) ∧
      (ingestEvents lib campaigns batch w).1 =
        (ingestEvents lib campaigns (batch.filter (isAttributable lib campaigns w.leads)) w).1) ↔
      Guarded (ingestStep lib campaigns) (ReadableEvent lib campaigns) batch w := by
  constructor
  · rintro ⟨hok, -⟩
    exact ingestEvents_ok_iff.1 hok
  · intro hguard
    exact ⟨ingestEvents_ok_iff.2 hguard, ingestEvents_filter (SameLeads.refl w.leads) hguard⟩

/-- A click comes up where a campaign has null for its assets; the handler of that error raises. -/
example : (ingestEvents plainLib [⟨1, .obj [("materials_assets", .null)]⟩]
    [(adaEvent "click" "e1" (.num 60) [("url", .str "https://x.ng/pack.pdf")], midnight)]
      oneLead).2 = .error .typeError := rfl

/-- Ada's first event has a text for a time stamp. -/
def badTimestamp : List (PostedEvent × EventClock) :=
  [(adaEvent "open" "e1" (.str "soon") [], midnight), (adaEvent "open" "e2" (.num 60) [], midnight)]

/-- The second event is lost with it: the handler raises. -/
theorem bad_timestamp_sinks_batch :
    ¬ ((∃ n, (ingestEvents plainLib [] badTimestamp oneLead).2 = .ok n) ∧
      (ingestEvents plainLib [] badTimestamp oneLead).1 =
        (ingestEvents plainLib [] (badTimestamp.filter (isAttributable plainLib [] oneLead.leads))
          oneLead).1) ∧
    (ingestEvents plainLib [] badTimestamp oneLead).2 = .error .typeError ∧
    (ingestEvents plainLib [] badTimestamp oneLead).1.events.rows = [] ∧
    ((ingestEvents plainLib [] (badTimestamp.filter (isAttributable plainLib [] oneLead.leads))
      oneLead).1.events.rows.map fun row => row.2.sgEventId) = ["e2"] := by
  have hraised : (ingestEvents plainLib [] badTimestamp oneLead).2 = .error .typeError := rfl
  refine ⟨?_, hraised, rfl, by decide +kernel⟩
  rintro ⟨⟨n, hn⟩, -⟩
  rw [hraised] at hn
  cases hn

end SalesTrades.Emails
