import Mathlib.Tactic.Common
import SalesTrades.Library.DirtyWrite
import SalesTrades.Library.Interleaving

/-!
# The triage of leads

Sales staff set the triage state of a lead, and `sync_triage_from_crm` advances untriaged leads that the
CRM shows as contacted. The sync loads its leads once, asks the CRM about each, and writes without
looking at the row again. So it leaves the decisions of the staff alone exactly when it writes no lead
on which they have decided since the listing, and none that they had set to new before it, which the
listing takes for untriaged (`decisions_kept_iff`).
-/

set_option autoImplicit false

namespace SalesTrades.Leads

open SalesTrades.Library SalesTrades.Library.Run SalesTrades.Library.Interleaving

universe u

/-! ## The triage columns -/

inductive TriageStatus where
  | new
  | contacted
  | dismissed
  | snoozed
  deriving DecidableEq

/-- The columns of `leads` that the triage reads and writes. -/
structure TriageRow where
  crmContactId : Option String
  triageStatus : TriageStatus := .new
  triageAt : Option Int := none
  triageBy : Option String := none
  deriving DecidableEq

/-- `SYSTEM_TRIAGE_BY`. -/
def systemTriageBy : String := "freshsales-sync"

/-- The address of a user, which is not the name of the job. -/
abbrev StaffEmail : Type := { email : String // email ≠ systemTriageBy }

/-- `leads` by id, in the order of `created_at`, and the decisions of the staff, oldest first. -/
structure TriageWorld where
  rows : List (Nat × TriageRow)
  decisions : List (Nat × TriageStatus)

namespace TriageWorld

/-- The leads on which the staff has decided. -/
def triaged (w : TriageWorld) : List Nat := w.decisions.map Prod.fst

def get? (w : TriageWorld) (id : Nat) : Option (Nat × TriageRow) := w.rows.find? fun q => q.1 = id

/-- `list_untriaged_with_crm_contact`. -/
def listUntriaged (w : TriageWorld) (limit : Nat) : List (Nat × TriageRow) :=
  (w.rows.filter fun q => q.2.triageStatus = .new && q.2.crmContactId.isSome).take limit

/-- `set_triage`: the UPDATE has the columns whose new value is not the loaded one. -/
def setTriage (w : TriageWorld) (loaded : Nat × TriageRow) (status : TriageStatus) (now : Int)
    (user : Option String) : List (Nat × TriageRow) :=
  w.rows.map fun q =>
    if q.1 = loaded.1 then
      (q.1, { q.2 with
        triageStatus := dirtyWrite loaded.2.triageStatus status q.2.triageStatus
        triageAt := dirtyWrite loaded.2.triageAt (some now) q.2.triageAt
        triageBy := dirtyWrite loaded.2.triageBy user q.2.triageBy })
    else q

end TriageWorld

/-! ## The processes -/

/-- What the CRM answers about a contact: whether it has a `last_contacted`, an error status, or
anything else that raises. -/
inductive ContactAnswer where
  | contact (lastContacted : Bool)
  | statusError
  | raised

/-- What a step reads from outside. -/
structure TriageTick where
  answer : ContactAnswer
  now : Int

/-- Where a request or a sync stands. -/
inductive TriagePhase where
  /-- `update_lead_triage` has not read the lead. -/
  | request (leadId : Nat) (status : TriageStatus) (user : StaffEmail)
  | loaded (lead : Nat × TriageRow) (status : TriageStatus) (user : StaffEmail)
  /-- `sync_triage_from_crm` has not listed its leads. -/
  | sync (limit : Nat)
  /-- The leads were listed after the first `listed` decisions. -/
  | fetching (listed : Nat) (leads : List (Nat × TriageRow))
  | advancing (listed : Nat) (lead : Nat × TriageRow) (leads : List (Nat × TriageRow))
  | finished
  | failed

/-- The next statement of a process. -/
def triageStep (tick : TriageTick) (w : TriageWorld) : TriagePhase → Option (TriageWorld × TriagePhase)
  | .request leadId status user =>
      match w.get? leadId with
      -- 404
      | none => some (w, .failed)
      | some lead => some (w, .loaded lead status user)
  | .loaded lead status user =>
      some (⟨w.setTriage lead status tick.now (some user.1), w.decisions ++ [(lead.1, status)]⟩,
        .finished)
  | .sync limit => some (w, .fetching w.decisions.length (w.listUntriaged limit))
  | .fetching _ [] => some (w, .finished)
  | .fetching listed (lead :: leads) =>
      match tick.answer with
      | .contact true => some (w, .advancing listed lead leads)
      | .contact false => some (w, .fetching listed leads)
      -- logged, and the sync goes on
      | .statusError => some (w, .fetching listed leads)
      | .raised => some (w, .failed)
  | .advancing listed lead leads =>
      some ({ w with rows := w.setTriage lead .contacted tick.now (some systemTriageBy) },
        .fetching listed leads)
  | .finished => none
  | .failed => none

/-! ## Decisions -/

/-- A phase of `sync_triage_from_crm`. -/
def TriagePhase.isSync : TriagePhase → Bool
  | .sync _ | .fetching _ _ | .advancing _ _ _ => true
  | .request _ _ _ | .loaded _ _ _ | .finished | .failed => false

variable {ι : Type u} [DecidableEq ι] {c c' : Config ι TriageWorld TriagePhase}
  {e : ι × TriageTick}

/-- A step of the sync leaves the rows of triaged leads as they are. -/
def KeepsDecisions (e : ι × TriageTick) (c c' : Config ι TriageWorld TriagePhase) : Prop :=
  (c.proc e.1).isSync = true →
    ∀ q ∈ c.shared.rows, q.1 ∈ c.shared.triaged → q ∈ c'.shared.rows

/-- What the staff did with a lead that a sync listed after the first `listed` decisions. -/
structure TriageWorld.Untouched (w : TriageWorld) (listed leadId : Nat) : Prop where
  /-- Nobody had set it to new before. -/
  before : (leadId, .new) ∉ w.decisions.take listed
  /-- Nobody has decided on it since. -/
  since : ∀ status, (leadId, status) ∉ w.decisions.drop listed

/-- The staff has not touched the lead that the sync is about to write. -/
def WritesUntriaged (e : ι × TriageTick) (c : Config ι TriageWorld TriagePhase) : Prop :=
  match c.proc e.1 with
  | .advancing listed lead _ => c.shared.Untouched listed lead.1
  | _ => True

/-- Before any triage: the defaults of the columns, and calls that have not begun. -/
structure TriageStart (c : Config ι TriageWorld TriagePhase) : Prop where
  rows : ∀ q ∈ c.shared.rows, q.2.triageStatus = .new ∧ q.2.triageAt = none ∧ q.2.triageBy = none
  decisions : c.shared.decisions = []
  calls : ∀ i, (∃ leadId status user, c.proc i = .request leadId status user) ∨
    ∃ limit, c.proc i = .sync limit

/-! ## What holds until a decision is overridden -/

/-- What the columns of a lead say about the decisions. -/
structure TriageRow.Consistent (decisions : List (Nat × TriageStatus)) (q : Nat × TriageRow) :
    Prop where
  /-- A lead that has been triaged by hand does not have the name of the job. -/
  mine : q.1 ∈ decisions.map Prod.fst → q.2.triageBy ≠ some systemTriageBy
  /-- One with another name has been triaged by hand. -/
  named : ∀ user, q.2.triageBy = some user → user ≠ systemTriageBy → q.1 ∈ decisions.map Prod.fst
  new : q.2.triageStatus = .new → q.2.triageBy ≠ some systemTriageBy
  /-- A lead that has been triaged is new because somebody has set it to new. -/
  renewed : q.2.triageStatus = .new → q.1 ∈ decisions.map Prod.fst → (q.1, .new) ∈ decisions

/-- The assertion on the table. -/
structure TriageWorld.Coherent (w : TriageWorld) : Prop where
  rows : ∀ q ∈ w.rows, TriageRow.Consistent w.decisions q
  status : ∀ q ∈ w.rows, ∀ r ∈ w.rows, q.1 = r.1 → q.2.triageStatus = r.2.triageStatus

/-- A lead of the table that was new after the first `listed` decisions. -/
structure Listed (w : TriageWorld) (listed : Nat) (lead : Nat × TriageRow) : Prop where
  mem : lead.1 ∈ w.rows.map Prod.fst
  new : lead.2.triageStatus = .new
  name : lead.2.triageBy ≠ some systemTriageBy
  past : listed ≤ w.decisions.length
  renewed : lead.1 ∈ (w.decisions.take listed).map Prod.fst →
    (lead.1, .new) ∈ w.decisions.take listed

/-- A lead that a request has read. -/
structure LoadedBefore (w : TriageWorld) (lead : Nat × TriageRow) : Prop where
  named : ∀ user, lead.2.triageBy = some user → user ≠ systemTriageBy → lead.1 ∈ w.triaged
  /-- A lead that was not new is new now because somebody has set it to new. -/
  renewed : lead.2.triageStatus ≠ .new →
    ∀ q ∈ w.rows, q.1 = lead.1 → q.2.triageStatus = .new → (lead.1, .new) ∈ w.decisions

/-- The assertion on a process. -/
def TriagePhase.Good (w : TriageWorld) : TriagePhase → Prop
  | .loaded lead _ _ => LoadedBefore w lead
  | .fetching listed leads => ∀ lead ∈ leads, Listed w listed lead
  | .advancing listed lead leads => Listed w listed lead ∧ ∀ lead ∈ leads, Listed w listed lead
  | .request _ _ _ | .sync _ | .finished | .failed => True

def triageOutline : Outline ι TriageWorld TriagePhase where
  shared w := w.Coherent
  proc _ phase w := phase.Good w

/-- What a step does: no lead is removed, no decision is forgotten, and a lead is new because it was
new or because somebody has set it to new. -/
structure TriageGrows (w w' : TriageWorld) : Prop where
  ids : w'.rows.map Prod.fst = w.rows.map Prod.fst
  decisions : w.decisions <+: w'.decisions
  news : ∀ q' ∈ w'.rows, q'.2.triageStatus = .new →
    (q'.1, .new) ∈ w'.decisions ∨ ∃ q ∈ w.rows, q.1 = q'.1 ∧ q.2.triageStatus = .new

theorem TriageGrows.refl (w : TriageWorld) : TriageGrows w w where
  ids := rfl
  decisions := List.prefix_rfl
  news q hq hnew := Or.inr ⟨q, hq, rfl, hnew⟩

section Outline

variable {w w' : TriageWorld} {lead : Nat × TriageRow} {leads : List (Nat × TriageRow)}
  {listed : Nat}

theorem TriageGrows.triaged (h : TriageGrows w w') {leadId : Nat} (hid : leadId ∈ w.triaged) :
    leadId ∈ w'.triaged := by
  obtain ⟨decision, hdecision, rfl⟩ := List.mem_map.1 hid
  exact List.mem_map_of_mem (h.decisions.subset hdecision)

theorem TriageGrows.listing (h : TriageGrows w w') (hlead : Listed w listed lead) :
    Listed w' listed lead := by
  obtain ⟨later, hlater⟩ := h.decisions
  have htake : w'.decisions.take listed = w.decisions.take listed := by
    rw [← hlater, List.take_append_of_le_length hlead.past]
  refine ⟨?_, hlead.new, hlead.name, Nat.le_trans hlead.past h.decisions.length_le, ?_⟩
  · rw [h.ids]
    exact hlead.mem
  · rw [htake]
    exact hlead.renewed

theorem TriageGrows.loadedBefore (h : TriageGrows w w') (hlead : LoadedBefore w lead) :
    LoadedBefore w' lead := by
  refine ⟨fun user huser hne => h.triaged (hlead.named user huser hne), ?_⟩
  intro hloaded q' hq' hid hnew
  rcases h.news q' hq' hnew with hset | ⟨q, hq, hsame, hold⟩
  · rw [← hid]
    exact hset
  · exact h.decisions.subset (hlead.renewed hloaded q hq (hsame.trans hid) hold)

/-- **Stability.** -/
theorem TriageGrows.good (h : TriageGrows w w') {phase : TriagePhase} (hgood : phase.Good w) :
    phase.Good w' := by
  cases phase with
  | request leadId status user => trivial
  | loaded lead status user => exact h.loadedBefore hgood
  | sync limit => trivial
  | fetching listed leads => exact fun lead hlead => h.listing (hgood lead hlead)
  | advancing listed lead leads =>
      exact ⟨h.listing hgood.1, fun lead hlead => h.listing (hgood.2 lead hlead)⟩
  | finished => trivial
  | failed => trivial

theorem ids_setTriage (w : TriageWorld) (loaded : Nat × TriageRow) (status : TriageStatus) (now : Int)
    (user : Option String) :
    (w.setTriage loaded status now user).map Prod.fst = w.rows.map Prod.fst := by
  rw [TriageWorld.setTriage, List.map_map]
  apply List.map_congr_left
  intro q _
  simp only [Function.comp_apply]
  split <;> rfl

/-- A row after a write is one of another lead, or the row of the lead with its columns written. -/
theorem mem_setTriage {loaded : Nat × TriageRow} {status : TriageStatus} {now : Int}
    {user : Option String} {q' : Nat × TriageRow} (h : q' ∈ w.setTriage loaded status now user) :
    (q' ∈ w.rows ∧ q'.1 ≠ loaded.1) ∨
      ∃ q ∈ w.rows, q.1 = loaded.1 ∧ q'.1 = loaded.1 ∧
        q'.2.triageStatus = dirtyWrite loaded.2.triageStatus status q.2.triageStatus ∧
        q'.2.triageBy = dirtyWrite loaded.2.triageBy user q.2.triageBy := by
  rw [TriageWorld.setTriage] at h
  obtain ⟨q, hq, rfl⟩ := List.mem_map.1 h
  split
  · rename_i hid
    exact Or.inr ⟨q, hq, hid, hid, rfl, rfl⟩
  · rename_i hid
    exact Or.inl ⟨hq, hid⟩

theorem mem_setTriage_of_ne {loaded : Nat × TriageRow} {status : TriageStatus} {now : Int}
    {user : Option String} {q : Nat × TriageRow} (hq : q ∈ w.rows) (hid : q.1 ≠ loaded.1) :
    q ∈ w.setTriage loaded status now user := by
  rw [TriageWorld.setTriage, List.mem_map]
  exact ⟨q, hq, if_neg hid⟩

/-- Rows of one lead keep one status. -/
theorem status_setTriage
    (hw : ∀ q ∈ w.rows, ∀ r ∈ w.rows, q.1 = r.1 → q.2.triageStatus = r.2.triageStatus)
    (loaded : Nat × TriageRow) (status : TriageStatus) (now : Int) (user : Option String) :
    ∀ q' ∈ w.setTriage loaded status now user, ∀ r' ∈ w.setTriage loaded status now user,
      q'.1 = r'.1 → q'.2.triageStatus = r'.2.triageStatus := by
  intro q' hq' r' hr' hsame
  rcases mem_setTriage hq' with ⟨hq, hqid⟩ | ⟨q, hq, hqloaded, hqid, hqstatus, -⟩
  · rcases mem_setTriage hr' with ⟨hr, -⟩ | ⟨_, -, -, hrid, -⟩
    · exact hw q' hq r' hr hsame
    · exact absurd (hsame.trans hrid) hqid
  · rcases mem_setTriage hr' with ⟨-, hrid⟩ | ⟨r, hr, hrloaded, -, hrstatus, -⟩
    · exact absurd (hsame.symm.trans hqid) hrid
    · rw [hqstatus, hrstatus, hw q hq r hr (hqloaded.trans hrloaded.symm)]

/-- The write of the sync sets the status and the name. -/
theorem advance_columns (hlead : Listed w listed lead) {now : Int} {q' : Nat × TriageRow}
    (h : q' ∈ w.setTriage lead .contacted now (some systemTriageBy)) (hid : q'.1 = lead.1) :
    q'.2.triageStatus = .contacted ∧ q'.2.triageBy = some systemTriageBy := by
  rcases mem_setTriage h with ⟨-, hother⟩ | ⟨q, -, -, -, hstatus, hby⟩
  · exact absurd hid hother
  · rw [hlead.new, dirtyWrite, if_neg (by decide)] at hstatus
    rw [dirtyWrite, if_neg (Ne.symm hlead.name)] at hby
    exact ⟨hstatus, hby⟩

/-- A lead that a request leaves new has been set to new. -/
theorem renewed_request (hlead : LoadedBefore w lead) {status : TriageStatus} {q : Nat × TriageRow}
    (hq : q ∈ w.rows) (hid : q.1 = lead.1)
    (hnew : dirtyWrite lead.2.triageStatus status q.2.triageStatus = .new) :
    (lead.1, .new) ∈ w.decisions ++ [(lead.1, status)] := by
  by_cases hstatus : status = .new
  · rw [hstatus]
    exact List.mem_append_right _ List.mem_cons_self
  · rw [dirtyWrite] at hnew
    split at hnew
    · rename_i hloaded
      -- the status is not written: somebody has renewed the lead since it was loaded
      rw [hloaded] at hstatus
      exact List.mem_append_left _ (hlead.renewed hstatus q hq hid hnew)
    · exact absurd hnew hstatus

/-- A request leaves the table consistent. -/
theorem consistent_request (hw : ∀ q ∈ w.rows, TriageRow.Consistent w.decisions q)
    (hlead : LoadedBefore w lead) (status : TriageStatus) (now : Int) (user : StaffEmail) :
    ∀ q ∈ w.setTriage lead status now (some user.1),
      TriageRow.Consistent (w.decisions ++ [(lead.1, status)]) q := by
  intro q' hq'
  rcases mem_setTriage hq' with ⟨hq', hid⟩ | ⟨q, hq, hsame, hid, hstatus, hby⟩
  · obtain ⟨hmine, hnamed, hnew, hrenewed⟩ := hw q' hq'
    have hold : q'.1 ∈ (w.decisions ++ [(lead.1, status)]).map Prod.fst →
        q'.1 ∈ w.decisions.map Prod.fst := by
      intro h
      rw [List.map_append] at h
      exact (List.mem_append.1 h).resolve_right fun hlast => hid (List.mem_singleton.1 hlast)
    refine ⟨fun h => hmine (hold h), fun u hu hne => ?_, hnew, fun h hmem => ?_⟩
    · rw [List.map_append]
      exact List.mem_append_left _ (hnamed u hu hne)
    · exact List.mem_append_left _ (hrenewed h (hold hmem))
  · have hname : q'.2.triageBy ≠ some systemTriageBy := by
      rw [hby, dirtyWrite]
      split
      · rename_i hloaded
        -- the name is not written: the lead had it when it was loaded
        have htriaged := hlead.named user.1 hloaded.symm user.2
        rw [← hsame] at htriaged
        exact (hw q hq).mine htriaged
      · exact fun h => user.2 (Option.some.inj h)
    refine ⟨fun _ => hname, fun _ _ _ => ?_, fun _ => hname, fun hnew _ => ?_⟩
    · rw [List.map_append, hid]
      exact List.mem_append_right _ List.mem_cons_self
    · rw [hid]
      exact renewed_request hlead hq hsame (hstatus.symm.trans hnew)

/-- A write of the sync does, where the lead has not been triaged by hand. -/
theorem consistent_advance (hw : ∀ q ∈ w.rows, TriageRow.Consistent w.decisions q)
    (hlead : Listed w listed lead) (huntriaged : lead.1 ∉ w.triaged) (now : Int) :
    ∀ q ∈ w.setTriage lead .contacted now (some systemTriageBy),
      TriageRow.Consistent w.decisions q := by
  intro q' hq'
  by_cases hid : q'.1 = lead.1
  · obtain ⟨hstatus, hby⟩ := advance_columns hlead hq' hid
    have hnotNew : q'.2.triageStatus ≠ .new := by
      rw [hstatus]
      decide
    refine ⟨fun h => absurd (hid ▸ h) huntriaged, fun u hu hne => ?_, fun h => absurd h hnotNew,
      fun h => absurd h hnotNew⟩
    rw [hby] at hu
    exact absurd (Option.some.inj hu).symm hne
  · rcases mem_setTriage hq' with ⟨hold, -⟩ | ⟨_, -, -, hsame, -⟩
    · exact hw q' hold
    · exact absurd hsame hid

theorem grows_request (hlead : LoadedBefore w lead) (status : TriageStatus) (now : Int)
    (user : Option String) :
    TriageGrows w ⟨w.setTriage lead status now user, w.decisions ++ [(lead.1, status)]⟩ := by
  refine ⟨ids_setTriage w _ _ _ _, List.prefix_append _ _, fun q' hq' hnew => ?_⟩
  rcases mem_setTriage hq' with ⟨hq, -⟩ | ⟨q, hq, hsame, hid, hstatus, -⟩
  · exact Or.inr ⟨q', hq, rfl, hnew⟩
  · left
    rw [hid]
    exact renewed_request hlead hq hsame (hstatus.symm.trans hnew)

theorem grows_advance (hlead : Listed w listed lead) (now : Int) :
    TriageGrows w
      { w with rows := w.setTriage lead .contacted now (some systemTriageBy) } := by
  refine ⟨ids_setTriage w _ _ _ _, List.prefix_rfl, fun q' hq' hnew => ?_⟩
  by_cases hid : q'.1 = lead.1
  · rw [(advance_columns hlead hq' hid).1] at hnew
    cases hnew
  · rcases mem_setTriage hq' with ⟨hq, -⟩ | ⟨_, -, -, hsame, -⟩
    · exact Or.inr ⟨q', hq, rfl, hnew⟩
    · exact absurd hsame hid

theorem listed_of_listUntriaged (hw : ∀ q ∈ w.rows, TriageRow.Consistent w.decisions q)
    (limit : Nat) : ∀ lead ∈ w.listUntriaged limit, Listed w w.decisions.length lead := by
  intro lead hlead
  obtain ⟨hmem, huntriaged⟩ := List.mem_filter.1 (List.mem_of_mem_take hlead)
  rw [Bool.and_eq_true, decide_eq_true_eq] at huntriaged
  have hrow := hw lead hmem
  refine ⟨List.mem_map_of_mem hmem, huntriaged.1, hrow.new huntriaged.1, Nat.le_refl _, ?_⟩
  rw [List.take_length]
  exact hrow.renewed huntriaged.1

theorem loadedBefore_of_get? (hw : w.Coherent) {leadId : Nat} (hlead : w.get? leadId = some lead) :
    LoadedBefore w lead := by
  have hmem := List.mem_of_find?_eq_some hlead
  refine ⟨(hw.rows lead hmem).named, fun hloaded q hq hid hnew => ?_⟩
  rw [hw.status q hq lead hmem hid] at hnew
  exact absurd hnew hloaded

/-- Among the leads of a listing, the untouched are those on which the staff has never decided. -/
theorem Listed.untouched_iff (hlead : Listed w listed lead) :
    w.Untouched listed lead.1 ↔ lead.1 ∉ w.triaged := by
  constructor
  · intro huntouched htriaged
    obtain ⟨decision, hdecision, hid⟩ := List.mem_map.1 htriaged
    rw [← List.take_append_drop listed w.decisions] at hdecision
    rcases List.mem_append.1 hdecision with hbefore | hsince
    · exact huntouched.before (hlead.renewed (hid ▸ List.mem_map_of_mem hbefore))
    · exact huntouched.since decision.2 (hid ▸ hsince)
  · intro huntriaged
    refine ⟨fun hbefore => huntriaged ?_, fun status hsince => huntriaged ?_⟩
    · exact List.mem_map_of_mem (List.mem_of_mem_take hbefore)
    · exact List.mem_map_of_mem (List.mem_of_mem_drop hsince)

/-- A step keeps the assertions when the sync writes an untriaged lead. -/
theorem triageStep_keeps {tick : TriageTick} {phase phase' : TriagePhase}
    (hstep : triageStep tick w phase = some (w', phase')) (hw : w.Coherent)
    (hgood : phase.Good w)
    (hguard : ∀ listed lead leads, phase = .advancing listed lead leads → lead.1 ∉ w.triaged) :
    w'.Coherent ∧ phase'.Good w' ∧ TriageGrows w w' := by
  -- reads bring in a row as it is; the two commits are the request's and the sync's
  cases phase with
  | request leadId status user =>
      rw [triageStep] at hstep
      split at hstep
      · cases hstep
        exact ⟨hw, trivial, .refl w⟩
      · rename_i lead hlead
        cases hstep
        exact ⟨hw, loadedBefore_of_get? hw hlead, .refl w⟩
  | loaded lead status user =>
      cases hstep
      refine ⟨⟨consistent_request hw.rows hgood status tick.now user, ?_⟩, trivial,
        grows_request hgood status tick.now _⟩
      exact status_setTriage hw.status lead status tick.now _
  | sync limit =>
      cases hstep
      exact ⟨hw, listed_of_listUntriaged hw.rows limit, .refl w⟩
  | fetching listed leads =>
      cases leads with
      | nil =>
          cases hstep
          exact ⟨hw, trivial, .refl w⟩
      | cons lead leads =>
          obtain ⟨hlead, hleads⟩ := List.forall_mem_cons.1 hgood
          rw [triageStep] at hstep
          split at hstep
          · cases hstep
            exact ⟨hw, ⟨hlead, hleads⟩, .refl w⟩
          · cases hstep
            exact ⟨hw, hleads, .refl w⟩
          · cases hstep
            exact ⟨hw, hleads, .refl w⟩
          · cases hstep
            exact ⟨hw, trivial, .refl w⟩
  | advancing listed lead leads =>
      cases hstep
      have hgrows := grows_advance hgood.1 tick.now
      refine ⟨⟨consistent_advance hw.rows hgood.1 (hguard listed lead leads rfl) tick.now, ?_⟩, ?_,
        hgrows⟩
      · exact status_setTriage hw.status lead .contacted tick.now _
      · exact fun lead hlead => hgrows.listing (hgood.2 lead hlead)
  | finished => cases hstep
  | failed => cases hstep

end Outline

/-- Until a decision is overridden, a step of the sync keeps the decisions exactly when the staff has
not touched the lead that it writes. -/
theorem keepsDecisions_iff (hc : triageOutline.Holds c) (hfire : fire triageStep e c = some c') :
    KeepsDecisions e c c' ↔ WritesUntriaged e c := by
  obtain ⟨w', phase', hstep, rfl⟩ := fire_eq_some.1 hfire
  have hgood := hc.2 e.1
  have hread : w' = c.shared → (KeepsDecisions e c ⟨w', Function.update c.proc e.1 phase'⟩) := by
    rintro rfl - q hq -
    exact hq
  rw [WritesUntriaged]
  cases hphase : c.proc e.1 with
  | request leadId status user =>
      exact iff_of_true (fun hsync => by rw [hphase] at hsync; cases hsync) trivial
  | loaded lead status user =>
      exact iff_of_true (fun hsync => by rw [hphase] at hsync; cases hsync) trivial
  | sync limit =>
      rw [hphase] at hstep
      cases hstep
      exact iff_of_true (hread rfl) trivial
  | fetching listed leads =>
      rw [hphase] at hstep
      have hsame : w' = c.shared := by
        cases leads with
        | nil =>
            cases hstep
            rfl
        | cons lead leads =>
            rw [triageStep] at hstep
            split at hstep <;> cases hstep <;> rfl
      exact iff_of_true (hread hsame) trivial
  | advancing listed lead leads =>
      rw [hphase] at hstep hgood
      cases hstep
      obtain ⟨hlead, -⟩ :
          Listed c.shared listed lead ∧ ∀ lead ∈ leads, Listed c.shared listed lead := hgood
      refine Iff.trans ?_ hlead.untouched_iff.symm
      constructor
      · intro hkeeps htriaged
        -- the row of the lead had the name of a user, and now has the name of the job
        obtain ⟨q, hq, hid⟩ := List.mem_map.1 hlead.mem
        have hafter := hkeeps (by rw [hphase]; rfl) q hq (hid ▸ htriaged)
        exact (hc.1.rows q hq).mine (hid ▸ htriaged) (advance_columns hlead hafter hid).2
      · intro huntriaged _ q hq htriaged
        apply mem_setTriage_of_ne hq
        rintro hid
        exact huntriaged (hid ▸ htriaged)
  | finished =>
      rw [hphase] at hstep
      cases hstep
  | failed =>
      rw [hphase] at hstep
      cases hstep

theorem triageOutline_fire (hc : triageOutline.Holds c) (hguard : WritesUntriaged e c)
    (hfire : fire triageStep e c = some c') : triageOutline.Holds c' := by
  refine Outline.holds_fire (o := triageOutline) (R := fun _ => TriageGrows) ?_ ?_ hc hfire
  · intro w phase hstep
    apply triageStep_keeps hstep hc.1 (hc.2 e.1)
    intro listed lead leads hphase
    rw [WritesUntriaged, hphase] at hguard
    have hgood := hc.2 e.1
    rw [hphase] at hgood
    exact hgood.1.untouched_iff.1 hguard
  · exact fun _ _ _ hgrows hgood => hgrows.good hgood

omit [DecidableEq ι] in
theorem triageOutline_start (h : TriageStart c) : triageOutline.Holds c := by
  constructor
  · refine ⟨fun q hq => ?_, fun q hq r hr _ => ?_⟩
    · obtain ⟨-, -, hby⟩ := h.rows q hq
      have hname : q.2.triageBy ≠ some systemTriageBy := by
        rw [hby]
        exact fun hsome => by cases hsome
      rw [h.decisions]
      refine ⟨fun _ => hname, fun user huser => ?_, fun _ => hname, fun _ hmem => ?_⟩
      · rw [hby] at huser
        cases huser
      · exact absurd hmem List.not_mem_nil
    · rw [(h.rows q hq).1, (h.rows r hr).1]
  · intro i
    change (c.proc i).Good c.shared
    rcases h.calls i with ⟨leadId, status, user, hphase⟩ | ⟨limit, hphase⟩
    · rw [hphase]
      trivial
    · rw [hphase]
      trivial

/-- **Decisions of the staff.** In an interleaving of syncs and requests, no step of a sync touches a
lead that has been triaged by hand exactly when the staff has touched no lead that a sync writes. -/
theorem decisions_kept_iff {es : List (ι × TriageTick)} (hstart : TriageStart c)
    (hrun : exec (fire triageStep) es c = some c') :
    EachEvent (fire triageStep) KeepsDecisions es c ↔
      Guarded (fire triageStep) WritesUntriaged es c := by
  apply eachEvent_iff_guarded (J := triageOutline.Holds) (H := fun _ _ => True) _ _
    (triageOutline_start hstart) (guarded_of_forall (fun _ _ => trivial) c) hrun
  · intro e c c' hc _ hkeeps hfire
    exact triageOutline_fire hc ((keepsDecisions_iff hc hfire).1 hkeeps) hfire
  · exact fun e c c' hc _ hfire => keepsDecisions_iff hc hfire

/-! ## One lead -/

/-- A lead in the CRM, a sync (`false`) and a request that dismisses the lead (`true`). -/
def dismissal : Config Bool TriageWorld TriagePhase where
  shared := ⟨[(1, { crmContactId := some "9" })], []⟩
  proc i := if i then .request 1 .dismissed ⟨"ada@churchgate.com", by decide⟩ else .sync 200

theorem dismissal_start : TriageStart dismissal where
  rows q hq := by
    obtain rfl := List.mem_singleton.1 hq
    exact ⟨rfl, rfl, rfl⟩
  decisions := rfl
  calls i := by
    cases i with
    | true => exact Or.inl ⟨1, .dismissed, _, rfl⟩
    | false => exact Or.inr ⟨200, rfl⟩

/-- The CRM shows the lead as contacted. -/
def contactedAt (now : Int) : TriageTick := ⟨.contact true, now⟩

/-- The lead is dismissed after the sync has listed it. -/
theorem dismissal_overridden :
    ¬ EachEvent (fire triageStep) KeepsDecisions
      [(false, contactedAt 1), (true, contactedAt 2), (true, contactedAt 3), (false, contactedAt 4),
        (false, contactedAt 5)] dismissal := by
  intro h
  have hlast := (((((h _ rfl).2 _ rfl).2 _ rfl).2 _ rfl).2 _ rfl).1
  have hrow := hlast rfl (1, ⟨some "9", .dismissed, some 3, some "ada@churchgate.com"⟩) (by decide)
    (by decide)
  exact absurd hrow (by decide)

/-- The lead is dismissed before the sync lists its leads. -/
theorem dismissal_kept :
    EachEvent (fire triageStep) KeepsDecisions
      [(true, contactedAt 1), (true, contactedAt 2), (false, contactedAt 3), (false, contactedAt 4)]
      dismissal := by
  refine (decisions_kept_iff dismissal_start rfl).2 ?_
  refine ⟨trivial, fun _ h₁ => ⟨?_, fun _ h₂ => ⟨?_, fun _ h₃ => ⟨?_, fun _ _ => trivial⟩⟩⟩⟩
  · cases h₁
    trivial
  · cases h₁
    cases h₂
    trivial
  · cases h₁
    cases h₂
    cases h₃
    trivial

end SalesTrades.Leads
