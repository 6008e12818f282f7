import SalesTrades.Library.Reruns
import SalesTrades.Transfer.Registrations

/-!
# Interrupted transfers

A run commits the primary of a lead on its own, before the UPDATE of the lead's events and the second
participant, and the next run skips every lead that has a row. So an interruption right after such a
commit loses what had still to follow, unless nothing had to (`CleanCut`), and every other interruption
is made good by the runs after it (`transfer_rerunnable_iff`).
-/

set_option autoImplicit false

namespace SalesTrades.Transfer

open SalesTrades.Library SalesTrades.Trade

/-- The script with `--commit`. -/
def transferJob [ColumnDriver] (py : LowerCase) (source : TransferSource) :
    Job TransferDb CommitPoint where
  commits db := (run py source true db).1
  completes db :=
    match (run py source true db).2 with
    | .ok (.done, db') => some db'
    | _ => none

/-- The interruption does not come right after the commit of a primary whose lead has events or names a
second participant. -/
def CleanCut (events : List LeadEvent) : Option CommitPoint → Prop
  | some (.primary lead) => ¬ NamesSecond lead.2.responses ∧ ∀ e ∈ events, e.leadId ≠ lead.1
  | _ => True

/-- A lead of the campaign has a row, so that the next run skips it, and is not complete. -/
def LostLead (source : TransferSource) (db : TransferDb) : Prop :=
  ∃ lead ∈ campaignLeads source, Started db lead ∧ ¬ Complete db lead

/-- The same leads have events. -/
def SameEventLeads (db db' : TransferDb) : Prop :=
  db'.events.map (fun e => e.leadId) = db.events.map fun e => e.leadId

section Frames

variable {py : LowerCase} {source : TransferSource} {db db' m : TransferDb} {lead : Leads.LeadRow}
  {item : TransferItem} {items : List TransferItem} {label : CommitPoint}

/-- A lead of the campaign that the run does not transfer differs from those that it does. -/
theorem ne_of_not_new (hlead : lead ∈ campaignLeads source) (h : lead ∉ newLeads source db) :
    ∀ lead' ∈ newLeads source db, lead.1 ≠ lead'.1 := by
  intro lead' hlead' hid
  have hmem : lead' ∈ campaignLeads source := List.mem_of_mem_take (mem_newLeads.1 hlead').1
  exact h (List.inj_on_of_nodup_map (nodup_campaignLeads source) hlead hmem hid ▸ hlead')

theorem sameEventLeads_repointed (leadId tradeLeadId : Nat) (events : List LeadEvent) :
    (repointed leadId tradeLeadId events).map (fun e => e.leadId) = events.map fun e => e.leadId := by
  rw [repointed, List.map_map]
  apply List.map_congr_left
  intro e _
  simp only [Function.comp_apply]
  split <;> rfl

theorem SameEventLeads.exists_iff (h : SameEventLeads db db') (leadId : Nat) :
    (∃ e ∈ db'.events, e.leadId = leadId) ↔ ∃ e ∈ db.events, e.leadId = leadId := by
  rw [← List.mem_map, ← List.mem_map, h]

/-- The entries of a list that is matched with two lists, one after the other. -/
theorem forall₂_append_right {α β : Type} {R : α → β → Prop} {l : List α} {l₁ l₂ : List β}
    (h : List.Forall₂ R l (l₁ ++ l₂)) :
    ∃ a b, l = a ++ b ∧ List.Forall₂ R a l₁ ∧ List.Forall₂ R b l₂ :=
  ⟨l.take l₁.length, l.drop l₁.length, (List.take_append_drop _ _).symm,
    List.forall₂_take_append l l₁ l₂ h, List.forall₂_drop_append l l₁ l₂ h⟩

variable [ColumnDriver]

theorem completes_eq_some : (transferJob py source).completes db = some db' ↔
    (run py source true db).2 = .ok (.done, db') := by
  simp only [transferJob]
  split
  · rename_i m hrun
    rw [hrun, Option.some.injEq, Except.ok.injEq, Prod.mk.injEq, eq_self_iff_true, true_and]
  · rename_i hnot
    exact iff_of_false nofun (hnot db')

theorem transferItem_eventLeads (h : (transferItem db item).2 = .ok db') : SameEventLeads db db' := by
  obtain ⟨id, db₁, db₂, hpassed⟩ := transferItem_ok h
  rw [SameEventLeads, hpassed.events_eq]
  exact sameEventLeads_repointed item.lead.1 id db.events

theorem transferAll_eventLeads (h : transferAll db items = .ok db') : SameEventLeads db db' := by
  induction items generalizing db with
  | nil =>
      cases h
      rfl
  | cons item rest ih =>
      rw [transferAll_cons] at h
      obtain ⟨m, hone, hall⟩ := bind_eq_ok.1 h
      exact (ih hall).trans (transferItem_eventLeads hone)

omit [ColumnDriver] in
/-- The entries that a part of the loop goes through belong to a part of the leads. -/
theorem Selected.split {passed rest : List TransferItem}
    (h : Selected py source db (passed ++ rest)) : ∃ before after,
      newLeads source db = before ++ after ∧ List.Forall₂ ItemOf before passed ∧
        List.Forall₂ ItemOf after rest :=
  forall₂_append_right h.itemOf

/-- The passes leave alone the leads that the run does not transfer. -/
theorem Selected.same {passed rest : List TransferItem} (h : Selected py source db (passed ++ rest))
    (hall : transferAll db passed = .ok m) {leadId : Nat}
    (hother : ∀ lead ∈ newLeads source db, leadId ≠ lead.1) : SameRegistration leadId db m := by
  obtain ⟨before, after, hleads, hpassed, -⟩ := h.split
  refine transferAll_same hpassed (fun lead hlead => hother lead ?_) hall
  rw [hleads]
  exact List.mem_append_left after hlead

/-- The next run, from the state after some passes, has the other entries before it. -/
theorem Selected.resume {passed rest : List TransferItem} (h : Selected py source db (passed ++ rest))
    (hall : transferAll db passed = .ok m) : Selected py source m rest := by
  obtain ⟨program, hprogram, hitems⟩ := h.items
  obtain ⟨before, after, hleads, hpassed, hrest⟩ := forall₂_append_right hitems
  have hitemOf := hpassed.imp fun _ _ => buildItem_ok
  have hnodup := nodup_newLeads source db
  rw [hleads, List.map_append, List.nodup_append] at hnodup
  have hnew : ∀ lead ∈ before ++ after, ¬ Started db lead := fun lead hlead =>
    (mem_newLeads.1 (hleads ▸ hlead)).2
  have hbefore : ∀ lead ∈ before, Started m lead := fun lead hlead =>
    (transferAll_transferred hitemOf hnodup.1 (fun l hl => hnew l (List.mem_append_left _ hl)) hall
      lead hlead).1.started
  have hafter : ∀ lead ∈ after, ¬ Started m lead := by
    intro lead hlead hstarted
    have hsame := transferAll_same hitemOf (fun l hl heq =>
      hnodup.2.2 l.1 (List.mem_map_of_mem hl) lead.1 (List.mem_map_of_mem hlead) heq.symm) hall
    exact hnew lead (List.mem_append_right _ hlead) (hsame.started_iff.1 hstarted)
  -- what was skipped before is skipped again
  have hnewLeads : newLeads source m = (newLeads source db).filter fun lead => ¬ Started m lead := by
    rw [newLeads, newLeads, List.filter_filter]
    refine List.filter_congr fun lead hlead => ?_
    by_cases hstarted : Started db lead
    · have hmem : lead ∈ campaignLeads source := List.mem_of_mem_take hlead
      have hsame := h.same hall (ne_of_not_new hmem fun hn => (mem_newLeads.1 hn).2 hstarted)
      simp [hstarted, hsame.started_iff]
    · simp [hstarted]
  refine ⟨h.campaign, program, hprogram, ?_⟩
  rw [hnewLeads, hleads, List.filter_append,
    List.filter_eq_nil_iff.2 (fun lead hlead => by simpa using hbefore lead hlead), List.nil_append,
    List.filter_eq_self.2 (fun lead hlead => by simpa using hafter lead hlead)]
  exact hrest

/-- After a clean interruption the state is that after some passes. -/
theorem clean_commit (hselected : Selected py source db items)
    (h : (label, m) ∈ (transferLoop db items).1) (hclean : CleanCut db.events (some label)) :
    ∃ passed rest, items = passed ++ rest ∧ transferAll db passed = .ok m := by
  rcases mem_transferLoop_commits h with ⟨-, hall⟩ | ⟨passed, item, rest, db₁, rfl, hall, hcommit⟩
  · exact ⟨items, [], (List.append_nil items).symm, hall⟩
  · refine ⟨passed ++ [item], rest, by simp, ?_⟩
    have hone : (transferItem db₁ item).2 = .ok m := by
      rcases mem_transferItem_commits hcommit with ⟨rfl, id, hcreated, halone⟩ | ⟨-, hdone⟩
      · obtain ⟨before, after, -, -, hitems⟩ := hselected.split
        obtain ⟨lead, leads, hitem, -, -⟩ := List.forall₂_cons_right_iff.1 hitems
        obtain ⟨hnosecond, hnoevents⟩ := hclean
        rw [hitem.lead_eq] at hnosecond hnoevents
        have hnone : item.second = none :=
          Option.not_isSome_iff_eq_none.1 fun hsome => hnosecond (hitem.second_iff.1 hsome)
        rw [halone hnone, hitem.lead_eq]
        obtain ⟨row, -, hrows⟩ := hcreated.row
        refine repointEvents_self ⟨(id, row), by simp [hrows], rfl⟩ fun e he hid => ?_
        rw [hcreated.events] at he
        obtain ⟨e', he', hid'⟩ :=
          ((transferAll_eventLeads hall).exists_iff lead.1).1 ⟨e, he, hid⟩
        exact hnoevents e' he' hid'
      · exact hdone
    rw [transferAll_append, hall]
    show transferAll db₁ [item] = .ok m
    rw [transferAll_cons, hone]
    rfl

/-- What a commit leaves of the leads that the run does not transfer. -/
theorem commit_same (h : (label, m) ∈ (run py source true db).1) (hlead : lead ∈ campaignLeads source)
    (hnot : lead ∉ newLeads source db) : SameRegistration lead.1 db m := by
  obtain ⟨items, hselected, hmem⟩ := mem_run_commits h
  have hother := ne_of_not_new hlead hnot
  rcases mem_transferLoop_commits hmem with ⟨-, hall⟩ | ⟨passed, item, rest, db₁, rfl, hall, hcommit⟩
  · exact transferAll_same hselected.itemOf hother hall
  · obtain ⟨before, after, hleads, -, hitems⟩ := hselected.split
    obtain ⟨lead', leads, hitem, -, rfl⟩ := List.forall₂_cons_right_iff.1 hitems
    have hne : lead.1 ≠ lead'.1 := hother lead' (by rw [hleads]; simp)
    have hbefore := hselected.same hall hother
    rcases mem_transferItem_commits hcommit with ⟨-, id, hcreated, -⟩ | ⟨-, hdone⟩
    · refine hbefore.trans (hcreated.same ?_)
      rw [hitem.registration]
      exact fun heq => hne (registrationId_injective heq).symm
    · obtain ⟨id, a, b, hpass⟩ := transferItem_ok hdone
      exact hbefore.trans (hpass.same hitem hne)

end Frames

/-! ## Interruptions -/

section Reruns

variable {py : LowerCase} {source : TransferSource} {db db' m : TransferDb} {lead : Leads.LeadRow}
  {cut : Option CommitPoint} {cuts : List (Option CommitPoint)}

/-- What is lost stays lost: the lead has a row. -/
theorem LostLead.kept (h : LostLead source db)
    (hsame : ∀ lead ∈ campaignLeads source, lead ∉ newLeads source db → SameRegistration lead.1 db m) :
    LostLead source m := by
  obtain ⟨lead, hlead, hstarted, hincomplete⟩ := h
  have hsame := hsame lead hlead fun hnew => (mem_newLeads.1 hnew).2 hstarted
  exact ⟨lead, hlead, hsame.started_iff.2 hstarted, fun hc => hincomplete (hsame.symm.complete hc)⟩

/-- Passes that transfer some leads completely and leave the others alone lose nothing. -/
theorem not_lost_of_transferred (h : ¬ LostLead source db)
    (hdone : ∀ lead ∈ campaignLeads source, Complete m lead ∨ SameRegistration lead.1 db m) :
    ¬ LostLead source m := by
  rintro ⟨lead, hlead, hstarted, hincomplete⟩
  rcases hdone lead hlead with hcomplete | hsame
  · exact hincomplete hcomplete
  · refine h ⟨lead, hlead, hsame.started_iff.1 hstarted, fun hc => ?_⟩
    exact hincomplete (hsame.complete hc)

variable [ColumnDriver]

/-- No lead is half transferred, and the leads with events are those of `db`. -/
structure Sound (source : TransferSource) (db s : TransferDb) : Prop where
  notLost : ¬ LostLead source s
  events : SameEventLeads db s

omit [ColumnDriver] in
theorem Sound.cleanCut_iff {s : TransferDb} (h : Sound source db s) :
    CleanCut s.events cut ↔ CleanCut db.events cut := by
  cases cut with
  | none => exact Iff.rfl
  | some label =>
      cases label with
      | primary lead =>
          have hiff := not_congr (h.events.exists_iff lead.1)
          simp only [not_exists, not_and] at hiff
          exact and_congr_right fun _ => hiff
      | second lead => exact Iff.rfl
      | final => exact Iff.rfl

/-- A lead that the run skips stays as it is. -/
theorem skipped_same (h : (transferJob py source).Leaves db cut m) (hlead : lead ∈ campaignLeads source)
    (hnot : lead ∉ newLeads source db) : SameRegistration lead.1 db m := by
  cases h with
  | start => exact SameRegistration.refl lead.1 db
  | commit hmem => exact commit_same hmem hlead hnot

theorem completed_same (h : (transferJob py source).completes db = some db')
    (hlead : lead ∈ campaignLeads source) (hnot : lead ∉ newLeads source db) :
    SameRegistration lead.1 db db' :=
  (run_done (completes_eq_some.1 h)).2 lead.1 (ne_of_not_new hlead hnot)

/-- After a clean interruption nothing is lost, and the next run ends as this one would have. -/
theorem clean_resumes {s : TransferDb} (hs : Sound source db s)
    (h : (transferJob py source).Leaves s cut m) (hclean : CleanCut db.events cut) :
    Sound source db m ∧ (transferJob py source).completes m = (transferJob py source).completes s := by
  cases h with
  | start => exact ⟨hs, rfl⟩
  | @commit label m hmem =>
      obtain ⟨items, hselected, hcommit⟩ := mem_run_commits hmem
      obtain ⟨passed, rest, rfl, hall⟩ :=
        clean_commit hselected hcommit (hs.cleanCut_iff.2 hclean)
      obtain ⟨before, after, hleads, hpassed, -⟩ := hselected.split
      have hnodup := nodup_newLeads source s
      rw [hleads, List.map_append] at hnodup
      refine ⟨⟨not_lost_of_transferred hs.notLost fun lead hlead => ?_,
        (transferAll_eventLeads hall).trans hs.events⟩, ?_⟩
      · by_cases hmine : lead ∈ before
        · have hnew : ∀ l ∈ before, ¬ Started s l := fun l hl =>
            (mem_newLeads.1 (hleads ▸ List.mem_append_left after hl)).2
          exact Or.inl (transferAll_transferred hpassed hnodup.of_append_left hnew hall lead hmine).1
        · refine Or.inr (transferAll_same hpassed (fun l hl hid => hmine ?_) hall)
          have hl' : l ∈ campaignLeads source := List.mem_of_mem_take
            (mem_newLeads.1 (hleads ▸ List.mem_append_left after hl)).1
          exact List.inj_on_of_nodup_map (nodup_campaignLeads source) hlead hl' hid ▸ hl
      · have hresumed := (hselected.resume hall).run_eq
        simp only [transferJob, hresumed, hselected.run_eq, transferAll_append, hall]
        rfl

/-- The commit of a primary alone leaves the lead incomplete, if it has events or names a second
participant. -/
theorem primary_alone_incomplete {item : TransferItem} {id : Nat} (hcreated : Created db item.primary id m)
    (hitem : ItemOf lead item) (hnew : ¬ Started db lead)
    (hdirty : ¬ CleanCut db.events (some (.primary lead))) : Started m lead ∧ ¬ Complete m lead := by
  obtain ⟨row, hflush, hrows⟩ := hcreated.row
  obtain ⟨hid, -, hindex, -⟩ := flush_columns hflush
  have hmine : ∀ q ∈ m.trade.rows, q.2.registrationId = registrationId lead.1 → q = (id, row) := by
    intro q hq hqid
    rw [hrows, List.mem_append, List.mem_singleton] at hq
    exact hq.resolve_left fun hold => hnew (started_iff.2 ⟨q, hold, hqid⟩)
  refine ⟨started_iff.2 ⟨(id, row), by simp [hrows], hid.trans hitem.registration⟩, fun hcomplete => ?_⟩
  refine hdirty ⟨fun hnames => ?_, fun e he hlead => ?_⟩
  · obtain ⟨q, hq, hqid, htwo⟩ := hcomplete.second hnames
    obtain rfl := hmine q hq hqid
    rw [hindex, hitem.first] at htwo
    cases htwo
  · obtain ⟨p, hp, hprimary, -, hevents⟩ := hcomplete.primary
    obtain rfl := hmine p hp hprimary.1
    -- the id is new, and the events of the lead point at rows that were there before
    rw [← hcreated.events] at he
    have hpoints := hevents e he hlead
    rw [hcreated.events] at he
    obtain ⟨q, hq, hqid⟩ := db.foreignKey e he id hpoints
    exact hcreated.fresh q hq hqid

/-- After any other interruption a lead is half transferred. -/
theorem dirty_loses {s : TransferDb} (hs : Sound source db s)
    (h : (transferJob py source).Leaves s cut m) (hdirty : ¬ CleanCut db.events cut) :
    LostLead source m := by
  rw [← hs.cleanCut_iff] at hdirty
  cases h with
  | start => exact absurd trivial hdirty
  | @commit label m hmem =>
      obtain ⟨items, hselected, hcommit⟩ := mem_run_commits hmem
      rcases mem_transferLoop_commits hcommit with
        ⟨rfl, -⟩ | ⟨passed, item, rest, s₁, rfl, hall, hcommit⟩
      · exact absurd trivial hdirty
      rcases mem_transferItem_commits hcommit with ⟨rfl, id, hcreated, -⟩ | ⟨rfl, -⟩
      · obtain ⟨before, after, hleads, hpassed, hitems⟩ := hselected.split
        obtain ⟨lead, leads, hitem, -, rfl⟩ := List.forall₂_cons_right_iff.1 hitems
        have hlead := mem_newLeads.1 (hleads ▸ List.mem_append_right before List.mem_cons_self)
        have hnodup := nodup_newLeads source s
        rw [hleads, List.map_append, List.nodup_append] at hnodup
        have hsame := transferAll_same hpassed (fun l hl heq =>
          hnodup.2.2 l.1 (List.mem_map_of_mem hl) lead.1 (by simp) heq.symm) hall
        rw [hitem.lead_eq] at hdirty
        -- the passes before this one have not touched the lead, nor which leads have events
        have hdirty₁ : ¬ CleanCut s₁.events (some (.primary lead)) := by
          have hiff := not_congr ((transferAll_eventLeads hall).exists_iff lead.1)
          simp only [not_exists, not_and] at hiff
          exact fun hclean => hdirty ⟨hclean.1, hiff.1 hclean.2⟩
        obtain ⟨hstarted, hincomplete⟩ := primary_alone_incomplete hcreated hitem
          (fun hst => hlead.2 (hsame.started_iff.1 hst)) hdirty₁
        exact ⟨lead, List.mem_of_mem_take hlead.1, hstarted, hincomplete⟩
      · exact absurd trivial hdirty

/-- A completed run loses nothing that was not lost before. -/
theorem completed_not_lost {s : TransferDb} (hs : Sound source db s)
    (h : (transferJob py source).completes s = some db') : ¬ LostLead source db' := by
  refine not_lost_of_transferred hs.notLost fun lead hlead => ?_
  by_cases hnew : lead ∈ newLeads source s
  · exact Or.inl ((run_done (completes_eq_some.1 h)).1 lead hnew).1
  · exact Or.inr (completed_same h hlead hnew)

/-- At the end the leads have a row that a run reads, or that had one at the start. -/
theorem started_at_end (h : (transferJob py source).Reruns cuts db db')
    (hlead : lead ∈ campaignLeads source) :
    Started db' lead ↔ lead ∈ sourceLeads source ∨ Started db lead := by
  by_cases hread : lead ∈ sourceLeads source
  · refine iff_of_true ?_ (Or.inl hread)
    obtain ⟨s, hdone⟩ := h.last
    by_cases hstarted : Started s lead
    · have hsame := completed_same hdone hlead fun hnew => (mem_newLeads.1 hnew).2 hstarted
      exact hsame.started_iff.2 hstarted
    · have hnew := mem_newLeads.2 ⟨hread, hstarted⟩
      exact ((run_done (completes_eq_some.1 hdone)).1 lead hnew).1.started
  · -- no run reads the lead
    have hnot : ∀ s, lead ∉ newLeads source s := fun s hnew => hread (mem_newLeads.1 hnew).1
    have hsame := h.invariant (fun (hs : SameRegistration lead.1 db _) hcut =>
      hs.trans (skipped_same hcut hlead (hnot _))) (fun hs hdone =>
      hs.trans (completed_same hdone hlead (hnot _))) (SameRegistration.refl lead.1 db)
    rw [hsame.started_iff]
    exact (or_iff_right hread).symm

/-- The reruns of an interrupted transfer end with every lead of the campaign transferred completely, in
the state of an uninterrupted run, exactly when no interruption comes between the commit of a primary and
what had still to follow it, and every lead of the campaign is among those that a run reads or had been
transferred before. -/
theorem transfer_rerunnable_iff
    (hstart : ∀ lead ∈ campaignLeads source, Started db lead → Complete db lead)
    (h : (transferJob py source).Reruns cuts db db') :
    ((∀ lead ∈ campaignLeads source, Complete db' lead) ∧
        (transferJob py source).completes db = some db') ↔
      (∀ cut ∈ cuts, CleanCut db.events cut) ∧
        ∀ lead ∈ campaignLeads source, lead ∈ sourceLeads source ∨ Started db lead := by
  have hsound : Sound source db db := by
    refine ⟨?_, rfl⟩
    rintro ⟨lead, hlead, hstarted, hincomplete⟩
    exact hincomplete (hstart lead hlead hstarted)
  have hruns := h.like_uninterrupted_iff (Sound source db) (LostLead source) (CleanCut db.events)
    clean_resumes dirty_loses
    (fun hlost hcut => hlost.kept fun _ => skipped_same hcut)
    (fun hlost hdone => hlost.kept fun _ => completed_same hdone) completed_not_lost hsound
  rw [← hruns]
  constructor
  · rintro ⟨hcomplete, hend⟩
    refine ⟨⟨hend, ?_⟩, fun lead hlead => (started_at_end h hlead).1 (hcomplete lead hlead).started⟩
    rintro ⟨lead, hlead, -, hincomplete⟩
    exact hincomplete (hcomplete lead hlead)
  · rintro ⟨⟨hend, hlost⟩, hread⟩
    refine ⟨fun lead hlead => ?_, hend⟩
    by_contra hincomplete
    exact hlost ⟨lead, hlead, (started_at_end h hlead).2 (hread lead hlead), hincomplete⟩

end Reruns

attribute [local instance] plainDriver

/-- The state after the first commit of a run. -/
def firstCommit (lead : Leads.Lead) (db : TransferDb) : TransferDb :=
  ((run asciiLower (oneLeadSource lead) true db).1.head?.map Prod.snd).getD db

/-- A run that finds its one lead with a row has nothing to do. -/
theorem completes_started {lead : Leads.Lead} {db : TransferDb} (hcampaign : lead.campaignId = 5)
    (hstarted : Started db (1, lead)) :
    (transferJob asciiLower (oneLeadSource lead)).completes db = some db := by
  have hnone : newLeads (oneLeadSource lead) db = [] := by
    simp [newLeads, sourceLeads_one lead hcampaign, hstarted]
  have hselected : Selected asciiLower (oneLeadSource lead) db [] :=
    ⟨⟨_, rfl⟩, _, rfl, hnone ▸ .nil⟩
  rw [completes_eq_some, hselected.run_eq]
  rfl

/-- Ada is on her own and has no events: a crash right after her commit is made good. -/
theorem crash_made_good :
    Complete (firstCommit (adaLead .synced (some "402")) emptyDb) (1, adaLead .synced (some "402")) := by
  have hcampaign := campaignLeads_one (adaLead .synced (some "402")) rfl
  have hsource := sourceLeads_one (adaLead .synced (some "402")) rfl
  refine ((transfer_rerunnable_iff (fun lead _ hstarted => absurd hstarted (not_started_empty lead))
    (.interrupted (.commit List.mem_cons_self) (.completed (completes_started rfl (by decide))))).2
    ⟨?_, fun lead hlead => ?_⟩).1 _
    (hcampaign ▸ List.mem_singleton_self _)
  · intro cut hcut
    obtain rfl := List.mem_singleton.1 hcut
    refine ⟨?_, fun e he => absurd he List.not_mem_nil⟩
    rintro ⟨members, second, hmembers, hsecond, -⟩
    obtain rfl : [] = members := Json.obj.inj hmembers
    cases hsecond
  · exact Or.inl (hsource ▸ hcampaign ▸ hlead)

/-- Ada's registration with a second participant. -/
def adaWithBen : Leads.Lead :=
  { adaLead .synced (some "402") with
    responses := .obj [("second_participant",
      .obj [("first_name", .str "Ben"), ("email", .str "ben@x.ng")])] }

/-- Ben's own registration, through the form. -/
def benRow : TradeLead :=
  { newPrimary ⟨1, tradeProgramSlug, .active, ⟨[], none, none, .null, []⟩⟩ "form" "ben@x.ng" with
    firstName := "Ben" }

def benRegistered : TransferDb where
  trade := ((Table.empty _).insert benRow).elim (Table.empty _) Prod.snd
  columns := []
  events := []
  foreignKey := fun _ he => absurd he List.not_mem_nil

/-- The run ends with a unique violation after the commit of Ada's primary. The next one skips Ada, and
completes without Ben's row. -/
theorem second_participant_lost :
    (run asciiLower (oneLeadSource adaWithBen) true benRegistered).2 = .error .integrityError ∧
      (transferJob asciiLower (oneLeadSource adaWithBen)).Reruns [some (.primary (1, adaWithBen))]
        benRegistered (firstCommit adaWithBen benRegistered) ∧
      ¬ Complete (firstCommit adaWithBen benRegistered) (1, adaWithBen) := by
  refine ⟨rfl, .interrupted (.commit List.mem_cons_self)
    (.completed (completes_started rfl (by decide))), fun hcomplete => ?_⟩
  have hfirst : ((firstCommit adaWithBen benRegistered).trade.rows.all
      fun q => q.2.participantIndex == 1) = true := rfl
  have hnamed : Named (.str "Ben") := fun hblank => absurd (Except.ok.inj hblank) (by decide)
  obtain ⟨q, hq, -, hindex⟩ := hcomplete.second ⟨_, _, rfl, rfl, Or.inl hnamed⟩
  have hone := List.all_eq_true.1 hfirst q hq
  rw [hindex] at hone
  cases hone

end SalesTrades.Transfer
