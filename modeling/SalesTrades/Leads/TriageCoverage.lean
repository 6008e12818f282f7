import SalesTrades.Leads.TriageRace
import SalesTrades.Library.Backlog

/-!
# Which leads the triage sync gets to

`sync_triage_from_crm` repeated without another writer, against a CRM that does not change. Each run asks
about the oldest untriaged leads, and a lead that nobody has contacted is among them again the next
time. So as many runs as the leads fill advance every contacted lead exactly when none of them is behind
the leads that the runs get to (`contacted_advanced_iff`).
-/

set_option autoImplicit false

namespace SalesTrades.Leads

open SalesTrades.Library SalesTrades.Library.Backlog

/-! ## The sync by itself -/

/-- What the next statement reads from a CRM that says who has been contacted, by contact id. -/
def staticTick (crm : String → Bool) (now : Nat → Int) : TriagePhase → TriageTick
  | .fetching _ (lead :: _) => ⟨.contact (lead.2.crmContactId.any crm), now lead.1⟩
  | .advancing _ lead _ => ⟨.raised, now lead.1⟩
  -- these statements read neither the CRM nor the clock
  | _ => ⟨.raised, 0⟩

/-- Up to `fuel` statements of a process, with no other process. -/
def runAlone (crm : String → Bool) (now : Nat → Int) : Nat → TriageWorld → TriagePhase →
    TriageWorld × TriagePhase
  | 0, w, phase => (w, phase)
  | fuel + 1, w, phase =>
      match triageStep (staticTick crm now phase) w phase with
      | none => (w, phase)
      | some (w', phase') => runAlone crm now fuel w' phase'

/-- `sync_triage_from_crm`: it lists the leads, and has at most two statements for each of them. -/
def syncTriageFromCrm (crm : String → Bool) (now : Nat → Int) (limit : Nat) (w : TriageWorld) :
    TriageWorld × TriagePhase :=
  runAlone crm now (2 * limit + 2) w (.sync limit)

/-- `triage_status` is `new`, and there is a CRM contact. -/
def TriageWorld.untriaged (w : TriageWorld) : List (Nat × TriageRow) :=
  w.rows.filter fun q => q.2.triageStatus = .new && q.2.crmContactId.isSome

/-- The contact of the lead has a `last_contacted`. -/
def contacted (crm : String → Bool) (q : Nat × TriageRow) : Bool := q.2.crmContactId.any crm

/-- Somebody or something has set the lead to `contacted`. -/
def TriageWorld.Advanced (w : TriageWorld) (id : Nat) : Prop :=
  ∃ row, (id, row) ∈ w.rows ∧ row.triageStatus = .contacted

variable {crm : String → Bool} {now : Nat → Int} {limit : Nat} {w : TriageWorld}

/-! ## One run -/

/-- The leads `ids` are advanced, and the others are as they were. -/
def Advances (ids : List Nat) (w w' : TriageWorld) : Prop :=
  ∃ f : Nat × TriageRow → Nat × TriageRow, w'.rows = w.rows.map f ∧
    ∀ q, (f q).1 = q.1 ∧ (q.1 ∈ ids → (f q).2.triageStatus = .contacted) ∧ (q.1 ∉ ids → f q = q)

theorem Advances.refl (w : TriageWorld) : Advances [] w w :=
  ⟨id, (List.map_id _).symm, fun _ => ⟨rfl, fun h => absurd h List.not_mem_nil, fun _ => rfl⟩⟩

theorem Advances.trans {ids ids' : List Nat} {w' w'' : TriageWorld} (h : Advances ids w w')
    (h' : Advances ids' w' w'') : Advances (ids ++ ids') w w'' := by
  obtain ⟨f, hrows, hf⟩ := h
  obtain ⟨g, hrows', hg⟩ := h'
  refine ⟨g ∘ f, by rw [hrows', hrows, List.map_map], fun q => ?_⟩
  obtain ⟨hid, hin, hout⟩ := hf q
  obtain ⟨hid', hin', hout'⟩ := hg (f q)
  rw [hid] at hid' hin' hout'
  refine ⟨hid', fun hmem => ?_, fun hnot => ?_⟩
  · by_cases hlast : q.1 ∈ ids'
    · exact hin' hlast
    · have hfirst := (List.mem_append.1 hmem).resolve_right hlast
      rw [Function.comp_apply, hout' hlast]
      exact hin hfirst
  · rw [List.mem_append, not_or] at hnot
    rw [Function.comp_apply, hout' hnot.2, hout hnot.1]

/-- The write of the sync to a lead that it has loaded as new. -/
theorem advances_setTriage {lead : Nat × TriageRow} (hnew : lead.2.triageStatus = .new) (time : Int) :
    Advances [lead.1] w
      { w with rows := w.setTriage lead .contacted time (some systemTriageBy) } := by
  refine ⟨_, rfl, fun q => ?_⟩
  by_cases hid : q.1 = lead.1
  · simp only [List.mem_singleton, hid, if_true, not_true_eq_false, false_implies, and_true,
      forall_const, true_and]
    rw [hnew]
    rfl
  · simp only [List.mem_singleton, hid, if_false, not_false_eq_true, false_implies, forall_const,
      and_true]

/-- The loop over the leads that are loaded. -/
theorem runAlone_fetching {leads : List (Nat × TriageRow)} {listed fuel : Nat}
    (hnew : ∀ lead ∈ leads, lead.2.triageStatus = .new) (hfuel : 2 * leads.length < fuel) :
    (runAlone crm now fuel w (.fetching listed leads)).2 = .finished ∧
      Advances ((leads.filter (contacted crm)).map Prod.fst) w
        (runAlone crm now fuel w (.fetching listed leads)).1 := by
  induction leads generalizing w fuel with
  | nil =>
      obtain ⟨fuel, rfl⟩ : ∃ n, fuel = n + 1 := ⟨fuel - 1, by omega⟩
      cases fuel with
      | zero => exact ⟨rfl, Advances.refl w⟩
      | succ fuel => exact ⟨rfl, Advances.refl w⟩
  | cons lead leads ih =>
      obtain ⟨hlead, hrest⟩ := List.forall_mem_cons.1 hnew
      rw [List.length_cons] at hfuel
      obtain ⟨fuel, rfl⟩ : ∃ n, fuel = n + 2 := ⟨fuel - 2, by omega⟩
      cases hcontacted : contacted crm lead with
      | false =>
          -- the fetch is the only statement
          have hstep : runAlone crm now (fuel + 2) w (.fetching listed (lead :: leads)) =
              runAlone crm now (fuel + 1) w (.fetching listed leads) := by
            rw [runAlone, staticTick, triageStep, ← contacted, hcontacted]
          rw [hstep, List.filter_cons_of_neg (by rw [hcontacted]; exact Bool.false_ne_true)]
          exact ih hrest (by omega)
      | true =>
          have hstep : runAlone crm now (fuel + 2) w (.fetching listed (lead :: leads)) =
              runAlone crm now fuel
                { w with
                  rows := w.setTriage lead .contacted (now lead.1) (some systemTriageBy) }
                (.fetching listed leads) := by
            rw [runAlone, staticTick, triageStep, ← contacted, hcontacted]
            rfl
          have hfuel : 2 * leads.length < fuel := by omega
          obtain ⟨hfinished, hadvances⟩ := ih (w := { w with
            rows := w.setTriage lead .contacted (now lead.1) (some systemTriageBy) }) hrest hfuel
          rw [hstep, List.filter_cons_of_pos hcontacted, List.map_cons]
          exact ⟨hfinished, (advances_setTriage hlead (now lead.1)).trans hadvances⟩

/-- A run returns, and advances the contacted ones of the leads it lists. -/
theorem syncTriageFromCrm_spec (crm : String → Bool) (now : Nat → Int) (limit : Nat)
    (w : TriageWorld) :
    (syncTriageFromCrm crm now limit w).2 = .finished ∧
      Advances (((w.untriaged.take limit).filter (contacted crm)).map Prod.fst) w
        (syncTriageFromCrm crm now limit w).1 := by
  apply runAlone_fetching
  · intro lead hlead
    have hfilter := (List.mem_filter.1 (List.mem_of_mem_take hlead)).2
    exact of_decide_eq_true (Bool.and_eq_true_iff.1 hfilter).1
  · have hlength : (w.listUntriaged limit).length ≤ limit := List.length_take_le _ _
    omega

/-! ## Runs -/

/-- `leads` with its primary key. -/
structure TriageTable extends TriageWorld where
  nodup : (rows.map Prod.fst).Nodup

/-- The table before each run. -/
def triageRuns (crm : String → Bool) (now : Nat → Nat → Int) (limit : Nat) (w : TriageWorld) :
    Nat → TriageWorld
  | 0 => w
  | r + 1 => (syncTriageFromCrm crm (now r) limit (triageRuns crm now limit w r)).1

/-- Contacted leads leave the selection, and the others stay in it. -/
def triageFate (crm : String → Bool) (q : Nat × TriageRow) : Fate :=
  if contacted crm q then .leaves else .stays

theorem clogs_triageFate (q : Nat × TriageRow) :
    clogs (triageFate crm) q = !contacted crm q := by
  rw [clogs, triageFate]
  cases contacted crm q <;> rfl

theorem triageFate_ne_raises (q : Nat × TriageRow) : triageFate crm q ≠ .raises := by
  rw [triageFate]
  split <;> exact Fate.noConfusion

theorem Advances.ids {ids : List Nat} {w' : TriageWorld} (h : Advances ids w w') :
    w'.rows.map Prod.fst = w.rows.map Prod.fst := by
  obtain ⟨f, hrows, hf⟩ := h
  rw [hrows, List.map_map]
  exact List.map_congr_left fun q _ => (hf q).1

/-- Leads that are advanced are no longer selected. -/
theorem Advances.untriaged {ids : List Nat} {w' : TriageWorld} (h : Advances ids w w') :
    w'.untriaged = w.untriaged.filter fun q => q.1 ∉ ids := by
  obtain ⟨f, hrows, hf⟩ := h
  rw [TriageWorld.untriaged, TriageWorld.untriaged, hrows]
  induction w.rows with
  | nil => rfl
  | cons q rest ih =>
      obtain ⟨-, hin, hout⟩ := hf q
      rw [List.map_cons, List.filter_cons, List.filter_cons, ih]
      by_cases hid : q.1 ∈ ids
      · have hleft : (decide ((f q).2.triageStatus = .new) && (f q).2.crmContactId.isSome) = false := by
          rw [hin hid]
          rfl
        rw [hleft, if_neg Bool.false_ne_true]
        split
        · exact (List.filter_cons_of_neg (by simp [hid])).symm
        · rfl
      · rw [hout hid]
        split
        · exact (List.filter_cons_of_pos (by simp [hid])).symm
        · rfl

theorem triageRuns_advances (crm : String → Bool) (now : Nat → Nat → Int) (limit : Nat)
    (w : TriageWorld) (r : Nat) : ∃ ids, Advances ids w (triageRuns crm now limit w r) := by
  induction r with
  | zero => exact ⟨[], Advances.refl w⟩
  | succ r ih =>
      obtain ⟨ids, hids⟩ := ih
      exact ⟨_, hids.trans (syncTriageFromCrm_spec crm (now r) limit _).2⟩

variable {now : Nat → Nat → Int}

/-- The untriaged leads are a backlog that the runs work off. -/
theorem untriaged_triageRuns (t : TriageTable) (r : Nat) :
    (triageRuns crm now limit t.toTriageWorld r).untriaged =
      backlogAt (triageFate crm) limit t.untriaged r := by
  induction r with
  | zero => rfl
  | succ r ih =>
      obtain ⟨ids, hids⟩ := triageRuns_advances crm now limit t.toTriageWorld r
      have hnodup : ((triageRuns crm now limit t.toTriageWorld r).rows.map Prod.fst).Nodup := by
        rw [hids.ids]
        exact t.nodup
      rw [triageRuns, (syncTriageFromCrm_spec crm (now r) limit _).2.untriaged, backlogAt, afterRun,
        ← ih, reached_eq_self fun q _ => triageFate_ne_raises q]
      apply List.filter_congr
      intro q hq
      have hlisted : q.1 ∈ ((((triageRuns crm now limit t.toTriageWorld r).untriaged.take
            limit).filter (contacted crm)).map Prod.fst) ↔
          q ∈ (triageRuns crm now limit t.toTriageWorld r).untriaged.take limit ∧
            contacted crm q = true := by
        rw [List.mem_map]
        constructor
        · rintro ⟨p, hp, hid⟩
          obtain ⟨hp, hcontacted⟩ := List.mem_filter.1 hp
          -- an id belongs to one row
          obtain rfl := List.inj_on_of_nodup_map hnodup
            (List.mem_filter.1 (List.mem_of_mem_take hp)).1 (List.mem_filter.1 hq).1 hid
          exact ⟨hp, hcontacted⟩
        · rintro ⟨hp, hcontacted⟩
          exact ⟨q, List.mem_filter.2 ⟨hp, hcontacted⟩, rfl⟩
      by_cases hcontacted : contacted crm q = true
      · simp [hlisted, hcontacted, clogs_triageFate]
      · simp [hlisted, hcontacted, clogs_triageFate]

/-- A lead has been advanced once it is out of the selection. -/
theorem advanced_iff (t : TriageTable) {q : Nat × TriageRow} (hq : q ∈ t.untriaged) (r : Nat) :
    (triageRuns crm now limit t.toTriageWorld r).Advanced q.1 ↔
      q ∉ (triageRuns crm now limit t.toTriageWorld r).untriaged := by
  obtain ⟨ids, hids⟩ := triageRuns_advances crm now limit t.toTriageWorld r
  have hnodup : ((triageRuns crm now limit t.toTriageWorld r).rows.map Prod.fst).Nodup := by
    rw [hids.ids]
    exact t.nodup
  obtain ⟨hrow, hnew⟩ := List.mem_filter.1 hq
  constructor
  · rintro ⟨row, hmem, hcontacted⟩ hstill
    have hsame := List.inj_on_of_nodup_map hnodup hmem (List.mem_filter.1 hstill).1 rfl
    rw [← hsame, hcontacted] at hnew
    exact Bool.false_ne_true hnew
  · intro hgone
    obtain ⟨f, hrows, hf⟩ := hids
    obtain ⟨hid, hin, hout⟩ := hf q
    have hmem : f q ∈ (triageRuns crm now limit t.toTriageWorld r).rows := by
      rw [hrows]
      exact List.mem_map_of_mem hrow
    by_cases hq : q.1 ∈ ids
    · exact ⟨(f q).2, hid ▸ hmem, hin hq⟩
    · rw [hout hq] at hmem
      exact absurd (List.mem_filter.2 ⟨hmem, hnew⟩) hgone

/-- **Which leads the triage sync gets to.** For every table, CRM and limit: as many runs as the
untriaged leads fill advance every contacted lead if and only if none is behind the frontier, which
moves on in each run by what the leads seen so far that nobody has contacted leave of the limit. -/
theorem contacted_advanced_iff (crm : String → Bool) (now : Nat → Nat → Int) (limit : Nat)
    (t : TriageTable) :
    let k := runsFor t.untriaged.length limit
    (∀ q ∈ t.untriaged, contacted crm q = true →
        (triageRuns crm now limit t.toTriageWorld k).Advanced q.1) ↔
      ∀ q ∈ t.untriaged.drop (frontier (triageFate crm) limit t.untriaged k),
        contacted crm q = false := by
  intro k
  have hnodup : t.untriaged.Nodup := (List.Nodup.of_map _ t.nodup).filter _
  have hadvanced : ∀ q ∈ t.untriaged, contacted crm q = true →
      ((triageRuns crm now limit t.toTriageWorld k).Advanced q.1 ↔
        q ∈ t.untriaged.take (frontier (triageFate crm) limit t.untriaged k)) := by
    intro q hq hcontacted
    have hleaves : triageFate crm q = .leaves := if_pos hcontacted
    rw [advanced_iff t hq, untriaged_triageRuns, mem_backlogAt_iff hnodup hq hleaves, not_not]
  have hsplit := List.take_append_drop (frontier (triageFate crm) limit t.untriaged k) t.untriaged
  constructor
  · intro hall q hq
    by_contra hcontacted
    rw [Bool.not_eq_false] at hcontacted
    have hmem : q ∈ t.untriaged := List.mem_of_mem_drop hq
    have htake := (hadvanced q hmem hcontacted).1 (hall q hmem hcontacted)
    rw [← hsplit] at hnodup
    exact List.disjoint_of_nodup_append hnodup htake hq
  · intro hnone q hq hcontacted
    apply (hadvanced q hq hcontacted).2
    have hparts := hq
    rw [← hsplit, List.mem_append] at hparts
    refine hparts.resolve_right fun hdrop => ?_
    rw [hnone q hdrop] at hcontacted
    exact Bool.false_ne_true hcontacted

/-- Ada, whom nobody has contacted, and Ben, whom a rep has called from the CRM. -/
def adaBeforeCalledBen : TriageTable where
  rows := [(1, { crmContactId := some "11" }), (2, { crmContactId := some "12" })]
  decisions := []
  nodup := by decide

/-- With limit 1 both runs ask about Ada, and Ben is not advanced. -/
theorem called_lead_not_advanced :
    let crm := fun id => id == "12"
    let after := triageRuns crm (fun _ _ => 0) 1 adaBeforeCalledBen.toTriageWorld
      (runsFor adaBeforeCalledBen.untriaged.length 1)
    ∃ q ∈ adaBeforeCalledBen.untriaged, contacted crm q = true ∧ ¬ after.Advanced q.1 := by
  intro crm after
  refine ⟨(2, { crmContactId := some "12" }), by decide, rfl, ?_⟩
  rintro ⟨row, hmem, hcontacted⟩
  have hrows : after.rows = adaBeforeCalledBen.rows := rfl
  have hnew : ∀ q ∈ adaBeforeCalledBen.rows, q.2.triageStatus = .new := by decide
  rw [hrows] at hmem
  rw [hnew _ hmem] at hcontacted
  cases hcontacted

end SalesTrades.Leads
