import SalesTrades.Leads.IcpScoring
import SalesTrades.Library.Buckets

/-!
# The scoring script

`scripts/score_leads_icp.py` groups the leads without a score by the domain of their company and asks
the language model once for each group, about its first lead. The rubric of the reply is that of the
first lead, and the whole group gets the result. So every lead is scored under its own rubric, whatever
the model answers, exactly when the leads of each domain have the rubric of the first
(`own_rubric_iff`).
-/

set_option autoImplicit false

namespace SalesTrades.Leads.IcpScoring

open SalesTrades.Library SalesTrades.Library.JsonText SalesTrades.Library.Buckets

/-! ## The groups -/

/-- A score of no points. -/
def noPoints (max : ℕ) : Score max := ⟨0, Int.le_refl 0, Int.natCast_nonneg max⟩

/-- `_NO_DATA_RESULT`. -/
def noDataResult : ICPResult where
  industryScore := noPoints 30
  financialCapacityScore := noPoints 25
  footprintScore := noPoints 30
  triggerScore := noPoints 15
  icpScore := noPoints 100
  leadTier := "Skip"
  triggerEvent := "None identified"
  rationale := "No company data available (personal/free email address, or the " ++
    "domain returned nothing from Apollo) — scored per the rubric's own " ++
    "'no company data available' anchor rather than guessing."

/-- `email.rsplit("@", 1)[-1]`. -/
def afterLastAt (email : String) : String :=
  String.ofList ((email.toList.reverse.takeWhile fun c => c != '@').reverse)

/-- Where the lead goes: the key of its group, none without enrichment. -/
def placeOf (lead : Lead) : Except PyError (Option Json) := do
  let enrichment ← (lead.responses.orElse (.obj [])).get "enrichment"
  if enrichment.truthy then
    let domain ← enrichment.get "domain"
    let key ← hashKey (domain.orElse (.str (afterLastAt lead.email)))
    .ok (some key)
  else .ok none

/-- The leads of the query; a limit of 0 is no limit. -/
def leadsById (limit : Option Nat) (t : LeadTable) : List LeadRow :=
  let leads := t.rows.mergeSort fun a b => a.1 ≤ b.1
  match limit with
  | none | some 0 => leads
  | some limit => leads.take limit

/-- `pending`. -/
def pendingLeads (limit : Option Nat) (t : LeadTable) : List LeadRow :=
  (leadsById limit t).filter fun lead => lead.2.icpScore.isNone

/-- The leads without a score, with their places. -/
def pendingPlaces (limit : Option Nat) (t : LeadTable) :
    Except PyError (List (Option Json × LeadRow)) :=
  (pendingLeads limit t).mapM fun lead => do
    let place ← placeOf lead.2
    .ok (place, lead)

/-- `no_data`. -/
def noData (places : List (Option Json × LeadRow)) : List LeadRow :=
  (places.filter fun p => p.1.isNone).map Prod.snd

def domainEntries (places : List (Option Json × LeadRow)) : List (Json × LeadRow) :=
  places.filterMap fun p => p.1.map fun domain => (domain, p.2)

/-- `by_domain`. -/
def byDomain (places : List (Option Json × LeadRow)) : List (Bucket Json LeadRow) :=
  buckets (domainEntries places)

/-! ## The run -/

/-- A call of `score_lead` for a group, with the result that the group gets. -/
structure GroupCall where
  company : Bucket Json LeadRow
  result : Option ICPResult

structure BatchRun where
  table : LeadTable
  calls : List GroupCall
  raised : Option PyError

/-- `_apply_result` for each lead, and the commit. -/
def applyAll (group : List LeadRow) (result : Leads.ICPResult) (t : LeadTable) : LeadTable :=
  group.foldl (fun t lead => writeScore (some (lead, result)) t) t

/-- The loop over the groups; the model answers `answers i` to the call for the group with index `i`. -/
def scoreGroups (lib : FieldLib) (answers : Nat → Completion) :
    Nat → List (Bucket Json LeadRow) → LeadTable → BatchRun
  | _, [], t => ⟨t, [], none⟩
  | i, company :: companies, t =>
      match scoreLead lib company.first (answers i) with
      -- the group is left for another run
      | .error _ =>
          let rest := scoreGroups lib answers (i + 1) companies t
          { rest with calls := ⟨company, none⟩ :: rest.calls }
      | .ok result =>
          if storable result then
            let rest := scoreGroups lib answers (i + 1) companies
              (applyAll company.items result.stored t)
            { rest with calls := ⟨company, some result⟩ :: rest.calls }
          -- the commit is outside the `try`
          else ⟨t, [⟨company, none⟩], some .dataError⟩

/-- `run`. -/
def runScript (lib : FieldLib) (openrouterApiKey : String) (commit : Bool) (limit : Option Nat)
    (answers : Nat → Completion) (t : LeadTable) : BatchRun :=
  if commit && openrouterApiKey == "" then ⟨t, [], none⟩
  else
    match pendingPlaces limit t with
    | .error e => ⟨t, [], some e⟩
    | .ok places =>
        if commit then
          scoreGroups lib answers 0 (byDomain places)
            (applyAll (noData places) noDataResult.stored t)
        else ⟨t, [], none⟩

/-! ## What a run should do -/

/-- The lead has the score of a call, whose rubric is this one. -/
def ScoredUnder (run : BatchRun) (lead : LeadRow) (rubric : Rubric) : Prop :=
  ∃ call ∈ run.calls, ∃ result, call.result = some result ∧ lead ∈ call.company.items ∧
    (lead.1, applyResult lead.2 result.stored) ∈ run.table.rows ∧ result.rubric = rubric

/-- Every lead that has been scored by the model has been scored under its own rubric, and no two calls
are about leads of one domain. -/
structure OwnRubric (lib : FieldLib) (t : LeadTable) (run : BatchRun) : Prop where
  rubric : ∀ lead ∈ t.rows, lead.2.icpScore = none → ∀ q ∈ run.table.rows, q.1 = lead.1 →
    q.2.icpScore ≠ none → placeOf lead.2 = .ok none ∨ ScoredUnder run lead (rubricOf lib.py lead.2)
  shared : run.calls.Pairwise fun call call' => ∀ lead ∈ call.company.items,
    ∀ lead' ∈ call'.company.items, placeOf lead.2 ≠ placeOf lead'.2

/-- The pending leads of a domain, in the order of their ids. -/
def ofDomain (limit : Option Nat) (t : LeadTable) (domain : Json) : List LeadRow :=
  (pendingLeads limit t).filter fun lead => placeOf lead.2 = .ok (some domain)

/-- The pending leads of each domain have the rubric of the first of them, unless that one has no
prompt. Nothing is asked of pending leads that the script cannot group. -/
def OneRubricPerDomain (lib : FieldLib) (limit : Option Nat) (t : LeadTable) : Prop :=
  (∀ lead ∈ pendingLeads limit t, ∃ place, placeOf lead.2 = .ok place) →
    ∀ domain first others, ofDomain limit t domain = first :: others →
      formatLeadData first.2 = .ok () →
        ∀ lead ∈ others, rubricOf lib.py lead.2 = rubricOf lib.py first.2

/-! ## Places -/

section Places

variable {limit : Option Nat} {t : LeadTable} {places : List (Option Json × LeadRow)} {lead : LeadRow}
  {company : Bucket Json LeadRow} {domain : Json}

theorem leadsById_sublist (limit : Option Nat) (t : LeadTable) :
    (leadsById limit t).Sublist (t.rows.mergeSort fun a b => a.1 ≤ b.1) := by
  rw [leadsById.eq_def]
  split
  · exact List.Sublist.refl _
  · exact List.Sublist.refl _
  · exact List.take_sublist _ _

theorem mem_of_pending (h : lead ∈ pendingLeads limit t) : lead ∈ t.rows ∧ lead.2.icpScore = none := by
  obtain ⟨hmem, hnone⟩ := List.mem_filter.1 h
  exact ⟨List.mem_mergeSort.1 ((leadsById_sublist limit t).subset hmem),
    Option.isNone_iff_eq_none.1 hnone⟩

theorem nodup_pending (limit : Option Nat) (t : LeadTable) :
    ((pendingLeads limit t).map Prod.fst).Nodup := by
  have hsorted : ((t.rows.mergeSort fun a b => a.1 ≤ b.1).map Prod.fst).Nodup :=
    ((List.mergeSort_perm t.rows _).map Prod.fst).nodup_iff.2 t.nodup
  exact hsorted.sublist ((List.filter_sublist.trans (leadsById_sublist limit t)).map Prod.fst)

/-- The loop goes through exactly when every lead has a place. -/
theorem pendingPlaces_eq_ok_iff : pendingPlaces limit t = .ok places ↔
    places.map Prod.snd = pendingLeads limit t ∧ ∀ p ∈ places, placeOf p.2.2 = .ok p.1 := by
  rw [pendingPlaces]
  induction pendingLeads limit t generalizing places with
  | nil =>
      rw [List.mapM_nil]
      constructor
      · rintro h
        obtain rfl := Except.ok.inj h
        exact ⟨rfl, List.forall_mem_nil _⟩
      · rintro ⟨h, -⟩
        rw [List.map_eq_nil_iff.1 h]
        rfl
  | cons lead leads ih =>
      rw [List.mapM_cons]
      constructor
      · intro h
        obtain ⟨p, hp, h⟩ := bind_eq_ok.1 h
        obtain ⟨rest, hrest, h⟩ := bind_eq_ok.1 h
        obtain ⟨place, hplace, hp⟩ := bind_eq_ok.1 hp
        obtain rfl := Except.ok.inj h
        obtain rfl := Except.ok.inj hp
        obtain ⟨hleads, hplaces⟩ := ih.1 hrest
        refine ⟨?_, List.forall_mem_cons.2 ⟨hplace, hplaces⟩⟩
        rw [List.map_cons, hleads]
      · rintro ⟨hleads, hplaces⟩
        cases places with
        | nil => cases hleads
        | cons p places =>
            obtain ⟨hhead, htail⟩ := List.cons.inj hleads
            obtain ⟨hplace, hplaces⟩ := List.forall_mem_cons.1 hplaces
            obtain rfl : p.2 = lead := hhead
            refine bind_eq_ok.2 ⟨p, bind_eq_ok.2 ⟨p.1, hplace, rfl⟩, ?_⟩
            exact bind_eq_ok.2 ⟨places, ih.2 ⟨htail, hplaces⟩, rfl⟩

/-- The leads without enrichment and the groups hold every pending lead once. -/
theorem perm_pending (h : pendingPlaces limit t = .ok places) :
    (noData places ++ (byDomain places).flatMap Bucket.items).Perm (pendingLeads limit t) := by
  rw [← (pendingPlaces_eq_ok_iff.1 h).1]
  refine ((perm_flatMap_items _).append_left _).trans ?_
  clear h
  induction places with
  | nil => exact List.Perm.refl _
  | cons p places ih =>
      obtain ⟨place, lead⟩ := p
      cases place with
      | none => exact ih.cons lead
      | some domain => exact List.perm_middle.trans (ih.cons lead)

@[simp]
theorem domainEntries_none (places : List (Option Json × LeadRow)) (lead : LeadRow) :
    domainEntries ((none, lead) :: places) = domainEntries places :=
  rfl

@[simp]
theorem domainEntries_some (places : List (Option Json × LeadRow)) (domain : Json) (lead : LeadRow) :
    domainEntries ((some domain, lead) :: places) = (domain, lead) :: domainEntries places :=
  rfl

/-- The entries of a domain are those of the leads whose place it is. -/
theorem entries_ofDomain (hplaces : ∀ p ∈ places, placeOf p.2.2 = .ok p.1) (domain : Json) :
    ((domainEntries places).filter fun e => e.1 = domain).map Prod.snd =
      (places.map Prod.snd).filter fun lead => placeOf lead.2 = .ok (some domain) := by
  induction places with
  | nil => rfl
  | cons p places ih =>
      obtain ⟨hplace, hrest⟩ := List.forall_mem_cons.1 hplaces
      obtain ⟨place, lead⟩ := p
      rw [List.map_cons]
      cases place with
      | none =>
          rw [domainEntries_none, List.filter_cons_of_neg (by simp [hplace])]
          exact ih hrest
      | some domain' =>
          rw [domainEntries_some]
          by_cases heq : domain' = domain
          · rw [List.filter_cons_of_pos (by simp [heq]),
              List.filter_cons_of_pos (by simp [hplace, heq]), List.map_cons]
            exact congrArg (lead :: ·) (ih hrest)
          · rw [List.filter_cons_of_neg (by simp [heq]),
              List.filter_cons_of_neg (by simp [hplace, heq])]
            exact ih hrest

/-- A group holds the leads of its domain. -/
theorem items_eq_ofDomain (h : pendingPlaces limit t = .ok places)
    (hcompany : company ∈ byDomain places) : company.items = ofDomain limit t company.key := by
  obtain ⟨hleads, hplaces⟩ := pendingPlaces_eq_ok_iff.1 h
  rw [items_eq_filter hcompany, ofDomain, ← hleads]
  exact entries_ofDomain hplaces company.key

/-- There is a group for each domain. -/
theorem exists_group (h : pendingPlaces limit t = .ok places) (hlead : lead ∈ ofDomain limit t domain) :
    ∃ company ∈ byDomain places, company.key = domain := by
  obtain ⟨hleads, hplaces⟩ := pendingPlaces_eq_ok_iff.1 h
  rw [ofDomain, ← hleads, ← entries_ofDomain hplaces] at hlead
  obtain ⟨e, he, -⟩ := List.mem_map.1 hlead
  obtain ⟨hmem, hkey⟩ := List.mem_filter.1 he
  have hkeys : domain ∈ (byDomain places).map Bucket.key :=
    mem_keys_buckets.2 (of_decide_eq_true hkey ▸ List.mem_map_of_mem hmem)
  exact List.mem_map.1 hkeys

end Places

/-! ## Writes -/

section Writes

variable {t : LeadTable} {group : List LeadRow} {q : LeadRow}

theorem applyAll_cons (p : LeadRow) (ps : List LeadRow) (result : Leads.ICPResult) (t : LeadTable) :
    applyAll (p :: ps) result t = applyAll ps result (writeScore (some (p, result)) t) :=
  rfl

/-- The leads of the group get the result, the other rows stay. -/
theorem mem_applyAll (result : Leads.ICPResult) (hgroup : ∀ p ∈ group, p ∈ t.rows)
    (hids : (group.map Prod.fst).Nodup) : q ∈ (applyAll group result t).rows ↔
      (q ∈ t.rows ∧ q ∉ group) ∨ ∃ p ∈ group, q = (p.1, applyResult p.2 result) := by
  induction group generalizing t with
  | nil => simp [applyAll]
  | cons p ps ih =>
      obtain ⟨hp, hps⟩ := List.forall_mem_cons.1 hgroup
      obtain ⟨hnew, hids⟩ := List.nodup_cons.1 hids
      have hother : ∀ p' ∈ ps, p'.1 ≠ p.1 := by
        intro p' hp' heq
        exact hnew (heq ▸ List.mem_map_of_mem hp')
      obtain ⟨t', hupdate, hwrite⟩ := writeScore_spec result hp
      have hrows := fun q => Table.mem_of_update hupdate (q := q)
      have hleft : ∀ p' ∈ ps, p' ∈ t'.rows := fun p' hp' =>
        (hrows p').2 (Or.inl ⟨hps p' hp', hother p' hp'⟩)
      rw [applyAll_cons, hwrite, ih hleft hids, hrows]
      constructor
      · rintro (⟨⟨hq, hne⟩ | ⟨rfl, -⟩, hnot⟩ | ⟨p', hp', rfl⟩)
        · refine Or.inl ⟨hq, ?_⟩
          rw [List.mem_cons, not_or]
          exact ⟨fun heq => hne (heq ▸ rfl), hnot⟩
        · exact Or.inr ⟨p, List.mem_cons_self, rfl⟩
        · exact Or.inr ⟨p', List.mem_cons_of_mem p hp', rfl⟩
      · rintro (⟨hq, hnot⟩ | ⟨p', hp', rfl⟩)
        · rw [List.mem_cons, not_or] at hnot
          exact Or.inl ⟨Or.inl ⟨hq, fun heq => hnot.1 (Table.eq_of_id hq hp heq)⟩, hnot.2⟩
        · rcases List.mem_cons.1 hp' with rfl | hp'
          · exact Or.inl ⟨Or.inr ⟨rfl, p'.2, hp⟩, fun hmem => hother _ hmem rfl⟩
          · exact Or.inr ⟨p', hp', rfl⟩

end Writes

/-! ## The loop -/

section Loop

variable {lib : FieldLib} {answers : Nat → Completion} {i : Nat} {t : LeadTable} {q lead : LeadRow}
  {companies before : List (Bucket Json LeadRow)} {call : GroupCall} {company : Bucket Json LeadRow}

/-- The leads of the groups are rows of the table, each one once. -/
structure Waiting (companies : List (Bucket Json LeadRow)) (t : LeadTable) : Prop where
  rows : ∀ p ∈ companies.flatMap Bucket.items, p ∈ t.rows
  ids : ((companies.flatMap Bucket.items).map Prod.fst).Nodup

/-- A group that has been written leaves the leads of the later groups as they are. -/
theorem Waiting.applyAll {group : List LeadRow} (result : Leads.ICPResult)
    (hgroup : ∀ p ∈ group, p ∈ t.rows)
    (hids : ((group ++ companies.flatMap Bucket.items).map Prod.fst).Nodup)
    (hrows : ∀ p ∈ companies.flatMap Bucket.items, p ∈ t.rows) :
    Waiting companies (applyAll group result t) := by
  rw [List.map_append, List.nodup_append'] at hids
  obtain ⟨hfirst, hlater, hdisjoint⟩ := hids
  refine ⟨?_, hlater⟩
  intro p hp
  apply (mem_applyAll result hgroup hfirst).2
  refine Or.inl ⟨hrows p hp, fun hmem => ?_⟩
  exact hdisjoint (List.mem_map_of_mem hmem) (List.mem_map_of_mem hp)

/-- What comes of a call: the group gets the result, or nothing. -/
inductive CallEffect (lib : FieldLib) (company : Bucket Json LeadRow) (answer : Completion)
    (t : LeadTable) : Option ICPResult → LeadTable → Prop
  | failed : CallEffect lib company answer t none t
  | scored {result : ICPResult} (h : scoreLead lib company.first answer = .ok result) :
      CallEffect lib company answer t (some result) (applyAll company.items result.stored t)

/-- **Step lemma.** The loop stops at a result that cannot be stored, or goes on with the next group. -/
theorem scoreGroups_cons (lib : FieldLib) (answers : Nat → Completion) (i : Nat)
    (company : Bucket Json LeadRow) (companies : List (Bucket Json LeadRow)) (t : LeadTable) :
    scoreGroups lib answers i (company :: companies) t = ⟨t, [⟨company, none⟩], some .dataError⟩ ∨
      ∃ result t', CallEffect lib company (answers i) t result t' ∧
        scoreGroups lib answers i (company :: companies) t =
          { scoreGroups lib answers (i + 1) companies t' with
            calls := ⟨company, result⟩ :: (scoreGroups lib answers (i + 1) companies t').calls } := by
  rw [scoreGroups]
  cases hscore : scoreLead lib company.first (answers i) with
  | error e => exact Or.inr ⟨none, t, .failed, rfl⟩
  | ok result =>
      dsimp only
      split
      · exact Or.inr ⟨some result, _, .scored hscore, rfl⟩
      · exact Or.inl rfl

/-- **What the loop does to a row**: it is as before, or it is a lead of a group that has got the result
of its call. -/
theorem mem_scoreGroups (hwaiting : Waiting companies t)
    (hq : q ∈ (scoreGroups lib answers i companies t).table.rows) :
    q ∈ t.rows ∨ ∃ call ∈ (scoreGroups lib answers i companies t).calls, ∃ result,
      call.result = some result ∧ ∃ p ∈ call.company.items,
        q = (p.1, applyResult p.2 result.stored) := by
  induction companies generalizing i t with
  | nil => exact Or.inl hq
  | cons company companies ih =>
      obtain ⟨hrows, hids⟩ := hwaiting
      rw [List.flatMap_cons] at hrows hids
      obtain ⟨hgroup, hlater⟩ := List.forall_mem_append.1 hrows
      obtain ⟨hfirst, hrest, -⟩ := List.nodup_append'.1 (List.map_append ▸ hids)
      rcases scoreGroups_cons lib answers i company companies t with
        hstop | ⟨result, t', heffect, hnext⟩
      · rw [hstop] at hq
        exact Or.inl hq
      · rw [hnext] at hq ⊢
        cases heffect with
        | failed =>
            rcases ih ⟨hlater, hrest⟩ hq with hold | ⟨call, hcall, hwrite⟩
            · exact Or.inl hold
            · exact Or.inr ⟨call, List.mem_cons_of_mem _ hcall, hwrite⟩
        | scored hscore =>
            rename_i result
            rcases ih (Waiting.applyAll result.stored hgroup hids hlater) hq with
              hnow | ⟨call, hcall, hwrite⟩
            · rcases (mem_applyAll result.stored hgroup hfirst).1 hnow with ⟨hold, -⟩ | hwrite
              · exact Or.inl hold
              · exact Or.inr ⟨_, List.mem_cons_self, result, rfl, hwrite⟩
            · exact Or.inr ⟨call, List.mem_cons_of_mem _ hcall, hwrite⟩

/-- A call is about a group, and its result is that of `score_lead` for the first lead of the group. -/
theorem mem_calls (hcall : call ∈ (scoreGroups lib answers i companies t).calls) :
    ∃ j, companies[j]? = some call.company ∧ ∀ result, call.result = some result →
      scoreLead lib call.company.first (answers (i + j)) = .ok result := by
  induction companies generalizing i t with
  | nil => cases hcall
  | cons company companies ih =>
      rcases scoreGroups_cons lib answers i company companies t with
        hstop | ⟨result, t', heffect, hnext⟩
      · rw [hstop] at hcall
        obtain rfl := List.mem_singleton.1 hcall
        refine ⟨0, rfl, fun result hresult => ?_⟩
        cases hresult
      · rw [hnext] at hcall
        rcases List.mem_cons.1 hcall with rfl | hlater
        · refine ⟨0, rfl, fun r hr => ?_⟩
          cases heffect with
          | failed => cases hr
          | scored hscore =>
              obtain rfl := Option.some.inj hr
              exact hscore
        · obtain ⟨j, hj, hresult⟩ := ih hlater
          have hindex : i + (j + 1) = i + 1 + j := by omega
          refine ⟨j + 1, hj, fun r hr => ?_⟩
          rw [hindex]
          exact hresult r hr

/-- No group is called about twice. -/
theorem calls_sublist :
    ((scoreGroups lib answers i companies t).calls.map GroupCall.company).Sublist companies := by
  induction companies generalizing i t with
  | nil => exact List.Sublist.refl _
  | cons company companies ih =>
      rcases scoreGroups_cons lib answers i company companies t with
        hstop | ⟨result, t', -, hnext⟩
      · rw [hstop]
        exact (List.nil_sublist _).cons_cons company
      · rw [hnext]
        exact ih.cons_cons company

/-- Calls that are not answered change nothing. -/
theorem scoreGroups_raised (hraised : ∀ j < before.length, answers (i + j) = .raised) :
    (scoreGroups lib answers i (before ++ companies) t).table =
      (scoreGroups lib answers (i + before.length) companies t).table := by
  induction before generalizing i with
  | nil => rfl
  | cons company before ih =>
      have hnow : ∀ result, scoreLead lib company.first (answers i) ≠ .ok result := by
        intro result hok
        obtain ⟨-, reply, -, hreply, -⟩ := scoreLead_eq_ok_iff.1 hok
        have hnone : answers i = .raised := hraised 0 (Nat.zero_lt_succ _)
        rw [hnone] at hreply
        cases hreply
      have hlater : ∀ j < before.length, answers (i + 1 + j) = .raised := by
        intro j hj
        have hindex : i + 1 + j = i + (j + 1) := by omega
        rw [hindex]
        exact hraised (j + 1) (Nat.succ_lt_succ hj)
      have hend : i + (before.length + 1) = i + 1 + before.length := by omega
      rw [List.cons_append, scoreGroups, List.length_cons, hend]
      cases hscore : scoreLead lib company.first (answers i) with
      | error e => exact ih hlater
      | ok result => exact absurd hscore (hnow result)

/-- When one call is answered, its group is written. -/
theorem scoreGroups_answered (hprompt : formatLeadData company.first.2 = .ok ())
    (hnow : answers before.length = .content (replyText inflatedResult))
    (hothers : ∀ j, j ≠ before.length → answers j = .raised) :
    (scoreGroups lib answers 0 (before ++ company :: companies) t).table =
      applyAll company.items inflatedResult.stored t := by
  have hbefore : ∀ j < before.length, answers (0 + j) = .raised := by
    intro j hj
    exact hothers (0 + j) (by omega)
  have hafter : ∀ j < companies.length, answers (before.length + 1 + j) = .raised := by
    intro j _
    exact hothers (before.length + 1 + j) (by omega)
  have hscore := @scoreLead_replyText lib company.first inflatedResult hprompt (by decide)
  have hstorable : storable { inflatedResult with rubric := rubricOf lib.py company.first.2 } = true :=
    show storable inflatedResult = true by decide
  have hlast := @scoreGroups_raised lib answers (before.length + 1)
    (applyAll company.items inflatedResult.stored t) [] companies hafter
  rw [List.append_nil] at hlast
  rw [scoreGroups_raised hbefore, Nat.zero_add, scoreGroups, hnow, hscore]
  dsimp only
  rw [if_pos hstorable]
  exact hlast

end Loop

/-! ## Runs of the script -/

section Runs

variable {lib : FieldLib} {openrouterApiKey : String} {limit : Option Nat} {answers : Nat → Completion}
  {answer : Completion} {t : LeadTable} {places : List (Option Json × LeadRow)} {q lead : LeadRow}
  {company : Bucket Json LeadRow} {result : ICPResult}

/-- A result has the rubric of the lead that the prompt was about. -/
theorem rubric_of_scoreLead (h : scoreLead lib lead answer = .ok result) :
    formatLeadData lead.2 = .ok () ∧ answer ≠ .raised ∧ result.rubric = rubricOf lib.py lead.2 := by
  obtain ⟨hprompt, reply, data, rfl, -, hreads, -⟩ := scoreLead_eq_ok_iff.1 h
  exact ⟨hprompt, Completion.noConfusion, hreads.rubric⟩

theorem exists_places_iff : (∃ places, pendingPlaces limit t = .ok places) ↔
    ∀ lead ∈ pendingLeads limit t, ∃ place, placeOf lead.2 = .ok place := by
  constructor
  · rintro ⟨places, h⟩ lead hlead
    obtain ⟨hleads, hplaces⟩ := pendingPlaces_eq_ok_iff.1 h
    rw [← hleads] at hlead
    obtain ⟨p, hp, rfl⟩ := List.mem_map.1 hlead
    exact ⟨p.1, hplaces p hp⟩
  · intro h
    choose! place hplace using h
    refine ⟨(pendingLeads limit t).map fun lead => (place lead, lead), ?_⟩
    refine pendingPlaces_eq_ok_iff.2 ⟨?_, ?_⟩
    · rw [List.map_map]
      exact List.map_id _
    · intro p hp
      obtain ⟨lead, hlead, rfl⟩ := List.mem_map.1 hp
      exact hplace lead hlead

theorem runScript_eq (hkey : openrouterApiKey ≠ "") (h : pendingPlaces limit t = .ok places) :
    runScript lib openrouterApiKey true limit answers t =
      scoreGroups lib answers 0 (byDomain places) (applyAll (noData places) noDataResult.stored t) := by
  simp [runScript, hkey, h]

theorem runScript_error (hkey : openrouterApiKey ≠ "") {e : PyError}
    (h : pendingPlaces limit t = .error e) :
    runScript lib openrouterApiKey true limit answers t = ⟨t, [], some e⟩ := by
  simp [runScript, hkey, h]

theorem mem_rows_of_noData (h : pendingPlaces limit t = .ok places) (hlead : lead ∈ noData places) :
    lead ∈ t.rows ∧ placeOf lead.2 = .ok none := by
  refine ⟨(mem_of_pending ((perm_pending h).subset (List.mem_append_left _ hlead))).1, ?_⟩
  obtain ⟨p, hp, rfl⟩ := List.mem_map.1 hlead
  obtain ⟨hmem, hnone⟩ := List.mem_filter.1 hp
  rw [(pendingPlaces_eq_ok_iff.1 h).2 p hmem, Option.isNone_iff_eq_none.1 hnone]

theorem mem_rows_of_items (h : pendingPlaces limit t = .ok places)
    (hcompany : company ∈ byDomain places) (hlead : lead ∈ company.items) :
    lead ∈ t.rows ∧ placeOf lead.2 = .ok (some company.key) := by
  rw [items_eq_ofDomain h hcompany] at hlead
  obtain ⟨hmem, hplace⟩ := List.mem_filter.1 hlead
  exact ⟨(mem_of_pending hmem).1, of_decide_eq_true hplace⟩

/-- The leads wait for their calls when those without enrichment have been written. -/
theorem waiting_byDomain (h : pendingPlaces limit t = .ok places) :
    Waiting (byDomain places) (applyAll (noData places) noDataResult.stored t) := by
  apply Waiting.applyAll
  · exact fun p hp => (mem_rows_of_noData h hp).1
  · exact ((perm_pending h).map Prod.fst).nodup_iff.2 (nodup_pending limit t)
  · intro p hp
    exact (mem_of_pending ((perm_pending h).subset (List.mem_append_right _ hp))).1

theorem nodup_noData (h : pendingPlaces limit t = .ok places) :
    ((noData places).map Prod.fst).Nodup := by
  have hall := ((perm_pending h).map Prod.fst).nodup_iff.2 (nodup_pending limit t)
  rw [List.map_append] at hall
  exact (List.nodup_append'.1 hall).1

/-- **Run lemma.** Where a row of the table comes from. -/
theorem mem_runScript (hkey : openrouterApiKey ≠ "") (h : pendingPlaces limit t = .ok places)
    (hq : q ∈ (runScript lib openrouterApiKey true limit answers t).table.rows) :
    q ∈ t.rows ∨ (∃ p ∈ noData places, q.1 = p.1) ∨
      ∃ call ∈ (runScript lib openrouterApiKey true limit answers t).calls, ∃ result,
        call.result = some result ∧ ∃ p ∈ call.company.items,
          q = (p.1, applyResult p.2 result.stored) := by
  rw [runScript_eq hkey h] at hq ⊢
  rcases mem_scoreGroups (waiting_byDomain h) hq with hold | hcall
  · rcases (mem_applyAll _ (fun p hp => (mem_rows_of_noData h hp).1) (nodup_noData h)).1 hold with
      ⟨hold, -⟩ | ⟨p, hp, rfl⟩
    · exact Or.inl hold
    · exact Or.inr (Or.inl ⟨p, hp, rfl⟩)
  · exact Or.inr (Or.inr hcall)

/-- **One call for each domain**, whatever the rubrics of its leads. -/
theorem calls_pairwise (hkey : openrouterApiKey ≠ "") :
    (runScript lib openrouterApiKey true limit answers t).calls.Pairwise fun call call' =>
      ∀ lead ∈ call.company.items, ∀ lead' ∈ call'.company.items, placeOf lead.2 ≠ placeOf lead'.2 := by
  cases h : pendingPlaces limit t with
  | error e =>
      rw [runScript_error hkey h]
      exact List.Pairwise.nil
  | ok places =>
      rw [runScript_eq hkey h]
      -- the calls are about some of the groups, in their order
      have hsub := @calls_sublist lib answers 0 (applyAll (noData places) noDataResult.stored t)
        (byDomain places)
      have hkeys : (byDomain places).Pairwise fun company company' => company.key ≠ company'.key :=
        List.pairwise_map.1 (nodup_keys_buckets (domainEntries places))
      refine (List.pairwise_map.1 (hkeys.sublist hsub)).imp_of_mem ?_
      intro call call' hcall hcall' hne lead hlead lead' hlead' heq
      rw [(mem_rows_of_items h (hsub.subset (List.mem_map_of_mem hcall)) hlead).2,
        (mem_rows_of_items h (hsub.subset (List.mem_map_of_mem hcall')) hlead').2] at heq
      exact hne (Option.some.inj (Except.ok.inj heq))

/-- When one call is answered, its group has the result, and no other group has one. -/
theorem one_answered (hkey : openrouterApiKey ≠ "") (h : pendingPlaces limit t = .ok places)
    (hcompany : company ∈ byDomain places) (hprompt : formatLeadData company.first.2 = .ok ()) :
    ∃ answers, (∀ lead ∈ company.items, ∃ q ∈
        (runScript lib openrouterApiKey true limit answers t).table.rows,
          q.1 = lead.1 ∧ q.2.icpScore ≠ none) ∧
      ∀ call ∈ (runScript lib openrouterApiKey true limit answers t).calls, ∀ result,
        call.result = some result → result.rubric = rubricOf lib.py company.first.2 := by
  obtain ⟨before, after, hsplit⟩ := List.append_of_mem hcompany
  let answers : Nat → Completion := fun j =>
    if j = before.length then .content (replyText inflatedResult) else .raised
  have hnow : answers before.length = .content (replyText inflatedResult) := if_pos rfl
  have hothers : ∀ j, j ≠ before.length → answers j = .raised := fun j hj => if_neg hj
  refine ⟨answers, ?_⟩
  rw [runScript_eq hkey h]
  constructor
  · intro lead hlead
    have hwaiting := waiting_byDomain h
    have hids : (company.items.map Prod.fst).Nodup := by
      have hall := hwaiting.ids
      rw [List.map_flatMap, List.nodup_flatMap] at hall
      exact hall.1 company hcompany
    refine ⟨(lead.1, applyResult lead.2 inflatedResult.stored), ?_, rfl, Option.some_ne_none _⟩
    rw [hsplit, scoreGroups_answered hprompt hnow hothers]
    refine (mem_applyAll _ (fun p hp => ?_) hids).2 (Or.inr ⟨lead, hlead, rfl⟩)
    exact hwaiting.rows p (List.mem_flatMap.2 ⟨company, hcompany, hp⟩)
  · intro call hcall result hresult
    obtain ⟨j, hj, hscore⟩ := mem_calls hcall
    obtain ⟨-, hanswer, hrubric⟩ := rubric_of_scoreLead (hscore result hresult)
    -- the other calls raise
    have hindex : j = before.length := by
      by_contra hne
      exact hanswer (hothers (0 + j) (by omega))
    rw [hindex, hsplit, List.getElem?_append_right (Nat.le_refl _), Nat.sub_self] at hj
    rw [hrubric, ← Option.some.inj hj]

/-- A lead that has the rubric of its domain's first lead is scored under its own. -/
theorem ownRubric_of_oneRubric (hkey : openrouterApiKey ≠ "")
    (hrubric : OneRubricPerDomain lib limit t) :
    OwnRubric lib t (runScript lib openrouterApiKey true limit answers t) := by
  refine ⟨?_, calls_pairwise hkey⟩
  intro lead hlead hnone q hq hid hscored
  have hchanged : q ∉ t.rows := by
    intro hold
    rw [Table.eq_of_id hold hlead hid] at hscored
    exact hscored hnone
  cases h : pendingPlaces limit t with
  | error e =>
      rw [runScript_error hkey h] at hq
      exact absurd hq hchanged
  | ok places =>
      rcases mem_runScript hkey h hq with
        hold | ⟨p, hp, hidp⟩ | ⟨call, hcall, result, hresult, p, hp, rfl⟩
      · exact absurd hold hchanged
      · obtain ⟨hpt, hplace⟩ := mem_rows_of_noData h hp
        rw [← Table.eq_of_id hlead hpt (hid.symm.trans hidp)] at hplace
        exact Or.inl hplace
      · -- the row has got the result of a call, whose rubric is that of the first lead of the group
        have hcompany : call.company ∈ byDomain places := by
          rw [runScript_eq hkey h] at hcall
          exact calls_sublist.subset (List.mem_map_of_mem hcall)
        have hscore : ∃ answer, scoreLead lib call.company.first answer = .ok result := by
          rw [runScript_eq hkey h] at hcall
          obtain ⟨j, -, hj⟩ := mem_calls hcall
          exact ⟨_, hj result hresult⟩
        obtain ⟨answer, hscore⟩ := hscore
        obtain ⟨hprompt, -, hfirst⟩ := rubric_of_scoreLead hscore
        obtain rfl := Table.eq_of_id hlead (mem_rows_of_items h hcompany hp).1 hid.symm
        refine Or.inr ⟨call, hcall, result, hresult, hp, hq, hfirst.trans ?_⟩
        rcases List.mem_cons.1 hp with rfl | hother
        · rfl
        · exact (hrubric (exists_places_iff.1 ⟨places, h⟩) _ _ _ (items_eq_ofDomain h hcompany).symm
            hprompt lead hother).symm

/-- Two leads of a domain with different rubrics: one of them gets a score under that of the other. -/
theorem not_ownRubric (hkey : openrouterApiKey ≠ "") (h : pendingPlaces limit t = .ok places)
    (hcompany : company ∈ byDomain places) (hprompt : formatLeadData company.first.2 = .ok ())
    (hlead : lead ∈ company.items) (hne : rubricOf lib.py lead.2 ≠ rubricOf lib.py company.first.2) :
    ∃ answers, ¬ OwnRubric lib t (runScript lib openrouterApiKey true limit answers t) := by
  obtain ⟨answers, hscored, hcalls⟩ := one_answered hkey h hcompany hprompt
  refine ⟨answers, fun hown => ?_⟩
  obtain ⟨q, hq, hid, hscore⟩ := hscored lead hlead
  have hmem : lead ∈ pendingLeads limit t :=
    (perm_pending h).subset (List.mem_append_right _ (List.mem_flatMap.2 ⟨company, hcompany, hlead⟩))
  obtain ⟨hrow, hnone⟩ := mem_of_pending hmem
  rcases hown.rubric lead hrow hnone q hq hid hscore with
    hnodata | ⟨call, hcall, result, hresult, -, -, hrubric⟩
  · rw [(mem_rows_of_items h hcompany hlead).2] at hnodata
    cases hnodata
  · exact hne (hrubric.symm.trans (hcalls call hcall result hresult))

end Runs

/-- Every lead is scored under its own rubric, whatever the model answers, exactly when the leads of
each domain have one rubric. -/
theorem own_rubric_iff (lib : FieldLib) (openrouterApiKey : String) (limit : Option Nat) (t : LeadTable)
    (hkey : openrouterApiKey ≠ "") :
    (∀ answers, OwnRubric lib t (runScript lib openrouterApiKey true limit answers t)) ↔
      OneRubricPerDomain lib limit t := by
  constructor
  · intro hown hplaces domain first others hdomain hprompt lead hlead
    obtain ⟨places, h⟩ := exists_places_iff.2 hplaces
    obtain ⟨company, hcompany, rfl⟩ := exists_group h (hdomain ▸ List.mem_cons_self)
    have hitems := items_eq_ofDomain h hcompany
    rw [hdomain] at hitems
    obtain ⟨hfirst, hothers⟩ := List.cons.inj hitems
    by_contra hne
    obtain ⟨answers, hnot⟩ := not_ownRubric hkey h hcompany (hfirst ▸ hprompt)
      (List.mem_cons_of_mem _ (hothers ▸ hlead)) (hfirst ▸ hne)
    exact hnot (hown answers)
  · intro hrubric answers
    exact ownRubric_of_oneRubric hkey hrubric

/-- A lead of a company with enrichment. -/
def acmeLead (email interest : String) : Lead :=
  { newLead 0 email with
    interests := some [interest]
    responses := .obj [("enrichment", .obj [("domain", .str "acme.ng")])] }

/-- Two colleagues, one after a home and one after an office. -/
def mixedLeads : LeadTable :=
  [acmeLead "ada@acme.ng" "Residential", acmeLead "obi@acme.ng" "Office"].foldl
    (fun t lead => ((t.insert lead).map Prod.snd).getD t) (Table.empty _)

theorem own_rubric_mixedLeads :
    (∀ answers, OwnRubric integerLib mixedLeads
      (runScript integerLib "key" true none answers mixedLeads)) ↔
      OneRubricPerDomain integerLib none mixedLeads :=
  own_rubric_iff integerLib "key" none mixedLeads (by decide)

/-- The second colleague is scored as a residential buyer. -/
theorem mixedLeads_not_ownRubric : ∃ answers, ¬ OwnRubric integerLib mixedLeads
    (runScript integerLib "key" true none answers mixedLeads) := by
  have hrows : mixedLeads.rows =
      [(1, acmeLead "ada@acme.ng" "Residential"), (2, acmeLead "obi@acme.ng" "Office")] := rfl
  have hpending : pendingLeads none mixedLeads = mixedLeads.rows := by
    rw [pendingLeads, leadsById, List.mergeSort_of_pairwise]
    · rfl
    · rw [hrows]
      simp
  have h : pendingPlaces none mixedLeads = .ok (mixedLeads.rows.map fun lead =>
      (some (.str "acme.ng"), lead)) := by
    rw [pendingPlaces, hpending]
    rfl
  let company : Bucket Json LeadRow := ⟨.str "acme.ng", (1, acmeLead "ada@acme.ng" "Residential"),
    [(2, acmeLead "obi@acme.ng" "Office")]⟩
  have hcompany : company ∈ byDomain (mixedLeads.rows.map fun lead => (some (.str "acme.ng"), lead)) :=
    List.mem_cons_self
  have hlead : (2, acmeLead "obi@acme.ng" "Office") ∈ company.items :=
    List.mem_cons_of_mem _ List.mem_cons_self
  exact not_ownRubric (by decide) h hcompany rfl hlead (by decide)

end SalesTrades.Leads.IcpScoring
