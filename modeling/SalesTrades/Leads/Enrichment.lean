import SalesTrades.Leads.BatchScoring
import SalesTrades.Leads.Reconnect
import SalesTrades.Library.Retry

/-!
# The enrichment script

`enrich_leads.py` loads the leads once, asks Apollo for each company domain, and writes what it gets into the
`responses` of the leads of the company, the column that a submission replaces as a whole. Any number of
runs of the script and of submissions are interleaved, one statement at a time. The script only ever adds an
enrichment, of the domain of the lead, to a lead without one, exactly when it finds the leads of each
company that it commits as it has loaded them (`only_adds_iff`).
-/

set_option autoImplicit false

namespace SalesTrades.Leads.Enrichment

open SalesTrades.Library SalesTrades.Library.Run SalesTrades.Library.Interleaving
  SalesTrades.Library.Buckets SalesTrades.Leads.IcpScoring

universe u

/-! ## The leads of a run -/

/-- `_FREE_EMAIL_DOMAINS`. -/
def freeEmailDomains : List String :=
  ["gmail.com", "yahoo.com", "hotmail.com", "outlook.com", "icloud.com", "aol.com", "yahoo.co.uk",
    "live.com", "protonmail.com", "ymail.com", "googlemail.com", "msn.com"]

/-- `_domain_from_email`. -/
def domainFromEmail (py : LowerCase) (email : String) : Option String :=
  let domain := py.lower (strip (afterLastAt email))
  if domain = "" ∨ domain ∈ freeEmailDomains then none else some domain

def enrichmentKey : String := "enrichment"

/-- `"enrichment" in (responses or {})`. -/
def hasEnrichment (responses : Json) : Except PyError Bool :=
  match responses.orElse (.obj []) with
  | .obj members => .ok (Json.hasKey members enrichmentKey)
  | .arr xs => .ok (xs.contains (.str enrichmentKey))
  | .str s => .ok (decide (enrichmentKey.toList <:+: s.toList))
  | .null | .bool _ | .num _ => .error .typeError

/-- `pending`. -/
def pending (leads : List LeadRow) : Except PyError (List LeadRow) := do
  let marked ← leads.mapM fun lead => do
    let done ← hasEnrichment lead.2.responses
    return (done, lead)
  return (marked.filter fun m => !m.1).map Prod.snd

/-- `by_domain`. -/
def companiesOf (py : LowerCase) (leads : List LeadRow) : List (Bucket String LeadRow) :=
  buckets (leads.filterMap fun lead =>
    if lead.2.email = "" then none else (domainFromEmail py lead.2.email).map fun domain => (domain, lead))

/-- The leads of the query, by their domains. -/
def loadCompanies (py : LowerCase) (limit : Option Nat) (t : LeadTable) :
    Except PyError (List (Bucket String LeadRow)) := do
  return companiesOf py (← pending (leadsById limit t))

/-! ## Apollo -/

/-- `_KEPT_FIELDS`. -/
def keptFields : List String :=
  ["estimated_num_employees", "annual_revenue", "annual_revenue_printed", "organization_revenue_printed",
    "industry", "industries", "keywords", "country", "city", "linkedin_url", "short_description",
    "founded_year", "publicly_traded_symbol"]

/-- How `_enrich_domain` fails. -/
inductive ApolloError where
  /-- `RetryableApolloError`. -/
  | retryable
  /-- `RuntimeError`, which stops the batch. -/
  | stopping
  | other
  deriving DecidableEq

/-- `resp.json()` is `none` when the body is no JSON. -/
inductive ApolloAnswer where
  | response (statusCode : Nat) (json : Option Json)
  | transportError

/-- `{k: org.get(k) for k in _KEPT_FIELDS if org.get(k) is not None}`. -/
def trimmed (org : List (String × Json)) : List (String × Json) :=
  keptFields.filterMap fun k => if Json.member org k = .null then none else some (k, Json.member org k)

/-- The body of a successful response. -/
def organizationOf (json : Option Json) : Except ApolloError (Option (List (String × Json))) :=
  match json with
  | some (.obj members) =>
      let org := Json.member members "organization"
      if !org.truthy then .ok none
      else
        match org with
        | .obj org => .ok (some (trimmed org))
        | _ => .error .other
  | _ => .error .other

/-- An attempt of `_enrich_domain`. -/
def attempt : ApolloAnswer → Except ApolloError (Option (List (String × Json)))
  | .transportError => .error .other
  | .response statusCode json =>
      if statusCode = 429 then .error .retryable
      else if statusCode = 401 ∨ statusCode = 403 then .error .stopping
      else if 500 ≤ statusCode then .error .retryable
      else if statusCode < 200 ∨ 300 ≤ statusCode then .error .other
      else organizationOf json

/-- `_enrich_domain`, with the answers to its attempts. -/
def enrichDomain (answers : Nat → ApolloAnswer) : Except ApolloError (Option (List (String × Json))) :=
  (Retry.retry (fun e => decide (e = ApolloError.retryable)) 3 (fun i => attempt (answers i))
    (fun _ s => s) ()).1

/-- The enrichment of the leads of a domain. -/
def enrichmentOf (org : List (String × Json)) (domain now : String) : Json :=
  .obj (org ++ [("domain", .str domain), ("enriched_at", .str now)])

/-! ## Writing -/

/-- `{**(lead.responses or {}), "enrichment": enrichment}`. -/
def enriched (responses enrichment : Json) : Except PyError Json :=
  match responses.orElse (.obj []) with
  | .obj members => .ok (.obj (setMember members enrichmentKey enrichment))
  | _ => .error .typeError

/-- The leads of a company get the enrichment. -/
def enrichCompany (enrichment : Json) : List LeadRow → LeadTable → Except PyError LeadTable
  | [], t => .ok t
  | lead :: rest, t => do
      let responses ← enriched lead.2.responses enrichment
      let written ← update t lead { lead.2 with responses := responses }
      enrichCompany enrichment rest written.2

/-! ## Runs of the script and submissions -/

inductive EnrichPhase where
  | start
  | enriching (companies : List (Bucket String LeadRow))
  | ended (raised : Option PyError)

/-- A run of the script with `--commit`, or a submission to a campaign. -/
inductive Writer where
  | script (limit : Option Nat) (phase : EnrichPhase)
  | submission (campaign : Campaign) (call : CaptureCall)

/-- What a process reads from outside at a step. -/
inductive WriterInput where
  | go
  | apollo (answers : Nat → ApolloAnswer) (now : String)
  | clock (now : Datetime)

section Steps

variable (py : LowerCase)

/-- A statement of `run`. A company is committed at once. -/
def scriptStep (limit : Option Nat) (input : WriterInput) (t : LeadTable) (phase : EnrichPhase) :
    Option (LeadTable × EnrichPhase) :=
  match phase, input with
  | .start, .go =>
      match loadCompanies py limit t with
      | .error e => some (t, .ended (some e))
      | .ok companies => some (t, .enriching companies)
  | .enriching [], .go => some (t, .ended none)
  | .enriching (company :: rest), .apollo answers now =>
      match enrichDomain answers with
      | .error .stopping => some (t, .ended none)
      | .error _ | .ok none => some (t, .enriching rest)
      | .ok (some org) =>
          -- neither the writes nor the commit are inside the `try`
          match enrichCompany (enrichmentOf org company.key now) company.items t with
          | .error e => some (t, .ended (some e))
          | .ok t' => some (t', .enriching rest)
  | _, _ => none

def writerStep (input : WriterInput) (t : LeadTable) : Writer → Option (LeadTable × Writer)
  | .script limit phase => (scriptStep py limit input t phase).map fun r => (r.1, .script limit r.2)
  | .submission campaign call =>
      match input with
      | .clock now => (captureStep py campaign now t call).map fun r => (r.1, .submission campaign r.2)
      | .go | .apollo _ _ => none

end Steps

/-- The companies a run has still to ask about. -/
def EnrichPhase.companies : EnrichPhase → List (Bucket String LeadRow)
  | .enriching companies => companies
  | .start | .ended _ => []

def Writer.companies : Writer → List (Bucket String LeadRow)
  | .script _ phase => phase.companies
  | .submission _ _ => []

/-- `{**(responses or {})}` goes through. -/
def takesMembers (responses : Json) : Bool :=
  match responses.orElse (.obj []) with
  | .obj _ => true
  | _ => false

/-- The leads that a step writes as their run has loaded them, with the enrichment. -/
def Writer.committing (input : WriterInput) : Writer → Option (List LeadRow × Json)
  | .script _ (.enriching (company :: _)) =>
      match input with
      | .apollo answers now =>
          match enrichDomain answers with
          | .ok (some org) =>
              if company.items.all fun lead => takesMembers lead.2.responses then
                some (company.items, enrichmentOf org company.key now)
              else none
          | _ => none
      | _ => none
  | _ => none

/-! ## The members of `responses` -/

/-- A member of `responses or {}`. -/
def entryOf (responses : Json) (key : String) : Option Json :=
  match responses.orElse (.obj []) with
  | .obj members => (members.find? fun m => m.1 == key).map Prod.snd
  | _ => none

section Members

variable {responses new enrichment : Json} {members : List (String × Json)}

theorem enriched_eq_ok (h : enriched responses enrichment = .ok new) : ∃ members,
    responses.orElse (.obj []) = .obj members ∧ new = .obj (setMember members enrichmentKey enrichment) := by
  unfold enriched at h
  split at h
  · rename_i members hmembers
    exact ⟨members, hmembers, (Except.ok.inj h).symm⟩
  · cases h

theorem enriched_isOk (enrichment : Json) (h : takesMembers responses = true) :
    ∃ new, enriched responses enrichment = .ok new := by
  unfold takesMembers at h
  split at h
  · rename_i members hmembers
    exact ⟨_, by rw [enriched, hmembers]⟩
  · cases h

/-- What the script makes of `responses`. -/
theorem entryOf_enriched (h : enriched responses enrichment = .ok new) (key : String) :
    entryOf new key = if enrichmentKey = key then some enrichment else entryOf responses key := by
  obtain ⟨members, hmembers, rfl⟩ := enriched_eq_ok h
  simp only [entryOf, orElse_setMember, hmembers]
  exact find?_setMember members enrichmentKey enrichment key

/-- The script writes what is not there yet. -/
theorem enriched_ne (hfresh : hasEnrichment responses = .ok false)
    (h : enriched responses enrichment = .ok new) : new ≠ responses := by
  obtain ⟨members, -, rfl⟩ := enriched_eq_ok h
  rintro rfl
  simp only [hasEnrichment, orElse_setMember, hasKey_setMember] at hfresh
  cases hfresh

end Members

/-! ## What a run takes up -/

/-- The leads of a company as they have been loaded: they have its domain and no enrichment, and they are
still there. -/
structure Taken (py : LowerCase) (t : LeadTable) (company : Bucket String LeadRow) : Prop where
  nodup : (company.items.map Prod.fst).Nodup
  domain : ∀ lead ∈ company.items, domainFromEmail py lead.2.email = some company.key
  fresh : ∀ lead ∈ company.items, hasEnrichment lead.2.responses = .ok false
  present : ∀ lead ∈ company.items, ∃ q ∈ t.rows, q.1 = lead.1 ∧ q.2.email = lead.2.email

/-- Every lead is still there, with its address. -/
def KeepsLeads (t t' : LeadTable) : Prop := ∀ q ∈ t.rows, ∃ q' ∈ t'.rows, q'.1 = q.1 ∧ q'.2.email = q.2.email

section Load

variable {py : LowerCase} {t t' : LeadTable} {leads taken : List LeadRow} {company : Bucket String LeadRow}

theorem KeepsLeads.refl (t : LeadTable) : KeepsLeads t t := fun q hq => ⟨q, hq, rfl, rfl⟩

theorem Taken.mono (h : Taken py t company) (hkeeps : KeepsLeads t t') : Taken py t' company where
  nodup := h.nodup
  domain := h.domain
  fresh := h.fresh
  present lead hlead := by
    obtain ⟨q, hq, hid, hemail⟩ := h.present lead hlead
    obtain ⟨q', hq', hid', hemail'⟩ := hkeeps q hq
    exact ⟨q', hq', hid'.trans hid, hemail'.trans hemail⟩

theorem pending_spec (h : pending leads = .ok taken) :
    taken.Sublist leads ∧ ∀ lead ∈ taken, hasEnrichment lead.2.responses = .ok false := by
  have hmarked : ∀ {leads : List LeadRow} {marked : List (Bool × LeadRow)},
      (leads.mapM fun lead => do
        let done ← hasEnrichment lead.2.responses
        return (done, lead)) = Except.ok marked →
      marked.map Prod.snd = leads ∧ ∀ m ∈ marked, hasEnrichment m.2.2.responses = .ok m.1 := by
    intro leads
    induction leads with
    | nil =>
        intro marked h
        obtain rfl := Except.ok.inj h
        exact ⟨rfl, fun m hm => absurd hm List.not_mem_nil⟩
    | cons lead rest ih =>
        intro marked h
        rw [List.mapM_cons] at h
        obtain ⟨m, hm, h⟩ := bind_eq_ok.1 h
        obtain ⟨later, hlater, h⟩ := bind_eq_ok.1 h
        obtain ⟨done, hdone, hm⟩ := bind_eq_ok.1 hm
        cases hm
        cases h
        obtain ⟨hleads, hall⟩ := ih hlater
        exact ⟨congrArg (lead :: ·) hleads, List.forall_mem_cons.2 ⟨hdone, hall⟩⟩
  rw [pending] at h
  obtain ⟨marked, hmapM, h⟩ := bind_eq_ok.1 h
  cases h
  obtain ⟨hleads, hall⟩ := hmarked hmapM
  refine ⟨hleads ▸ List.filter_sublist.map Prod.snd, fun lead hlead => ?_⟩
  obtain ⟨m, hm, rfl⟩ := List.mem_map.1 hlead
  obtain ⟨hm, hdone⟩ := List.mem_filter.1 hm
  have hfalse : m.1 = false := by simpa using hdone
  exact (hall m hm).trans (congrArg Except.ok hfalse)

/-- The leads of a company are leads that were loaded, with its domain. -/
theorem companiesOf_spec (h : company ∈ companiesOf py leads) :
    company.items.Sublist leads ∧ ∀ lead ∈ company.items, domainFromEmail py lead.2.email = some company.key := by
  rw [items_eq_filter h]
  constructor
  · refine (List.filter_sublist.map Prod.snd).trans ?_
    clear h
    induction leads with
    | nil => exact List.Sublist.refl _
    | cons lead rest ih =>
        rw [List.filterMap_cons]
        split
        · exact ih.cons lead
        · rename_i entry hentry
          have hlead : entry.2 = lead := by
            split at hentry
            · cases hentry
            · obtain ⟨domain, -, rfl⟩ := Option.map_eq_some_iff.1 hentry
              rfl
          rw [List.map_cons, hlead]
          exact ih.cons_cons lead
  · intro lead hlead
    obtain ⟨entry, hentry, rfl⟩ := List.mem_map.1 hlead
    obtain ⟨hentry, hkey⟩ := List.mem_filter.1 hentry
    obtain ⟨lead, -, heq⟩ := List.mem_filterMap.1 hentry
    split at heq
    · cases heq
    · obtain ⟨domain, hdomain, rfl⟩ := Option.map_eq_some_iff.1 heq
      rw [← of_decide_eq_true hkey]
      exact hdomain

theorem leadsById_spec (limit : Option Nat) (t : LeadTable) : (∀ lead ∈ leadsById limit t, lead ∈ t.rows) ∧
    ((leadsById limit t).map Prod.fst).Nodup := by
  have hperm : (t.rows.mergeSort fun a b => a.1 ≤ b.1).Perm t.rows := List.mergeSort_perm _ _
  have hsub : (leadsById limit t).Sublist (t.rows.mergeSort fun a b => a.1 ≤ b.1) := by
    unfold leadsById
    split
    · exact List.Sublist.refl _
    · exact List.Sublist.refl _
    · exact List.take_sublist _ _
  exact ⟨fun lead hlead => hperm.subset (hsub.subset hlead),
    ((hperm.map Prod.fst).nodup_iff.2 t.nodup).sublist (hsub.map Prod.fst)⟩

theorem taken_of_loadCompanies {limit : Option Nat} {companies : List (Bucket String LeadRow)}
    (h : loadCompanies py limit t = .ok companies) (hcompany : company ∈ companies) : Taken py t company := by
  rw [loadCompanies] at h
  obtain ⟨pendingLeads, hpending, h⟩ := bind_eq_ok.1 h
  cases h
  obtain ⟨hloaded, hnodup⟩ := leadsById_spec limit t
  obtain ⟨hsub, hfresh⟩ := pending_spec hpending
  obtain ⟨hitems, hdomain⟩ := companiesOf_spec hcompany
  refine ⟨hnodup.sublist ((hitems.trans hsub).map Prod.fst), hdomain, ?_, ?_⟩
  · exact fun lead hlead => hfresh lead (hitems.subset hlead)
  · exact fun lead hlead => ⟨lead, hloaded lead (hsub.subset (hitems.subset hlead)), rfl, rfl⟩

end Load

/-! ## What a run writes -/

section Write

variable {py : LowerCase} {t t' : LeadTable} {leads : List LeadRow} {enrichment : Json}

/-- An UPDATE of `responses` alone. -/
theorem write_responses (loaded current : Lead) {responses : Json} (hne : responses ≠ loaded.responses) :
    loaded.write { loaded with responses := responses } current = { current with responses := responses } := by
  simp [Lead.write, Submitted.write, dirtyWrite, hne]

theorem takesMembers_of_enrichCompany (h : enrichCompany enrichment leads t = .ok t') :
    (leads.all fun lead => takesMembers lead.2.responses) = true := by
  induction leads generalizing t with
  | nil => rfl
  | cons lead rest ih =>
      rw [enrichCompany] at h
      obtain ⟨responses, hresponses, h⟩ := bind_eq_ok.1 h
      obtain ⟨written, -, h⟩ := bind_eq_ok.1 h
      obtain ⟨members, hmembers, -⟩ := enriched_eq_ok hresponses
      rw [List.all_cons, ih h, Bool.and_true]
      simp only [takesMembers, hmembers]

/-- The leads of a company get the enrichment over what was loaded, the other leads stay. -/
theorem enrichCompany_ok (hnodup : (leads.map Prod.fst).Nodup)
    (hfresh : ∀ lead ∈ leads, hasEnrichment lead.2.responses = .ok false)
    (hpresent : ∀ lead ∈ leads, ∃ q ∈ t.rows, q.1 = lead.1)
    (htakes : (leads.all fun lead => takesMembers lead.2.responses) = true) :
    ∃ t', enrichCompany enrichment leads t = .ok t' ∧
      (∀ q ∈ t.rows, (∀ lead ∈ leads, q.1 ≠ lead.1) → q ∈ t'.rows) ∧
      ∀ lead ∈ leads, ∀ q ∈ t.rows, q.1 = lead.1 → ∃ responses,
        enriched lead.2.responses enrichment = .ok responses ∧
          (q.1, { q.2 with responses := responses }) ∈ t'.rows := by
  induction leads generalizing t with
  | nil => exact ⟨t, rfl, fun q hq _ => hq, fun lead hlead => absurd hlead List.not_mem_nil⟩
  | cons lead rest ih =>
      obtain ⟨hnew, hnodup⟩ := List.nodup_cons.1 hnodup
      obtain ⟨hlead, hfresh⟩ := List.forall_mem_cons.1 hfresh
      obtain ⟨⟨current, hcurrent, hid⟩, hpresent⟩ := List.forall_mem_cons.1 hpresent
      rw [List.all_cons, Bool.and_eq_true] at htakes
      obtain ⟨responses, hresponses⟩ := enriched_isOk enrichment htakes.1
      have hrow : (lead.1, current.2) ∈ t.rows := hid ▸ hcurrent
      obtain ⟨t₁, hupdate, htable⟩ :=
        @update_eq t lead { lead.2 with responses := responses } current.2 hrow rfl rfl
      rw [write_responses _ _ (enriched_ne hlead hresponses)] at hupdate htable
      -- the leads behind it have other ids
      have hother : ∀ other ∈ rest, other.1 ≠ lead.1 := fun other hmem heq =>
        hnew (heq ▸ List.mem_map_of_mem hmem)
      have hkept : ∀ q ∈ t.rows, q.1 ≠ lead.1 → q ∈ t₁.rows := fun q hq hne =>
        (Table.mem_of_update htable).2 (Or.inl ⟨hq, hne⟩)
      have hwritten : (lead.1, { current.2 with responses := responses }) ∈ t₁.rows :=
        (Table.mem_of_update htable).2 (Or.inr ⟨rfl, current.2, hrow⟩)
      have hpresent' : ∀ other ∈ rest, ∃ q ∈ t₁.rows, q.1 = other.1 := by
        intro other hmem
        obtain ⟨q, hq, hqid⟩ := hpresent other hmem
        exact ⟨q, hkept q hq (hqid ▸ hother other hmem), hqid⟩
      obtain ⟨t', hrest, hstays, hgets⟩ := ih hnodup hfresh hpresent' htakes.2
      refine ⟨t', ?_, fun q hq hnone => ?_, fun other hmem q hq hqid => ?_⟩
      · rw [enrichCompany]
        exact bind_eq_ok.2 ⟨responses, hresponses, bind_eq_ok.2 ⟨_, hupdate, hrest⟩⟩
      · obtain ⟨hne, hnone⟩ := List.forall_mem_cons.1 hnone
        exact hstays q (hkept q hq hne) hnone
      · rcases List.mem_cons.1 hmem with rfl | hmem
        · have hq' : q = (other.1, current.2) := Table.eq_of_id hq hrow hqid
          refine ⟨responses, hresponses, ?_⟩
          rw [hq']
          exact hstays _ hwritten fun later hlater heq => hother later hlater heq.symm
        · exact hgets other hmem q (hkept q hq (hqid ▸ hother other hmem)) hqid

end Write

/-! ## Steps -/

section Steps

variable {py : LowerCase} {t t' : LeadTable} {limit : Option Nat} {input : WriterInput}
  {phase phase' : EnrichPhase} {campaign : Campaign} {call call' : CaptureCall} {now : Datetime}

theorem keepsLeads_mergeStep {payload : LeadCreateRequest} {existing : LeadRow} {p : CapturePhase}
    (h : mergeStep py campaign payload now t existing = (t', p)) : KeepsLeads t t' := by
  unfold mergeStep at h
  split at h
  · cases h
    exact KeepsLeads.refl t
  · rename_i row t₁ hupdate
    cases h
    intro q hq
    obtain ⟨hcampaign, hemail⟩ := mergedLead_key py campaign payload now existing.2
    by_cases hid : q.1 = existing.1
    · have hrow : (existing.1, q.2) ∈ t.rows := hid ▸ hq
      obtain ⟨t₂, hsame, htable⟩ := update_eq hrow hcampaign hemail
      rw [hsame, Except.ok.injEq, Prod.mk.injEq] at hupdate
      obtain ⟨-, rfl⟩ := hupdate
      refine ⟨_, (Table.mem_of_update htable).2 (Or.inr ⟨rfl, q.2, hrow⟩), hid.symm, ?_⟩
      simp [Lead.write, hemail]
    · obtain ⟨current, -, -, htable⟩ := update_ok hupdate
      exact ⟨q, (Table.mem_of_update htable).2 (Or.inl ⟨hq, hid⟩), rfl, rfl⟩

theorem keepsLeads_capture (h : captureStep py campaign now t call = some (t', call')) : KeepsLeads t t' := by
  obtain ⟨⟨t₁, p⟩, hphase, heq⟩ := Option.map_eq_some_iff.1 h
  cases heq
  unfold capturePhaseStep at hphase
  split at hphase
  · cases hphase
    exact KeepsLeads.refl _
  · exact keepsLeads_mergeStep (Option.some.inj hphase)
  · -- an INSERT
    split at hphase
    · rename_i row t₂ hcreate
      cases hphase
      rcases create_eq t (mergedLead py campaign call.payload now none) with
        ⟨-, t₃, heq, hinsert⟩ | ⟨-, heq⟩
      · rw [hcreate] at heq
        cases heq
        exact fun q hq => ⟨q, (Table.mem_of_insert hinsert).2 (Or.inl hq), rfl, rfl⟩
      · rw [hcreate] at heq
        cases heq
    · cases hphase
      exact KeepsLeads.refl _
    · cases hphase
      exact KeepsLeads.refl _
  · cases hphase
    exact KeepsLeads.refl _
  · split at hphase
    · cases hphase
      exact KeepsLeads.refl _
    · cases hphase
      exact KeepsLeads.refl _
  · exact keepsLeads_mergeStep (Option.some.inj hphase)
  · cases hphase
  · cases hphase

theorem keptFields_of_attempt {answer : ApolloAnswer} {org : List (String × Json)}
    (h : attempt answer = .ok (some org)) : ∀ m ∈ org, m.1 ∈ keptFields := by
  cases answer with
  | transportError => cases h
  | response statusCode json =>
      simp only [attempt] at h
      split_ifs at h
      unfold organizationOf at h
      split at h
      · dsimp only at h
        split_ifs at h
        · cases h
        · split at h
          · cases h
            intro m hm
            obtain ⟨k, hk, hm⟩ := List.mem_filterMap.1 hm
            split at hm
            · cases hm
            · obtain rfl := Option.some.inj hm
              exact hk
          · cases h
      · cases h

/-- What Apollo says of a company is about the fields that are kept. -/
theorem keptFields_of_enrichDomain {answers : Nat → ApolloAnswer} {org : List (String × Json)}
    (h : enrichDomain answers = .ok (some org)) : ∀ m ∈ org, m.1 ∈ keptFields := by
  rw [enrichDomain, Retry.retry_eq] at h
  exact keptFields_of_attempt h

theorem domain_of_enrichmentOf {org : List (String × Json)} (h : ∀ m ∈ org, m.1 ∈ keptFields)
    (domain now : String) : ∃ members, enrichmentOf org domain now = .obj members ∧
      Json.member members "domain" = .str domain := by
  refine ⟨_, rfl, ?_⟩
  have hnone : (org.find? fun m => m.1 == "domain") = none := by
    rw [List.find?_eq_none]
    intro m hm heq
    have hkept := h m hm
    rw [eq_of_beq heq] at hkept
    exact absurd hkept (by decide)
  rw [Json.member, List.find?_append, hnone]
  rfl

/-- A statement of the script commits a company or leaves the leads alone. -/
theorem scriptStep_spec (htaken : ∀ company ∈ phase.companies, Taken py t company)
    (h : scriptStep py limit input t phase = some (t', phase')) :
    ((Writer.script limit phase).committing input = none ∧ t' = t ∧
      ∀ company ∈ phase'.companies, Taken py t company) ∨
    ∃ company rest org now, phase = .enriching (company :: rest) ∧ phase' = .enriching rest ∧
      (∀ m ∈ org, m.1 ∈ keptFields) ∧
      (Writer.script limit phase).committing input = some (company.items, enrichmentOf org company.key now) ∧
      enrichCompany (enrichmentOf org company.key now) company.items t = .ok t' := by
  unfold scriptStep at h
  split at h
  · left
    split at h
    · cases h
      exact ⟨rfl, rfl, fun company hmem => absurd hmem List.not_mem_nil⟩
    · rename_i companies hload
      cases h
      exact ⟨rfl, rfl, fun company hmem => taken_of_loadCompanies hload hmem⟩
  · cases h
    exact Or.inl ⟨rfl, rfl, fun company hmem => absurd hmem List.not_mem_nil⟩
  · rename_i company rest answers now
    have hrest : ∀ company' ∈ rest, Taken py t company' := fun company' hmem =>
      htaken company' (List.mem_cons_of_mem _ hmem)
    split at h
    · rename_i hanswer
      cases h
      left
      refine ⟨?_, rfl, fun company hmem => absurd hmem List.not_mem_nil⟩
      simp only [Writer.committing, hanswer]
    · rename_i e _ hanswer
      cases h
      left
      refine ⟨?_, rfl, hrest⟩
      simp only [Writer.committing, hanswer]
    · rename_i hanswer
      cases h
      left
      refine ⟨?_, rfl, hrest⟩
      simp only [Writer.committing, hanswer]
    · rename_i org hanswer
      have hcompany := htaken company List.mem_cons_self
      split at h
      · -- a lead whose `responses` are no mapping
        rename_i e hraised
        cases h
        left
        refine ⟨?_, rfl, fun company hmem => absurd hmem List.not_mem_nil⟩
        have hnot : ¬ (company.items.all fun lead => takesMembers lead.2.responses) = true := by
          intro htakes
          obtain ⟨t₁, hok, -⟩ := enrichCompany_ok hcompany.nodup hcompany.fresh
            (fun lead hlead => (hcompany.present lead hlead).imp fun q hq => ⟨hq.1, hq.2.1⟩) htakes
          rw [hraised] at hok
          cases hok
        simp only [Writer.committing, hanswer, if_neg hnot]
      · rename_i t₁ hwritten
        cases h
        right
        refine ⟨company, rest, org, now, rfl, rfl, keptFields_of_enrichDomain hanswer, ?_, hwritten⟩
        simp only [Writer.committing, hanswer, if_pos (takesMembers_of_enrichCompany hwritten)]
  · cases h

end Steps

/-! ## Runs -/

section Runs

variable {ι : Type u} [DecidableEq ι]

/-- Runs of the script and submissions over the leads. -/
abbrev Writers (ι : Type u) : Type u := Config ι LeadTable Writer

/-- The other members of `responses` stay, and an enrichment only comes, from the domain of the address,
where there was none. -/
def OnlyAdded (py : LowerCase) (lead lead' : Lead) : Prop :=
  (∀ key ≠ enrichmentKey, entryOf lead'.responses key = entryOf lead.responses key) ∧
    (entryOf lead'.responses enrichmentKey = entryOf lead.responses enrichmentKey ∨
      (entryOf lead.responses enrichmentKey = none ∧ ∃ members domain,
        entryOf lead'.responses enrichmentKey = some (.obj members) ∧
        Json.member members "domain" = .str domain ∧ domainFromEmail py lead.email = some domain))

/-- A statement of the script only adds enrichments. -/
def OnlyAdds (py : LowerCase) (e : ι × WriterInput) (c c' : Writers ι) : Prop :=
  (∃ limit phase, c.proc e.1 = .script limit phase) →
    ∀ q ∈ c.shared.rows, ∃ q' ∈ c'.shared.rows, q'.1 = q.1 ∧ OnlyAdded py q.2 q'.2

/-- The leads of a company that is committed are as they were loaded, or have the very enrichment. -/
def FindsLoaded (e : ι × WriterInput) (c : Writers ι) : Prop :=
  ∀ write ∈ (c.proc e.1).committing e.2, ∀ lead ∈ write.1, ∀ q ∈ c.shared.rows, q.1 = lead.1 →
    (∀ key ≠ enrichmentKey, entryOf q.2.responses key = entryOf lead.2.responses key) ∧
      (entryOf q.2.responses enrichmentKey = none ∨ entryOf q.2.responses enrichmentKey = some write.2)

/-- What the runs have taken up. -/
def AllTaken (py : LowerCase) (c : Writers ι) : Prop :=
  ∀ i, ∀ company ∈ (c.proc i).companies, Taken py c.shared company

variable {py : LowerCase} {es : List (ι × WriterInput)} {e : ι × WriterInput} {c c' : Writers ι}

theorem onlyAdded_refl (lead : Lead) : OnlyAdded py lead lead := ⟨fun _ _ => rfl, Or.inl rfl⟩

/-- A company is committed: its leads are written over what was loaded. -/
theorem commit_spec {company : Bucket String LeadRow} {enrichment : Json}
    {t t' : LeadTable} (hcompany : Taken py t company)
    (hwritten : enrichCompany enrichment company.items t = .ok t') :
    (∀ q ∈ t.rows, (∀ lead ∈ company.items, q.1 ≠ lead.1) → q ∈ t'.rows) ∧
      ∀ lead ∈ company.items, ∀ q ∈ t.rows, q.1 = lead.1 → ∃ responses,
        enriched lead.2.responses enrichment = .ok responses ∧
          (q.1, { q.2 with responses := responses }) ∈ t'.rows := by
  obtain ⟨t₁, hok, hstays, hgets⟩ := enrichCompany_ok hcompany.nodup hcompany.fresh
    (fun lead hlead => (hcompany.present lead hlead).imp fun q hq => ⟨hq.1, hq.2.1⟩)
    (takesMembers_of_enrichCompany hwritten)
  rw [hwritten] at hok
  obtain rfl := Except.ok.inj hok
  exact ⟨hstays, hgets⟩

theorem keepsLeads_commit {company : Bucket String LeadRow} {enrichment : Json} {t t' : LeadTable}
    (hcompany : Taken py t company) (hwritten : enrichCompany enrichment company.items t = .ok t') :
    KeepsLeads t t' := by
  obtain ⟨hstays, hgets⟩ := commit_spec hcompany hwritten
  intro q hq
  by_cases hmem : ∃ lead ∈ company.items, q.1 = lead.1
  · obtain ⟨lead, hlead, hid⟩ := hmem
    obtain ⟨responses, -, hrow⟩ := hgets lead hlead q hq hid
    exact ⟨_, hrow, rfl, rfl⟩
  · push Not at hmem
    exact ⟨q, hstays q hq hmem, rfl, rfl⟩

theorem allTaken_fire (h : AllTaken py c) (hfire : fire (writerStep py) e c = some c') : AllTaken py c' := by
  obtain ⟨t', writer', hstep, rfl⟩ := fire_eq_some.1 hfire
  have hmove : KeepsLeads c.shared t' ∧ ∀ company ∈ writer'.companies, Taken py t' company := by
    cases hwriter : c.proc e.1 with
    | script limit phase =>
        rw [hwriter] at hstep
        obtain ⟨⟨t₁, phase'⟩, hscript, heq⟩ := Option.map_eq_some_iff.1 hstep
        cases heq
        have htaken : ∀ company ∈ phase.companies, Taken py c.shared company := by
          have hown := h e.1
          rwa [hwriter] at hown
        rcases scriptStep_spec htaken hscript with
          ⟨-, rfl, hnext⟩ | ⟨company, rest, org, now, rfl, rfl, -, -, hwritten⟩
        · exact ⟨KeepsLeads.refl _, hnext⟩
        · have hkeeps := keepsLeads_commit (htaken company List.mem_cons_self) hwritten
          exact ⟨hkeeps, fun other hmem => (htaken other (List.mem_cons_of_mem _ hmem)).mono hkeeps⟩
    | submission campaign call =>
        rw [hwriter] at hstep
        cases hinput : e.2 with
        | clock now =>
            rw [hinput] at hstep
            obtain ⟨⟨t₁, call'⟩, hcapture, heq⟩ := Option.map_eq_some_iff.1 hstep
            cases heq
            exact ⟨keepsLeads_capture hcapture, fun company hmem => absurd hmem List.not_mem_nil⟩
        | go =>
            rw [hinput] at hstep
            cases hstep
        | apollo answers now =>
            rw [hinput] at hstep
            cases hstep
  intro i company hmem
  by_cases hi : i = e.1
  · subst hi
    simp only [Function.update_self] at hmem
    exact hmove.2 company hmem
  · simp only [Function.update_of_ne hi] at hmem
    exact (h i company hmem).mono hmove.1

/-- A statement of the script only adds enrichments exactly when it commits over what it has loaded. -/
theorem onlyAdds_fire_iff (h : AllTaken py c) (hfire : fire (writerStep py) e c = some c') :
    OnlyAdds py e c c' ↔ FindsLoaded e c := by
  obtain ⟨t', writer', hstep, rfl⟩ := fire_eq_some.1 hfire
  cases hwriter : c.proc e.1 with
  | submission campaign call =>
      refine iff_of_true ?_ ?_
      · rintro ⟨limit, phase, hscript⟩
        rw [hwriter] at hscript
        cases hscript
      · intro write hwrite
        rw [hwriter] at hwrite
        cases hwrite
  | script limit phase =>
      rw [hwriter] at hstep
      obtain ⟨⟨t₁, phase'⟩, hscript, heq⟩ := Option.map_eq_some_iff.1 hstep
      cases heq
      have htaken : ∀ company ∈ phase.companies, Taken py c.shared company := by
        have hown := h e.1
        rwa [hwriter] at hown
      rcases scriptStep_spec htaken hscript with
        ⟨hnone, rfl, -⟩ | ⟨company, rest, org, now, rfl, rfl, hkept, hcommit, hwritten⟩
      · refine iff_of_true (fun _ q hq => ⟨q, hq, rfl, onlyAdded_refl q.2⟩) ?_
        intro write hwrite
        rw [hwriter, hnone] at hwrite
        cases hwrite
      · have hcompany := htaken company List.mem_cons_self
        obtain ⟨hstays, hgets⟩ := commit_spec hcompany hwritten
        obtain ⟨members, hmembers, hdomain⟩ := domain_of_enrichmentOf hkept company.key now
        constructor
        · intro honly write hwrite lead hlead q hq hid
          rw [hwriter, hcommit] at hwrite
          obtain rfl := Option.some.inj hwrite
          obtain ⟨q', hq', hid', hothers, hadded⟩ := honly ⟨limit, _, hwriter⟩ q hq
          obtain ⟨responses, hresponses, hrow⟩ := hgets lead hlead q hq hid
          -- the row under the id is the one that was written
          obtain rfl : q' = (q.1, { q.2 with responses := responses }) := Table.eq_of_id hq' hrow hid'
          have hnew := entryOf_enriched hresponses
          constructor
          · intro key hne
            rw [← hothers key hne, hnew key, if_neg (Ne.symm hne)]
          · rcases hadded with hsame | ⟨hnone, -⟩
            · right
              rw [← hsame, hnew enrichmentKey, if_pos rfl]
            · exact Or.inl hnone
        · intro hfinds _ q hq
          by_cases hmem : ∃ lead ∈ company.items, q.1 = lead.1
          · obtain ⟨lead, hlead, hid⟩ := hmem
            obtain ⟨hothers, hnone⟩ :=
              hfinds (company.items, _) (hwriter ▸ hcommit) lead hlead q hq hid
            obtain ⟨responses, hresponses, hrow⟩ := hgets lead hlead q hq hid
            have hnew := entryOf_enriched hresponses
            refine ⟨_, hrow, rfl, fun key hne => ?_, ?_⟩
            · exact (hnew key).trans ((if_neg (Ne.symm hne)).trans (hothers key hne).symm)
            · have hentry : entryOf responses enrichmentKey = some (enrichmentOf org company.key now) :=
                (hnew enrichmentKey).trans (if_pos rfl)
              rcases hnone with hnone | hsame
              · right
                obtain ⟨q₀, hq₀, hid₀, hemail⟩ := hcompany.present lead hlead
                obtain rfl : q₀ = q := Table.eq_of_id hq₀ hq (hid₀.trans hid.symm)
                refine ⟨hnone, members, company.key, hmembers ▸ hentry, hdomain, ?_⟩
                rw [hemail]
                exact hcompany.domain lead hlead
              · exact Or.inl (hentry.trans hsame.symm)
          · push Not at hmem
            exact ⟨q, hstays q hq hmem, rfl, onlyAdded_refl q.2⟩

/-- Nothing has been started. -/
def Writer.Initial : Writer → Prop
  | .script _ phase => phase = .start
  | .submission _ call => call.phase = .start

/-- **The script only adds.** In every interleaving of runs of the script and submissions, whatever Apollo
answers: every statement of the script leaves the members of `responses` as they are and only adds an
enrichment, of the domain of the address, to leads without one, exactly when the leads of every company
that is committed are found as they were loaded. -/
theorem only_adds_iff (hinit : ∀ i, (c.proc i).Initial) (hrun : exec (fire (writerStep py)) es c = some c') :
    EachEvent (fire (writerStep py)) (OnlyAdds py) es c ↔ Guarded (fire (writerStep py)) FindsLoaded es c := by
  refine eachEvent_iff_guarded (J := AllTaken py) (H := fun _ _ => True) ?_ ?_ ?_
    (guarded_of_forall (fun _ _ => trivial) c) hrun
  · exact fun e s t h _ _ hfire => allTaken_fire h hfire
  · exact fun e s t h _ hfire => onlyAdds_fire_iff h hfire
  · intro i company hmem
    cases hwriter : c.proc i with
    | script limit phase =>
        have hstart := hinit i
        rw [hwriter] at hstart
        obtain rfl : phase = .start := hstart
        rw [hwriter] at hmem
        cases hmem
    | submission campaign call =>
        rw [hwriter] at hmem
        cases hmem

end Runs

/-- Ada has said which floor she wants. -/
def adaLead : Lead := { newLead 1 "ada@x.ng" with responses := .obj [("floor", .str "3")] }

def adaLeads : LeadTable := (((Table.empty _).insert adaLead).map Prod.snd).getD (Table.empty _)

/-- A run of the script, and Ada, who submits again. -/
def scriptAndAda : Writers Bool where
  shared := adaLeads
  proc script := if script then .script none .start
    else .submission plainCampaign ⟨leadRequest "Ada" "Acme", .start⟩

/-- Apollo knows her company. -/
def knownCompany : ApolloAnswer :=
  .response 200 (some (.obj [("organization", .obj [("industry", .str "Banking")])]))

theorem load_adaLeads : loadCompanies asciiLower none adaLeads = .ok [⟨"x.ng", (1, adaLead), []⟩] := by
  have hrows : adaLeads.rows = [(1, adaLead)] := rfl
  have hleads : leadsById none adaLeads = [(1, adaLead)] := by
    rw [leadsById, hrows, List.mergeSort_singleton]
  rw [loadCompanies, hleads]
  rfl

/-- The submission that comes in while the script asks Apollo is undone. -/
theorem submission_undone : ¬ EachEvent (fire (writerStep asciiLower)) (OnlyAdds asciiLower)
    [(true, .go), (false, .clock ⟨0, none⟩), (false, .clock ⟨0, none⟩),
      (true, .apollo (fun _ => knownCompany) "2026-07-08T12:00:00")] scriptAndAda := by
  have hload : writerStep asciiLower .go adaLeads (.script none .start) =
      some (adaLeads, .script none (.enriching [⟨"x.ng", (1, adaLead), []⟩])) := by
    simp only [writerStep, scriptStep, load_adaLeads]
    rfl
  have hfire : fire (writerStep asciiLower) (true, .go) scriptAndAda = some _ := fire_of_step hload
  have hrun : ∃ c, exec (fire (writerStep asciiLower)) [(true, .go), (false, .clock ⟨0, none⟩),
      (false, .clock ⟨0, none⟩), (true, .apollo (fun _ => knownCompany) "2026-07-08T12:00:00")]
        scriptAndAda = some c := ⟨_, exec_cons_eq_some.2 ⟨_, hfire, rfl⟩⟩
  obtain ⟨c, hc⟩ := hrun
  have hinit : ∀ i, (scriptAndAda.proc i).Initial := by
    intro i
    cases i <;> rfl
  rw [only_adds_iff hinit hc]
  intro hguard
  have hfinds := hguard.2 _ hfire |>.2 _ rfl |>.2 _ rfl |>.1
  have hfloor := (hfinds (_, _) rfl (1, adaLead) List.mem_cons_self (1, _) List.mem_cons_self rfl).1 "floor"
    (by decide)
  cases hfloor

end SalesTrades.Leads.Enrichment
