import SalesTrades.Leads.CrmRuns
import SalesTrades.Library.JsonRoundTrip

/-!
# The ICP score of a lead

`score_lead` asks a language model for the score of a lead and checks the reply field by field: four
dimensions and their total, each within its range, and a tier that is one of four. The total is not
compared with the dimensions, nor the tier with the total. So a reply is stored consistently exactly
when the model has kept to the rules of its prompt (`score_consistent_iff`).
-/

set_option autoImplicit false

namespace SalesTrades.Leads.IcpScoring

open SalesTrades.Library SalesTrades.Library.Run SalesTrades.Library.JsonText

/-! ## The result -/

inductive Rubric where
  | office
  | residential
  deriving DecidableEq

/-- An integer that `Field(ge=0, le=max)` accepts. -/
abbrev Score (max : Int) : Type := { n : Int // 0 ≤ n ∧ n ≤ max }

/-- `ICPResult`. -/
structure ICPResult where
  industryScore : Score 30
  financialCapacityScore : Score 25
  footprintScore : Score 30
  triggerScore : Score 15
  icpScore : Score 100
  leadTier : String
  triggerEvent : String
  rationale : String
  rubric : Rubric := .office
  deriving DecidableEq

/-- The fields that `ingest_company_signal` copies to the lead. -/
def ICPResult.stored (result : ICPResult) : Leads.ICPResult where
  icpScore := result.icpScore
  leadTier := result.leadTier
  rationale := result.rationale

/-- `VALID_TIERS`. -/
def validTiers : List String := ["Tier 1", "Tier 2", "Tier 3", "Skip"]

/-- What the prompt calls `total_score`. -/
def ICPResult.totalScore (result : ICPResult) : Int :=
  result.industryScore + result.financialCapacityScore + result.footprintScore + result.triggerScore

/-- The mandatory mapping of the prompt. -/
def mandatoryTier (totalScore : Int) : String :=
  if 75 ≤ totalScore then "Tier 1"
  else if 55 ≤ totalScore then "Tier 2"
  else if 40 ≤ totalScore then "Tier 3"
  else "Skip"

/-- The total is the sum of the dimensions, and the tier is the one of the total. -/
def ICPResult.Consistent (result : ICPResult) : Prop :=
  result.icpScore = result.totalScore ∧ result.leadTier = mandatoryTier result.icpScore

/-! ## Reading a reply -/

/-- What the field types make of values that are no integers. -/
structure FieldLib where
  py : LowerCase
  /-- An `int` field, given a string. -/
  intOfText : String → Option Int
  /-- An `int` field, given the float that is spelled so. -/
  intOfFloat : String → Option Int

/-- An `int` field. -/
def intField (lib : FieldLib) : JsonValue → Option Int
  | .bool b => some (if b then 1 else 0)
  | .int n => some n
  | .float lexeme => lib.intOfFloat lexeme
  | .str s => s.bind lib.intOfText
  | .null | .arr _ | .obj _ => none

/-- The integer that a required field is given. -/
def intMember (lib : FieldLib) (data : Members) (key : String) : Option Int :=
  (lookup data key).bind (intField lib)

/-- A required `int` field with `ge=0, le=max`. -/
def scoreField (lib : FieldLib) (data : Members) (key : String) (max : Int) : Option (Score max) :=
  (intMember lib data key).bind fun n => if h : 0 ≤ n ∧ n ≤ max then some ⟨n, h⟩ else none

/-- A required `str` field. -/
def textField (data : Members) (key : String) : Option String :=
  match lookup data key with
  | some (.str s) => s
  | _ => none

/-- `ICPResult(**{**data, "rubric": rubric})`; `none` is a `ValidationError`. -/
def validate (lib : FieldLib) (rubric : Rubric) (data : Members) : Option ICPResult := do
  let industryScore ← scoreField lib data "industry_score" 30
  let financialCapacityScore ← scoreField lib data "financial_capacity_score" 25
  let footprintScore ← scoreField lib data "footprint_score" 30
  let triggerScore ← scoreField lib data "trigger_score" 15
  let icpScore ← scoreField lib data "icp_score" 100
  let leadTier ← textField data "lead_tier"
  let triggerEvent ← textField data "trigger_event"
  let rationale ← textField data "rationale"
  some ⟨industryScore, financialCapacityScore, footprintScore, triggerScore, icpScore, leadTier,
    triggerEvent, rationale, rubric⟩

def fence : List Char := "```".toList

/-- The characters before the next fence. -/
def untilFence : List Char → List Char
  | [] => []
  | c :: cs => if fence.isPrefixOf (c :: cs) then [] else c :: untilFence cs

/-- `text.removeprefix(start)`. -/
def removePrefix (start text : List Char) : List Char :=
  if start.isPrefixOf text then text.drop start.length else text

/-- `_parse_json_response`: what stands between the fences, without the name of the format. -/
def parseJsonResponse (content : String) : Option JsonValue :=
  let text := (strip content).toList
  if fence.isPrefixOf text then
    loads (strip (String.ofList (removePrefix "json".toList (untilFence (text.drop fence.length)))))
  else loads (String.ofList text)

/-! ## Scoring a lead -/

/-- `sub in text`. -/
def contains (sub text : String) : Bool :=
  text.toList.tails.any fun rest => sub.toList.isPrefixOf rest

/-- `_is_residential_only`. -/
def isResidentialOnly (py : LowerCase) (lead : Lead) : Bool :=
  let interestsLower := (lead.interests.getD []).map py.lower
  interestsLower.any (contains "resid") && !interestsLower.any (contains "offic")

def rubricOf (py : LowerCase) (lead : Lead) : Rubric :=
  if isResidentialOnly py lead then .residential else .office

/-- `", ".join(keywords or [])` goes through. -/
def joins : Json → Bool
  | .arr xs => xs.all fun x => match x with
      | .str _ => true
      | _ => false
  -- characters and keys are strings
  | .str _ | .obj _ => true
  | value => !value.truthy

/-- What `_format_lead_data` raises on the stored enrichment. -/
def formatLeadData (lead : Lead) : Except PyError Unit := do
  let enrichment ← (lead.responses.orElse (.obj [])).get "enrichment"
  let keywords ← (enrichment.orElse (.obj [])).get "keywords"
  if joins keywords then .ok () else .error .typeError

/-- What comes back from the language model: its reply, a message without a text, or no message. -/
inductive Completion where
  | content (reply : String)
  | notText
  | raised

/-- What leaves `score_lead`. -/
inductive ScoreError where
  /-- `invalid ICP response for lead {lead.id}: {exc}\n{content[:300]}`. -/
  | invalidResponse (leadId : Nat) (content : String)
  /-- `lead {lead.id}: unexpected lead_tier {result.lead_tier!r}`. -/
  | unexpectedTier (leadId : Nat) (leadTier : String)
  | request
  | python (e : PyError)

/-- `score_lead`. -/
def scoreLead (lib : FieldLib) (lead : LeadRow) (answer : Completion) : Except ScoreError ICPResult :=
  match formatLeadData lead.2 with
  | .error e => .error (.python e)
  | .ok () =>
      match answer with
      | .raised => .error .request
      | .notText => .error (.python .attributeError)
      | .content reply =>
          let invalid := .error (.invalidResponse lead.1 (String.ofList (reply.toList.take 300)))
          match parseJsonResponse reply with
          | none => invalid
          | some (.obj data) =>
              match validate lib (rubricOf lib.py lead.2) data with
              | none => invalid
              | some result =>
                  if result.leadTier ∉ validTiers then
                    .error (.unexpectedTier lead.1 result.leadTier)
                  else .ok result
          -- only a dict can be unpacked
          | some _ => .error (.python .typeError)

/-! ## Prospecting -/

/-- `icp_rationale` takes the text. -/
def storable (result : ICPResult) : Bool := isText result.rationale

/-- The `try` around the scoring in `ingest_company_signal`: a lead that is not scored stays. -/
def scoreContact (lib : FieldLib) (lead : LeadRow) (answer : Completion) (t : LeadTable) : LeadTable :=
  match scoreLead lib lead answer with
  | .error _ => t
  | .ok score => if storable score then writeScore (some (lead, score.stored)) t else t

/-- A contact of `ingest_company_signal` up to its scoring: the lead that is captured for it. -/
def captureContact (py : LowerCase) (campaigns : List Campaign) (payload : LeadCreateRequest)
    (known : Bool) (now : Datetime) (t : LeadTable) : LeadTable × Option LeadRow :=
  match getBySlug campaigns prospectingCampaignSlug with
  | none => (t, none)
  | some campaign =>
      if (getByCampaignEmail t campaign.id (normaliseEmail py payload.email)).isSome || known then
        (t, none)
      else
        match captureLeadCreated py campaigns prospectingCampaignSlug payload now false t with
        | (t', .ok (lead, _)) => (t', some lead)
        | (t', .error _) => (t', none)

/-- A contact in the loop of `ingest_company_signal`. -/
def ingestScored (lib : FieldLib) (campaigns : List Campaign) (payload : LeadCreateRequest)
    (known : Bool) (now : Datetime) (answer : Completion) (t : LeadTable) : LeadTable :=
  match captureContact lib.py campaigns payload known now t with
  | (t', none) => t'
  | (t', some lead) => scoreContact lib lead answer t'

/-! ## What the checks let through -/

/-- The `int` fields and the upper ends of their ranges. -/
def scoreFields : List (String × Int) :=
  [("industry_score", 30), ("financial_capacity_score", 25), ("footprint_score", 30),
    ("trigger_score", 15), ("icp_score", 100)]

/-- The reply passes the checks of its fields and has one of the four tiers. -/
structure Accepted (lib : FieldLib) (data : Members) : Prop where
  scores : ∀ field ∈ scoreFields, ∃ n, intMember lib data field.1 = some n ∧ 0 ≤ n ∧ n ≤ field.2
  texts : ∀ key ∈ ["trigger_event", "rationale"], ∃ text, textField data key = some text
  tier : ∃ tier ∈ validTiers, textField data "lead_tier" = some tier

/-- The sum of the four dimensions of the reply. -/
def dimensionSum (lib : FieldLib) (data : Members) : Option Int := do
  let industryScore ← intMember lib data "industry_score"
  let financialCapacityScore ← intMember lib data "financial_capacity_score"
  let footprintScore ← intMember lib data "footprint_score"
  let triggerScore ← intMember lib data "trigger_score"
  some (industryScore + financialCapacityScore + footprintScore + triggerScore)

/-- The reply keeps to the rules of the prompt: its total is the sum of its dimensions, its tier the one
of its total. -/
structure KeepsRules (lib : FieldLib) (data : Members) : Prop where
  total : intMember lib data "icp_score" = dimensionSum lib data
  tier : textField data "lead_tier" = (intMember lib data "icp_score").map mandatoryTier

/-- The fields of a result are read from the members of the reply. -/
structure Reads (lib : FieldLib) (rubric : Rubric) (data : Members) (result : ICPResult) : Prop where
  industryScore : intMember lib data "industry_score" = some result.industryScore.1
  financialCapacityScore :
    intMember lib data "financial_capacity_score" = some result.financialCapacityScore.1
  footprintScore : intMember lib data "footprint_score" = some result.footprintScore.1
  triggerScore : intMember lib data "trigger_score" = some result.triggerScore.1
  icpScore : intMember lib data "icp_score" = some result.icpScore.1
  leadTier : textField data "lead_tier" = some result.leadTier
  triggerEvent : textField data "trigger_event" = some result.triggerEvent
  rationale : textField data "rationale" = some result.rationale
  rubric : result.rubric = rubric

section Checks

variable {lib : FieldLib} {rubric : Rubric} {data : Members} {result : ICPResult} {lead : LeadRow}
  {answer : Completion} {reply key : String} {max : Int}

theorem scoreField_eq_some_iff {score : Score max} :
    scoreField lib data key max = some score ↔ intMember lib data key = some score.1 := by
  rw [scoreField, Option.bind_eq_some_iff]
  constructor
  · rintro ⟨n, hn, hscore⟩
    split at hscore
    · rw [hn, ← Option.some.inj hscore]
    · cases hscore
  · intro h
    exact ⟨score.1, h, dif_pos score.2⟩

theorem validate_eq_some_iff :
    validate lib rubric data = some result ↔ Reads lib rubric data result := by
  constructor
  · intro h
    obtain ⟨industryScore, hi, h⟩ := Option.bind_eq_some_iff.1 h
    obtain ⟨financialCapacityScore, hc, h⟩ := Option.bind_eq_some_iff.1 h
    obtain ⟨footprintScore, hf, h⟩ := Option.bind_eq_some_iff.1 h
    obtain ⟨triggerScore, ht, h⟩ := Option.bind_eq_some_iff.1 h
    obtain ⟨icpScore, hs, h⟩ := Option.bind_eq_some_iff.1 h
    obtain ⟨leadTier, htier, h⟩ := Option.bind_eq_some_iff.1 h
    obtain ⟨triggerEvent, hevent, h⟩ := Option.bind_eq_some_iff.1 h
    obtain ⟨rationale, hrationale, h⟩ := Option.bind_eq_some_iff.1 h
    obtain rfl := Option.some.inj h
    exact ⟨scoreField_eq_some_iff.1 hi, scoreField_eq_some_iff.1 hc, scoreField_eq_some_iff.1 hf,
      scoreField_eq_some_iff.1 ht, scoreField_eq_some_iff.1 hs, htier, hevent, hrationale, rfl⟩
  · intro h
    simp only [validate, scoreField_eq_some_iff.2 h.industryScore,
      scoreField_eq_some_iff.2 h.financialCapacityScore, scoreField_eq_some_iff.2 h.footprintScore,
      scoreField_eq_some_iff.2 h.triggerScore, scoreField_eq_some_iff.2 h.icpScore, h.leadTier,
      h.triggerEvent, h.rationale]
    rw [← h.rubric]
    rfl

/-- What is accepted is read. -/
theorem exists_reads_iff :
    (∃ result, Reads lib rubric data result ∧ result.leadTier ∈ validTiers) ↔
      Accepted lib data := by
  constructor
  · rintro ⟨result, h, htier⟩
    refine ⟨?_, ?_, ⟨result.leadTier, htier, h.leadTier⟩⟩
    · simp only [scoreFields, List.forall_mem_cons]
      exact ⟨⟨_, h.industryScore, result.industryScore.2⟩,
        ⟨_, h.financialCapacityScore, result.financialCapacityScore.2⟩,
        ⟨_, h.footprintScore, result.footprintScore.2⟩,
        ⟨_, h.triggerScore, result.triggerScore.2⟩, ⟨_, h.icpScore, result.icpScore.2⟩,
        List.forall_mem_nil _⟩
    · simp only [List.forall_mem_cons]
      exact ⟨⟨_, h.triggerEvent⟩, ⟨_, h.rationale⟩, List.forall_mem_nil _⟩
  · rintro ⟨hscores, htexts, tier, htier, hlead⟩
    simp only [scoreFields, List.forall_mem_cons] at hscores htexts
    obtain ⟨⟨i, hi, hir⟩, ⟨c, hc, hcr⟩, ⟨f, hf, hfr⟩, ⟨t, ht, htr⟩, ⟨s, hs, hsr⟩, -⟩ := hscores
    obtain ⟨⟨event, hevent⟩, ⟨rationale, hrationale⟩, -⟩ := htexts
    exact ⟨⟨⟨i, hir⟩, ⟨c, hcr⟩, ⟨f, hfr⟩, ⟨t, htr⟩, ⟨s, hsr⟩, tier, event, rationale, rubric⟩,
      ⟨hi, hc, hf, ht, hs, hlead, hevent, hrationale, rfl⟩, htier⟩

/-- A result is consistent exactly when its reply keeps to the rules. -/
theorem consistent_iff (h : Reads lib rubric data result) :
    result.Consistent ↔ KeepsRules lib data := by
  have hsum : dimensionSum lib data = some result.totalScore := by
    simp only [dimensionSum, h.industryScore, h.financialCapacityScore, h.footprintScore,
      h.triggerScore]
    rfl
  constructor
  · rintro ⟨htotal, htier⟩
    refine ⟨?_, ?_⟩
    · rw [h.icpScore, hsum, htotal]
    · rw [h.leadTier, h.icpScore, Option.map_some, htier]
  · rintro ⟨htotal, htier⟩
    rw [h.icpScore, hsum] at htotal
    rw [h.leadTier, h.icpScore, Option.map_some] at htier
    exact ⟨Option.some.inj htotal, Option.some.inj htier⟩

/-- `score_lead` returns what it reads from a reply that it accepts. -/
theorem scoreLead_eq_ok_iff : scoreLead lib lead answer = .ok result ↔
    formatLeadData lead.2 = .ok () ∧ ∃ reply data, answer = .content reply ∧
      parseJsonResponse reply = some (.obj data) ∧ Reads lib (rubricOf lib.py lead.2) data result ∧
      result.leadTier ∈ validTiers := by
  unfold scoreLead
  cases hprompt : formatLeadData lead.2 with
  | error e => simp
  | ok u =>
      cases answer with
      | raised => simp
      | notText => simp
      | content reply =>
          simp only [true_and, Completion.content.injEq, exists_and_left, exists_eq_left']
          cases hparse : parseJsonResponse reply with
          | none => simp
          | some value =>
              cases value with
              | obj data =>
                  simp only [Option.some.injEq, JsonValue.obj.injEq, exists_eq_left']
                  cases hvalid : validate lib (rubricOf lib.py lead.2) data with
                  | none => simp [← validate_eq_some_iff, hvalid]
                  | some r =>
                      simp only [← validate_eq_some_iff, hvalid, Option.some.injEq]
                      split
                      · rename_i htier
                        simp only [reduceCtorEq, false_iff]
                        rintro ⟨rfl, hmem⟩
                        exact htier hmem
                      · rename_i htier
                        rw [Except.ok.injEq]
                        constructor
                        · rintro rfl
                          exact ⟨rfl, not_not.1 htier⟩
                        · exact fun h => h.1
              | null => simp
              | bool b => simp
              | int n => simp
              | float lexeme => simp
              | str text => simp
              | arr items => simp

end Checks

/-! ## What is stored -/

/-- The columns of the score are empty. -/
def Unscored (lead : Lead) : Prop :=
  lead.icpScore = none ∧ lead.icpTier = none ∧ lead.icpRationale = none

section Stored

variable {lib : FieldLib} {campaigns : List Campaign} {payload : LeadCreateRequest} {known : Bool}
  {now : Datetime} {answer : Completion} {lead : LeadRow} {t t' : LeadTable} {q : LeadRow}

/-- A contact that is captured gets a new row, which has no score. -/
theorem captureContact_cases (py : LowerCase) (campaigns : List Campaign)
    (payload : LeadCreateRequest) (known : Bool) (now : Datetime) (t : LeadTable) :
    captureContact py campaigns payload known now t = (t, none) ∨
      ∃ lead t', Unscored lead ∧ t.insert lead = some (t.nextId, t') ∧
        captureContact py campaigns payload known now t = (t', some (t.nextId, lead)) := by
  unfold captureContact
  cases hslug : getBySlug campaigns prospectingCampaignSlug with
  | none => exact Or.inl rfl
  | some campaign =>
      dsimp only
      split
      · exact Or.inl rfl
      · rename_i hnew
        rw [Bool.or_eq_true, not_or, Option.isSome_iff_ne_none, not_not] at hnew
        rcases captureLeadCreated_spec py campaigns prospectingCampaignSlug payload now false t with
          ⟨-, e, hcall⟩ | ⟨campaign', row, t', hslug', hfound, -, -, -⟩ |
            ⟨campaign', t', -, -, hinsert, hcall⟩
        · rw [hcall]
          exact Or.inl rfl
        · -- the lookup of the contact has just found nothing
          obtain rfl := Option.some.inj (hslug.symm.trans hslug')
          rw [hnew.1] at hfound
          cases hfound
        · rw [hcall]
          exact Or.inr ⟨_, t', ⟨rfl, rfl, rfl⟩, hinsert, rfl⟩

/-- Scoring changes no row but the one of the lead, which gets the result that `score_lead` returned. -/
theorem mem_scoreContact (hlead : lead ∈ t.rows) (hq : q ∈ (scoreContact lib lead answer t).rows) :
    q ∈ t.rows ∨ ∃ result, scoreLead lib lead answer = .ok result ∧
      q = (lead.1, applyResult lead.2 result.stored) := by
  unfold scoreContact at hq
  cases hscore : scoreLead lib lead answer with
  | error e =>
      rw [hscore] at hq
      exact Or.inl hq
  | ok result =>
      rw [hscore] at hq
      dsimp only at hq
      split at hq
      · have hkey : (applyResult lead.2 result.stored).campaignId = lead.2.campaignId ∧
            (applyResult lead.2 result.stored).email = lead.2.email := ⟨rfl, rfl⟩
        obtain ⟨t₁, hupdate, htable⟩ := update_eq hlead hkey.1 hkey.2
        simp only [writeScore, hupdate] at hq
        rw [Lead.write_current_loaded] at htable
        rcases (Table.mem_of_update htable).1 hq with ⟨hq, -⟩ | ⟨hq, -⟩
        · exact Or.inl hq
        · exact Or.inr ⟨result, rfl, hq⟩
      · exact Or.inl hq

/-- **A lead that is not scored** keeps its score columns empty. -/
theorem ingestScored_unscored
    (hcaptured : captureContact lib.py campaigns payload known now t = (t', some lead))
    (hraised : ∀ result, scoreLead lib lead answer ≠ .ok result)
    (hq : q ∈ (ingestScored lib campaigns payload known now answer t).rows) (hid : q.1 = lead.1) :
    Unscored q.2 := by
  rcases captureContact_cases lib.py campaigns payload known now t with hnone | ⟨l, t₁, hl, hins, hsome⟩
  · rw [hnone] at hcaptured
    cases hcaptured
  · rw [hsome] at hcaptured
    cases hcaptured
    simp only [ingestScored, hsome] at hq
    have hlead : (t.nextId, l) ∈ t'.rows := (Table.mem_of_insert hins).2 (Or.inr rfl)
    rcases mem_scoreContact hlead hq with hmem | ⟨result, hok, -⟩
    · rw [Table.eq_of_id hmem hlead hid]
      exact hl
    · exact absurd hok (hraised result)

end Stored

/-! ## The replies that are stored consistently -/

/-- What `score_lead` returns for the reply is consistent, whatever the lead, and a contact of
`ingest_company_signal` for which it raises leaves its lead without a score. -/
structure StoredConsistently (lib : FieldLib) (reply : String) : Prop where
  returned : ∀ lead result, scoreLead lib lead (.content reply) = .ok result → result.Consistent
  raised : ∀ campaigns payload known now t t' lead,
    captureContact lib.py campaigns payload known now t = (t', some lead) →
    (∀ result, scoreLead lib lead (.content reply) ≠ .ok result) →
    ∀ q ∈ (ingestScored lib campaigns payload known now (.content reply) t).rows,
      q.1 = lead.1 → Unscored q.2

/-- An object that the checks let through keeps to the rules of the prompt. -/
def RuleAbiding (lib : FieldLib) (reply : String) : Prop :=
  ∀ data, parseJsonResponse reply = some (.obj data) → Accepted lib data → KeepsRules lib data

theorem RuleAbiding.consistent {lib : FieldLib} {reply : String} (h : RuleAbiding lib reply)
    {lead : LeadRow} {result : ICPResult}
    (hok : scoreLead lib lead (.content reply) = .ok result) : result.Consistent := by
  obtain ⟨-, reply', data, hreply, hparse, hreads, htier⟩ := scoreLead_eq_ok_iff.1 hok
  cases hreply
  exact (consistent_iff hreads).2 (h data hparse (exists_reads_iff.1 ⟨result, hreads, htier⟩))

/-- A reply is stored consistently exactly when it keeps to the rules of its prompt or is rejected. -/
theorem score_consistent_iff (lib : FieldLib) (reply : String) :
    StoredConsistently lib reply ↔ RuleAbiding lib reply := by
  constructor
  · intro h data hparse haccepted
    -- a lead without enrichment is sent to the model too
    let lead : LeadRow := (0, newLead 0 "")
    obtain ⟨result, hreads, htier⟩ : ∃ result,
        Reads lib (rubricOf lib.py lead.2) data result ∧ result.leadTier ∈ validTiers :=
      exists_reads_iff.2 haccepted
    have hok : scoreLead lib lead (.content reply) = .ok result :=
      scoreLead_eq_ok_iff.2 ⟨rfl, reply, data, rfl, hparse, hreads, htier⟩
    exact (consistent_iff hreads).1 (h.returned lead result hok)
  · intro h
    refine ⟨fun lead result hok => h.consistent hok, ?_⟩
    intro campaigns payload known now t t' lead hcaptured hraised q hq hid
    exact ingestScored_unscored hcaptured hraised hq hid

/-! ## Runs of prospecting -/

/-- A contact in a batch, and what is heard about it. -/
structure Prospect where
  payload : LeadCreateRequest
  known : Bool
  now : Datetime
  answer : Completion

def prospectStep (lib : FieldLib) (campaigns : List Campaign) (e : Prospect) (t : LeadTable) :
    Option LeadTable :=
  some (ingestScored lib campaigns e.payload e.known e.now e.answer t)

/-- A stored tier is the one of the stored score. -/
def TierAgrees (lead : Lead) : Prop :=
  Unscored lead ∨ ∃ score, lead.icpScore = some score ∧ lead.icpTier = some (mandatoryTier score)

/-- **Step lemma.** -/
theorem tierAgrees_ingestScored {lib : FieldLib} {campaigns : List Campaign} {e : Prospect}
    {t : LeadTable} (ht : ∀ q ∈ t.rows, TierAgrees q.2)
    (hrules : ∀ reply, e.answer = .content reply → RuleAbiding lib reply) :
    ∀ q ∈ (ingestScored lib campaigns e.payload e.known e.now e.answer t).rows, TierAgrees q.2 := by
  intro q hq
  rcases captureContact_cases lib.py campaigns e.payload e.known e.now t with
    hnone | ⟨lead, t₁, hlead, hins, hsome⟩
  · rw [ingestScored, hnone] at hq
    exact ht q hq
  · rw [ingestScored, hsome] at hq
    rcases mem_scoreContact ((Table.mem_of_insert hins).2 (Or.inr rfl)) hq with hmem | ⟨result, hok, rfl⟩
    · rcases (Table.mem_of_insert hins).1 hmem with hold | rfl
      · exact ht q hold
      · exact Or.inl hlead
    · obtain ⟨-, reply, -, hanswer, -⟩ := scoreLead_eq_ok_iff.1 hok
      rw [hanswer] at hok
      have htier := ((hrules reply hanswer).consistent hok).2
      exact Or.inr ⟨_, rfl, congrArg some htier⟩

/-- While the language model keeps to the rules, every stored tier is the one of its score. -/
theorem always_tierAgrees {lib : FieldLib} {campaigns : List Campaign} {es : List Prospect}
    {t : LeadTable} (ht : ∀ q ∈ t.rows, TierAgrees q.2)
    (hrules : ∀ e ∈ es, ∀ reply, e.answer = .content reply → RuleAbiding lib reply) :
    Always (prospectStep lib campaigns) (fun t => ∀ q ∈ t.rows, TierAgrees q.2) es t := by
  apply always_of_step _ ht (guarded_of_forall hrules t)
  intro e t t' hI hG hstep
  obtain rfl := Option.some.inj hstep
  exact tierAgrees_ingestScored hI hG

/-! ## Replies that break the rules -/

/-- The object that the prompt asks for. -/
def replyData (result : ICPResult) : Members :=
  [(some "rationale", .str (some result.rationale)),
    (some "trigger_event", .str (some result.triggerEvent)),
    (some "lead_tier", .str (some result.leadTier)),
    (some "icp_score", .int result.icpScore),
    (some "trigger_score", .int result.triggerScore),
    (some "footprint_score", .int result.footprintScore),
    (some "financial_capacity_score", .int result.financialCapacityScore),
    (some "industry_score", .int result.industryScore)]

/-- A reply with these values. -/
def replyText (result : ICPResult) : String := String.ofList (render (.obj (replyData result)))

section Replies

variable {lib : FieldLib} {lead : LeadRow}

/-- Text between two characters that are no whitespace is not stripped. -/
theorem strip_of_ends {first last : Char} (cs : List Char) (hfirst : isWhitespace first = false)
    (hlast : isWhitespace last = false) :
    strip (String.ofList (first :: (cs ++ [last]))) = String.ofList (first :: (cs ++ [last])) := by
  rw [strip, String.toList_ofList, List.dropWhile_cons_of_neg (by simp [hfirst]), ← List.cons_append,
    List.reverse_append, List.reverse_singleton, List.singleton_append,
    List.dropWhile_cons_of_neg (by simp [hlast]), List.reverse_cons, List.reverse_reverse]

theorem length_renderNat_le {n : Nat} (hn : n ≤ 100) : (renderNat n).length ≤ maxStrDigits := by
  rw [renderNat]
  split
  · decide
  · rw [List.length_map, List.length_reverse]
    have hdigits : (Nat.digits 10 n).length ≤ 3 := (Nat.digits_length_le_iff (by decide) n).2 (by omega)
    unfold maxStrDigits
    omega

theorem plain_replyData (result : ICPResult) : Plain (.obj (replyData result)) := by
  have hscore : ∀ {max : Int} (score : Score max), max ≤ 100 →
      (renderNat score.1.natAbs).length ≤ maxStrDigits := by
    intro max score hmax
    have hrange := score.2
    exact length_renderNat_le (by omega)
  simp [replyData, Plain, PlainMembers, hscore]

/-- A reply between braces is decoded as it stands. -/
theorem parse_replyText (result : ICPResult) :
    parseJsonResponse (replyText result) = some (.obj (replyData result)) := by
  have hstrip : strip (replyText result) = replyText result := by
    rw [replyText, render]
    exact strip_of_ends _ rfl rfl
  have hfence : fence.isPrefixOf (replyText result).toList = false := by
    rw [replyText, render, String.toList_ofList]
    rfl
  rw [parseJsonResponse, hstrip]
  simp only [hfence, Bool.false_eq_true, if_false, String.ofList_toList]
  exact loads_render (plain_replyData result)

theorem reads_replyData (rubric : Rubric) (result : ICPResult) :
    Reads lib rubric (replyData result) { result with rubric } :=
  ⟨rfl, rfl, rfl, rfl, rfl, rfl, rfl, rfl, rfl⟩

/-- **Every combination** of scores within their ranges and one of the four tiers is returned for some
reply, consistent or not. -/
theorem scoreLead_replyText {result : ICPResult} (hprompt : formatLeadData lead.2 = .ok ())
    (htier : result.leadTier ∈ validTiers) : scoreLead lib lead (.content (replyText result)) =
      .ok { result with rubric := rubricOf lib.py lead.2 } :=
  scoreLead_eq_ok_iff.2 ⟨hprompt, _, _, rfl, parse_replyText result, reads_replyData _ result, htier⟩

theorem not_storedConsistently {result : ICPResult} (htier : result.leadTier ∈ validTiers)
    (hinconsistent : ¬ result.Consistent) : ¬ StoredConsistently lib (replyText result) := by
  intro h
  have hok : scoreLead lib (0, newLead 0 "") (.content (replyText result)) =
      .ok { result with rubric := rubricOf lib.py (newLead 0 "") } := scoreLead_replyText rfl htier
  obtain ⟨htotal, htiers⟩ := h.returned _ _ hok
  exact hinconsistent ⟨htotal, htiers⟩

end Replies

/-- The field types on values that are integers. -/
def integerLib : FieldLib where
  py := asciiLower
  intOfText _ := none
  intOfFloat _ := none

/-- Four dimensions of 0 with a total of 80. -/
def inflatedResult : ICPResult where
  industryScore := ⟨0, by decide⟩
  financialCapacityScore := ⟨0, by decide⟩
  footprintScore := ⟨0, by decide⟩
  triggerScore := ⟨0, by decide⟩
  icpScore := ⟨80, by decide⟩
  leadTier := "Tier 1"
  triggerEvent := "None identified"
  rationale := "No company data."

theorem inflated_score_returned :
    ¬ StoredConsistently integerLib (replyText inflatedResult) := by
  apply not_storedConsistently
  · decide
  · intro h
    exact absurd h.1 (by decide)

end SalesTrades.Leads.IcpScoring
