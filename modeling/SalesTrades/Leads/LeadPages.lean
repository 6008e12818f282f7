import Mathlib.Data.Prod.Lex
import SalesTrades.Emails.Deletions
import SalesTrades.Leads.Capture
import SalesTrades.Leads.TriageRace
import SalesTrades.Library.TiedPaging

/-!
# The pages of the lead lists

`list_leads` lists the leads of a campaign, the newest first, and `list_hot_leads` all leads, the most
engaged first. Both cut the list with `LIMIT` and `OFFSET` and tell the number of all leads that match. The
order is one by time, or by score and time, so the database may put leads with the same values in any
order, in another one for every request. A client that reads page after page gets every lead exactly once,
whatever the database does, exactly when no page ends among such leads (`lead_pages_complete_iff`).
-/

set_option autoImplicit false

namespace SalesTrades.Leads

open SalesTrades.Library SalesTrades.Library.TiedPaging SalesTrades.Emails

/-- `leads`, with the columns that only the lists read. -/
structure LeadDb where
  leads : LeadTable
  createdAt : Nat → Datetime
  triageStatus : Nat → TriageStatus

/-- How a triage status is stored. -/
def triageStatusText : TriageStatus → String
  | .new => "new"
  | .contacted => "contacted"
  | .dismissed => "dismissed"
  | .snoozed => "snoozed"

/-- The query parameters of the queue. -/
structure HotFilters where
  minEngagement : Option Int := none
  opened : Option Bool := none
  clicked : Option Bool := none
  uncontacted : Option Bool := none
  triageStatus : Option String := none
  icpTier : Option String := none

/-- `_apply_filters`, as far as the queue uses it. A missing tier matches no tier. -/
def applyHotFilters (db : LeadDb) (filters : HotFilters) (q : LeadRow) : Bool :=
  filters.minEngagement.all (fun least => decide (least ≤ q.2.engagementScore)) &&
    filters.opened.all (fun opened =>
      if opened then decide (0 < q.2.packOpenedCount) else q.2.packOpenedCount == 0) &&
    filters.clicked.all (fun clicked =>
      let hasClicks := decide (0 < (q.2.packClickedMaterials.getD []).length)
      if clicked then hasClicks else !hasClicks) &&
    filters.uncontacted.all (fun uncontacted =>
      if uncontacted then db.triageStatus q.1 == .new else db.triageStatus q.1 != .new) &&
    filters.triageStatus.all (fun status => triageStatusText (db.triageStatus q.1) == status) &&
    filters.icpTier.all fun tier => q.2.icpTier == some tier

/-- A request for a list of leads. -/
inductive LeadQuery where
  /-- `list_leads`. -/
  | campaign (campaignId : Nat) (filters : LeadFilters)
  /-- `list_hot_leads`. -/
  | hot (filters : HotFilters)

/-- The leads that match the request. -/
def LeadQuery.rows (query : LeadQuery) (db : LeadDb) : List LeadRow :=
  match query with
  | .campaign campaignId filters => db.leads.rows.filter (applyFilters campaignId filters)
  | .hot filters => db.leads.rows.filter (applyHotFilters db filters)

/-- `created_at.desc()`. -/
def newestFirst (db : LeadDb) (q : LeadRow) : Intᵒᵈ := OrderDual.toDual (db.createdAt q.1).instant

/-- `order_by`: the score counts in the queue only. -/
def LeadQuery.orderBy (query : LeadQuery) (db : LeadDb) (q : LeadRow) : Intᵒᵈ ×ₗ Intᵒᵈ :=
  match query with
  | .campaign _ _ => toLex (OrderDual.toDual 0, newestFirst db q)
  | .hot _ => toLex (OrderDual.toDual q.2.engagementScore, newestFirst db q)

/-- `LeadsListResponse`. -/
structure LeadsList where
  leads : List LeadRow
  total : Nat

/-- The endpoint. `listing` is the order in which the database puts the leads that match. -/
def listLeads (campaigns : List Campaign) (db : LeadDb) (query : LeadQuery) (limit offset : Nat)
    (listing : List LeadRow) : Except (Nat × String) LeadsList :=
  let answer : LeadsList := ⟨(listing.drop offset).take limit, (query.rows db).length⟩
  match query with
  | .campaign campaignId _ =>
      match getCampaign campaigns campaignId with
      | none => .error (404, "Campaign not found")
      | some _ => .ok answer
  | .hot _ => .ok answer

/-- The leads on the pages up to the total that the first one tells. The table is not written between the
requests, and each of them has its own order. -/
def readPages (campaigns : List Campaign) (db : LeadDb) (query : LeadQuery) (limit : Nat)
    (listings : Nat → List LeadRow) : Except (Nat × String) (List LeadRow) := do
  let first ← listLeads campaigns db query limit 0 (listings 0)
  let pages ← (List.range ((first.total + limit - 1) / limit)).mapM fun p =>
    listLeads campaigns db query limit (p * limit) (listings p)
  return pages.flatMap LeadsList.leads

variable {campaigns : List Campaign} {db : LeadDb} {query : LeadQuery} {limit offset : Nat}
  {listing : List LeadRow}

/-- The campaign of the request exists. -/
def LeadQuery.Valid (campaigns : List Campaign) : LeadQuery → Prop
  | .campaign campaignId _ => getCampaign campaigns campaignId ≠ none
  | .hot _ => True

theorem listLeads_eq_ok (h : query.Valid campaigns) :
    listLeads campaigns db query limit offset listing =
      .ok ⟨(listing.drop offset).take limit, (query.rows db).length⟩ := by
  cases query with
  | campaign campaignId filters =>
      obtain ⟨campaign, hcampaign⟩ := Option.ne_none_iff_exists'.1 h
      simp only [listLeads, hcampaign]
  | hot filters => rfl

/-- The pages of a valid request. -/
theorem readPages_eq_ok (h : query.Valid campaigns) (listings : Nat → List LeadRow) :
    readPages campaigns db query limit listings =
      .ok (collect limit listings (((query.rows db).length + limit - 1) / limit)) := by
  have hpages : (fun p => listLeads campaigns db query limit (p * limit) (listings p)) = fun p =>
      pure ⟨pageAt limit p (listings p), (query.rows db).length⟩ := by
    funext p
    exact listLeads_eq_ok h
  rw [readPages, listLeads_eq_ok h, hpages]
  change (do
    let pages ← List.mapM (fun p => pure ⟨pageAt limit p (listings p), (query.rows db).length⟩)
      (List.range (((query.rows db).length + limit - 1) / limit))
    return pages.flatMap LeadsList.leads : Except (Nat × String) (List LeadRow)) = _
  rw [List.mapM_pure, pure_bind, List.flatMap_map]
  rfl

theorem nodup_rows (query : LeadQuery) (db : LeadDb) : (query.rows db).Nodup := by
  have hrows : db.leads.rows.Nodup := List.Nodup.of_map _ db.leads.nodup
  cases query with
  | campaign campaignId filters => exact hrows.filter _
  | hot filters => exact hrows.filter _

/-- **Page by page.** -/
theorem lead_pages_complete_iff (hquery : query.Valid campaigns) (hlimit : 1 ≤ limit) :
    (∀ listings : Nat → List LeadRow, (∀ p, IsListing (query.orderBy db) (query.rows db) (listings p)) →
      ∃ leads, readPages campaigns db query limit listings = .ok leads ∧ leads.Perm (query.rows db)) ↔
      ∀ p, ¬ Straddles (query.orderBy db) (query.rows db) (p * limit) := by
  have hpages : (query.rows db).length ≤ ((query.rows db).length + limit - 1) / limit * limit := by
    have := Nat.lt_div_mul_add (a := (query.rows db).length + limit - 1) hlimit
    omega
  rw [← pages_complete_iff (nodup_rows query db) hlimit hpages]
  constructor
  · intro h listings hlistings
    obtain ⟨leads, hread, hperm⟩ := h listings hlistings
    rw [readPages_eq_ok hquery] at hread
    cases hread
    exact hperm
  · intro h listings hlistings
    exact ⟨_, readPages_eq_ok hquery listings, h listings hlistings⟩

/-- Two leads whose capture times were set to one day by `backdate_created`. -/
def backdatedLeads : LeadDb where
  leads := [newLead 1 "ada@acme.ng", newLead 1 "obi@acme.ng"].foldl
    (fun t lead => ((t.insert lead).map Prod.snd).getD t) (Table.empty _)
  createdAt _ := ⟨0, some 0⟩
  triageStatus _ := .new

/-- Pages of one lead may show the same one twice. -/
theorem backdated_pages_incomplete :
    ¬ ∀ listings : Nat → List LeadRow,
      (∀ p, IsListing ((LeadQuery.hot {}).orderBy backdatedLeads) ((LeadQuery.hot {}).rows backdatedLeads)
        (listings p)) →
      ∃ leads, readPages [] backdatedLeads (.hot {}) 1 listings = .ok leads ∧
        leads.Perm ((LeadQuery.hot {}).rows backdatedLeads) := by
  rw [@lead_pages_complete_iff [] backdatedLeads (.hot {}) 1 trivial le_rfl]
  intro h
  exact h 1 (by decide)

end SalesTrades.Leads
