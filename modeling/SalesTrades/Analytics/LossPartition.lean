import SalesTrades.Analytics.DealReports
import SalesTrades.Library.Tally

/-!
# Loss reasons

The query groups the lost deals by the name of their reason, and the endpoint groups the names by
category. Both partition the deals. The share without a reason is counted apart: `not row["reason"]`
leaves out a name of blanks, which `categorize_loss_reason` takes for no reason. So the share is that of
the category exactly when the blank names do not show in the percentage
(`loss_reasons_partition_iff`).
-/

set_option autoImplicit false

namespace SalesTrades.Analytics

open SalesTrades.Library SalesTrades.Library.GroupBy SalesTrades.Library.LeftJoin SalesTrades.Deals

variable {lc : LowerCase} {db : ReportDb} {filters : AnalyticsFilters} {ownerScope : Option Int}

/-! ## The lost deals -/

/-- The lost deals a report is about. -/
def lostDeals (db : ReportDb) (filters : AnalyticsFilters) (ownerScope : Option Int) :
    List EnrichedDeal :=
  (scope db.toDb filters ownerScope).filter (EnrichedDeal.hasForecast "Closed Lost")

/-- The category of a lost deal. -/
def lossCategory (lc : LowerCase) (db : ReportDb) (d : EnrichedDeal) : String :=
  categorizeLossReason lc (lossReason db d)

/-- The deal has no reason, or one with an empty name. -/
def isUnnamed (db : ReportDb) (d : EnrichedDeal) : Bool := (lossReason db d).getD "" = ""

/-- The deal has a reason whose name is blanks only. -/
def isBlank (db : ReportDb) (d : EnrichedDeal) : Bool :=
  (lossReason db d).any fun name => name ≠ "" && strip name = ""

/-- The number of deals a category holds. -/
def heldBy (category : String) (categories : List LossReasonCategory) : ℕ :=
  ((categories.filter fun c => c.category = category).map LossReasonCategory.lostDeals).sum

/-- The name of the category of deals without a reason. -/
def noReasonRecorded : String := "no reason recorded"

/-- The categories partition the lost deals, and the share without a reason is that of its category. -/
structure LossesPartitioned (lc : LowerCase) (db : ReportDb) (filters : AnalyticsFilters)
    (ownerScope : Option Int) : Prop where
  total : (lossReasons lc db filters ownerScope).totalLost = (lostDeals db filters ownerScope).length
  sum_categories :
    ((lossReasons lc db filters ownerScope).categories.map LossReasonCategory.lostDeals).sum =
      (lossReasons lc db filters ownerScope).totalLost
  one_category : ∀ d ∈ lostDeals db filters ownerScope,
    ∃! c, c ∈ (lossReasons lc db filters ownerScope).categories ∧ c.category = lossCategory lc db d
  category_deals : ∀ c ∈ (lossReasons lc db filters ownerScope).categories,
    c.lostDeals = (lostDeals db filters ownerScope).countP fun d => lossCategory lc db d = c.category
  no_reason : (lossReasons lc db filters ownerScope).noReasonPct =
    pct (heldBy noReasonRecorded (lossReasons lc db filters ownerScope).categories)
      (lossReasons lc db filters ownerScope).totalLost

/-! ## The query -/

/-- The rows of the query are the lost deals, grouped by the name of their reason. -/
theorem getLossReasons_eq : getLossReasons db filters ownerScope =
    (groups (lossReason db) (lostDeals db filters ownerScope)).map lossReasonRow := by
  have hlost : ((leftJoin (fun d : EnrichedDeal => d.deal.row .lostReasonId) DealReason.id
      (dealsEnriched db.toDb) db.dealReasons).filter fun d =>
        Selected (buildFilters filters ownerScope ++ [.forecastType "Closed Lost"]) d.1) =
      (lostDeals db filters ownerScope).map fun d =>
        (d, lookup DealReason.id db.dealReasons (d.deal.row .lostReasonId)) := by
    rw [leftJoin_eq_map db.dealReasons_nodup, List.filter_map, lostDeals, scope, select,
      List.filter_filter]
    congr 1
    apply List.filter_congr
    intro d _
    simp [Selected, Clause.holds, Bool.and_comm]
  rw [getLossReasons, hlost, groups_map, List.map_map]
  apply List.map_congr_left
  intro g _
  rw [Function.comp_apply, List.map_map]
  congr 1
  exact Prod.ext rfl (List.map_id _)

/-- The empty name is in the category of no name. -/
theorem category_of_row (g : Option String × List EnrichedDeal) :
    categorizeLossReason lc
        (if (lossReasonRow g).reason = "" then none else some (lossReasonRow g).reason) =
      categorizeLossReason lc g.1 := by
  obtain ⟨_ | name, ds⟩ := g
  · rfl
  · by_cases hname : name = ""
    · subst hname
      rfl
    · rw [if_neg (show (lossReasonRow (some name, ds)).reason ≠ "" from hname)]
      rfl

theorem lossReasonRow_lostDeals (g : Option String × List EnrichedDeal) :
    (lossReasonRow g).lostDeals = (g.2.map fun _ => 1).sum := by
  rw [lossReasonRow, List.countP_true, List.map_const', List.sum_replicate_nat, Nat.mul_one]

/-- The deals with a reason of some kind, counted group by group. -/
theorem sum_lostDeals (db : ReportDb) (filters : AnalyticsFilters) (ownerScope : Option Int)
    (keep : Option String → Bool) :
    (((groups (lossReason db) (lostDeals db filters ownerScope)).filter fun g => keep g.1).map fun g =>
      (lossReasonRow g).lostDeals).sum =
      (lostDeals db filters ownerScope).countP fun d => keep (lossReason db d) := by
  rw [List.map_congr_left fun g _ => lossReasonRow_lostDeals g, sum_filter_groups, List.map_const',
    List.sum_replicate_nat, Nat.mul_one, List.countP_eq_length_filter]

theorem totalLost_eq (lc : LowerCase) (db : ReportDb) (filters : AnalyticsFilters)
    (ownerScope : Option Int) : (lossReasons lc db filters ownerScope).totalLost =
    (lostDeals db filters ownerScope).length := by
  have hall := sum_lostDeals db filters ownerScope fun _ => true
  rw [List.filter_true, List.countP_true] at hall
  rw [lossReasons, getLossReasons_eq, List.map_map]
  exact hall

/-- `no_reason` counts the empty names only. -/
theorem noReasonPct_eq : (lossReasons lc db filters ownerScope).noReasonPct =
    pct ((lostDeals db filters ownerScope).countP (isUnnamed db))
      (lostDeals db filters ownerScope).length := by
  have hempty := sum_lostDeals db filters ownerScope
    fun reason => reason.getD "" = ""
  have htotal := totalLost_eq lc db filters ownerScope
  rw [lossReasons] at htotal ⊢
  dsimp only at htotal ⊢
  rw [htotal, getLossReasons_eq, List.filter_map, List.map_map]
  exact congrArg (fun n => pct n _) hempty

/-! ## The categories -/

def LossReasonCategory.entry (c : LossReasonCategory) : String × (ℕ × ℚ) :=
  (c.category, c.lostDeals, c.lostValue)

theorem map_entry_addToCategory (category : String) (lostDeals : ℕ) (lostValue : ℚ)
    (cs : List LossReasonCategory) :
    (addToCategory category lostDeals lostValue cs).map LossReasonCategory.entry =
      Tally.add category (lostDeals, lostValue) (cs.map LossReasonCategory.entry) := by
  induction cs with
  | nil => rfl
  | cons c cs ih =>
      rw [addToCategory]
      by_cases hcategory : c.category = category
      · rw [if_pos hcategory, List.map_cons, List.map_cons, Tally.add,
          if_pos (show c.entry.1 = category from hcategory)]
        rfl
      · rw [if_neg hcategory, List.map_cons, List.map_cons, Tally.add,
          if_neg (show c.entry.1 ≠ category from hcategory), ih]

/-- The categories are a tally of the rows of the query, sorted. -/
theorem categories_perm (lc : LowerCase) (db : ReportDb) (filters : AnalyticsFilters)
    (ownerScope : Option Int) : ((lossReasons lc db filters ownerScope).categories.map
    LossReasonCategory.entry).Perm
      (Tally.tally (fun g => categorizeLossReason lc g.1)
        (fun g => ((lossReasonRow g).lostDeals, (lossReasonRow g).lostValue))
        (groups (lossReason db) (lostDeals db filters ownerScope))) := by
  rw [lossReasons]
  apply ((List.mergeSort_perm _ _).map _).trans
  rw [getLossReasons_eq]
  generalize groups (lossReason db) (lostDeals db filters ownerScope) = gs
  suffices hfold : ((gs.map lossReasonRow).foldl (fun cs row => addToCategory
      (categorizeLossReason lc (if row.reason = "" then none else some row.reason))
      row.lostDeals row.lostValue cs) []).map LossReasonCategory.entry =
      Tally.tally (fun g => categorizeLossReason lc g.1)
        (fun g => ((lossReasonRow g).lostDeals, (lossReasonRow g).lostValue)) gs by
    rw [← hfold]
  induction gs using List.reverseRecOn with
  | nil => rfl
  | append_singleton gs g ih =>
      rw [List.map_append, List.map_singleton, List.foldl_append, List.foldl_cons, List.foldl_nil,
        map_entry_addToCategory, ih, Tally.tally_concat, category_of_row]

theorem nodup_categories :
    ((lossReasons lc db filters ownerScope).categories.map LossReasonCategory.category).Nodup := by
  have hkeys := (categories_perm lc db filters ownerScope).map Prod.fst
  have hnodup := hkeys.nodup_iff.2 Tally.nodup_keys_tally
  rwa [List.map_map] at hnodup

theorem mem_categories_iff {category : String} :
    category ∈ (lossReasons lc db filters ownerScope).categories.map LossReasonCategory.category ↔
      ∃ d ∈ lostDeals db filters ownerScope, lossCategory lc db d = category := by
  have hkeys := ((categories_perm lc db filters ownerScope).map Prod.fst).mem_iff (a := category)
  rw [List.map_map, Tally.mem_keys_tally] at hkeys
  apply hkeys.trans
  constructor
  · rintro ⟨g, hg, hcategory⟩
    obtain ⟨⟨d, hd, hreason⟩, -⟩ := mem_groups.1 hg
    exact ⟨d, hd, by rw [lossCategory, hreason, hcategory]⟩
  · rintro ⟨d, hd, hcategory⟩
    have hgroup : (lossReason db d, (lostDeals db filters ownerScope).filter fun d' =>
        lossReason db d' = lossReason db d) ∈
          groups (lossReason db) (lostDeals db filters ownerScope) :=
      mem_groups.2 ⟨⟨d, hd, rfl⟩, rfl⟩
    exact ⟨_, hgroup, hcategory⟩

theorem lostDeals_of_category {c : LossReasonCategory}
    (hc : c ∈ (lossReasons lc db filters ownerScope).categories) :
    c.lostDeals = (lostDeals db filters ownerScope).countP fun d => lossCategory lc db d = c.category := by
  have hentry := Tally.mem_tally ((categories_perm _ _ _ _).mem_iff.1 (List.mem_map_of_mem hc))
  rw [Tally.sum_pairs, List.map_map, List.map_map] at hentry
  have hdeals := (Prod.ext_iff.1 hentry).1
  exact hdeals.trans (sum_lostDeals _ _ _ fun reason => categorizeLossReason lc reason = c.category)

theorem sum_categories :
    ((lossReasons lc db filters ownerScope).categories.map LossReasonCategory.lostDeals).sum =
      (lostDeals db filters ownerScope).length := by
  have hentries := ((categories_perm lc db filters ownerScope).map Prod.snd).sum_eq
  rw [Tally.sum_tally, Tally.sum_pairs, Tally.sum_pairs, List.map_map, List.map_map, List.map_map,
    List.map_map, List.map_map] at hentries
  have hall := sum_lostDeals db filters ownerScope fun _ => true
  rw [List.filter_true, List.countP_true] at hall
  exact (Prod.ext_iff.1 hentries).1.trans hall

/-! ## The share without a reason -/

/-- No reason of the table is mapped to the category of no reason. -/
theorem lookup_ne_noReason (reason : String) :
    (lossCategoryByReason.lookup reason).getD "uncategorised" ≠ noReasonRecorded := by
  cases hlookup : lossCategoryByReason.lookup reason with
  | none => decide
  | some category =>
      rw [List.lookup_eq_some_iff] at hlookup
      obtain ⟨before, after, hsplit, -⟩ := hlookup
      have hin : (reason, category) ∈ lossCategoryByReason := by
        rw [hsplit]
        exact List.mem_append_right _ List.mem_cons_self
      have hall : ∀ e ∈ lossCategoryByReason, e.2 ≠ noReasonRecorded := by decide
      exact hall _ hin

/-- The category of no reason is that of a missing name and of a blank one. -/
theorem categorize_eq_noReason_iff (reason : Option String) :
    categorizeLossReason lc reason = noReasonRecorded ↔ strip (reason.getD "") = "" := by
  cases reason with
  | none => exact iff_of_true rfl rfl
  | some reason =>
      rw [categorizeLossReason, Option.getD_some]
      split
      next hblank => exact iff_of_true rfl hblank
      next hnot => exact iff_of_false (lookup_ne_noReason _) hnot

/-- Its deals are those without a name and those with a blank one. -/
theorem countP_noReason : ((lostDeals db filters ownerScope).countP fun d =>
    lossCategory lc db d = noReasonRecorded) =
      (lostDeals db filters ownerScope).countP (isUnnamed db) +
        (lostDeals db filters ownerScope).countP (isBlank db) := by
  rw [List.countP_eq_countP_filter_add _ _ (isUnnamed db), List.countP_filter, List.countP_filter]
  have hblank : strip "" = "" := rfl
  congr 1
  · apply List.countP_congr
    intro d _
    simp only [lossCategory, categorize_eq_noReason_iff, isUnnamed, Bool.and_eq_true,
      decide_eq_true_eq]
    exact ⟨fun h => h.2, fun h => ⟨by rw [h, hblank], h⟩⟩
  · apply List.countP_congr
    intro d _
    simp only [lossCategory, categorize_eq_noReason_iff, isUnnamed, isBlank, Bool.and_eq_true,
      decide_eq_true_eq, Bool.not_eq_true', decide_eq_false_iff_not]
    cases lossReason db d with
    | none => simp
    | some name => simp [and_comm]

theorem heldBy_eq (category : String) :
    heldBy category (lossReasons lc db filters ownerScope).categories =
      (lostDeals db filters ownerScope).countP fun d => lossCategory lc db d = category := by
  have hheld := Tally.held_of_perm (k := category) (categories_perm lc db filters ownerScope)
  rw [Tally.held_tally, Tally.held, List.filter_map, List.map_map, Tally.sum_pairs, Tally.sum_pairs,
    List.map_map, List.map_map, List.map_map, List.map_map] at hheld
  exact (Prod.ext_iff.1 hheld).1.trans
    (sum_lostDeals _ _ _ fun reason => categorizeLossReason lc reason = category)

/-- The two counts of deals without a reason give the same share. -/
theorem no_reason_iff : (lossReasons lc db filters ownerScope).noReasonPct =
      pct (heldBy noReasonRecorded (lossReasons lc db filters ownerScope).categories)
        (lossReasons lc db filters ownerScope).totalLost ↔
    pct ((lostDeals db filters ownerScope).countP (isUnnamed db))
        (lostDeals db filters ownerScope).length =
      pct ((lostDeals db filters ownerScope).countP (isUnnamed db) +
        (lostDeals db filters ownerScope).countP (isBlank db))
        (lostDeals db filters ownerScope).length := by
  rw [noReasonPct_eq, heldBy_eq, countP_noReason, totalLost_eq]

/-- The categories partition the lost deals in any case. -/
theorem lossesPartitioned_of_no_reason (hshare : (lossReasons lc db filters ownerScope).noReasonPct =
    pct (heldBy noReasonRecorded (lossReasons lc db filters ownerScope).categories)
      (lossReasons lc db filters ownerScope).totalLost) :
    LossesPartitioned lc db filters ownerScope where
  total := totalLost_eq lc db filters ownerScope
  sum_categories := sum_categories.trans (totalLost_eq _ _ _ _).symm
  one_category := by
    intro d hd
    obtain ⟨c, hc, hcategory⟩ := List.mem_map.1 (mem_categories_iff.2 ⟨d, hd, rfl⟩)
    refine ⟨c, ⟨hc, hcategory⟩, ?_⟩
    rintro c' ⟨hc', hsame⟩
    exact List.inj_on_of_nodup_map nodup_categories hc' hc (hsame.trans hcategory.symm)
  category_deals := fun _ hc => lostDeals_of_category hc
  no_reason := hshare

/-- **Exactness of the partition.** The categories partition the lost deals, and the share without a
reason is that of its category, exactly when the deals with a blank name leave the percentage as it is. -/
theorem loss_reasons_partition_iff (lc : LowerCase) (db : ReportDb) (filters : AnalyticsFilters)
    (ownerScope : Option Int) :
    LossesPartitioned lc db filters ownerScope ↔
      pct ((lostDeals db filters ownerScope).countP (isUnnamed db))
          (lostDeals db filters ownerScope).length =
        pct ((lostDeals db filters ownerScope).countP (isUnnamed db) +
          (lostDeals db filters ownerScope).countP (isBlank db))
          (lostDeals db filters ownerScope).length := by
  constructor
  · exact fun h => no_reason_iff.1 h.no_reason
  · exact fun hshare => lossesPartitioned_of_no_reason (no_reason_iff.2 hshare)

/-- One lost deal, with the reason of a blank name. -/
def blankReason : ReportDb where
  deals := DealTable.empty.put ⟨1,
    Function.update (Function.update PartialRecord.empty .stageId (some 10)) .lostReasonId (some 5)⟩
  stages := [⟨⟨10, 1, "Lost"⟩, 1, "Closed Lost", none⟩]
  pipelines := []
  owners := []
  tasks := []
  emails := []
  events := []
  stages_nodup := List.nodup_singleton 10
  pipelines_nodup := List.nodup_nil
  owners_nodup := List.nodup_nil
  directedEmails := []
  emails_eq := noEmails_eq
  dealReasons := [⟨5, " "⟩]
  dealReasons_nodup := List.nodup_singleton 5
  lastSyncedAt := fun _ => 0

/-- All lost deals are without a reason, and the share is 0. -/
theorem blank_reason_not_counted : ¬ LossesPartitioned asciiLower blankReason {} none := by
  intro h
  have hshare := no_reason_iff.1 h.no_reason
  revert hshare
  decide +kernel

end SalesTrades.Analytics
