import SalesTrades.Leads.ActivityAttribution
import SalesTrades.Library.Buckets
import SalesTrades.Library.GroupBy
import SalesTrades.Library.Run
import SalesTrades.Library.TiedPaging
import SalesTrades.PythonDates

/-!
# The page of the contact activities

The page counts the activities of a campaign by salesperson and by kind, offers the salespersons as a
filter, and lists the newest 500 activities. The filter on the label of the activities without an owner
reads the column as null, and the filter on an empty name takes every row. So the page of one salesperson
shows what the page of all shows of them exactly when no owner has such a name
(`drills_down_iff`). The sync takes the names from a list without them, so this holds in every run of it
(`drills_down_of_syncs`).
-/

set_option autoImplicit false

namespace SalesTrades.Leads.ActivityPage

open SalesTrades.Library SalesTrades.Library.GroupBy SalesTrades.Library.Buckets
  SalesTrades.Library.TiedPaging SalesTrades.Library.CivilDate SalesTrades.Deals
  SalesTrades.Freshsales SalesTrades.Leads.NogActivitySync

/-! ## The queries -/

/-- `UNASSIGNED`. -/
def unassigned : String := "Unassigned"

/-- The query parameters of `campaign_activities`. -/
structure Params where
  fromDay : Option Deals.Date := none
  toDay : Option Deals.Date := none
  owner : Option String := none
  tier : Option String := none

/-- The beginning of the window, in microseconds. -/
def Params.start (params : Params) : ℤ :=
  match params.fromDay with
  | some day => day.day * microsPerDay
  | none => wallAt (ordinal 2000 1 1) 0

/-- The end of the window, which is in it. -/
def Params.end_ (params : Params) (now : ℤ) : ℤ :=
  match params.toDay with
  | some day => day.day * microsPerDay + (microsPerDay - 1)
  | none => now

/-- The filter on the owner in `_scoped`. -/
def ownerMatches (owner : Option String) (row : Activity) : Bool :=
  if owner = some unassigned then row.ownerName = none
  else owner.all fun owner => owner = "" || row.ownerName = some owner

/-- `_scoped`. -/
def isScoped (campaignId : ℕ) (now : ℤ) (params : Params) (row : Activity) : Bool :=
  row.campaignId = campaignId && params.start ≤ row.occurredAt.instant &&
    row.occurredAt.instant ≤ params.end_ now && ownerMatches params.owner row &&
    params.tier.all fun tier => tier = "" || row.prospectTier = some tier

/-- `coalesce(owner_name, 'Unassigned')`. -/
def ownerLabel (row : Activity) : String := row.ownerName.getD unassigned

abbrev OwnerKind : Type := String × ActivityType

/-- What the rows are grouped by. -/
def ownerKind (row : Activity) : OwnerKind := (ownerLabel row, row.activityType)

/-- `summary_by_owner`, the groups in some order. -/
def summaryByOwner (rows : List Activity) : List (OwnerKind × ℕ) :=
  (groups ownerKind rows).map fun g => (g.1, g.2.length)

/-- `distinct_owners`. -/
def distinctOwners (t : ActivityTable) (campaignId : ℕ) : List String :=
  ((t.rows.filter fun row => row.campaignId = campaignId).map ownerLabel).dedup.mergeSort
    fun a b => a ≤ b

/-- `occurred_at.desc()`. -/
def newestFirst (row : Activity) : ℤᵒᵈ := OrderDual.toDual row.occurredAt.instant

/-! ## The page -/

/-- `ActivityOwnerSummary`. -/
structure OwnerSummary where
  ownerName : String
  call : ℕ := 0
  email : ℕ := 0
  meeting : ℕ := 0
  note : ℕ := 0
  total : ℕ := 0
  deriving DecidableEq

/-- `setattr(row, activity_type, count)` and `row.total += count`. -/
def OwnerSummary.set (row : OwnerSummary) (kind : ActivityType) (count : ℕ) : OwnerSummary :=
  match kind with
  | .call => { row with call := count, total := row.total + count }
  | .email => { row with email := count, total := row.total + count }
  | .meeting => { row with meeting := count, total := row.total + count }
  | .note => { row with note := count, total := row.total + count }

/-- One turn of the loop over the groups: `by_owner.setdefault`, and the count of the group. -/
def intoOwner (group : OwnerKind × ℕ) : List OwnerSummary → List OwnerSummary
  | [] => [OwnerSummary.set { ownerName := group.1.1 } group.1.2 group.2]
  | row :: rest =>
      if row.ownerName = group.1.1 then row.set group.1.2 group.2 :: rest
      else row :: intoOwner group rest

/-- `by_owner`. -/
def byOwner (grouped : List (OwnerKind × ℕ)) : List OwnerSummary :=
  grouped.foldl (fun rows group => intoOwner group rows) []

/-- `ActivityRow`. -/
structure ActivityRow where
  activityType : ActivityType
  contactName : Option String
  ownerName : Option String
  prospectTier : Option String
  direction : Option String
  occurredAt : Datetime
  subject : Option String
  deriving DecidableEq

def activityRowOf (row : Activity) : ActivityRow where
  activityType := row.activityType
  contactName := row.contactName
  ownerName := row.ownerName
  prospectTier := row.prospectTier
  direction := row.direction
  occurredAt := row.occurredAt
  subject := row.subject

/-- `CampaignActivities`. -/
structure CampaignActivities where
  summary : List OwnerSummary
  owners : List String
  tiers : List String
  rows : List ActivityRow
  total : ℕ

/-- The limit of `list_activities`. -/
def rowLimit : ℕ := 500

/-- `campaign_activities`, for the groups and the rows in the order in which the database returns them. -/
def campaignActivities (t : ActivityTable) (campaignId : ℕ) (grouped : List (OwnerKind × ℕ))
    (listing : List Activity) : CampaignActivities where
  summary := (byOwner grouped).mergeSort fun a b => b.total ≤ a.total
  owners := distinctOwners t campaignId
  tiers := tiers
  rows := (listing.take rowLimit).map activityRowOf
  total := (grouped.map Prod.snd).sum

/-- The rows that a request is about. -/
def scopedRows (t : ActivityTable) (campaignId : ℕ) (now : ℤ) (params : Params) : List Activity :=
  t.rows.filter (isScoped campaignId now params)

/-- What a request may get: the database returns the groups in any order, and the rows in any order that
goes by time. -/
def Answers (t : ActivityTable) (campaignId : ℕ) (now : ℤ) (params : Params)
    (page : CampaignActivities) : Prop :=
  ∃ grouped listing, grouped.Perm (summaryByOwner (scopedRows t campaignId now params)) ∧
    IsListing newestFirst (scopedRows t campaignId now params) listing ∧
    page = campaignActivities t campaignId grouped listing

/-! ## What a page shows -/

def countOf (rows : List Activity) (owner : String) (kind : ActivityType) : ℕ :=
  rows.countP fun row => ownerLabel row = owner ∧ row.activityType = kind

/-- The line of an owner, as it should be. -/
def lineOf (rows : List Activity) (owner : String) : OwnerSummary where
  ownerName := owner
  call := countOf rows owner .call
  email := countOf rows owner .email
  meeting := countOf rows owner .meeting
  note := countOf rows owner .note
  total := rows.countP fun row => ownerLabel row = owner

/-- What the page of one owner shows is what the page of all shows of the owner. The rows are all there
when the page of all has them all. -/
structure DrillsDown (all one : CampaignActivities) (owner : String) : Prop where
  summary : one.summary = all.summary.filter fun line => line.ownerName = owner
  total : one.total = (one.summary.map OwnerSummary.total).sum
  rows : all.total ≤ rowLimit →
    one.rows.Perm (all.rows.filter fun row => row.ownerName.getD unassigned = owner)

/-- The page of every owner that is offered drills down, for every window and tier. -/
def ExactFor (t : ActivityTable) (campaignId : ℕ) : Prop :=
  ∀ now params all owner one, params.owner = none → Answers t campaignId now params all →
    owner ∈ all.owners → Answers t campaignId now { params with owner := some owner } one →
      DrillsDown all one owner

/-- No owner has the label of the missing owner for a name, and none an empty one, but where all have. -/
def PlainNames (t : ActivityTable) (campaignId : ℕ) : Prop :=
  ∀ row ∈ t.rows, row.campaignId = campaignId → row.ownerName ≠ some unassigned ∧
    (row.ownerName = some "" → ∀ row' ∈ t.rows, row'.campaignId = campaignId → row'.ownerName = some "")

/-! ## The lines of the summary -/

section Lines

variable {rows : List Activity} {grouped : List (OwnerKind × ℕ)} {kind : ActivityType} {owner : String}

def OwnerSummary.count (row : OwnerSummary) : ActivityType → ℕ
  | .call => row.call
  | .email => row.email
  | .meeting => row.meeting
  | .note => row.note

/-- The kinds of an owner, one after another. -/
def fill (items : List (ActivityType × ℕ)) (row : OwnerSummary) : OwnerSummary :=
  items.foldl (fun row item => row.set item.1 item.2) row

theorem OwnerSummary.ext_count {a b : OwnerSummary} (hname : a.ownerName = b.ownerName)
    (hcount : ∀ kind, a.count kind = b.count kind) (htotal : a.total = b.total) : a = b := by
  obtain ⟨ownerName, call, email, meeting, note, total⟩ := a
  obtain rfl : ownerName = b.ownerName := hname
  obtain rfl : total = b.total := htotal
  obtain rfl : call = b.call := hcount .call
  obtain rfl : email = b.email := hcount .email
  obtain rfl : meeting = b.meeting := hcount .meeting
  obtain rfl : note = b.note := hcount .note
  rfl

@[simp] theorem ownerName_set (row : OwnerSummary) (kind : ActivityType) (count : ℕ) :
    (row.set kind count).ownerName = row.ownerName := by
  cases kind <;> rfl

@[simp] theorem total_set (row : OwnerSummary) (kind : ActivityType) (count : ℕ) :
    (row.set kind count).total = row.total + count := by
  cases kind <;> rfl

theorem count_set (row : OwnerSummary) (kind kind' : ActivityType) (count : ℕ) :
    (row.set kind count).count kind' = if kind = kind' then count else row.count kind' := by
  cases kind <;> cases kind' <;> rfl

theorem fill_ownerName (items : List (ActivityType × ℕ)) (row : OwnerSummary) :
    (fill items row).ownerName = row.ownerName := by
  induction items generalizing row with
  | nil => rfl
  | cons item items ih => exact (ih _).trans (ownerName_set row item.1 item.2)

theorem fill_total (items : List (ActivityType × ℕ)) (row : OwnerSummary) :
    (fill items row).total = row.total + (items.map Prod.snd).sum := by
  induction items generalizing row with
  | nil => rfl
  | cons item items ih =>
      rw [List.map_cons, List.sum_cons, ← Nat.add_assoc, ← total_set row item.1 item.2]
      exact ih _

theorem fill_count_of_not_mem {items : List (ActivityType × ℕ)} (h : kind ∉ items.map Prod.fst)
    (row : OwnerSummary) : (fill items row).count kind = row.count kind := by
  induction items generalizing row with
  | nil => rfl
  | cons item items ih =>
      rw [List.map_cons, List.mem_cons, not_or] at h
      obtain ⟨hne, hrest⟩ := h
      refine (ih hrest _).trans ?_
      rw [count_set, if_neg (Ne.symm hne)]

/-- Each kind comes once, so that the last value set is the only one. -/
theorem fill_count_of_mem {items : List (ActivityType × ℕ)} (hnodup : (items.map Prod.fst).Nodup)
    {count : ℕ} (h : (kind, count) ∈ items) (row : OwnerSummary) :
    (fill items row).count kind = count := by
  induction items generalizing row with
  | nil => cases h
  | cons item items ih =>
      obtain ⟨hfirst, hrest⟩ := List.nodup_cons.1 hnodup
      rcases List.mem_cons.1 h with rfl | h
      · refine (fill_count_of_not_mem hfirst _).trans ?_
        rw [count_set, if_pos rfl]
      · exact ih hrest h _

/-- The loop collects the groups of each owner. -/
theorem byOwner_eq (grouped : List (OwnerKind × ℕ)) :
    byOwner grouped = (buckets (grouped.map fun group => (group.1.1, (group.1.2, group.2)))).map
      fun b => fill b.items { ownerName := b.key } := by
  induction grouped using List.reverseRecOn with
  | nil => rfl
  | append_singleton grouped group ih =>
      rw [List.map_append, List.map_singleton, buckets_concat, byOwner, List.foldl_append,
        List.foldl_cons, List.foldl_nil]
      refine (congrArg (intoOwner group) ih).trans ?_
      -- one group more, in the bucket of its owner
      generalize buckets (grouped.map fun group => (group.1.1, (group.1.2, group.2))) = bs
      induction bs with
      | nil => rfl
      | cons b bs ih =>
          rw [List.map_cons, intoOwner, append, fill_ownerName]
          by_cases hb : b.key = group.1.1
          · rw [if_pos hb, if_pos hb, List.map_cons]
            congr 1
            rw [Bucket.items, Bucket.items, fill, fill, ← List.cons_append, List.foldl_append]
            rfl
          · rw [if_neg hb, if_neg hb, List.map_cons, ih]

theorem mem_summaryByOwner {group : OwnerKind × ℕ} : group ∈ summaryByOwner rows ↔
    group.2 = countOf rows group.1.1 group.1.2 ∧ 0 < group.2 := by
  obtain ⟨⟨owner, kind⟩, count⟩ := group
  simp only [summaryByOwner, List.mem_map, mem_groups]
  -- the rows of a group are those with its owner and kind
  have hcount : (rows.filter fun row => ownerKind row = (owner, kind)).length =
      countOf rows owner kind := by
    rw [countOf, List.countP_eq_length_filter]
    simp only [ownerKind, Prod.mk.injEq]
  constructor
  · rintro ⟨⟨key, members⟩, ⟨⟨row, hrow, hkey⟩, hmembers⟩, heq⟩
    obtain ⟨rfl, rfl⟩ := Prod.mk.inj heq
    dsimp only at hkey hmembers
    rw [hmembers, hcount]
    refine ⟨rfl, List.countP_pos_iff.2 ⟨row, hrow, ?_⟩⟩
    exact decide_eq_true (Prod.mk.inj hkey)
  · rintro ⟨rfl, hpos⟩
    obtain ⟨row, hrow, hkey⟩ := List.countP_pos_iff.1 hpos
    obtain ⟨howner, hkind⟩ := of_decide_eq_true hkey
    refine ⟨((owner, kind), rows.filter fun row => ownerKind row = (owner, kind)),
      ⟨⟨row, hrow, Prod.ext howner hkind⟩, rfl⟩, Prod.ext rfl hcount⟩

theorem nodup_summaryByOwner (rows : List Activity) : ((summaryByOwner rows).map Prod.fst).Nodup := by
  rw [summaryByOwner, List.map_map]
  exact nodup_keys_groups

/-- The groups of an owner add up to the rows of the owner. -/
theorem sum_summaryByOwner (rows : List Activity) (owner : String) :
    (((summaryByOwner rows).filter fun group => group.1.1 = owner).map Prod.snd).sum =
      rows.countP fun row => ownerLabel row = owner := by
  have hsum := @sum_filter_groups Activity OwnerKind _ ownerKind ℕ _
    (fun key => decide (key.1 = owner)) (fun _ => 1) rows
  rw [countP_eq_sum, summaryByOwner, List.filter_map, List.map_map]
  refine Eq.trans ?_ (hsum.trans (sum_map_filter _ _ rows))
  apply congrArg List.sum
  apply List.map_congr_left
  intro group _
  simp

/-- The entries that the loop collects. -/
def ownerEntries (grouped : List (OwnerKind × ℕ)) : List (String × (ActivityType × ℕ)) :=
  grouped.map fun group => (group.1.1, (group.1.2, group.2))

theorem items_ownerEntries {b : Bucket String (ActivityType × ℕ)}
    (hb : b ∈ buckets (ownerEntries grouped)) :
    b.items = (grouped.filter fun group => group.1.1 = b.key).map fun group => (group.1.2, group.2) := by
  rw [items_eq_filter hb, ownerEntries, List.filter_map, List.map_map]
  rfl

/-- What the loop makes of the groups of an owner. -/
theorem fill_bucket (h : grouped.Perm (summaryByOwner rows)) {b : Bucket String (ActivityType × ℕ)}
    (hb : b ∈ buckets (ownerEntries grouped)) :
    fill b.items { ownerName := b.key } = lineOf rows b.key := by
  have hitems := items_ownerEntries hb
  have hkinds : (b.items.map Prod.fst).Nodup := by
    have hkeys : ((grouped.filter fun group => group.1.1 = b.key).map Prod.fst).Nodup :=
      ((h.map Prod.fst).nodup_iff.2 (nodup_summaryByOwner rows)).sublist (List.filter_sublist.map _)
    have hmap : b.items.map Prod.fst =
        ((grouped.filter fun group => group.1.1 = b.key).map Prod.fst).map Prod.snd := by
      rw [hitems, List.map_map, List.map_map]
      rfl
    rw [hmap]
    -- the owner is the same, so the kinds differ
    refine hkeys.map_on ?_
    intro x hx y hy hkind
    obtain ⟨g, hg, rfl⟩ := List.mem_map.1 hx
    obtain ⟨g', hg', rfl⟩ := List.mem_map.1 hy
    have howner := (of_decide_eq_true (List.mem_filter.1 hg).2).trans
      (of_decide_eq_true (List.mem_filter.1 hg').2).symm
    exact Prod.ext howner hkind
  apply OwnerSummary.ext_count
  · exact fill_ownerName _ _
  · intro kind
    have hline : (lineOf rows b.key).count kind = countOf rows b.key kind := by cases kind <;> rfl
    rw [hline]
    by_cases hsome : 0 < countOf rows b.key kind
    · refine fill_count_of_mem hkinds ?_ _
      rw [hitems]
      exact List.mem_map.2 ⟨((b.key, kind), countOf rows b.key kind), List.mem_filter.2
        ⟨h.mem_iff.2 (mem_summaryByOwner.2 ⟨rfl, hsome⟩), decide_eq_true rfl⟩, rfl⟩
    · -- no group, and the count stays at zero
      rw [fill_count_of_not_mem]
      · rw [Nat.eq_zero_of_not_pos hsome]
        cases kind <;> rfl
      · rw [hitems, List.map_map, List.mem_map]
        rintro ⟨⟨⟨owner, kind'⟩, count⟩, hg, rfl⟩
        obtain ⟨hg, howner⟩ := List.mem_filter.1 hg
        obtain rfl := of_decide_eq_true howner
        obtain ⟨hcount, hpos⟩ := mem_summaryByOwner.1 (h.mem_iff.1 hg)
        exact hsome (hcount ▸ hpos)
  · rw [fill_total, hitems, List.map_map]
    refine (Nat.zero_add _).trans ?_
    refine Eq.trans ?_ (sum_summaryByOwner rows b.key)
    exact (((h.filter _).map Prod.snd).sum_eq)

/-- **The summary**, in whatever order the groups come. -/
theorem byOwner_perm (h : grouped.Perm (summaryByOwner rows)) :
    (byOwner grouped).Perm ((rows.map ownerLabel).dedup.map (lineOf rows)) := by
  have hlines : byOwner grouped =
      ((buckets (ownerEntries grouped)).map Bucket.key).map (lineOf rows) := by
    rw [byOwner_eq, List.map_map]
    apply List.map_congr_left
    exact fun b hb => fill_bucket h hb
  rw [hlines]
  apply List.Perm.map
  rw [List.perm_ext_iff_of_nodup (nodup_keys_buckets _) (List.nodup_dedup _)]
  intro owner
  rw [mem_keys_buckets, List.mem_dedup, ownerEntries, List.map_map, List.mem_map, List.mem_map]
  constructor
  · rintro ⟨⟨⟨owner, kind⟩, count⟩, hg, rfl⟩
    obtain ⟨hcount, hpos⟩ := mem_summaryByOwner.1 (h.mem_iff.1 hg)
    obtain ⟨row, hrow, hkey⟩ := List.countP_pos_iff.1 (hcount ▸ hpos)
    exact ⟨row, hrow, (of_decide_eq_true hkey).1⟩
  · rintro ⟨row, hrow, rfl⟩
    have hpos : 0 < countOf rows (ownerLabel row) row.activityType :=
      List.countP_pos_iff.2 ⟨row, hrow, decide_eq_true ⟨rfl, rfl⟩⟩
    exact ⟨((ownerLabel row, row.activityType), _),
      h.mem_iff.2 (mem_summaryByOwner.2 ⟨rfl, hpos⟩), rfl⟩

theorem sum_grouped (h : grouped.Perm (summaryByOwner rows)) :
    (grouped.map Prod.snd).sum = rows.length := by
  rw [(h.map Prod.snd).sum_eq, summaryByOwner, List.map_map]
  refine Eq.trans ?_ ((@sum_groups Activity OwnerKind _ ownerKind ℕ _ (fun _ => 1) rows).trans ?_)
  · apply congrArg List.sum
    apply List.map_congr_left
    intro group _
    simp
  · simp

end Lines

/-! ## The page of one owner -/

/-- The filter takes the rows with the label. -/
def FilterExact (t : ActivityTable) (campaignId : ℕ) : Prop :=
  ∀ owner ∈ distinctOwners t campaignId, ∀ row ∈ t.rows, row.campaignId = campaignId →
    (ownerMatches (some owner) row = true ↔ ownerLabel row = owner)

section Pages

variable {t : ActivityTable} {campaignId : ℕ} {now : ℤ} {params : Params} {owner : String} {row : Activity}
  {page all one : CampaignActivities}

theorem mem_distinctOwners : owner ∈ distinctOwners t campaignId ↔
    ∃ row ∈ t.rows, row.campaignId = campaignId ∧ ownerLabel row = owner := by
  simp only [distinctOwners, List.mem_mergeSort, List.mem_dedup, List.mem_map, List.mem_filter,
    decide_eq_true_eq, and_assoc]

theorem ownerMatches_none (row : Activity) : ownerMatches none row = true := rfl

theorem ownerMatches_unassigned : ownerMatches (some unassigned) row = true ↔ row.ownerName = none := by
  rw [ownerMatches, if_pos rfl, decide_eq_true_eq]

theorem ownerMatches_some (h : owner ≠ unassigned) :
    ownerMatches (some owner) row = true ↔ owner = "" ∨ row.ownerName = some owner := by
  rw [ownerMatches, if_neg fun heq => h (Option.some.inj heq), Option.all_some, Bool.or_eq_true,
    decide_eq_true_eq, decide_eq_true_eq]

theorem ownerLabel_eq_iff (h : owner ≠ unassigned) :
    ownerLabel row = owner ↔ row.ownerName = some owner := by
  rw [ownerLabel]
  cases row.ownerName with
  | none => exact iff_of_false (Ne.symm h) (Option.some_ne_none _).symm
  | some name => exact Option.some_inj.symm

theorem filterExact_iff : FilterExact t campaignId ↔ PlainNames t campaignId := by
  have hempty : "" ≠ unassigned := by decide
  constructor
  · intro h row hrow hcampaign
    have howner : ownerLabel row ∈ distinctOwners t campaignId :=
      mem_distinctOwners.2 ⟨row, hrow, hcampaign, rfl⟩
    constructor
    · intro hname
      have hlabel : ownerLabel row = unassigned := by rw [ownerLabel, hname]; rfl
      have hnone := (h _ (hlabel ▸ howner) row hrow hcampaign).2 hlabel
      rw [ownerMatches_unassigned, hname] at hnone
      cases hnone
    · intro hname row' hrow' hcampaign'
      have hlabel : ownerLabel row = "" := by rw [ownerLabel, hname]; rfl
      have hall := (h _ (hlabel ▸ howner) row' hrow' hcampaign').1
        ((ownerMatches_some hempty).2 (Or.inl rfl))
      exact (ownerLabel_eq_iff hempty).1 hall
  · intro h owner howner row hrow hcampaign
    by_cases hunassigned : owner = unassigned
    · rw [hunassigned, ownerMatches_unassigned, ownerLabel]
      have hname := (h row hrow hcampaign).1
      cases hrowName : row.ownerName with
      | none => exact iff_of_true rfl rfl
      | some name =>
          refine iff_of_false (Option.some_ne_none _) fun heq => hname ?_
          rw [hrowName, ← heq]
          rfl
    · rw [ownerMatches_some hunassigned, ownerLabel_eq_iff hunassigned, or_iff_right_of_imp]
      rintro rfl
      -- an owner with an empty name is offered, so all rows have it
      obtain ⟨row', hrow', hcampaign', hlabel⟩ := mem_distinctOwners.1 howner
      exact (h row' hrow' hcampaign').2 ((ownerLabel_eq_iff hempty).1 hlabel) row hrow hcampaign

/-- The database has an answer. -/
theorem exists_answer (t : ActivityTable) (campaignId : ℕ) (now : ℤ) (params : Params) :
    ∃ page, Answers t campaignId now params page :=
  ⟨_, _, _, List.Perm.refl _, isListing_mergeSort newestFirst (scopedRows t campaignId now params), rfl⟩

theorem owners_of_answers (h : Answers t campaignId now params page) :
    page.owners = distinctOwners t campaignId := by
  obtain ⟨grouped, listing, -, -, rfl⟩ := h
  rfl

/-- **The summary of a page** has the line of every owner with rows, and no other. -/
theorem summary_perm (h : Answers t campaignId now params page) :
    page.summary.Perm (((scopedRows t campaignId now params).map ownerLabel).dedup.map
      (lineOf (scopedRows t campaignId now params))) := by
  obtain ⟨grouped, listing, hgrouped, -, rfl⟩ := h
  exact (List.mergeSort_perm _ _).trans (byOwner_perm hgrouped)

theorem total_eq_length (h : Answers t campaignId now params page) :
    page.total = (scopedRows t campaignId now params).length := by
  obtain ⟨grouped, listing, hgrouped, -, rfl⟩ := h
  exact sum_grouped hgrouped

/-- The lines add up. -/
theorem total_eq_sum (h : Answers t campaignId now params page) :
    page.total = (page.summary.map OwnerSummary.total).sum := by
  rw [total_eq_length h, ((summary_perm h).map OwnerSummary.total).sum_eq, List.map_map]
  have hsum := sum_over_keys (fun _ => 1) (List.nodup_dedup ((scopedRows t campaignId now params).map
    ownerLabel)) fun row hrow => List.mem_dedup.2 (List.mem_map_of_mem hrow)
  refine Eq.trans ?_ (hsum.symm.trans ?_)
  · simp
  · apply congrArg List.sum
    apply List.map_congr_left
    intro owner _
    rw [Function.comp_apply, lineOf, List.countP_eq_length_filter]
    simp

/-- The line of an owner. -/
theorem filter_summary (h : Answers t campaignId now params page) (owner : String) :
    (page.summary.filter fun line => line.ownerName = owner) =
      if owner ∈ (scopedRows t campaignId now params).map ownerLabel then
        [lineOf (scopedRows t campaignId now params) owner] else [] := by
  have hperm := (summary_perm h).filter fun line => line.ownerName = owner
  rw [List.filter_map] at hperm
  have howner : (((scopedRows t campaignId now params).map ownerLabel).dedup.filter
      ((fun line => decide (line.ownerName = owner)) ∘ lineOf (scopedRows t campaignId now params))) =
        if owner ∈ (scopedRows t campaignId now params).map ownerLabel then [owner] else [] := by
    refine (List.filter_eq owner).trans ?_
    rw [List.count_dedup]
    split <;> rfl
  rw [howner] at hperm
  split at hperm
  next hmem =>
    rw [if_pos hmem]
    exact List.perm_singleton.1 hperm
  next hmem =>
    rw [if_neg hmem]
    exact hperm.eq_nil

theorem scopedRows_matching (hnone : params.owner = none) (owner : String) :
    scopedRows t campaignId now { params with owner := some owner } =
      (scopedRows t campaignId now params).filter (ownerMatches (some owner)) := by
  rw [scopedRows, scopedRows, List.filter_filter]
  apply List.filter_congr
  intro row _
  simp only [isScoped, hnone, ownerMatches_none, Params.start, Params.end_, Bool.and_true]
  ac_rfl

/-- With an exact filter, the rows of an owner are those with the label. -/
theorem scopedRows_owner (h : FilterExact t campaignId) (hmem : owner ∈ distinctOwners t campaignId)
    (hnone : params.owner = none) :
    scopedRows t campaignId now { params with owner := some owner } =
      (scopedRows t campaignId now params).filter fun row => ownerLabel row = owner := by
  rw [scopedRows_matching hnone]
  apply List.filter_congr
  intro row hrow
  obtain ⟨hrow, hscoped⟩ := List.mem_filter.1 hrow
  have hcampaign : row.campaignId = campaignId := by
    simp only [isScoped, Bool.and_eq_true, decide_eq_true_eq] at hscoped
    exact hscoped.1.1.1.1
  exact Bool.eq_iff_iff.2 ((h owner hmem row hrow hcampaign).trans decide_eq_true_iff.symm)

/-- An exact filter drills down. -/
theorem drillsDown_of_filterExact (h : FilterExact t campaignId) (hnone : params.owner = none)
    (hall : Answers t campaignId now params all) (hmem : owner ∈ all.owners)
    (hone : Answers t campaignId now { params with owner := some owner } one) :
    DrillsDown all one owner := by
  rw [owners_of_answers hall] at hmem
  have hrows := @scopedRows_owner t campaignId now params owner h hmem hnone
  refine ⟨?_, total_eq_sum hone, fun hlimit => ?_⟩
  · -- all lines of the page are of the owner
    have honly : one.summary = one.summary.filter fun line => line.ownerName = owner := by
      refine (List.filter_eq_self.2 fun line hline => ?_).symm
      obtain ⟨label, hlabel, rfl⟩ := List.mem_map.1 ((summary_perm hone).mem_iff.1 hline)
      obtain ⟨row, hrow, rfl⟩ := List.mem_map.1 (List.mem_dedup.1 hlabel)
      rw [hrows] at hrow
      exact (List.mem_filter.1 hrow).2
    have hline : lineOf ((scopedRows t campaignId now params).filter fun row => ownerLabel row = owner)
        owner = lineOf (scopedRows t campaignId now params) owner := by
      have hcount : ∀ kind, countOf ((scopedRows t campaignId now params).filter fun row =>
          ownerLabel row = owner) owner kind = countOf (scopedRows t campaignId now params) owner kind := by
        intro kind
        rw [countOf, countOf, List.countP_filter]
        apply List.countP_congr
        intro row _
        simp only [Bool.and_eq_true, decide_eq_true_eq]
        exact and_iff_left_of_imp And.left
      simp only [lineOf, hcount, List.countP_filter, Bool.and_self]
    rw [honly, filter_summary hone, filter_summary hall, hrows, hline]
    congr 1
    simp only [List.mem_map, List.mem_filter, decide_eq_true_eq, eq_iff_iff]
    exact exists_congr fun row => and_congr_left fun hlabel => and_iff_left hlabel
  · have htotal := total_eq_length hall
    obtain ⟨grouped, listing, -, hlisting, rfl⟩ := hall
    obtain ⟨grouped', listing', -, hlisting', rfl⟩ := hone
    rw [hrows] at hlisting'
    -- neither list is cut
    have hlength : listing.length ≤ rowLimit := by
      rw [hlisting.perm.length_eq, ← htotal]
      exact hlimit
    have hlength' : listing'.length ≤ rowLimit := by
      refine le_trans ?_ hlength
      rw [hlisting'.perm.length_eq, hlisting.perm.length_eq]
      exact List.length_filter_le _ _
    simp only [campaignActivities, List.take_of_length_le hlength, List.take_of_length_le hlength']
    rw [List.filter_map]
    exact (hlisting'.perm.trans (hlisting.perm.filter _).symm).map _

/-- The window of the day of a row. -/
def dayWindow (row : Activity) : Params where
  fromDay := some ⟨row.occurredAt.instant / microsPerDay⟩
  toDay := some ⟨row.occurredAt.instant / microsPerDay⟩

theorem mem_scopedRows_dayWindow (hrow : row ∈ t.rows) (hcampaign : row.campaignId = campaignId) :
    row ∈ scopedRows t campaignId now (dayWindow row) := by
  have hstart : (dayWindow row).start ≤ row.occurredAt.instant := by
    change row.occurredAt.instant / 86400000000 * 86400000000 ≤ _
    omega
  have hend : row.occurredAt.instant ≤ (dayWindow row).end_ now := by
    change _ ≤ row.occurredAt.instant / 86400000000 * 86400000000 + (86400000000 - 1)
    omega
  refine List.mem_filter.2 ⟨hrow, ?_⟩
  simp only [isScoped, hcampaign, hstart, hend, decide_true, Bool.and_true, Bool.true_and]
  rfl

/-- **Drilling down.** The page of every owner that is offered shows what the page of all shows of the
owner, for every window and tier, exactly when the names are plain. -/
theorem drills_down_iff : ExactFor t campaignId ↔ PlainNames t campaignId := by
  rw [← filterExact_iff]
  constructor
  · intro h owner howner row hrow hcampaign
    -- the pages of the day of the row
    obtain ⟨all, hall⟩ := exists_answer t campaignId 0 (dayWindow row)
    obtain ⟨one, hone⟩ := exists_answer t campaignId 0 { dayWindow row with owner := some owner }
    have hsummary := (h 0 (dayWindow row) all owner one rfl hall
      (owners_of_answers hall ▸ howner) hone).summary
    have hwindow := @mem_scopedRows_dayWindow t campaignId 0 row hrow hcampaign
    have hrows := @scopedRows_matching t campaignId 0 (dayWindow row) rfl owner
    constructor
    · intro hmatches
      -- the row has a line on the page of the owner
      have hline : lineOf (scopedRows t campaignId 0 { dayWindow row with owner := some owner })
          (ownerLabel row) ∈ one.summary := by
        refine (summary_perm hone).mem_iff.2 (List.mem_map_of_mem (List.mem_dedup.2 ?_))
        rw [hrows]
        exact List.mem_map_of_mem (List.mem_filter.2 ⟨hwindow, hmatches⟩)
      rw [hsummary] at hline
      exact of_decide_eq_true (List.mem_filter.1 hline).2
    · intro hlabel
      -- the line of the owner counts the row on both pages
      have hone' := filter_summary hone owner
      rw [hsummary, List.filter_filter] at hone'
      simp only [Bool.and_self] at hone'
      rw [filter_summary hall, if_pos (hlabel ▸ List.mem_map_of_mem hwindow)] at hone'
      split at hone'
      next =>
        have htotal := congrArg OwnerSummary.total (List.cons.inj hone').1
        simp only [lineOf, hrows, List.countP_filter] at htotal
        have hwider : ∀ r ∈ scopedRows t campaignId 0 (dayWindow row),
            (decide (ownerLabel r = owner) && ownerMatches (some owner) r) = true →
              decide (ownerLabel r = owner) = true :=
          fun r _ hr => (Bool.and_eq_true_iff.1 hr).1
        have hcounted := (countP_eq_iff hwider).1 htotal.symm row hwindow (decide_eq_true hlabel)
        exact (Bool.and_eq_true_iff.1 hcounted).2
      next => cases hone'
  · exact fun h now params all owner one hnone hall hmem hone =>
      drillsDown_of_filterExact h hnone hall hmem hone

end Pages

/-! ## The runs of the sync -/

/-- What a run of the sync reads. -/
structure SyncInput where
  crm : Crm
  fuel : ℕ
  campaigns : List Campaign
  leads : List LeadRow
  limit : Option ℕ

/-- The table after a run, `none` where a search in the CRM does not end. -/
def syncStep (lib : ActivityLib) (input : SyncInput) (t : ActivityTable) : Option ActivityTable :=
  (runNogActivitySync lib input.crm input.fuel input.campaigns input.leads input.limit t).map
    SyncRun.table

/-- The contacts have owners from the list. -/
def KnownBase (base : Int → Base) : Prop :=
  ∀ cid name, (base cid).ownerName = some name → name ∈ ownerChoices

/-- Every owner has a name from the list. -/
def KnownOwners (t : ActivityTable) : Prop :=
  ∀ row ∈ t.rows, ∀ name, row.ownerName = some name → name ∈ ownerChoices

section Runs

variable {lib : ActivityLib} {crm : Crm} {fuel : ℕ} {base : Int → Base} {s s' : Session}
  {t t' : ActivityTable}

/-- The contacts of a search get its value. -/
theorem bucketLoop_values {ofText : String → Option Int} {post : String → ℕ → Except PyError Json}
    {allowed values : List String} (hvalues : values ⊆ allowed) {out result : Int → Option String}
    (hout : ∀ cid name, out cid = some name → name ∈ allowed)
    (h : bucketLoop ofText post fuel values out = some (.ok result)) :
    ∀ cid name, result cid = some name → name ∈ allowed := by
  induction values generalizing out with
  | nil =>
      cases h
      exact hout
  | cons value values ih =>
      obtain ⟨hvalue, hvalues⟩ := List.cons_subset.1 hvalues
      rw [bucketLoop] at h
      split at h
      · cases h
      · cases h
      next contacts _ _ =>
        refine ih hvalues (fun cid name hname => ?_) h
        rw [foldl_update_eq] at hname
        split at hname
        · exact Option.some.inj hname ▸ hvalue
        · exact hout cid name hname

/-- Each row comes from the base of a contact. -/
theorem knownOwners_recordEach (hbase : KnownBase base)
    {read : Json → Except PyError (Option (Int × Item))} {xs : List Json}
    (h : recordEach lib base read xs s = .ok s') (hs : KnownOwners s.table) : KnownOwners s'.table := by
  induction xs generalizing s with
  | nil =>
      obtain rfl := Except.ok.inj h
      exact hs
  | cons x xs ih =>
      obtain ⟨found, -, h⟩ := bind_eq_ok.1 h
      cases found with
      | none => exact ih h hs
      | some p =>
          obtain ⟨cid, item⟩ := p
          obtain ⟨next, hnext, h⟩ := bind_eq_ok.1 h
          refine ih h ?_
          rw [upsert] at hnext
          split at hnext
          · obtain rfl := Except.ok.inj hnext
            intro row hrow name hname
            rcases Keyed.mem_put.1 hrow with ⟨hold, -⟩ | rfl
            · exact hs row hold name hname
            · exact hbase cid name hname
          · cases hnext

theorem knownOwners_visitContact (hbase : KnownBase base) {cid : Int}
    (h : visitContact lib crm base cid s = .ok s') (hs : KnownOwners s.table) : KnownOwners s'.table := by
  obtain ⟨conv, -, h⟩ := bind_eq_ok.1 h
  obtain ⟨mailed, hmailed, h⟩ := bind_eq_ok.1 h
  obtain ⟨notes, -, h⟩ := bind_eq_ok.1 h
  obtain ⟨noted, hnoted, h⟩ := bind_eq_ok.1 h
  obtain rfl := Except.ok.inj h
  have hknown : KnownOwners noted.table :=
    knownOwners_recordEach hbase hnoted (knownOwners_recordEach hbase hmailed hs)
  exact hknown

theorem knownOwners_visitContacts (hbase : KnownBase base) (cids : List Int)
    (hs : KnownOwners s.table) : KnownOwners (visitContacts lib crm base cids s).1.table := by
  induction cids generalizing s with
  | nil => exact hs
  | cons cid cids ih =>
      rw [visitContacts]
      cases hvisit : visitContact lib crm base cid s with
      | error e => exact hs
      | ok next => exact ih (knownOwners_visitContact hbase hvisit hs)

theorem knownOwners_recordSales (hbase : KnownBase base) {ids : Finset Int}
    (h : recordSales lib crm fuel base ids s = some (.ok s')) (hs : KnownOwners s.table) :
    KnownOwners s'.table := by
  rw [recordSales] at h
  split at h
  · cases h
  · split at h
    · cases h
    next w _ =>
      obtain ⟨sold, hsold, hend⟩ := bind_eq_ok.1 (Option.some.inj h)
      have hknown := knownOwners_recordEach hbase hsold hs
      cases hraised : w.raised with
      | some e =>
          rw [hraised] at hend
          cases hend
      | none =>
          rw [hraised] at hend
          obtain rfl := Except.ok.inj hend
          exact hknown

/-- The names of the owners are the choices of the field. -/
theorem ownerMap_directory {dir : Directory} (h : directory lib crm fuel = some (.ok dir)) :
    ∀ cid name, dir.ownerMap cid = some name → name ∈ ownerChoices := by
  rw [directory] at h
  split at h
  · cases h
  · split at h
    · cases h
    · cases h
    next ownerMap howners =>
      split at h
      · cases h
      · cases h
      · cases h
        exact bucketLoop_values (List.Subset.refl ownerChoices)
          (fun cid name hname => by cases hname) howners

theorem knownOwners_syncContacts (hbase : KnownBase base) {cids : List Int}
    {run : SyncRun} (h : syncContacts lib crm fuel base cids t = some run) (hs : KnownOwners t) :
    KnownOwners run.table := by
  have hvisits := @knownOwners_visitContacts lib crm base ⟨t, {}⟩ hbase cids hs
  rw [syncContacts] at h
  split at h
  next visited _ heq =>
    cases h
    rwa [heq] at hvisits
  next visited heq =>
    rw [heq] at hvisits
    split at h
    · cases h
    · cases h
      exact hvisits
    next hsales =>
      cases h
      exact knownOwners_recordSales hbase hsales hvisits

/-- **One run** of the sync, however it ends. -/
theorem knownOwners_step {input : SyncInput} (hs : KnownOwners t)
    (h : syncStep lib input t = some t') : KnownOwners t' := by
  obtain ⟨run, hrun, rfl⟩ := Option.map_eq_some_iff.1 h
  rw [runNogActivitySync] at hrun
  split at hrun
  · cases hrun
    exact hs
  · split at hrun
    · cases hrun
    · cases hrun
      exact hs
    next dir hdir =>
      split at hrun
      · cases hrun
        exact hs
      next all _ =>
        have hbase : ∀ campaign contacts, KnownBase (baseOf campaign dir contacts) :=
          fun _ _ => ownerMap_directory hdir
        exact knownOwners_syncContacts (hbase _ _) hrun hs

theorem plainNames_of_knownOwners (h : KnownOwners t) (campaignId : ℕ) : PlainNames t campaignId := by
  intro row hrow _
  constructor
  · intro hname
    exact absurd (h row hrow _ hname) (by decide)
  · intro hname
    exact absurd (h row hrow _ hname) (by decide)

/-- **Every run of syncs** from the empty table, whatever the CRM answers, leaves a table in which the page
of each owner that is offered shows what the page of all shows of the owner. -/
theorem drills_down_of_syncs {es : List SyncInput}
    (hrun : Run.exec (syncStep lib) es noActivities = some t) (campaignId : ℕ) :
    ExactFor t campaignId := by
  have hknown : KnownOwners t := by
    apply Run.exec_invariant (fun input s t' hs hstep => knownOwners_step hs hstep) ?_ hrun
    intro row hrow
    cases hrow
  exact drills_down_iff.2 (plainNames_of_knownOwners hknown campaignId)

end Runs

/-- A run for two contacts without an owner. -/
def sharedMailSync : SyncInput := ⟨sharedMail, 1, [nogCampaign], twoContacts, none⟩

/-- Two runs, the second of which writes the row again. -/
theorem drills_down_sharedMail : ∃ t,
    Run.exec (syncStep plainActivityLib) [sharedMailSync, sharedMailSync] noActivities = some t ∧
      ExactFor t 1 := by
  have hends : (Run.exec (syncStep plainActivityLib) [sharedMailSync, sharedMailSync]
      noActivities).isSome := by
    decide +kernel
  obtain ⟨t, ht⟩ := Option.isSome_iff_exists.1 hends
  exact ⟨t, ht, drills_down_of_syncs ht 1⟩

end SalesTrades.Leads.ActivityPage
