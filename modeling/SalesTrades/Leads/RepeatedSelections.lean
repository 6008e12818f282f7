import Mathlib.Data.List.Dedup
import Mathlib.Data.List.Perm.Subperm
import SalesTrades.Leads.PackRuns
import SalesTrades.Leads.ScoreOrder

/-!
# Repeated selections

A submission with other lists of materials and interests that have the same entries. The tags, the
delivery status and the documents of the captured lead are the same, since each is worked out from the
set of entries; the score counts the entries, so it is the same for all such lists only when nothing is
selected or the distinct entries already bring the score to its maximum (`repeats_harmless_iff`).
-/

set_option autoImplicit false

namespace SalesTrades.Leads

/-! ## First occurrences -/

section FirstOccurrences

variable {α β : Type} [BEq α] [LawfulBEq α] [BEq β] [LawfulBEq β]

/-- What has occurred before adds nothing. -/
theorem eraseDups_append_of_subset {front old : List α} (h : ∀ x ∈ old, x ∈ front) (rest : List α) :
    (front ++ (old ++ rest)).eraseDups = (front ++ rest).eraseDups := by
  have hold : old.removeAll front = [] := by
    apply List.filter_eq_nil_iff.2
    intro x hx
    simp [h x hx]
  have hrest : rest.removeAll (front ++ old) = rest.removeAll front := by
    apply List.filter_congr
    intro x _
    rw [Bool.eq_iff_iff]
    simp only [List.elem_eq_mem, List.mem_append, Bool.not_eq_true', decide_eq_false_iff_not, not_or]
    exact and_iff_left_of_imp fun hx hmem => hx (h x hmem)
  rw [← List.append_assoc, List.eraseDups_append, @List.eraseDups_append _ _ _ front old, hold,
    List.eraseDups_nil, List.append_nil, hrest, List.eraseDups_append]

/-- Later occurrences of `a` add nothing to what comes of them. -/
theorem eraseDups_flatMap_filter (f : α → List β) {a : α} {front : List β} (h : ∀ y ∈ f a, y ∈ front)
    (xs : List α) (rest : List β) :
    (front ++ (xs.flatMap f ++ rest)).eraseDups =
      (front ++ ((xs.filter fun x => !x == a).flatMap f ++ rest)).eraseDups := by
  induction xs generalizing front with
  | nil => rfl
  | cons x xs ih =>
      rw [List.flatMap_cons, List.append_assoc]
      by_cases hx : x = a
      · subst hx
        rw [eraseDups_append_of_subset h, ih h, List.filter_cons_of_neg (by simp)]
      · have hfront : ∀ y ∈ f a, y ∈ front ++ f x := fun y hy => List.mem_append_left _ (h y hy)
        rw [← List.append_assoc, ih hfront, List.filter_cons_of_pos (by simp [hx]), List.flatMap_cons,
          List.append_assoc, List.append_assoc]

/-- What comes of a list, once each, is decided by the first occurrences in the list. -/
theorem eraseDups_flatMap (f : α → List β) (front : List β) (xs : List α) (rest : List β) :
    (front ++ (xs.flatMap f ++ rest)).eraseDups =
      (front ++ (xs.eraseDups.flatMap f ++ rest)).eraseDups := by
  induction hlength : xs.length using Nat.strong_induction_on generalizing xs front with
  | _ n ih =>
      cases xs with
      | nil => rfl
      | cons x xs =>
          have hfirst : ∀ y ∈ f x, y ∈ front ++ f x := fun y hy => List.mem_append_right _ hy
          have hshorter : (xs.filter fun y => !y == x).length < n := by
            rw [← hlength]
            exact Nat.lt_succ_of_le (List.length_filter_le _ xs)
          rw [List.eraseDups_cons, List.flatMap_cons, List.flatMap_cons, List.append_assoc,
            List.append_assoc, ← List.append_assoc front, ← List.append_assoc front,
            eraseDups_flatMap_filter f hfirst, ih _ hshorter _ _ rfl]

end FirstOccurrences
/-! ## Selections -/

/-- The same entries, however often and in whatever order; `None` has none. -/
def SameEntries (a b : Option (List String)) : Prop := ∀ x, x ∈ a.getD [] ↔ x ∈ b.getD []

/-- The submission with other selections. -/
def LeadCreateRequest.reselect (payload : LeadCreateRequest)
    (materials interests : Option (List String)) : LeadCreateRequest :=
  { payload with requestedMaterials := materials, interests := interests }

/-- What the selections of a submission decide on, in the captured lead. -/
structure CapturedAlike (campaign : Campaign) (l l' : Lead) : Prop where
  score : l.engagementScore = l'.engagementScore
  tags : SameEntries l.tags l'.tags
  /-- Entries that are only repeated leave the order of the tags as well. -/
  order : (l.interests.getD []).eraseDups = (l'.interests.getD []).eraseDups → l.tags = l'.tags
  status : l.packDeliveryStatus = l'.packDeliveryStatus
  deliverable : ∀ pair, pair ∈ deliverableMaterials l campaign ↔ pair ∈ deliverableMaterials l' campaign

/-- Whatever lists with the same entries a submission selects with, it is captured in the same row and
alike. -/
def RepeatsHarmless (py : LowerCase) (campaigns : List Campaign) (slug : String)
    (payload : LeadCreateRequest) (now : Datetime) (missed : Bool) (t : LeadTable) : Prop :=
  ∀ materials interests, SameEntries payload.requestedMaterials materials →
    SameEntries payload.interests interests →
      ∀ campaign row created, getBySlug campaigns slug = some campaign →
        (captureLeadCreated py campaigns slug payload now missed t).2 = .ok (row, created) →
          ∃ row', (captureLeadCreated py campaigns slug (payload.reselect materials interests) now
              missed t).2 = .ok (row', created) ∧
            row'.1 = row.1 ∧ CapturedAlike campaign row.2 row'.2

/-- The points of a submission other than for its selections, over the lead that is stored. -/
def otherPoints (py : LowerCase) (payload : LeadCreateRequest) (now : Datetime)
    (existing : Option Lead) : Int :=
  openPoints ((existing.map Lead.packOpenedCount).getD 0) +
    clickPoints (existing.bind Lead.packClickedMaterials) +
    recencyPoints (existing.bind Lead.packOpenedAt) now + timingPoints py payload.timing +
    (if payload.inspectionRequested then inspectionPoints else 0) +
    (if payload.marketingOptIn then marketingOptInPoints else 0) +
    (if nextPackStatus existing (existing.map Lead.packDeliveryStatus)
        ((existing.bind fun l => l.requestedMaterials).getD []) payload = .sent
      then packDeliveredPoints else 0)

/-- The points for two lists of selections. -/
def selectionPoints (materials interests : List String) : Int :=
  perMaterial * materials.length + perInterest * interests.length

/-- The lead that is stored under the email of the submission. -/
def storedLead (py : LowerCase) (campaign : Campaign) (payload : LeadCreateRequest) (t : LeadTable) :
    Option Lead :=
  (getByCampaignEmail t campaign.id (normaliseEmail py payload.email)).map Prod.snd

/-- Nothing is selected, or the distinct selections bring the score to its maximum. -/
def RepeatProof (py : LowerCase) (payload : LeadCreateRequest) (now : Datetime)
    (existing : Option Lead) : Prop :=
  (payload.requestedMaterials.getD [] = [] ∧ payload.interests.getD [] = []) ∨
    maxScore ≤ otherPoints py payload now existing +
      selectionPoints (payload.requestedMaterials.getD []).dedup (payload.interests.getD []).dedup

instance (py : LowerCase) (payload : LeadCreateRequest) (now : Datetime) (existing : Option Lead) :
    Decidable (RepeatProof py payload now existing) := inferInstanceAs (Decidable (_ ∨ _))

/-! ## What a call captures -/

section Capture

variable {py : LowerCase} {campaigns : List Campaign} {slug : String} {campaign : Campaign}
  {payload : LeadCreateRequest} {now : Datetime} {missed : Bool} {t : LeadTable}
  {materials interests : Option (List String)} {existing : Option Lead}

/-- An active campaign captures the submission over the stored lead. -/
theorem captured_eq (hcampaign : getBySlug campaigns slug = some campaign)
    (hactive : campaign.status = .active) :
    (captureLeadCreated py campaigns slug payload now missed t).2 =
      .ok ((((getByCampaignEmail t campaign.id (normaliseEmail py payload.email)).map Prod.fst).getD
          t.nextId, mergedLead py campaign payload now (storedLead py campaign payload t)),
        (storedLead py campaign payload t).isNone) := by
  have hopen : ¬ campaign.status ≠ .active := fun h => h hactive
  rw [captureLeadCreated, storedLead]
  simp only [hcampaign, if_neg hopen]
  rcases captureInCampaign_spec py campaign payload now t (missedLookup_cases missed _) with
    ⟨row, t', hfound, -, hcall⟩ | ⟨t', hfound, -, hcall⟩
  · rw [hcall, hfound]
    rfl
  · rw [hcall, hfound]
    rfl

theorem not_captured {row : LeadRow} {created : Bool}
    (hcampaign : getBySlug campaigns slug = some campaign) (hactive : campaign.status ≠ .active) :
    (captureLeadCreated py campaigns slug payload now missed t).2 ≠ .ok (row, created) := by
  rw [captureLeadCreated]
  simp only [hcampaign, if_pos hactive]
  intro h
  cases h

/-! ### What depends on the entries only -/

theorem SameEntries.empty_iff {a b : Option (List String)} (h : SameEntries a b) :
    a.getD [] = [] ↔ b.getD [] = [] := by
  simp only [List.eq_nil_iff_forall_not_mem]
  exact forall_congr' fun x => not_congr (h x)

theorem isEmpty_reselect (interests : Option (List String))
    (hmaterials : SameEntries payload.requestedMaterials materials) :
    (payload.requestedMaterials.getD []).isEmpty =
      ((payload.reselect materials interests).requestedMaterials.getD []).isEmpty := by
  rw [Bool.eq_iff_iff, List.isEmpty_iff, List.isEmpty_iff]
  exact hmaterials.empty_iff

theorem sameEntries_tags (campaign : Campaign)
    (hmaterials : SameEntries payload.requestedMaterials materials)
    (hinterests : SameEntries payload.interests interests) (tag : String) :
    tag ∈ deriveTags campaign payload ↔
      tag ∈ deriveTags campaign (payload.reselect materials interests) := by
  have hpack := isEmpty_reselect interests hmaterials
  have htag : ∀ f : String → String, tag ∈ (payload.interests.getD []).map f ↔
      tag ∈ ((payload.reselect materials interests).interests.getD []).map f := by
    intro f
    rw [List.mem_map, List.mem_map]
    exact exists_congr fun x => and_congr_left fun _ => hinterests x
  simp only [deriveTags, List.mem_eraseDups, List.mem_filter, List.mem_append, htag, hpack]
  rfl

/-- The tags are decided by the first occurrences of the interests. -/
theorem deriveTags_reselect (campaign : Campaign)
    (hmaterials : SameEntries payload.requestedMaterials materials)
    (h : (payload.interests.getD []).eraseDups = (interests.getD []).eraseDups) :
    deriveTags campaign payload = deriveTags campaign (payload.reselect materials interests) := by
  have hpack := isEmpty_reselect interests hmaterials
  have hinterests : ((payload.reselect materials interests).interests.getD []).eraseDups =
      (payload.interests.getD []).eraseDups := h.symm
  have hfilter : ∀ (f : String → String) (xs : List String), (xs.map f).filter (fun tag => tag != "") =
      xs.flatMap fun x => [f x].filter fun tag => tag != "" := by
    intro f xs
    induction xs with
    | nil => rfl
    | cons x xs ih =>
        rw [List.map_cons, ← List.singleton_append, List.filter_append, List.flatMap_cons, ih]
  simp only [deriveTags, List.filter_append, List.append_assoc, hfilter]
  rw [eraseDups_flatMap,
    eraseDups_flatMap _ _ ((payload.reselect materials interests).interests.getD []), hinterests, hpack]
  rfl

theorem nextPackStatus_reselect (interests : Option (List String)) (existing : Option Lead)
    (prevStatus : Option PackStatus)
    (prevMaterials : List String) (hmaterials : SameEntries payload.requestedMaterials materials) :
    nextPackStatus existing prevStatus prevMaterials payload =
      nextPackStatus existing prevStatus prevMaterials (payload.reselect materials interests) := by
  have hall : (∀ m ∈ payload.requestedMaterials.getD [], m ∈ prevMaterials) ↔
      ∀ m ∈ materials.getD [], m ∈ prevMaterials :=
    forall_congr' fun m => imp_congr_left (hmaterials m)
  have hempty : payload.requestedMaterials.getD [] = [] ↔
      (payload.reselect materials interests).requestedMaterials.getD [] = [] := hmaterials.empty_iff
  simp only [nextPackStatus]
  by_cases hnone : payload.requestedMaterials.getD [] = []
  · rw [if_pos hnone, if_pos (hempty.1 hnone)]
  · rw [if_neg hnone, if_neg (mt hempty.2 hnone)]
    by_cases hkept : existing.isSome = true ∧ prevStatus = some .sent ∧
        ∀ m ∈ payload.requestedMaterials.getD [], m ∈ prevMaterials
    · rw [if_pos hkept, if_pos ⟨hkept.1, hkept.2.1, hall.1 hkept.2.2⟩]
    · rw [if_neg hkept, if_neg fun h => hkept ⟨h.1, h.2.1, hall.2 h.2.2⟩]

/-- The links that go with a label are those of the configuration. -/
theorem urls_of_mem_deliverableLoop {config : CampaignConfig} {seen requested : List String}
    {pair : String × List String} (h : pair ∈ deliverableLoop config seen requested) :
    pair.2 = assetUrls (Json.member config.materialsAssets pair.1) := by
  induction requested generalizing seen with
  | nil => cases h
  | cons first rest ih =>
      rw [deliverableLoop] at h
      split at h
      · exact ih h
      · dsimp only at h
        split at h
        · exact ih h
        · rcases List.mem_cons.1 h with rfl | h
          · rfl
          · exact ih h

theorem mem_deliverableMaterials {lead : Lead} {pair : String × List String} :
    pair ∈ deliverableMaterials lead campaign ↔
      (pair.1 ∈ lead.requestedMaterials.getD [] ∧ campaign.config.Deliverable pair.1) ∧
        pair.2 = assetUrls (Json.member campaign.config.materialsAssets pair.1) := by
  rw [← mem_deliverableLabels, deliverableLabels, List.mem_map]
  constructor
  · intro h
    exact ⟨⟨pair, h, rfl⟩, urls_of_mem_deliverableLoop h⟩
  · rintro ⟨⟨pair', h, hlabel⟩, hurls⟩
    have hsame : pair = pair' := by
      apply Prod.ext hlabel.symm
      rw [hurls, urls_of_mem_deliverableLoop h, hlabel]
    rwa [hsame]

/-! ### The score -/

/-- The score of a captured lead. -/
theorem engagementScore_mergedLead (campaign : Campaign) (existing : Option Lead) :
    (mergedLead py campaign payload now existing).engagementScore =
      min (otherPoints py payload now existing +
        selectionPoints (payload.requestedMaterials.getD []) (payload.interests.getD [])) maxScore := by
  have hsum : ∀ opens clicks recency materials interests timing inspection optIn sent : Int,
      opens + clicks + recency + materials + interests + timing + inspection + optIn + sent =
        opens + clicks + recency + timing + inspection + optIn + sent + (materials + interests) := by
    intros
    omega
  cases existing with
  | none => exact congrArg (min · maxScore) (hsum _ _ _ _ _ _ _ _ _)
  | some lead => exact congrArg (min · maxScore) (hsum _ _ _ _ _ _ _ _ _)

theorem otherPoints_reselect (existing : Option Lead)
    (hmaterials : SameEntries payload.requestedMaterials materials) :
    otherPoints py payload now existing =
      otherPoints py (payload.reselect materials interests) now existing := by
  rw [otherPoints, otherPoints, nextPackStatus_reselect interests _ _ _ hmaterials]
  rfl

theorem length_dedup_le {xs ys : List String} (h : ∀ x, x ∈ xs ↔ x ∈ ys) :
    xs.dedup.length ≤ ys.length := by
  apply List.Subperm.length_le
  apply List.subperm_of_subset (List.nodup_dedup xs)
  intro x hx
  exact (h x).1 (List.mem_dedup.1 hx)

/-- No list with the same entries is worth less than one that has each of them once. -/
theorem selectionPoints_dedup_le {materials materials' interests interests' : List String}
    (hmaterials : ∀ x, x ∈ materials ↔ x ∈ materials')
    (hinterests : ∀ x, x ∈ interests ↔ x ∈ interests') :
    selectionPoints materials.dedup interests.dedup ≤ selectionPoints materials' interests' := by
  have hm := length_dedup_le hmaterials
  have hi := length_dedup_le hinterests
  simp only [selectionPoints, perMaterial, perInterest]
  omega

theorem score_reselect (campaign : Campaign) (existing : Option Lead)
    (hmaterials : SameEntries payload.requestedMaterials materials) :
    (mergedLead py campaign (payload.reselect materials interests) now existing).engagementScore =
      min (otherPoints py payload now existing +
        selectionPoints (materials.getD []) (interests.getD [])) maxScore := by
  rw [engagementScore_mergedLead, ← otherPoints_reselect existing hmaterials]
  rfl

/-- Apart from the score everything is as it is with the lists that were submitted. -/
theorem capturedAlike_of_score (hmaterials : SameEntries payload.requestedMaterials materials)
    (hinterests : SameEntries payload.interests interests)
    (hscore : (mergedLead py campaign payload now existing).engagementScore =
      (mergedLead py campaign (payload.reselect materials interests) now existing).engagementScore) :
    CapturedAlike campaign (mergedLead py campaign payload now existing)
      (mergedLead py campaign (payload.reselect materials interests) now existing) where
  score := hscore
  tags := sameEntries_tags campaign hmaterials hinterests
  order := fun h => congrArg some (deriveTags_reselect campaign hmaterials h)
  status := nextPackStatus_reselect interests existing _ _ hmaterials
  deliverable := by
    intro pair
    rw [mem_deliverableMaterials, mem_deliverableMaterials]
    exact and_congr_left fun _ => and_congr_left fun _ => hmaterials pair.1

/-- Each entry once. -/
theorem sameEntries_dedup (selected : Option (List String)) :
    SameEntries selected (some (selected.getD []).dedup) := fun _ => List.mem_dedup.symm

/-- Each entry once, and one of them once more. -/
theorem sameEntries_cons_dedup {selected : Option (List String)} {x : String}
    (h : x ∈ selected.getD []) : SameEntries selected (some (x :: (selected.getD []).dedup)) := by
  intro y
  rw [Option.getD_some, List.mem_cons, List.mem_dedup]
  constructor
  · exact Or.inr
  · rintro (rfl | hy)
    · exact h
    · exact hy

/-- Below the maximum one more entry changes the score. -/
theorem repeatProof_of_scores (campaign : Campaign)
    (h : ∀ materials interests, SameEntries payload.requestedMaterials materials →
      SameEntries payload.interests interests →
        (mergedLead py campaign payload now existing).engagementScore =
          (mergedLead py campaign (payload.reselect materials interests) now
            existing).engagementScore) :
    RepeatProof py payload now existing := by
  by_contra hnot
  obtain ⟨hselected, hbelow⟩ := not_or.1 hnot
  rw [not_le] at hbelow
  have hm := sameEntries_dedup payload.requestedMaterials
  have hi := sameEntries_dedup payload.interests
  -- with each entry once the score is below the maximum, so an entry more would raise it
  have honce := h _ _ hm hi
  rw [score_reselect campaign existing hm, Option.getD_some, Option.getD_some,
    min_eq_left hbelow.le] at honce
  cases hmaterials : payload.requestedMaterials.getD [] with
  | cons x rest =>
      have hx : x ∈ payload.requestedMaterials.getD [] := by
        rw [hmaterials]
        exact List.mem_cons_self
      have hmore := h _ _ (sameEntries_cons_dedup hx) hi
      rw [honce, score_reselect campaign existing (sameEntries_cons_dedup hx), Option.getD_some,
        Option.getD_some] at hmore
      simp only [selectionPoints, perMaterial, perInterest, maxScore, List.length_cons]
        at hmore hbelow
      omega
  | nil =>
      cases hinterests : payload.interests.getD [] with
      | cons x rest =>
          have hx : x ∈ payload.interests.getD [] := by
            rw [hinterests]
            exact List.mem_cons_self
          have hmore := h _ _ hm (sameEntries_cons_dedup hx)
          rw [honce, score_reselect campaign existing hm, Option.getD_some, Option.getD_some] at hmore
          simp only [selectionPoints, perMaterial, perInterest, maxScore, List.length_cons]
            at hmore hbelow
          omega
      | nil => exact hselected ⟨hmaterials, hinterests⟩

theorem scores_of_repeatProof (h : RepeatProof py payload now existing) (campaign : Campaign)
    (hmaterials : SameEntries payload.requestedMaterials materials)
    (hinterests : SameEntries payload.interests interests) :
    (mergedLead py campaign payload now existing).engagementScore =
      (mergedLead py campaign (payload.reselect materials interests) now existing).engagementScore := by
  rw [score_reselect campaign existing hmaterials, engagementScore_mergedLead]
  rcases h with ⟨hm, hi⟩ | hfull
  · rw [hm, hi, hmaterials.empty_iff.1 hm, hinterests.empty_iff.1 hi]
  · -- both scores are the maximum
    have hown : selectionPoints (payload.requestedMaterials.getD []).dedup
        (payload.interests.getD []).dedup ≤
          selectionPoints (payload.requestedMaterials.getD []) (payload.interests.getD []) :=
      selectionPoints_dedup_le (fun _ => Iff.rfl) fun _ => Iff.rfl
    have hother := selectionPoints_dedup_le hmaterials hinterests
    rw [min_eq_right (by omega), min_eq_right (by omega)]

end Capture

/-- **Exactness.** A submission is captured alike with all lists that have its entries if and only if it
selects nothing, or its distinct selections bring the score to the maximum. -/
theorem repeats_harmless_iff (py : LowerCase) (campaigns : List Campaign) (slug : String)
    (payload : LeadCreateRequest) (now : Datetime) (missed : Bool) (t : LeadTable) :
    RepeatsHarmless py campaigns slug payload now missed t ↔
      ∀ campaign, getBySlug campaigns slug = some campaign → campaign.status = .active →
        RepeatProof py payload now (storedLead py campaign payload t) := by
  constructor
  · intro h campaign hcampaign hactive
    apply repeatProof_of_scores campaign
    intro materials interests hmaterials hinterests
    obtain ⟨row', hcall, -, halike⟩ := h materials interests hmaterials hinterests campaign _ _
      hcampaign (captured_eq hcampaign hactive)
    rw [captured_eq hcampaign hactive] at hcall
    cases hcall
    exact halike.score
  · intro h materials interests hmaterials hinterests campaign row created hcampaign hcall
    by_cases hactive : campaign.status = .active
    · rw [captured_eq hcampaign hactive] at hcall
      cases hcall
      refine ⟨_, captured_eq hcampaign hactive, rfl, ?_⟩
      apply capturedAlike_of_score hmaterials hinterests
      exact scores_of_repeatProof (h campaign hcampaign hactive) campaign hmaterials hinterests
    · exact absurd hcall (not_captured hcampaign hactive)

/-- Ada is interested in offices. -/
def interestedInOffices : LeadCreateRequest := { packRequest [] with interests := some ["Offices"] }

/-- An interest that is sent twice counts twice. -/
theorem interest_twice_scores_twice :
    ¬ RepeatsHarmless asciiLower standWorld.campaigns.list "nog-2026" interestedInOffices
      ⟨0, some 0⟩ false standWorld.leads := by
  intro h
  have htwice : SameEntries interestedInOffices.interests (some ["Offices", "Offices"]) := by
    intro x
    simp [interestedInOffices]
  obtain ⟨row', hcall, -, halike⟩ := h (some []) (some ["Offices", "Offices"]) (fun _ => Iff.rfl)
    htwice _ _ _ rfl (captured_eq rfl rfl)
  rw [captured_eq rfl rfl] at hcall
  cases hcall
  have hscore := halike.score
  revert hscore
  decide

end SalesTrades.Leads
