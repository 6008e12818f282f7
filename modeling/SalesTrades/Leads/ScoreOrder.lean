import Mathlib.Algebra.Order.Ring.Int
import Mathlib.Order.Lattice
import SalesTrades.Leads.Capture

/-!
# The order of engagement scores

A lead that does at least as much as another one on every count has at least its score, and every score
is between 0 and 100 (`engagementScore_bounded_mono`). The tiers are tables in which the first match
counts; such a table is monotone when its points fall from entry to entry (`firstMatch_mono`).
-/

set_option autoImplicit false

namespace SalesTrades.Leads

/-! ## Tables of tiers -/

section Tables

variable {κ : Type} {table : List (κ × Int)} {p q : κ → Bool}

theorem firstMatch_cons (entry : κ × Int) (table : List (κ × Int)) (p : κ → Bool) :
    firstMatch (entry :: table) p = if p entry.1 then entry.2 else firstMatch table p := by
  rw [firstMatch, List.find?_cons]
  cases hp : p entry.1 with
  | true => rfl
  | false => rfl

theorem firstMatch_nonneg (h : ∀ entry ∈ table, 0 ≤ entry.2) : 0 ≤ firstMatch table p := by
  induction table with
  | nil => exact le_rfl
  | cons entry rest ih =>
      obtain ⟨hentry, hrest⟩ := List.forall_mem_cons.1 h
      rw [firstMatch_cons]
      split
      · exact hentry
      · exact ih hrest

/-- No entry of the table is worth more than `bound`. -/
theorem firstMatch_le {bound : Int} (hbound : 0 ≤ bound) (h : ∀ entry ∈ table, entry.2 ≤ bound) :
    firstMatch table p ≤ bound := by
  induction table with
  | nil => exact hbound
  | cons entry rest ih =>
      obtain ⟨hentry, hrest⟩ := List.forall_mem_cons.1 h
      rw [firstMatch_cons]
      split
      · exact hentry
      · exact ih hrest

/-- **Tiers are monotone.** What matches more entries matches no later, and earlier entries are worth
more. -/
theorem firstMatch_mono (hnonneg : ∀ entry ∈ table, 0 ≤ entry.2)
    (hfalling : table.Pairwise fun earlier later => later.2 ≤ earlier.2)
    (hpq : ∀ k, p k = true → q k = true) : firstMatch table p ≤ firstMatch table q := by
  induction table with
  | nil => exact le_rfl
  | cons entry rest ih =>
      obtain ⟨hentry, hrest⟩ := List.forall_mem_cons.1 hnonneg
      obtain ⟨hfirst, hfalling⟩ := List.pairwise_cons.1 hfalling
      rw [firstMatch_cons, firstMatch_cons]
      by_cases hp : p entry.1 = true
      · rw [if_pos hp, if_pos (hpq entry.1 hp)]
      · rw [if_neg hp]
        split
        · -- only the better lead is in this tier
          exact firstMatch_le hentry hfirst
        · exact ih hrest hfalling

end Tables

/-! ## The parts of the score -/

variable {py : LowerCase} {now : Datetime}

theorem openPoints_nonneg (opens : Int) : 0 ≤ openPoints opens := by
  rw [openPoints]
  exact firstMatch_nonneg (by decide)

theorem openPoints_mono {opens opens' : Int} (h : opens ≤ opens') :
    openPoints opens ≤ openPoints opens' := by
  rw [openPoints, openPoints]
  apply firstMatch_mono (by decide) (by decide)
  intro threshold hle
  rw [decide_eq_true_eq] at hle ⊢
  exact le_trans hle h

theorem clickPoints_nonneg (clicked : Option (List String)) : 0 ≤ clickPoints clicked := by
  rw [clickPoints]
  apply le_min
  · exact mul_nonneg (by decide) (Int.natCast_nonneg _)
  · decide

theorem clickPoints_mono {clicked clicked' : Option (List String)}
    (h : (clicked.getD []).length ≤ (clicked'.getD []).length) :
    clickPoints clicked ≤ clickPoints clicked' := by
  rw [clickPoints, clickPoints]
  apply min_le_min_right
  exact mul_le_mul_of_nonneg_left (Int.ofNat_le.2 h) (by decide)

theorem recencyPoints_nonneg (openedAt : Option Datetime) (now : Datetime) :
    0 ≤ recencyPoints openedAt now := by
  cases openedAt with
  | none => exact le_rfl
  | some openedAt =>
      rw [recencyPoints]
      exact firstMatch_nonneg (by decide)

/-- A later open, or one where there was none. -/
theorem recencyPoints_mono {openedAt openedAt' : Option Datetime}
    (h : ∀ t ∈ openedAt, ∃ t' ∈ openedAt', (ensureAware t).instant ≤ (ensureAware t').instant) :
    recencyPoints openedAt now ≤ recencyPoints openedAt' now := by
  cases openedAt with
  | none => exact recencyPoints_nonneg openedAt' now
  | some t =>
      obtain ⟨t', rfl, hle⟩ := h t rfl
      rw [recencyPoints, recencyPoints]
      apply firstMatch_mono (by decide) (by decide)
      intro days hwithin
      rw [decide_eq_true_eq] at hwithin ⊢
      omega

theorem timingPoints_nonneg (timing : Option String) : 0 ≤ timingPoints py timing := by
  rw [timingPoints.eq_def]
  split
  · exact le_rfl
  · split
    · exact le_rfl
    · exact firstMatch_nonneg (by decide)

theorem flag_nonneg {p : Prop} [Decidable p] {points : Int} (h : 0 ≤ points) :
    0 ≤ if p then points else 0 := by
  split
  · exact h
  · exact le_rfl

theorem flag_mono {p q : Prop} [Decidable p] [Decidable q] {points : Int} (h : 0 ≤ points)
    (hpq : p → q) : (if p then points else 0) ≤ if q then points else 0 := by
  by_cases hp : p
  · rw [if_pos hp, if_pos (hpq hp)]
  · rw [if_neg hp]
    exact flag_nonneg h

/-! ## The score -/

/-- `b` does at least as much as `a` on every count, at the same timing. -/
structure AtLeastAsEngaged (a b : Lead) : Prop where
  opens : a.packOpenedCount ≤ b.packOpenedCount
  clicks : (a.packClickedMaterials.getD []).length ≤ (b.packClickedMaterials.getD []).length
  recency : ∀ t ∈ a.packOpenedAt, ∃ t' ∈ b.packOpenedAt,
    (ensureAware t).instant ≤ (ensureAware t').instant
  materials : (a.requestedMaterials.getD []).length ≤ (b.requestedMaterials.getD []).length
  interests : (a.interests.getD []).length ≤ (b.interests.getD []).length
  timing : a.timing = b.timing
  inspection : a.inspectionRequested = true → b.inspectionRequested = true
  optIn : a.marketingOptIn = true → b.marketingOptIn = true
  sent : a.packDeliveryStatus = .sent → b.packDeliveryStatus = .sent

theorem engagementScore_nonneg (py : LowerCase) (lead : Lead) (now : Datetime) :
    0 ≤ engagementScore py lead now := by
  have hopens := openPoints_nonneg lead.packOpenedCount
  have hclicks := clickPoints_nonneg lead.packClickedMaterials
  have hrecency := recencyPoints_nonneg lead.packOpenedAt now
  have htiming := @timingPoints_nonneg py lead.timing
  have hmaterials : 0 ≤ perMaterial * (lead.requestedMaterials.getD []).length :=
    mul_nonneg (by decide) (Int.natCast_nonneg _)
  have hinterests : 0 ≤ perInterest * (lead.interests.getD []).length :=
    mul_nonneg (by decide) (Int.natCast_nonneg _)
  have hinspection : 0 ≤ if lead.inspectionRequested then inspectionPoints else 0 :=
    flag_nonneg (by decide)
  have hoptIn : 0 ≤ if lead.marketingOptIn then marketingOptInPoints else 0 :=
    flag_nonneg (by decide)
  have hsent : 0 ≤ if lead.packDeliveryStatus = .sent then packDeliveredPoints else 0 :=
    flag_nonneg (by decide)
  rw [engagementScore]
  apply le_min
  · omega
  · decide

theorem engagementScore_mono {a b : Lead} (h : AtLeastAsEngaged a b) :
    engagementScore py a now ≤ engagementScore py b now := by
  have hopens := openPoints_mono h.opens
  have hclicks := clickPoints_mono h.clicks
  have hrecency := @recencyPoints_mono now _ _ h.recency
  have hmaterials : perMaterial * (a.requestedMaterials.getD []).length ≤
      perMaterial * (b.requestedMaterials.getD []).length :=
    mul_le_mul_of_nonneg_left (Int.ofNat_le.2 h.materials) (by decide)
  have hinterests : perInterest * (a.interests.getD []).length ≤
      perInterest * (b.interests.getD []).length :=
    mul_le_mul_of_nonneg_left (Int.ofNat_le.2 h.interests) (by decide)
  have hinspection : (if a.inspectionRequested then inspectionPoints else 0) ≤
      if b.inspectionRequested then inspectionPoints else 0 := flag_mono (by decide) h.inspection
  have hoptIn : (if a.marketingOptIn then marketingOptInPoints else 0) ≤
      if b.marketingOptIn then marketingOptInPoints else 0 := flag_mono (by decide) h.optIn
  have hsent : (if a.packDeliveryStatus = .sent then packDeliveredPoints else 0) ≤
      if b.packDeliveryStatus = .sent then packDeliveredPoints else 0 := flag_mono (by decide) h.sent
  -- part by part below the cap
  rw [engagementScore, engagementScore, h.timing]
  apply min_le_min_right
  omega

/-- **The scale of the score.** For all leads and at every time it is between 0 and 100, and it never
falls with what a lead does. -/
theorem engagementScore_bounded_mono (py : LowerCase) (now : Datetime) :
    (∀ lead, 0 ≤ engagementScore py lead now ∧ engagementScore py lead now ≤ 100) ∧
      ∀ a b, AtLeastAsEngaged a b → engagementScore py a now ≤ engagementScore py b now :=
  ⟨fun lead => ⟨engagementScore_nonneg py lead now, min_le_right _ _⟩,
    fun _ _ h => engagementScore_mono h⟩

/-- A lead before and after its pack is delivered and opened for the fifth time. -/
theorem engagementScore_fifth_open :
    let before := { newLead 1 "ada@x.ng" with packOpenedCount := 4, packOpenedAt := some ⟨0, some 0⟩ }
    let after := { before with packOpenedCount := 5, packDeliveryStatus := .sent }
    engagementScore asciiLower before ⟨1, some 0⟩ ≤ engagementScore asciiLower after ⟨1, some 0⟩ := by
  apply (engagementScore_bounded_mono asciiLower ⟨1, some 0⟩).2
  exact
    { opens := by decide
      clicks := le_rfl
      recency := fun t ht => ⟨t, ht, le_rfl⟩
      materials := le_rfl
      interests := le_rfl
      timing := rfl
      inspection := id
      optIn := id
      sent := fun _ => rfl }

end SalesTrades.Leads
