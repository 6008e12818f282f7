import Mathlib.Data.List.Sort
import Mathlib.Tactic.Common

/-!
# Pages of a query whose order has ties

`ORDER BY key LIMIT size OFFSET p * size`, asked page by page. Rows with the same key come in any order,
and every request may have another one (`IsListing`). So the pages are pages of different listings. They
hold every row exactly once whatever listings the requests get exactly when no boundary between two pages
falls among rows with one key (`pages_complete_iff`).
-/

set_option autoImplicit false

namespace SalesTrades.Library.TiedPaging

universe u v

variable {α : Type u} {κ : Type v} [LinearOrder κ] {key : α → κ} {rows listing listing' : List α}

/-- The rows in an order that the query allows. -/
structure IsListing (key : α → κ) (rows listing : List α) : Prop where
  perm : listing.Perm rows
  sorted : listing.Pairwise fun a b => key a ≤ key b

/-- `OFFSET p * size LIMIT size`. -/
def pageAt (size p : Nat) (listing : List α) : List α := (listing.drop (p * size)).take size

/-- The first `n` pages, each of the listing that its request gets. -/
def collect (size : Nat) (listings : Nat → List α) (n : Nat) : List α :=
  (List.range n).flatMap fun p => pageAt size p (listings p)

/-- Some rows with the key of a row are among the first `k` of every listing, and some are not. -/
def Straddles (key : α → κ) (rows : List α) (k : Nat) : Prop :=
  ∃ a ∈ rows, rows.countP (fun b => key b < key a) < k ∧ k < rows.countP (fun b => key b ≤ key a)

instance (rows : List α) (k : Nat) : Decidable (Straddles key rows k) :=
  inferInstanceAs (Decidable (∃ a ∈ rows, _))

/-- Every row is on one page, whatever listings the requests get. -/
def Complete (key : α → κ) (rows : List α) (size n : Nat) : Prop :=
  ∀ listings : Nat → List α, (∀ p, IsListing key rows (listings p)) → (collect size listings n).Perm rows

/-! ## The beginning of a listing -/

/-- Rows below a bound come first. -/
theorem take_countP_of_sorted {p : α → Bool} (hsorted : listing.Pairwise fun a b => key a ≤ key b)
    (hdown : ∀ a b, key a ≤ key b → p b = true → p a = true) :
    listing.take (listing.countP p) = listing.filter p := by
  induction listing with
  | nil => rfl
  | cons a rest ih =>
      obtain ⟨ha, hrest⟩ := List.pairwise_cons.1 hsorted
      by_cases hp : p a = true
      · rw [List.countP_cons_of_pos hp, List.take_succ_cons, List.filter_cons_of_pos hp, ih hrest]
      · -- nothing after a row above the bound is below it
        have hnone : ∀ b ∈ a :: rest, ¬ p b = true := by
          intro b hb
          rcases List.mem_cons.1 hb with rfl | hb
          · exact hp
          · exact fun h => hp (hdown a b (ha b hb) h)
        rw [List.countP_eq_zero.2 hnone, List.take_zero, List.filter_eq_nil_iff.2 hnone]

/-- The first `k` rows are the same in every listing, up to their order, where `k` does not separate
rows with one key. -/
theorem take_perm (h : IsListing key rows listing) (h' : IsListing key rows listing') {k : Nat}
    (hk : ¬ Straddles key rows k) : (listing.take k).Perm (listing'.take k) := by
  by_cases hlength : k < listing.length
  · -- the rows before the one at place `k` are the ones with a smaller key
    let a := listing[k]
    have ha : a ∈ rows := h.perm.subset (List.getElem_mem hlength)
    have hbelow : ∀ {l}, IsListing key rows l →
        l.take (rows.countP fun b => key b < key a) = l.filter fun b => key b < key a := by
      intro l hl
      rw [← hl.perm.countP_eq]
      apply take_countP_of_sorted hl.sorted
      intro x y hxy hy
      exact decide_eq_true (hxy.trans_lt (of_decide_eq_true hy))
    have hle : ¬ k < rows.countP fun b => key b < key a := by
      intro hlt
      have hmem : a ∈ listing.take (rows.countP fun b => key b < key a) :=
        List.mem_take_iff_getElem.2 ⟨k, lt_min hlt hlength, rfl⟩
      rw [hbelow h] at hmem
      exact lt_irrefl _ (of_decide_eq_true (List.mem_filter.1 hmem).2)
    have hlt : k < rows.countP fun b => key b ≤ key a := by
      -- the rows up to place `k` have no larger key
      have hall : ∀ b ∈ listing.take (k + 1), decide (key b ≤ key a) = true := by
        intro b hb
        obtain ⟨i, hi, rfl⟩ := List.mem_take_iff_getElem.1 hb
        rcases (Nat.lt_succ_iff.1 (hi.trans_le (min_le_left _ _))).lt_or_eq with hik | rfl
        · exact decide_eq_true (List.pairwise_iff_getElem.1 h.sorted i k _ hlength hik)
        · exact decide_eq_true le_rfl
      have hcount := (List.take_sublist (k + 1) listing).countP_le (p := fun b => decide (key b ≤ key a))
      rw [List.countP_eq_length.2 hall, List.length_take, min_eq_left hlength, h.perm.countP_eq] at hcount
      exact hcount
    have heq : rows.countP (fun b => key b < key a) = k :=
      le_antisymm (not_lt.1 hle) (not_lt.1 fun hlt' => hk ⟨a, ha, hlt', hlt⟩)
    rw [← heq, hbelow h, hbelow h']
    exact (h.perm.trans h'.perm.symm).filter _
  · have hlength' : listing'.length ≤ k := by
      rw [h'.perm.length_eq, ← h.perm.length_eq]
      exact not_lt.1 hlength
    rw [List.take_of_length_le (not_lt.1 hlength), List.take_of_length_le hlength']
    exact h.perm.trans h'.perm.symm

/-! ## Pages one after another -/

theorem take_append_pageAt (size p : Nat) (listing : List α) :
    listing.take (p * size) ++ pageAt size p listing = listing.take ((p + 1) * size) := by
  rw [pageAt, ← List.take_add, Nat.succ_mul]

theorem collect_succ (size : Nat) (listings : Nat → List α) (n : Nat) :
    collect size listings (n + 1) = collect size listings n ++ pageAt size n (listings n) := by
  rw [collect, List.range_succ, List.flatMap_append, List.flatMap_singleton]
  rfl

/-- Pages of different listings make up the beginning of any listing. -/
theorem collect_perm (h : IsListing key rows listing) {size n : Nat} {listings : Nat → List α}
    (hlistings : ∀ p, IsListing key rows (listings p)) (hclear : ∀ p, ¬ Straddles key rows (p * size)) :
    (collect size listings n).Perm (listing.take (n * size)) := by
  induction n with
  | zero => rw [Nat.zero_mul, List.take_zero]; exact List.Perm.refl _
  | succ n ih =>
      have hbefore := ih.trans (take_perm h (hlistings n) (hclear n))
      have hpage := hbefore.append_right (pageAt size n (listings n))
      rw [take_append_pageAt] at hpage
      rw [collect_succ]
      exact hpage.trans (take_perm (hlistings n) h (hclear (n + 1)))

/-! ## A boundary within a tie -/

/-- A listing exists. -/
theorem isListing_mergeSort (key : α → κ) (rows : List α) :
    IsListing key rows (rows.mergeSort fun a b => key a ≤ key b) where
  perm := List.mergeSort_perm _ _
  sorted := by
    refine (List.pairwise_mergeSort ?_ ?_ rows).imp of_decide_eq_true
    · intro a b c hab hbc
      exact decide_eq_true ((of_decide_eq_true hab).trans (of_decide_eq_true hbc))
    · intro a b
      rw [Bool.or_eq_true, decide_eq_true_eq, decide_eq_true_eq]
      exact le_total _ _

/-- Neighbours with one key may change places. -/
theorem IsListing.swap {front back : List α} {a b : α} (hab : key a = key b)
    (h : IsListing key rows (front ++ a :: b :: back)) :
    IsListing key rows (front ++ b :: a :: back) where
  perm := ((List.Perm.swap a b back).append_left front).trans h.perm
  sorted := by
    have hsorted := h.sorted
    simp only [List.pairwise_append, List.pairwise_cons, List.mem_cons, forall_eq_or_imp] at hsorted ⊢
    obtain ⟨hfront, ⟨⟨-, hpast⟩, hpast', hback⟩, hcross⟩ := hsorted
    refine ⟨hfront, ⟨⟨hab.ge, hpast'⟩, hpast, hback⟩, fun x hx => ?_⟩
    obtain ⟨hxa, hxb, hxback⟩ := hcross x hx
    exact ⟨hxb, hxa, hxback⟩

/-- Around a boundary within a tie there are neighbours with one key in every listing. -/
theorem exists_neighbours (h : IsListing key rows listing) {k : Nat} (hk : Straddles key rows k) :
    ∃ front a b back, listing = front ++ a :: b :: back ∧ front.length + 1 = k ∧ key a = key b := by
  obtain ⟨c, -, hbelow, hupto⟩ := hk
  rw [← h.perm.countP_eq] at hbelow hupto
  have hlength : k < listing.length := hupto.trans_le List.countP_le_length
  obtain ⟨j, rfl⟩ := Nat.exists_eq_succ_of_ne_zero (Nat.ne_zero_of_lt hbelow)
  -- every row at a place between the two counts has the key of the tie
  have htie : ∀ i (hi : i < listing.length), listing.countP (fun b => key b < key c) ≤ i →
      i < listing.countP (fun b => key b ≤ key c) → key listing[i] = key c := by
    intro i hi hge hlt
    apply le_antisymm
    · have hmem : listing[i] ∈ listing.take (listing.countP fun b => key b ≤ key c) :=
        List.mem_take_iff_getElem.2 ⟨i, lt_min hlt hi, rfl⟩
      rw [take_countP_of_sorted h.sorted fun x y hxy hy =>
        decide_eq_true (hxy.trans (of_decide_eq_true hy))] at hmem
      exact of_decide_eq_true (List.mem_filter.1 hmem).2
    · by_contra hsmaller
      have hall : ∀ b ∈ listing.take (i + 1), decide (key b < key c) = true := by
        intro b hb
        obtain ⟨j, hj, rfl⟩ := List.mem_take_iff_getElem.1 hb
        rcases (Nat.lt_succ_iff.1 (hj.trans_le (min_le_left _ _))).lt_or_eq with hji | rfl
        · exact decide_eq_true ((List.pairwise_iff_getElem.1 h.sorted j i _ hi hji).trans_lt
            (not_le.1 hsmaller))
        · exact decide_eq_true (not_le.1 hsmaller)
      have hcount := (List.take_sublist (i + 1) listing).countP_le (p := fun b => decide (key b < key c))
      rw [List.countP_eq_length.2 hall, List.length_take, min_eq_left hi] at hcount
      exact absurd hcount (not_le.2 (Nat.lt_succ_of_le hge))
  have hprev : j < listing.length := (Nat.lt_succ_self j).trans hlength
  refine ⟨listing.take j, listing[j], listing[j + 1], listing.drop (j + 2), ?_, ?_, ?_⟩
  · rw [← List.drop_eq_getElem_cons hlength, ← List.drop_eq_getElem_cons hprev, List.take_append_drop]
  · rw [List.length_take, min_eq_left hprev.le]
  · rw [htie j hprev (Nat.le_of_lt_succ hbelow) ((Nat.lt_succ_self j).trans hupto),
      htie (j + 1) hlength hbelow.le hupto]

theorem mem_pageAt {size p i : Nat} {a : α} (hi : listing[i]? = some a) (hge : p * size ≤ i)
    (hlt : i < (p + 1) * size) : a ∈ pageAt size p listing := by
  have hplace : i - p * size < size := by
    rw [Nat.succ_mul] at hlt
    omega
  refine List.mem_iff_getElem?.2 ⟨i - p * size, ?_⟩
  rw [pageAt, List.getElem?_take_of_lt hplace, List.getElem?_drop, Nat.add_sub_cancel' hge, hi]

/-- **Pages of a query.** -/
theorem pages_complete_iff (hrows : rows.Nodup) {size n : Nat} (hsize : 0 < size)
    (hpages : rows.length ≤ n * size) :
    Complete key rows size n ↔ ∀ p, ¬ Straddles key rows (p * size) := by
  have hsome := isListing_mergeSort key rows
  constructor
  · intro hcomplete p hstraddles
    obtain ⟨front, a, b, back, hlisting, hfront, hab⟩ := exists_neighbours hsome hstraddles
    obtain ⟨before, rfl⟩ : ∃ before, p = before + 1 := by
      refine Nat.exists_eq_succ_of_ne_zero ?_
      rintro rfl
      rw [Nat.zero_mul] at hfront
      exact Nat.succ_ne_zero _ hfront
    -- the page after the boundary is one of the listing in which the two rows change places
    have hswapped := IsListing.swap hab (hlisting ▸ hsome)
    let listings : Nat → List α := fun q =>
      if q = before + 1 then front ++ b :: a :: back else front ++ a :: b :: back
    have hnodup : (collect size listings n).Nodup := by
      refine (hcomplete listings fun q => ?_).nodup_iff.2 hrows
      by_cases hq : q = before + 1
      · simp only [listings, if_pos hq]
        exact hswapped
      · simp only [listings, if_neg hq]
        exact hlisting ▸ hsome
    have hlast : a ∈ pageAt size before (listings before) := by
      simp only [listings, if_neg (Nat.ne_of_lt (Nat.lt_succ_self before))]
      apply mem_pageAt (i := front.length)
      · rw [List.getElem?_append_right le_rfl, Nat.sub_self, List.getElem?_cons_zero]
      · have hmul : (before + 1) * size = before * size + size := Nat.succ_mul before size
        omega
      · omega
    have hfirst : a ∈ pageAt size (before + 1) (listings (before + 1)) := by
      simp only [listings, if_true]
      apply mem_pageAt (i := front.length + 1)
      · rw [List.getElem?_append_right (Nat.le_add_right _ 1), Nat.add_sub_cancel_left,
          List.getElem?_cons_succ, List.getElem?_cons_zero]
      · exact hfront.ge
      · have hmul : (before + 1 + 1) * size = (before + 1) * size + size := Nat.succ_mul (before + 1) size
        omega
    have hbound : before + 1 < n := by
      have hlength := hsome.perm.length_eq
      rw [hlisting, List.length_append, List.length_cons, List.length_cons] at hlength
      by_contra hge
      have hmul := Nat.mul_le_mul_right size (not_lt.1 hge)
      omega
    rw [collect, List.nodup_flatMap] at hnodup
    have hdisjoint := List.pairwise_iff_getElem.1 hnodup.2 before (before + 1)
      (by rw [List.length_range]; omega) (by rw [List.length_range]; exact hbound) (Nat.lt_succ_self _)
    rw [List.getElem_range, List.getElem_range] at hdisjoint
    exact hdisjoint hlast hfirst
  · intro hclear listings hlistings
    have hcollect := collect_perm (n := n) hsome hlistings hclear
    rw [List.take_of_length_le (hsome.perm.length_eq.trans_le hpages)] at hcollect
    exact hcollect.trans hsome.perm

end SalesTrades.Library.TiedPaging
