import Mathlib.Data.List.Count
import Mathlib.Data.List.Nodup
import SalesTrades.Library.Sweep

/-!
# Backlogs worked off from the oldest entry

A run takes up to `limit` entries from the head of a backlog. An entry leaves the backlog, stays, or
raises and ends the run, the same way whenever it comes up. Entries that stay are taken again by every
later run, so a run gets past the entries seen so far by what they leave of its limit (`frontier`). The
runs come to exactly the entries before the frontier (`exists_reached_iff`).
-/

set_option autoImplicit false

namespace SalesTrades.Library.Backlog

open SalesTrades.Library.Sweep

universe u v w x y

/-- What becomes of an entry whenever a run comes to it. -/
inductive Fate where
  /-- Nothing is attempted, and it stays. -/
  | passed
  | leaves
  | stays
  | raises
  deriving DecidableEq

section Entries

variable {α : Type u} {fate : α → Fate} {entries front rest : List α} {limit k r : Nat} {a : α}

/-- The entries that a run comes to. -/
def reached (fate : α → Fate) : List α → List α
  | [] => []
  | a :: rest => if fate a = .raises then [a] else a :: reached fate rest

/-- The entry is still in the backlog after it came up. -/
def clogs (fate : α → Fate) (a : α) : Bool := fate a != .leaves

/-- The backlog after a run. -/
def afterRun [DecidableEq α] (fate : α → Fate) (limit : Nat) (backlog : List α) : List α :=
  backlog.filter fun a => a ∉ reached fate (backlog.take limit) || clogs fate a

/-- The backlog before run `r`. -/
def backlogAt [DecidableEq α] (fate : α → Fate) (limit : Nat) (entries : List α) : Nat → List α
  | 0 => entries
  | r + 1 => afterRun fate limit (backlogAt fate limit entries r)

/-- How many entries the first `r` runs have come to. -/
def frontier (fate : α → Fate) (limit : Nat) (entries : List α) : Nat → Nat
  | 0 => 0
  | r + 1 =>
      let seen := frontier fate limit entries r
      min (reached fate entries).length
        (seen + (limit - (entries.take seen).countP (clogs fate)))

/-- How many runs `n` entries fill. -/
def runsFor (n limit : Nat) : Nat := (n + limit - 1) / limit

/-! ### Where a run ends -/

theorem reached_begins (fate : α → Fate) (entries : List α) : reached fate entries <+: entries := by
  induction entries with
  | nil => exact List.prefix_rfl
  | cons a rest ih =>
      rw [reached]
      split
      · exact ⟨rest, rfl⟩
      · exact List.cons_prefix_cons.2 ⟨rfl, ih⟩

theorem reached_eq_take (fate : α → Fate) (entries : List α) :
    reached fate entries = entries.take (reached fate entries).length :=
  List.prefix_iff_eq_take.1 (reached_begins fate entries)

/-- A run goes on after entries that do not raise. -/
theorem reached_append (h : ∀ a ∈ front, fate a ≠ .raises) :
    reached fate (front ++ rest) = front ++ reached fate rest := by
  induction front with
  | nil => rfl
  | cons a front ih =>
      obtain ⟨ha, hfront⟩ := List.forall_mem_cons.1 h
      rw [List.cons_append, reached, if_neg ha, ih hfront, List.cons_append]

/-- Nothing ends a run in which no entry raises. -/
theorem reached_eq_self (h : ∀ a ∈ entries, fate a ≠ .raises) : reached fate entries = entries := by
  have happend : reached fate (entries ++ []) = entries ++ reached fate [] := reached_append h
  rwa [List.append_nil, reached, List.append_nil] at happend

/-- It does not come past one that raises. -/
theorem reached_append_of_raises (h : ∃ a ∈ front, fate a = .raises) :
    reached fate (front ++ rest) = reached fate front := by
  induction front with
  | nil =>
      obtain ⟨a, ha, -⟩ := h
      cases ha
  | cons a front ih =>
      rw [List.cons_append, reached, reached]
      by_cases ha : fate a = .raises
      · rw [if_pos ha, if_pos ha]
      · rw [if_neg ha, if_neg ha, ih]
        obtain ⟨b, hb, hraises⟩ := h
        rcases List.mem_cons.1 hb with rfl | hb
        · exact absurd hraises ha
        · exact ⟨b, hb, hraises⟩

theorem reached_take (n : Nat) : reached fate (entries.take n) = (reached fate entries).take n := by
  induction entries generalizing n with
  | nil => simp [reached]
  | cons a rest ih =>
      cases n with
      | zero => rfl
      | succ n =>
          rw [List.take_succ_cons, reached, reached]
          split
          · simp
          · rw [ih n, List.take_succ_cons]

/-- Either the run raised at its last entry, or it came to all of them. -/
theorem raises_or_all (fate : α → Fate) (entries : List α) :
    (∃ a ∈ reached fate entries, fate a = .raises) ∨ reached fate entries = entries := by
  induction entries with
  | nil => exact Or.inr rfl
  | cons a rest ih =>
      rw [reached]
      by_cases ha : fate a = .raises
      · rw [if_pos ha]
        exact Or.inl ⟨a, List.mem_singleton_self a, ha⟩
      · rw [if_neg ha]
        rcases ih with ⟨b, hb, hraises⟩ | hall
        · exact Or.inl ⟨b, List.mem_cons_of_mem a hb, hraises⟩
        · exact Or.inr (by rw [hall])

/-- Only the last entry of a run raises. -/
theorem not_raises_of_take {m : Nat} (hm : m < (reached fate entries).length) :
    ∀ a ∈ entries.take m, fate a ≠ .raises := by
  induction entries generalizing m with
  | nil =>
      intro a ha
      simp at ha
  | cons b rest ih =>
      cases m with
      | zero =>
          intro a ha
          simp at ha
      | succ m =>
          rw [reached] at hm
          split at hm
          · simp at hm
          · rename_i hb
            rw [List.take_succ_cons, List.forall_mem_cons]
            exact ⟨hb, ih (Nat.lt_of_succ_lt_succ hm)⟩

/-! ### What the runs come to -/

theorem frontier_le (fate : α → Fate) (limit : Nat) (entries : List α) (r : Nat) :
    frontier fate limit entries r ≤ (reached fate entries).length := by
  cases r with
  | zero => exact Nat.zero_le _
  | succ r => exact Nat.min_le_left _ _

/-- What run `r` adds to the entries seen before it. -/
def added (fate : α → Fate) (limit : Nat) (entries : List α) (r : Nat) : List α :=
  (entries.drop (frontier fate limit entries r)).take
    (frontier fate limit entries (r + 1) - frontier fate limit entries r)

/-- The entries that the first `r` runs have come to and that are still there. -/
def clogged (fate : α → Fate) (limit : Nat) (entries : List α) (r : Nat) : List α :=
  (entries.take (frontier fate limit entries r)).filter (clogs fate)

theorem frontier_succ (fate : α → Fate) (limit : Nat) (entries : List α) (r : Nat) :
    frontier fate limit entries (r + 1) = min (reached fate entries).length
      (frontier fate limit entries r + (limit - (clogged fate limit entries r).length)) := by
  rw [frontier, clogged, ← List.countP_eq_length_filter]

theorem take_frontier_succ (fate : α → Fate) (limit : Nat) (entries : List α) (r : Nat) :
    entries.take (frontier fate limit entries (r + 1)) =
      entries.take (frontier fate limit entries r) ++ added fate limit entries r := by
  have hle := frontier_le fate limit entries r
  have hgrows : frontier fate limit entries r ≤ frontier fate limit entries (r + 1) := by
    rw [frontier_succ]
    omega
  rw [added, ← List.take_add, Nat.add_sub_cancel' hgrows]

/-- **What a run comes to.** Entries that are clogged, and then the ones it adds. -/
theorem reached_backlog (fate : α → Fate) (limit : Nat) (entries : List α) (r : Nat) :
    ∃ old, (∀ a ∈ old, a ∈ clogged fate limit entries r) ∧
      reached fate ((clogged fate limit entries r ++
        entries.drop (frontier fate limit entries r)).take limit) =
          old ++ added fate limit entries r := by
  have hadded : frontier fate limit entries (r + 1) - frontier fate limit entries r =
      min (limit - (clogged fate limit entries r).length)
        ((reached fate entries).length - frontier fate limit entries r) := by
    have hle := frontier_le fate limit entries r
    rw [frontier_succ]
    omega
  rw [added, hadded]
  rw [List.take_append]
  rcases Nat.lt_or_ge (frontier fate limit entries r) (reached fate entries).length with hlt | hge
  · -- no entry has raised so far: the run goes through the clogged ones and on
    have hseen := not_raises_of_take hlt
    have hclogged : ∀ a ∈ (clogged fate limit entries r).take limit, fate a ≠ .raises :=
      fun a ha => hseen a (List.mem_filter.1 (List.mem_of_mem_take ha)).1
    have hsplit : reached fate entries = entries.take (frontier fate limit entries r) ++
        reached fate (entries.drop (frontier fate limit entries r)) := by
      rw [← reached_append hseen, List.take_append_drop]
    have hrest : reached fate (entries.drop (frontier fate limit entries r)) =
        (entries.drop (frontier fate limit entries r)).take
          ((reached fate entries).length - frontier fate limit entries r) := by
      have hlength := congrArg List.length hsplit
      rw [List.length_append, List.length_take] at hlength
      rw [reached_eq_take fate (entries.drop _)]
      congr 1
      have hprefix := (reached_begins fate entries).length_le
      omega
    refine ⟨(clogged fate limit entries r).take limit, fun a ha => List.mem_of_mem_take ha, ?_⟩
    rw [reached_append hclogged, reached_take, hrest, List.take_take]
  · -- the run ends among the clogged entries, or there is nothing else
    have hend : (reached fate entries).length - frontier fate limit entries r = 0 := by omega
    have hfrontier : frontier fate limit entries r = (reached fate entries).length :=
      Nat.le_antisymm (frontier_le fate limit entries r) hge
    rw [hend, Nat.min_zero, List.take_zero]
    refine ⟨_, ?_, (List.append_nil _).symm⟩
    intro a ha
    rcases raises_or_all fate entries with ⟨b, hb, hraises⟩ | hall
    · have hmem : b ∈ clogged fate limit entries r := by
        rw [clogged, hfrontier, ← reached_eq_take]
        exact List.mem_filter.2 ⟨hb, by rw [clogs, hraises]; rfl⟩
      rcases Nat.lt_or_ge limit (clogged fate limit entries r).length with hcut | hfits
      · rw [Nat.sub_eq_zero_of_le (Nat.le_of_lt hcut), List.take_zero, List.append_nil] at ha
        exact List.mem_of_mem_take ((reached_begins fate _).subset ha)
      · rw [List.take_of_length_le hfits, reached_append_of_raises ⟨b, hmem, hraises⟩] at ha
        exact (reached_begins fate _).subset ha
    · rw [hfrontier, hall, List.drop_length, List.take_nil, List.append_nil] at ha
      exact List.mem_of_mem_take ((reached_begins fate _).subset ha)

section Runs

variable [DecidableEq α]

omit [DecidableEq α] in
theorem drop_frontier (fate : α → Fate) (limit : Nat) (entries : List α) (r : Nat) :
    entries.drop (frontier fate limit entries r) =
      added fate limit entries r ++ entries.drop (frontier fate limit entries (r + 1)) := by
  have hsplit := List.take_append_drop (frontier fate limit entries (r + 1)) entries
  rw [take_frontier_succ, List.append_assoc] at hsplit
  exact (List.append_cancel_left (hsplit.trans (List.take_append_drop _ entries).symm)).symm

/-- The backlog of run `r`: what is left of the entries seen, and the entries that are not seen. -/
theorem backlogAt_eq (hnodup : entries.Nodup) (r : Nat) :
    backlogAt fate limit entries r =
      clogged fate limit entries r ++ entries.drop (frontier fate limit entries r) := by
  induction r with
  | zero => rfl
  | succ r ih =>
      obtain ⟨old, hold, hreached⟩ := reached_backlog fate limit entries r
      have hclogged : clogged fate limit entries (r + 1) = clogged fate limit entries r ++
          (added fate limit entries r).filter (clogs fate) := by
        rw [clogged, take_frontier_succ, List.filter_append, clogged]
      rw [backlogAt, afterRun, ih, hreached, drop_frontier, List.filter_append, List.filter_append,
        hclogged, List.append_assoc]
      congr 1
      · -- what clogs stays
        apply List.filter_eq_self.2
        intro a ha
        rw [(List.mem_filter.1 ha).2, Bool.or_true]
      congr 1
      · apply List.filter_congr
        intro a ha
        simp [ha]
      · -- the run does not come to the rest
        apply List.filter_eq_self.2
        intro a ha
        have hnot : a ∉ entries.take (frontier fate limit entries (r + 1)) := by
          intro hseen
          have hall := hnodup
          rw [← List.take_append_drop (frontier fate limit entries (r + 1)) entries] at hall
          exact List.disjoint_of_nodup_append hall hseen ha
        rw [take_frontier_succ, List.mem_append, not_or] at hnot
        have hnotOld : a ∉ old := fun hmem => hnot.1 (List.mem_filter.1 (hold a hmem)).1
        simp [hnot.2, hnotOld]

/-- An entry that leaves is gone once it came up. -/
theorem mem_backlogAt_iff (hnodup : entries.Nodup) (ha : a ∈ entries) (hleaves : fate a = .leaves)
    (r : Nat) :
    a ∈ backlogAt fate limit entries r ↔ a ∉ entries.take (frontier fate limit entries r) := by
  have hclogged : a ∉ clogged fate limit entries r := by
    intro hmem
    have hclogs := (List.mem_filter.1 hmem).2
    rw [clogs, hleaves] at hclogs
    exact absurd hclogs (by decide)
  rw [backlogAt_eq hnodup, List.mem_append, or_iff_right hclogged]
  rw [← List.take_append_drop (frontier fate limit entries r) entries] at ha hnodup
  constructor
  · exact fun hdrop htake => List.disjoint_of_nodup_append hnodup htake hdrop
  · exact fun hnot => (List.mem_append.1 ha).resolve_left hnot

/-- **Coverage.** The first `k` runs come to exactly the entries before the frontier. -/
theorem exists_reached_iff (hnodup : entries.Nodup) (k : Nat) (a : α) :
    (∃ r < k, a ∈ reached fate ((backlogAt fate limit entries r).take limit)) ↔
      a ∈ entries.take (frontier fate limit entries k) := by
  induction k with
  | zero => simp [frontier]
  | succ k ih =>
      obtain ⟨old, hold, hreached⟩ := reached_backlog fate limit entries k
      rw [← backlogAt_eq hnodup] at hreached
      rw [take_frontier_succ, List.mem_append, ← ih]
      constructor
      · rintro ⟨r, hr, ha⟩
        rcases Nat.lt_succ_iff_lt_or_eq.1 hr with hr | rfl
        · exact Or.inl ⟨r, hr, ha⟩
        · rw [hreached, List.mem_append] at ha
          refine ha.imp (fun ha => ?_) id
          exact ih.2 (List.mem_filter.1 (hold a ha)).1
      · rintro (⟨r, hr, ha⟩ | ha)
        · exact ⟨r, Nat.lt_succ_of_lt hr, ha⟩
        · exact ⟨k, Nat.lt_succ_self k, by rw [hreached]; exact List.mem_append_right _ ha⟩

omit [DecidableEq α] in
/-- Behind `limit` entries that clog the backlog nothing ever comes up. -/
theorem frontier_le_of_clogged {m : Nat} (h : limit ≤ (entries.take m).countP (clogs fate))
    (r : Nat) : frontier fate limit entries r ≤ m := by
  induction r with
  | zero => exact Nat.zero_le m
  | succ r ih =>
      have hsplit : (entries.take m).countP (clogs fate) ≤
          (entries.take (frontier fate limit entries r)).countP (clogs fate) +
            (m - frontier fate limit entries r) := by
        rw [← Nat.add_sub_cancel' ih, List.take_add, List.countP_append, Nat.add_sub_cancel_left]
        apply Nat.add_le_add_left
        exact Nat.le_trans List.countP_le_length (List.length_take_le _ _)
      rw [frontier]
      omega

/-- The runs come to every entry exactly when the frontier is at the end. -/
theorem all_reached_iff (hnodup : entries.Nodup) (k : Nat) :
    (∀ a ∈ entries, ∃ r < k, a ∈ reached fate ((backlogAt fate limit entries r).take limit)) ↔
      entries.length ≤ frontier fate limit entries k := by
  simp only [exists_reached_iff hnodup]
  constructor
  · intro hall
    have hsubset : entries ⊆ entries.take (frontier fate limit entries k) := hall
    have hle := (List.subperm_of_subset hnodup hsubset).length_le
    rw [List.length_take] at hle
    omega
  · intro hle a ha
    rwa [List.take_of_length_le hle]

end Runs

end Entries

/-! ## Sweeps that take from the head of a table -/

section Sweeps

variable {ρ : Type u} {κ : Type v} {S : Type w} {E : Type x} {key : ρ → Option κ}
  {table : S → Table key} {waiting : ρ → Bool} {fate : Nat → Fate} {limit k r : Nat} {s : S}

/-- The rows that a sweep comes to. -/
def visited {R : Type y} (visit : R → S → S × Except E Nat) : List R → S → List R
  | [], _ => []
  | r :: rest, s =>
      match visit r s with
      | (_, .error _) => [r]
      | (s', .ok _) => r :: visited visit rest s'

/-- What the outcome of a visit means for the backlog of the rows that are `waiting`. -/
def fateOf (waiting : ρ → Bool) : Option (Except E ρ) → Fate
  | none => .passed
  | some (.error _) => .raises
  | some (.ok row) => if waiting row then .stays else .leaves

/-- The ids of the rows that are waiting, in the order of the table. -/
def waitingIds (waiting : ρ → Bool) (t : Table key) : List Nat := (t.select waiting).map Prod.fst

theorem waitingIds_nodup (waiting : ρ → Bool) (t : Table key) : (waitingIds waiting t).Nodup :=
  t.nodup.sublist (List.filter_sublist.map _)

/-- A waiting row that is written anew. -/
theorem waitingIds_update [DecidableEq κ] {t t' : Table key} {q : Nat × ρ} {row : ρ}
    (hq : q ∈ t.rows) (hwaiting : waiting q.2 = true) (h : t.update q.1 row = some t') :
    waitingIds waiting t' =
      (waitingIds waiting t).filter fun id => id ≠ q.1 || waiting row := by
  have hown : ∀ p ∈ t.rows, p.1 = q.1 → waiting p.2 = true := by
    intro p hp hid
    rwa [t.eq_of_id hp hq hid]
  rw [waitingIds, waitingIds, Table.select, Table.select, (Table.update_eq_some h).1]
  generalize t.rows = rows at hown
  induction rows with
  | nil => rfl
  | cons p rest ih =>
      obtain ⟨hp, hrest⟩ := List.forall_mem_cons.1 hown
      have ih := ih hrest
      rw [List.map_cons]
      by_cases hid : p.1 = q.1
      · rw [if_pos hid]
        simp only [List.filter_cons, hp hid, if_true, List.map_cons, hid]
        cases hrow : waiting row with
        | true => simpa [hrow] using ih
        | false => simpa [hrow] using ih
      · rw [if_neg hid]
        simp only [List.filter_cons]
        cases hwaitingRow : waiting p.2 with
        | true => simp [hid, ih]
        | false => simpa using ih

/-- A visit that raises leaves the table alone. -/
def RaisesClean {R : Type y} (table : S → Table key) (visit : R → S → S × Except E Nat) : Prop :=
  ∀ row s s' e, visit row s = (s', .error e) → table s' = table s

section Visits

variable [DecidableEq κ] {visit : Nat × ρ → S → S × Except E Nat}
  {outcome : Nat × ρ → Option (Except E ρ)} {q : Nat × ρ} {s' : S}

/-- Only an attempt that fails raises. -/
theorem fateOf_of_error (h : RowVisits table visit outcome) (hq : q ∈ (table s).rows) {e : E}
    (hvisit : visit q s = (s', .error e)) : fateOf waiting (outcome q) = .raises := by
  cases houtcome : outcome q with
  | none =>
      have hpassed := h.passed q s houtcome
      rw [hvisit] at hpassed
      cases hpassed
  | some result =>
      cases result with
      | error e' => rfl
      | ok row =>
          obtain ⟨⟨n, hn⟩, -⟩ := h.stored q s row hq houtcome
          rw [hvisit] at hn
          cases hn

/-- A waiting row that is visited without raising leaves if that is its fate, and nothing else does. -/
theorem waitingIds_of_ok (h : RowVisits table visit outcome) (hq : q ∈ (table s).rows)
    (hwaiting : waiting q.2 = true) {n : Nat} (hvisit : visit q s = (s', .ok n)) :
    fateOf waiting (outcome q) ≠ .raises ∧
      waitingIds waiting (table s') = (waitingIds waiting (table s)).filter
        fun id => id ≠ q.1 || fateOf waiting (outcome q) != .leaves := by
  cases houtcome : outcome q with
  | none =>
      have hpassed := h.passed q s houtcome
      rw [hvisit, Prod.mk.injEq] at hpassed
      rw [hpassed.1]
      refine ⟨Fate.noConfusion, (List.filter_eq_self.2 fun id _ => ?_).symm⟩
      exact Bool.or_true _
  | some result =>
      cases result with
      | error e => exact absurd ⟨n, by rw [hvisit]⟩ (h.raised q s e hq houtcome)
      | ok row =>
          obtain ⟨-, hupdate⟩ := h.stored q s row hq houtcome
          rw [hvisit] at hupdate
          rw [waitingIds_update hq hwaiting hupdate, fateOf]
          cases waiting row with
          | true => exact ⟨Fate.noConfusion, rfl⟩
          | false => exact ⟨Fate.noConfusion, rfl⟩

/-- What a sweep over waiting rows comes to, and the rows that are waiting after it. -/
theorem sweep_backlog (h : RowVisits table visit outcome) (hclean : RaisesClean table visit)
    {rs : List (Nat × ρ)} (hready : Ready table rs s) (hwaiting : ∀ q ∈ rs, waiting q.2 = true)
    (hfate : ∀ q ∈ visited visit rs s, fateOf waiting (outcome q) = fate q.1) :
    (visited visit rs s).map Prod.fst = reached fate (rs.map Prod.fst) ∧
      waitingIds waiting (table (sweep visit rs s).1) = (waitingIds waiting (table s)).filter
        fun id => id ∉ reached fate (rs.map Prod.fst) || clogs fate id := by
  induction rs generalizing s with
  | nil =>
      refine ⟨rfl, (List.filter_eq_self.2 fun id _ => ?_).symm⟩
      simp [reached]
  | cons q rest ih =>
      have hq := hready.1 q (List.mem_cons_self ..)
      obtain ⟨hqwaiting, hrestwaiting⟩ := List.forall_mem_cons.1 hwaiting
      cases hvisit : visit q s with
      | mk s' result =>
          rw [visited, hvisit] at hfate
          rw [visited, hvisit, List.map_cons, reached]
          cases result with
          | error e =>
              -- the sweep ends, and the row stays
              have hraises : fate q.1 = .raises := by
                rw [← hfate q (List.mem_cons_self ..), fateOf_of_error h hq hvisit]
              rw [if_pos hraises, sweep_cons_error hvisit, hclean q s s' e hvisit]
              refine ⟨rfl, (List.filter_eq_self.2 fun id _ => ?_).symm⟩
              by_cases hid : id = q.1
              · rw [hid, clogs, hraises]
                exact Bool.or_true _
              · simp [hid]
          | ok n =>
              have hnext := h.ready hready ⟨n, by rw [hvisit]⟩
              rw [hvisit] at hnext
              obtain ⟨hqfate, hrestfate⟩ := List.forall_mem_cons.1 hfate
              obtain ⟨hvisited, hleft⟩ := ih hnext hrestwaiting hrestfate
              obtain ⟨hgoes, hstep⟩ := waitingIds_of_ok h hq hqwaiting hvisit
              rw [hqfate] at hgoes hstep
              rw [if_neg hgoes, sweep_cons_ok hvisit, List.map_cons, hvisited]
              refine ⟨rfl, ?_⟩
              rw [hleft, hstep, List.filter_filter]
              apply List.filter_congr
              intro id _
              by_cases hid : id = q.1
              · subst hid
                cases hclogs : fate q.1 with
                | passed => simp [clogs, hclogs]
                | leaves => simp [clogs, hclogs]
                | stays => simp [clogs, hclogs]
                | raises => simp [clogs, hclogs]
              · simp [hid]

end Visits

/-- A visit that looks something up for its row, stores the row and counts it. -/
theorem raisesClean_of_store {γ β : Type y} {visit : Nat × ρ → S → S × Except E Nat}
    (lookup : Nat × ρ → Option γ) (store : Nat × ρ → γ → S → S × Except E β) (count : β → Nat)
    (hnone : ∀ q s, lookup q = none → visit q s = (s, .ok 0))
    (hsome : ∀ q c s, lookup q = some c →
      visit q s = ((store q c s).1, (store q c s).2.map count))
    (hstore : ∀ q c s e, (store q c s).2 = .error e → table (store q c s).1 = table s) :
    RaisesClean table visit := by
  intro q s s' e h
  cases hlookup : lookup q with
  | none =>
      rw [hnone q s hlookup] at h
      cases h
  | some c =>
      rw [hsome q c s hlookup, Prod.mk.injEq] at h
      obtain ⟨rfl, hresult⟩ := h
      cases hstored : (store q c s).2 with
      | error e' => exact hstore q c s e' hstored
      | ok row =>
          rw [hstored] at hresult
          cases hresult

end Sweeps

/-! ### Sweeps one after another -/

/-- A sweep that is repeated. What a visit does may be different in every run. -/
structure Retries {ρ : Type u} {κ : Type v} [DecidableEq κ] (key : ρ → Option κ) (S : Type w)
    (E : Type x) where
  table : S → Table key
  waiting : ρ → Bool
  /-- A sweep that is switched off selects nothing. -/
  on : Bool
  visit : Nat → Nat × ρ → S → S × Except E Nat
  outcome : Nat → Nat × ρ → Option (Except E ρ)
  visits : ∀ r, RowVisits table (visit r) (outcome r)
  clean : ∀ r, RaisesClean table (visit r)

namespace Retries

variable {ρ : Type u} {κ : Type v} [DecidableEq κ] {key : ρ → Option κ} {S : Type w} {E : Type x}
  (w : Retries key S E) (limit : Nat) (s : S) (fate : Nat → Fate)

/-- The oldest waiting rows. -/
def selected (s : S) : List (Nat × ρ) :=
  if w.on then ((w.table s).select w.waiting).take limit else []

/-- Run `r`. -/
def run (r : Nat) (s : S) : S × Except E Nat := sweep (w.visit r) (w.selected limit s) s

/-- The state before run `r`. -/
def states : Nat → S
  | 0 => s
  | r + 1 => (w.run limit r (states r)).1

/-- The ids of the rows that are waiting, the oldest first. -/
def backlog (s : S) : List Nat := waitingIds w.waiting (w.table s)

/-- The rows that run `r` comes to. -/
def comesTo (r : Nat) : List (Nat × ρ) :=
  visited (w.visit r) (w.selected limit (w.states limit s r)) (w.states limit s r)

/-- The first `k` runs attempt every row that was waiting before them. -/
def Covers (k : Nat) : Prop :=
  ∀ id ∈ w.backlog s, ∃ r < k, ∃ q ∈ w.comesTo limit s r, q.1 = id ∧ (w.outcome r q).isSome = true

/-- Every attempt of the first `k` runs ends as the fate of its row says. -/
def Fated (k : Nat) : Prop :=
  ∀ r < k, ∀ q ∈ w.comesTo limit s r, fateOf w.waiting (w.outcome r q) = fate q.1

instance (k : Nat) : Decidable (w.Fated limit s fate k) :=
  inferInstanceAs (Decidable (∀ r < k, ∀ q ∈ w.comesTo limit s r,
    fateOf w.waiting (w.outcome r q) = fate q.1))

variable {w limit s fate}

theorem comesTo_off (hoff : w.on = false) (r : Nat) : w.comesTo limit s r = [] := by
  rw [comesTo, selected, if_neg (by rw [hoff]; exact Bool.false_ne_true)]
  rfl

/-- The rows that are waiting are a backlog that the runs work off. -/
theorem backlog_states {k r : Nat} (hon : w.on = true) (hfated : w.Fated limit s fate k)
    (hr : r ≤ k) :
    w.backlog (w.states limit s r) = backlogAt fate limit (w.backlog s) r := by
  induction r with
  | zero => rfl
  | succ r ih =>
      have hselected : w.selected limit (w.states limit s r) =
          ((w.table (w.states limit s r)).select w.waiting).take limit := if_pos hon
      obtain ⟨-, hleft⟩ := sweep_backlog (w.visits r) (w.clean r)
        (hselected ▸ ready_select w.table w.waiting limit (w.states limit s r))
        (fun q hq => (Table.mem_select.1 (List.mem_of_mem_take (hselected ▸ hq))).2) (hfated r hr)
      have hids : (w.selected limit (w.states limit s r)).map Prod.fst =
          (w.backlog (w.states limit s r)).take limit := by
        rw [hselected, List.map_take]
        rfl
      rw [states, run, backlog, hleft, hids, backlogAt, afterRun, ← ih (Nat.le_of_succ_le hr)]
      rfl

/-- The rows that a run comes to. -/
theorem comesTo_ids {k r : Nat} (hon : w.on = true) (hfated : w.Fated limit s fate k) (hr : r < k) :
    (w.comesTo limit s r).map Prod.fst =
      reached fate ((backlogAt fate limit (w.backlog s) r).take limit) := by
  have hselected : w.selected limit (w.states limit s r) =
      ((w.table (w.states limit s r)).select w.waiting).take limit := if_pos hon
  obtain ⟨hvisited, -⟩ := sweep_backlog (w.visits r) (w.clean r)
    (hselected ▸ ready_select w.table w.waiting limit (w.states limit s r))
    (fun q hq => (Table.mem_select.1 (List.mem_of_mem_take (hselected ▸ hq))).2) (hfated r hr)
  rw [comesTo, hvisited, ← backlog_states hon hfated (Nat.le_of_lt hr), hselected, List.map_take]
  rfl

theorem isSome_outcome_iff {k r : Nat} (hfated : w.Fated limit s fate k) (hr : r < k)
    {q : Nat × ρ} (hq : q ∈ w.comesTo limit s r) :
    (w.outcome r q).isSome = true ↔ fate q.1 ≠ .passed := by
  rw [← hfated r hr q hq]
  cases w.outcome r q with
  | none => simp [fateOf]
  | some result =>
      cases result with
      | error e => simp [fateOf]
      | ok row => cases hrow : w.waiting row <;> simp [fateOf, hrow]

/-- **Coverage of a table.** The first `k` runs attempt every waiting row exactly when the sweep is on,
passes over none, and gets to the end of the backlog. -/
theorem covers_iff {k : Nat} (hfated : w.Fated limit s fate k) :
    w.Covers limit s k ↔
      (∀ id ∈ w.backlog s, w.on = true ∧ fate id ≠ .passed) ∧
        (w.backlog s).length ≤ frontier fate limit (w.backlog s) k := by
  cases hon : w.on with
  | false =>
      unfold Covers
      simp only [comesTo_off hon]
      constructor
      · intro hall
        have hnone : w.backlog s = [] := by
          apply List.eq_nil_iff_forall_not_mem.2
          intro id hid
          obtain ⟨r, -, q, hq, -⟩ := hall id hid
          cases hq
        rw [hnone]
        exact ⟨List.forall_mem_nil _, Nat.zero_le _⟩
      · rintro ⟨hall, -⟩ id hid
        exact absurd (hall id hid).1 Bool.false_ne_true
  | true =>
      have hcovered : (∀ id ∈ w.backlog s, ∃ r < k,
          id ∈ reached fate ((backlogAt fate limit (w.backlog s) r).take limit)) ↔
          (w.backlog s).length ≤ frontier fate limit (w.backlog s) k :=
        all_reached_iff (waitingIds_nodup w.waiting (w.table s)) k
      rw [← hcovered]
      constructor
      · intro hall
        refine ⟨fun id hid => ?_, fun id hid => ?_⟩
        · obtain ⟨r, hr, q, hq, rfl, hsome⟩ := hall id hid
          exact ⟨rfl, (isSome_outcome_iff hfated hr hq).1 hsome⟩
        · obtain ⟨r, hr, q, hq, rfl, -⟩ := hall id hid
          refine ⟨r, hr, ?_⟩
          rw [← comesTo_ids hon hfated hr]
          exact List.mem_map_of_mem hq
      · rintro ⟨hnot, hall⟩ id hid
        obtain ⟨r, hr, hreached⟩ := hall id hid
        rw [← comesTo_ids hon hfated hr] at hreached
        obtain ⟨q, hq, rfl⟩ := List.mem_map.1 hreached
        exact ⟨r, hr, q, hq, rfl, (isSome_outcome_iff hfated hr hq).2 (hnot q.1 hid).2⟩

end Retries

end SalesTrades.Library.Backlog
