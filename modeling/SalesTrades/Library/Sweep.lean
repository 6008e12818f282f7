import SalesTrades.Library.Table

/-!
# Sweeps over a list of rows

A sweep visits the rows of a list one after another. A visit changes the state and returns a count, or
it raises and ends the sweep. What two sweeps have in common (`sweep_rel`), what a sweep logs
(`sweep_log`), and when it reaches its end (`sweep_ok_iff`) is read off one visit. Where every visit
stores its own row of a table, a sweep records the outcome of all its rows exactly when no visit raises
(`RowVisits.allRecorded_iff`, `RowVisits.settled_iff`).
-/

set_option autoImplicit false

namespace SalesTrades.Library.Sweep

universe u v w x

variable {R : Type u} {S : Type v} {E : Type w} {visit : R → S → S × Except E Nat}

/-- The state where the sweep ends, and the sum of the counts or what was raised. -/
def sweep (visit : R → S → S × Except E Nat) : List R → S → S × Except E Nat
  | [], s => (s, .ok 0)
  | r :: rest, s =>
      match visit r s with
      | (s', .error e) => (s', .error e)
      | (s', .ok n) => ((sweep visit rest s').1, (sweep visit rest s').2.map (· + n))

theorem sweep_cons_error {r : R} {rest : List R} {s s' : S} {e : E}
    (h : visit r s = (s', .error e)) : sweep visit (r :: rest) s = (s', .error e) := by
  rw [sweep, h]

theorem sweep_cons_ok {r : R} {rest : List R} {s s' : S} {n : Nat} (h : visit r s = (s', .ok n)) :
    sweep visit (r :: rest) s =
      ((sweep visit rest s').1, (sweep visit rest s').2.map (· + n)) := by
  rw [sweep, h]

/-- The sweep reaches its end. -/
def Completes (outcome : S × Except E Nat) : Prop := ∃ n, outcome.2 = .ok n

theorem completes_cons_ok {r : R} {rest : List R} {s s' : S} {n : Nat}
    (h : visit r s = (s', .ok n)) :
    Completes (sweep visit (r :: rest) s) ↔ Completes (sweep visit rest s') := by
  rw [sweep_cons_ok h]
  unfold Completes
  cases (sweep visit rest s').2 <;> simp [Except.map]

/-- **Simulation rule.** Sweeps whose visits keep two states related and end alike, end alike in
related states. -/
theorem sweep_rel {T : Type x} {visit' : R → T → T × Except E Nat} (rel : S → T → Prop)
    (hvisit : ∀ r s t, rel s t →
      rel (visit r s).1 (visit' r t).1 ∧ (visit r s).2 = (visit' r t).2) {rs : List R} {s : S} {t : T}
    (h : rel s t) : rel (sweep visit rs s).1 (sweep visit' rs t).1 ∧
      (sweep visit rs s).2 = (sweep visit' rs t).2 := by
  induction rs generalizing s t with
  | nil => exact ⟨h, rfl⟩
  | cons r rest ih =>
      obtain ⟨hrel, hresult⟩ := hvisit r s t h
      cases hs : visit r s with
      | mk s' result =>
          cases ht : visit' r t with
          | mk t' result' =>
              rw [hs, ht] at hrel hresult
              dsimp only at hrel hresult
              subst hresult
              cases result with
              | error e =>
                  rw [sweep_cons_error hs, sweep_cons_error ht]
                  exact ⟨hrel, rfl⟩
              | ok n =>
                  obtain ⟨hrest, hend⟩ := ih hrel
                  rw [sweep_cons_ok hs, sweep_cons_ok ht]
                  exact ⟨hrest, by rw [hend]⟩

/-- A sweep that returns has logged what its visits log, the last one first. -/
theorem sweep_log {H : Type x} {log : S → List H} {entries : R → List H}
    (hvisit : ∀ r s, log (visit r s).1 = entries r ++ log s) {rs : List R} {s : S}
    (h : Completes (sweep visit rs s)) :
    log (sweep visit rs s).1 = rs.reverse.flatMap entries ++ log s := by
  induction rs generalizing s with
  | nil => rfl
  | cons r rest ih =>
      have hlogged := hvisit r s
      cases hs : visit r s with
      | mk s' result =>
          rw [hs] at hlogged
          cases result with
          | error e =>
              obtain ⟨n, hn⟩ := h
              rw [sweep_cons_error hs] at hn
              cases hn
          | ok n =>
              rw [completes_cons_ok hs] at h
              rw [sweep_cons_ok hs, ih h, hlogged]
              simp

/-- **Completion rule.** Where whether a visit returns depends on its row alone, as long as `I` says
that the rows to come are ready, the sweep reaches its end exactly when every visit returns. -/
theorem sweep_ok_iff {I : List R → S → Prop} {Good : R → Prop}
    (hvisit : ∀ r rest s, I (r :: rest) s → (Completes (visit r s) ↔ Good r))
    (hnext : ∀ r rest s, I (r :: rest) s → Completes (visit r s) → I rest (visit r s).1)
    {rs : List R} {s : S} (h : I rs s) :
    Completes (sweep visit rs s) ↔ ∀ r ∈ rs, Good r := by
  induction rs generalizing s with
  | nil => exact iff_of_true ⟨0, rfl⟩ (List.forall_mem_nil _)
  | cons r rest ih =>
      have hgood := hvisit r rest s h
      have hready := hnext r rest s h
      cases hs : visit r s with
      | mk s' result =>
          rw [hs] at hgood hready
          rw [List.forall_mem_cons, ← hgood]
          cases result with
          | error e =>
              rw [sweep_cons_error hs]
              constructor
              · rintro ⟨n, hn⟩
                cases hn
              · rintro ⟨⟨n, hn⟩, -⟩
                cases hn
          | ok n =>
              rw [completes_cons_ok hs, ih (hready ⟨n, rfl⟩)]
              exact ⟨fun hrest => ⟨⟨n, rfl⟩, hrest⟩, fun hall => hall.2⟩

/-- **Congruence rule.** Sweeps whose visits agree as long as `I` says that the rows to come are ready
are equal. -/
theorem sweep_congr {visit' : R → S → S × Except E Nat} {I : List R → S → Prop}
    (hvisit : ∀ r rest s, I (r :: rest) s → visit r s = visit' r s)
    (hnext : ∀ r rest s, I (r :: rest) s → Completes (visit r s) → I rest (visit r s).1)
    {rs : List R} {s : S} (h : I rs s) : sweep visit rs s = sweep visit' rs s := by
  induction rs generalizing s with
  | nil => rfl
  | cons r rest ih =>
      have hsame := hvisit r rest s h
      have hready := hnext r rest s h
      cases hs : visit r s with
      | mk s' result =>
          rw [hs] at hsame hready
          cases result with
          | error e => rw [sweep_cons_error hs, sweep_cons_error hsame.symm]
          | ok n => rw [sweep_cons_ok hs, sweep_cons_ok hsame.symm, ih (hready ⟨n, rfl⟩)]

/-! ## Sweeps over the rows of a table -/

section Rows

variable {ρ κ : Type*} [DecidableEq κ] {key : ρ → Option κ} {table : S → Table key}
  {visit : Nat × ρ → S → S × Except E Nat} {outcome : Nat × ρ → Option (Except E ρ)}
  {rs : List (Nat × ρ)} {s : S}

/-- What a visit does is determined by its row: the row is passed over, the visit raises, or it stores
the row anew. -/
structure RowVisits (table : S → Table key) (visit : Nat × ρ → S → S × Except E Nat)
    (outcome : Nat × ρ → Option (Except E ρ)) : Prop where
  passed : ∀ q s, outcome q = none → visit q s = (s, .ok 0)
  raised : ∀ q s e, q ∈ (table s).rows → outcome q = some (.error e) → ¬ Completes (visit q s)
  stored : ∀ q s row, q ∈ (table s).rows → outcome q = some (.ok row) →
    Completes (visit q s) ∧ (table s).update q.1 row = some (table (visit q s).1)

/-- The rows to come are as they were loaded. -/
def Ready (table : S → Table key) (rs : List (Nat × ρ)) (s : S) : Prop :=
  (∀ q ∈ rs, q ∈ (table s).rows) ∧ (rs.map Prod.fst).Nodup

omit [DecidableEq κ] in
theorem ready_select (table : S → Table key) (p : ρ → Bool) (limit : Nat) (s : S) :
    Ready table (((table s).select p).take limit) s :=
  ⟨fun _ hq => (Table.mem_select.1 (List.mem_of_mem_take hq)).1, (table s).nodup_ids_select p limit⟩

/-- The sweep reaches its end with the outcome of every row recorded. -/
def AllRecorded (table : S → Table key) (visit : Nat × ρ → S → S × Except E Nat)
    (outcome : Nat × ρ → Option (Except E ρ)) (rs : List (Nat × ρ)) (s : S) : Prop :=
  Completes (sweep visit rs s) ∧ ∀ q ∈ rs, ∀ result, outcome q = some result →
    ∃ row, result = .ok row ∧ (q.1, row) ∈ (table (sweep visit rs s).1).rows

/-- A visit that returns leaves every other row alone. -/
theorem RowVisits.others (h : RowVisits table visit outcome) {q r : Nat × ρ}
    (hq : q ∈ (table s).rows) (hreturns : Completes (visit q s)) (hid : r.1 ≠ q.1) :
    r ∈ (table (visit q s).1).rows ↔ r ∈ (table s).rows := by
  cases houtcome : outcome q with
  | none => rw [h.passed q s houtcome]
  | some result =>
      cases result with
      | error e => exact absurd hreturns (h.raised q s e hq houtcome)
      | ok row =>
          obtain ⟨-, hupdate⟩ := h.stored q s row hq houtcome
          exact Table.sameExcept_update hupdate r hid

theorem RowVisits.ready (h : RowVisits table visit outcome) {q : Nat × ρ} {rest : List (Nat × ρ)}
    (hready : Ready table (q :: rest) s) (hreturns : Completes (visit q s)) :
    Ready table rest (visit q s).1 := by
  obtain ⟨hmem, hnodup⟩ := hready
  obtain ⟨hnot, hnodup⟩ := List.nodup_cons.1 hnodup
  obtain ⟨hq, hrest⟩ := List.forall_mem_cons.1 hmem
  refine ⟨fun r hr => (h.others hq hreturns fun hid => ?_).2 (hrest r hr), hnodup⟩
  exact hnot (hid ▸ List.mem_map_of_mem hr)

theorem RowVisits.completes_iff (h : RowVisits table visit outcome) (hready : Ready table rs s) :
    Completes (sweep visit rs s) ↔ ∀ q ∈ rs, ∀ e, outcome q ≠ some (.error e) := by
  apply sweep_ok_iff (I := Ready table) _ (fun q rest s hready => h.ready hready) hready
  intro q rest s hready
  have hq := hready.1 q (List.mem_cons_self ..)
  cases houtcome : outcome q with
  | none =>
      rw [h.passed q s houtcome]
      exact iff_of_true ⟨0, rfl⟩ fun e he => by cases he
  | some result =>
      cases result with
      | error e => exact iff_of_false (h.raised q s e hq houtcome) fun hnone => hnone e rfl
      | ok row => exact iff_of_true (h.stored q s row hq houtcome).1 fun e he => by cases he

/-- A row that is not in the list is as it was. -/
theorem RowVisits.kept (h : RowVisits table visit outcome) (hready : Ready table rs s)
    (hends : Completes (sweep visit rs s)) {r : Nat × ρ} (hr : r.1 ∉ rs.map Prod.fst) :
    r ∈ (table (sweep visit rs s).1).rows ↔ r ∈ (table s).rows := by
  induction rs generalizing s with
  | nil => exact Iff.rfl
  | cons q rest ih =>
      have hq := hready.1 q (List.mem_cons_self ..)
      rw [List.map_cons, List.mem_cons, not_or] at hr
      cases hvisit : visit q s with
      | mk s' result =>
          cases result with
          | error e =>
              obtain ⟨n, hn⟩ := hends
              rw [sweep_cons_error hvisit] at hn
              cases hn
          | ok n =>
              have hreturns : Completes (visit q s) := ⟨n, by rw [hvisit]⟩
              have hnext := h.ready hready hreturns
              have hothers := h.others hq hreturns hr.1
              rw [hvisit] at hnext hothers
              rw [completes_cons_ok hvisit] at hends
              rw [sweep_cons_ok hvisit]
              exact (ih hnext hends hr.2).trans hothers

/-- What a sweep that reaches its end leaves of the rows: those of the list that are not passed over as
their outcome says, the others as they were. -/
theorem RowVisits.rewritten (h : RowVisits table visit outcome) (hready : Ready table rs s)
    (hends : Completes (sweep visit rs s)) :
    Table.Rewritten
      (fun q => if q.1 ∈ rs.map Prod.fst then
        match outcome q with
        | some (.ok row) => row
        | _ => q.2
      else q.2) (table s) (table (sweep visit rs s).1) := by
  induction rs generalizing s with
  | nil => exact Table.rewritten_self fun q _ => rfl
  | cons first rest ih =>
      have hfirst := hready.1 first (List.mem_cons_self ..)
      have hnot : first.1 ∉ rest.map Prod.fst := (List.nodup_cons.1 hready.2).1
      cases hvisit : visit first s with
      | mk s' result =>
          cases result with
          | error e =>
              obtain ⟨n, hn⟩ := hends
              rw [sweep_cons_error hvisit] at hn
              cases hn
          | ok n =>
              have hreturns : Completes (visit first s) := ⟨n, by rw [hvisit]⟩
              have hnext := h.ready hready hreturns
              rw [hvisit] at hnext
              rw [completes_cons_ok hvisit] at hends
              rw [sweep_cons_ok hvisit]
              have hrest := ih hnext hends
              cases houtcome : outcome first with
              | none =>
                  have hpassed := h.passed first s houtcome
                  rw [hvisit, Prod.mk.injEq] at hpassed
                  obtain ⟨rfl, -⟩ := hpassed
                  apply hrest.congr
                  intro q hq
                  by_cases hid : q.1 = first.1
                  · -- the row that is passed over
                    obtain rfl := (table s').eq_of_id hq hfirst hid
                    simp [houtcome]
                  · simp only [List.map_cons, List.mem_cons, hid, false_or]
              | some result =>
                  cases result with
                  | error e => exact absurd hreturns (h.raised first s e hfirst houtcome)
                  | ok row =>
                      obtain ⟨-, hupdate⟩ := h.stored first s row hfirst houtcome
                      rw [hvisit] at hupdate
                      apply ((Table.rewritten_update hupdate).trans hrest).congr
                      intro q hq
                      by_cases hid : q.1 = first.1
                      · -- the rest of the sweep does not come back to the row
                        obtain rfl := (table s).eq_of_id hq hfirst hid
                        simp only [if_true, hnot, if_false, List.map_cons, List.mem_cons, true_or,
                          houtcome]
                      · simp only [List.map_cons, List.mem_cons, hid, false_or, if_false]

/-- **Recording rule.** A sweep records the outcome of all its rows exactly when no visit raises. -/
theorem RowVisits.allRecorded_iff (h : RowVisits table visit outcome) (hready : Ready table rs s) :
    AllRecorded table visit outcome rs s ↔ ∀ q ∈ rs, ∀ e, outcome q ≠ some (.error e) := by
  rw [← h.completes_iff hready]
  refine ⟨fun hall => hall.1, fun hends => ⟨hends, ?_⟩⟩
  induction rs generalizing s with
  | nil =>
      intro q hq
      cases hq
  | cons first rest ih =>
      have hfirst := hready.1 first (List.mem_cons_self ..)
      cases hvisit : visit first s with
      | mk s' result =>
          cases result with
          | error e =>
              obtain ⟨n, hn⟩ := hends
              rw [sweep_cons_error hvisit] at hn
              cases hn
          | ok n =>
              have hreturns : Completes (visit first s) := ⟨n, by rw [hvisit]⟩
              have hnext := h.ready hready hreturns
              rw [hvisit] at hnext
              rw [completes_cons_ok hvisit] at hends
              rw [sweep_cons_ok hvisit]
              intro q hq result houtcome
              rcases List.mem_cons.1 hq with rfl | hq
              · cases result with
                | error e => exact absurd hreturns (h.raised q s e hfirst houtcome)
                | ok row =>
                    -- the rest of the sweep does not come back to the row
                    obtain ⟨-, hupdate⟩ := h.stored q s row hfirst houtcome
                    rw [hvisit] at hupdate
                    have hrow : (q.1, row) ∈ (table s').rows :=
                      (Table.mem_of_update hupdate).2 (Or.inr ⟨rfl, q.2, hfirst⟩)
                    have hnot : (q.1, row).1 ∉ rest.map Prod.fst := (List.nodup_cons.1 hready.2).1
                    exact ⟨row, rfl, (h.kept hnext hends hnot).2 hrow⟩
              · exact ih hnext hends q hq result houtcome

/-- **Safety rule.** Where the outcome of a row is found in a context that it belongs to, and is
`settled` for the safe rows and an exception for the others, the sweep records what is settled for all
rows exactly when they are all safe. -/
theorem RowVisits.settled_iff {γ : Type*} {context : Nat × ρ → Option γ}
    {result : Nat × ρ → γ → Except E ρ} {Safe : Nat × ρ → γ → Prop} {settled : Nat × ρ → γ → ρ}
    (h : RowVisits table visit fun q => (context q).map (result q)) (hready : Ready table rs s)
    (hresult : ∀ q ∈ rs, ∀ c row, result q c = .ok row ↔ Safe q c ∧ row = settled q c) :
    (Completes (sweep visit rs s) ∧ ∀ q ∈ rs, ∀ c, context q = some c →
        (q.1, settled q c) ∈ (table (sweep visit rs s).1).rows) ↔
      ∀ q ∈ rs, ∀ c, context q = some c → Safe q c := by
  constructor
  · rintro ⟨hends, -⟩ q hq c hc
    cases houtcome : result q c with
    | ok row => exact ((hresult q hq c row).1 houtcome).1
    | error e =>
        have hraises := Option.map_eq_some_iff.2 ⟨c, hc, houtcome⟩
        exact absurd hraises ((h.completes_iff hready).1 hends q hq e)
  · intro hsafe
    have hsettled : ∀ q ∈ rs, ∀ c, context q = some c → result q c = .ok (settled q c) :=
      fun q hq c hc => (hresult q hq c _).2 ⟨hsafe q hq c hc, rfl⟩
    obtain ⟨hends, hrows⟩ := (h.allRecorded_iff hready).2 fun q hq e he => by
      obtain ⟨c, hc, houtcome⟩ := Option.map_eq_some_iff.1 he
      rw [hsettled q hq c hc] at houtcome
      cases houtcome
    refine ⟨hends, fun q hq c hc => ?_⟩
    obtain ⟨row, hrow, hmem⟩ := hrows q hq (.ok (settled q c))
      (Option.map_eq_some_iff.2 ⟨c, hc, hsettled q hq c hc⟩)
    rw [Except.ok.injEq] at hrow
    exact hrow ▸ hmem

end Rows

end SalesTrades.Library.Sweep
