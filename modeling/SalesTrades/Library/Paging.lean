import Mathlib.Data.List.Basic
import Mathlib.Tactic.Common

/-!
# Loops over pages

A generator that makes one request a turn, and stops by a rule of its own. A list cut into pages is
gone through completely by every such loop that goes on while a later page has something and stops at an
empty page (`completes_of_pages`): each item is yielded once and in order, after at most one request
past the last page that is not empty.
-/

set_option autoImplicit false

namespace SalesTrades.Library.Paging

universe u v w z

variable {α : Type u} {β : Type v} {σ : Type w} {ε : Type z}

/-! ## Pages -/

/-- Page `p` of a list, counted from 1. Past the end it is empty. -/
def page (n : ℕ) (xs : List α) (p : ℕ) : List α := (xs.drop ((p - 1) * n)).take n

/-- The number of pages that are not empty. -/
def pageCount (n : ℕ) (xs : List α) : ℕ := (xs.length + n - 1) / n

variable {n : ℕ} {xs : List α} {p : ℕ}

theorem pageCount_lt_iff (hn : 0 < n) : pageCount n xs < p ↔ xs.length ≤ (p - 1) * n ∧ 0 < p := by
  rw [pageCount, Nat.div_lt_iff_lt_mul hn]
  cases p with
  | zero => simp
  | succ p =>
      rw [Nat.add_sub_cancel, Nat.succ_mul]
      omega

theorem page_eq_nil_iff (hn : 0 < n) : page n xs p = [] ↔ xs.length ≤ (p - 1) * n := by
  rw [page, List.take_eq_nil_iff, List.drop_eq_nil_iff]
  exact or_iff_right (Nat.ne_of_gt hn)

/-- The pages before one that has something are not empty. -/
theorem page_ne_nil (hn : 0 < n) (hmore : p * n < xs.length) : page n xs p ≠ [] := by
  rw [Ne, page_eq_nil_iff hn]
  have hle : (p - 1) * n ≤ p * n := Nat.mul_le_mul_right n (Nat.sub_le p 1)
  omega

/-- A page and what comes after it. -/
theorem page_append_drop (hp : 1 ≤ p) :
    page n xs p ++ xs.drop (p * n) = xs.drop ((p - 1) * n) := by
  obtain ⟨p, rfl⟩ : ∃ q, p = q + 1 := ⟨p - 1, by omega⟩
  rw [page, Nat.add_sub_cancel, Nat.succ_mul, ← List.drop_drop]
  exact List.take_append_drop n _

/-- The last page is all that is left. -/
theorem page_eq_drop (hp : 1 ≤ p) (hlast : xs.length ≤ p * n) :
    page n xs p = xs.drop ((p - 1) * n) := by
  rw [← page_append_drop hp, List.drop_eq_nil_of_le hlast, List.append_nil]

/-- The items on the pages before `p`. -/
def seenBefore (n : ℕ) (xs : List α) (p : ℕ) : ℕ := min ((p - 1) * n) xs.length

theorem seenBefore_add_page (hp : 1 ≤ p) :
    seenBefore n xs p + (page n xs p).length = seenBefore n xs (p + 1) := by
  have hsplit : (page n xs p ++ xs.drop (p * n)).length = (xs.drop ((p - 1) * n)).length := by
    rw [page_append_drop hp]
  rw [List.length_append, List.length_drop, List.length_drop] at hsplit
  rw [seenBefore, seenBefore, Nat.add_sub_cancel]
  have hle : (p - 1) * n ≤ p * n := Nat.mul_le_mul_right n (Nat.sub_le p 1)
  omega

/-- All items have been seen exactly when no later page has any. -/
theorem length_le_seenBefore_iff : xs.length ≤ seenBefore n xs (p + 1) ↔ xs.length ≤ p * n := by
  rw [seenBefore, Nat.add_sub_cancel]
  omega

/-! ## Loops -/

/-- How a loop goes on after a turn. -/
inductive After (ε : Type z) (σ : Type w) where
  | done
  | raised (e : ε)
  | goOn (s : σ)

/-- What a loop has yielded when it ends, the requests it has made, and the exception it ends with. -/
structure Walk (ε : Type z) (α : Type u) where
  yields : List α
  requests : ℕ
  raised : Option ε

/-- The loop from state `s`, `none` where it has not ended after `fuel` requests. -/
def walk (turn : σ → List α × After ε σ) (s : σ) : ℕ → Option (Walk ε α)
  | 0 => none
  | fuel + 1 =>
      match turn s with
      | (ys, .done) => some ⟨ys, 1, none⟩
      | (ys, .raised e) => some ⟨ys, 1, some e⟩
      | (ys, .goOn s') =>
          (walk turn s' fuel).map fun w => ⟨ys ++ w.yields, w.requests + 1, w.raised⟩

/-- The loop ends without an exception after at most `limit` requests, having yielded `ys`. -/
def Completes (loop : ℕ → Option (Walk ε α)) (ys : List α) (limit : ℕ) : Prop :=
  ∃ requests ≤ limit, ∀ fuel, requests ≤ fuel → loop fuel = some ⟨ys, requests, none⟩

variable {turn : σ → List β × After ε σ} {s s' : σ} {ys zs : List β} {limit : ℕ}

theorem completes_done (h : turn s = (ys, .done)) (hlimit : 1 ≤ limit) :
    Completes (walk turn s) ys limit := by
  refine ⟨1, hlimit, fun fuel hfuel => ?_⟩
  obtain ⟨fuel, rfl⟩ : ∃ m, fuel = m + 1 := ⟨fuel - 1, by omega⟩
  rw [walk, h]

theorem completes_goOn (h : turn s = (ys, .goOn s')) (hrest : Completes (walk turn s') zs limit) :
    Completes (walk turn s) (ys ++ zs) (limit + 1) := by
  obtain ⟨requests, hle, hrest⟩ := hrest
  refine ⟨requests + 1, Nat.succ_le_succ hle, fun fuel hfuel => ?_⟩
  obtain ⟨fuel, rfl⟩ : ∃ m, fuel = m + 1 := ⟨fuel - 1, by omega⟩
  rw [walk, h]
  dsimp only
  rw [hrest fuel (Nat.le_of_succ_le_succ hfuel), Option.map_some]

/-- More fuel does not change how a loop ended. -/
theorem walk_mono {w : Walk ε β} {fuel fuel' : ℕ} (h : walk turn s fuel = some w)
    (hfuel : fuel ≤ fuel') : walk turn s fuel' = some w := by
  induction fuel generalizing s w fuel' with
  | zero => cases h
  | succ fuel ih =>
      obtain ⟨fuel', rfl⟩ : ∃ m, fuel' = m + 1 := ⟨fuel' - 1, by omega⟩
      rw [walk] at h ⊢
      cases hturn : turn s with
      | mk ys after =>
          rw [hturn] at h
          cases after with
          | done => exact h
          | raised e => exact h
          | goOn s' =>
              obtain ⟨rest, hrest, rfl⟩ := Option.map_eq_some_iff.1 h
              dsimp only
              rw [ih hrest (Nat.le_of_succ_le_succ hfuel), Option.map_some]

/-- A loop that gets to its end is the loop without its failures. -/
theorem walk_of_failing {turn' : σ → List β × After ε σ}
    (hturn : ∀ s, turn s = turn' s ∨ ∃ ys e, turn s = (ys, .raised e)) {w : Walk ε β} {fuel : ℕ}
    (h : walk turn s fuel = some w) (hends : w.raised = none) : walk turn' s fuel = some w := by
  induction fuel generalizing s w with
  | zero => cases h
  | succ fuel ih =>
      rw [walk] at h ⊢
      rcases hturn s with hsame | ⟨ys, e, hraised⟩
      · rw [← hsame]
        cases hs : turn s with
        | mk ys after =>
            rw [hs] at h
            cases after with
            | done => exact h
            | raised e => exact h
            | goOn s' =>
                obtain ⟨rest, hrest, rfl⟩ := Option.map_eq_some_iff.1 h
                dsimp only
                rw [ih hrest hends, Option.map_some]
      · rw [hraised] at h
        cases h
        cases hends

/-- The pages from `p` on. -/
theorem completes_from (hn : 0 < n) (state : ℕ → σ) (stops : ℕ → Bool) (f : α → β)
    (hturn : ∀ q, 1 ≤ q → turn (state q) =
      ((page n xs q).map f, if stops q then .done else .goOn (state (q + 1))))
    (hlater : ∀ q, 1 ≤ q → q * n < xs.length → stops q = false)
    (hempty : ∀ q, 1 ≤ q → page n xs q = [] → stops q = true) (d : ℕ) {p : ℕ} (hp : 1 ≤ p)
    (hd : p + d = pageCount n xs + 1) :
    Completes (walk turn (state p)) ((xs.drop ((p - 1) * n)).map f) (d + 1) := by
  induction d generalizing p with
  | zero =>
      -- the page past the last one
      have hpast : xs.length ≤ (p - 1) * n := ((pageCount_lt_iff hn).1 (by omega)).1
      have hnil : page n xs p = [] := (page_eq_nil_iff hn).2 hpast
      have hstop := hturn p hp
      rw [hempty p hp hnil, if_pos rfl, hnil] at hstop
      rw [List.drop_eq_nil_of_le hpast]
      exact completes_done hstop (Nat.le_refl 1)
  | succ d ih =>
      have hstep := hturn p hp
      cases hstops : stops p with
      | true =>
          have hlast : xs.length ≤ p * n := by
            by_contra hmore
            have := hlater p hp (Nat.lt_of_not_le hmore)
            rw [hstops] at this
            cases this
          rw [hstops, if_pos rfl] at hstep
          rw [← page_eq_drop hp hlast]
          exact completes_done hstep (Nat.succ_le_succ (Nat.zero_le _))
      | false =>
          rw [hstops, if_neg (by decide)] at hstep
          have hrest := ih (p := p + 1) (by omega) (by omega)
          rw [Nat.add_sub_cancel] at hrest
          rw [← page_append_drop hp, List.map_append]
          exact completes_goOn hstep hrest

/-- **Completeness.** A loop that yields page after page, goes on while a later page has something and
stops at an empty page goes through the list once and in order. -/
theorem completes_of_pages (turn : σ → List β × After ε σ) (xs : List α) (hn : 0 < n)
    (state : ℕ → σ) (stops : ℕ → Bool) (f : α → β)
    (hturn : ∀ q, 1 ≤ q → turn (state q) =
      ((page n xs q).map f, if stops q then .done else .goOn (state (q + 1))))
    (hlater : ∀ q, 1 ≤ q → q * n < xs.length → stops q = false)
    (hempty : ∀ q, 1 ≤ q → page n xs q = [] → stops q = true) :
    Completes (walk turn (state 1)) (xs.map f) (pageCount n xs + 1) := by
  have hall := completes_from hn state stops f hturn hlater hempty (pageCount n xs) (Nat.le_refl 1)
    (Nat.add_comm _ _)
  rwa [Nat.sub_self, Nat.zero_mul, List.drop_zero] at hall

end SalesTrades.Library.Paging
