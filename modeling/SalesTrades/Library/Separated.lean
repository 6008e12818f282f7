import Mathlib.Data.List.Infix
import Mathlib.Tactic.Common

/-!
# Lists written with a separator

`splitText sep` cuts a text at every occurrence of a separator of any length, the leftmost first. For a
separator that does not overlap itself, a list joined with `List.intercalate` is taken apart again exactly
when it has an item and none of its items contains the separator (`splitText_intercalate_iff`).
-/

set_option autoImplicit false

namespace SalesTrades.Library.Separated

universe u

variable {α : Type u}

variable [DecidableEq α]

/-- The pieces of a text of which `piece` has been read, with `skip` characters of a separator to come. -/
def splitFrom (sep : List α) (piece : List α) : Nat → List α → List (List α)
  | _, [] => [piece]
  | skip + 1, _ :: xs => splitFrom sep piece skip xs
  | 0, x :: xs =>
      if sep <+: x :: xs then piece :: splitFrom sep [] (sep.length - 1) xs
      else splitFrom sep (piece ++ [x]) 0 xs

/-- `text.split(sep)`. -/
def splitText (sep text : List α) : List (List α) := splitFrom sep [] 0 text

/-- No proper end of the separator is its beginning. -/
def Unbordered (sep : List α) : Prop :=
  sep ≠ [] ∧ ∀ front middle back : List α, sep = front ++ middle → sep = middle ++ back → front ≠ [] →
    middle = []

variable {sep piece x text rest : List α} {xs : List (List α)} {n : Nat}

omit [DecidableEq α] in
/-- Two different items do not overlap themselves. -/
theorem unbordered_pair {a b : α} (hab : a ≠ b) : Unbordered [a, b] := by
  refine ⟨List.cons_ne_nil _ _, fun front middle back hends hbegins hfront => ?_⟩
  cases middle with
  | nil => rfl
  | cons c rest =>
      obtain ⟨d, front, rfl⟩ := List.exists_cons_of_ne_nil hfront
      obtain ⟨rfl, -⟩ := List.cons.inj hbegins
      obtain ⟨-, hrest⟩ := List.cons.inj hends
      have hmem : a ∈ [b] := hrest ▸ List.mem_append_right front List.mem_cons_self
      exact absurd (List.mem_singleton.1 hmem) hab

/-! ## Taking apart what was joined -/

omit [DecidableEq α] in
/-- A text without the separator, followed by the separator, contains it at its end only. -/
theorem not_prefix_of_not_infix (hsep : Unbordered sep) {front back : List α} (hx : x = front ++ back)
    (hback : back ≠ []) (hnot : ¬ sep <:+: x) : ¬ sep <+: back ++ (sep ++ rest) := by
  rintro ⟨after, heq⟩
  rcases List.append_eq_append_iff.1 heq with ⟨more, hmore, -⟩ | ⟨middle, hmiddle, hover⟩
  · -- the separator is within the text
    exact hnot ⟨front, more, by rw [hx, hmore, List.append_assoc]⟩
  · -- the separator overlaps the one behind the text
    have hbegins : middle <+: sep := by
      have hlonger : middle <+: sep ++ rest := ⟨after, hover.symm⟩
      apply List.prefix_of_prefix_length_le hlonger ⟨rest, rfl⟩
      rw [hmiddle, List.length_append]
      exact Nat.le_add_left _ _
    obtain ⟨more, hmore⟩ := hbegins
    have hnil : middle = [] := hsep.2 back middle more hmiddle hmore.symm hback
    rw [hnil, List.append_nil] at hmiddle
    exact hnot ⟨front, [], by rw [List.append_nil, hmiddle, hx]⟩

theorem splitFrom_skip (sep piece skipped rest : List α) :
    splitFrom sep piece skipped.length (skipped ++ rest) = splitFrom sep piece 0 rest := by
  induction skipped with
  | nil => rfl
  | cons y ys ih => exact ih

/-- A separator in front of the rest ends the piece. -/
theorem splitFrom_sep (hsep : sep ≠ []) (piece rest : List α) :
    splitFrom sep piece 0 (sep ++ rest) = piece :: splitText sep rest := by
  obtain ⟨y, ys, rfl⟩ := List.exists_cons_of_ne_nil hsep
  have hprefix : y :: ys <+: y :: (ys ++ rest) := List.prefix_append (y :: ys) rest
  rw [List.cons_append, splitFrom, if_pos hprefix]
  exact congrArg (piece :: ·) (splitFrom_skip _ [] ys rest)

/-- Characters at which no separator begins belong to the piece. -/
theorem splitFrom_append
    (h : ∀ front back, x = front ++ back → back ≠ [] → ¬ sep <+: back ++ rest) :
    splitFrom sep piece 0 (x ++ rest) = splitFrom sep (piece ++ x) 0 rest := by
  induction x generalizing piece with
  | nil => rw [List.append_nil, List.nil_append]
  | cons y ys ih =>
      have hhead : ¬ sep <+: y :: (ys ++ rest) := h [] (y :: ys) rfl (List.cons_ne_nil _ _)
      rw [List.cons_append, splitFrom, if_neg hhead, ih, List.append_assoc, List.singleton_append]
      intro front back heq hback
      exact h (y :: front) back (congrArg (y :: ·) heq) hback

/-- A text without the separator is one piece. -/
theorem splitFrom_of_not_infix (hnot : ¬ sep <:+: x) : splitFrom sep piece 0 x = [piece ++ x] := by
  have hclean : ∀ front back, x = front ++ back → back ≠ [] → ¬ sep <+: back ++ [] := by
    rintro front back rfl - hprefix
    rw [List.append_nil] at hprefix
    obtain ⟨more, rfl⟩ := hprefix
    exact hnot ⟨front, more, List.append_assoc _ _ _⟩
  have happend : splitFrom sep piece 0 (x ++ []) = splitFrom sep (piece ++ x) 0 [] :=
    splitFrom_append hclean
  rw [List.append_nil] at happend
  exact happend

theorem splitText_intercalate (hsep : Unbordered sep) (hne : xs ≠ []) (hxs : ∀ x ∈ xs, ¬ sep <:+: x) :
    splitText sep (sep.intercalate xs) = xs := by
  induction xs with
  | nil => exact absurd rfl hne
  | cons x xs ih =>
      obtain ⟨hx, hrest⟩ := List.forall_mem_cons.1 hxs
      cases xs with
      | nil =>
          rw [List.intercalate_singleton]
          exact splitFrom_of_not_infix hx
      | cons y ys =>
          rw [List.intercalate_cons_cons, List.append_assoc, splitText, splitFrom_append,
            splitFrom_sep hsep.1, List.nil_append, ih (List.cons_ne_nil _ _) hrest]
          intro front back heq hback
          exact not_prefix_of_not_infix hsep heq hback hx

/-! ## The pieces -/

theorem splitFrom_ne_nil (sep : List α) : ∀ (text piece : List α) (n : Nat),
    splitFrom sep piece n text ≠ [] := by
  intro text
  induction text with
  | nil =>
      intro piece n
      cases n with
      | zero => exact List.cons_ne_nil _ _
      | succ n => exact List.cons_ne_nil _ _
  | cons y ys ih =>
      intro piece n
      cases n with
      | zero =>
          rw [splitFrom]
          split
          · exact List.cons_ne_nil _ _
          · exact ih _ _
      | succ n => exact ih piece n

omit [DecidableEq α] in
/-- Where the separator begins at no place of a piece, the piece does not contain it. -/
theorem not_infix_of_clean (hsep : sep ≠ [])
    (hclean : ∀ front back, piece = front ++ back → back ≠ [] → ¬ sep <+: back ++ text) :
    ¬ sep <:+: piece := by
  rintro ⟨front, more, heq⟩
  refine hclean front (sep ++ more) (by rw [← heq, List.append_assoc]) ?_ ?_
  · exact List.append_ne_nil_of_left_ne_nil hsep more
  · rw [List.append_assoc]
    exact List.prefix_append _ _

/-- No piece contains the separator. The pieces of the rest are among them, and at no place of `piece` a
separator begins. -/
theorem not_infix_of_mem_splitFrom (hsep : sep ≠ []) (hskip : n ≠ 0 → piece = [])
    (hclean : ∀ front back, piece = front ++ back → back ≠ [] → ¬ sep <+: back ++ text)
    (hx : x ∈ splitFrom sep piece n text) : ¬ sep <:+: x := by
  induction text generalizing piece n with
  | nil =>
      have hmem : x = piece := by
        cases n with
        | zero => exact List.mem_singleton.1 hx
        | succ n => exact List.mem_singleton.1 hx
      exact hmem ▸ not_infix_of_clean hsep hclean
  | cons y ys ih =>
      have hempty : ∀ m, x ∈ splitFrom sep [] m ys → ¬ sep <:+: x := by
        intro m hmem
        refine ih (fun _ => rfl) ?_ hmem
        intro front back heq hback
        exact absurd (List.append_eq_nil_iff.1 heq.symm).2 hback
      cases n with
      | succ n =>
          rw [splitFrom, hskip (Nat.succ_ne_zero n)] at hx
          exact hempty n hx
      | zero =>
          rw [splitFrom] at hx
          split at hx
          · rcases List.mem_cons.1 hx with rfl | hmem
            · exact not_infix_of_clean hsep hclean
            · exact hempty _ hmem
          · next hhead =>
              -- a separator that begins in the longer piece begins in it or at its last character
              have hlonger : ∀ front back, piece ++ [y] = front ++ back → back ≠ [] →
                  ¬ sep <+: back ++ ys := by
                intro front back heq hback
                obtain ⟨init, last, rfl⟩ := List.eq_nil_or_concat back |>.resolve_left hback
                rw [List.concat_eq_append, ← List.append_assoc] at heq
                obtain ⟨hinit, hlast⟩ := List.append_inj' heq rfl
                cases hlast
                rw [List.concat_eq_append, List.append_assoc, List.singleton_append]
                by_cases hnil : init = []
                · rw [hnil]
                  exact hhead
                · exact hclean front init hinit hnil
              exact ih (fun h => absurd rfl h) hlonger hx

theorem not_infix_of_mem_splitText (hsep : sep ≠ []) (hx : x ∈ splitText sep text) : ¬ sep <:+: x := by
  refine not_infix_of_mem_splitFrom hsep (fun _ => rfl) ?_ hx
  intro front back heq hback
  exact absurd (List.append_eq_nil_iff.1 heq.symm).2 hback

/-- **Round trip.** -/
theorem splitText_intercalate_iff (hsep : Unbordered sep) :
    splitText sep (sep.intercalate xs) = xs ↔ xs ≠ [] ∧ ∀ x ∈ xs, ¬ sep <:+: x := by
  constructor
  · intro h
    constructor
    · rintro rfl
      exact splitFrom_ne_nil sep _ _ _ h
    · intro x hx
      rw [← h] at hx
      exact not_infix_of_mem_splitText hsep.1 hx
  · rintro ⟨hne, hxs⟩
    exact splitText_intercalate hsep hne hxs

end SalesTrades.Library.Separated
