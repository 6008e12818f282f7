import Mathlib.Data.List.Infix
import Mathlib.Tactic.Common

/-!
# Patterns of LIKE

In a pattern a percent sign stands for any text, an underscore for any character, and a backslash takes
its meaning from the character behind it. A text that is put between two percent signs finds the texts
that contain it when it has none of the three (`like_containing_plain`), and another one otherwise
(`exists_found_of_not_plain`).
-/

set_option autoImplicit false

namespace SalesTrades.Library.LikePattern

/-- What a part of a pattern matches. -/
inductive Item where
  | anyText
  | anyChar
  | char (c : Char)
  deriving DecidableEq

/-- The parts of a pattern, or `none` when it ends with a backslash that escapes nothing. -/
def parse : Bool → List Char → Option (List Item)
  | false, [] => some []
  | true, [] => none
  | true, c :: cs => (parse false cs).map (.char c :: ·)
  | false, c :: cs =>
      if c = '%' then (parse false cs).map (.anyText :: ·)
      else if c = '_' then (parse false cs).map (.anyChar :: ·)
      else if c = '\\' then parse true cs
      else (parse false cs).map (.char c :: ·)

/-- The whole text is what the parts match one after the other. -/
def Matches : List Item → List Char → Bool
  | [], text => text.isEmpty
  | .anyText :: items, text => text.tails.any fun back => Matches items back
  | .anyChar :: items, text =>
      match text with
      | [] => false
      | _ :: rest => Matches items rest
  | .char c :: items, text =>
      match text with
      | [] => false
      | d :: rest => d == c && Matches items rest

/-- `text LIKE pattern`, which fails for a pattern that is none. -/
def like (pattern text : List Char) : Option Bool := (parse false pattern).map fun items => Matches items text

/-- The pattern for the texts that contain one. -/
def containing (text : List Char) : List Char := '%' :: (text ++ ['%'])

/-- No character of the text means something else in a pattern. -/
def Plain (text : List Char) : Prop := ∀ c ∈ text, c ≠ '%' ∧ c ≠ '_' ∧ c ≠ '\\'

variable {c : Char} {text found : List Char} {items : List Item}

/-! ## Matching -/

theorem matches_anyText : Matches (.anyText :: items) text = true ↔ ∃ back, back <:+ text ∧
    Matches items back = true := by
  rw [Matches, List.any_eq_true]
  exact exists_congr fun back => and_congr_left' (List.mem_tails back text)

theorem matches_char : Matches (.char c :: items) text = true ↔
    ∃ rest, text = c :: rest ∧ Matches items rest = true := by
  cases text with
  | nil => simp [Matches]
  | cons d rest =>
      rw [Matches, Bool.and_eq_true, beq_iff_eq]
      constructor
      · rintro ⟨rfl, h⟩
        exact ⟨rest, rfl, h⟩
      · rintro ⟨rest', heq, h⟩
        obtain ⟨rfl, rfl⟩ := List.cons.inj heq
        exact ⟨rfl, h⟩

/-- Characters that stand for themselves, before anything. -/
theorem matches_chars : Matches (text.map .char ++ [.anyText]) found = true ↔ text <+: found := by
  induction text generalizing found with
  | nil =>
      rw [List.map_nil, List.nil_append, matches_anyText]
      exact ⟨fun _ => List.nil_prefix, fun _ => ⟨[], List.nil_suffix, rfl⟩⟩
  | cons c text ih =>
      rw [List.map_cons, List.cons_append, matches_char]
      constructor
      · rintro ⟨rest, rfl, h⟩
        exact List.cons_prefix_cons.2 ⟨rfl, ih.1 h⟩
      · rintro ⟨back, rfl⟩
        exact ⟨text ++ back, rfl, ih.2 (List.prefix_append _ _)⟩

/-! ## Plain texts -/

theorem parse_plain (hplain : Plain text) :
    parse false (text ++ ['%']) = some (text.map .char ++ [.anyText]) := by
  induction text with
  | nil => rfl
  | cons c text ih =>
      obtain ⟨⟨hpercent, hunderscore, hbackslash⟩, hrest⟩ := List.forall_mem_cons.1 hplain
      rw [List.cons_append, parse, if_neg hpercent, if_neg hunderscore, if_neg hbackslash, ih hrest]
      rfl

/-- A plain text is found where it occurs. -/
theorem like_containing_plain (hplain : Plain text) :
    like (containing text) found = some (decide (text <:+: found)) := by
  rw [like, containing, parse, if_pos rfl, parse_plain hplain, Option.map_some, Option.map_some,
    Option.some.injEq, Bool.eq_iff_iff, decide_eq_true_eq, matches_anyText]
  constructor
  · rintro ⟨back, hback, h⟩
    exact (matches_chars.1 h).isInfix.trans hback.isInfix
  · rintro ⟨front, back, rfl⟩
    exact ⟨text ++ back, ⟨front, (List.append_assoc _ _ _).symm⟩, matches_chars.2 (List.prefix_append _ _)⟩

/-! ## Texts that are not plain -/

/-- A text that the pattern for those that contain `text` matches: the wildcards stand for nothing and
for one letter. The flag says that a backslash stands before the text. -/
def sample : Bool → List Char → List Char
  | false, [] => []
  | true, [] => ['%']
  | true, c :: cs => c :: sample false cs
  | false, c :: cs =>
      if c = '%' then sample false cs
      else if c = '_' then 'x' :: sample false cs
      else if c = '\\' then sample true cs
      else c :: sample false cs

/-- The pattern can be parsed, and its sample matches it. -/
theorem exists_parse (escaped : Bool) (text : List Char) : ∃ items,
    parse escaped (text ++ ['%']) = some items ∧ Matches items (sample escaped text) = true := by
  induction text generalizing escaped with
  | nil =>
      cases escaped with
      | false => exact ⟨[.anyText], rfl, rfl⟩
      | true => exact ⟨[.char '%'], rfl, rfl⟩
  | cons c text ih =>
      obtain ⟨items, hparse, hmatches⟩ := ih false
      cases escaped with
      | true =>
          refine ⟨.char c :: items, ?_, matches_char.2 ⟨_, rfl, hmatches⟩⟩
          rw [List.cons_append, parse, hparse]
          rfl
      | false =>
          rw [List.cons_append, parse, sample]
          by_cases hpercent : c = '%'
          · rw [if_pos hpercent, if_pos hpercent, hparse]
            exact ⟨_, rfl, matches_anyText.2 ⟨_, List.suffix_rfl, hmatches⟩⟩
          · rw [if_neg hpercent, if_neg hpercent]
            by_cases hunderscore : c = '_'
            · rw [if_pos hunderscore, if_pos hunderscore, hparse]
              exact ⟨_, rfl, hmatches⟩
            · rw [if_neg hunderscore, if_neg hunderscore]
              by_cases hbackslash : c = '\\'
              · rw [if_pos hbackslash, if_pos hbackslash]
                exact ih true
              · rw [if_neg hbackslash, if_neg hbackslash, hparse]
                exact ⟨_, rfl, matches_char.2 ⟨_, rfl, hmatches⟩⟩

/-- The sample is not longer than the text, the backslash included. -/
theorem length_sample_le (escaped : Bool) (text : List Char) :
    (sample escaped text).length ≤ text.length + if escaped then 1 else 0 := by
  induction text generalizing escaped with
  | nil => cases escaped <;> decide
  | cons c text ih =>
      have hplain := ih false
      have hescaped := ih true
      simp only [Bool.false_eq_true, if_false, if_true] at hplain hescaped
      cases escaped with
      | true =>
          simp only [sample, List.length_cons, if_true]
          omega
      | false =>
          simp only [sample, Bool.false_eq_true, if_false]
          split
          · simp only [List.length_cons]
            omega
          · split
            · simp only [List.length_cons]
              omega
            · split
              · simp only [List.length_cons]
                omega
              · simp only [List.length_cons]
                omega

/-- The text is its own sample only when it is plain. -/
theorem plain_of_sample_eq (h : sample false text = text) : Plain text := by
  induction text with
  | nil =>
      intro d hd
      cases hd
  | cons c text ih =>
      have hlength := length_sample_le false text
      rw [sample] at h
      split at h
      · -- nothing stands for the percent sign
        simp only [h, List.length_cons, Bool.false_eq_true, if_false] at hlength
        omega
      · rename_i hpercent
        split at h
        · rename_i hunderscore
          rw [hunderscore] at h
          exact absurd (List.cons.inj h).1 (by decide)
        · rename_i hunderscore
          split at h
          · rename_i hbackslash
            -- the character behind the backslash stands for both
            rw [hbackslash] at h
            cases text with
            | nil => exact absurd h (by decide)
            | cons d rest =>
                have hrest := length_sample_le false rest
                have hsame := congrArg List.length h
                simp only [sample, List.length_cons, Bool.false_eq_true, if_false] at hsame hrest
                omega
          · rename_i hbackslash
            exact List.forall_mem_cons.2 ⟨⟨hpercent, hunderscore, hbackslash⟩, ih (List.cons.inj h).2⟩

theorem mem_sample (escaped : Bool) (text : List Char) :
    ∀ d ∈ sample escaped text, d ∈ text ∨ d = 'x' ∨ d = '%' := by
  induction text generalizing escaped with
  | nil => cases escaped <;> simp [sample]
  | cons c text ih =>
      have hrest : ∀ escaped, ∀ d ∈ sample escaped text, d ∈ c :: text ∨ d = 'x' ∨ d = '%' := by
        intro escaped d hd
        exact (ih escaped d hd).imp_left (List.mem_cons_of_mem c)
      cases escaped with
      | true =>
          intro d hd
          rcases List.mem_cons.1 hd with rfl | hd
          · exact Or.inl List.mem_cons_self
          · exact hrest false d hd
      | false =>
          rw [sample]
          split
          · exact hrest false
          · split
            · intro d hd
              rcases List.mem_cons.1 hd with rfl | hd
              · exact Or.inr (Or.inl rfl)
              · exact hrest false d hd
            · split
              · exact hrest true
              · intro d hd
                rcases List.mem_cons.1 hd with rfl | hd
                · exact Or.inl List.mem_cons_self
                · exact hrest false d hd

/-- **A text that is not plain** finds one that does not contain it, written with its own characters, a
letter and the percent sign. -/
theorem exists_found_of_not_plain (h : ¬ Plain text) : ∃ found,
    (∀ d ∈ found, d ∈ text ∨ d = 'x' ∨ d = '%') ∧ like (containing text) found = some true ∧
      ¬ text <:+: found := by
  refine ⟨sample false text, mem_sample false text, ?_, ?_⟩
  · obtain ⟨items, hparse, hmatches⟩ := exists_parse false text
    rw [like, containing, parse, if_pos rfl, hparse, Option.map_some, Option.map_some, Option.some.injEq]
    exact matches_anyText.2 ⟨_, List.suffix_rfl, hmatches⟩
  · intro hinside
    have hlength := length_sample_le false text
    apply h
    apply plain_of_sample_eq
    exact (hinside.eq_of_length_le (by simpa using hlength)).symm

end SalesTrades.Library.LikePattern
