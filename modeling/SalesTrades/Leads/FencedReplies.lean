import Mathlib.Data.List.TakeWhile
import SalesTrades.Leads.IcpScoring
import SalesTrades.Library.JsonEnds

/-!
# Replies in a code fence

`_parse_json_response` strips the whitespace around a reply, and a code fence when the reply begins
with one. The text is cut at the first fence after that one, and this fence can stand in a string of
the text. So the value of a text is read from every way to fence it exactly when the text itself holds
no fence (`transparent_iff`).
-/

set_option autoImplicit false

namespace SalesTrades.Leads.IcpScoring

open SalesTrades.Library SalesTrades.Library.JsonText

/-- Characters that `str.strip` removes. -/
def Whitespace (cs : List Char) : Prop := ∀ c ∈ cs, isWhitespace c = true

/-- The text in a fence, after the name of the format and with whitespace around it. -/
def fenced (tag before text after : List Char) : List Char :=
  fence ++ (tag ++ (before ++ text ++ after)) ++ fence

/-- The text is decoded to `v` as it stands and in every fence, bare or with the name of the format, and
with whitespace anywhere around it. -/
structure Transparent (text : String) (v : JsonValue) : Prop where
  plain : ∀ before after, Whitespace before → Whitespace after →
    parseJsonResponse (String.ofList (before ++ text.toList ++ after)) = some v
  fenced : ∀ tag ∈ ["", "json"], ∀ before after before' after', Whitespace before →
    Whitespace after → Whitespace before' → Whitespace after' →
    parseJsonResponse (String.ofList
      (before' ++ fenced tag.toList before text.toList after ++ after')) = some v

/-! ## Stripping -/

section Stripping

variable {before after cs : List Char} {text : String} {v : JsonValue}

theorem dropWhile_whitespace_append (hafter : Whitespace after) :
    ((cs ++ after).dropWhile isWhitespace).reverse.dropWhile isWhitespace =
      (cs.dropWhile isWhitespace).reverse.dropWhile isWhitespace := by
  have hnil : after.dropWhile isWhitespace = [] := List.dropWhile_eq_nil_iff.2 hafter
  rw [List.dropWhile_append]
  split
  · rename_i hempty
    rw [hnil, List.isEmpty_iff.1 hempty]
  · have hreverse : ∀ c ∈ after.reverse, isWhitespace c = true := by
      intro c hc
      exact hafter c (List.mem_reverse.1 hc)
    rw [List.reverse_append, List.dropWhile_append_of_pos hreverse]

/-- Whitespace around a text does not change what is left of it. -/
theorem strip_append (hbefore : Whitespace before) (hafter : Whitespace after) :
    strip (String.ofList (before ++ cs ++ after)) = strip (String.ofList cs) := by
  simp only [strip, String.toList_ofList]
  rw [List.append_assoc, List.dropWhile_append_of_pos hbefore, dropWhile_whitespace_append hafter]

/-- What is stripped from a text. -/
theorem exists_strip (text : String) : ∃ before after, Whitespace before ∧ Whitespace after ∧
    text.toList = before ++ (strip text).toList ++ after := by
  have hsplit : ∀ l : List Char, ∃ start, Whitespace start ∧ l = start ++ l.dropWhile isWhitespace :=
    fun l => ⟨_, fun c hc => List.mem_takeWhile_imp hc, List.takeWhile_append_dropWhile.symm⟩
  obtain ⟨before, hbefore, hleft⟩ := hsplit text.toList
  obtain ⟨after, hafter, hright⟩ := hsplit (text.toList.dropWhile isWhitespace).reverse
  refine ⟨before, after.reverse, hbefore, fun c hc => hafter c (List.mem_reverse.1 hc), ?_⟩
  rw [strip, String.toList_ofList, List.append_assoc, ← List.reverse_append,
    ← hright, List.reverse_reverse]
  exact hleft

theorem foreign_of_isWhitespace {c : Char} (h : isWhitespace c = true) : Foreign c := by
  have hsign : ∀ sign ∈ [quote, backslash, '{', '}', '[', ']', ',', ':', '-', '+', '.'],
      isWhitespace sign = false := by
    simp only [List.forall_mem_cons, List.not_mem_nil, false_implies, implies_true, and_true]
    decide
  refine ⟨?_, ?_⟩
  · simp only [isWhitespace, Bool.or_eq_true, Bool.and_eq_true, decide_eq_true_eq, beq_iff_eq] at h
    have hranges : c.isAlphanum = (decide (65 ≤ c.toNat ∧ c.toNat ≤ 90) ||
        (decide (97 ≤ c.toNat) && decide (c.toNat ≤ 122)) ||
        (decide (48 ≤ c.toNat) && decide (c.toNat ≤ 57))) := rfl
    rw [hranges]
    simp only [Bool.or_eq_false_iff, Bool.and_eq_false_iff, decide_eq_false_iff_not]
    omega
  · rintro sign hmem rfl
    rw [hsign c hmem] at h
    cases h

theorem Whitespace.foreign (h : Whitespace cs) : ∀ c ∈ cs, Foreign c :=
  fun c hc => foreign_of_isWhitespace (h c hc)

/-- A text that is accepted is accepted when it is stripped. -/
theorem loads_strip (h : loads text = some v) : loads (strip text) = some v := by
  obtain ⟨before, after, hbefore, hafter, htext⟩ := exists_strip text
  rw [loads, htext, List.append_assoc] at h
  exact finish_run_of_append (spells_of_ne fun _ _ h => by cases h) hafter.foreign
    (finish_run_of_prepend hbefore.foreign h)

end Stripping

/-! ## The first fence -/

/-- The character of a fence. -/
def tick : Char := Char.ofNat 96

section Fence

variable {xs ys text : List Char}

theorem eq_tick_of_mem {c : Char} (hc : c ∈ fence) : c = tick := by
  have hfence : fence = List.replicate 3 tick := by decide
  exact List.eq_of_mem_replicate (hfence ▸ hc)

theorem foreign_tick : Foreign tick := by decide

theorem Whitespace.tick_notMem (h : Whitespace xs) : tick ∉ xs := by
  intro hmem
  have hticks : isWhitespace tick = true := h tick hmem
  cases hticks

/-- A fence is not made with characters that are no ticks. -/
theorem fence_infix_append (hxs : tick ∉ xs) (h : fence <:+: xs ++ ys) : fence <:+: ys := by
  rcases List.infix_append_iff.1 h with hleft | hright | ⟨l₁, l₂, hsplit, hl₁, hl₂⟩
  · exact absurd (hleft.subset (List.mem_cons_self (a := tick))) hxs
  · exact hright
  · cases l₁ with
    | nil =>
        rw [hsplit]
        exact hl₂.isInfix
    | cons c l₁ =>
        have hc : c ∈ fence := hsplit ▸ List.mem_cons_self
        rw [eq_tick_of_mem hc] at hl₁
        exact absurd (hl₁.subset List.mem_cons_self) hxs

theorem fence_infix_append_right (hys : tick ∉ ys) (h : fence <:+: xs ++ ys) : fence <:+: xs := by
  have hreverse : fence.reverse <:+: ys.reverse ++ xs.reverse := by
    rw [← List.reverse_append]
    exact List.reverse_infix.2 h
  -- a fence reads the same backwards
  exact List.reverse_infix.1 (fence_infix_append (by rwa [List.mem_reverse]) hreverse)

/-- A text without a fence is read to its end. -/
theorem untilFence_of_free (hfree : ¬ fence <:+: text) (hend : ¬ [tick] <:+ text) :
    untilFence (text ++ fence) = text := by
  induction text with
  | nil => rfl
  | cons c cs ih =>
      have hstart : ¬ fence.isPrefixOf (c :: (cs ++ fence)) = true := by
        rw [List.isPrefixOf_iff_prefix]
        intro hbegins
        have hwhole : c :: cs <+: c :: (cs ++ fence) := List.prefix_append (c :: cs) fence
        rcases List.prefix_or_prefix_of_prefix hbegins hwhole with hfence | hshort
        · exact hfree hfence.isInfix
        · -- a text of ticks ends with one
          have hne : c :: cs ≠ [] := List.cons_ne_nil c cs
          have hlast := eq_tick_of_mem (hshort.subset (List.getLast_mem hne))
          apply hend
          rw [← hlast]
          exact ⟨_, List.dropLast_append_getLast hne⟩
      rw [List.cons_append, untilFence, if_neg hstart, ih]
      · exact fun h => hfree (h.trans (List.suffix_cons c cs).isInfix)
      · exact fun h => hend (h.trans (List.suffix_cons c cs))

/-- A text with a fence is cut there. -/
theorem untilFence_of_infix (h : fence <:+: text) (xs : List Char) :
    ∃ rest, text = untilFence (text ++ xs) ++ (fence ++ rest) := by
  induction text with
  | nil => exact absurd h.length_le (by decide)
  | cons c cs ih =>
      have hwhole : c :: cs <+: c :: (cs ++ xs) := List.prefix_append (c :: cs) xs
      rw [List.cons_append, untilFence]
      split
      · rename_i hstart
        obtain ⟨rest, hrest⟩ :=
          List.prefix_of_prefix_length_le (List.isPrefixOf_iff_prefix.1 hstart) hwhole h.length_le
        exact ⟨rest, hrest.symm⟩
      · rename_i hstart
        have htail : fence <:+: cs := by
          rcases List.infix_cons_iff.1 h with hbegins | htail
          · exact absurd (List.isPrefixOf_iff_prefix.2 (hbegins.trans hwhole)) hstart
          · exact htail
        obtain ⟨rest, hrest⟩ := ih htail
        exact ⟨rest, congrArg (c :: ·) hrest⟩

end Fence

/-! ## Texts that are accepted -/

section Accepted

variable {xs : List Char} {text : String} {v : JsonValue}

/-- A text that is accepted has a first character, which begins no name of a format. -/
theorem exists_cons_of_loads (h : loads text = some v) :
    ∃ c rest, text.toList = c :: rest ∧ c ≠ 'j' ∧ c ≠ tick := by
  rw [loads] at h
  cases hcs : text.toList with
  | nil =>
      rw [hcs] at h
      cases h
  | cons c rest =>
      rw [hcs] at h
      refine ⟨c, rest, rfl, ?_, ?_⟩
      · rintro rfl
        have hnone : finish (run ⟨[], .value⟩ ('j' :: rest)) = none :=
          finish_of_failed (failed_run rfl rest)
        rw [hnone] at h
        cases h
      · rintro rfl
        have hblank : isBlank tick = true := isBlank_of_finish_run foreign_tick h
        cases hblank

/-- Nor does it end with a tick. -/
theorem not_suffix_of_loads (h : loads text = some v) : ¬ [tick] <:+ text.toList := by
  rintro ⟨init, htext⟩
  rw [loads, ← htext, run_append] at h
  have hspells : Spells ⟨[], .value⟩ := spells_of_ne fun _ _ h => by cases h
  have hblank := (finish_step_foreign (spells_run hspells init) foreign_tick h).1
  cases hblank

theorem removePrefix_json (h : xs.head? ≠ some 'j') : removePrefix "json".toList xs = xs := by
  rw [removePrefix, if_neg]
  rw [List.isPrefixOf_iff_prefix]
  rintro ⟨rest, rfl⟩
  exact h rfl

/-- No text that is accepted goes on after its end with a fence. -/
theorem loads_strip_front {front rest : List Char} (htext : text.toList = front ++ (fence ++ rest))
    (h : loads text = some v) : loads (strip (String.ofList front)) ≠ some v := by
  intro hfront
  obtain ⟨before, after, hbefore, hafter, hsplit⟩ := exists_strip (String.ofList front)
  rw [String.toList_ofList] at hsplit
  rw [loads, htext, hsplit, List.append_assoc, List.append_assoc] at h
  have hnone := finish_run_of_foreign hfront hafter.foreign foreign_tick rfl
    ([tick, tick] ++ rest)
  have hsome := finish_run_of_prepend hbefore.foreign h
  exact Option.some_ne_none v (hsome.symm.trans hnone)

end Accepted

/-! ## Fenced texts -/

section Fenced

variable {before after before' after' tag : List Char} {text : String} {v : JsonValue}

/-- What is decoded of a fenced text. -/
theorem parse_fenced (hbefore : Whitespace before') (hafter : Whitespace after') (cs : List Char) :
    parseJsonResponse (String.ofList (before' ++ fenced tag before cs after ++ after')) =
      loads (strip (String.ofList (removePrefix "json".toList
        (untilFence (tag ++ (before ++ cs ++ after) ++ fence))))) := by
  have hends : fenced tag before cs after =
      tick :: ([tick, tick] ++ (tag ++ (before ++ cs ++ after)) ++ [tick, tick] ++ [tick]) := by
    simp only [fenced, List.append_assoc]
    rfl
  have hstrip : strip (String.ofList (before' ++ fenced tag before cs after ++ after')) =
      String.ofList (fenced tag before cs after) := by
    rw [strip_append hbefore hafter, hends]
    exact strip_of_ends _ rfl rfl
  have hstart : fence.isPrefixOf (fenced tag before cs after) = true := by
    rw [List.isPrefixOf_iff_prefix, fenced, List.append_assoc]
    exact List.prefix_append _ _
  have hdrop : (fenced tag before cs after).drop fence.length =
      tag ++ (before ++ cs ++ after) ++ fence := by
    rw [fenced, List.append_assoc, List.drop_left]
  rw [parseJsonResponse, hstrip]
  simp only [String.toList_ofList, hstart, if_true, hdrop]

/-- The name of the format goes, and nothing of the text. -/
theorem removePrefix_tag (htag : tag = [] ∨ tag = "json".toList) (hbefore : Whitespace before)
    (h : loads text = some v) : removePrefix "json".toList (tag ++ (before ++ text.toList ++ after)) =
      before ++ text.toList ++ after := by
  rcases htag with rfl | rfl
  · apply removePrefix_json
    cases before with
    | nil =>
        obtain ⟨c, rest, hcons, hc, -⟩ := exists_cons_of_loads h
        rw [hcons]
        exact fun heq => hc (Option.some.inj heq)
    | cons c before =>
        have hc := hbefore c List.mem_cons_self
        intro heq
        rw [Option.some.inj heq] at hc
        cases hc
  · rw [removePrefix, if_pos (List.isPrefixOf_iff_prefix.2 (List.prefix_append _ _)), List.drop_left]

/-- The text goes on to the closing fence. -/
theorem untilFence_fenced (htag : tick ∉ tag) (hbefore : Whitespace before) (hafter : Whitespace after)
    (h : loads text = some v) (hfree : ¬ fence <:+: text.toList) :
    untilFence (tag ++ (before ++ text.toList ++ after) ++ fence) =
      tag ++ (before ++ text.toList ++ after) := by
  apply untilFence_of_free
  · intro hfence
    apply hfree
    apply fence_infix_append hbefore.tick_notMem
    exact fence_infix_append_right hafter.tick_notMem (fence_infix_append htag hfence)
  · rintro hlast
    obtain ⟨c, rest, hcons, -⟩ := exists_cons_of_loads h
    have hsuffix : [tick] <:+ text.toList ++ after := by
      apply List.suffix_of_suffix_length_le hlast
      · rw [List.append_assoc, ← List.append_assoc]
        exact List.suffix_append _ _
      · rw [hcons]
        exact Nat.succ_pos _
    rcases List.eq_nil_or_concat' after with rfl | ⟨init, last, rfl⟩
    · rw [List.append_nil] at hsuffix
      exact not_suffix_of_loads h hsuffix
    · have hwhite := hafter last (List.mem_append_right init (List.mem_singleton_self last))
      rw [← List.append_assoc, List.suffix_concat_iff] at hsuffix
      obtain hnil | ⟨t, ht, -⟩ := hsuffix
      · cases hnil
      · obtain ⟨-, hticks⟩ := List.append_inj' (show [] ++ [tick] = t ++ [last] from ht) rfl
        rw [← List.singleton_inj.1 hticks] at hwhite
        cases hwhite

/-- Whitespace around a text that stands alone does not matter. -/
theorem parse_plain (hbefore : Whitespace before) (hafter : Whitespace after)
    (h : loads text = some v) :
    parseJsonResponse (String.ofList (before ++ text.toList ++ after)) = some v := by
  have hloads : loads (strip text) = some v := loads_strip h
  obtain ⟨c, rest, hcons, -, hc⟩ := exists_cons_of_loads hloads
  have hstart : ¬ fence.isPrefixOf (strip text).toList = true := by
    rw [hcons, List.isPrefixOf_iff_prefix]
    rintro ⟨xs, hxs⟩
    exact hc (List.cons.inj hxs).1.symm
  rw [parseJsonResponse, strip_append hbefore hafter, String.ofList_toList]
  simp only [if_neg hstart, String.ofList_toList, hloads]

end Fenced

/-- A text that `json.loads` accepts is decoded in every fence exactly when it holds no fence. -/
theorem transparent_iff {text : String} {v : JsonValue} (h : loads text = some v) :
    Transparent text v ↔ ¬ fence <:+: text.toList := by
  constructor
  · rintro ⟨-, hfenced⟩ hfence
    have hnil : Whitespace [] := List.forall_mem_nil _
    have hparse := hfenced "" List.mem_cons_self [] [] [] [] hnil hnil hnil hnil
    rw [parse_fenced hnil hnil] at hparse
    obtain ⟨rest, hrest⟩ := untilFence_of_infix hfence fence
    have hhead : (untilFence (text.toList ++ fence)).head? ≠ some 'j' := by
      obtain ⟨c, cs, hcons, hc, -⟩ := exists_cons_of_loads h
      intro hhead
      obtain ⟨front, hfront⟩ := List.head?_eq_some_iff.1 hhead
      rw [hfront] at hrest
      exact hc (List.cons.inj (hcons.symm.trans hrest)).1
    rw [String.toList_empty, List.nil_append, List.nil_append, List.append_nil,
      removePrefix_json hhead] at hparse
    exact loads_strip_front hrest h hparse
  · intro hfree
    refine ⟨fun before after hbefore hafter => parse_plain hbefore hafter h, ?_⟩
    intro tag htag before after before' after' hbefore hafter hbefore' hafter'
    have htags : tick ∉ tag.toList ∧ (tag.toList = [] ∨ tag.toList = "json".toList) := by
      rcases List.mem_pair.1 htag with rfl | rfl
      · exact ⟨by decide, Or.inl rfl⟩
      · exact ⟨by decide, Or.inr rfl⟩
    rw [parse_fenced hbefore' hafter', untilFence_fenced htags.1 hbefore hafter h hfree,
      removePrefix_tag htags.2 hbefore h, strip_append hbefore hafter, String.ofList_toList]
    exact loads_strip h

/-- Single ticks and the word itself do no harm. -/
theorem transparent_ticks :
    Transparent "\x7b\"a\": \"`json` ``b``\"\x7d"
      (.obj [(some "a", .str (some "`json` ``b``"))]) :=
  (transparent_iff rfl).2 (by decide)

/-- An object with a fence in a string. -/
def fencedRationale : String := "\x7b\"rationale\": \"```\"\x7d"

/-- The object is cut in its string. -/
theorem fencedRationale_not_transparent :
    loads fencedRationale = some (.obj [(some "rationale", .str (some "```"))]) ∧
      ¬ Transparent fencedRationale (.obj [(some "rationale", .str (some "```"))]) := by
  refine ⟨rfl, fun h => ?_⟩
  have hnil : Whitespace [] := List.forall_mem_nil _
  have hparse := h.fenced "" List.mem_cons_self [] [] [] [] hnil hnil hnil hnil
  have hnone : parseJsonResponse (String.ofList
      ([] ++ fenced "".toList [] fencedRationale.toList [] ++ [])) = none := rfl
  rw [hnone] at hparse
  cases hparse

end SalesTrades.Leads.IcpScoring
