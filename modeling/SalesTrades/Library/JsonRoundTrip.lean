import Mathlib.Data.Nat.Digits.Lemmas
import SalesTrades.Library.JsonText

/-!
# The JSON machine reads what is written

`render` writes a value without spaces. The machine reads it back (`loads_render`), whatever is open
around it (`run_render`).
-/

set_option autoImplicit false

namespace SalesTrades.Library.JsonText

/-! ## Writing -/

def digitChar (d : Nat) : Char := Char.ofNat (48 + d)

def hexChar (d : Nat) : Char := if d < 10 then digitChar d else Char.ofNat (87 + d)

def renderNat (n : Nat) : List Char :=
  if n = 0 then ['0'] else (Nat.digits 10 n).reverse.map digitChar

def renderInt : Int → List Char
  | .ofNat n => renderNat n
  | .negSucc n => '-' :: renderNat (n + 1)

def renderChar (c : Char) : List Char :=
  if c = quote ∨ c = backslash then [backslash, c]
  else if c.toNat < 32 then
    [backslash, 'u', '0', '0', hexChar (c.toNat / 16), hexChar (c.toNat % 16)]
  else [c]

def renderText (s : String) : List Char := quote :: (s.toList.flatMap renderChar ++ [quote])

mutual

/-- The text of a value. -/
def render : JsonValue → List Char
  | .null => "null".toList
  | .bool true => "true".toList
  | .bool false => "false".toList
  | .int n => renderInt n
  | .float lexeme => lexeme.toList
  | .str s => renderText (s.getD "")
  | .arr [] => ['[', ']']
  | .arr (x :: xs) => '[' :: (render x ++ renderItems xs ++ [']'])
  | .obj members => '{' :: (renderMembers members ++ ['}'])

/-- The items after the first. -/
def renderItems : List JsonValue → List Char
  | [] => []
  | x :: xs => ',' :: (render x ++ renderItems xs)

/-- The members, of which the last one is the first of the list. -/
def renderMembers : Members → List Char
  | [] => []
  | (key, v) :: members =>
      renderMembers members ++ (if members.isEmpty then [] else [',']) ++
        renderText (key.getD "") ++ ':' :: render v

end

mutual

/-- No number with a fraction or an exponent or too many digits, and no lone surrogate. -/
def Plain : JsonValue → Prop
  | .null | .bool _ => True
  | .int n => (renderNat n.natAbs).length ≤ maxStrDigits
  | .float _ => False
  | .str s => s.isSome = true
  | .arr [] => True
  | .arr (x :: xs) => Plain x ∧ PlainItems xs
  | .obj members => PlainMembers members

def PlainItems : List JsonValue → Prop
  | [] => True
  | x :: xs => Plain x ∧ PlainItems xs

def PlainMembers : Members → Prop
  | [] => True
  | (key, v) :: members => key.isSome = true ∧ Plain v ∧ PlainMembers members

end

/-! ## Runs -/

theorem run_append (s : State) (xs ys : List Char) : run s (xs ++ ys) = run (run s xs) ys :=
  List.foldl_append

theorem run_cons (s : State) (c : Char) (cs : List Char) : run s (c :: cs) = run (step s c) cs := rfl

@[simp]
theorem run_nil (s : State) : run s [] = s := rfl

/-- The two states agree on the end of the text and on the characters that end a value. A number is
only complete when one of these is read. -/
structure Agree (s t : State) : Prop where
  finish : finish s = finish t
  step : ∀ c, c = ',' ∨ c = ']' ∨ c = '}' → step s c = step t c

theorem Agree.refl (s : State) : Agree s s := ⟨rfl, fun _ _ => rfl⟩

theorem Agree.run_cons {s t : State} (h : Agree s t) {c : Char} (hc : c = ',' ∨ c = ']' ∨ c = '}')
    (cs : List Char) : run s (c :: cs) = run t (c :: cs) := by
  rw [JsonText.run_cons, JsonText.run_cons, h.step c hc]

/-! ## Numbers -/

section Numbers

variable {n d : Nat} {stack : List Frame} {lexeme ds : List Char}

theorem digitChar_facts : ∀ d < 10, (digitChar d).isDigit = true ∧ (digitChar d).toNat - 48 = d ∧
    (d ≠ 0 → digitChar d ≠ '0') := by
  decide

theorem isDigit_renderNat : ∀ c ∈ renderNat n, c.isDigit = true := by
  intro c hc
  rw [renderNat] at hc
  split at hc
  · rw [List.mem_singleton] at hc
    rw [hc]
    rfl
  · obtain ⟨d, hd, rfl⟩ := List.mem_map.1 hc
    rw [List.mem_reverse] at hd
    exact (digitChar_facts d (Nat.digits_lt_base (by decide) hd)).1

/-- The leading digit of a positive number is not zero. -/
theorem renderNat_of_pos (hn : n ≠ 0) : ∃ c cs, renderNat n = c :: cs ∧ c.isDigit = true ∧ c ≠ '0' ∧
    ∀ c' ∈ cs, c'.isDigit = true := by
  have hne : Nat.digits 10 n ≠ [] := Nat.digits_ne_nil_iff_ne_zero.2 hn
  have hlast := Nat.getLast_digit_ne_zero 10 hn
  have hlt := Nat.digits_lt_base (b := 10) (by decide) (List.getLast_mem hne)
  obtain ⟨hdigit, -, hzero⟩ := digitChar_facts _ hlt
  have hrender : renderNat n = digitChar ((Nat.digits 10 n).getLast hne) ::
      (Nat.digits 10 n).dropLast.reverse.map digitChar := by
    rw [renderNat, if_neg hn, ← List.map_cons, ← List.reverse_concat, List.dropLast_append_getLast hne]
  refine ⟨_, _, hrender, hdigit, hzero hlast, fun c' hc' => ?_⟩
  apply isDigit_renderNat (n := n)
  rw [hrender]
  exact List.mem_cons_of_mem _ hc'

theorem natOfDigits_append (xs : List Char) (c : Char) :
    natOfDigits (xs ++ [c]) = 10 * natOfDigits xs + (c.toNat - 48) := by
  rw [natOfDigits, List.foldl_append]
  rfl

theorem natOfDigits_renderNat (n : Nat) : natOfDigits (renderNat n) = n := by
  have hdigits : ∀ ds : List Nat, (∀ d ∈ ds, d < 10) →
      natOfDigits (ds.reverse.map digitChar) = Nat.ofDigits 10 ds := by
    intro ds
    induction ds with
    | nil => exact fun _ => rfl
    | cons d ds ih =>
        intro hds
        obtain ⟨hd, hds⟩ := List.forall_mem_cons.1 hds
        rw [List.reverse_cons, List.map_append, List.map_singleton, natOfDigits_append, ih hds,
          (digitChar_facts d hd).2.1, Nat.ofDigits_cons]
        omega
  rw [renderNat]
  split
  · rename_i h
    rw [h]
    rfl
  · rw [hdigits _ fun d hd => Nat.digits_lt_base (by decide) hd, Nat.ofDigits_digits]

theorem run_digits (hds : ∀ c ∈ ds, c.isDigit = true) :
    run ⟨stack, .number .int lexeme⟩ ds = ⟨stack, .number .int (ds.reverse ++ lexeme)⟩ := by
  induction ds generalizing lexeme with
  | nil => rfl
  | cons c cs ih =>
      obtain ⟨hc, hcs⟩ := List.forall_mem_cons.1 hds
      have hstep : step ⟨stack, .number .int lexeme⟩ c = ⟨stack, .number .int (c :: lexeme)⟩ := by
        simp only [step, NumberPart.next, hc, if_true]
      rw [run_cons, hstep, ih hcs, List.reverse_cons, List.append_assoc]
      rfl

theorem ne_of_isDigit {c x : Char} (hc : c.isDigit = true) (hx : x.isDigit = false) : c ≠ x := by
  rintro rfl
  rw [hc] at hx
  cases hx

theorem step_value_digit {c : Char} (hc : c.isDigit = true) (hzero : c ≠ '0') :
    step ⟨stack, .value⟩ c = ⟨stack, .number .int [c]⟩ := by
  have hblank : isBlank c = false := by
    simp [isBlank, ne_of_isDigit hc (x := ' ') rfl, ne_of_isDigit hc (x := '\t') rfl,
      ne_of_isDigit hc (x := '\n') rfl, ne_of_isDigit hc (x := '\r') rfl]
  simp [step, startValue, hblank, ne_of_isDigit hc (x := quote) rfl, ne_of_isDigit hc (x := '{') rfl,
    ne_of_isDigit hc (x := '[') rfl, ne_of_isDigit hc (x := '-') rfl, hzero, hc]

/-- The digits of a number that is not zero, after its leading digit. -/
theorem numberValue_int {c : Char} {cs : List Char} (hcs : ∀ c' ∈ c :: cs, c'.isDigit = true)
    (hlength : (c :: cs).length ≤ maxStrDigits) :
    numberValue .int (cs.reverse ++ [c]) = some (.int (natOfDigits (c :: cs))) ∧
      numberValue .int (cs.reverse ++ [c, '-']) = some (.int (-natOfDigits (c :: cs))) := by
  have hall : ∀ l : List Char, (∀ c' ∈ l, c'.isDigit = true) → l.filter Char.isDigit = l :=
    fun l hl => List.filter_eq_self.2 hl
  have hrev : ∀ c' ∈ cs.reverse ++ [c], c'.isDigit = true := by
    intro c' hc'
    apply hcs
    simpa [or_comm] using hc'
  have hcount : (cs.reverse ++ [c]).length = (c :: cs).length := by simp
  have hminus : c ≠ '-' := ne_of_isDigit (hcs c List.mem_cons_self) rfl
  constructor
  · simp only [numberValue]
    rw [hall _ hrev, hcount, if_pos hlength, List.reverse_append, List.reverse_reverse]
    simp [intOfLexeme, hminus]
  · have hsplit : cs.reverse ++ [c, '-'] = (cs.reverse ++ [c]) ++ ['-'] := by simp
    have hfilter : (cs.reverse ++ [c, '-']).filter Char.isDigit = cs.reverse ++ [c] := by
      rw [hsplit, List.filter_append, hall _ hrev]
      simp
    simp only [numberValue]
    rw [hfilter, hcount, if_pos hlength, List.reverse_append, List.reverse_reverse]
    simp [intOfLexeme]

/-- A number is complete up to the character after it. -/
theorem run_renderInt (stack : List Frame) (z : Int)
    (hlength : (renderNat z.natAbs).length ≤ maxStrDigits) :
    ∃ part lexeme, run ⟨stack, .value⟩ (renderInt z) = ⟨stack, .number part lexeme⟩ ∧
      (part = .zero ∨ part = .int) ∧ numberValue part lexeme = some (.int z) := by
  cases z with
  | ofNat n =>
      by_cases hn : n = 0
      · subst hn
        exact ⟨.zero, ['0'], rfl, Or.inl rfl, rfl⟩
      · obtain ⟨c, cs, hrender, hc, hzero, hcs⟩ := renderNat_of_pos hn
        have hvalue := numberValue_int (List.forall_mem_cons.2 ⟨hc, hcs⟩) (hrender ▸ hlength)
        rw [← hrender, natOfDigits_renderNat] at hvalue
        refine ⟨.int, _, ?_, Or.inr rfl, hvalue.1⟩
        rw [renderInt, hrender, run_cons, step_value_digit hc hzero, run_digits hcs]
  | negSucc n =>
      obtain ⟨c, cs, hrender, hc, hzero, hcs⟩ := renderNat_of_pos (Nat.succ_ne_zero n)
      have hvalue := numberValue_int (List.forall_mem_cons.2 ⟨hc, hcs⟩) (hrender ▸ hlength)
      rw [← hrender, natOfDigits_renderNat] at hvalue
      have hsign : step ⟨stack, .value⟩ '-' = ⟨stack, .number .minus ['-']⟩ := rfl
      have hlead : step ⟨stack, .number .minus ['-']⟩ c = ⟨stack, .number .int [c, '-']⟩ := by
        simp [step, NumberPart.next, hzero, hc]
      refine ⟨.int, _, ?_, Or.inr rfl, hvalue.2⟩
      rw [renderInt, run_cons, hsign, hrender, run_cons, hlead, run_digits hcs]

theorem step_deliver (stack : List Frame) (v : JsonValue) (c : Char) :
    step (deliver stack v) c = stepAfter (deliver stack v) c := by
  cases stack with
  | nil => rfl
  | cons frame stack => cases frame <;> rfl

theorem agree_number {part : NumberPart} {v : JsonValue} (hpart : part = .zero ∨ part = .int)
    (hvalue : numberValue part lexeme = some v) :
    Agree ⟨stack, .number part lexeme⟩ (deliver stack v) := by
  refine ⟨?_, fun c hc => ?_⟩
  · cases stack with
    | nil => exact hvalue
    | cons frame stack => cases frame <;> cases stack <;> rfl
  · have hnext : part.next c = none := by
      rcases hpart with rfl | rfl <;> rcases hc with rfl | rfl | rfl <;> rfl
    have hminus : part ≠ .minus := by
      rcases hpart with rfl | rfl <;> decide
    rw [step_deliver]
    simp only [step, hnext, hminus, false_and, if_false, hvalue]

end Numbers

/-! ## Strings -/

section Strings

variable {stack : List Frame} {slot : Slot} {codes : List Nat}

/-- A character is no surrogate. -/
theorem not_surrogate (c : Char) : isHighSurrogate c.toNat = false ∧ isLowSurrogate c.toNat = false := by
  have hvalid : c.toNat < 0xD800 ∨ (0xDFFF < c.toNat ∧ c.toNat < 0x110000) := c.valid
  simp only [isHighSurrogate, isLowSurrogate, Bool.and_eq_false_iff, decide_eq_false_iff_not, not_le]
  omega

theorem pushCode_char (codes : List Nat) (c : Char) : pushCode codes c.toNat = c.toNat :: codes := by
  cases codes with
  | nil => rfl
  | cons code codes => rw [pushCode, (not_surrogate c).2, Bool.and_false, if_neg Bool.false_ne_true]

theorem hexDigit_hexChar : ∀ d < 16, hexDigit (hexChar d) = some d := by
  decide

theorem run_renderChar (c : Char) :
    run ⟨stack, .text slot codes⟩ (renderChar c) = ⟨stack, .text slot (c.toNat :: codes)⟩ := by
  have hbackslash : step ⟨stack, .text slot codes⟩ backslash = ⟨stack, .escape slot codes⟩ := rfl
  rw [renderChar]
  split
  · rename_i hescaped
    have hcode : unescape c = some c.toNat := by
      rcases hescaped with rfl | rfl <;> rfl
    have hu : c ≠ 'u' := by
      rcases hescaped with rfl | rfl <;> decide
    rw [run_cons, hbackslash, run_cons, run_nil]
    simp only [step, hu, if_false, hcode, pushCode_char]
  · rename_i hraw
    rw [not_or] at hraw
    split
    · rename_i hcontrol
      have hhigh := hexDigit_hexChar (c.toNat / 16) (by omega)
      have hlow := hexDigit_hexChar (c.toNat % 16) (by omega)
      have hzero : hexDigit '0' = some 0 := rfl
      have hcode : 16 * (c.toNat / 16) + c.toNat % 16 = c.toNat := by omega
      have hu : step ⟨stack, .escape slot codes⟩ 'u' = ⟨stack, .hex slot codes 4 0⟩ := rfl
      rw [run_cons, hbackslash, run_cons, hu]
      simp [run_cons, step, hzero, hhigh, hlow, hcode, pushCode_char]
    · rename_i hplain
      rw [run_cons, run_nil]
      simp only [step, hraw.1, hraw.2, hplain, if_false, pushCode_char]

theorem run_renderChars (cs : List Char) : run ⟨stack, .text slot codes⟩ (cs.flatMap renderChar) =
    ⟨stack, .text slot ((cs.map Char.toNat).reverse ++ codes)⟩ := by
  induction cs generalizing codes with
  | nil => rfl
  | cons c cs ih =>
      rw [List.flatMap_cons, run_append, run_renderChar, ih, List.map_cons, List.reverse_cons,
        List.append_assoc]
      rfl

theorem textOf_chars (s : String) : textOf (s.toList.map Char.toNat).reverse = some s := by
  have hvalid : ((s.toList.map Char.toNat).reverse.any fun code =>
      isHighSurrogate code || isLowSurrogate code) = false := by
    rw [List.any_eq_false]
    intro code hcode
    obtain ⟨c, -, rfl⟩ := List.mem_map.1 (List.mem_reverse.1 hcode)
    simp [not_surrogate c]
  rw [textOf, hvalid, if_neg Bool.false_ne_true, List.reverse_reverse, List.map_map]
  have hcode : (Char.ofNat ∘ Char.toNat) = id := by
    funext c
    exact Char.ofNat_toNat c
  rw [hcode, List.map_id, String.ofList_toList]

/-- A string is read up to its closing quote. -/
theorem run_renderText {s : State} (text : String)
    (hopen : step s quote = ⟨stack, .text slot []⟩) :
    run s (renderText text) = closeText stack slot (text.toList.map Char.toNat).reverse := by
  rw [renderText, run_cons, hopen, run_append, run_renderChars, List.append_nil]
  rfl

end Strings

/-! ## Values -/

/-- A value does not begin like the end of an array, so the first item is read as any value is. -/
theorem step_firstItem {stack : List Frame} {c : Char} (hblank : isBlank c = false) (hc : c ≠ ']') :
    step ⟨stack, .firstItem⟩ c = step ⟨.arr [] :: stack, .value⟩ c := by
  simp only [step, hblank, hc, Bool.false_eq_true, if_false]

/-- The first character of a value. -/
theorem render_head (v : JsonValue) (hv : Plain v) :
    ∃ c cs, render v = c :: cs ∧ isBlank c = false ∧ c ≠ ']' := by
  have hdigit : ∀ c : Char, c.isDigit = true → isBlank c = false ∧ c ≠ ']' := by
    intro c hc
    refine ⟨?_, ne_of_isDigit hc rfl⟩
    simp [isBlank, ne_of_isDigit hc (x := ' ') rfl, ne_of_isDigit hc (x := '\t') rfl,
      ne_of_isDigit hc (x := '\n') rfl, ne_of_isDigit hc (x := '\r') rfl]
  cases v with
  | null => exact ⟨'n', _, rfl, rfl, by decide⟩
  | bool b =>
      cases b with
      | true => exact ⟨'t', _, rfl, rfl, by decide⟩
      | false => exact ⟨'f', _, rfl, rfl, by decide⟩
  | int z =>
      rw [render]
      cases z with
      | ofNat n =>
          rw [renderInt]
          by_cases hn : n = 0
          · subst hn
            exact ⟨'0', [], rfl, rfl, by decide⟩
          · obtain ⟨c, cs, hrender, hc, -, -⟩ := renderNat_of_pos hn
            exact ⟨c, cs, hrender, hdigit c hc⟩
      | negSucc n => exact ⟨'-', _, rfl, rfl, by decide⟩
  | float lexeme => exact absurd hv (by simp [Plain])
  | str s => exact ⟨quote, _, rfl, rfl, by decide⟩
  | arr items =>
      cases items with
      | nil => exact ⟨'[', _, rfl, rfl, by decide⟩
      | cons x xs => exact ⟨'[', _, by rw [render], rfl, by decide⟩
  | obj members => exact ⟨'{', _, by rw [render], rfl, by decide⟩

mutual

/-- **The machine reads a value back**, whatever is open around it. -/
theorem run_render : ∀ (v : JsonValue), Plain v → ∀ stack : List Frame,
    Agree (run ⟨stack, .value⟩ (render v)) (deliver stack v)
  | .null, _, stack => Agree.refl _
  | .bool true, _, stack => Agree.refl _
  | .bool false, _, stack => Agree.refl _
  | .int z, hv, stack => by
      rw [Plain] at hv
      obtain ⟨part, lexeme, hrun, hpart, hvalue⟩ := run_renderInt stack z hv
      rw [render, hrun]
      exact agree_number hpart hvalue
  | .float lexeme, hv, _ => by
      rw [Plain] at hv
      exact hv.elim
  | .str s, hv, stack => by
      rw [Plain] at hv
      obtain ⟨text, rfl⟩ := Option.isSome_iff_exists.1 hv
      have hopen : step ⟨stack, .value⟩ quote = ⟨stack, .text .value []⟩ := rfl
      rw [render, Option.getD_some, run_renderText text hopen, closeText, textOf_chars]
      exact Agree.refl _
  | .arr [], _, stack => Agree.refl _
  | .arr (x :: xs), hv, stack => by
      rw [Plain] at hv
      obtain ⟨hx, hxs⟩ := hv
      obtain ⟨c, cs, hhead, hblank, hc⟩ := render_head x hx
      have hopen : step ⟨stack, .value⟩ '[' = ⟨stack, .firstItem⟩ := rfl
      have hfirst : run ⟨stack, .firstItem⟩ (render x) = run ⟨.arr [] :: stack, .value⟩ (render x) := by
        rw [hhead, run_cons, run_cons, step_firstItem hblank hc]
      have hitems := run_renderItems xs hxs stack [x] _ (run_render x hx (.arr [] :: stack))
      rw [render, run_cons, hopen, run_append, run_append, hfirst, hitems.run_cons (by simp)]
      have hclose : step ⟨stack, .afterItem (xs.reverse ++ [x])⟩ ']' =
          deliver stack (.arr (xs.reverse ++ [x]).reverse) := rfl
      rw [run_cons, hclose, List.reverse_append, List.reverse_reverse]
      exact Agree.refl _
  | .obj members, hv, stack => by
      rw [Plain] at hv
      have hopen : step ⟨stack, .value⟩ '{' = ⟨stack, .key true []⟩ := rfl
      rw [render, run_cons, hopen, run_append]
      cases members with
      | nil => exact Agree.refl _
      | cons m members =>
          have hmembers := run_renderMembers (m :: members) hv stack (List.cons_ne_nil _ _)
          rw [hmembers.run_cons (by simp)]
          exact Agree.refl _

/-- The items after the first. -/
theorem run_renderItems : ∀ (xs : List JsonValue), PlainItems xs → ∀ (stack : List Frame)
    (items : List JsonValue) (s : State), Agree s ⟨stack, .afterItem items⟩ →
    Agree (run s (renderItems xs)) ⟨stack, .afterItem (xs.reverse ++ items)⟩
  | [], _, stack, items, s, hs => by
      rw [renderItems]
      exact hs
  | x :: xs, hxs, stack, items, s, hs => by
      rw [PlainItems] at hxs
      have hcomma : step ⟨stack, .afterItem items⟩ ',' = ⟨.arr items :: stack, .value⟩ := rfl
      rw [renderItems, hs.run_cons (by simp), run_cons, hcomma, run_append, List.reverse_cons,
        List.append_assoc]
      exact run_renderItems xs hxs.2 stack (x :: items) _ (run_render x hxs.1 (.arr items :: stack))

/-- The members up to the last one. -/
theorem run_renderMembers : ∀ (members : Members), PlainMembers members → ∀ stack : List Frame,
    members ≠ [] → Agree (run ⟨stack, .key true []⟩ (renderMembers members))
      ⟨stack, .afterMember members⟩
  | [], _, _, hne => absurd rfl hne
  | (key, v) :: members, hm, stack, _ => by
      rw [PlainMembers] at hm
      obtain ⟨hkey, hv, hmembers⟩ := hm
      obtain ⟨text, rfl⟩ := Option.isSome_iff_exists.1 hkey
      -- the state in which the key begins
      have hbefore : ∃ first, run ⟨stack, .key true []⟩
          (renderMembers members ++ if members.isEmpty then [] else [',']) =
          ⟨stack, .key first members⟩ := by
        cases members with
        | nil => exact ⟨true, rfl⟩
        | cons m rest =>
            have hrest := run_renderMembers (m :: rest) hmembers stack (List.cons_ne_nil _ _)
            refine ⟨false, ?_⟩
            rw [List.isEmpty_cons, if_neg Bool.false_ne_true, run_append, hrest.run_cons (by simp)]
            rfl
      obtain ⟨first, hfirst⟩ := hbefore
      have hopen : step ⟨stack, .key first members⟩ quote = ⟨stack, .text (.key members) []⟩ := rfl
      have hcolon : step ⟨stack, .colon members (some text)⟩ ':' =
          ⟨.obj members (some text) :: stack, .value⟩ := rfl
      rw [renderMembers, run_append, run_append, hfirst, Option.getD_some,
        run_renderText text hopen, closeText, textOf_chars, run_cons, hcolon]
      exact run_render v hv (.obj members (some text) :: stack)

end

/-- **Round trip.** -/
theorem loads_render {v : JsonValue} (hv : Plain v) : loads (String.ofList (render v)) = some v := by
  rw [loads, String.toList_ofList, (run_render v hv []).finish]
  rfl

end SalesTrades.Library.JsonText
