import Mathlib.Data.List.Basic
import Mathlib.Data.List.Infix
import Mathlib.Tactic.Common

/-!
# Reading HTML source

`exec` reads HTML source character by character, as the tokenizer of the HTML standard does, and finds
its text and its tags, comments and declarations. What the elements of the document are is not decided
here: nesting, foreign content and the escapes inside scripts are left out.

A document is given in pieces, the author's `copy` and the `field`s that someone else fills in.
`intended` reads the copy and takes every field for the text that its characters are. The source of the
document is read that way exactly when the copy leaves every field in a place for text and every field
is `PlainText` (`readsAsIntended_iff`).
-/

set_option autoImplicit false

namespace SalesTrades.Library.Markup

/-! ## The reader -/

/-- What is found: a character of text, the source of a tag, a comment or a declaration, or the source
of what stands in an element that holds no markup. -/
inductive Token where
  | text (c : Char)
  | markup (source : List Char)
  | raw (content : List Char)
  deriving DecidableEq

def Token.isText : Token → Bool
  | .text _ => true
  | _ => false

/-- The character references, by what follows the ampersand. `opens` tells whether characters are the
beginning of a reference. -/
structure References where
  decode : List Char → Option (List Char)
  opens : List Char → Bool
  decode_nil : decode [] = none
  decode_short : ∀ name chars, decode name = some chars → chars.length ≤ name.length
  opens_of_decode : ∀ name chars, decode name = some chars → opens name = true
  opens_append : ∀ name more, opens (name ++ more) = true → opens name = true
  opens_chars : ∀ name, opens name = true → ∀ c ∈ name, c.isAlphanum ∨ c = '#' ∨ c = ';'

/-- Where the reader is in a tag, a comment or a declaration. -/
inductive Phase where
  | tagName | beforeAttribute | attributeName | afterAttributeName | beforeValue
  | doubleQuoted | singleQuoted | unquoted | afterQuoted | selfClosing
  | declaration | declarationDash
  | commentStart | commentStartDash | comment | commentEndDash | commentEnd | commentEndBang
  | bogusComment
  deriving DecidableEq

def isSpace (c : Char) : Bool := c = ' ' || c = '\t' || c = '\n' || c = '\x0c' || c = '\r'

/-- The phase after a character, or none when it is the last one of the markup. -/
def Phase.next : Phase → Char → Option Phase
  | .tagName, c =>
      if isSpace c then some .beforeAttribute else if c = '/' then some .selfClosing
      else if c = '>' then none else some .tagName
  | .beforeAttribute, c =>
      if isSpace c then some .beforeAttribute else if c = '/' then some .selfClosing
      else if c = '>' then none else some .attributeName
  | .attributeName, c =>
      if isSpace c then some .afterAttributeName else if c = '/' then some .selfClosing
      else if c = '>' then none else if c = '=' then some .beforeValue else some .attributeName
  | .afterAttributeName, c =>
      if isSpace c then some .afterAttributeName else if c = '/' then some .selfClosing
      else if c = '>' then none else if c = '=' then some .beforeValue else some .attributeName
  | .beforeValue, c =>
      if isSpace c then some .beforeValue else if c = '"' then some .doubleQuoted
      else if c = '\'' then some .singleQuoted else if c = '>' then none else some .unquoted
  | .doubleQuoted, c => some (if c = '"' then .afterQuoted else .doubleQuoted)
  | .singleQuoted, c => some (if c = '\'' then .afterQuoted else .singleQuoted)
  | .unquoted, c =>
      if isSpace c then some .beforeAttribute else if c = '>' then none else some .unquoted
  | .afterQuoted, c =>
      if isSpace c then some .beforeAttribute else if c = '/' then some .selfClosing
      else if c = '>' then none else some .attributeName
  | .selfClosing, c =>
      if isSpace c then some .beforeAttribute else if c = '/' then some .selfClosing
      else if c = '>' then none else some .attributeName
  | .declaration, c =>
      if c = '-' then some .declarationDash else if c = '>' then none else some .bogusComment
  | .declarationDash, c =>
      if c = '-' then some .commentStart else if c = '>' then none else some .bogusComment
  | .commentStart, c =>
      if c = '-' then some .commentStartDash else if c = '>' then none else some .comment
  | .commentStartDash, c =>
      if c = '-' then some .commentEnd else if c = '>' then none else some .comment
  | .comment, c => some (if c = '-' then .commentEndDash else .comment)
  | .commentEndDash, c => some (if c = '-' then .commentEnd else .comment)
  | .commentEnd, c =>
      if c = '>' then none else if c = '!' then some .commentEndBang
      else if c = '-' then some .commentEnd else some .comment
  | .commentEndBang, c =>
      if c = '-' then some .commentEndDash else if c = '>' then none else some .comment
  | .bogusComment, c => if c = '>' then none else some .bogusComment

/-- A tag that the source breaks off is no token; a comment or a declaration is one. -/
def Phase.inTag : Phase → Bool
  | .tagName | .beforeAttribute | .attributeName | .afterAttributeName | .beforeValue
  | .doubleQuoted | .singleQuoted | .unquoted | .afterQuoted | .selfClosing => true
  | _ => false

/-- The reader between two characters. A `/` stands before the name of an end tag. -/
inductive State where
  | data
  | carriageReturn
  | tagOpen
  | endTagOpen
  | markup (phase : Phase) (name source : List Char)
  | reference (name : List Char)
  | rawText (name content : List Char)
  deriving DecidableEq

/-- The elements that hold no markup. -/
def rawElements : List (List Char) :=
  ["style", "script", "title", "textarea", "xmp", "iframe", "noembed", "noframes", "plaintext"].map
    String.toList

/-- The longest reference among the first `k` characters of the name, decoded. -/
def References.longest (refs : References) : ℕ → List Char → List Char
  | 0, name => '&' :: name
  | k + 1, name =>
      match refs.decode (name.take (k + 1)) with
      | some chars => chars ++ name.drop (k + 1)
      | none => refs.longest k name

/-- The text of an ampersand and the characters after it that may be a reference. -/
def References.flush (refs : References) (name : List Char) : List Char :=
  refs.longest name.length name

def dataStep (c : Char) : List Token × State :=
  if c = '<' then ([], .tagOpen)
  else if c = '&' then ([], .reference [])
  else if c = '\r' then ([.text '\n'], .carriageReturn)
  else if c = '\x00' then ([], .data)
  else ([.text c], .data)

def markupStep (phase : Phase) (name source : List Char) (c : Char) : List Token × State :=
  match phase.next c with
  | some .tagName => ([], .markup .tagName (name ++ [c.toLower]) (source ++ [c]))
  | some next => ([], .markup next name (source ++ [c]))
  | none =>
      ([.markup (source ++ [c])], if name ∈ rawElements then .rawText name [] else .data)

/-- What is not markup goes on until the element's own end tag. -/
def rawStep (name content : List Char) (c : Char) : List Token × State :=
  let start := content.length - (name.length + 2)
  if (isSpace c ∨ c = '/' ∨ c = '>') ∧ (content.drop start).map Char.toLower = '<' :: '/' :: name ∧
      name ≠ "plaintext".toList then
    let tag := markupStep .tagName ('/' :: name) (content.drop start) c
    (.raw (content.take start) :: tag.1, tag.2)
  else ([], .rawText name (content ++ [c]))

/-- What was found and what a character adds to it. -/
def andThen (found : List Token) (next : List Token × State) : List Token × State :=
  (found ++ next.1, next.2)

def step (refs : References) : State → Char → List Token × State
  | .data, c => dataStep c
  | .carriageReturn, c => if c = '\n' then ([], .data) else dataStep c
  | .tagOpen, c =>
      if c.isAlpha then ([], .markup .tagName [c.toLower] ['<', c])
      else if c = '/' then ([], .endTagOpen)
      else if c = '!' then ([], .markup .declaration [] ['<', c])
      else if c = '?' then ([], .markup .bogusComment [] ['<', c])
      else andThen [.text '<'] (dataStep c)
  | .endTagOpen, c =>
      if c.isAlpha then ([], .markup .tagName ['/', c.toLower] ['<', '/', c])
      else if c = '>' then ([], .data)
      else ([], .markup .bogusComment [] ['<', '/', c])
  | .markup phase name source, c => markupStep phase name source c
  | .reference name, c =>
      if refs.opens (name ++ [c]) then ([], .reference (name ++ [c]))
      else andThen ((refs.flush name).map .text) (dataStep c)
  | .rawText name content, c => rawStep name content c

/-- What is found at the end of the source. -/
def finish (refs : References) : State → List Token
  | .data | .carriageReturn => []
  | .tagOpen => [.text '<']
  | .endTagOpen => [.text '<', .text '/']
  | .markup phase _ source => if phase.inTag then [] else [.markup source]
  | .reference name => (refs.flush name).map .text
  | .rawText _ content => [.raw content]

def exec (refs : References) : State → List Char → List Token × State
  | s, [] => ([], s)
  | s, c :: cs => andThen (step refs s c).1 (exec refs (step refs s c).2 cs)

/-- Everything found in the rest of the source. -/
def run (refs : References) (s : State) (cs : List Char) : List Token :=
  (exec refs s cs).1 ++ finish refs (exec refs s cs).2

/-! ## Documents with fields -/

inductive Piece where
  | copy (text : String)
  | field (value : String)
  deriving DecidableEq

def Piece.chars : Piece → List Char
  | .copy text => text.toList
  | .field value => value.toList

/-- The source of a document. -/
def source (pieces : List Piece) : List Char := pieces.flatMap Piece.chars

def fields : List Piece → List String
  | [] => []
  | .copy _ :: rest => fields rest
  | .field value :: rest => value :: fields rest

/-- The copy is read as it stands and every field is text. There is no such reading when a field does
not stand in a place for text. -/
def intended (refs : References) : State → List Piece → Option (List Token)
  | s, [] => some (finish refs s)
  | s, .copy text :: rest =>
      let read := exec refs s text.toList
      (intended refs read.2 rest).map (read.1 ++ ·)
  | .data, .field value :: rest =>
      (intended refs .data rest).map (value.toList.map .text ++ ·)
  | _, .field _ :: _ => none

/-- The source reads as its author means it. -/
def ReadsAsIntended (refs : References) (pieces : List Piece) : Prop :=
  intended refs .data pieces = some (run refs .data (source pieces))

/-- The copy leaves every field in a place for text. -/
def reaches (refs : References) : State → List Piece → Bool
  | _, [] => true
  | s, .copy text :: rest => reaches refs (exec refs s text.toList).2 rest
  | s, .field _ :: rest => s = .data && reaches refs .data rest

/-- A `<` before this character opens markup. -/
def opensMarkup (c : Char) : Bool := c.isAlpha || c = '/' || c = '!' || c = '?'

/-- Every character stands for itself: there are no carriage returns and null characters, no `<` opens
markup and no `&` begins a character reference. -/
def PlainText (refs : References) : List Char → Prop
  | [] => True
  | c :: cs =>
      c ≠ '\r' ∧ c ≠ '\x00' ∧
      (c = '<' → ∀ d ∈ cs.head?, opensMarkup d = false) ∧
      (c = '&' → ∀ name ∈ cs.inits, refs.decode name = none) ∧
      PlainText refs cs

/-- Nothing in the characters means anything to the reader. -/
def isOrdinary (c : Char) : Bool := c ≠ '<' && c ≠ '&' && c ≠ '\r' && c ≠ '\x00'

/-- A character that ends what stands before it. -/
def separates (c : Char) : Bool :=
  isOrdinary c && !c.isAlphanum && c ≠ '#' && c ≠ ';' && c ≠ '/' && c ≠ '!' && c ≠ '?'

/-- Copy that ends the field before it: at most some ordinary text, then an end tag. -/
def Closing (copy : List Char) : Prop :=
  ∃ sep n rest, copy = sep ++ '<' :: '/' :: n :: rest ∧ n.isAlpha = true ∧
    sep.all isOrdinary = true ∧ sep.head?.all separates = true

/-- The copy before the next field. -/
def leadingCopy : List Piece → List Char
  | .copy text :: rest => text.toList ++ leadingCopy rest
  | _ => []

/-- What follows from the next field on. -/
def afterCopy : List Piece → List Piece
  | .copy _ :: rest => afterCopy rest
  | pieces => pieces

/-- Every field is followed by copy that ends it. -/
def Closed : List Piece → Prop
  | [] => True
  | .copy _ :: rest => Closed rest
  | .field _ :: rest => Closing (leadingCopy rest) ∧ Closed rest

/-- The document with its fields left empty. -/
def blanks (pieces : List Piece) : List Piece :=
  pieces.map fun
    | .copy text => .copy text
    | .field _ => .field ""

section

variable {refs : References} {s : State} {c : Char} {cs xs ys : List Char}

/-! ## The run -/

@[simp] theorem andThen_fst (found : List Token) (next : List Token × State) :
    (andThen found next).1 = found ++ next.1 := rfl

@[simp] theorem andThen_snd (found : List Token) (next : List Token × State) :
    (andThen found next).2 = next.2 := rfl

@[simp] theorem exec_nil : exec refs s [] = ([], s) := rfl

theorem exec_cons :
    exec refs s (c :: cs) = andThen (step refs s c).1 (exec refs (step refs s c).2 cs) := rfl

theorem exec_append : ∀ (s : State) (xs : List Char), exec refs s (xs ++ ys) =
    andThen (exec refs s xs).1 (exec refs (exec refs s xs).2 ys) := by
  intro s xs
  induction xs generalizing s with
  | nil => rfl
  | cons x xs ih => simp [exec_cons, ih, andThen]

theorem run_nil : run refs s [] = finish refs s := rfl

theorem run_cons : run refs s (c :: cs) = (step refs s c).1 ++ run refs (step refs s c).2 cs := by
  rw [run, run, exec_cons, andThen_fst, andThen_snd, List.append_assoc]

theorem run_append :
    run refs s (xs ++ ys) = (exec refs s xs).1 ++ run refs (exec refs s xs).2 ys := by
  rw [run, run, exec_append, andThen_fst, andThen_snd, List.append_assoc]

/-- The reader goes on from text already found. -/
theorem run_of_step_eq {found : List Token} {s' : State}
    (h : step refs s c = andThen found (dataStep c)) (hs' : step refs s' c = dataStep c) :
    run refs s (c :: cs) = found ++ run refs s' (c :: cs) := by
  rw [run_cons, run_cons, h, hs', andThen_fst, andThen_snd, List.append_assoc]

theorem dataStep_ordinary (h : isOrdinary c = true) : dataStep c = ([.text c], .data) := by
  simp only [isOrdinary, ne_eq, decide_not, Bool.and_eq_true, Bool.not_eq_eq_eq_not, Bool.not_true,
    decide_eq_false_iff_not] at h
  obtain ⟨⟨⟨hlt, hamp⟩, hcr⟩, hnull⟩ := h
  rw [dataStep, if_neg hlt, if_neg hamp, if_neg hcr, if_neg hnull]

theorem exec_ordinary (h : xs.all isOrdinary = true) :
    exec refs .data xs = (xs.map .text, .data) := by
  induction xs with
  | nil => rfl
  | cons x xs ih =>
      rw [List.all_cons, Bool.and_eq_true] at h
      rw [exec_cons, step, dataStep_ordinary h.1, ih h.2]
      rfl

/-- Markup is found before any text. -/
def NoTextFirst (tokens : List Token) : Prop := ∀ c rest, tokens ≠ .text c :: rest

theorem noTextFirst_nil : NoTextFirst [] := fun _ _ h => List.cons_ne_nil _ _ h.symm

theorem noTextFirst_markup (source : List Char) (rest : List Token) :
    NoTextFirst (.markup source :: rest) := fun _ _ h => Token.noConfusion (List.cons.inj h).1

/-- From within markup the first thing that is found is markup. -/
theorem noTextFirst_run_markup (phase : Phase) (name source : List Char) :
    NoTextFirst (run refs (.markup phase name source) cs) := by
  induction cs generalizing phase name source with
  | nil =>
      rw [run_nil, finish]
      split
      · exact noTextFirst_nil
      · exact noTextFirst_markup _ _
  | cons c cs ih =>
      rw [run_cons, step, markupStep]
      split
      · exact ih _ _ _
      · exact ih _ _ _
      · exact noTextFirst_markup _ _

/-! ## Character references -/

/-- The characters that go on with the reference, and the others. -/
def References.split (refs : References) : List Char → List Char → List Char × List Char
  | _, [] => ([], [])
  | name, c :: cs =>
      if refs.opens (name ++ [c]) then
        (c :: (refs.split (name ++ [c]) cs).1, (refs.split (name ++ [c]) cs).2)
      else ([], c :: cs)

theorem split_append (name cs : List Char) :
    (refs.split name cs).1 ++ (refs.split name cs).2 = cs := by
  induction cs generalizing name with
  | nil => rfl
  | cons c cs ih =>
      rw [References.split]
      split
      · rw [List.cons_append, ih]
      · rfl

theorem run_reference (name cs : List Char) : run refs (.reference name) cs =
    (refs.flush (name ++ (refs.split name cs).1)).map .text ++
      run refs .data (refs.split name cs).2 := by
  induction cs generalizing name with
  | nil => simp [References.split, run_nil, finish]
  | cons c cs ih =>
      rw [References.split]
      by_cases hopens : refs.opens (name ++ [c]) = true
      · rw [if_pos hopens, run_cons, step, if_pos hopens, List.nil_append, ih, List.append_assoc]
        rfl
      · rw [if_neg hopens, List.append_nil]
        exact run_of_step_eq (by rw [step, if_neg hopens]) rfl

/-- A character that goes on with no reference ends the one before it. -/
theorem split_before (hc : ∀ name, refs.opens (name ++ [c]) = false) (name h : List Char) :
    refs.split name (h ++ c :: cs) = ((refs.split name h).1, (refs.split name h).2 ++ c :: cs) := by
  induction h generalizing name with
  | nil => simp [References.split, hc]
  | cons x h ih =>
      rw [List.cons_append, References.split, References.split]
      split
      · rw [ih]
      · rfl

theorem ordinary_of_opens {name : List Char} (h : refs.opens name = true) (hc : c ∈ name) :
    isOrdinary c = true := by
  have hall := refs.opens_chars name h c hc
  simp only [isOrdinary, ne_eq, decide_not, Bool.and_eq_true, Bool.not_eq_eq_eq_not, Bool.not_true,
    decide_eq_false_iff_not]
  refine ⟨⟨⟨?_, ?_⟩, ?_⟩, ?_⟩ <;> rintro rfl <;> revert hall <;> decide

theorem ordinary_of_mem_split (name cs : List Char) (hc : c ∈ (refs.split name cs).1) :
    isOrdinary c = true := by
  induction cs generalizing name with
  | nil => exact absurd hc List.not_mem_nil
  | cons d cs ih =>
      rw [References.split] at hc
      by_cases hopens : refs.opens (name ++ [d]) = true
      · rw [if_pos hopens] at hc
        rcases List.mem_cons.1 hc with rfl | hrest
        · exact ordinary_of_opens hopens (List.mem_append_right _ (List.mem_singleton_self _))
        · exact ih _ hrest
      · rw [if_neg hopens] at hc
        exact absurd hc List.not_mem_nil

/-- What begins a reference is not left behind. -/
theorem opening_split {more : List Char} (name : List Char) (hopens : refs.opens (name ++ more) = true) :
    more <+: (refs.split name (more ++ cs)).1 := by
  induction more generalizing name with
  | nil => exact List.nil_prefix
  | cons c more ih =>
      rw [List.append_cons] at hopens
      rw [List.cons_append, References.split, if_pos (refs.opens_append _ _ hopens)]
      exact List.cons_prefix_cons.2 ⟨rfl, ih _ hopens⟩

/-- An ampersand and its characters stand for themselves unless some of them are a reference; then
there are fewer characters of text. -/
theorem References.longest_cases (refs : References) (k : ℕ) (name : List Char) :
    (∀ j ≤ k, refs.decode (name.take j) = none) ∧ refs.longest k name = '&' :: name ∨
    (∃ j ≤ k, refs.decode (name.take j) ≠ none) ∧ (refs.longest k name).length ≤ name.length := by
  induction k with
  | zero =>
      refine Or.inl ⟨fun j hj => ?_, rfl⟩
      rw [Nat.le_zero.1 hj, List.take_zero, refs.decode_nil]
  | succ k ih =>
      rw [References.longest]
      cases hdecode : refs.decode (name.take (k + 1)) with
      | some chars =>
          refine Or.inr ⟨⟨k + 1, le_refl _, by rw [hdecode]; exact Option.some_ne_none _⟩, ?_⟩
          have hshort := refs.decode_short _ _ hdecode
          rw [List.length_take] at hshort
          simp only [List.length_append, List.length_drop]
          omega
      | none =>
          rcases ih with ⟨hnone, heq⟩ | ⟨⟨j, hj, hsome⟩, hlen⟩
          · refine Or.inl ⟨fun j hj => ?_, heq⟩
            rcases Nat.le_succ_iff.1 hj with hle | rfl
            · exact hnone j hle
            · exact hdecode
          · exact Or.inr ⟨⟨j, Nat.le_succ_of_le hj, hsome⟩, hlen⟩

/-! ## Plain text -/

theorem plainText_ordinary (hc : isOrdinary c = true) :
    PlainText refs (c :: cs) ↔ PlainText refs cs := by
  simp only [isOrdinary, ne_eq, decide_not, Bool.and_eq_true, Bool.not_eq_eq_eq_not, Bool.not_true,
    decide_eq_false_iff_not] at hc
  obtain ⟨⟨⟨hlt, hamp⟩, hcr⟩, hnull⟩ := hc
  simp [PlainText, hlt, hamp, hcr, hnull]

theorem plainText_ordinary_append (hxs : ∀ c ∈ xs, isOrdinary c = true) :
    PlainText refs (xs ++ ys) ↔ PlainText refs ys := by
  induction xs with
  | nil => exact Iff.rfl
  | cons x xs ih =>
      rw [List.cons_append, plainText_ordinary (hxs x List.mem_cons_self),
        ih fun c hc => hxs c (List.mem_cons_of_mem _ hc)]

/-- What comes next is an end tag. -/
def BeforeEndTag (cs : List Char) : Prop :=
  ∃ n rest, cs = '<' :: '/' :: n :: rest ∧ n.isAlpha = true

theorem noTextFirst_beforeEndTag (h : BeforeEndTag cs) : NoTextFirst (run refs .data cs) := by
  obtain ⟨n, rest, rfl, hn⟩ := h
  have htag : run refs .data ('<' :: '/' :: n :: rest) =
      run refs (.markup .tagName ['/', n.toLower] ['<', '/', n]) rest := by
    simp [run_cons, step, dataStep, hn]
  rw [htag]
  exact noTextFirst_run_markup _ _ _

/-- What the reader does with the beginning of text: it finds some characters for some, at most one
for each, and goes on, or it finds no text. -/
def Advances (refs : References) (after h : List Char) : Prop :=
  (∃ a b rest, h = b ++ rest ∧ b ≠ [] ∧ a.length ≤ b.length ∧
    run refs .data (h ++ after) = a.map .text ++ run refs .data (rest ++ after) ∧
    (PlainText refs h ↔ a = b ∧ PlainText refs rest)) ∨
  NoTextFirst (run refs .data (h ++ after)) ∧ ¬ PlainText refs h

variable {after h : List Char}

theorem advances_ordinary (hc : isOrdinary c = true) : Advances refs after (c :: h) := by
  refine Or.inl ⟨[c], [c], h, rfl, List.cons_ne_nil _ _, le_refl _, ?_, ?_⟩
  · rw [List.cons_append, run_cons, step, dataStep_ordinary hc]
    rfl
  · rw [plainText_ordinary hc]
    exact (and_iff_right rfl).symm

theorem advances_null : Advances refs after ('\x00' :: h) := by
  refine Or.inl ⟨[], ['\x00'], h, rfl, List.cons_ne_nil _ _, Nat.zero_le _, rfl, ?_⟩
  exact iff_of_false (fun hplain => hplain.2.1 rfl) fun hplain => List.cons_ne_nil _ _ hplain.1.symm

theorem advances_return (hafter : BeforeEndTag after) : Advances refs after ('\r' :: h) := by
  have hnot : ¬ PlainText refs ('\r' :: h) := fun hplain => hplain.1 rfl
  have hrun : run refs .data ('\r' :: h ++ after) =
      .text '\n' :: run refs .carriageReturn (h ++ after) := rfl
  by_cases hline : h.head? = some '\n'
  · obtain ⟨rest, rfl⟩ : ∃ rest, h = '\n' :: rest := List.head?_eq_some_iff.1 hline
    refine Or.inl ⟨['\n'], ['\r', '\n'], rest, rfl, List.cons_ne_nil _ _, by decide, ?_, ?_⟩
    · rw [hrun]
      rfl
    · exact iff_of_false hnot fun hplain => by simp at hplain
  · refine Or.inl ⟨['\n'], ['\r'], h, rfl, List.cons_ne_nil _ _, le_refl _, ?_, ?_⟩
    · obtain ⟨d, rest, hcons, hd⟩ : ∃ d rest, h ++ after = d :: rest ∧ d ≠ '\n' := by
        obtain ⟨n, more, rfl, -⟩ := hafter
        cases h with
        | nil => exact ⟨'<', _, rfl, by decide⟩
        | cons d t => exact ⟨d, _, rfl, fun heq => hline (by rw [heq]; rfl)⟩
      have hstep : step refs .carriageReturn d = dataStep d := if_neg hd
      rw [hrun, hcons, run_cons, run_cons, hstep]
      rfl
    · exact iff_of_false hnot fun hplain => by simp at hplain

/-- After `<` and a character that opens markup the reader finds no text, if it is not `</>`. -/
theorem noTextFirst_opensMarkup {d : Char} {rest : List Char} (hd : opensMarkup d = true)
    (htag : d = '/' → ∃ e more, rest = e :: more ∧ e ≠ '>') :
    NoTextFirst (run refs .data ('<' :: d :: rest)) := by
  have hopen : run refs .data ('<' :: d :: rest) = run refs .tagOpen (d :: rest) := rfl
  rw [hopen, run_cons, step]
  by_cases halpha : d.isAlpha = true
  · rw [if_pos halpha]
    exact noTextFirst_run_markup _ _ _
  rw [if_neg halpha]
  by_cases hslash : d = '/'
  · rw [if_pos hslash, List.nil_append]
    obtain ⟨e, more, rfl, he⟩ := htag hslash
    rw [run_cons, step, if_neg he]
    split <;> exact noTextFirst_run_markup _ _ _
  rw [if_neg hslash]
  by_cases hbang : d = '!'
  · rw [if_pos hbang]
    exact noTextFirst_run_markup _ _ _
  have hquery : d = '?' := by
    simpa [opensMarkup, halpha, hslash, hbang] using hd
  rw [if_neg hbang, if_pos hquery]
  exact noTextFirst_run_markup _ _ _

theorem advances_lt (hafter : BeforeEndTag after) : Advances refs after ('<' :: h) := by
  obtain ⟨n, more, rfl, hn⟩ := hafter
  cases h with
  | nil =>
      -- the `<` of the end tag shows that this one opens nothing
      refine Or.inl ⟨['<'], ['<'], [], rfl, List.cons_ne_nil _ _, le_refl _, rfl, ?_⟩
      simp [PlainText]
  | cons d t =>
      by_cases hd : opensMarkup d = true
      · have hnot : ¬ PlainText refs ('<' :: d :: t) := fun hplain => by
          have hfalse := hplain.2.2.1 rfl d rfl
          rw [hd] at hfalse
          exact Bool.noConfusion hfalse
        by_cases hempty : d = '/' ∧ ∃ rest, t = '>' :: rest
        · obtain ⟨rfl, rest, rfl⟩ := hempty
          refine Or.inl ⟨[], ['<', '/', '>'], rest, rfl, List.cons_ne_nil _ _, Nat.zero_le _, rfl, ?_⟩
          exact iff_of_false hnot fun hplain => List.cons_ne_nil _ _ hplain.1.symm
        · refine Or.inr ⟨noTextFirst_opensMarkup hd fun hslash => ?_, hnot⟩
          cases t with
          | nil => exact ⟨'<', _, rfl, by decide⟩
          | cons e rest => exact ⟨e, _, rfl, fun he => hempty ⟨hslash, rest, by rw [he]⟩⟩
      · rw [Bool.not_eq_true] at hd
        refine Or.inl ⟨['<'], ['<'], d :: t, rfl, List.cons_ne_nil _ _, le_refl _, ?_, ?_⟩
        · have hstep : step refs .tagOpen d = andThen [.text '<'] (dataStep d) := by
            simp only [opensMarkup, Bool.or_eq_false_iff, decide_eq_false_iff_not] at hd
            obtain ⟨⟨⟨halpha, hslash⟩, hbang⟩, hquery⟩ := hd
            simp [step, halpha, hslash, hbang, hquery]
          exact run_of_step_eq hstep rfl
        · simp [PlainText, hd]

theorem advances_amp (hafter : BeforeEndTag after) : Advances refs after ('&' :: h) := by
  obtain ⟨n, more, rfl, hn⟩ := hafter
  have hlt : ∀ name, refs.opens (name ++ ['<']) = false := fun name => by
    rw [← Bool.not_eq_true]
    intro hopens
    have hord := ordinary_of_opens hopens (List.mem_append_right _ (List.mem_singleton_self _))
    exact absurd hord (by decide)
  have hsplit : (refs.split [] h).1 ++ (refs.split [] h).2 = h := split_append [] h
  have hrun : run refs .data ('&' :: h ++ '<' :: '/' :: n :: more) =
      (refs.flush (refs.split [] h).1).map .text ++
        run refs .data ((refs.split [] h).2 ++ '<' :: '/' :: n :: more) := by
    have hstart : run refs .data ('&' :: h ++ '<' :: '/' :: n :: more) =
        run refs (.reference []) (h ++ '<' :: '/' :: n :: more) := rfl
    rw [hstart, run_reference, split_before hlt, List.nil_append]
  -- the reference ends within `h`, so what can be decoded of `h` is decoded
  have hplain : PlainText refs ('&' :: h) ↔
      (∀ name ∈ h.inits, refs.decode name = none) ∧ PlainText refs (refs.split [] h).2 := by
    have hrest : PlainText refs h ↔ PlainText refs (refs.split [] h).2 := by
      conv_lhs => rw [← hsplit]
      exact plainText_ordinary_append fun c hc => ordinary_of_mem_split [] h hc
    simp [PlainText, hrest]
  refine Or.inl ⟨refs.flush (refs.split [] h).1, '&' :: (refs.split [] h).1, (refs.split [] h).2,
    by rw [List.cons_append, hsplit], List.cons_ne_nil _ _, ?_, hrun, ?_⟩
  · rcases refs.longest_cases (refs.split [] h).1.length (refs.split [] h).1 with
      ⟨-, heq⟩ | ⟨-, hlen⟩
    · exact (congrArg List.length heq).le
    · exact Nat.le_succ_of_le hlen
  · rw [hplain]
    refine and_congr_left fun _ => ?_
    rcases refs.longest_cases (refs.split [] h).1.length (refs.split [] h).1 with
      ⟨hnone, heq⟩ | ⟨⟨j, -, hsome⟩, hlen⟩
    · refine iff_of_true (fun name hname => ?_) heq
      by_contra hdecode
      obtain ⟨chars, hchars⟩ := Option.ne_none_iff_exists'.1 hdecode
      obtain ⟨tail, htail⟩ := (List.mem_inits _ _).1 hname
      have hopening : name <+: (refs.split [] (name ++ tail)).1 :=
        opening_split [] (refs.opens_of_decode name chars hchars)
      rw [htail] at hopening
      have htake := List.prefix_iff_eq_take.1 hopening
      exact hdecode (htake ▸ hnone name.length hopening.length_le)
    · refine iff_of_false (fun hall => hsome (hall _ ?_)) fun heq => ?_
      · have htake := List.take_prefix j (refs.split [] h).1
        exact (List.mem_inits _ _).2 (htake.trans ⟨_, hsplit⟩)
      · have hlength := congrArg List.length heq
        rw [References.flush, List.length_cons] at hlength
        omega

theorem advances (hafter : BeforeEndTag after) (hne : h ≠ []) : Advances refs after h := by
  obtain ⟨c, h, rfl⟩ := List.exists_cons_of_ne_nil hne
  by_cases hc : isOrdinary c = true
  · exact advances_ordinary hc
  · have hspecial : c = '<' ∨ c = '&' ∨ c = '\r' ∨ c = '\x00' := by
      simp only [isOrdinary, ne_eq, decide_not, Bool.and_eq_true, Bool.not_eq_eq_eq_not, Bool.not_true,
        decide_eq_false_iff_not] at hc
      tauto
    rcases hspecial with rfl | rfl | rfl | rfl
    · exact advances_lt hafter
    · exact advances_amp hafter
    · exact advances_return hafter
    · exact advances_null

/-! ## Reading the fields -/

theorem text_append_eq_iff {a z : List Char} {found found' : List Token} (hle : a.length ≤ z.length) :
    a.map Token.text ++ found = z.map .text ++ found' ↔
      ∃ x, z = a ++ x ∧ found = x.map .text ++ found' := by
  induction a generalizing z with
  | nil => simp
  | cons c a ih =>
      cases z with
      | nil => exact absurd hle (Nat.not_succ_le_zero _)
      | cons d z =>
          have htail := ih (Nat.le_of_succ_le_succ hle)
          simp only [List.map_cons, List.cons_append, List.cons.injEq, Token.text.injEq, htail]
          constructor
          · rintro ⟨rfl, x, rfl, hfound⟩
            exact ⟨x, ⟨rfl, rfl⟩, hfound⟩
          · rintro ⟨x, ⟨rfl, rfl⟩, hfound⟩
            exact ⟨rfl, x, rfl, hfound⟩

/-- Before an end tag, text is read as `more` characters and then itself exactly when there are none
more and the text is plain. The induction is on the length of the text that is left. -/
theorem run_more_text_iff (hafter : BeforeEndTag after) {found : List Token} (more h : List Char) :
    run refs .data (h ++ after) = (more ++ h).map .text ++ found ↔
      more = [] ∧ PlainText refs h ∧ run refs .data after = found := by
  induction hk : h.length using Nat.strong_induction_on generalizing more h with
  | _ k ih =>
  by_cases hnil : h = []
  · subst hnil
    rw [List.nil_append, List.append_nil]
    cases more with
    | nil => simp [PlainText]
    | cons c more =>
        refine iff_of_false (fun heq => ?_) fun hall => List.cons_ne_nil _ _ hall.1
        exact noTextFirst_beforeEndTag hafter c _ heq
  have hadvances : Advances refs after h := advances hafter hnil
  rcases hadvances with
    ⟨a, b, rest, rfl, hb, hle, hrun, hplain⟩ | ⟨hfirst, hnot⟩
  · have hshorter : rest.length < k := by
      have hpos := List.length_pos_of_ne_nil hb
      rw [← hk, List.length_append]
      omega
    have hle' : a.length ≤ (more ++ b).length := by
      rw [List.length_append]
      omega
    rw [hplain, hrun, ← List.append_assoc, List.map_append, List.append_assoc,
      text_append_eq_iff hle']
    constructor
    · rintro ⟨x, hx, hfound⟩
      rw [← List.append_assoc, ← List.map_append] at hfound
      obtain ⟨rfl, hrest, hafterwards⟩ := (ih _ hshorter x rest rfl).1 hfound
      rw [List.append_nil] at hx
      have hmore : more = [] := by
        have hlength := congrArg List.length hx
        rw [List.length_append] at hlength
        exact List.length_eq_zero_iff.1 (by omega)
      subst hmore
      exact ⟨rfl, ⟨hx.symm, hrest⟩, hafterwards⟩
    · rintro ⟨rfl, ⟨rfl, hrest⟩, hfound⟩
      exact ⟨[], (List.append_nil _).symm,
        (ih _ hshorter [] rest rfl).2 ⟨rfl, hrest, hfound⟩⟩
  · refine iff_of_false (fun heq => ?_) fun hall => hnot hall.2.1
    obtain ⟨c, z, hz⟩ := List.exists_cons_of_ne_nil (List.append_ne_nil_of_right_ne_nil more hnil)
    rw [hz] at heq
    exact hfirst c _ heq

theorem separates_spec (h : separates c = true) :
    isOrdinary c = true ∧ opensMarkup c = false ∧ ¬ (c.isAlphanum ∨ c = '#' ∨ c = ';') := by
  simp only [separates, Char.isAlphanum, ne_eq, decide_not, Bool.and_eq_true, Bool.not_eq_eq_eq_not,
    Bool.not_true, Bool.or_eq_false_iff, decide_eq_false_iff_not] at h
  obtain ⟨⟨⟨⟨⟨⟨hord, halpha, hdigit⟩, hhash⟩, hsemi⟩, hslash⟩, hbang⟩, hquery⟩ := h
  simp [hord, opensMarkup, Char.isAlphanum, halpha, hdigit, hhash, hsemi, hslash, hbang, hquery]

/-- No reference reaches over a separator. -/
theorem reference_before_separator {sep name : List Char} (hsep : sep.head?.all separates = true)
    (hdecode : refs.decode name ≠ none) (hname : name <+: xs ++ sep) : name <+: xs := by
  rcases List.prefix_or_prefix_of_prefix hname (List.prefix_append xs sep) with hle | ⟨more, rfl⟩
  · exact hle
  · obtain ⟨chars, hchars⟩ := Option.ne_none_iff_exists'.1 hdecode
    have hopens := refs.opens_of_decode _ _ hchars
    cases more with
    | nil => rw [List.append_nil]
    | cons d more =>
        obtain ⟨tail, htail⟩ := (List.prefix_append_right_inj xs).1 hname
        subst htail
        have hd := refs.opens_chars _ hopens d (List.mem_append_right _ List.mem_cons_self)
        exact absurd hd (separates_spec hsep).2.2

/-- What stands before a separator does not reach over it. -/
theorem plainText_append_separates {sep : List Char} (hord : sep.all isOrdinary = true)
    (hsep : sep.head?.all separates = true) : PlainText refs (xs ++ sep) ↔ PlainText refs xs := by
  induction xs with
  | nil =>
      have hplain : PlainText refs (sep ++ []) ↔ PlainText refs [] :=
        plainText_ordinary_append (List.all_eq_true.1 hord)
      rwa [List.append_nil] at hplain
  | cons c xs ih =>
      have hopens : (∀ d ∈ (xs ++ sep).head?, opensMarkup d = false) ↔
          ∀ d ∈ xs.head?, opensMarkup d = false := by
        cases xs with
        | cons d xs => rfl
        | nil =>
            refine iff_of_true (fun d hd => ?_) fun d hd => absurd hd (by simp)
            rw [List.nil_append, Option.mem_def] at hd
            rw [hd] at hsep
            exact (separates_spec hsep).2.1
      have hnames : (∀ name ∈ (xs ++ sep).inits, refs.decode name = none) ↔
          ∀ name ∈ xs.inits, refs.decode name = none := by
        simp only [List.mem_inits]
        refine ⟨fun hall name hname => hall name (hname.trans (List.prefix_append xs sep)),
          fun hall name hname => ?_⟩
        by_contra hdecode
        exact hdecode (hall name (reference_before_separator hsep hdecode hname))
      rw [List.cons_append, PlainText, PlainText, hopens, hnames, ih]

theorem run_field_iff {text : List Char} (h : Closing text) (value : List Char)
    {found : List Token} :
    run refs .data (value ++ (text ++ cs)) =
        value.map .text ++ ((exec refs .data text).1 ++ found) ↔
      PlainText refs value ∧ run refs .data (text ++ cs) = (exec refs .data text).1 ++ found := by
  obtain ⟨sep, n, rest, htext, hn, hord, hsep⟩ := h
  have hexec : exec refs .data text =
      andThen (sep.map .text) (exec refs .data ('<' :: '/' :: n :: rest)) := by
    rw [htext, exec_append, exec_ordinary hord]
  have hafter : BeforeEndTag ('<' :: '/' :: n :: rest ++ cs) := ⟨n, rest ++ cs, rfl, hn⟩
  have hsplit : run refs .data (text ++ cs) =
      sep.map .text ++ run refs .data ('<' :: '/' :: n :: rest ++ cs) := by
    rw [htext, List.append_assoc, run_append, exec_ordinary hord]
  have hmore : run refs .data (value ++ sep ++ ('<' :: '/' :: n :: rest ++ cs)) =
        ([] ++ (value ++ sep)).map .text ++ ((exec refs .data ('<' :: '/' :: n :: rest)).1 ++ found) ↔
      [] = [] ∧ PlainText refs (value ++ sep) ∧ run refs .data ('<' :: '/' :: n :: rest ++ cs) =
        (exec refs .data ('<' :: '/' :: n :: rest)).1 ++ found :=
    run_more_text_iff hafter [] (value ++ sep)
  rw [List.nil_append, List.map_append, List.append_assoc, and_iff_right rfl,
    plainText_append_separates hord hsep] at hmore
  rw [hsplit, hexec, andThen_fst, List.append_assoc, List.append_cancel_left_eq, ← hmore, htext]
  simp only [List.append_assoc]

theorem source_cons (p : Piece) (rest : List Piece) : source (p :: rest) = p.chars ++ source rest :=
  List.flatMap_cons

theorem source_eq_leadingCopy (pieces : List Piece) :
    source pieces = leadingCopy pieces ++ source (afterCopy pieces) := by
  induction pieces using leadingCopy.induct with
  | case1 text rest ih => rw [source_cons, ih, leadingCopy, afterCopy, List.append_assoc]; rfl
  | case2 pieces hpieces => rw [leadingCopy, afterCopy, List.nil_append] <;> exact hpieces

theorem intended_eq_leadingCopy (s : State) (pieces : List Piece) : intended refs s pieces =
    (intended refs (exec refs s (leadingCopy pieces)).2 (afterCopy pieces)).map
      ((exec refs s (leadingCopy pieces)).1 ++ ·) := by
  induction pieces using leadingCopy.induct generalizing s with
  | case1 text rest ih =>
      rw [intended, ih, leadingCopy, afterCopy, exec_append, andThen_fst, andThen_snd,
        Option.map_map]
      refine congrArg (Option.map · _) (funext fun found => ?_)
      exact (List.append_assoc _ _ _).symm
  | case2 pieces hpieces =>
      have hnil : leadingCopy pieces = [] := by
        rw [leadingCopy]
        exact hpieces
      have hafter : afterCopy pieces = pieces := by
        rw [afterCopy]
        exact hpieces
      rw [hnil, hafter, exec_nil]
      exact Option.map_id'.symm

theorem intended_isSome (s : State) (pieces : List Piece) :
    (intended refs s pieces).isSome = reaches refs s pieces := by
  induction pieces using fields.induct generalizing s with
  | case1 => rfl
  | case2 text rest ih => rw [intended, reaches, Option.isSome_map, ih]
  | case3 value rest ih =>
      rw [reaches]
      by_cases hs : s = .data
      · subst hs
        rw [intended, Option.isSome_map, ih]
        rfl
      · rw [decide_eq_false hs, Bool.false_and]
        cases s <;> first | rfl | exact absurd rfl hs

/-- **A document reads as intended exactly when its fields stand in places for text and are plain.** -/
theorem intended_eq_run_iff {pieces : List Piece} (hclosed : Closed pieces) (s : State) :
    intended refs s pieces = some (run refs s (source pieces)) ↔
      reaches refs s pieces = true ∧ ∀ value ∈ fields pieces, PlainText refs value.toList := by
  induction pieces using fields.induct generalizing s with
  | case1 => simp [intended, source, run_nil, reaches, fields]
  | case2 text rest ih =>
      rw [source_cons, Piece.chars, run_append, reaches, fields, intended]
      rw [← ih hclosed, Option.map_eq_some_iff]
      simp
  | case3 value rest ih =>
      by_cases hs : s = .data
      · subst hs
        have hrest := ih hclosed.2 .data
        have hfield : intended refs .data (.field value :: rest) =
            (intended refs .data rest).map (value.toList.map .text ++ ·) := rfl
        rw [source_cons, reaches, decide_eq_true rfl, Bool.true_and, fields, List.forall_mem_cons,
          and_left_comm, ← hrest, hfield, intended_eq_leadingCopy, source_eq_leadingCopy rest,
          Piece.chars]
        cases intended refs (exec refs .data (leadingCopy rest)).2 (afterCopy rest) with
        | none => simp
        | some found =>
            simp only [Option.map_some, Option.some.injEq]
            rw [eq_comm, run_field_iff hclosed.1]
            exact and_congr_right fun _ => eq_comm
      · rw [reaches, decide_eq_false hs, Bool.false_and]
        refine iff_of_false (fun heq => ?_) fun hall => Bool.noConfusion hall.1
        have hsome := congrArg Option.isSome heq
        rw [intended_isSome, reaches, decide_eq_false hs] at hsome
        exact Bool.noConfusion hsome

theorem readsAsIntended_iff {pieces : List Piece} (hclosed : Closed pieces) :
    ReadsAsIntended refs pieces ↔
      reaches refs .data pieces = true ∧ ∀ value ∈ fields pieces, PlainText refs value.toList :=
  intended_eq_run_iff hclosed .data

/-! ## Two documents with the same copy -/

/-- The tags, comments and declarations, without the text. -/
def markups (tokens : List Token) : List Token := tokens.filter fun t => !t.isText

/-- The same markup in the same order, and every field is read as its own characters. -/
def DiffersInTextOnly (refs : References) (pieces pieces' : List Piece) : Prop :=
  markups (run refs .data (source pieces)) = markups (run refs .data (source pieces')) ∧
    ReadsAsIntended refs pieces ∧ ReadsAsIntended refs pieces'

theorem markups_append (tokens tokens' : List Token) :
    markups (tokens ++ tokens') = markups tokens ++ markups tokens' := List.filter_append _ _

theorem markups_text (chars : List Char) : markups (chars.map .text) = [] := by
  rw [markups, List.filter_eq_nil_iff]
  rintro t ht
  obtain ⟨c, -, rfl⟩ := List.mem_map.1 ht
  exact fun h => Bool.noConfusion h

theorem reaches_blanks (s : State) (pieces : List Piece) :
    reaches refs s (blanks pieces) = reaches refs s pieces := by
  induction pieces using fields.induct generalizing s with
  | case1 => rfl
  | case2 text rest ih => exact ih _
  | case3 value rest ih => exact congrArg (s = .data && ·) (ih _)

theorem leadingCopy_blanks (pieces : List Piece) :
    leadingCopy (blanks pieces) = leadingCopy pieces := by
  induction pieces using fields.induct with
  | case1 => rfl
  | case2 text rest ih => exact congrArg (text.toList ++ ·) ih
  | case3 value rest ih => rfl

theorem closed_blanks (pieces : List Piece) : Closed (blanks pieces) ↔ Closed pieces := by
  induction pieces using fields.induct with
  | case1 => exact Iff.rfl
  | case2 text rest ih => exact ih
  | case3 value rest ih =>
      have hclosing : Closing (leadingCopy (blanks rest)) ↔ Closing (leadingCopy rest) := by
        rw [leadingCopy_blanks]
      exact and_congr hclosing ih

theorem markups_intended_field (s : State) (value : String) (rest : List Piece) :
    (intended refs s (.field value :: rest)).map markups =
      if s = .data then (intended refs .data rest).map markups else none := by
  by_cases hs : s = .data
  · subst hs
    have hmarkups : ∀ found, markups (value.toList.map .text ++ found) = markups found :=
      fun found => by rw [markups_append, markups_text, List.nil_append]
    rw [if_pos rfl, intended, Option.map_map]
    exact congrArg (Option.map · _) (funext hmarkups)
  · rw [if_neg hs]
    cases s <;> first | rfl | exact absurd rfl hs

/-- The markup of the intended reading is that of the copy. -/
theorem markups_intended (s : State) (pieces : List Piece) :
    (intended refs s pieces).map markups = (intended refs s (blanks pieces)).map markups := by
  induction pieces using fields.induct generalizing s with
  | case1 => rfl
  | case2 text rest ih =>
      have hmarkups : ∀ found, markups ((exec refs s text.toList).1 ++ found) =
          markups (exec refs s text.toList).1 ++ markups found := fun found => markups_append _ _
      have hcopy : ∀ more, (intended refs s (.copy text :: more)).map markups =
          ((intended refs (exec refs s text.toList).2 more).map markups).map
            (markups (exec refs s text.toList).1 ++ ·) := fun more => by
        rw [intended, Option.map_map, Option.map_map]
        exact congrArg (Option.map · _) (funext hmarkups)
      exact (hcopy rest).trans ((congrArg _ (ih _)).trans (hcopy (blanks rest)).symm)
  | case3 value rest ih =>
      have hblanks : blanks (.field value :: rest) = .field "" :: blanks rest := rfl
      rw [hblanks, markups_intended_field, markups_intended_field, ih]

/-- **Two documents with the same copy differ in text only exactly when the copy leaves the fields in
places for text and the fields of both are plain.** -/
theorem differsInTextOnly_iff {pieces pieces' : List Piece} (hclosed : Closed pieces)
    (hsame : blanks pieces = blanks pieces') :
    DiffersInTextOnly refs pieces pieces' ↔ reaches refs .data (blanks pieces) = true ∧
      (∀ value ∈ fields pieces, PlainText refs value.toList) ∧
      ∀ value ∈ fields pieces', PlainText refs value.toList := by
  have hclosed' : Closed pieces' := by rwa [← closed_blanks, ← hsame, closed_blanks]
  rw [DiffersInTextOnly, readsAsIntended_iff hclosed, readsAsIntended_iff hclosed',
    ← reaches_blanks _ pieces, ← reaches_blanks _ pieces', ← hsame]
  constructor
  · rintro ⟨-, ⟨hreaches, hplain⟩, -, hplain'⟩
    exact ⟨hreaches, hplain, hplain'⟩
  · rintro ⟨hreaches, hplain, hplain'⟩
    refine ⟨?_, ⟨hreaches, hplain⟩, hreaches, hplain'⟩
    have hread := (readsAsIntended_iff hclosed).2 ⟨by rwa [← reaches_blanks], hplain⟩
    have hread' := (readsAsIntended_iff hclosed').2 ⟨by rwa [← reaches_blanks, ← hsame], hplain'⟩
    have hmarkups : (intended refs .data pieces).map markups = _ := markups_intended .data pieces
    have hmarkups' : (intended refs .data pieces').map markups = _ := markups_intended .data pieces'
    rw [hread] at hmarkups
    rw [hread', ← hsame, ← hmarkups] at hmarkups'
    exact (Option.some.inj hmarkups').symm

end

/-! ## Where copy leads -/

/-- What is known of the reader after copy, whatever the character references are. -/
inductive Place where
  | known (s : State)
  | markup (phase : Phase) (name : List Char)
  | inText
  | inComment
  deriving DecidableEq

/-- The phases of a comment that has begun. -/
def commentPhases : List Phase := [.comment, .commentEndDash, .commentEnd, .commentEndBang]

def Place.Describes : Place → State → Prop
  | .known s, s' => s' = s
  | .markup phase name, s' => ∃ source, s' = .markup phase name source
  | .inText, s' => s' = .data ∨ ∃ name, s' = .reference name
  | .inComment, s' => ∃ phase ∈ commentPhases, ∃ source, s' = .markup phase [] source

def noReferences : References where
  decode _ := none
  opens _ := false
  decode_nil := rfl
  decode_short _ _ h := absurd h.symm (Option.some_ne_none _)
  opens_of_decode _ _ h := absurd h.symm (Option.some_ne_none _)
  opens_append _ _ h := h
  opens_chars _ h := Bool.noConfusion h

def Place.ofState : State → Place
  | .markup phase name _ => .markup phase name
  | .reference _ => .inText
  | s => .known s

def Place.next : Place → Char → Option Place
  | .known (.reference _), _ => none
  | .known s, c => some (ofState (step noReferences s c).2)
  | .markup phase name, c => some (ofState (markupStep phase name [] c).2)
  | .inText, c =>
      if separates c then some (.known .data)
      else if c = '<' then some (.known .tagOpen)
      else if isOrdinary c ∨ c = '&' then some .inText
      else none
  | .inComment, c =>
      if c = '>' then none
      else if c = '-' ∨ c = '!' then some .inComment
      else some (.markup .comment [])

def Place.after (p : Place) (cs : List Char) : Option Place := cs.foldlM Place.next p

def Place.reaches : Place → List Piece → Bool
  | _, [] => true
  | p, .copy text :: rest =>
      (fields rest).isEmpty || (p.after text.toList).elim false fun p' => p'.reaches rest
  | p, .field _ :: rest => p = .known .data && Place.reaches (.known .data) rest

section

variable {refs : References} {s : State} {c : Char} {cs : List Char} {p p' : Place}

theorem describes_ofState (s : State) : (Place.ofState s).Describes s := by
  cases s with
  | markup phase name source => exact ⟨source, rfl⟩
  | reference name => exact Or.inr ⟨name, rfl⟩
  | _ => rfl

theorem step_inText (hs : Place.inText.Describes s) (hc : ∀ name, refs.opens (name ++ [c]) = false) :
    (step refs s c).2 = (dataStep c).2 := by
  rcases hs with rfl | ⟨name, rfl⟩
  · rfl
  · rw [step, if_neg (by rw [hc]; exact Bool.false_ne_true)]
    rfl

theorem not_opens_append (hc : ¬ (c.isAlphanum ∨ c = '#' ∨ c = ';')) (name : List Char) :
    refs.opens (name ++ [c]) = false := by
  rw [← Bool.not_eq_true]
  intro hopens
  exact hc (refs.opens_chars _ hopens c (List.mem_append_right _ (List.mem_singleton_self _)))

theorem describes_next_inText (hs : Place.inText.Describes s) (hp : Place.inText.next c = some p') :
    p'.Describes (step refs s c).2 := by
  rw [Place.next] at hp
  by_cases hsep : separates c = true
  · obtain ⟨hord, -, hnot⟩ := separates_spec hsep
    rw [if_pos hsep] at hp
    rw [← Option.some.inj hp, step_inText hs (not_opens_append hnot), dataStep_ordinary hord]
    rfl
  rw [if_neg hsep] at hp
  by_cases hlt : c = '<'
  · subst hlt
    rw [if_pos rfl] at hp
    rw [← Option.some.inj hp, step_inText hs (not_opens_append (by decide))]
    rfl
  rw [if_neg hlt] at hp
  by_cases hamp : c = '&'
  · subst hamp
    rw [if_pos (Or.inr rfl)] at hp
    rw [← Option.some.inj hp, step_inText hs (not_opens_append (by decide))]
    exact Or.inr ⟨[], rfl⟩
  by_cases hord : isOrdinary c = true
  · rw [if_pos (Or.inl hord)] at hp
    rw [← Option.some.inj hp]
    rcases hs with rfl | ⟨name, rfl⟩
    · rw [step, dataStep_ordinary hord]
      exact Or.inl rfl
    · rw [step]
      split
      · exact Or.inr ⟨_, rfl⟩
      · rw [dataStep_ordinary hord]
        exact Or.inl rfl
  · rw [if_neg fun h => h.elim hord hamp] at hp
    exact absurd hp.symm (Option.some_ne_none _)

theorem comment_next {phase : Phase} (hphase : phase ∈ commentPhases) (hc : c ≠ '>') :
    ∃ next, phase.next c = some next ∧ next ∈ commentPhases ∧
      (c ≠ '-' → c ≠ '!' → next = .comment) := by
  by_cases hdash : c = '-'
  · subst hdash
    revert phase
    decide
  by_cases hbang : c = '!'
  · subst hbang
    revert phase
    decide
  · refine ⟨.comment, ?_, List.mem_cons_self, fun _ _ => rfl⟩
    simp only [commentPhases, List.mem_cons, List.not_mem_nil, or_false] at hphase
    rcases hphase with rfl | rfl | rfl | rfl <;> simp [Phase.next, hc, hdash, hbang]

theorem describes_next (hs : p.Describes s) (hp : p.next c = some p') :
    p'.Describes (step refs s c).2 := by
  cases p with
  | known s₀ =>
      obtain rfl : s = s₀ := hs
      by_cases href : ∃ name, s = .reference name
      · obtain ⟨name, rfl⟩ := href
        exact absurd hp.symm (Option.some_ne_none _)
      · have hstep : step refs s c = step noReferences s c := by
          cases s <;> first | rfl | exact absurd ⟨_, rfl⟩ href
        have hnext : (Place.known s).next c = some (.ofState (step noReferences s c).2) := by
          cases s <;> first | rfl | exact absurd ⟨_, rfl⟩ href
        rw [hstep, ← Option.some.inj (hnext.symm.trans hp)]
        exact describes_ofState _
  | markup phase name =>
      obtain ⟨source, rfl⟩ := hs
      rw [← Option.some.inj hp, step, markupStep, markupStep]
      cases phase.next c with
      | none =>
          simp only
          split <;> rfl
      | some next =>
          cases next <;> exact ⟨_, rfl⟩
  | inText => exact describes_next_inText hs hp
  | inComment =>
      obtain ⟨phase, hphase, source, rfl⟩ := hs
      rw [Place.next] at hp
      by_cases hgt : c = '>'
      · rw [if_pos hgt] at hp
        exact absurd hp.symm (Option.some_ne_none _)
      rw [if_neg hgt] at hp
      obtain ⟨next, hnext, hmem, hcomment⟩ := comment_next hphase hgt
      have hstep : (step refs (.markup phase [] source) c).2 = .markup next [] (source ++ [c]) := by
        rw [step, markupStep, hnext]
        cases next <;> first | rfl | exact absurd hmem (by decide)
      rw [hstep]
      by_cases hdash : c = '-' ∨ c = '!'
      · rw [if_pos hdash] at hp
        rw [← Option.some.inj hp]
        exact ⟨next, hmem, _, rfl⟩
      · rw [if_neg hdash] at hp
        rw [not_or] at hdash
        rw [← Option.some.inj hp, hcomment hdash.1 hdash.2]
        exact ⟨_, rfl⟩

theorem describes_after (hs : p.Describes s) (hp : p.after cs = some p') :
    p'.Describes (exec refs s cs).2 := by
  induction cs generalizing p s with
  | nil =>
      rw [← Option.some.inj hp]
      exact hs
  | cons c cs ih =>
      obtain ⟨q, hq, hrest⟩ := Option.bind_eq_some_iff.1 hp
      exact ih (describes_next hs hq) hrest

theorem reaches_of_fields_eq_nil {pieces : List Piece} (h : fields pieces = []) (s : State) :
    reaches refs s pieces = true := by
  induction pieces using fields.induct generalizing s with
  | case1 => rfl
  | case2 text rest ih => exact ih h _
  | case3 value rest ih => exact absurd h (List.cons_ne_nil _ _)

/-- Every field stands in a place for text when the copy leads there. -/
theorem reaches_of_place {pieces : List Piece} (hs : p.Describes s)
    (hreaches : p.reaches pieces = true) : reaches refs s pieces = true := by
  induction pieces using fields.induct generalizing p s with
  | case1 => rfl
  | case2 text rest ih =>
      rw [Place.reaches, Bool.or_eq_true, List.isEmpty_iff] at hreaches
      rcases hreaches with hnone | hreaches
      · exact reaches_of_fields_eq_nil hnone _
      cases hafter : p.after text.toList with
      | none =>
          rw [hafter] at hreaches
          exact Bool.noConfusion hreaches
      | some p' =>
          rw [hafter] at hreaches
          exact ih (describes_after hs hafter) hreaches
  | case3 value rest ih =>
      rw [Place.reaches, Bool.and_eq_true, decide_eq_true_eq] at hreaches
      obtain ⟨rfl, hrest⟩ := hreaches
      obtain rfl : s = .data := hs
      have hdata : (Place.known .data).Describes .data := rfl
      rw [reaches, ih hdata hrest]
      rfl

/-! ### Copy of a template -/

/-- Copy that is given as a literal. -/
theorem closing_ofList (sep : List Char) (n : Char) (rest : List Char) (hn : n.isAlpha = true)
    (hord : sep.all isOrdinary = true) (hsep : sep.head?.all separates = true) :
    Closing (String.ofList (sep ++ '<' :: '/' :: n :: rest)).toList :=
  ⟨sep, n, rest, String.toList_ofList, hn, hord, hsep⟩

/-- Ordinary text before the copy that ends a field. -/
theorem closing_after_text {text copy : List Char} (hord : text.all isOrdinary = true)
    (hsep : text.head?.all separates = true) (h : Closing copy) : Closing (text ++ copy) := by
  obtain ⟨sep, n, rest, rfl, hn, hsepOrd, hsepHead⟩ := h
  refine ⟨text ++ sep, n, rest, by simp, hn, by simp [hord, hsepOrd], ?_⟩
  cases text with
  | nil => exact hsepHead
  | cons c text => exact hsep

theorem closing_append {copy : List Char} (h : Closing copy) (more : List Char) :
    Closing (copy ++ more) := by
  obtain ⟨sep, n, rest, rfl, hn, hord, hsep⟩ := h
  exact ⟨sep, n, rest ++ more, by simp, hn, hord, hsep⟩

/-- Ordinary text leads nowhere else. -/
theorem place_after_ordinary (h : cs.all isOrdinary = true) :
    (Place.known .data).after cs = some (.known .data) := by
  induction cs with
  | nil => rfl
  | cons c cs ih =>
      rw [List.all_cons, Bool.and_eq_true] at h
      have hnext : (Place.known .data).next c = some (.known .data) := by
        rw [Place.next]
        · rw [step, dataStep_ordinary h.1]
          rfl
        · exact fun name heq => State.noConfusion heq
      rw [Place.after, List.foldlM_cons, hnext]
      exact ih h.2

variable {text : String} {rest : List Piece}

theorem place_reaches_copy {q : Place} (h : p.after text.toList = some q)
    (hrest : q.reaches rest = true) : p.reaches (.copy text :: rest) = true := by
  rw [Place.reaches, h, Option.elim_some, hrest, Bool.or_true]

/-- A literal, by its characters. -/
theorem place_reaches_literal (q : Place) (h : p.after cs = some q) (hrest : q.reaches rest = true) :
    p.reaches (.copy (String.ofList cs) :: rest) = true := by
  apply place_reaches_copy _ hrest
  rwa [String.toList_ofList]

theorem place_reaches_ordinary (h : text.toList.all isOrdinary = true)
    (hrest : (Place.known .data).reaches rest = true) :
    (Place.known .data).reaches (.copy text :: rest) = true :=
  place_reaches_copy (place_after_ordinary h) hrest

theorem place_reaches_last (h : fields rest = []) : p.reaches (.copy text :: rest) = true := by
  rw [Place.reaches, h]
  rfl

theorem place_reaches_field {value : String} (hrest : (Place.known .data).reaches rest = true) :
    (Place.known .data).reaches (.field value :: rest) = true := hrest

/-! ### Templates put together -/

theorem fields_append (pieces more : List Piece) :
    fields (pieces ++ more) = fields pieces ++ fields more := by
  induction pieces using fields.induct with
  | case1 => rfl
  | case2 text rest ih => exact ih
  | case3 value rest ih => exact congrArg (value :: ·) ih

theorem blanks_append (pieces more : List Piece) :
    blanks (pieces ++ more) = blanks pieces ++ blanks more := List.map_append

theorem closed_copy_append {pieces more : List Piece} (h : fields pieces = []) :
    Closed (pieces ++ more) ↔ Closed more := by
  induction pieces using fields.induct with
  | case1 => exact Iff.rfl
  | case2 text rest ih => exact ih h
  | case3 value rest ih => exact absurd h (List.cons_ne_nil _ _)

theorem closed_copy {pieces : List Piece} (h : fields pieces = []) : Closed pieces := by
  rw [← List.append_nil pieces]
  exact (closed_copy_append h).2 trivial

/-- A field between literals that end it. -/
theorem closed_field (value : String) {text : String} {rest : List Piece}
    (htext : Closing text.toList) (hrest : Closed rest) : Closed (.field value :: .copy text :: rest) :=
  ⟨closing_append htext _, hrest⟩
end

end SalesTrades.Library.Markup
