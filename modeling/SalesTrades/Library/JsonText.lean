import Mathlib.Data.List.Basic
import Mathlib.Tactic.Common

/-!
# A machine that decodes JSON text

The machine reads a text one character per step and halts with the value or without one; it accepts
what the decoder of the Python standard library accepts. Numbers with a fraction or an exponent are
kept as they are spelled.
-/

set_option autoImplicit false

namespace SalesTrades.Library.JsonText

/-- A decoded value. A string is `none` when it holds a surrogate without its partner. The members of an
object stand with the last one first, so that the first one with a key is the one a `dict` keeps. -/
inductive JsonValue where
  | null
  | bool (b : Bool)
  | int (n : Int)
  /-- A number with a fraction or an exponent, or a word for a number that is not finite. -/
  | float (lexeme : String)
  | str (s : Option String)
  | arr (items : List JsonValue)
  | obj (members : List (Option String × JsonValue))

abbrev Members : Type := List (Option String × JsonValue)

/-- The member of a `dict`, if it has the key. -/
def lookup (members : Members) (key : String) : Option JsonValue :=
  (members.find? fun m => m.1 == some key).map Prod.snd

/-! ## Numbers -/

/-- The part of a number that the last character belongs to. -/
inductive NumberPart where
  | minus
  | zero
  | int
  | point
  | fraction
  | exponent
  | sign
  | power
  deriving DecidableEq

/-- What may follow the digits before the point. -/
def afterInt (c : Char) : Option NumberPart :=
  if c = '.' then some .point else if c = 'e' ∨ c = 'E' then some .exponent else none

def NumberPart.next (part : NumberPart) (c : Char) : Option NumberPart :=
  match part with
  | .minus => if c = '0' then some .zero else if c.isDigit then some .int else none
  -- no digit follows a leading zero
  | .zero => afterInt c
  | .int => if c.isDigit then some .int else afterInt c
  | .point => if c.isDigit then some .fraction else none
  | .fraction =>
      if c.isDigit then some .fraction else if c = 'e' ∨ c = 'E' then some .exponent else none
  | .exponent =>
      if c = '+' ∨ c = '-' then some .sign else if c.isDigit then some .power else none
  | .sign => if c.isDigit then some .power else none
  | .power => if c.isDigit then some .power else none

def natOfDigits (digits : List Char) : Nat := digits.foldl (fun n c => 10 * n + (c.toNat - 48)) 0

def intOfLexeme : List Char → Int
  | [] => 0
  | c :: cs => if c = '-' then -(natOfDigits cs : Int) else natOfDigits (c :: cs)

/-- `sys.int_info.default_max_str_digits`. -/
def maxStrDigits : Nat := 4300

/-- The number that ends in `part`; the characters stand with the last one first. -/
def numberValue (part : NumberPart) (lexeme : List Char) : Option JsonValue :=
  match part with
  | .zero | .int =>
      if (lexeme.filter Char.isDigit).length ≤ maxStrDigits then
        some (.int (intOfLexeme lexeme.reverse))
      else none
  | .fraction | .power => some (.float (String.ofList lexeme.reverse))
  | .minus | .point | .exponent | .sign => none

/-! ## Strings -/

def quote : Char := Char.ofNat 34

def backslash : Char := Char.ofNat 92

/-- The code of an escaped character, `u` apart. -/
def unescape (c : Char) : Option Nat :=
  if c = quote ∨ c = backslash ∨ c = '/' then some c.toNat
  else if c = 'b' then some 8
  else if c = 'f' then some 12
  else if c = 'n' then some 10
  else if c = 'r' then some 13
  else if c = 't' then some 9
  else none

def hexDigit (c : Char) : Option Nat :=
  if c.isDigit then some (c.toNat - 48)
  else if 'a' ≤ c ∧ c ≤ 'f' then some (c.toNat - 87)
  else if 'A' ≤ c ∧ c ≤ 'F' then some (c.toNat - 55)
  else none

def isHighSurrogate (code : Nat) : Bool := 0xD800 ≤ code && code ≤ 0xDBFF

def isLowSurrogate (code : Nat) : Bool := 0xDC00 ≤ code && code ≤ 0xDFFF

/-- The next code of a string, joined with the one before it where the two are a surrogate pair. -/
def pushCode (codes : List Nat) (code : Nat) : List Nat :=
  match codes with
  | [] => [code]
  | high :: rest =>
      if isHighSurrogate high && isLowSurrogate code then
        (0x10000 + (high - 0xD800) * 0x400 + (code - 0xDC00)) :: rest
      else code :: high :: rest

/-- The string with these codes, the last one first. -/
def textOf (codes : List Nat) : Option String :=
  if codes.any fun code => isHighSurrogate code || isLowSurrogate code then none
  else some (String.ofList (codes.reverse.map Char.ofNat))

/-! ## The machine -/

/-- A value under construction: the items so far, or the members so far and the key whose value is
being read. The last one stands first. -/
inductive Frame where
  | arr (items : List JsonValue)
  | obj (members : Members) (key : Option String)

/-- What a string is read for. -/
inductive Slot where
  | value
  | key (members : Members)

/-- Control phase. In `hex` there are `left` digits to read, in `word` the letters `rest`. -/
inductive Phase where
  | value
  | firstItem
  | afterItem (items : List JsonValue)
  | key (first : Bool) (members : Members)
  | colon (members : Members) (key : Option String)
  | afterMember (members : Members)
  | text (slot : Slot) (codes : List Nat)
  | escape (slot : Slot) (codes : List Nat)
  | hex (slot : Slot) (codes : List Nat) (left value : Nat)
  | number (part : NumberPart) (lexeme : List Char)
  | word (rest : List Char) (v : JsonValue)
  | done (v : JsonValue)
  | failed

/-- Machine state: the values that are open, the innermost first, and the control phase. -/
structure State where
  stack : List Frame
  phase : Phase

def isBlank (c : Char) : Bool := c = ' ' || c = '\t' || c = '\n' || c = '\r'

/-- A complete value goes to the innermost open one. -/
def deliver (stack : List Frame) (v : JsonValue) : State :=
  match stack with
  | [] => ⟨[], .done v⟩
  | .arr items :: stack => ⟨stack, .afterItem (v :: items)⟩
  | .obj members key :: stack => ⟨stack, .afterMember ((key, v) :: members)⟩

/-- The first character of a value. -/
def startValue (stack : List Frame) (c : Char) : State :=
  if c = quote then ⟨stack, .text .value []⟩
  else if c = '{' then ⟨stack, .key true []⟩
  else if c = '[' then ⟨stack, .firstItem⟩
  else if c = '-' then ⟨stack, .number .minus [c]⟩
  else if c = '0' then ⟨stack, .number .zero [c]⟩
  else if c.isDigit then ⟨stack, .number .int [c]⟩
  else if c = 'n' then ⟨stack, .word "ull".toList .null⟩
  else if c = 't' then ⟨stack, .word "rue".toList (.bool true)⟩
  else if c = 'f' then ⟨stack, .word "alse".toList (.bool false)⟩
  else if c = 'N' then ⟨stack, .word "aN".toList (.float "NaN")⟩
  else if c = 'I' then ⟨stack, .word "nfinity".toList (.float "Infinity")⟩
  else ⟨stack, .failed⟩

/-- The end of a string. -/
def closeText (stack : List Frame) (slot : Slot) (codes : List Nat) : State :=
  match slot with
  | .value => deliver stack (.str (textOf codes))
  | .key members => ⟨stack, .colon members (textOf codes)⟩

/-- A character after a value. -/
def stepAfter (s : State) (c : Char) : State :=
  match s.phase with
  | .afterItem items =>
      if isBlank c then s
      else if c = ',' then ⟨.arr items :: s.stack, .value⟩
      else if c = ']' then deliver s.stack (.arr items.reverse)
      else ⟨s.stack, .failed⟩
  | .afterMember members =>
      if isBlank c then s
      else if c = ',' then ⟨s.stack, .key false members⟩
      else if c = '}' then deliver s.stack (.obj members)
      else ⟨s.stack, .failed⟩
  | .done _ => if isBlank c then s else ⟨s.stack, .failed⟩
  | _ => ⟨s.stack, .failed⟩

/-- One machine step. -/
def step (s : State) (c : Char) : State :=
  match s.phase with
  | .value => if isBlank c then s else startValue s.stack c
  | .firstItem =>
      if isBlank c then s
      else if c = ']' then deliver s.stack (.arr [])
      else startValue (.arr [] :: s.stack) c
  | .key first members =>
      if isBlank c then s
      else if c = quote then ⟨s.stack, .text (.key members) []⟩
      else if c = '}' ∧ first = true then deliver s.stack (.obj [])
      else ⟨s.stack, .failed⟩
  | .colon members key =>
      if isBlank c then s
      else if c = ':' then ⟨.obj members key :: s.stack, .value⟩
      else ⟨s.stack, .failed⟩
  | .text slot codes =>
      if c = quote then closeText s.stack slot codes
      else if c = backslash then ⟨s.stack, .escape slot codes⟩
      else if c.toNat < 32 then ⟨s.stack, .failed⟩
      else ⟨s.stack, .text slot (pushCode codes c.toNat)⟩
  | .escape slot codes =>
      if c = 'u' then ⟨s.stack, .hex slot codes 4 0⟩
      else
        match unescape c with
        | none => ⟨s.stack, .failed⟩
        | some code => ⟨s.stack, .text slot (pushCode codes code)⟩
  | .hex slot codes left value =>
      match hexDigit c with
      | none => ⟨s.stack, .failed⟩
      | some digit =>
          if left = 1 then ⟨s.stack, .text slot (pushCode codes (16 * value + digit))⟩
          else ⟨s.stack, .hex slot codes (left - 1) (16 * value + digit)⟩
  | .word (d :: rest) v =>
      if c ≠ d then ⟨s.stack, .failed⟩
      else if rest = [] then deliver s.stack v
      else ⟨s.stack, .word rest v⟩
  | .number part lexeme =>
      match part.next c with
      | some part' => ⟨s.stack, .number part' (c :: lexeme)⟩
      | none =>
          if part = .minus ∧ c = 'I' then
            ⟨s.stack, .word "nfinity".toList (.float "-Infinity")⟩
          else
            -- the number has ended at the character before
            match numberValue part lexeme with
            | none => ⟨s.stack, .failed⟩
            | some v => stepAfter (deliver s.stack v) c
  | _ => stepAfter s c

/-- The value at the end of the text. -/
def finish (s : State) : Option JsonValue :=
  match s.stack, s.phase with
  | [], .done v => some v
  | [], .number part lexeme => numberValue part lexeme
  | _, _ => none

def run (s : State) (text : List Char) : State := text.foldl step s

/-- `json.loads`; `none` is an exception. -/
def loads (text : String) : Option JsonValue := finish (run ⟨[], .value⟩ text.toList)

end SalesTrades.Library.JsonText
