import Mathlib.Data.Rat.Defs
import Mathlib.Data.List.Basic

/-!
# Values of the Python code

JSON values with the truth test and the `dict.get` of the source, `str.strip`, time stamps with an
optional offset, and the exceptions that the modelled functions let through.
-/

set_option autoImplicit false

namespace SalesTrades

/-- A JSON value as `json.loads` returns it, with finite numbers and without lone surrogates. An object
lists its members in order. -/
inductive Json where
  | null
  | bool (b : Bool)
  | num (q : ℚ)
  | str (s : String)
  | arr (xs : List Json)
  | obj (members : List (String × Json))

namespace Json

mutual

/-- Equality of JSON values is decidable. -/
def decEq : (a b : Json) → Decidable (a = b)
  | .null, .null => isTrue rfl
  | .bool a, .bool b => decidable_of_iff (a = b) (by simp)
  | .num a, .num b => decidable_of_iff (a = b) (by simp)
  | .str a, .str b => decidable_of_iff (a = b) (by simp)
  | .arr a, .arr b => @decidable_of_iff _ (a = b) (by simp) (decEqList a b)
  | .obj a, .obj b => @decidable_of_iff _ (a = b) (by simp) (decEqMembers a b)
  | .null, .bool _ | .null, .num _ | .null, .str _ | .null, .arr _ | .null, .obj _
  | .bool _, .null | .bool _, .num _ | .bool _, .str _ | .bool _, .arr _ | .bool _, .obj _
  | .num _, .null | .num _, .bool _ | .num _, .str _ | .num _, .arr _ | .num _, .obj _
  | .str _, .null | .str _, .bool _ | .str _, .num _ | .str _, .arr _ | .str _, .obj _
  | .arr _, .null | .arr _, .bool _ | .arr _, .num _ | .arr _, .str _ | .arr _, .obj _
  | .obj _, .null | .obj _, .bool _ | .obj _, .num _ | .obj _, .str _ | .obj _, .arr _ =>
      isFalse (by simp)

/-- `decEq` on the elements of an array. -/
def decEqList : (a b : List Json) → Decidable (a = b)
  | [], [] => isTrue rfl
  | x :: xs, y :: ys =>
      @decidable_of_iff _ (x = y ∧ xs = ys) (by simp)
        (@instDecidableAnd _ _ (decEq x y) (decEqList xs ys))
  | [], _ :: _ | _ :: _, [] => isFalse (by simp)

/-- `decEq` on the members of an object. -/
def decEqMembers : (a b : List (String × Json)) → Decidable (a = b)
  | [], [] => isTrue rfl
  | (k, x) :: xs, (l, y) :: ys =>
      @decidable_of_iff _ (k = l ∧ x = y ∧ xs = ys) (by simp [and_assoc])
        (@instDecidableAnd _ _ _ (@instDecidableAnd _ _ (decEq x y) (decEqMembers xs ys)))
  | [], _ :: _ | _ :: _, [] => isFalse (by simp)

end

instance : DecidableEq Json := decEq

/-- `bool(value)`. -/
def truthy : Json → Bool
  | .null => false
  | .bool b => b
  | .num q => q != 0
  | .str s => s != ""
  | .arr xs => !xs.isEmpty
  | .obj members => !members.isEmpty

/-- `value or default`. -/
def orElse (value default : Json) : Json := if value.truthy then value else default

/-- An optional string attribute as a value. -/
def ofOption : Option String → Json
  | none => .null
  | some s => .str s

/-- `dict.get(key)`: the member named `key`, `None` when there is none. -/
def member (members : List (String × Json)) (key : String) : Json :=
  ((members.find? fun m => m.1 == key).map Prod.snd).getD .null

/-- `key in dict`. -/
def hasKey (members : List (String × Json)) (key : String) : Bool :=
  members.any fun m => m.1 == key

end Json

/-! ## What a column stores -/

/-- PostgreSQL stores no NUL character in a text. -/
def isText (s : String) : Bool := !s.toList.contains (Char.ofNat 0)

theorem isText_iff {s : String} : isText s = true ↔ Char.ofNat 0 ∉ s.toList := by
  simp [isText]

theorem isText_append {s t : String} (hs : isText s = true) (ht : isText t = true) :
    isText (s ++ t) = true := by
  rw [isText_iff, String.toList_append, List.mem_append]
  exact not_or.2 ⟨isText_iff.1 hs, isText_iff.1 ht⟩

namespace Json

mutual

/-- Nor in a `jsonb`: the escape of it is refused in every text and key of the document. -/
def isStorable : Json → Bool
  | .null | .bool _ | .num _ => true
  | .str s => isText s
  | .arr xs => isStorableList xs
  | .obj members => isStorableMembers members

/-- `isStorable` on the elements of an array. -/
def isStorableList : List Json → Bool
  | [] => true
  | x :: xs => isStorable x && isStorableList xs

/-- `isStorable` on the members of an object. -/
def isStorableMembers : List (String × Json) → Bool
  | [] => true
  | (k, x) :: rest => isText k && isStorable x && isStorableMembers rest

end

theorem isStorableMembers_iff {members : List (String × Json)} : isStorableMembers members = true ↔
    ∀ m ∈ members, isText m.1 = true ∧ m.2.isStorable = true := by
  induction members with
  | nil => simp [isStorableMembers]
  | cons m rest ih =>
      rw [isStorableMembers, Bool.and_eq_true, Bool.and_eq_true, ih, List.forall_mem_cons]

/-- What a document that can be stored has under a key. -/
theorem isStorable_member {members : List (String × Json)} (h : isStorableMembers members = true)
    (key : String) : (member members key).isStorable = true := by
  rw [member]
  cases hfound : members.find? fun m => m.1 == key with
  | none => rfl
  | some m => exact (isStorableMembers_iff.1 h m (List.mem_of_find?_eq_some hfound)).2

end Json

/-! ## Exceptions -/

/-- Exceptions that leave the modelled functions. `missingGreenlet` is what reading an expired
attribute raises in async code; `dataError` is the driver's rejection of a value whose type does not
fit its column; `staleDataError` is an UPDATE that matches no row; `httpError` is a request to
another service that failed. -/
inductive PyError where
  | attributeError
  | typeError
  | keyError
  | valueError
  | overflowError
  | validationError
  | httpError
  | integrityError
  | dataError
  | missingGreenlet
  | staleDataError
  deriving DecidableEq

/-- A statement that goes through, then the rest. -/
theorem bind_eq_ok {α β : Type} {x : Except PyError α} {f : α → Except PyError β} {b : β} :
    x >>= f = .ok b ↔ ∃ a, x = .ok a ∧ f a = .ok b := by
  cases x with
  | error e => simp [bind, Except.bind]
  | ok a => simp [bind, Except.bind]

/-- What a loop that goes through returns, it returns for an element. -/
theorem exists_of_mapM_ok {α β : Type} {f : α → Except PyError β} {xs : List α} {ys : List β}
    (h : xs.mapM f = .ok ys) : ∀ y ∈ ys, ∃ x ∈ xs, f x = .ok y := by
  induction xs generalizing ys with
  | nil =>
      rw [List.mapM_nil] at h
      obtain rfl := Except.ok.inj h
      intro y hy
      cases hy
  | cons x xs ih =>
      rw [List.mapM_cons] at h
      obtain ⟨y, hy, h⟩ := bind_eq_ok.1 h
      obtain ⟨ys', hys, h⟩ := bind_eq_ok.1 h
      obtain rfl := Except.ok.inj h
      intro z hz
      rcases List.mem_cons.1 hz with rfl | hlater
      · exact ⟨x, List.mem_cons_self, hy⟩
      · obtain ⟨x', hx', hfx⟩ := ih hys z hlater
        exact ⟨x', List.mem_cons_of_mem x hx', hfx⟩

theorem eq_ok_of_toOption {ε α : Type} {x : Except ε α} {a : α} (h : x.toOption = some a) :
    x = .ok a := by
  cases x with
  | error e => cases h
  | ok b => rw [Option.some.inj h]

/-- `value.get(key)`: only a `dict` has the method. -/
def Json.get (value : Json) (key : String) : Except PyError Json :=
  match value with
  | .obj members => .ok (Json.member members key)
  | _ => .error .attributeError

theorem get_eq_ok_iff {value result : Json} {key : String} : value.get key = .ok result ↔
    ∃ members, value = .obj members ∧ Json.member members key = result := by
  cases value with
  | obj members => simp [Json.get]
  | null => simp [Json.get]
  | bool b => simp [Json.get]
  | num q => simp [Json.get]
  | str t => simp [Json.get]
  | arr xs => simp [Json.get]

/-- A value as the key of a `dict`: a list or a `dict` has no hash, and `True` is the key 1. -/
def hashKey : Json → Except PyError Json
  | .arr _ | .obj _ => .error .typeError
  | .bool b => .ok (.num (if b then 1 else 0))
  | value => .ok value

/-! ## Texts -/

/-- The characters `str.strip` removes. -/
def isWhitespace (c : Char) : Bool :=
  (9 ≤ c.toNat && c.toNat ≤ 13) || (28 ≤ c.toNat && c.toNat ≤ 32) || c.toNat == 133 ||
    c.toNat == 160 || c.toNat == 5760 || (8192 ≤ c.toNat && c.toNat ≤ 8202) ||
    c.toNat == 8232 || c.toNat == 8233 || c.toNat == 8239 || c.toNat == 8287 || c.toNat == 12288

/-- `str.strip()`. -/
def strip (s : String) : String :=
  String.ofList ((s.toList.dropWhile isWhitespace).reverse.dropWhile isWhitespace).reverse

/-- The Unicode lower-case mapping `str.lower` uses. Only what the source relies on is stated: the
empty string, and no other, has the empty image. -/
structure LowerCase where
  lower : String → String
  lower_eq_empty_iff : ∀ s, lower s = "" ↔ s = ""

/-- `str.lower` on ASCII strings. -/
def asciiLower : LowerCase where
  lower s := String.ofList (s.toList.map Char.toLower)
  lower_eq_empty_iff s := by
    rw [← String.toList_inj, ← String.toList_inj]
    simp

/-- A string the request models accept as an address: it contains an at sign. -/
def EmailStr : Type := { s : String // '@' ∈ s.toList }

/-- Ada's address, for the concrete runs. -/
def adaEmail : EmailStr := ⟨"ada@x.ng", by decide⟩

theorem mem_dropWhile_of_not {p : Char → Bool} {c : Char} {l : List Char} (hc : c ∈ l)
    (hp : p c = false) : c ∈ l.dropWhile p := by
  induction l with
  | nil => cases hc
  | cons a l ih =>
      rcases List.mem_cons.1 hc with rfl | hmem
      · simp [List.dropWhile, hp]
      · simp only [List.dropWhile]
        split
        · exact ih hmem
        · exact List.mem_cons_of_mem a hmem

/-- `str(email).strip().lower()`. -/
def normaliseEmail (py : LowerCase) (email : EmailStr) : String := py.lower (strip email.1)

/-- The address under which a submission is stored is never empty. -/
theorem normaliseEmail_ne_empty (py : LowerCase) (email : EmailStr) :
    normaliseEmail py email ≠ "" := by
  rw [normaliseEmail, ne_eq, py.lower_eq_empty_iff]
  intro h
  -- the at sign survives the stripping
  have hat : '@' ∈ ((email.1.toList.dropWhile isWhitespace).reverse.dropWhile
      isWhitespace).reverse := by
    rw [List.mem_reverse]
    refine mem_dropWhile_of_not ?_ (by decide)
    rw [List.mem_reverse]
    exact mem_dropWhile_of_not email.2 (by decide)
  have hnil := congrArg String.toList h
  simp only [strip, String.toList_ofList, String.toList_empty] at hnil
  rw [hnil] at hat
  cases hat

/-! ## Time stamps -/

/-- `datetime`: a wall clock in microseconds since the epoch and the UTC offset, `none` for a naive value. -/
structure Datetime where
  wall : Int
  offset : Option Int
  deriving DecidableEq

/-- The instant an aware value denotes. -/
def Datetime.instant (dt : Datetime) : Int := dt.wall - dt.offset.getD 0

/-- The instants from the year 1 to the year 9999, which a `datetime` can hold. -/
def InCalendar (instant : Int) : Prop :=
  -719162 * 86400000000 ≤ instant ∧ instant < 2932897 * 86400000000

instance (instant : Int) : Decidable (InCalendar instant) := inferInstanceAs (Decidable (_ ∧ _))

/-- `_ensure_aware`: a naive value is read as UTC. -/
def ensureAware (dt : Datetime) : Datetime :=
  match dt.offset with
  | some _ => dt
  | none => { dt with offset := some 0 }

end SalesTrades
