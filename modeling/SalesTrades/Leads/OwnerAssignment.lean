import SalesTrades.Library.Buckets
import SalesTrades.Library.LastEntry
import SalesTrades.Leads.Capture

/-!
# Owners from a sheet

The script that sets the owners of CRM contacts from a sheet of names. A row is given to the one lead
that its name, or its first name and company, determines, and to none otherwise
(`matchLead_eq_some_iff`), whatever the order of the leads (`resolve_perm`). The calls go out one after
another, so every assignment whose call goes through holds at the end exactly when no two of them give
one contact to different reps (`assignments_hold_iff`).
-/

set_option autoImplicit false

namespace SalesTrades.Leads.OwnerAssignment

open SalesTrades.Library.Buckets SalesTrades.Library.Keyed

universe u v

/-! ## Dictionaries of lists -/

section Dictionary

variable {κ : Type u} {α : Type v} [DecidableEq κ]

/-- `d.get(key, [])`. -/
def lookup (bs : List (Bucket κ α)) (k : κ) : List α :=
  match bs.find? fun b => b.key = k with
  | none => []
  | some b => b.items

/-- The values of a key, in the order of the entries. -/
theorem lookup_buckets (entries : List (κ × α)) (k : κ) :
    lookup (buckets entries) k = (entries.filter fun e => e.1 = k).map Prod.snd := by
  rw [lookup]
  cases hfind : (buckets entries).find? fun b => b.key = k with
  | none =>
      have hnone : (entries.filter fun e => e.1 = k) = [] := by
        rw [List.filter_eq_nil_iff]
        intro e he hkey
        have hmem : k ∈ (buckets entries).map Bucket.key :=
          mem_keys_buckets.2 (of_decide_eq_true hkey ▸ List.mem_map_of_mem he)
        obtain ⟨b, hb, hbkey⟩ := List.mem_map.1 hmem
        exact List.find?_eq_none.1 hfind b hb (decide_eq_true hbkey)
      rw [hnone]
      rfl
  | some b =>
      have hkey : decide (b.key = k) = true :=
        @List.find?_some _ (fun b : Bucket κ α => decide (b.key = k)) _ _ hfind
      rw [← of_decide_eq_true hkey]
      exact items_eq_filter (List.mem_of_find?_eq_some hfind)

end Dictionary

/-! ## Matching -/

/-- `REP_TO_OWNER` and `REP_TO_OWNER_NAME` by their keys. -/
inductive Rep where
  | jennifer
  | clinton
  deriving DecidableEq

/-- `REP_TO_OWNER.get`. -/
def Rep.ofName (name : String) : Option Rep :=
  if name = "jennifer" then some .jennifer else if name = "clinton" then some .clinton else none

/-- `REP_TO_OWNER`. -/
def Rep.ownerId : Rep → Nat
  | .jennifer => 17000094102
  | .clinton => 17000101584

/-- `REP_TO_OWNER_NAME`. -/
def Rep.ownerName : Rep → String
  | .jennifer => "Jennifer Obute"
  | .clinton => "Clinton Osuji"

def colFirst : Nat := 0
def colLast : Nat := 1
def colCompany : Nat := 3
def colAssigned : Nat := 4

/-- `_cell`. -/
def cell (row : List String) (idx : Nat) : String := (row[idx]?.map strip).getD ""

/-- `_norm`. -/
def norm (py : LowerCase) (s : String) : String := py.lower (strip s)

/-- `_is_placeholder_name`. -/
def isPlaceholderName (last : String) : Bool := ["", "-", "—", "–", "â€”"].contains (strip last)

/-- `by_name`. -/
def byName (py : LowerCase) (leads : List Lead) : List (Bucket (String × String) Lead) :=
  buckets (leads.map fun lead => ((norm py lead.firstName, norm py lead.lastName), lead))

/-- `by_first`. -/
def byFirst (py : LowerCase) (leads : List Lead) : List (Bucket String Lead) :=
  buckets (leads.map fun lead => (norm py lead.firstName, lead))

/-- The end of `_match_lead`: by first name and company. -/
def matchFirst (py : LowerCase) (row : List String) (byFirst : List (Bucket String Lead)) :
    Option Lead × String :=
  let first := norm py (cell row colFirst)
  let company := norm py (cell row colCompany)
  match (lookup byFirst first).filter fun h => norm py h.company = company with
  | [] => (none, "no match")
  | [hit] => (some hit, "first+company")
  | hits => (none, s!"ambiguous first+company ({hits.length} hits)")

/-- `_match_lead`. -/
def matchLead (py : LowerCase) (row : List String) (byName : List (Bucket (String × String) Lead))
    (byFirst : List (Bucket String Lead)) : Option Lead × String :=
  let first := norm py (cell row colFirst)
  let last := norm py (cell row colLast)
  let company := norm py (cell row colCompany)
  if isPlaceholderName (cell row colLast) then matchFirst py row byFirst
  else
    match lookup byName (first, last) with
    | [] => matchFirst py row byFirst
    | [hit] => (some hit, "name")
    | hits =>
        match hits.filter fun h => norm py h.company = company with
        | [hit] => (some hit, "name+company")
        | comp => (none, s!"ambiguous ({hits.length} name-hits, {comp.length} company-hits)")

/-- What `_match_lead` gives for a sheet row and the leads of the campaign. -/
def resolve (py : LowerCase) (leads : List Lead) (row : List String) : Option Lead × String :=
  matchLead py row (byName py leads) (byFirst py leads)

/-- The leads with the name of the row. -/
def nameHits (py : LowerCase) (leads : List Lead) (row : List String) : List Lead :=
  leads.filter fun lead => (norm py lead.firstName, norm py lead.lastName) =
    (norm py (cell row colFirst), norm py (cell row colLast))

/-- The leads with the first name of the row. -/
def firstHits (py : LowerCase) (leads : List Lead) (row : List String) : List Lead :=
  leads.filter fun lead => norm py lead.firstName = norm py (cell row colFirst)

/-- Those of them with the company of the row. -/
def ofCompany (py : LowerCase) (row : List String) (hits : List Lead) : List Lead :=
  hits.filter fun lead => norm py lead.company = norm py (cell row colCompany)

/-- The row determines the lead: by the name, by the name and the company where several have the name, or
by the first name and the company where none has the name or the row has no last name. -/
def Determines (py : LowerCase) (leads : List Lead) (row : List String) (lead : Lead) : Prop :=
  if isPlaceholderName (cell row colLast) = true ∨ nameHits py leads row = [] then
    ofCompany py row (firstHits py leads row) = [lead]
  else nameHits py leads row = [lead] ∨
    (2 ≤ (nameHits py leads row).length ∧ ofCompany py row (nameHits py leads row) = [lead])

section Match

variable {py : LowerCase} {leads leads' : List Lead} {row : List String} {lead : Lead}

theorem lookup_byName : lookup (byName py leads) (norm py (cell row colFirst), norm py (cell row colLast)) =
    nameHits py leads row := by
  rw [byName, lookup_buckets, List.filter_map, List.map_map]
  exact List.map_id _

theorem lookup_byFirst : lookup (byFirst py leads) (norm py (cell row colFirst)) =
    firstHits py leads row := by
  rw [byFirst, lookup_buckets, List.filter_map, List.map_map]
  exact List.map_id _

theorem matchFirst_eq_some_iff : (matchFirst py row (byFirst py leads)).1 = some lead ↔
    ofCompany py row (firstHits py leads row) = [lead] := by
  simp only [matchFirst, lookup_byFirst, ofCompany]
  split
  · rename_i hnone
    simp [hnone]
  · rename_i hit hone
    rw [hone, Option.some.injEq, List.cons.injEq, and_iff_left rfl]
  · rename_i hits _ hmany
    refine iff_of_false (Option.some_ne_none lead).symm ?_
    exact fun hone => hmany lead hone

/-- **A row is resolved** to a lead exactly when it determines it. -/
theorem matchLead_eq_some_iff : (resolve py leads row).1 = some lead ↔ Determines py leads row lead := by
  simp only [resolve, matchLead, Determines, lookup_byName]
  by_cases hplaceholder : isPlaceholderName (cell row colLast) = true
  · rw [if_pos hplaceholder, if_pos (Or.inl hplaceholder)]
    exact matchFirst_eq_some_iff
  · rw [if_neg hplaceholder]
    split
    · rename_i hnone
      rw [if_pos (Or.inr hnone)]
      exact matchFirst_eq_some_iff
    · rename_i hit hone
      rw [if_neg (by simp [hplaceholder, hone]), hone]
      simp
    · rename_i hits hnone hmany
      have htwo : 2 ≤ (nameHits py leads row).length := by
        rcases hhits : nameHits py leads row with _ | ⟨hit, _ | ⟨other, more⟩⟩
        · exact absurd hhits hnone
        · exact absurd hhits (hmany hit)
        · exact Nat.le_add_left 2 _
      rw [if_neg (not_or.2 ⟨hplaceholder, hnone⟩), or_iff_right (hmany lead), and_iff_right htwo, ofCompany]
      split
      · rename_i hit hone
        rw [hone, Option.some.injEq, List.cons.injEq, and_iff_left rfl]
      · rename_i comp hcomp
        exact iff_of_false (Option.some_ne_none lead).symm fun hone => hcomp lead hone

/-- Two orders of none, of one, or of several. -/
theorem perm_cases {hits hits' : List Lead} (h : hits.Perm hits') : (hits = [] ∧ hits' = []) ∨
    (∃ hit, hits = [hit] ∧ hits' = [hit]) ∨
      ∃ a b more a' b' more', hits = a :: b :: more ∧ hits' = a' :: b' :: more' ∧
        more.length = more'.length := by
  rcases hits with _ | ⟨a, _ | ⟨b, more⟩⟩
  · exact Or.inl ⟨rfl, List.nil_perm.1 h⟩
  · exact Or.inr (Or.inl ⟨a, rfl, (List.singleton_perm.1 h).symm⟩)
  · refine Or.inr (Or.inr ?_)
    have hlength := h.length_eq
    rcases hits' with _ | ⟨a', _ | ⟨b', more'⟩⟩
    · exact absurd hlength (Nat.succ_ne_zero _)
    · simp at hlength
    · refine ⟨a, b, more, a', b', more', rfl, rfl, ?_⟩
      simpa using hlength

theorem matchFirst_perm (h : leads.Perm leads') (row : List String) :
    matchFirst py row (byFirst py leads) = matchFirst py row (byFirst py leads') := by
  have hhits : (ofCompany py row (firstHits py leads row)).Perm
      (ofCompany py row (firstHits py leads' row)) := (h.filter _).filter _
  simp only [matchFirst, lookup_byFirst]
  simp only [ofCompany] at hhits
  rcases perm_cases hhits with ⟨hnone, hnone'⟩ | ⟨hit, hone, hone'⟩ |
    ⟨a, b, more, a', b', more', hmany, hmany', hlength⟩
  · rw [hnone, hnone']
  · rw [hone, hone']
  · rw [hmany, hmany']
    simp only [List.length_cons, hlength]

/-- **The order of the leads** does not matter, not even for the reason why a row is not resolved. -/
theorem resolve_perm (h : leads.Perm leads') (row : List String) :
    resolve py leads row = resolve py leads' row := by
  have hnames : (nameHits py leads row).Perm (nameHits py leads' row) := h.filter _
  have hfirst : matchFirst py row (byFirst py leads) = matchFirst py row (byFirst py leads') :=
    matchFirst_perm h row
  simp only [resolve, matchLead, lookup_byName, hfirst]
  rcases perm_cases hnames with ⟨hnone, hnone'⟩ | ⟨hit, hone, hone'⟩ |
    ⟨a, b, more, a', b', more', hmany, hmany', hlength⟩
  · rw [hnone, hnone']
  · rw [hone, hone']
  · -- the company decides, or the numbers of hits are told
    have hcompany : (ofCompany py row (nameHits py leads row)).Perm
        (ofCompany py row (nameHits py leads' row)) := hnames.filter _
    rw [hmany, hmany'] at hcompany
    simp only [ofCompany] at hcompany
    rw [hmany, hmany']
    simp only [List.length_cons, hlength]
    rcases perm_cases hcompany with ⟨hnone, hnone'⟩ | ⟨hit, hone, hone'⟩ |
      ⟨c, d, rest, c', d', rest', hrest, hrest', hlength'⟩
    · rw [hnone, hnone']
    · rw [hone, hone']
    · rw [hrest, hrest']
      simp only [List.length_cons, hlength']

end Match

/-! ## The run -/

/-- What the CRM shows as the owner of a contact. -/
structure ContactOwner where
  ownerId : Nat
  cfOwner : String
  deriving DecidableEq

def Rep.owner (rep : Rep) : ContactOwner := ⟨rep.ownerId, rep.ownerName⟩

/-- The owners of the contacts by their addresses. -/
abbrev CrmOwners : Type := String → Option ContactOwner

/-- An entry of `planned`. -/
structure Assignment where
  lead : Lead
  rep : Rep
  how : String

def Assignment.email (a : Assignment) : String := a.lead.email

/-- What becomes of a row of the sheet. -/
inductive RowOutcome where
  | planned (assignment : Assignment)
  | unresolved (why : String)
  | badRep

/-- The loop over the rows. -/
def rowOutcome (py : LowerCase) (leads : List Lead) (row : List String) : RowOutcome :=
  match Rep.ofName (norm py (cell row colAssigned)) with
  | none => .badRep
  | some rep =>
      match resolve py leads row with
      | (none, why) => .unresolved why
      | (some lead, how) => .planned ⟨lead, rep, how⟩

def RowOutcome.assignment? : RowOutcome → Option Assignment
  | .planned assignment => some assignment
  | .unresolved _ | .badRep => none

/-- `planned`, cut at the limit. -/
def planned (py : LowerCase) (leads : List Lead) (data : List (List String)) (limit : Option Nat) :
    List Assignment :=
  let all := data.filterMap fun row => (rowOutcome py leads row).assignment?
  match limit with
  | none => all
  | some n => all.take n

/-- What becomes of a call. The CRM may have done what a call asked for whose answer got lost. -/
inductive CallOutcome where
  | answered
  | lost
  | failed
  deriving DecidableEq

/-- The loop that commits, with the numbers of assignments that went through and that failed. -/
def commitLoop (calls : Nat → CallOutcome) : Nat → List Assignment → CrmOwners → CrmOwners × Nat × Nat
  | _, [], crm => (crm, 0, 0)
  | i, a :: rest, crm =>
      let assigned := Function.update crm a.lead.email (some a.rep.owner)
      match calls i with
      | .answered =>
          let r := commitLoop calls (i + 1) rest assigned
          (r.1, r.2.1 + 1, r.2.2)
      | .lost =>
          let r := commitLoop calls (i + 1) rest assigned
          (r.1, r.2.1, r.2.2 + 1)
      | .failed =>
          let r := commitLoop calls (i + 1) rest crm
          (r.1, r.2.1, r.2.2 + 1)

/-- What the script says in the end. -/
inductive RunReport where
  | noRows
  | noApiKey
  | unknownOwner
  | dryRun (planned : List Assignment)
  | done (assigned failed : Nat)

/-- `run`. -/
def run (py : LowerCase) (rows : List (List String)) (apiKey : String) (ownerIds : List Nat)
    (leads : List Lead) (commit : Bool) (limit : Option Nat) (calls : Nat → CallOutcome) (crm : CrmOwners) :
    RunReport × CrmOwners :=
  match rows with
  | [] => (.noRows, crm)
  | _ :: data =>
      if apiKey = "" then (.noApiKey, crm)
      else if [Rep.jennifer, .clinton].any fun rep => rep.ownerId ∉ ownerIds then (.unknownOwner, crm)
      else if !commit then (.dryRun (planned py leads data limit), crm)
      else
        let r := commitLoop calls 0 (planned py leads data limit) crm
        (.done r.2.1 r.2.2, r.1)

/-- The assignments that the CRM has made. -/
def made (calls : Nat → CallOutcome) : Nat → List Assignment → List Assignment
  | _, [] => []
  | i, a :: rest =>
      if calls i = .failed then made calls (i + 1) rest else a :: made calls (i + 1) rest

section Run

variable {py : LowerCase} {leads leads' : List Lead} {data : List (List String)} {limit : Option Nat}
  {calls : Nat → CallOutcome} {crm : CrmOwners} {a : Assignment}

/-- A contact has the owner of the last assignment that was made for it. -/
theorem commitLoop_owner (i : Nat) (assignments : List Assignment) (crm : CrmOwners) (email : String) :
    (commitLoop calls i assignments crm).1 email =
      ((lastWith Assignment.email email (made calls i assignments)).map fun a => a.rep.owner).or
        (crm email) := by
  induction assignments generalizing i crm with
  | nil => rfl
  | cons a rest ih =>
      -- a call that the CRM has followed
      have hassigned : (commitLoop calls (i + 1) rest
          (Function.update crm a.lead.email (some a.rep.owner))).1 email =
            ((lastWith Assignment.email email (a :: made calls (i + 1) rest)).map fun a => a.rep.owner).or
              (crm email) := by
        rw [ih, lastWith_cons]
        cases hlast : lastWith Assignment.email email (made calls (i + 1) rest) with
        | some c => rfl
        | none =>
            by_cases hemail : a.email = email
            · rw [if_pos hemail, ← hemail]
              simp [Assignment.email]
            · have hother : Function.update crm a.lead.email (some a.rep.owner) email = crm email :=
                Function.update_of_ne (Ne.symm hemail) _ _
              rw [if_neg hemail, hother]
              rfl
      cases hcall : calls i with
      | answered => simpa [commitLoop, made, hcall] using hassigned
      | lost => simpa [commitLoop, made, hcall] using hassigned
      | failed => simpa [commitLoop, made, hcall] using ih (i + 1) crm

theorem mem_of_mem_made {i : Nat} {assignments : List Assignment} (h : a ∈ made calls i assignments) :
    a ∈ assignments := by
  induction assignments generalizing i with
  | nil => cases h
  | cons c rest ih =>
      rw [made] at h
      split at h
      · exact List.mem_cons_of_mem c (ih h)
      · rcases List.mem_cons.1 h with rfl | h
        · exact List.mem_cons_self
        · exact List.mem_cons_of_mem c (ih h)

/-- An assignment comes from a row that names the rep and determines the lead. -/
theorem row_of_mem_planned (h : a ∈ planned py leads data limit) : ∃ row ∈ data,
    Rep.ofName (norm py (cell row colAssigned)) = some a.rep ∧ Determines py leads row a.lead := by
  have hall : a ∈ data.filterMap fun row => (rowOutcome py leads row).assignment? := by
    cases limit with
    | none => exact h
    | some n => exact List.mem_of_mem_take h
  obtain ⟨row, hrow, ha⟩ := List.mem_filterMap.1 hall
  refine ⟨row, hrow, ?_⟩
  rw [rowOutcome] at ha
  split at ha
  · cases ha
  · rename_i rep hrep
    split at ha
    · cases ha
    · rename_i lead how hresolve
      obtain rfl := Option.some.inj ha
      exact ⟨hrep, matchLead_eq_some_iff.1 (congrArg Prod.fst hresolve)⟩

theorem planned_perm (h : leads.Perm leads') : planned py leads data limit = planned py leads' data limit := by
  have hrow : ∀ row, rowOutcome py leads row = rowOutcome py leads' row := by
    intro row
    rw [rowOutcome, rowOutcome, resolve_perm h]
  simp only [planned, hrow]

theorem Rep.owner_injective : Function.Injective Rep.owner := by
  intro rep rep' h
  cases rep <;> cases rep' <;> first | rfl | cases h

/-- The assignments hold when each contact gets one owner. -/
theorem made_hold_iff {assignments : List Assignment} :
    (∀ a ∈ assignments, ((lastWith Assignment.email a.email assignments).map fun a => a.rep.owner).or
      (crm a.email) = some a.rep.owner) ↔
      ∀ a ∈ assignments, ∀ b ∈ assignments, a.email = b.email → a.rep = b.rep := by
  constructor
  · intro h a ha b hb hemail
    have hfirst := h a ha
    rw [hemail, h b hb] at hfirst
    exact Rep.owner_injective (Option.some.inj hfirst.symm)
  · intro h a ha
    obtain ⟨b, hb, hemail, hlast⟩ : ∃ b ∈ assignments, b.email = a.email ∧
      lastWith Assignment.email a.email assignments = some b := exists_lastWith ha
    rw [hlast, h a ha b hb hemail.symm]
    rfl

/-- **A committed run.** Whatever the order in which the database lists the leads and whatever becomes of
the calls: every assignment comes from a row that names the rep and determines the lead, the other
contacts keep their owners, and all assignments hold in the end exactly when no two of them give one
contact to different reps. -/
theorem assignments_hold_iff {header : List String} {apiKey : String} {ownerIds : List Nat}
    (hkey : apiKey ≠ "") (howners : ∀ rep : Rep, rep.ownerId ∈ ownerIds) (hperm : leads.Perm leads') :
    (∀ a ∈ made calls 0 (planned py leads data limit), ∃ row ∈ data,
      Rep.ofName (norm py (cell row colAssigned)) = some a.rep ∧ Determines py leads row a.lead) ∧
    (∀ email, (∀ a ∈ made calls 0 (planned py leads data limit), a.email ≠ email) →
      (run py (header :: data) apiKey ownerIds leads' true limit calls crm).2 email = crm email) ∧
    ((∀ a ∈ made calls 0 (planned py leads data limit),
      (run py (header :: data) apiKey ownerIds leads' true limit calls crm).2 a.email = some a.rep.owner) ↔
        ∀ a ∈ made calls 0 (planned py leads data limit), ∀ b ∈ made calls 0 (planned py leads data limit),
          a.email = b.email → a.rep = b.rep) := by
  have hrun : ∀ email, (run py (header :: data) apiKey ownerIds leads' true limit calls crm).2 email =
      ((lastWith Assignment.email email (made calls 0 (planned py leads data limit))).map
        fun a => a.rep.owner).or (crm email) := by
    intro email
    have hknown : ([Rep.jennifer, .clinton].any fun rep => rep.ownerId ∉ ownerIds) = false := by
      simp [howners]
    simp only [run, if_neg hkey, hknown, Bool.false_eq_true, if_false, Bool.not_true]
    rw [← planned_perm hperm]
    exact commitLoop_owner 0 _ crm email
  refine ⟨fun a ha => row_of_mem_planned (mem_of_mem_made ha), fun email hnone => ?_, ?_⟩
  · have hlast : lastWith Assignment.email email (made calls 0 (planned py leads data limit)) = none := by
      rw [lastWith_eq_none_iff, List.mem_map]
      rintro ⟨a, ha, heq⟩
      exact hnone a ha heq
    rw [hrun, hlast]
    rfl
  · simp only [hrun]
    exact made_hold_iff

end Run

/-- The lead of two rows. -/
def adaObi : Lead :=
  { newLead 1 "ada@acme.ng" with firstName := "Ada", lastName := "Obi", company := "Acme" }

/-- The second row has a dash for the last name and another rep. -/
def twoReps : List (List String) :=
  [["Ada", "Obi", "CEO", "Acme", "Jennifer"], ["ada ", "-", "", "ACME", "Clinton"]]

theorem twoReps_planned : planned asciiLower [adaObi] twoReps none =
    [⟨adaObi, .jennifer, "name"⟩, ⟨adaObi, .clinton, "first+company"⟩] := by
  rfl

/-- The first of them does not hold in the end. -/
theorem two_reps_one_contact : ¬ ∀ a ∈ made (fun _ => .answered) 0 (planned asciiLower [adaObi] twoReps none),
    (run asciiLower ([] :: twoReps) "key" [17000094102, 17000101584] [adaObi] true none
      (fun _ => .answered) fun _ => none).2 a.email = some a.rep.owner := by
  have howners : ∀ rep : Rep, rep.ownerId ∈ [17000094102, 17000101584] := by
    intro rep
    cases rep <;> decide
  rw [(assignments_hold_iff (by decide) howners (List.Perm.refl [adaObi])).2.2, twoReps_planned]
  intro h
  have hrep := h ⟨adaObi, .jennifer, "name"⟩ List.mem_cons_self ⟨adaObi, .clinton, "first+company"⟩
    (List.mem_cons_of_mem _ List.mem_cons_self) rfl
  exact absurd hrep (by decide)

end SalesTrades.Leads.OwnerAssignment
