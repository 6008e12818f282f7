import SalesTrades.Deals.TimelineBackfill
import SalesTrades.Leads.Model
import SalesTrades.Library.LastEntry
import Mathlib.Data.Finset.Dedup

/-!
# The contact-activity sync

`run_nog_activity_sync` asks the CRM for the e-mails and notes of each contact of the campaign and for
all sales activities, and upserts a row of `contact_activity` for each of them that has a time. The key
of a row is the id of the remote item, and the upsert writes every column. So a run that goes through
puts one list of rows into the table (`sync_counted_iff`).
-/

set_option autoImplicit false

namespace SalesTrades.Leads.NogActivitySync

open SalesTrades.Library SalesTrades.Library.Paging SalesTrades.Deals SalesTrades.Freshsales

/-! ## Rows -/

inductive ActivityType where
  | call
  | email
  | meeting
  | note
  deriving DecidableEq

/-- The columns that `_base` gives. -/
structure Base where
  campaignId : Nat
  contactId : Int
  contactName : Option String
  ownerName : Option String
  ownerId : Json
  prospectTier : Option String

/-- The columns of a remote item. -/
structure Item where
  activityType : ActivityType
  direction : Json
  occurredAt : Datetime
  subject : Json
  sourceKey : String
  raw : JsonObject

/-- A row of `contact_activity`. -/
structure Activity where
  campaignId : Nat
  contactId : Int
  contactName : Option String
  ownerId : Option Int
  ownerName : Option String
  prospectTier : Option String
  activityType : ActivityType
  direction : Option String
  occurredAt : Datetime
  subject : Option String
  sourceKey : String
  raw : JsonObject
  deriving DecidableEq

/-- `contact_activity`, whose source keys are unique. -/
structure ActivityTable where
  rows : List Activity
  nodup : (rows.map Activity.sourceKey).Nodup

/-- The counters that are returned. -/
structure Counters where
  contacts : Nat := 0
  email : Nat := 0
  note : Nat := 0
  call : Nat := 0
  meeting : Nat := 0

/-- `counters[kind] += 1`. -/
def Counters.count (c : Counters) : ActivityType → Counters
  | .call => { c with call := c.call + 1 }
  | .email => { c with email := c.email + 1 }
  | .meeting => { c with meeting := c.meeting + 1 }
  | .note => { c with note := c.note + 1 }

structure Session where
  table : ActivityTable
  counters : Counters

/-- The row replaces the one with its key. -/
def Session.record (row : Activity) (s : Session) : Session where
  table := ⟨Keyed.put Activity.sourceKey row s.table.rows, Keyed.nodup_put s.table.nodup⟩
  counters := s.counters.count row.activityType

/-- `counters["contacts"] += 1`. -/
def Session.visited (s : Session) : Session :=
  { s with counters := { s.counters with contacts := s.counters.contacts + 1 } }

/-! ## The upsert -/

/-- The library functions, and those that this sync alone uses. -/
structure ActivityLib extends BackfillLib where
  py : LowerCase
  /-- `int(text)`. -/
  intOfText : String → Option Int
  /-- What stands for a value in an f-string. -/
  format : Json → String

/-- The value that the driver sends for a column that may be null. -/
def cell {α : Type} (encode : Json → Option α) (value : Json) : Option α :=
  if value = .null then none else encode value

def takesCell {α : Type} (encode : Json → Option α) (value : Json) : Bool :=
  value = .null || (encode value).isSome

/-- Whether the database takes the row. The name of the contact is made of two columns with a text. -/
def takesRow (lib : ActivityLib) (base : Base) (item : Item) : Bool :=
  IsBigint base.contactId && takesCell lib.encodeBigint base.ownerId &&
    takesCell lib.encodeText item.direction && takesCell lib.encodeText item.subject &&
    (lib.encodeText (.str item.sourceKey)).isSome && lib.takesJson item.raw

def activityRow (lib : ActivityLib) (base : Base) (item : Item) : Activity where
  campaignId := base.campaignId
  contactId := base.contactId
  contactName := base.contactName
  ownerId := cell lib.encodeBigint base.ownerId
  ownerName := base.ownerName
  prospectTier := base.prospectTier
  activityType := item.activityType
  direction := cell lib.encodeText item.direction
  occurredAt := item.occurredAt
  subject := cell lib.encodeText item.subject
  sourceKey := item.sourceKey
  raw := item.raw

/-- `contact_activity_repo.upsert`, and the counter. -/
def upsert (lib : ActivityLib) (base : Base) (item : Item) (s : Session) : Except PyError Session :=
  if takesRow lib base item then .ok (s.record (activityRow lib base item)) else .error .dataError

/-! ## Reading the answers -/

/-- `_HEAVY`. -/
def heavy : List String :=
  ["html_content", "current_html_content", "display_content", "shrink_content", "attachments",
    "conversation_meta", "collab_context"]

/-- `{k: v for k, v in e.items() if k not in _HEAVY}`. -/
def withoutHeavy : Json → JsonObject
  | .obj members => members.filter fun m => m.1 ∉ heavy
  | _ => []

/-- An e-mail of a contact, if it has a time. -/
def emailItem (lib : ActivityLib) (cid : Int) (e : Json) : Except PyError (Option (Int × Item)) := do
  match ← parseIsoTimestamp lib.toPyLib (← e.get "conversation_time") with
  -- an item without a time is passed over
  | none => return none
  | some occurredAt =>
      return some (cid, {
        activityType := .email
        direction := ← e.get "direction"
        occurredAt
        subject := ← e.get "subject"
        sourceKey := "email:" ++ lib.format (← e.get "id")
        raw := withoutHeavy e })

/-- `(value or "").strip()`. -/
def strippedText (value : Json) : Except PyError String :=
  match value.orElse (.str "") with
  | .str text => .ok (strip text)
  | _ => .error .attributeError

/-- `desc[:200] or None`. -/
def noteSubject (desc : String) : Json :=
  (Json.str (String.ofList (desc.toList.take 200))).orElse .null

/-- A note of a contact, if it has a time. -/
def noteItem (lib : ActivityLib) (cid : Int) (n : Json) : Except PyError (Option (Int × Item)) := do
  let time := (← n.get "created_at").orElse (← n.get "updated_at")
  match ← parseIsoTimestamp lib.toPyLib time with
  | none => return none
  | some occurredAt =>
      let desc ← strippedText (← n.get "description")
      return some (cid, {
        activityType := .note
        direction := .null
        occurredAt
        subject := noteSubject desc
        sourceKey := "note:" ++ lib.format (← n.get "id")
        raw := withoutHeavy n })

/-- The contact that a value of a `targetable` is the id of. -/
def contactIn (nogContactIds : Finset Int) : Json → Option Int
  | .num q => if q.den = 1 ∧ q.num ∈ nogContactIds then some q.num else none
  | _ => none

/-- `type_map.get(value, ACTIVITY_CALL)`. -/
def kindOf (typeMap : List (Json × ActivityType)) (value : Json) : Except PyError ActivityType := do
  let key ← hashKey value
  return ((typeMap.reverse.find? fun entry => entry.1 == key).map Prod.snd).getD .call

/-- A sales activity, if it is about one of the contacts and has a time. -/
def salesItem (lib : ActivityLib) (typeMap : List (Json × ActivityType)) (nogContactIds : Finset Int)
    (sa : Json) : Except PyError (Option (Int × Item)) := do
  let tgt := (← sa.get "targetable").orElse (.obj [])
  if (← tgt.get "type") ≠ .str "Contact" then return none
  else
    match contactIn nogContactIds (← hashKey (← tgt.get "id")) with
    -- a contact of another campaign
    | none => return none
    | some cid =>
        let time := (← sa.get "created_at").orElse (← sa.get "start_date")
        match ← parseIsoTimestamp lib.toPyLib time with
        | none => return none
        | some occurredAt =>
            let kind ← kindOf typeMap (← sa.get "sales_activity_type_id")
            return some (cid, {
              activityType := kind
              direction := .null
              occurredAt
              subject := ← sa.get "title"
              sourceKey := "sa:" ++ lib.format (← sa.get "id")
              raw := withoutHeavy sa })

/-! ## The CRM -/

/-- What the CRM answers. -/
structure Crm where
  owners : Except PyError Json
  /-- The search for a value of an attribute, by page. -/
  filteredSearch : String → String → ℕ → Except PyError Json
  conversations : Int → Except PyError Json
  notes : Int → Except PyError Json
  salesActivityTypes : Except PyError Json
  salesActivities : ℕ → Except PyError Json

/-- The list of an answer. -/
def listOf (key : String) (answer : Except PyError Json) : Except PyError (List Json) := do
  iterate (← getOr (← answer) key (.arr []))

/-- `owners_by_name`, later entries of a name last. -/
def ownersByName (answer : Except PyError Json) : Except PyError (List (Json × Json)) := do
  let users ← listOf "users" answer
  users.mapM fun u => do
    let name ← hashKey ((← u.get "display_name").orElse (← u.get "name"))
    return (name, ← u.get "id")

/-- `_activity_type_map`, later entries of an id last. -/
def activityTypeMap (py : LowerCase) (answer : Except PyError Json) :
    Except PyError (List (Json × ActivityType)) := do
  let types ← listOf "sales_activity_types" answer
  types.mapM fun t => do
    match (← t.get "name").orElse (.str "") with
    | .str name =>
        let kind := if "meet".toList <:+: (py.lower name).toList then ActivityType.meeting else .call
        return (← hashKey (← t.get "id"), kind)
    | _ => throw .attributeError

/-- `OWNER_CHOICES`. -/
def ownerChoices : List String := ["Jennifer Obute", "Clinton Osuji", "Karim"]

/-- `TIERS`. -/
def tiers : List String := ["Strategic", "Standard"]

/-- What is known about all contacts before the loop. -/
structure Directory where
  owners : List (Json × Json)
  ownerMap : Int → Option String
  tierMap : Int → Option String

/-- The requests before the loop, `none` where a search has not ended after `fuel` requests. -/
def directory (lib : ActivityLib) (crm : Crm) (fuel : ℕ) : Option (Except PyError Directory) :=
  match ownersByName crm.owners with
  | .error e => some (.error e)
  | .ok owners =>
      match bucketMap lib.intOfText (crm.filteredSearch "cf_owner") ownerChoices fuel with
      | none => none
      | some (.error e) => some (.error e)
      | some (.ok ownerMap) =>
          match bucketMap lib.intOfText (crm.filteredSearch "cf_prospect_tier") tiers fuel with
          | none => none
          | some (.error e) => some (.error e)
          | some (.ok tierMap) => some (.ok ⟨owners, ownerMap, tierMap⟩)

/-! ## The run -/

/-- `int(lead.crm_contact_id)`. -/
def contactOf (lib : ActivityLib) (lead : LeadRow) : Except PyError Int :=
  intOf lib.intOfText (Json.ofOption lead.2.crmContactId)

def contactsOf (lib : ActivityLib) (leads : List LeadRow) : Except PyError (List (Int × LeadRow)) :=
  leads.mapM fun lead => do
    let cid ← contactOf lib lead
    .ok (cid, lead)

/-- The name of a contact. -/
def contactName (lead : LeadRow) : Option String :=
  let name := strip (lead.2.firstName ++ " " ++ lead.2.lastName)
  if name = "" then none else some name

/-- `lead_by_contact.get(cid)`. -/
def leadByContact (contacts : List (Int × LeadRow)) (cid : Int) : Option LeadRow :=
  (contacts.reverse.find? fun p => p.1 == cid).map Prod.snd

/-- `owners_by_name.get(owner_name) if owner_name else None`. -/
def ownerIdOf (owners : List (Json × Json)) : Option String → Json
  | none => .null
  | some name =>
      if name = "" then .null
      else ((owners.reverse.find? fun entry => entry.1 == .str name).map Prod.snd).getD .null

/-- `_base`. -/
def baseOf (campaign : Campaign) (dir : Directory) (contacts : List (Int × LeadRow)) (cid : Int) :
    Base where
  campaignId := campaign.id
  contactId := cid
  contactName := (leadByContact contacts cid).bind contactName
  ownerName := dir.ownerMap cid
  ownerId := ownerIdOf dir.owners (dir.ownerMap cid)
  prospectTier := dir.tierMap cid

/-- A loop over remote items, each of which is upserted when it is read. -/
def recordEach (lib : ActivityLib) (base : Int → Base)
    (read : Json → Except PyError (Option (Int × Item))) :
    List Json → Session → Except PyError Session
  | [], s => .ok s
  | x :: xs, s => do
      match ← read x with
      | none => recordEach lib base read xs s
      | some (cid, item) => recordEach lib base read xs (← upsert lib (base cid) item s)

/-- The visit of a contact up to its commit. -/
def visitContact (lib : ActivityLib) (crm : Crm) (base : Int → Base) (cid : Int) (s : Session) :
    Except PyError Session := do
  let conv ← listOf "email_conversations" (crm.conversations cid)
  let s ← recordEach lib base (emailItem lib cid) conv s
  let notes ← listOf "notes" (crm.notes cid)
  let s ← recordEach lib base (noteItem lib cid) notes s
  return s.visited

/-- The loop over the contacts: what is committed in the end, and the exception that ended it. -/
def visitContacts (lib : ActivityLib) (crm : Crm) (base : Int → Base) :
    List Int → Session → Session × Option PyError
  | [], s => (s, none)
  | cid :: cids, s =>
      match visitContact lib crm base cid s with
      -- nothing is left of a visit that raises
      | .error e => (s, some e)
      | .ok s' => visitContacts lib crm base cids s'

/-- The calls and meetings, `none` where the pages have not ended after `fuel` requests. -/
def recordSales (lib : ActivityLib) (crm : Crm) (fuel : ℕ) (base : Int → Base)
    (nogContactIds : Finset Int) (s : Session) : Option (Except PyError Session) :=
  match activityTypeMap lib.py crm.salesActivityTypes with
  | .error e => some (.error e)
  | .ok typeMap =>
      match iterSalesActivities crm.salesActivities fuel with
      | none => none
      | some w => some do
          let s ← recordEach lib base (salesItem lib typeMap nogContactIds) w.yields s
          -- a request that fails comes after what has been yielded
          match w.raised with
          | some e => throw e
          | none => return s

/-- How a run ends. -/
inductive Outcome where
  | campaignNotFound
  | raised
  | counted (counters : Counters)

/-- What a run leaves. -/
structure SyncRun where
  table : ActivityTable
  outcome : Outcome

/-- The loop over the contacts and the one over the sales activities. -/
def syncContacts (lib : ActivityLib) (crm : Crm) (fuel : ℕ) (base : Int → Base) (cids : List Int)
    (t : ActivityTable) : Option SyncRun :=
  match visitContacts lib crm base cids ⟨t, {}⟩ with
  | (s, some _) => some ⟨s.table, .raised⟩
  | (s, none) =>
      match recordSales lib crm fuel base cids.toFinset s with
      | none => none
      | some (.error _) => some ⟨s.table, .raised⟩
      | some (.ok s') => some ⟨s'.table, .counted s'.counters⟩

/-- `NOG_SLUG`. -/
def nogSlug : String := "nog-2026"

/-- `run_nog_activity_sync`, for the leads as the query returns them. -/
def runNogActivitySync (lib : ActivityLib) (crm : Crm) (fuel : ℕ) (campaigns : List Campaign)
    (leads : List LeadRow) (limit : Option ℕ) (t : ActivityTable) : Option SyncRun :=
  match getBySlug campaigns nogSlug with
  | none => some ⟨t, .campaignNotFound⟩
  | some campaign =>
      match directory lib crm fuel with
      | none => none
      | some (.error _) => some ⟨t, .raised⟩
      | some (.ok dir) =>
          match contactsOf lib leads with
          | .error _ => some ⟨t, .raised⟩
          | .ok all =>
              -- the names come from the contacts below the limit
              let contacts := (limit.map all.take).getD all
              syncContacts lib crm fuel (baseOf campaign dir contacts) (contacts.map Prod.fst) t

/-! ## What a loop records -/

/-- The items that a loop reads. -/
def readAll (read : Json → Except PyError (Option (Int × Item))) :
    List Json → Except PyError (List (Int × Item))
  | [] => .ok []
  | x :: xs => do
      let found ← read x
      let rest ← readAll read xs
      .ok (found.toList ++ rest)

def recordAll (lib : ActivityLib) (base : Int → Base) (items : List (Int × Item)) (s : Session) :
    Session :=
  items.foldl (fun s p => s.record (activityRow lib (base p.1) p.2)) s

/-- The e-mails and notes with a time that the CRM lists under a contact. -/
def listed (lib : ActivityLib) (crm : Crm) (cid : Int) : Except PyError (List (Int × Item)) := do
  let emails ← readAll (emailItem lib cid) (← listOf "email_conversations" (crm.conversations cid))
  let notes ← readAll (noteItem lib cid) (← listOf "notes" (crm.notes cid))
  .ok (emails ++ notes)

/-- The sales activities with a time about one of the contacts. -/
def listedSales (lib : ActivityLib) (crm : Crm) (fuel : ℕ) (nogContactIds : Finset Int) :
    Option (Except PyError (List (Int × Item))) :=
  match activityTypeMap lib.py crm.salesActivityTypes with
  | .error e => some (.error e)
  | .ok typeMap =>
      match iterSalesActivities crm.salesActivities fuel with
      | none => none
      | some w => some do
          let items ← readAll (salesItem lib typeMap nogContactIds) w.yields
          match w.raised with
          | some e => throw e
          | none => .ok items

def listedItems (lib : ActivityLib) (crm : Crm) (cid : Int) : List (Int × Item) :=
  (listed lib crm cid).toOption.getD []

/-- The items of a run in the order in which they are recorded. -/
def allItems (lib : ActivityLib) (crm : Crm) (cids : List Int) (sales : List (Int × Item)) :
    List (Int × Item) :=
  cids.flatMap (listedItems lib crm) ++ sales

section Loops

variable {lib : ActivityLib} {crm : Crm} {fuel : ℕ} {base : Int → Base} {cid : Int} {cids : List Int}
  {read : Json → Except PyError (Option (Int × Item))} {xs : List Json} {s s' : Session}
  {items : List (Int × Item)} {ids : Finset Int}

/-- Every row of the items is one that the database takes. -/
def TakesAll (lib : ActivityLib) (base : Int → Base) (items : List (Int × Item)) : Prop :=
  ∀ p ∈ items, takesRow lib (base p.1) p.2

theorem recordAll_append (items items' : List (Int × Item)) :
    recordAll lib base (items ++ items') s = recordAll lib base items' (recordAll lib base items s) :=
  List.foldl_append

theorem takesAll_append {items' : List (Int × Item)} :
    TakesAll lib base (items ++ items') ↔ TakesAll lib base items ∧ TakesAll lib base items' :=
  List.forall_mem_append

/-- A loop that goes through records what it reads. -/
theorem recordEach_eq_ok_iff : recordEach lib base read xs s = .ok s' ↔
    ∃ items, readAll read xs = .ok items ∧ TakesAll lib base items ∧
      s' = recordAll lib base items s := by
  induction xs generalizing s with
  | nil =>
      constructor
      · intro h
        exact ⟨[], rfl, List.forall_mem_nil _, (Except.ok.inj h).symm⟩
      · rintro ⟨items, h, -, rfl⟩
        rw [← Except.ok.inj h]
        rfl
  | cons x xs ih =>
      rw [recordEach, bind_eq_ok]
      constructor
      · rintro ⟨found, hfound, h⟩
        cases found with
        | none =>
            obtain ⟨items, hitems, hrest⟩ := ih.1 h
            refine ⟨items, ?_, hrest⟩
            rw [readAll, hfound, hitems]
            rfl
        | some p =>
            obtain ⟨s₁, hupsert, h⟩ := bind_eq_ok.1 h
            obtain ⟨items, hitems, htakes, rfl⟩ := ih.1 h
            rw [upsert] at hupsert
            split at hupsert
            · rename_i htakesRow
              refine ⟨p :: items, ?_, List.forall_mem_cons.2 ⟨htakesRow, htakes⟩, ?_⟩
              · rw [readAll, hfound, hitems]
                rfl
              · rw [← Except.ok.inj hupsert]
                rfl
            · cases hupsert
      · rintro ⟨items, hitems, htakes, rfl⟩
        obtain ⟨found, hfound, hitems⟩ := bind_eq_ok.1 hitems
        obtain ⟨rest, hrest, hitems⟩ := bind_eq_ok.1 hitems
        obtain rfl := Except.ok.inj hitems
        refine ⟨found, hfound, ?_⟩
        cases found with
        | none => exact ih.2 ⟨rest, hrest, htakes, rfl⟩
        | some p =>
            obtain ⟨htakesRow, htakes⟩ := List.forall_mem_cons.1 htakes
            exact bind_eq_ok.2 ⟨_, if_pos htakesRow, ih.2 ⟨rest, hrest, htakes, rfl⟩⟩

theorem rows_recordAll : (recordAll lib base items s).table.rows =
    Keyed.putAll Activity.sourceKey (items.map fun p => activityRow lib (base p.1) p.2)
      s.table.rows := by
  induction items generalizing s with
  | nil => rfl
  | cons p items ih => exact ih

theorem visitContact_eq_ok_iff : visitContact lib crm base cid s = .ok s' ↔
    ∃ items, listed lib crm cid = .ok items ∧ TakesAll lib base items ∧
      s' = (recordAll lib base items s).visited := by
  constructor
  · intro h
    obtain ⟨conv, hconv, h⟩ := bind_eq_ok.1 h
    obtain ⟨s₁, hemails, h⟩ := bind_eq_ok.1 h
    obtain ⟨notes, hnotes, h⟩ := bind_eq_ok.1 h
    obtain ⟨s₂, hlast, h⟩ := bind_eq_ok.1 h
    obtain rfl := Except.ok.inj h
    obtain ⟨emails, hread, htakes, rfl⟩ := recordEach_eq_ok_iff.1 hemails
    obtain ⟨notes', hread', htakes', rfl⟩ := recordEach_eq_ok_iff.1 hlast
    refine ⟨emails ++ notes', ?_, takesAll_append.2 ⟨htakes, htakes'⟩, ?_⟩
    · refine bind_eq_ok.2 ⟨conv, hconv, bind_eq_ok.2 ⟨emails, hread, ?_⟩⟩
      exact bind_eq_ok.2 ⟨notes, hnotes, bind_eq_ok.2 ⟨notes', hread', rfl⟩⟩
    · rw [recordAll_append]
  · rintro ⟨items, hlisted, htakes, rfl⟩
    obtain ⟨conv, hconv, h⟩ := bind_eq_ok.1 hlisted
    obtain ⟨emails, hread, h⟩ := bind_eq_ok.1 h
    obtain ⟨notes, hnotes, h⟩ := bind_eq_ok.1 h
    obtain ⟨notes', hread', h⟩ := bind_eq_ok.1 h
    obtain rfl := Except.ok.inj h
    obtain ⟨htakes, htakes'⟩ := takesAll_append.1 htakes
    have hemails : recordEach lib base (emailItem lib cid) conv s = .ok (recordAll lib base emails s) :=
      recordEach_eq_ok_iff.2 ⟨emails, hread, htakes, rfl⟩
    have hlast : recordEach lib base (noteItem lib cid) notes (recordAll lib base emails s) =
        .ok (recordAll lib base (emails ++ notes') s) :=
      recordEach_eq_ok_iff.2 ⟨notes', hread', htakes', recordAll_append emails notes'⟩
    refine bind_eq_ok.2 ⟨conv, hconv, bind_eq_ok.2 ⟨_, hemails, ?_⟩⟩
    exact bind_eq_ok.2 ⟨notes, hnotes, bind_eq_ok.2 ⟨_, hlast, rfl⟩⟩

/-- The CRM lists the items of a contact, and the database takes their rows. -/
def Visitable (lib : ActivityLib) (crm : Crm) (base : Int → Base) (cid : Int) : Prop :=
  ∃ items, listed lib crm cid = .ok items ∧ TakesAll lib base items

/-- The loop over the contacts goes through exactly when each visit does, and records their items. -/
theorem visitContacts_spec : (∃ s', visitContacts lib crm base cids s = (s', none)) ↔
    ∀ cid ∈ cids, Visitable lib crm base cid := by
  induction cids generalizing s with
  | nil => exact ⟨fun _ => List.forall_mem_nil _, fun _ => ⟨s, rfl⟩⟩
  | cons cid cids ih =>
      rw [List.forall_mem_cons, visitContacts]
      cases hvisit : visitContact lib crm base cid s with
      | error e =>
          constructor
          · rintro ⟨s', h⟩
            cases h
          · rintro ⟨⟨items, hlisted, htakes⟩, -⟩
            rw [visitContact_eq_ok_iff.2 ⟨items, hlisted, htakes, rfl⟩] at hvisit
            cases hvisit
      | ok s₁ =>
          -- whether a visit goes through does not depend on what has been recorded before
          obtain ⟨items, hlisted, htakes, -⟩ := visitContact_eq_ok_iff.1 hvisit
          rw [and_iff_right ⟨items, hlisted, htakes⟩]
          exact ih

theorem rows_visitContacts (h : visitContacts lib crm base cids s = (s', none)) :
    s'.table.rows = Keyed.putAll Activity.sourceKey
      ((cids.flatMap (listedItems lib crm)).map fun p => activityRow lib (base p.1) p.2)
        s.table.rows := by
  induction cids generalizing s with
  | nil =>
      cases h
      rfl
  | cons cid cids ih =>
      rw [visitContacts] at h
      cases hvisit : visitContact lib crm base cid s with
      | error e =>
          rw [hvisit] at h
          cases h
      | ok s₁ =>
          rw [hvisit] at h
          obtain ⟨items, hlisted, -, rfl⟩ := visitContact_eq_ok_iff.1 hvisit
          have hitems : listedItems lib crm cid = items := by
            rw [listedItems, hlisted]
            rfl
          have hhead : (recordAll lib base items s).visited.table.rows = _ := rows_recordAll
          rw [ih h, List.flatMap_cons, hitems, List.map_append, Keyed.putAll_append, hhead]

theorem recordSales_eq_ok_iff : recordSales lib crm fuel base ids s = some (.ok s') ↔
    ∃ items, listedSales lib crm fuel ids = some (.ok items) ∧ TakesAll lib base items ∧
      s' = recordAll lib base items s := by
  rw [recordSales, listedSales]
  cases activityTypeMap lib.py crm.salesActivityTypes with
  | error e => simp
  | ok typeMap =>
      cases iterSalesActivities crm.salesActivities fuel with
      | none => simp
      | some w =>
          obtain ⟨yields, requests, raised⟩ := w
          simp only [Option.some.injEq]
          cases raised with
          | some e =>
              constructor
              · intro h
                obtain ⟨s₁, -, h⟩ := bind_eq_ok.1 h
                cases h
              · rintro ⟨items, h, -⟩
                obtain ⟨items', -, h⟩ := bind_eq_ok.1 h
                cases h
          | none =>
              constructor
              · intro h
                obtain ⟨s₁, hrecord, h⟩ := bind_eq_ok.1 h
                obtain rfl := Except.ok.inj h
                obtain ⟨items, hread, htakes⟩ := recordEach_eq_ok_iff.1 hrecord
                exact ⟨items, bind_eq_ok.2 ⟨items, hread, rfl⟩, htakes⟩
              · rintro ⟨items, h, htakes⟩
                obtain ⟨items', hread, h⟩ := bind_eq_ok.1 h
                obtain rfl := Except.ok.inj h
                exact bind_eq_ok.2 ⟨s', recordEach_eq_ok_iff.2 ⟨items', hread, htakes⟩, rfl⟩

end Loops

/-! ## A run that goes through -/

section Runs

variable {lib : ActivityLib} {crm : Crm} {fuel : ℕ} {base : Int → Base} {cids : List Int}
  {campaigns : List Campaign} {leads : List LeadRow} {t t' : ActivityTable}

/-- What a run reads when it goes through. -/
structure Reads (lib : ActivityLib) (crm : Crm) (fuel : ℕ) (base : Int → Base) (cids : List Int)
    (sales : List (Int × Item)) : Prop where
  visits : ∀ cid ∈ cids, Visitable lib crm base cid
  sales_eq : listedSales lib crm fuel cids.toFinset = some (.ok sales)
  takes : TakesAll lib base sales

/-- The rows that a run puts into the table. -/
def written (lib : ActivityLib) (crm : Crm) (base : Int → Base) (cids : List Int)
    (sales : List (Int × Item)) : List Activity :=
  (allItems lib crm cids sales).map fun p => activityRow lib (base p.1) p.2

theorem ActivityTable.ext_rows (h : t.rows = t'.rows) : t = t' := by
  cases t
  cases t'
  cases h
  rfl

theorem rows_final {s : Session} {sales : List (Int × Item)}
    (hvisits : visitContacts lib crm base cids ⟨t, {}⟩ = (s, none)) :
    (recordAll lib base sales s).table.rows =
      Keyed.putAll Activity.sourceKey (written lib crm base cids sales) t.rows := by
  rw [rows_recordAll, rows_visitContacts hvisits, written, allItems, List.map_append,
    Keyed.putAll_append]

theorem syncContacts_counted_iff :
    (∃ c, syncContacts lib crm fuel base cids t = some ⟨t', .counted c⟩) ↔
      ∃ sales, Reads lib crm fuel base cids sales ∧
        t'.rows = Keyed.putAll Activity.sourceKey (written lib crm base cids sales) t.rows := by
  rw [syncContacts]
  constructor
  · rintro ⟨c, h⟩
    cases hvisits : visitContacts lib crm base cids ⟨t, {}⟩ with
    | mk s raised =>
        rw [hvisits] at h
        cases raised with
        | some e => cases h
        | none =>
            dsimp only at h
            cases hsales : recordSales lib crm fuel base cids.toFinset s with
            | none =>
                rw [hsales] at h
                cases h
            | some answer =>
                rw [hsales] at h
                cases answer with
                | error e => cases h
                | ok s' =>
                    cases h
                    obtain ⟨sales, hlisted, htakes, rfl⟩ := recordSales_eq_ok_iff.1 hsales
                    exact ⟨sales, ⟨visitContacts_spec.1 ⟨s, hvisits⟩, hlisted, htakes⟩,
                      rows_final hvisits⟩
  · rintro ⟨sales, hreads, hrows⟩
    obtain ⟨s, hvisits⟩ := (visitContacts_spec (s := ⟨t, {}⟩)).2 hreads.visits
    have hsales : recordSales lib crm fuel base cids.toFinset s =
        some (.ok (recordAll lib base sales s)) :=
      recordSales_eq_ok_iff.2 ⟨sales, hreads.sales_eq, hreads.takes, rfl⟩
    rw [hvisits]
    dsimp only
    rw [hsales]
    have htable : (recordAll lib base sales s).table = t' :=
      ActivityTable.ext_rows ((rows_final hvisits).trans hrows.symm)
    exact ⟨_, congrArg (fun t => some (SyncRun.mk t _)) htable⟩

/-- **A run that goes through** puts the rows of what it has read into the table. -/
theorem sync_counted_iff {campaign : Campaign}
    (hcampaign : getBySlug campaigns nogSlug = some campaign) :
    (∃ c, runNogActivitySync lib crm fuel campaigns leads none t = some ⟨t', .counted c⟩) ↔
      ∃ dir contacts sales, directory lib crm fuel = some (.ok dir) ∧
        contactsOf lib leads = .ok contacts ∧
        Reads lib crm fuel (baseOf campaign dir contacts) (contacts.map Prod.fst) sales ∧
        t'.rows = Keyed.putAll Activity.sourceKey
          (written lib crm (baseOf campaign dir contacts) (contacts.map Prod.fst) sales) t.rows := by
  rw [runNogActivitySync, hcampaign]
  dsimp only
  constructor
  · rintro ⟨c, h⟩
    cases hdir : directory lib crm fuel with
    | none =>
        rw [hdir] at h
        cases h
    | some answer =>
        rw [hdir] at h
        cases answer with
        | error e => cases h
        | ok dir =>
            cases hcontacts : contactsOf lib leads with
            | error e =>
                rw [hcontacts] at h
                cases h
            | ok contacts =>
                rw [hcontacts] at h
                obtain ⟨sales, hsales⟩ := syncContacts_counted_iff.1 ⟨c, h⟩
                exact ⟨dir, contacts, sales, rfl, rfl, hsales⟩
  · rintro ⟨dir, contacts, sales, hdir, hcontacts, hsales⟩
    rw [hdir, hcontacts]
    exact syncContacts_counted_iff.2 ⟨sales, hsales⟩

end Runs

end SalesTrades.Leads.NogActivitySync
