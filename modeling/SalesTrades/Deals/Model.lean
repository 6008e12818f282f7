import Mathlib.Logic.Function.Basic
import SalesTrades.Library.PartialRecord
import SalesTrades.Python

/-!
# The deals mirror

`deals_snapshot` and `deal_events` with the reference tables they depend on. A snapshot row is a
partial record over the columns of the table. The foreign keys of the snapshot are a field of the
database, so a row that points to an unknown pipeline, stage or owner cannot be stored. The libraries
that parse, validate and encode values are the parameter `PyLib`.
-/

set_option autoImplicit false

namespace SalesTrades.Deals

open SalesTrades.Library

/-! ## Columns -/

/-- A calendar day, counted from the epoch. -/
structure Date where
  day : Int
  deriving DecidableEq

/-- `datetime.date()`. -/
def dateOf (dt : Datetime) : Date := ⟨dt.wall / 86400000000⟩

/-- The members of a JSON object. -/
abbrev JsonObject : Type := List (String × Json)

inductive ColumnType where
  | bigint
  | integer
  | text
  | numeric
  | date
  | timestamp
  | jsonb
  deriving DecidableEq

abbrev ColumnType.Value : ColumnType → Type
  | .bigint => Int
  | .integer => Int
  | .text => String
  | .numeric => ℚ
  | .date => Date
  | .timestamp => Datetime
  | .jsonb => JsonObject

/-- The columns of `deals_snapshot` other than the key. -/
inductive DealColumn where
  | pipelineId
  | stageId
  | ownerId
  | name
  | amount
  | baseCurrencyAmount
  | expectedCloseDate
  | stageUpdatedAt
  | ageDays
  | rottenDays
  | salesAccountId
  | salesAccountName
  | cfProject
  | cfFloor
  | cfSqmSize
  | cfProductCategory
  | cfTerm
  | cfStartDate
  | cfTermEndDate
  | cfDealStatus
  | cfTotalLeaseAmount
  | dealCreatedAt
  | lostReason
  | lostReasonId
  | customFields
  | rawPayload
  deriving DecidableEq

def DealColumn.all : List DealColumn :=
  [.pipelineId, .stageId, .ownerId, .name, .amount, .baseCurrencyAmount, .expectedCloseDate,
    .stageUpdatedAt, .ageDays, .rottenDays, .salesAccountId, .salesAccountName, .cfProject, .cfFloor,
    .cfSqmSize, .cfProductCategory, .cfTerm, .cfStartDate, .cfTermEndDate, .cfDealStatus,
    .cfTotalLeaseAmount, .dealCreatedAt, .lostReason, .lostReasonId, .customFields, .rawPayload]

theorem DealColumn.mem_all (c : DealColumn) : c ∈ DealColumn.all := by
  cases c <;> decide

abbrev DealColumn.type : DealColumn → ColumnType
  | .pipelineId | .stageId | .ownerId | .salesAccountId | .lostReasonId => .bigint
  | .ageDays | .rottenDays => .integer
  | .name | .salesAccountName | .cfProject | .cfFloor | .cfProductCategory | .cfDealStatus
  | .lostReason => .text
  | .amount | .baseCurrencyAmount | .cfSqmSize | .cfTerm | .cfTotalLeaseAmount => .numeric
  | .expectedCloseDate | .cfStartDate | .cfTermEndDate => .date
  | .stageUpdatedAt | .dealCreatedAt => .timestamp
  | .customFields | .rawPayload => .jsonb

abbrev DealColumn.Value (c : DealColumn) : Type := c.type.Value

/-- `DealSnapshot`. -/
abbrev DealRow : Type := PartialRecord DealColumn.Value

/-- Where a deal stands: the columns whose changes the event log is about. -/
structure Position where
  pipelineId : Option Int
  stageId : Option Int
  ownerId : Option Int
  deriving DecidableEq

namespace DealRow

def pipelineId (row : DealRow) : Option Int := row .pipelineId

def stageId (row : DealRow) : Option Int := row .stageId

def ownerId (row : DealRow) : Option Int := row .ownerId

def position (row : DealRow) : Position where
  pipelineId := row.pipelineId
  stageId := row.stageId
  ownerId := row.ownerId

end DealRow

/-! ## Libraries -/

/-- What fits a `BIGINT` column. -/
def IsBigint (n : Int) : Prop := -9223372036854775808 ≤ n ∧ n < 9223372036854775808

instance (n : Int) : Decidable (IsBigint n) := inferInstanceAs (Decidable (_ ∧ _))

/-- What fits an `INTEGER` column. -/
def IsInteger (n : Int) : Prop := -2147483648 ≤ n ∧ n < 2147483648

instance (n : Int) : Decidable (IsInteger n) := inferInstanceAs (Decidable (_ ∧ _))

/-- The integer a JSON value equals in Python, where `True` is 1 and `False` is 0. -/
def pyInt : Json → Option Int
  | .num q => if q.den = 1 then some q.num else none
  | .bool b => some (if b then 1 else 0)
  | _ => none

/-- The library functions whose results the mirror stores: `datetime` and `float`, the field
validators of the request model, and the encoders of the database driver. A format error is `none`
or a `valueError`. -/
structure PyLib where
  /-- `datetime.strptime(value, format)`. -/
  strptime : String → String → Option Datetime
  /-- `naive.replace(tzinfo=tz).astimezone(UTC)` in the configured time zone. -/
  toUtc : Datetime → Except PyError Datetime
  /-- `datetime.fromisoformat(value)`. -/
  timestampFromIso : String → Option Datetime
  /-- `dt.astimezone(UTC)`. -/
  astimezoneUtc : Datetime → Except PyError Datetime
  /-- `date.fromisoformat(value)`. -/
  dateFromIso : String → Option Date
  /-- `float(value)`. -/
  float : Json → Except PyError ℚ
  /-- An `int` field of the request model. -/
  intField : Json → Option Int
  /-- A `float` field of the request model. -/
  floatField : Json → Option ℚ
  /-- The encoders of the driver, `none` where the value is rejected. -/
  encodeBigint : Json → Option Int
  encodeInteger : Json → Option Int
  encodeText : Json → Option String
  encodeNumeric : Json → Option ℚ
  encodeBigint_of_pyInt : ∀ j n, pyInt j = some n → IsBigint n → encodeBigint j = some n

/-! ## Values given to the driver -/

/-- A Python value for a column: already of the type of the column, or a JSON value passed on as it
was received. -/
inductive Cell (t : ColumnType) where
  | typed (v : t.Value)
  | raw (j : Json)

/-- Whether a value of the right type is in the range of the column. -/
def ColumnType.fits : (t : ColumnType) → t.Value → Bool
  | .bigint, n => decide (IsBigint n)
  | .integer, n => decide (IsInteger n)
  | .text, s => isText s
  | .jsonb, members => Json.isStorableMembers members
  | .numeric, _ | .date, _ | .timestamp, _ => true

/-- How the driver encodes a JSON value. It takes no JSON value for a date or a time stamp, and none
is passed on for them or for a JSON column. -/
def PyLib.encodeRaw (lib : PyLib) : (t : ColumnType) → Json → Option t.Value
  | .bigint, j => lib.encodeBigint j
  | .integer, j => lib.encodeInteger j
  | .text, j => lib.encodeText j
  | .numeric, j => lib.encodeNumeric j
  | .date, _ => none
  | .timestamp, _ => none
  | .jsonb, _ => none

def Cell.encode (lib : PyLib) {t : ColumnType} : Cell t → Option t.Value
  | .typed v => if t.fits v then some v else none
  | .raw j => lib.encodeRaw t j

/-- The data of an upsert: the columns that are present, none of them `None`. -/
abbrev DealData : Type := PartialRecord fun c : DealColumn => Cell c.type

/-- The driver accepts every value. -/
def DealData.Encodable (lib : PyLib) (data : DealData) : Prop :=
  ∀ c, (data c).all (fun v => (v.encode lib).isSome) = true

instance (lib : PyLib) (data : DealData) : Decidable (data.Encodable lib) :=
  decidable_of_iff (∀ c ∈ DealColumn.all, (data c).all (fun v => (v.encode lib).isSome) = true)
    ⟨fun h c => h c c.mem_all, fun h c _ => h c⟩

/-- The encoded values. -/
def DealData.encoded (lib : PyLib) (data : DealData) : DealRow := fun c =>
  (data c).bind (Cell.encode lib)

/-- In data the driver accepts, the columns that are absent are those without a value. -/
theorem encoded_eq_none_iff {lib : PyLib} {data : DealData} (h : data.Encodable lib)
    {c : DealColumn} : data.encoded lib c = none ↔ data c = none := by
  cases hc : data c with
  | none => simp [DealData.encoded, hc]
  | some v =>
      have hv := h c
      rw [hc, Option.all_some] at hv
      rw [DealData.encoded, hc, Option.bind_some]
      simp only [reduceCtorEq, iff_false]
      intro hnone
      rw [hnone] at hv
      cases hv

/-- A value of the right type is stored as it is. -/
theorem encoded_of_typed {lib : PyLib} {data : DealData} (h : data.Encodable lib) {c : DealColumn}
    {o : Option c.Value} (hc : data c = o.map .typed) : data.encoded lib c = o := by
  cases o with
  | none => rw [encoded_eq_none_iff h, hc, Option.map_none]
  | some v =>
      have hv := h c
      rw [hc, Option.map_some, Option.all_some, Cell.encode] at hv
      rw [DealData.encoded, hc, Option.map_some, Option.bind_some, Cell.encode]
      split at hv
      · rename_i hfits
        rw [if_pos hfits]
      · cases hv

/-! ## Tables -/

structure Pipeline where
  id : Int
  name : String
  isDefault : Bool
  isActive : Bool
  deriving DecidableEq

structure Stage where
  id : Int
  pipelineId : Int
  name : String
  deriving DecidableEq

/-- `pipelines`, `stages` and the ids in `owners`. -/
structure Reference where
  pipelines : List Pipeline
  stages : List Stage
  owners : List Int
  pipelines_nodup : (pipelines.map Pipeline.id).Nodup
  stages_nodup : (stages.map Stage.id).Nodup
  stage_pipeline : ∀ s ∈ stages, s.pipelineId ∈ pipelines.map Pipeline.id
  bigint_pipeline : ∀ p ∈ pipelines, IsBigint p.id
  bigint_stage : ∀ s ∈ stages, IsBigint s.id
  bigint_owner : ∀ o ∈ owners, IsBigint o

namespace Reference

def pipelineIds (ref : Reference) : List Int := ref.pipelines.map Pipeline.id

def stageIds (ref : Reference) : List Int := ref.stages.map Stage.id

/-- The foreign keys of a snapshot row. -/
def Allows (ref : Reference) (row : DealRow) : Prop :=
  (∀ p ∈ row.pipelineId, p ∈ ref.pipelineIds) ∧ (∀ s ∈ row.stageId, s ∈ ref.stageIds) ∧
    ∀ o ∈ row.ownerId, o ∈ ref.owners

instance (ref : Reference) (row : DealRow) : Decidable (ref.Allows row) :=
  inferInstanceAs (Decidable (_ ∧ _ ∧ _))

end Reference

inductive EventType where
  | created
  | stageChange
  | ownerChange
  deriving DecidableEq

inductive EventSource where
  | webhook
  | timelineBackfill
  deriving DecidableEq

/-- `DealEvent`. -/
structure DealEvent where
  dealId : Int
  eventType : EventType
  oldPipelineId : Option Int := none
  newPipelineId : Option Int := none
  oldStageId : Option Int := none
  newStageId : Option Int := none
  oldOwnerId : Option Int := none
  newOwnerId : Option Int := none
  occurredAt : Datetime
  source : EventSource
  rawPayload : JsonObject
  deriving DecidableEq

/-- The `jsonb` column takes the payload of the event. -/
def DealEvent.isStorable (e : DealEvent) : Bool := Json.isStorableMembers e.rawPayload

/-- `deals_snapshot` by deal id, and `deal_events` in the order of insertion. -/
structure DealDb (ref : Reference) where
  deals : Int → Option DealRow
  events : List DealEvent
  fk : ∀ id, ∀ row ∈ deals id, ref.Allows row

namespace DealDb

variable {ref : Reference}

/-- The database before anything is mirrored. -/
def empty (ref : Reference) : DealDb ref where
  deals := fun _ => none
  events := []
  fk := by simp

/-- `row` stored under `id`. -/
def put (db : DealDb ref) (id : Int) (row : DealRow) (h : ref.Allows row) : DealDb ref where
  deals := Function.update db.deals id (some row)
  events := db.events
  fk := by
    intro id' row' hrow'
    by_cases hid : id' = id
    · subst hid
      rw [Function.update_self, Option.mem_some_iff] at hrow'
      exact hrow' ▸ h
    · rw [Function.update_of_ne hid] at hrow'
      exact db.fk id' row' hrow'

/-- The events appended to `deal_events`. -/
def logEvents (db : DealDb ref) (events : List DealEvent) : DealDb ref :=
  { db with events := db.events ++ events }

/-- `events_repo.insert_event` for each of the events. -/
def insertEvents (db : DealDb ref) (events : List DealEvent) : Except PyError (DealDb ref) :=
  if events.all DealEvent.isStorable then .ok (db.logEvents events) else .error .dataError

/-- What an upsert of `deal_id` lays its data over. -/
def rowOrEmpty (db : DealDb ref) (id : Int) : DealRow := (db.deals id).getD PartialRecord.empty

@[simp] theorem put_deals_self (db : DealDb ref) (id : Int) (row : DealRow) (h : ref.Allows row) :
    (db.put id row h).deals id = some row := by
  simp [put]

theorem put_deals_of_ne (db : DealDb ref) {id id' : Int} (row : DealRow) (h : ref.Allows row)
    (hne : id' ≠ id) : (db.put id row h).deals id' = db.deals id' := by
  simp [put, hne]

@[simp] theorem put_events (db : DealDb ref) (id : Int) (row : DealRow) (h : ref.Allows row) :
    (db.put id row h).events = db.events := rfl

theorem rowOrEmpty_of_some {db : DealDb ref} {id : Int} {row : DealRow}
    (h : db.deals id = some row) : db.rowOrEmpty id = row := by
  simp [rowOrEmpty, h]

theorem rowOrEmpty_of_none {db : DealDb ref} {id : Int} (h : db.deals id = none) :
    db.rowOrEmpty id = PartialRecord.empty := by
  simp [rowOrEmpty, h]

theorem allows_rowOrEmpty (db : DealDb ref) (id : Int) : ref.Allows (db.rowOrEmpty id) := by
  cases hrow : db.deals id with
  | none =>
      rw [rowOrEmpty_of_none hrow]
      exact ⟨by rintro _ ⟨⟩, by rintro _ ⟨⟩, by rintro _ ⟨⟩⟩
  | some row =>
      rw [rowOrEmpty_of_some hrow]
      exact db.fk id row hrow

end DealDb

/-! ## Upserts -/

section Upsert

variable {ref : Reference} {lib : PyLib} {db db' : DealDb ref} {id : Int} {data : DealData}

/-- `deals_repo.upsert_deal`: the columns in `data` are written, the others are left as they are. -/
def upsertDeal (lib : PyLib) (db : DealDb ref) (id : Int) (data : DealData) :
    Except PyError (DealDb ref) :=
  if data.Encodable lib then
    if h : ref.Allows (PartialRecord.overlay (data.encoded lib) (db.rowOrEmpty id)) then
      .ok (db.put id _ h)
    else .error .integrityError
  else .error .dataError

/-- What an upsert that goes through has done. -/
theorem upsertDeal_spec (h : upsertDeal lib db id data = .ok db') :
    data.Encodable lib ∧
      db'.deals id = some (PartialRecord.overlay (data.encoded lib) (db.rowOrEmpty id)) ∧
      (∀ id', id' ≠ id → db'.deals id' = db.deals id') ∧ db'.events = db.events := by
  rw [upsertDeal] at h
  split at h
  · rename_i henc
    split at h
    · cases h
      refine ⟨henc, DealDb.put_deals_self .., ?_, DealDb.put_events ..⟩
      intro id' hne
      exact DealDb.put_deals_of_ne db _ _ hne
    · cases h
  · cases h

/-- An upsert goes through when the driver takes its values and the row keeps the foreign keys. -/
theorem upsertDeal_ok (henc : data.Encodable lib)
    (hfk : ref.Allows (PartialRecord.overlay (data.encoded lib) (db.rowOrEmpty id))) :
    ∃ db', upsertDeal lib db id data = .ok db' := by
  exact ⟨db.put id _ hfk, by simp [upsertDeal, henc, hfk]⟩

end Upsert

end SalesTrades.Deals
