import Mathlib
import SalesTrades.Library.Table
import SalesTrades.Python

/-!
# Room bookings

The `bookings` table and the booking service. `create_booking` and `cancel_booking` are given step
by step, one database statement or commit at a time, so that requests can be interleaved: a
`Phase` is where a request stands and what its session holds, `step` is its next step. What a step
reads from outside the database (the clock, the random access code, whether the mail goes out) is in
`Outside`.
-/

set_option autoImplicit false

namespace SalesTrades.Bookings

open SalesTrades.Library

inductive BookingStatus where
  | confirmed
  | cancelled
  deriving DecidableEq

/-- The slot of a booking. `create_booking` rejects a slot that does not end after it starts, and
nothing else writes the two columns. -/
structure Slot where
  startTime : Int
  endTime : Int
  start_lt_end : startTime < endTime

/-- The instants of a slot, its end excluded. -/
def Slot.interval (s : Slot) : Set Int := Set.Ico s.startTime s.endTime

/-- A row of `bookings`. -/
structure Booking where
  roomId : Nat
  bookerName : String
  bookerEmail : String
  title : Option String
  slot : Slot
  accessCode : String
  status : BookingStatus

structure Room where
  id : Nat
  isActive : Bool

/-- The only constraint the migration creates on `bookings`, beside the keys, is the unique index on
the access code. -/
abbrev BookingTable := Table fun b : Booking => some b.accessCode

structure Db where
  rooms : List Room
  bookings : BookingTable

/-- The WHERE clause on the slots in `find_overlapping`. -/
def overlaps (existing new : Slot) : Bool :=
  decide (existing.startTime < new.endTime) && decide (new.startTime < existing.endTime)

/-- The clause tests exactly whether the half-open intervals meet. -/
theorem overlaps_iff (a b : Slot) : overlaps a b = true ↔ ¬ Disjoint a.interval b.interval := by
  have ha := a.start_lt_end
  have hb := b.start_lt_end
  rw [Slot.interval, Slot.interval, Set.Ico_disjoint_Ico]
  simp only [overlaps, Bool.and_eq_true, decide_eq_true_eq]
  omega

/-- The WHERE clause of `find_overlapping`. -/
def holdsSlot (roomId : Nat) (slot : Slot) (b : Booking) : Bool :=
  b.roomId == roomId && b.status == .confirmed && overlaps b.slot slot

/-- A confirmed booking on the room that overlaps the slot. -/
def findOverlapping (t : BookingTable) (roomId : Nat) (slot : Slot) : Option (Nat × Booking) :=
  t.first (holdsSlot roomId slot)

def getByAccessCode (t : BookingTable) (code : String) : Option (Nat × Booking) :=
  t.first fun b => b.accessCode == code

def getRoom (db : Db) (id : Nat) : Option Room := db.rooms.find? fun r => r.id == id

/-- The arguments of `create_booking`. -/
structure CreateRequest where
  roomId : Nat
  bookerName : String
  bookerEmail : String
  startTime : Datetime
  endTime : Datetime
  title : Option String

/-- How a cancellation names its booking: `cancel_booking` by code, `cancel_booking_by_id`. -/
inductive CancelKey where
  | accessCode (code : String)
  | bookingId (id : Nat)

/-- The domain errors with their texts, and what else leaves the service. -/
inductive BookingError where
  | invalidBookingTime (detail : String)
  | roomNotFound (detail : String)
  | bookingConflict (detail : String)
  | bookingNotFound (detail : String)
  | python (e : PyError)

/-- What one step reads from outside the database. -/
structure Outside where
  now : Int
  accessCode : String
  mailed : Bool

/-- Where a request stands. `attempting` is inside the retry loop, with the number of the attempt
and whether an earlier one was rolled back; `checkedAt` is a history variable, the next booking id
when the overlap SELECT ran. `confirming` is after the commit, before the mail. -/
inductive Phase where
  | create (req : CreateRequest)
  | attempting (booking : Booking) (checkedAt attempt : Nat) (rolledBack : Bool)
  | confirming (bookingId : Nat) (rolledBack : Bool)
  | created (bookingId : Nat) (emailSent : Bool)
  | cancel (key : CancelKey)
  | cancelling (bookingId : Nat)
  | cancelled (bookingId : Nat)
  | raised (e : BookingError)

def codeMaxAttempts : Nat := 5

/-- `create_booking` up to the retry loop: the checks, the overlap SELECT, the new object. -/
def checkRequest (o : Outside) (db : Db) (req : CreateRequest) : Except BookingError Booking :=
  let startTime := (ensureAware req.startTime).instant
  let endTime := (ensureAware req.endTime).instant
  if h : endTime ≤ startTime then
    .error (.invalidBookingTime "end_time must be after start_time")
  else if startTime < o.now then
    .error (.invalidBookingTime "cannot book a slot in the past")
  else
    -- a missing room and an inactive one give the same error
    match getRoom db req.roomId with
    | none => .error (.roomNotFound s!"room {req.roomId} not found or inactive")
    | some room =>
        if room.isActive = false then
          .error (.roomNotFound s!"room {req.roomId} not found or inactive")
        else
          let slot : Slot := ⟨startTime, endTime, Int.not_le.1 h⟩
          match findOverlapping db.bookings req.roomId slot with
          | some _ =>
              .error (.bookingConflict "the room is already booked for an overlapping time")
          | none =>
              .ok
                { roomId := req.roomId
                  bookerName := req.bookerName
                  bookerEmail := req.bookerEmail
                  title := req.title
                  slot := slot
                  accessCode := o.accessCode
                  status := .confirmed }

/-- The booking a cancellation names. -/
def findForCancel (t : BookingTable) : CancelKey → Except BookingError (Nat × Booking)
  | .accessCode code =>
      match getByAccessCode t code with
      | some q => .ok q
      | none => .error (.bookingNotFound s!"no booking for access code {code}")
  | .bookingId id =>
      match t.get? id with
      | some q => .ok q
      | none => .error (.bookingNotFound s!"no booking with id {id}")

/-- The next step of a request; a request that has returned or raised takes none. -/
def step (o : Outside) (db : Db) : Phase → Option (Db × Phase)
  | .create req =>
      match checkRequest o db req with
      | .error e => some (db, .raised e)
      | .ok booking => some (db, .attempting booking db.bookings.nextId 0 false)
  | .attempting booking checkedAt attempt rolledBack =>
      -- only the unique index is consulted here, the slot is not checked again
      match db.bookings.insert booking with
      | some (id, t) => some ({ db with bookings := t }, .confirming id rolledBack)
      | none =>
          -- the unique index rejected the code: rollback, and a new code unless it was the last try
          if attempt = codeMaxAttempts - 1 then some (db, .raised (.python .integrityError))
          else
            some (db, .attempting { booking with accessCode := o.accessCode } checkedAt
              (attempt + 1) true)
  | .confirming id rolledBack =>
      -- a rollback has expired `room`, whose name the mail needs
      if rolledBack then some (db, .raised (.python .missingGreenlet))
      else some (db, .created id o.mailed)
  | .cancel key =>
      match findForCancel db.bookings key with
      | .error e => some (db, .raised e)
      | .ok (id, b) =>
          -- a booking that is cancelled already is returned as it is
          if b.status = .cancelled then some (db, .cancelled id) else some (db, .cancelling id)
  | .cancelling id =>
      -- only `status` differs from the loaded row, so only it is written
      match db.bookings.get? id with
      | none => some (db, .raised (.python .staleDataError))
      | some (_, current) =>
          match db.bookings.update id { current with status := .cancelled } with
          | none => some (db, .raised (.python .integrityError))
          | some t => some ({ db with bookings := t }, .cancelled id)
  | .created _ _ => none
  | .cancelled _ => none
  | .raised _ => none

/-- A request that has not taken a step. -/
def Phase.isStart : Phase → Bool
  | .create _ => true
  | .cancel _ => true
  | _ => false

end SalesTrades.Bookings
