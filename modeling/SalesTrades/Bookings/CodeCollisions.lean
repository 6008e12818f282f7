import SalesTrades.Bookings.DoubleBooking

/-!
# Collisions of access codes

One call of `create_booking` from its arguments to its result: the checks, the retry loop and the
confirmation. A rollback in the loop expires `room`, which the confirmation reads after the booking is
committed. So a call whose first access code is taken and whose later one is not raises with the booking
in the table, as does one whose times have no local time. In all other cases the call books and returns,
or leaves the table as it is (`books_or_leaves_iff`). Without a fault of the request itself the call is a
run of `step` (`createBooking_eq_runCall`).
-/

set_option autoImplicit false

namespace SalesTrades.Bookings

open SalesTrades.Library

/-! ## The call -/

/-- What a call reads from outside: the clock, the access codes in the order in which they are generated,
and whether the mail goes out. -/
structure CallInput where
  now : Int
  codes : Nat → String
  mailed : Bool

/-- The time zone of the bookings, by its offsets in microseconds. -/
structure BookingZone where
  utcOffset : Int → Int

/-- `astimezone` gives a local time. -/
def BookingZone.HasLocalTime (zone : BookingZone) (instant : Int) : Prop :=
  InCalendar (instant + zone.utcOffset instant)

instance (zone : BookingZone) (instant : Int) : Decidable (zone.HasLocalTime instant) :=
  inferInstanceAs (Decidable (InCalendar _))

/-- The driver sends the times of the slot as UTC. -/
def takesTimes (startTime endTime : Int) : Bool := InCalendar startTime && InCalendar endTime

/-- `create_booking` up to the retry loop. The overlap query is the first statement with the times. -/
def checkCall (o : CallInput) (db : Db) (req : CreateRequest) : Except BookingError Booking :=
  let sendable := takesTimes (ensureAware req.startTime).instant (ensureAware req.endTime).instant
  match checkRequest ⟨o.now, o.codes 0, o.mailed⟩ db req with
  | .ok booking => if sendable then .ok booking else .error (.python .dataError)
  | .error (.bookingConflict detail) =>
      .error (if sendable then .bookingConflict detail else .python .dataError)
  | .error e => .error e

def storable (booking : Booking) : Bool :=
  isText booking.bookerName && isText booking.bookerEmail && booking.title.all isText

/-- `bookings_repo.create_booking`. -/
def tryStore (t : BookingTable) (booking : Booking) : Option (Nat × BookingTable) :=
  if storable booking then t.insert booking else none

/-- The retry loop over the access codes of its attempts: the id, the table, and whether an attempt was
rolled back. -/
def retryLoop (t : BookingTable) (booking : Booking) :
    List String → Bool → Option (Nat × BookingTable × Bool)
  | [], _ => none
  | code :: codes, rolledBack =>
      match tryStore t { booking with accessCode := code } with
      | some (id, t') => some (id, t', rolledBack)
      -- any exception is taken for a collision
      | none => retryLoop t booking codes true

/-- The codes of the attempts. -/
def CallInput.attempts (o : CallInput) : List String := (List.range codeMaxAttempts).map o.codes

/-- `_send_confirmation`, whose texts are left out. -/
def sendConfirmation (zone : BookingZone) (slot : Slot) (rolledBack mailed : Bool) :
    Except PyError Bool :=
  if zone.HasLocalTime slot.startTime ∧ zone.HasLocalTime slot.endTime then
    -- `room.name` is read after the times
    if rolledBack then .error .missingGreenlet else .ok mailed
  else .error .overflowError

/-- `create_booking`: the database after the call, and the id of the booking with `email_sent`. -/
def createBooking (zone : BookingZone) (o : CallInput) (db : Db) (req : CreateRequest) :
    Db × Except BookingError (Nat × Bool) :=
  match checkCall o db req with
  | .error e => (db, .error e)
  | .ok booking =>
      match retryLoop db.bookings booking o.attempts false with
      | none =>
          (db, .error (.python (if storable booking then .integrityError else .dataError)))
      | some (id, t, rolledBack) =>
          match sendConfirmation zone booking.slot rolledBack o.mailed with
          | .ok emailSent => ({ db with bookings := t }, .ok (id, emailSent))
          | .error e => ({ db with bookings := t }, .error (.python e))

/-! ## What a call should do -/

/-- No booking has the code. -/
def IsFree (t : BookingTable) (code : String) : Prop := ∀ q ∈ t.rows, q.2.accessCode ≠ code

instance (t : BookingTable) (code : String) : Decidable (IsFree t code) :=
  inferInstanceAs (Decidable (∀ q ∈ t.rows, _))

/-- The row of a request: confirmed, with its room and slot and a code of its own. -/
structure IsBookingOf (req : CreateRequest) (t : BookingTable) (booking : Booking) : Prop where
  confirmed : booking.status = .confirmed
  room : booking.roomId = req.roomId
  startTime : booking.slot.startTime = (ensureAware req.startTime).instant
  endTime : booking.slot.endTime = (ensureAware req.endTime).instant
  unique : IsFree t booking.accessCode

/-- A call that raises leaves the table, one that returns has added the booking, and one that comes to a
free code returns. -/
structure BooksOrLeaves (zone : BookingZone) (o : CallInput) (db : Db) (req : CreateRequest) : Prop where
  raised : ∀ e, (createBooking zone o db req).2 = .error e →
    (createBooking zone o db req).1.bookings = db.bookings
  returned : ∀ id emailSent, (createBooking zone o db req).2 = .ok (id, emailSent) →
    ∃ booking, (createBooking zone o db req).1.bookings.rows = db.bookings.rows ++ [(id, booking)] ∧
      IsBookingOf req db.bookings booking
  recovers : ∀ booking, checkCall o db req = .ok booking → storable booking = true →
    (∃ code ∈ o.attempts, IsFree db.bookings code) →
      ∃ id emailSent, (createBooking zone o db req).2 = .ok (id, emailSent)

variable {zone : BookingZone} {o : CallInput} {db : Db} {req : CreateRequest} {t t' : BookingTable}
  {booking : Booking} {codes : List String} {id : Nat} {rolledBack rolledBack' : Bool}

/-! ## The checks -/

theorem checkCall_eq_ok (h : checkCall o db req = .ok booking) :
    checkRequest ⟨o.now, o.codes 0, o.mailed⟩ db req = .ok booking := by
  simp only [checkCall] at h
  split at h
  · rename_i b hb
    split at h
    · cases h
      exact hb
    · cases h
  · cases h
  · cases h

/-- The new booking of a request that passes the checks. -/
theorem checkRequest_fields {out : Outside} (h : checkRequest out db req = .ok booking) :
    booking.status = .confirmed ∧ booking.roomId = req.roomId ∧
      booking.slot.startTime = (ensureAware req.startTime).instant ∧
      booking.slot.endTime = (ensureAware req.endTime).instant ∧
      booking.accessCode = out.accessCode := by
  simp only [checkRequest] at h
  split at h
  · cases h
  · split at h
    · cases h
    · split at h
      · cases h
      · split at h
        · cases h
        · split at h
          · cases h
          · cases h
            exact ⟨rfl, rfl, rfl, rfl, rfl⟩

/-! ## The retry loop -/

theorem tryStore_eq_none_iff {code : String} :
    tryStore t { booking with accessCode := code } = none ↔
      (storable booking = true → ¬ IsFree t code) := by
  have hsame : storable { booking with accessCode := code } = storable booking := rfl
  rw [tryStore, hsame]
  cases hstorable : storable booking with
  | false => simp
  | true =>
      rw [if_pos rfl, Table.insert_eq_none_iff]
      simp [IsFree]

/-- **The loop stores under the first code that is free.** -/
theorem retryLoop_eq_some (h : retryLoop t booking codes rolledBack = some (id, t', rolledBack')) :
    storable booking = true ∧ ∃ before code after, codes = before ++ code :: after ∧
      (∀ c ∈ before, ¬ IsFree t c) ∧ IsFree t code ∧
      t'.rows = t.rows ++ [(id, { booking with accessCode := code })] ∧
      rolledBack' = (rolledBack || !before.isEmpty) := by
  induction codes generalizing rolledBack with
  | nil => cases h
  | cons code codes ih =>
      rw [retryLoop] at h
      split at h
      · rename_i id₁ t₁ hstore
        cases h
        have hnone : tryStore t { booking with accessCode := code } ≠ none := by
          rw [hstore]
          exact Option.some_ne_none _
        rw [ne_eq, tryStore_eq_none_iff, Classical.not_imp, not_not] at hnone
        obtain ⟨hstorable, hfree⟩ := hnone
        have hstorable' : storable { booking with accessCode := code } = true := hstorable
        rw [tryStore, if_pos hstorable'] at hstore
        obtain ⟨rfl, hrows, -⟩ := Table.insert_eq_some hstore
        refine ⟨hstorable, [], code, codes, rfl, ?_, hfree, hrows, ?_⟩
        · intro c hc
          cases hc
        · rw [List.isEmpty_nil, Bool.not_true, Bool.or_false]
      · rename_i hnone
        obtain ⟨hstorable, before, c, after, rfl, htaken, hfree, hrows, hexpired⟩ := ih h
        -- the first code is taken, and the loop goes on with an expired session
        have hcode := tryStore_eq_none_iff.1 hnone hstorable
        refine ⟨hstorable, code :: before, c, after, rfl, ?_, hfree, hrows, ?_⟩
        · exact List.forall_mem_cons.2 ⟨hcode, htaken⟩
        · rw [hexpired, Bool.true_or, List.isEmpty_cons, Bool.not_false, Bool.or_true]

theorem retryLoop_eq_none_iff : retryLoop t booking codes rolledBack = none ↔
    (storable booking = true → ∀ code ∈ codes, ¬ IsFree t code) := by
  induction codes generalizing rolledBack with
  | nil => exact iff_of_true rfl fun _ code hcode => absurd hcode List.not_mem_nil
  | cons code codes ih =>
      rw [retryLoop, List.forall_mem_cons]
      split
      · rename_i hstore
        have hnot : ¬ (storable booking = true → ¬ IsFree t code) := by
          rw [← tryStore_eq_none_iff, hstore]
          exact Option.some_ne_none _
        exact iff_of_false (Option.some_ne_none _) fun h => hnot fun hstorable => (h hstorable).1
      · rename_i hnone
        rw [ih]
        exact forall_congr' fun hstorable => (and_iff_right
          (tryStore_eq_none_iff.1 hnone hstorable)).symm

/-! ## The result of a call -/

/-- The call ends before the confirmation, or the confirmation decides on the result. -/
theorem createBooking_cases (zone : BookingZone) (o : CallInput) (db : Db) (req : CreateRequest) :
    ((∃ e, createBooking zone o db req = (db, .error e)) ∧
        ∀ booking, checkCall o db req = .ok booking → storable booking = true →
          ∀ code ∈ o.attempts, ¬ IsFree db.bookings code) ∨
      ∃ booking id t before code after, checkCall o db req = .ok booking ∧ storable booking = true ∧
        o.attempts = before ++ code :: after ∧ (∀ c ∈ before, ¬ IsFree db.bookings c) ∧
        IsFree db.bookings code ∧
        t.rows = db.bookings.rows ++ [(id, { booking with accessCode := code })] ∧
        (createBooking zone o db req).1.bookings = t ∧
        (createBooking zone o db req).2 = ((sendConfirmation zone booking.slot (!before.isEmpty)
          o.mailed).map fun sent => (id, sent)).mapError .python := by
  rw [createBooking]
  cases hcheck : checkCall o db req with
  | error e =>
      refine Or.inl ⟨⟨e, rfl⟩, ?_⟩
      intro booking hok
      cases hok
  | ok booking =>
      dsimp only
      -- the confirmation is sent after the commit and cannot undo it
      cases hloop : retryLoop db.bookings booking o.attempts false with
      | none =>
          refine Or.inl ⟨⟨_, rfl⟩, ?_⟩
          intro booking' hok hstorable
          cases hok
          exact retryLoop_eq_none_iff.1 hloop hstorable
      | some result =>
          obtain ⟨id, t, rolledBack⟩ := result
          obtain ⟨hstorable, before, code, after, hcodes, htaken, hfree, hrows, hexpired⟩ :=
            retryLoop_eq_some hloop
          rw [Bool.false_or] at hexpired
          subst hexpired
          refine Or.inr ⟨booking, id, t, before, code, after, rfl, hstorable, hcodes, htaken, hfree,
            hrows, ?_⟩
          dsimp only
          cases sendConfirmation zone booking.slot (!before.isEmpty) o.mailed with
          | error e => exact ⟨rfl, rfl⟩
          | ok sent => exact ⟨rfl, rfl⟩

/-- Whenever a code is free the first one is, and the times of the slot have a local time. -/
def Unhindered (zone : BookingZone) (o : CallInput) (db : Db) (req : CreateRequest) : Prop :=
  ∀ booking, checkCall o db req = .ok booking → storable booking = true →
    (∃ code ∈ o.attempts, IsFree db.bookings code) →
      IsFree db.bookings (o.codes 0) ∧ zone.HasLocalTime booking.slot.startTime ∧
        zone.HasLocalTime booking.slot.endTime

theorem attempts_eq (o : CallInput) :
    o.attempts = o.codes 0 :: [o.codes 1, o.codes 2, o.codes 3, o.codes 4] := rfl

/-- The first code is free exactly when no attempt comes before the free one. -/
theorem isFree_first_iff {o : CallInput} {t : BookingTable} {before after : List String}
    {code : String} (hcodes : o.attempts = before ++ code :: after)
    (htaken : ∀ c ∈ before, ¬ IsFree t c) (hfree : IsFree t code) :
    IsFree t (o.codes 0) ↔ before = [] := by
  rw [attempts_eq] at hcodes
  cases before with
  | nil =>
      rw [List.nil_append, List.cons.injEq] at hcodes
      rw [hcodes.1]
      exact iff_of_true hfree rfl
  | cons c before =>
      rw [List.cons_append, List.cons.injEq] at hcodes
      rw [hcodes.1]
      exact iff_of_false (htaken c List.mem_cons_self) (List.cons_ne_nil c before)

theorem sendConfirmation_eq_ok_iff {slot : Slot} {mailed sent : Bool} :
    sendConfirmation zone slot rolledBack mailed = .ok sent ↔
      (zone.HasLocalTime slot.startTime ∧ zone.HasLocalTime slot.endTime) ∧ rolledBack = false ∧
        mailed = sent := by
  rw [sendConfirmation]
  split
  · rename_i hlocal
    cases rolledBack with
    | true => simp
    | false => simp [hlocal]
  · rename_i hlocal
    simp [hlocal]

/-- **Exactness of the call.** -/
theorem books_or_leaves_iff (zone : BookingZone) (o : CallInput) (db : Db) (req : CreateRequest) :
    BooksOrLeaves zone o db req ↔ Unhindered zone o db req := by
  rcases createBooking_cases zone o db req with ⟨⟨e, he⟩, hnone⟩ |
    ⟨booking, id, t, before, code, after, hcheck, hstorable, hcodes, htaken, hfree, hrows, hdb, hresult⟩
  · apply iff_of_true
    · refine ⟨?_, ?_, ?_⟩
      · intro _ _
        rw [he]
      · intro id sent hok
        rw [he] at hok
        cases hok
      · intro booking hok hstorable hcode
        obtain ⟨code, hcode, hfree⟩ := hcode
        exact absurd hfree (hnone booking hok hstorable code hcode)
    · intro booking hok hstorable hcode
      obtain ⟨code, hcode, hfree⟩ := hcode
      exact absurd hfree (hnone booking hok hstorable code hcode)
  · have hmem : code ∈ o.attempts := by
      rw [hcodes]
      exact List.mem_append_right _ List.mem_cons_self
    -- the call has committed: it returns if the first code was free and the times can be shown
    constructor
    · intro h booking' hok _ _
      obtain rfl : booking = booking' := Except.ok.inj (hcheck.symm.trans hok)
      obtain ⟨id', sent, hreturned⟩ := h.recovers booking hcheck hstorable ⟨code, hmem, hfree⟩
      rw [hresult] at hreturned
      cases hsend : sendConfirmation zone booking.slot (!before.isEmpty) o.mailed with
      | error e =>
          rw [hsend] at hreturned
          cases hreturned
      | ok sent' =>
          obtain ⟨hlocal, hfirst, -⟩ := sendConfirmation_eq_ok_iff.1 hsend
          refine ⟨(isFree_first_iff hcodes htaken hfree).2 ?_, hlocal⟩
          rwa [Bool.not_eq_false', List.isEmpty_iff] at hfirst
    · intro h
      obtain ⟨hfirst, hlocal⟩ := h booking hcheck hstorable ⟨code, hmem, hfree⟩
      obtain rfl := (isFree_first_iff hcodes htaken hfree).1 hfirst
      have hsend : sendConfirmation zone booking.slot (!([] : List String).isEmpty) o.mailed =
          .ok o.mailed := sendConfirmation_eq_ok_iff.2 ⟨hlocal, rfl, rfl⟩
      rw [hsend] at hresult
      refine ⟨?_, ?_, ?_⟩
      · intro e he
        rw [hresult] at he
        cases he
      · intro id' sent hok
        rw [hresult] at hok
        cases hok
        obtain ⟨hstatus, hroom, hstart, hend, -⟩ := checkRequest_fields (checkCall_eq_ok hcheck)
        rw [hdb]
        exact ⟨_, hrows, hstatus, hroom, hstart, hend, hfree⟩
      · intro _ _ _ _
        exact ⟨id, o.mailed, hresult⟩

/-! ## The call as a run of `step` -/

/-- Up to `fuel` steps of a request, the first of them with number `i`. -/
def runCall (o : CallInput) : (fuel i : Nat) → Db → Phase → Db × Phase
  | 0, _, db, phase => (db, phase)
  | fuel + 1, i, db, phase =>
      match step ⟨o.now, o.codes i, o.mailed⟩ db phase with
      | some (db', phase') => runCall o fuel (i + 1) db' phase'
      | none => (db, phase)

/-- Where a request stands after the call. -/
def endPhase : Except BookingError (Nat × Bool) → Phase
  | .ok (id, emailSent) => .created id emailSent
  | .error e => .raised e

theorem runCall_raised (fuel i : Nat) (e : BookingError) :
    runCall o fuel i db (.raised e) = (db, .raised e) := by
  cases fuel with
  | zero => rfl
  | succ fuel => rfl

theorem runCall_confirming (fuel i : Nat) : runCall o (fuel + 1) i db (.confirming id rolledBack) =
    (db, if rolledBack then .raised (.python .missingGreenlet) else .created id o.mailed) := by
  cases rolledBack with
  | true => exact runCall_raised fuel (i + 1) _
  | false =>
      cases fuel with
      | zero => rfl
      | succ fuel => rfl

/-- From the attempt with number `k` on, with `n` attempts after it. -/
theorem runCall_attempting (o : CallInput) (db : Db) (hstorable : storable booking = true)
    (checkedAt n k : Nat) (hcount : k + n + 1 = codeMaxAttempts) (rolledBack : Bool) :
    runCall o (n + 2) (k + 1) db
        (.attempting { booking with accessCode := o.codes k } checkedAt k rolledBack) =
      match retryLoop db.bookings booking ((List.range' k (n + 1)).map o.codes) rolledBack with
      | some (id, t, rolledBack') => ({ db with bookings := t },
          if rolledBack' then .raised (.python .missingGreenlet) else .created id o.mailed)
      | none => (db, .raised (.python .integrityError)) := by
  have hstore : ∀ code, tryStore db.bookings { booking with accessCode := code } =
      db.bookings.insert { booking with accessCode := code } := fun code => if_pos hstorable
  induction n generalizing k rolledBack with
  | zero =>
      rw [runCall, step, List.range'_succ, List.map_cons, retryLoop, hstore]
      cases db.bookings.insert { booking with accessCode := o.codes k } with
      | some result => exact runCall_confirming 0 _
      | none =>
          have hlast : k = codeMaxAttempts - 1 := by omega
          simp only [if_pos hlast]
          rfl
  | succ n ih =>
      rw [runCall, step, List.range'_succ, List.map_cons, retryLoop, hstore]
      cases db.bookings.insert { booking with accessCode := o.codes k } with
      | some result => exact runCall_confirming (n + 1) _
      | none =>
          have hmore : k ≠ codeMaxAttempts - 1 := by omega
          simp only [if_neg hmore]
          exact ih (k + 1) (by omega) true

/-- **A call is a run of `step`**, when the request is not at fault itself: the driver takes its times and
texts, and its times have a local time. -/
theorem createBooking_eq_runCall
    (htimes : takesTimes (ensureAware req.startTime).instant (ensureAware req.endTime).instant = true)
    (hrequest : ∀ booking, checkRequest ⟨o.now, o.codes 0, o.mailed⟩ db req = .ok booking →
      storable booking = true ∧ zone.HasLocalTime booking.slot.startTime ∧
        zone.HasLocalTime booking.slot.endTime) :
    runCall o 7 0 db (.create req) =
      ((createBooking zone o db req).1, endPhase (createBooking zone o db req).2) := by
  have hsame : checkCall o db req = checkRequest ⟨o.now, o.codes 0, o.mailed⟩ db req := by
    rw [checkCall]
    simp only [htimes, if_true]
    split <;> simp_all
  rw [runCall, step, createBooking, hsame]
  cases hcheck : checkRequest ⟨o.now, o.codes 0, o.mailed⟩ db req with
  | error e => exact runCall_raised 6 1 e
  | ok booking =>
      obtain ⟨hstorable, hlocal⟩ := hrequest booking hcheck
      obtain ⟨-, -, -, -, hcode⟩ := checkRequest_fields hcheck
      have hfirst : { booking with accessCode := o.codes 0 } = booking := by
        rw [← show booking.accessCode = o.codes 0 from hcode]
      have hrun := runCall_attempting o db hstorable db.bookings.nextId 4 0 rfl false
      rw [hfirst] at hrun
      apply hrun.trans
      have hattempts : (List.range' 0 (4 + 1)).map o.codes = o.attempts := rfl
      rw [hattempts]
      dsimp only
      cases retryLoop db.bookings booking o.attempts false with
      | none =>
          dsimp only
          rw [if_pos hstorable]
          rfl
      | some result =>
          obtain ⟨id, t, rolledBack⟩ := result
          dsimp only
          rw [sendConfirmation, if_pos hlocal]
          cases rolledBack with
          | true => rfl
          | false => rfl

/-! ## A collision -/

/-- Lagos is one hour ahead of UTC. -/
def lagos : BookingZone where
  utcOffset := fun _ => 3600000000

/-- The code of the first attempt, then that of the others. -/
def twoCodes (first second : String) : CallInput where
  now := 0
  codes := fun i => if i = 0 then first else second
  mailed := true

/-- One room, booked from 10 to 20. -/
def bookedRoom : Db :=
  (createBooking lagos (twoCodes "000001" "000001") twoRequests.shared (slotRequest "A")).1

/-- A request for the room from 20 to 30. -/
def laterRequest : CreateRequest where
  roomId := 1
  bookerName := "B"
  bookerEmail := "booker@example.com"
  startTime := ⟨20, some 0⟩
  endTime := ⟨30, some 0⟩
  title := none

/-- The code of the first booking comes up again, and then a fresh one: the call raises, and the booking
is in the table. -/
theorem collision_raises_and_books :
    ¬ BooksOrLeaves lagos (twoCodes "000001" "000002") bookedRoom laterRequest := by
  intro h
  have hresult : (createBooking lagos (twoCodes "000001" "000002") bookedRoom laterRequest).2 =
      .error (.python .missingGreenlet) := by rfl
  have hleft := congrArg (fun t : BookingTable => t.rows.length) (h.raised _ hresult)
  revert hleft
  decide

end SalesTrades.Bookings
