import SalesTrades.Bookings.CodeCollisions

/-!
# Shown availability and accepted bookings

`room_bookings` lists the confirmed slots of a room that meet a day of the booking time zone, and
`create_booking` looks for a confirmed slot that meets the request. A request that lies within the day
meets only slots that are listed. So it is refused exactly when it meets a listed slot, and otherwise
booked unless its texts or its access codes stand in the way (`availability_decides`).
-/

set_option autoImplicit false

namespace SalesTrades.Bookings

open SalesTrades.Library

/-! ## Days of a time zone -/

/-- A time zone with the offsets that it gives to wall clocks, the earlier one of two. -/
structure WallZone extends BookingZone where
  wallOffset : Int → Int

/-- The local date of an instant, as days since 1970-01-01. -/
def BookingZone.localDay (zone : BookingZone) (instant : Int) : Int :=
  (instant + zone.utcOffset instant) / 86400000000

/-- `datetime.combine(day, time.min, tzinfo=tz)`. -/
def WallZone.midnight (zone : WallZone) (day : Int) : Int :=
  day * 86400000000 - zone.wallOffset (day * 86400000000)

/-- Every day of the zone begins at its midnight. -/
def WallZone.BeginsAtMidnight (zone : WallZone) : Prop :=
  ∀ day instant, zone.midnight day ≤ instant ↔ day ≤ zone.localDay instant

/-! ## The slots of a day -/

inductive AvailabilityError where
  | notFound (detail : String)
  | python (e : PyError)

/-- `list_for_room_between`. -/
def listForRoomBetween (t : BookingTable) (roomId : Nat) (startTime endTime : Int) : List Booking :=
  let inWindow (b : Booking) : Bool := b.roomId == roomId && b.status == .confirmed &&
    (b.slot.startTime < endTime && startTime < b.slot.endTime)
  ((t.select inWindow).map Prod.snd).mergeSort fun a b => a.slot.startTime ≤ b.slot.startTime

/-- `room_bookings`, for the given day or for today. -/
def roomBookings (zone : WallZone) (now : Int) (db : Db) (roomId : Nat) (day : Option Int) :
    Except AvailabilityError (List Slot) :=
  match getRoom db roomId with
  | none => .error (.notFound "Room not found")
  | some room =>
      if room.isActive = false then .error (.notFound "Room not found")
      else
        let target := day.getD (zone.localDay now)
        -- the day after 9999-12-31 is none
        if ¬ InCalendar ((target + 1) * 86400000000) then .error (.python .overflowError)
        else if takesTimes (zone.midnight target) (zone.midnight (target + 1)) then
          .ok ((listForRoomBetween db.bookings roomId (zone.midnight target)
            (zone.midnight (target + 1))).map Booking.slot)
        else .error (.python .dataError)

section Requests

variable {zone : WallZone} {now : Int} {db : Db} {req : CreateRequest} {o : CallInput}
  {roomId : Nat} {target : Option Int} {day : Int} {slots : List Slot} {booking : Booking}

/-- The instants that a request asks for. -/
def CreateRequest.interval (req : CreateRequest) : Set Int :=
  Set.Ico (ensureAware req.startTime).instant (ensureAware req.endTime).instant

theorem mem_listForRoomBetween {t : BookingTable} {startTime endTime : Int} :
    booking ∈ listForRoomBetween t roomId startTime endTime ↔ ∃ q ∈ t.rows, q.2 = booking ∧
      booking.roomId = roomId ∧ booking.status = .confirmed ∧
      booking.slot.startTime < endTime ∧ startTime < booking.slot.endTime := by
  rw [listForRoomBetween, List.mem_mergeSort, List.mem_map]
  constructor
  · rintro ⟨q, hq, rfl⟩
    obtain ⟨hmem, hwindow⟩ := Table.mem_select.1 hq
    simp only [Bool.and_eq_true, beq_iff_eq, decide_eq_true_eq] at hwindow
    exact ⟨q, hmem, rfl, hwindow.1.1, hwindow.1.2, hwindow.2.1, hwindow.2.2⟩
  · rintro ⟨q, hmem, rfl, hroom, hstatus, hstart, hend⟩
    refine ⟨q, Table.mem_select.2 ⟨hmem, ?_⟩, rfl⟩
    simp only [Bool.and_eq_true, beq_iff_eq, decide_eq_true_eq]
    exact ⟨⟨hroom, hstatus⟩, hstart, hend⟩

/-- What `room_bookings` returns, and when. -/
theorem roomBookings_eq_ok (h : roomBookings zone now db roomId target = .ok slots)
    (hday : target.getD (zone.localDay now) = day) :
    (∃ room, getRoom db roomId = some room ∧ room.isActive = true) ∧
      takesTimes (zone.midnight day) (zone.midnight (day + 1)) = true ∧
      slots = (listForRoomBetween db.bookings roomId (zone.midnight day)
        (zone.midnight (day + 1))).map Booking.slot := by
  subst hday
  rw [roomBookings] at h
  split at h
  · cases h
  · rename_i room hroom
    split at h
    · cases h
    · rename_i hactive
      dsimp only at h
      split at h
      · cases h
      · split at h
        · rename_i htakes
          refine ⟨⟨room, hroom, ?_⟩, htakes, (Except.ok.inj h).symm⟩
          rwa [Bool.not_eq_false] at hactive
        · cases h

/-- It returns for every day whose two midnights the calendar has. -/
theorem roomBookings_returns {room : Room} (hroom : getRoom db roomId = some room)
    (hactive : room.isActive = true) (hnext : InCalendar ((target.getD (zone.localDay now) + 1) *
      86400000000)) (htakes : takesTimes (zone.midnight (target.getD (zone.localDay now)))
        (zone.midnight (target.getD (zone.localDay now) + 1)) = true) :
    ∃ slots, roomBookings zone now db roomId target = .ok slots := by
  simp only [roomBookings, hroom, hactive, Bool.true_eq_false, if_false, hnext, not_true_eq_false,
    htakes, if_true]
  exact ⟨_, rfl⟩

/-- A request within a day lies between its midnights. -/
theorem interval_subset_day (hzone : zone.BeginsAtMidnight)
    (htimes : (ensureAware req.startTime).instant < (ensureAware req.endTime).instant)
    (hday : ∀ instant ∈ req.interval, zone.localDay instant = day) :
    zone.midnight day ≤ (ensureAware req.startTime).instant ∧
      (ensureAware req.endTime).instant ≤ zone.midnight (day + 1) := by
  constructor
  · exact (hzone day _).2 (hday _ (Set.left_mem_Ico.2 htimes)).ge
  · by_contra hlate
    -- an instant of the request on the next day
    let instant := max (ensureAware req.startTime).instant (zone.midnight (day + 1))
    have hmem : instant ∈ req.interval := ⟨le_max_left _ _, max_lt htimes (not_le.1 hlate)⟩
    have hnext : day + 1 ≤ zone.localDay instant := (hzone (day + 1) instant).1 (le_max_right _ _)
    rw [hday instant hmem] at hnext
    omega

/-! ## The decision -/

/-- The slot of a request. -/
def CreateRequest.slot (req : CreateRequest)
    (htimes : (ensureAware req.startTime).instant < (ensureAware req.endTime).instant) : Slot :=
  ⟨(ensureAware req.startTime).instant, (ensureAware req.endTime).instant, htimes⟩

/-- A request within the day meets a listed slot exactly when the overlap query finds a booking. -/
theorem meets_iff
    (htimes : (ensureAware req.startTime).instant < (ensureAware req.endTime).instant)
    (hfirst : zone.midnight day ≤ (ensureAware req.startTime).instant)
    (hlast : (ensureAware req.endTime).instant ≤ zone.midnight (day + 1)) :
    (∃ slot ∈ (listForRoomBetween db.bookings req.roomId (zone.midnight day)
        (zone.midnight (day + 1))).map Booking.slot, ¬ Disjoint slot.interval req.interval) ↔
      ∃ q ∈ db.bookings.rows, holdsSlot req.roomId (req.slot htimes) q.2 = true := by
  constructor
  · rintro ⟨slot, hslot, hmeets⟩
    obtain ⟨booking, hbooking, rfl⟩ := List.mem_map.1 hslot
    obtain ⟨q, hq, rfl, hroom, hstatus, -⟩ := mem_listForRoomBetween.1 hbooking
    exact ⟨q, hq, holdsSlot_iff.2 ⟨hroom, hstatus, hmeets⟩⟩
  · rintro ⟨q, hq, hholds⟩
    obtain ⟨hroom, hstatus, hmeets⟩ := holdsSlot_iff.1 hholds
    have hoverlap := (overlaps_iff q.2.slot (req.slot htimes)).2 hmeets
    simp only [overlaps, Bool.and_eq_true, decide_eq_true_eq] at hoverlap
    refine ⟨q.2.slot, List.mem_map.2 ⟨q.2, mem_listForRoomBetween.2 ?_, rfl⟩, hmeets⟩
    -- what meets the request meets the day
    exact ⟨q, hq, rfl, hroom, hstatus, hoverlap.1.trans_le hlast, hfirst.trans_lt hoverlap.2⟩

/-- The database takes the texts of the request. -/
def CreateRequest.storable (req : CreateRequest) : Bool :=
  isText req.bookerName && isText req.bookerEmail && req.title.all isText

/-- The booking of a request, before its access code is stored. -/
def CreateRequest.newBooking (req : CreateRequest)
    (htimes : (ensureAware req.startTime).instant < (ensureAware req.endTime).instant)
    (accessCode : String) : Booking where
  roomId := req.roomId
  bookerName := req.bookerName
  bookerEmail := req.bookerEmail
  title := req.title
  slot := req.slot htimes
  accessCode := accessCode
  status := .confirmed

def overlapDetail : String := "the room is already booked for an overlapping time"

theorem takesTimes_of_within {first last startTime endTime : Int}
    (h : takesTimes first last = true) (hfirst : first ≤ startTime) (hlast : endTime ≤ last)
    (htimes : startTime < endTime) : takesTimes startTime endTime = true := by
  rw [takesTimes, Bool.and_eq_true, decide_eq_true_eq, decide_eq_true_eq] at h ⊢
  obtain ⟨⟨hmin, -⟩, -, hmax⟩ := h
  exact ⟨⟨hmin.trans hfirst, (htimes.trans_le hlast).trans hmax⟩,
    (hmin.trans hfirst).trans htimes.le, hlast.trans_lt hmax⟩

/-- For a future slot of an active room the overlap query decides. -/
theorem checkCall_cases {room : Room} (hroom : getRoom db req.roomId = some room)
    (hactive : room.isActive = true)
    (htimes : (ensureAware req.startTime).instant < (ensureAware req.endTime).instant)
    (hfuture : o.now ≤ (ensureAware req.startTime).instant)
    (htakes : takesTimes (ensureAware req.startTime).instant (ensureAware req.endTime).instant = true) :
    ((∃ q ∈ db.bookings.rows, holdsSlot req.roomId (req.slot htimes) q.2 = true) ∧
        checkCall o db req = .error (.bookingConflict overlapDetail)) ∨
      (¬ (∃ q ∈ db.bookings.rows, holdsSlot req.roomId (req.slot htimes) q.2 = true) ∧
        checkCall o db req = .ok (req.newBooking htimes (o.codes 0))) := by
  -- of the checks only the overlap query is left open by the hypotheses
  cases hfind : findOverlapping db.bookings req.roomId (req.slot htimes) with
  | some q =>
      have hcheck : checkRequest ⟨o.now, o.codes 0, o.mailed⟩ db req =
          .error (.bookingConflict overlapDetail) := by
        rw [CreateRequest.slot] at hfind
        simp only [checkRequest, dif_neg (not_le.2 htimes), if_neg (not_lt.2 hfuture), hroom, hactive,
          Bool.true_eq_false, if_false, hfind]
        rfl
      obtain ⟨hmem, hholds⟩ := Table.mem_of_first hfind
      refine Or.inl ⟨⟨q, hmem, hholds⟩, ?_⟩
      simp only [checkCall, hcheck, htakes, if_true]
  | none =>
      have hcheck : checkRequest ⟨o.now, o.codes 0, o.mailed⟩ db req =
          .ok (req.newBooking htimes (o.codes 0)) := by
        rw [CreateRequest.slot] at hfind
        simp only [checkRequest, dif_neg (not_le.2 htimes), if_neg (not_lt.2 hfuture), hroom, hactive,
          Bool.true_eq_false, if_false, hfind]
        rfl
      refine Or.inr ⟨?_, ?_⟩
      · rintro ⟨q, hmem, hholds⟩
        rw [Table.first_eq_none_iff.1 hfind q hmem] at hholds
        cases hholds
      · simp only [checkCall, hcheck, htakes, if_true]

/-- The call books the request: its row is added to the table. -/
def Books (zone : BookingZone) (o : CallInput) (db : Db) (req : CreateRequest) : Prop :=
  ∃ id booking, (createBooking zone o db req).1.bookings.rows = db.bookings.rows ++ [(id, booking)] ∧
    IsBookingOf req db.bookings booking

/-- The listed slots decide on the request. -/
structure DecidedBy (slots : List Slot) (zone : BookingZone) (o : CallInput) (db : Db)
    (req : CreateRequest) : Prop where
  refused : createBooking zone o db req = (db, .error (.bookingConflict overlapDetail)) ↔
    ∃ slot ∈ slots, ¬ Disjoint slot.interval req.interval
  booked : Books zone o db req ↔ (∀ slot ∈ slots, Disjoint slot.interval req.interval) ∧
    req.storable = true ∧ ∃ code ∈ o.attempts, IsFree db.bookings code

/-- A call that has stored nothing has not booked. -/
theorem not_books {e : BookingError} (h : createBooking zone.toBookingZone o db req = (db, .error e)) :
    ¬ Books zone.toBookingZone o db req := by
  rintro ⟨id, booking, hrows, -⟩
  rw [h] at hrows
  dsimp only at hrows
  have hlength := congrArg List.length hrows
  rw [List.length_append, List.length_singleton] at hlength
  omega

/-- **Shown availability.** A future request within a day is refused for its slot exactly when it meets
a slot that is shown for the day, and booked exactly when it meets none, the database takes its texts
and one of its access codes is free. -/
theorem availability_decides (hzone : zone.BeginsAtMidnight)
    (hslots : roomBookings zone now db req.roomId target = .ok slots)
    (htimes : (ensureAware req.startTime).instant < (ensureAware req.endTime).instant)
    (hfuture : o.now ≤ (ensureAware req.startTime).instant)
    (hday : ∀ instant ∈ req.interval, zone.localDay instant = target.getD (zone.localDay now)) :
    DecidedBy slots zone.toBookingZone o db req := by
  obtain ⟨hfirst, hlast⟩ := interval_subset_day hzone htimes hday
  obtain ⟨⟨room, hroom, hactive⟩, htakes, rfl⟩ := roomBookings_eq_ok hslots rfl
  have hsend := takesTimes_of_within htakes hfirst hlast htimes
  have hmeets := @meets_iff zone db req _ htimes hfirst hlast
  rcases checkCall_cases hroom hactive htimes hfuture hsend with ⟨hholds, hcheck⟩ |
    ⟨hfree, hcheck⟩
  · have hcall : createBooking zone.toBookingZone o db req =
        (db, .error (.bookingConflict overlapDetail)) := by
      rw [createBooking, hcheck]
    -- the booking that the query finds is shown for the day
    obtain ⟨slot, hslot, hslotMeets⟩ := hmeets.2 hholds
    refine ⟨iff_of_true hcall ⟨slot, hslot, hslotMeets⟩, iff_of_false (not_books hcall) ?_⟩
    rintro ⟨hnone, -⟩
    exact hslotMeets (hnone slot hslot)
  · have hnone := mt hmeets.1 hfree
    have hdisjoint := hnone
    simp only [not_exists, not_and, not_not] at hdisjoint
    have hstorable : storable (req.newBooking htimes (o.codes 0)) = req.storable := rfl
    rcases createBooking_cases zone.toBookingZone o db req with ⟨⟨e, he⟩, htaken⟩ |
      ⟨booking, id, t, before, code, after, hbooking, htexts, hcodes, -, hcode, hrows, hdb, hresult⟩
    · -- every code is taken, or the texts are at fault
      refine ⟨iff_of_false ?_ hnone, iff_of_false (not_books he) ?_⟩
      · intro hcall
        rw [createBooking, hcheck] at hcall
        have herror := congrArg Prod.snd hcall
        dsimp only at herror
        split at herror
        · cases herror
        · split at herror
          · cases herror
          · cases herror
      · rintro ⟨-, htexts, code, hcode, hfreeCode⟩
        exact htaken _ hcheck (hstorable.trans htexts) code hcode hfreeCode
    · obtain rfl := Except.ok.inj (hcheck.symm.trans hbooking)
      have hbooks : Books zone.toBookingZone o db req := by
        refine ⟨id, { req.newBooking htimes (o.codes 0) with accessCode := code }, ?_, rfl, rfl, rfl,
          rfl, hcode⟩
        rw [hdb]
        exact hrows
      refine ⟨iff_of_false (fun hcall => not_books hcall hbooks) hnone, iff_of_true hbooks ?_⟩
      refine ⟨hdisjoint, hstorable.symm.trans htexts, code, ?_, hcode⟩
      rw [hcodes]
      exact List.mem_append_right _ List.mem_cons_self

end Requests

/-! ## Lagos -/

/-- The configured time zone. -/
def lagosTime : WallZone where
  toBookingZone := lagos
  wallOffset := fun _ => 3600000000

theorem lagosTime_beginsAtMidnight : lagosTime.BeginsAtMidnight := by
  intro day instant
  rw [BookingZone.localDay, WallZone.midnight, Int.le_ediv_iff_mul_le (by decide)]
  exact sub_le_iff_le_add

theorem ten_lt_twenty : (10 : Int) < 20 := by decide

/-- The slot of the first booking. -/
def firstSlot : Slot := ⟨10, 20, ten_lt_twenty⟩

theorem roomBookings_bookedRoom :
    roomBookings lagosTime 0 bookedRoom 1 (some 0) = .ok [firstSlot] := by
  have hlist : (listForRoomBetween bookedRoom.bookings 1 (lagosTime.midnight 0)
      (lagosTime.midnight 1)).map Booking.slot = [firstSlot] := by
    rw [listForRoomBetween]
    -- a list of one booking is sorted
    exact congrArg (List.map Booking.slot) (List.mergeSort_singleton
      ⟨1, "A", "booker@example.com", none, firstSlot, "000001", .confirmed⟩)
  have hreturns : roomBookings lagosTime 0 bookedRoom 1 (some 0) = .ok
      ((listForRoomBetween bookedRoom.bookings 1 (lagosTime.midnight 0)
        (lagosTime.midnight 1)).map Booking.slot) := rfl
  rw [hreturns, hlist]

theorem localDay_laterRequest :
    ∀ instant ∈ laterRequest.interval, lagosTime.localDay instant = 0 := by
  rintro instant ⟨hfirst, hlast⟩
  have hlow : 20 ≤ instant := hfirst
  have hhigh : instant < 30 := hlast
  change (instant + 3600000000) / 86400000000 = 0
  omega

/-- The request from 20 on meets no slot of the day, and is booked. -/
theorem laterRequest_decided : DecidedBy [firstSlot] lagos (twoCodes "000002" "000002") bookedRoom
    laterRequest :=
  availability_decides lagosTime_beginsAtMidnight roomBookings_bookedRoom (by decide) (by decide)
    localDay_laterRequest

/-- A request that only touches the slot that is shown is not booked when all its codes are taken, nor
when its text has a NUL character. -/
theorem free_slot_not_booked :
    roomBookings lagosTime 0 bookedRoom 1 (some 0) = .ok [firstSlot] ∧
      (∀ slot ∈ [firstSlot], Disjoint slot.interval laterRequest.interval) ∧
      (∀ instant ∈ laterRequest.interval, lagosTime.localDay instant = 0) ∧
      ¬ Books lagos (twoCodes "000001" "000001") bookedRoom laterRequest ∧
      ¬ Books lagos (twoCodes "000002" "000002") bookedRoom
        { laterRequest with bookerName := String.ofList [Char.ofNat 0] } := by
  refine ⟨roomBookings_bookedRoom, ?_, localDay_laterRequest, ?_, ?_⟩
  · intro slot hslot
    obtain rfl := List.mem_singleton.1 hslot
    exact Set.Ico_disjoint_Ico.2 (by decide)
  · have hcall : createBooking lagosTime.toBookingZone (twoCodes "000001" "000001") bookedRoom
        laterRequest = (bookedRoom, .error (.python .integrityError)) := rfl
    exact not_books hcall
  · have hcall : createBooking lagosTime.toBookingZone (twoCodes "000002" "000002") bookedRoom
        { laterRequest with bookerName := String.ofList [Char.ofNat 0] } =
          (bookedRoom, .error (.python .dataError)) := rfl
    exact not_books hcall

end SalesTrades.Bookings
