import SalesTrades.Bookings.Model
import SalesTrades.Library.Interleaving

/-!
# When the booking service double-books

Any number of `create_booking` and `cancel_booking` requests run interleaved, one statement at a
time. The overlap SELECT and the INSERT are separate steps and no constraint of the table backs the
check, so two requests that both pass the check both book (`double_booking_run`). A run keeps the
table free of double bookings exactly when no INSERT finds a rival, a confirmed booking of the slot
that was committed after the request's own SELECT
(`always_noDoubleBooking_iff_unrivalled`).
-/

set_option autoImplicit false

namespace SalesTrades.Bookings

open SalesTrades.Library SalesTrades.Library.Run SalesTrades.Library.Interleaving

universe u

variable {ι : Type u}

/-- No two confirmed bookings of one room overlap as half-open intervals. -/
def NoDoubleBooking (t : BookingTable) : Prop :=
  ∀ a ∈ t.rows, ∀ b ∈ t.rows, a.1 ≠ b.1 → a.2.status = .confirmed → b.2.status = .confirmed →
    a.2.roomId = b.2.roomId → Disjoint a.2.slot.interval b.2.slot.interval

/-- A confirmed booking of the slot that was committed after the request's overlap SELECT. -/
def Rival (booking : Booking) (checkedAt : Nat) (q : Nat × Booking) : Prop :=
  checkedAt ≤ q.1 ∧ holdsSlot booking.roomId booking.slot q.2 = true

/-- The condition on a step: an INSERT whose access code is free finds no rival. -/
def Unrivalled (e : ι × Outside) (c : Config ι Db Phase) : Prop :=
  match c.proc e.1 with
  | .attempting booking checkedAt _ _ =>
      (∀ q ∈ c.shared.bookings.rows, q.2.accessCode ≠ booking.accessCode) →
        ∀ q ∈ c.shared.bookings.rows, ¬ Rival booking checkedAt q
  | _ => True

theorem holdsSlot_iff {roomId : Nat} {slot : Slot} {b : Booking} :
    holdsSlot roomId slot b = true ↔
      b.roomId = roomId ∧ b.status = .confirmed ∧ ¬ Disjoint b.slot.interval slot.interval := by
  simp only [holdsSlot, Bool.and_eq_true, beq_iff_eq, overlaps_iff, and_assoc]

/-! ## One step -/

/-- What a step may do to the table: nothing, one INSERT by a request in its retry loop, or one
cancellation. -/
theorem step_bookings {o : Outside} {db db' : Db} {p p' : Phase} (h : step o db p = some (db', p')) :
    db' = db ∨
      (∃ booking checkedAt attempt rolledBack id t,
        p = .attempting booking checkedAt attempt rolledBack ∧
        db.bookings.insert booking = some (id, t) ∧ db' = { db with bookings := t }) ∨
      (∃ id current t, (id, current) ∈ db.bookings.rows ∧
        db.bookings.update id { current with status := .cancelled } = some t ∧
        db' = { db with bookings := t }) := by
  cases p with
  | create req =>
      left
      simp only [step] at h
      split at h <;> simp_all
  | attempting booking checkedAt attempt rolledBack =>
      simp only [step] at h
      split at h
      · rename_i id t hins
        simp only [Option.some.injEq, Prod.mk.injEq] at h
        exact Or.inr (Or.inl ⟨booking, checkedAt, attempt, rolledBack, id, t, rfl, hins, h.1.symm⟩)
      · left
        split at h <;> simp_all
  | confirming id rolledBack =>
      left
      simp only [step] at h
      split at h <;> simp_all
  | cancel key =>
      left
      simp only [step] at h
      split at h
      · simp_all
      · split at h <;> simp_all
  | cancelling id =>
      simp only [step] at h
      split at h
      · left
        simp_all
      · rename_i current hget
        split at h
        · left
          simp_all
        · rename_i t hupd
          simp only [Option.some.injEq, Prod.mk.injEq] at h
          obtain ⟨hmem, hid⟩ := Table.mem_of_get? hget
          simp only at hid
          subst hid
          exact Or.inr (Or.inr ⟨_, current, t, hmem, hupd, h.1.symm⟩)
  | created id emailSent => simp [step] at h
  | cancelled id => simp [step] at h
  | raised e => simp [step] at h

/-- How the table may change under the other requests: old rows keep their room and slot, and a row
that is confirmed now was confirmed before. -/
structure Evolves (t t' : BookingTable) : Prop where
  nextId_le : t.nextId ≤ t'.nextId
  old : ∀ q' ∈ t'.rows, q'.1 < t.nextId → ∃ q ∈ t.rows, q.1 = q'.1 ∧
    q.2.roomId = q'.2.roomId ∧ q.2.slot = q'.2.slot ∧
    (q'.2.status = .confirmed → q.2.status = .confirmed)

theorem Evolves.refl (t : BookingTable) : Evolves t t :=
  ⟨le_rfl, fun q hq _ => ⟨q, hq, rfl, rfl, rfl, id⟩⟩

theorem evolves_insert {t t' : BookingTable} {b : Booking} {id : Nat}
    (h : t.insert b = some (id, t')) : Evolves t t' := by
  obtain ⟨rfl, -, hnext⟩ := Table.insert_eq_some h
  refine ⟨by omega, fun q hq hlt => ?_⟩
  rcases (Table.mem_of_insert h).1 hq with hq | rfl
  · exact ⟨q, hq, rfl, rfl, rfl, fun hc => hc⟩
  · exact absurd hlt (lt_irrefl _)

theorem evolves_cancel {t t' : BookingTable} {id : Nat} {current : Booking}
    (hmem : (id, current) ∈ t.rows)
    (h : t.update id { current with status := .cancelled } = some t') : Evolves t t' := by
  refine ⟨(Table.update_eq_some h).2.ge, fun q hq _ => ?_⟩
  rcases (Table.mem_of_update h).1 hq with ⟨hq, -⟩ | ⟨rfl, -⟩
  · exact ⟨q, hq, rfl, rfl, rfl, fun hc => hc⟩
  · exact ⟨(id, current), hmem, rfl, rfl, rfl, fun hc => by cases hc⟩

theorem step_evolves {o : Outside} {db db' : Db} {p p' : Phase}
    (h : step o db p = some (db', p')) : Evolves db.bookings db'.bookings := by
  rcases step_bookings h with rfl | ⟨b, _, _, _, id, t, -, hins, rfl⟩ |
    ⟨id, current, t, hmem, hupd, rfl⟩
  · exact Evolves.refl _
  · exact evolves_insert hins
  · exact evolves_cancel hmem hupd

/-! ## The outline -/

/-- What a request in its retry loop knows: no row that its overlap SELECT could see holds its
slot. -/
def Checked (p : Phase) (t : BookingTable) : Prop :=
  match p with
  | .attempting booking checkedAt _ _ =>
      booking.status = .confirmed ∧ checkedAt ≤ t.nextId ∧
        ∀ q ∈ t.rows, q.1 < checkedAt → holdsSlot booking.roomId booking.slot q.2 = false
  | _ => True

/-- The assertions: no double booking, and every request in its loop has checked its slot. -/
def outline : Outline ι Db Phase where
  shared db := NoDoubleBooking db.bookings
  proc _ p db := Checked p db.bookings

theorem checked_of_evolves {p : Phase} {t t' : BookingTable} (hev : Evolves t t')
    (h : Checked p t) : Checked p t' := by
  cases p with
  | attempting booking checkedAt attempt rolledBack =>
      obtain ⟨hst, hle, hfree⟩ := h
      refine ⟨hst, hle.trans hev.nextId_le, fun q' hq' hlt => ?_⟩
      -- a row below `checkedAt` is an old one, and holds no slot now that it did not hold then
      obtain ⟨q, hq, hid, hroom, hslot, hconf⟩ := hev.old q' hq' (lt_of_lt_of_le hlt hle)
      have hq_free := hfree q hq (hid ▸ hlt)
      by_contra hholds
      rw [Bool.not_eq_false, holdsSlot_iff] at hholds
      rw [← Bool.not_eq_true, holdsSlot_iff] at hq_free
      exact hq_free ⟨hroom.trans hholds.1, hconf hholds.2.1, hslot ▸ hholds.2.2⟩
  | _ => trivial

/-- A cancellation cannot create a double booking. -/
theorem noDoubleBooking_cancel {t t' : BookingTable} {id : Nat} {current : Booking}
    (h : t.update id { current with status := .cancelled } = some t') (hno : NoDoubleBooking t) :
    NoDoubleBooking t' := by
  intro a ha b hb hne hac hbc hroom
  rcases (Table.mem_of_update h).1 ha with ⟨ha, -⟩ | ⟨rfl, -⟩
  · rcases (Table.mem_of_update h).1 hb with ⟨hb, -⟩ | ⟨rfl, -⟩
    · exact hno a ha b hb hne hac hbc hroom
    · cases hbc
  · cases hac

/-- An INSERT creates a double booking exactly when some row holds the slot. -/
theorem noDoubleBooking_insert_iff {t t' : BookingTable} {b : Booking} {id : Nat}
    (h : t.insert b = some (id, t')) (hb : b.status = .confirmed) (hno : NoDoubleBooking t) :
    NoDoubleBooking t' ↔ ∀ q ∈ t.rows, holdsSlot b.roomId b.slot q.2 = false := by
  obtain ⟨rfl, -, -⟩ := Table.insert_eq_some h
  constructor
  · intro hno' q hq
    rw [← Bool.not_eq_true, holdsSlot_iff]
    rintro ⟨hroom, hconf, hmeet⟩
    have hqid := t.id_lt q hq
    exact hmeet (hno' q ((Table.mem_of_insert h).2 (Or.inl hq)) (t.nextId, b)
      ((Table.mem_of_insert h).2 (Or.inr rfl)) (Nat.ne_of_lt hqid) hconf hb hroom)
  · intro hfree
    have hnew : ∀ q ∈ t.rows, q.2.status = .confirmed → q.2.roomId = b.roomId →
        Disjoint q.2.slot.interval b.slot.interval := by
      intro q hq hconf hroom
      have := hfree q hq
      rw [← Bool.not_eq_true, holdsSlot_iff] at this
      by_contra hmeet
      exact this ⟨hroom, hconf, hmeet⟩
    intro x hx y hy hne hxc hyc hroom
    rcases (Table.mem_of_insert h).1 hx with hx | rfl
    · rcases (Table.mem_of_insert h).1 hy with hy | rfl
      · exact hno x hx y hy hne hxc hyc hroom
      · exact hnew x hx hxc hroom
    · rcases (Table.mem_of_insert h).1 hy with hy | rfl
      · exact (hnew y hy hyc hroom.symm).symm
      · exact absurd rfl hne

/-- A request that enters the retry loop found its slot free. -/
theorem checkRequest_ok {o : Outside} {db : Db} {req : CreateRequest} {b : Booking}
    (h : checkRequest o db req = .ok b) :
    b.status = .confirmed ∧ ∀ q ∈ db.bookings.rows, holdsSlot b.roomId b.slot q.2 = false := by
  simp only [checkRequest] at h
  split at h
  · cases h
  · split at h
    · cases h
    · split at h
      · cases h
      · split at h
        · cases h
        · split at h
          · cases h
          · rename_i hnone
            simp only [Except.ok.injEq] at h
            subst h
            exact ⟨rfl, Table.first_eq_none_iff.1 hnone⟩

/-- A request is in its retry loop because it has just checked, or because its last access code was
taken; neither step writes. -/
theorem step_attempting {o : Outside} {db db' : Db} {p : Phase} {b : Booking}
    {checkedAt attempt : Nat} {rolledBack : Bool}
    (h : step o db p = some (db', .attempting b checkedAt attempt rolledBack)) :
    db' = db ∧
      ((∃ req, p = .create req ∧ checkRequest o db req = .ok b ∧ checkedAt = db.bookings.nextId) ∨
        ∃ b₀ attempt₀ rolledBack₀, p = .attempting b₀ checkedAt attempt₀ rolledBack₀ ∧
          b = { b₀ with accessCode := o.accessCode }) := by
  cases p with
  | create req =>
      simp only [step] at h
      split at h
      · simp at h
      · rename_i hcheck
        simp only [Option.some.injEq, Prod.mk.injEq, Phase.attempting.injEq] at h
        obtain ⟨rfl, rfl, rfl, -, -⟩ := h
        exact ⟨rfl, Or.inl ⟨req, rfl, hcheck, rfl⟩⟩
  | attempting b₀ checkedAt₀ attempt₀ rolledBack₀ =>
      simp only [step] at h
      split at h
      · simp at h
      · split at h
        · simp at h
        · simp only [Option.some.injEq, Prod.mk.injEq, Phase.attempting.injEq] at h
          obtain ⟨rfl, rfl, rfl, -, -⟩ := h
          exact ⟨rfl, Or.inr ⟨b₀, attempt₀, rolledBack₀, rfl, rfl⟩⟩
  | confirming id rolledBack =>
      simp only [step] at h
      split at h <;> simp at h
  | cancel key =>
      simp only [step] at h
      split at h
      · simp at h
      · split at h <;> simp at h
  | cancelling id =>
      simp only [step] at h
      split at h
      · simp at h
      · split at h <;> simp at h
  | created id emailSent => simp [step] at h
  | cancelled id => simp [step] at h
  | raised e => simp [step] at h

/-- After its own step a request still knows that its slot was free when it checked. -/
theorem checked_step {o : Outside} {db db' : Db} {p p' : Phase}
    (h : step o db p = some (db', p')) (hp : Checked p db.bookings) : Checked p' db'.bookings := by
  cases p' with
  | attempting b checkedAt attempt rolledBack =>
      obtain ⟨rfl, ⟨req, rfl, hcheck, rfl⟩ | ⟨b₀, attempt₀, rolledBack₀, rfl, rfl⟩⟩ :=
        step_attempting h
      · obtain ⟨hst, hfree⟩ := checkRequest_ok hcheck
        exact ⟨hst, le_rfl, fun q hq _ => hfree q hq⟩
      · exact hp
  | _ => trivial

/-- An unrivalled step keeps the outline: the rows its SELECT saw are free by `Checked`, the later
ones because none of them is a rival. -/
theorem outline_holds_fire [DecidableEq ι] {e : ι × Outside} {c c' : Config ι Db Phase}
    (hc : (outline (ι := ι)).Holds c) (hG : Unrivalled e c) (h : fire step e c = some c') :
    (outline (ι := ι)).Holds c' := by
  refine Outline.holds_fire (R := fun _ db db' => Evolves db.bookings db'.bookings) ?_ ?_ hc h
  · intro db' p' hstep
    -- the request that moves: only an INSERT can put two bookings on one slot
    refine ⟨?_, checked_step hstep (hc.2 e.1), step_evolves hstep⟩
    rcases step_bookings hstep with rfl | ⟨b, checkedAt, _, _, id, t, hp, hins, rfl⟩ |
      ⟨id, current, t, -, hupd, rfl⟩
    · exact hc.1
    · have hchecked := hc.2 e.1
      simp only [outline, hp, Checked] at hchecked
      obtain ⟨hst, -, hfree⟩ := hchecked
      simp only [Unrivalled, hp] at hG
      refine (noDoubleBooking_insert_iff hins hst hc.1).2 fun q hq => ?_
      by_cases hlt : q.1 < checkedAt
      · exact hfree q hq hlt
      · -- an INSERT that goes through had a free code, so the condition speaks about it
        have hcode : ∀ q ∈ c.shared.bookings.rows, q.2.accessCode ≠ b.accessCode := by
          intro q hq heq
          have hnone := Table.insert_eq_none_iff.2 ⟨q, hq, b.accessCode, rfl, congrArg some heq⟩
          rw [hins] at hnone
          cases hnone
        have hno_rival := hG hcode q hq
        rw [← Bool.not_eq_true]
        exact fun hholds => hno_rival ⟨Nat.le_of_not_lt hlt, hholds⟩
    · exact noDoubleBooking_cancel hupd hc.1
  · intro j _ db' hev hj
    -- the other requests: what the step does leaves their slots free
    exact checked_of_evolves hev hj

/-- The object in the retry loop is a confirmed booking. -/
def Confirmed (p : Phase) : Prop :=
  match p with
  | .attempting booking _ _ _ => booking.status = .confirmed
  | _ => True

theorem confirmed_fire [DecidableEq ι] {e : ι × Outside} {c c' : Config ι Db Phase}
    (hc : ∀ i, Confirmed (c.proc i)) (h : fire step e c = some c') :
    ∀ i, Confirmed (c'.proc i) := by
  obtain ⟨db', p', hstep, rfl⟩ := fire_eq_some.1 h
  intro i
  by_cases hi : i = e.1
  · subst hi
    simp only [Function.update_self]
    cases p' with
    | attempting b checkedAt attempt rolledBack =>
        obtain ⟨-, ⟨req, -, hcheck, -⟩ | ⟨b₀, attempt₀, rolledBack₀, hp, rfl⟩⟩ :=
          step_attempting hstep
        · exact (checkRequest_ok hcheck).1
        · have := hc e.1
          simp only [hp, Confirmed] at this
          exact this
    | _ => trivial
  · simpa [Function.update_of_ne hi] using hc i

/-- A step between two tables without double bookings is unrivalled: an INSERT with a free code
succeeds, and a rival would overlap the new row. -/
theorem unrivalled_of_noDoubleBooking [DecidableEq ι] {e : ι × Outside} {c c' : Config ι Db Phase}
    (h : fire step e c = some c') (hc : ∀ i, Confirmed (c.proc i))
    (hno : NoDoubleBooking c.shared.bookings) (hno' : NoDoubleBooking c'.shared.bookings) :
    Unrivalled e c := by
  have hconf := hc e.1
  unfold Unrivalled
  split
  · rename_i b checkedAt attempt rolledBack hp
    intro hcode q hq hrival
    obtain ⟨db', p', hstep, rfl⟩ := fire_eq_some.1 h
    simp only [hp, Confirmed] at hconf
    simp only [hp, step] at hstep
    split at hstep
    · rename_i id t hins
      simp only [Option.some.injEq, Prod.mk.injEq] at hstep
      obtain ⟨rfl, -⟩ := hstep
      have hfree := (noDoubleBooking_insert_iff hins hconf hno).1 hno' q hq
      rw [hrival.2] at hfree
      cases hfree
    · rename_i hnone
      -- the INSERT was rejected, so its code was taken
      obtain ⟨r, hr, k, hk, hrk⟩ := Table.insert_eq_none_iff.1 hnone
      exact hcode r hr (Option.some.inj (hrk.trans hk.symm))
  · trivial

/-- **Exactly when the service double-books.** From a table without double bookings, any number of
requests interleaved in any way keep every state free of double bookings if and only if every INSERT
with a free access code finds no rival, that is no confirmed booking of its slot committed after its
own overlap SELECT. -/
theorem always_noDoubleBooking_iff_unrivalled [DecidableEq ι] {c c' : Config ι Db Phase}
    {es : List (ι × Outside)} (hno : NoDoubleBooking c.shared.bookings)
    (hstart : ∀ i, (c.proc i).isStart = true) (hrun : exec (fire step) es c = some c') :
    Always (fire step) (fun d => NoDoubleBooking d.shared.bookings) es c ↔
      Guarded (fire step) Unrivalled es c := by
  have hphase : ∀ i, Checked (c.proc i) c.shared.bookings ∧ Confirmed (c.proc i) := by
    intro i
    have hi := hstart i
    cases hp : c.proc i with
    | attempting b checkedAt attempt rolledBack => simp [hp, Phase.isStart] at hi
    | _ => exact ⟨trivial, trivial⟩
  -- `Confirmed` is kept by every step, guarded or not, and serves the way back
  refine always_iff_guarded (I := (outline (ι := ι)).Holds) (J := fun d => ∀ i, Confirmed (d.proc i))
    (fun d hd => hd.1) (fun e d d' hd hG hf => outline_holds_fire hd hG hf)
    (fun e d d' hd hf => confirmed_fire hd hf)
    (fun e d d' hf hd hd' => unrivalled_of_noDoubleBooking hf hd.2 hd.1 hd'.1)
    ⟨hno, fun i => (hphase i).1⟩ (fun i => (hphase i).2) hrun

/-! ## Two requests for one slot -/

/-- A request for room 1 from 10 to 20. -/
def slotRequest (name : String) : CreateRequest where
  roomId := 1
  bookerName := name
  bookerEmail := "booker@example.com"
  startTime := ⟨10, some 0⟩
  endTime := ⟨20, some 0⟩
  title := none

/-- One active room, no bookings, and two requests for the same slot. -/
def twoRequests : Config Bool Db Phase where
  shared := { rooms := [⟨1, true⟩], bookings := Table.empty _ }
  proc i := .create (slotRequest (if i then "A" else "B"))

/-- Both requests check, then both insert. -/
def checkCheckInsertInsert : List (Bool × Outside) :=
  [(true, ⟨0, "000001", true⟩), (false, ⟨0, "000002", true⟩),
    (true, ⟨0, "000001", true⟩), (false, ⟨0, "000002", true⟩)]

/-- Two requests that both check before either inserts leave two confirmed bookings of the slot. -/
theorem double_booking_run : ∃ c', exec (fire step) checkCheckInsertInsert twoRequests = some c' ∧
    ¬ NoDoubleBooking c'.shared.bookings := by
  refine ⟨_, rfl, ?_⟩
  intro h
  have hmeet := h _ (List.mem_cons_self) _ (List.mem_cons_of_mem _ List.mem_cons_self) (by decide)
    rfl rfl rfl
  exact (overlaps_iff _ _).1 (by decide) hmeet

/-- The first request books before the second one checks. -/
def bookThenCheck : List (Bool × Outside) :=
  [(true, ⟨0, "000001", true⟩), (true, ⟨0, "000001", true⟩), (true, ⟨0, "000001", true⟩),
    (false, ⟨0, "000002", true⟩)]

/-- The second request is refused, and the run stays free of double bookings. -/
theorem bookThenCheck_iff_unrivalled :
    Always (fire step) (fun d => NoDoubleBooking d.shared.bookings) bookThenCheck twoRequests ↔
      Guarded (fire step) Unrivalled bookThenCheck twoRequests :=
  always_noDoubleBooking_iff_unrivalled (by intro a ha; cases ha) (by intro i; rfl) rfl

end SalesTrades.Bookings
