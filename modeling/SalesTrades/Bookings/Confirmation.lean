import SalesTrades.Bookings.Model
import SalesTrades.Library.Markup

/-!
# The HTML of a booking confirmation

The HTML part of `_send_confirmation`, with the name of the booker and the purpose of the booking as its
fields. When the texts of the room and of the times are ordinary, the copy leaves both in a place for
text (`confirmation_reaches`).
-/

set_option autoImplicit false

namespace SalesTrades.Bookings

open SalesTrades.Library.Markup

/-- The texts of a room. -/
structure RoomText where
  name : String
  location : Option String

/-- `strftime` in the time zone of the bookings, and the name of the zone. -/
structure ConfirmationLib where
  strftime : String → Int → String
  bookingTz : String

def dateStr (lib : ConfirmationLib) (booking : Booking) : String :=
  lib.strftime "%A, %d %B %Y" booking.slot.startTime

def timeStr (lib : ConfirmationLib) (booking : Booking) : String :=
  lib.strftime "%I:%M %p" booking.slot.startTime ++ " – " ++
    lib.strftime "%I:%M %p" booking.slot.endTime

def locationSuffix (room : RoomText) : String :=
  if room.location.getD "" = "" then "" else " (" ++ room.location.getD "" ++ ")"

def purposeRow (booking : Booking) : List Piece :=
  if booking.title.getD "" = "" then []
  else
    [.copy "<tr><td style=\"padding:6px 0;color:#666\">Purpose</td><td style=\"padding:6px 0\">",
     .field (booking.title.getD ""),
     .copy "</td></tr>"]

/-- The HTML of `_send_confirmation`. -/
def confirmationHtml (lib : ConfirmationLib) (booking : Booking) (room : RoomText) : List Piece :=
  ([.copy "<div style=\"font-family:Arial,Helvetica,sans-serif;max-width:560px;margin:auto;",
   .copy "color:#1a1a1a\">\n",
   .copy "  <h2 style=\"margin-bottom:4px\">Booking confirmed</h2>\n",
   .copy "  <p>Hi ", .field booking.bookerName, .copy ", your booking is confirmed.",
   .copy "</p>\n",
   .copy "  <table style=\"border-collapse:collapse;width:100%;margin:16px 0\">\n",
   .copy "    <tr><td style=\"padding:6px 0;color:#666\">Room</td>\n",
   .copy "        <td style=\"padding:6px 0;font-weight:600\">",
   .copy room.name, .copy (locationSuffix room), .copy "</td></tr>\n",
   .copy "    <tr><td style=\"padding:6px 0;color:#666\">Date</td>\n",
   .copy "        <td style=\"padding:6px 0;font-weight:600\">",
   .copy (dateStr lib booking), .copy "</td></tr>\n",
   .copy "    <tr><td style=\"padding:6px 0;color:#666\">Time</td>\n",
   .copy "        <td style=\"padding:6px 0;font-weight:600\">",
   .copy (timeStr lib booking), .copy s!" ({lib.bookingTz})", .copy "</td></tr>\n    "] : List Piece) ++
  purposeRow booking ++
  ([.copy "\n  </table>\n",
   .copy "  <div style=\"background:#f4f6f8;border-radius:8px;padding:16px;text-align:center;",
   .copy "margin:16px 0\">\n",
   .copy "    <div style=\"color:#666;font-size:13px;letter-spacing:.04em\">ACCESS CODE</div>\n",
   .copy "    <div style=\"font-size:28px;font-weight:700;letter-spacing:.18em;margin-top:4px\">",
   .copy booking.accessCode, .copy "</div>\n",
   .copy "  </div>\n",
   .copy "  <p style=\"color:#666;font-size:13px\">Present this access code on arrival. ",
   .copy "Keep this email for your records.</p>\n",
   .copy "</div>\n"] : List Piece)

/-! ## The copy of the confirmation -/

variable {lib : ConfirmationLib} {booking booking' : Booking} {room : RoomText}

theorem confirmation_fields : fields (confirmationHtml lib booking room) =
    booking.bookerName :: if booking.title.getD "" = "" then [] else [booking.title.getD ""] := by
  rw [confirmationHtml, purposeRow]
  split <;> rfl

theorem confirmation_closed : Closed (confirmationHtml lib booking room) := by
  have hname : Closing "</p>\n".toList := closing_ofList [] 'p' ['>', '\n'] rfl rfl rfl
  have htitle : Closing "</td></tr>".toList :=
    closing_ofList [] 't' ['d', '>', '<', '/', 't', 'r', '>'] rfl rfl rfl
  have hconfirmed : ", your booking is confirmed.".toList.all isOrdinary = true ∧
      ", your booking is confirmed.".toList.head?.all separates = true := by decide +kernel
  rw [confirmationHtml, purposeRow]
  split
  · exact ⟨closing_after_text hconfirmed.1 hconfirmed.2 (closing_append hname _), trivial⟩
  · exact ⟨closing_after_text hconfirmed.1 hconfirmed.2 (closing_append hname _), closing_append htitle _, trivial⟩

/-- The copy depends on whether there is a purpose, on the slot and on the access code. -/
theorem confirmation_blanks (hslot : booking.slot = booking'.slot)
    (hcode : booking.accessCode = booking'.accessCode)
    (htitle : booking.title.getD "" = "" ↔ booking'.title.getD "" = "") :
    blanks (confirmationHtml lib booking room) = blanks (confirmationHtml lib booking' room) := by
  simp only [confirmationHtml, purposeRow, dateStr, timeStr, hslot, hcode]
  by_cases hempty : booking.title.getD "" = ""
  · rw [if_pos hempty, if_pos (htitle.1 hempty)]
    rfl
  · rw [if_neg hempty, if_neg fun h => hempty (htitle.2 h)]
    rfl

set_option maxRecDepth 4000 in
/-- In ordinary copy the fields stand in places for text. -/
theorem confirmation_reaches (refs : References) (hname : room.name.toList.all isOrdinary = true)
    (hlocation : (locationSuffix room).toList.all isOrdinary = true)
    (hdate : (dateStr lib booking).toList.all isOrdinary = true)
    (htime : (timeStr lib booking).toList.all isOrdinary = true)
    (htz : lib.bookingTz.toList.all isOrdinary = true) :
    reaches refs .data (confirmationHtml lib booking room) = true := by
  have hdata : (Place.known .data).Describes .data := rfl
  refine reaches_of_place hdata ?_
  have hzone : s!" ({lib.bookingTz})".toList.all isOrdinary = true := by
    simp [toString, htz, isOrdinary]
  rw [confirmationHtml, purposeRow]
  simp only [List.cons_append, List.nil_append]
  refine place_reaches_literal (.markup .doubleQuoted ['d', 'i', 'v']) (by decide +kernel) ?_
  refine place_reaches_literal (.known .data) (by decide +kernel) ?_
  refine place_reaches_literal (.known .data) (by decide +kernel) ?_
  refine place_reaches_literal (.known .data) (by decide +kernel) (place_reaches_field ?_)
  refine place_reaches_literal (.known .data) (by decide +kernel) ?_
  refine place_reaches_literal (.known .data) (by decide +kernel) ?_
  refine place_reaches_literal (.known .data) (by decide +kernel) ?_
  refine place_reaches_literal (.known .data) (by decide +kernel) ?_
  refine place_reaches_literal (.known .data) (by decide +kernel) ?_
  refine place_reaches_ordinary hname (place_reaches_ordinary hlocation ?_)
  refine place_reaches_literal (.known .data) (by decide +kernel) ?_
  refine place_reaches_literal (.known .data) (by decide +kernel) ?_
  refine place_reaches_literal (.known .data) (by decide +kernel) ?_
  refine place_reaches_ordinary hdate ?_
  refine place_reaches_literal (.known .data) (by decide +kernel) ?_
  refine place_reaches_literal (.known .data) (by decide +kernel) ?_
  refine place_reaches_literal (.known .data) (by decide +kernel) ?_
  refine place_reaches_ordinary htime (place_reaches_ordinary hzone ?_)
  refine place_reaches_literal (.known .data) (by decide +kernel) ?_
  split
  · exact place_reaches_last rfl
  · refine place_reaches_literal (.known .data) (by decide +kernel) (place_reaches_field ?_)
    exact place_reaches_literal (.known .data) (by decide +kernel) (place_reaches_last rfl)

end SalesTrades.Bookings
