import SalesTrades.Bookings.Confirmation
import SalesTrades.Emails.CampaignMailer

/-!
# Submitted text in the emails

No template escapes what a visitor submitted. Two submissions that differ in the characters of their
texts only get emails that differ in text only exactly when the copy of the emails leaves the texts in
places for text and all the texts are plain (`submitted_text_alters_no_markup_iff`).
-/

set_option autoImplicit false

namespace SalesTrades.Emails

open SalesTrades.Library.Markup SalesTrades.Leads SalesTrades.Bookings SalesTrades.Emails.CampaignMailer

/-- What the emails take from elsewhere: the campaign, the room and the library functions. -/
structure MailSetting where
  lib : MailLib
  mail : MailConfig
  campaign : Campaign
  confirmation : ConfirmationLib
  room : RoomText

/-- The emails that a submission is sent in. -/
inductive Email where
  | pack (lead : Lead)
  | viewing (lead : Lead)
  | notification (lead : Lead)
  | booking (booking : Booking)

/-- The HTML body, or the error that the builder raises. -/
def Email.html (st : MailSetting) : Email → Except PyError (List Piece)
  | .pack lead => buildPackEmail st.lib lead st.mail (deliverableMaterials lead st.campaign)
  | .viewing lead => buildViewingBookingEmail st.lib lead st.mail st.campaign.config
  | .notification lead => .ok (buildLeadNotificationEmail st.lib lead st.mail)
  | .booking b => .ok (confirmationHtml st.confirmation b st.room)

/-- The submitted texts that the email shows. -/
def Email.submitted : Email → List String
  | .pack lead | .viewing lead => if lead.firstName = "" then [] else [lead.firstName]
  | .notification lead =>
      [fullName lead, orNotProvided lead.company, orNotProvided (lead.jobTitle.getD ""),
        orNotProvided (lead.timing.getD "")] ++ lead.requestedMaterials.getD []
  | .booking b => b.bookerName :: if b.title.getD "" = "" then [] else [b.title.getD ""]

/-- Two leads that differ in the characters of their non-empty texts only. -/
structure SameLeadButText (lead lead' : Lead) : Prop where
  firstName : lead.firstName = "" ↔ lead'.firstName = ""
  lastName : lead.lastName = "" ↔ lead'.lastName = ""
  company : lead.company = "" ↔ lead'.company = ""
  jobTitle : lead.jobTitle.getD "" = "" ↔ lead'.jobTitle.getD "" = ""
  timing : lead.timing.getD "" = "" ↔ lead'.timing.getD "" = ""
  materials : (lead.requestedMaterials.getD []).length = (lead'.requestedMaterials.getD []).length
  email : lead.email = lead'.email
  phone : lead.phone = lead'.phone
  inspection : lead.inspectionRequested = lead'.inspectionRequested
  marketing : lead.marketingOptIn = lead'.marketingOptIn
  capturedAt : lead.capturedAt = lead'.capturedAt

/-- Two bookings that differ in the characters of their non-empty texts only. -/
structure SameBookingButText (booking booking' : Booking) : Prop where
  bookerName : booking.bookerName = "" ↔ booking'.bookerName = ""
  title : booking.title.getD "" = "" ↔ booking'.title.getD "" = ""
  slot : booking.slot = booking'.slot
  accessCode : booking.accessCode = booking'.accessCode

/-- The same email for two submissions that differ in the characters of their texts only. -/
inductive SameButText (st : MailSetting) : Email → Email → Prop
  | pack {lead lead' : Lead} (h : SameLeadButText lead lead')
      (hlabels : deliverableLabels lead st.campaign = deliverableLabels lead' st.campaign) :
      SameButText st (.pack lead) (.pack lead')
  | viewing {lead lead' : Lead} (h : SameLeadButText lead lead') :
      SameButText st (.viewing lead) (.viewing lead')
  | notification {lead lead' : Lead} (h : SameLeadButText lead lead') :
      SameButText st (.notification lead) (.notification lead')
  | booking {booking booking' : Booking} (h : SameBookingButText booking booking') :
      SameButText st (.booking booking) (.booking booking')

/-! ## The templates -/

theorem greeting_fields (lead : Lead) :
    fields (greeting lead) = if lead.firstName = "" then [] else [lead.firstName] := by
  rw [greeting]
  split <;> rfl

theorem greeting_blanks {lead lead' : Lead} (h : lead.firstName = "" ↔ lead'.firstName = "") :
    blanks (greeting lead) = blanks (greeting lead') := by
  rw [greeting, greeting]
  by_cases hempty : lead.firstName = ""
  · rw [if_pos hempty, if_pos (h.1 hempty)]
  · rw [if_neg hempty, if_neg fun h' => hempty (h.2 h')]
    rfl

theorem greeting_closed {after : List Piece} (lead : Lead) (hclosing : Closing (leadingCopy after))
    (hafter : fields after = []) : Closed (greeting lead ++ after) := by
  rw [greeting]
  split
  · exact closed_copy hafter
  · refine ⟨?_, closed_copy hafter⟩
    have hcomma : ",".toList.all isOrdinary = true ∧ ",".toList.head?.all separates = true := by
      decide +kernel
    exact closing_after_text hcomma.1 hcomma.2 hclosing

theorem deliverableLoop_eq_map (config : CampaignConfig) (seen requested : List String) :
    deliverableLoop config seen requested =
      ((deliverableLoop config seen requested).map Prod.fst).map fun label =>
        (label, assetUrls (Json.member config.materialsAssets label)) := by
  induction requested generalizing seen with
  | nil => rfl
  | cons first rest ih =>
      rw [deliverableLoop]
      split
      · exact ih seen
      · simp only
        split
        · exact ih seen
        · rw [List.map_cons, List.map_cons, ← ih]

theorem deliverableMaterials_eq {lead lead' : Lead} {campaign : Campaign}
    (h : deliverableLabels lead campaign = deliverableLabels lead' campaign) :
    deliverableMaterials lead campaign = deliverableMaterials lead' campaign := by
  rw [deliverableMaterials, deliverableMaterials, deliverableLoop_eq_map]
  rw [deliverableLoop_eq_map campaign.config [] (lead'.requestedMaterials.getD [])]
  exact congrArg _ h

/-- Two emails of one template. -/
structure SameTemplate (pieces pieces' : List Piece) (values values' : List String) : Prop where
  closed : Closed pieces
  copy : blanks pieces = blanks pieces'
  values : fields pieces = values
  values' : fields pieces' = values'

theorem sameTemplate_greeting {build : Lead → Except PyError (List Piece)}
    (hshape : (∃ e, ∀ lead, build lead = .error e) ∨ ∃ before after, GreetingShape build before after)
    {lead lead' : Lead} (h : SameLeadButText lead lead') {pieces pieces' : List Piece}
    (hbuilt : build lead = .ok pieces) (hbuilt' : build lead' = .ok pieces') :
    SameTemplate pieces pieces' (if lead.firstName = "" then [] else [lead.firstName])
      (if lead'.firstName = "" then [] else [lead'.firstName]) := by
  rcases hshape with ⟨e, herror⟩ | ⟨before, after, hbefore, hafter, hclosing, hok⟩
  · rw [herror lead] at hbuilt
    cases hbuilt
  have hfields : ∀ l, fields (before ++ (greeting l ++ after)) =
      if l.firstName = "" then [] else [l.firstName] := fun l => by
    rw [fields_append, fields_append, hbefore, hafter, List.nil_append, List.append_nil,
      greeting_fields]
  rw [hok lead, Except.ok.injEq] at hbuilt
  rw [hok lead', Except.ok.injEq] at hbuilt'
  subst hbuilt
  subst hbuilt'
  refine ⟨?_, ?_, hfields lead, hfields lead'⟩
  · exact (closed_copy_append hbefore).2 (greeting_closed lead hclosing hafter)
  · rw [blanks_append, blanks_append, blanks_append, blanks_append, greeting_blanks h.firstName]

/-- Submissions that differ in the characters of their texts only get emails of one template. -/
theorem sameTemplate {st : MailSetting} {m m' : Email} (hsame : SameButText st m m')
    {pieces pieces' : List Piece} (hbuilt : m.html st = .ok pieces)
    (hbuilt' : m'.html st = .ok pieces') :
    SameTemplate pieces pieces' m.submitted m'.submitted := by
  cases hsame with
  | @pack lead lead' h hlabels =>
      rw [Email.html, ← deliverableMaterials_eq hlabels] at hbuilt'
      exact sameTemplate_greeting (buildPackEmail_shape st.lib st.mail _) h hbuilt hbuilt'
  | viewing h =>
      exact sameTemplate_greeting (buildViewingBookingEmail_shape st.lib st.mail st.campaign.config)
        h hbuilt hbuilt'
  | notification h =>
      rw [← Except.ok.inj hbuilt, ← Except.ok.inj hbuilt']
      exact ⟨notification_closed, notification_blanks h.email h.phone h.inspection h.marketing
        h.capturedAt h.materials, notification_fields, notification_fields⟩
  | booking h =>
      rw [← Except.ok.inj hbuilt, ← Except.ok.inj hbuilt']
      exact ⟨confirmation_closed, confirmation_blanks h.slot h.accessCode h.title,
        confirmation_fields, confirmation_fields⟩

/-! ## Text stays text -/

/-- **Submitted text alters no markup exactly when the copy leaves it in places for text and it is
plain.** -/
theorem submitted_text_alters_no_markup_iff (refs : References) (st : MailSetting) {m m' : Email}
    (hsame : SameButText st m m') {pieces pieces' : List Piece} (hbuilt : m.html st = .ok pieces)
    (hbuilt' : m'.html st = .ok pieces') :
    DiffersInTextOnly refs pieces pieces' ↔ reaches refs .data (blanks pieces) = true ∧
      (∀ value ∈ m.submitted, PlainText refs value.toList) ∧
      ∀ value ∈ m'.submitted, PlainText refs value.toList := by
  have htemplate := sameTemplate hsame hbuilt hbuilt'
  rw [differsInTextOnly_iff htemplate.closed htemplate.copy, htemplate.values, htemplate.values']

/-! ### Two bookings of one room -/

def boardroom : MailSetting where
  lib := ⟨fun _ => "", fun _ => "1 January 2026, 09:00", ⟨0, none⟩⟩
  mail := ⟨"WTC Abuja", .obj [], .obj [], .obj []⟩
  campaign := ⟨1, "wtc", .active, ⟨[], [], none, none, none, [], [], none⟩⟩
  confirmation := ⟨fun _ _ => "Monday", "Africa/Lagos"⟩
  room := ⟨"Boardroom", none⟩

theorem start_lt_hour : (0 : Int) < 3600 := by decide

def mondayMorning : Slot := ⟨0, 3600, start_lt_hour⟩

def bookedBy (name : String) : Booking :=
  ⟨1, name, "ada@example.com", none, mondayMorning, "ABC123", .confirmed⟩

theorem bookedBy_same {name name' : String} (h : name ≠ "") (h' : name' ≠ "") :
    SameButText boardroom (.booking (bookedBy name)) (.booking (bookedBy name')) :=
  .booking ⟨iff_of_false h h', Iff.rfl, rfl, rfl⟩

theorem boardroom_reaches (refs : References) (name : String) :
    reaches refs .data (confirmationHtml boardroom.confirmation (bookedBy name) boardroom.room) =
      true := by
  have hdate : dateStr boardroom.confirmation (bookedBy name) = "Monday" := rfl
  have htime : timeStr boardroom.confirmation (bookedBy name) = "Monday" ++ " – " ++ "Monday" := rfl
  apply confirmation_reaches
  · decide +kernel
  · decide +kernel
  · rw [hdate]
    decide +kernel
  · rw [htime]
    decide +kernel
  · decide +kernel

theorem plainText_of_ordinary {refs : References} {value : String}
    (h : value.toList.all isOrdinary = true) : PlainText refs value.toList := by
  have hplain : PlainText refs (value.toList ++ []) ↔ PlainText refs [] :=
    plainText_ordinary_append (List.all_eq_true.1 h)
  rw [List.append_nil] at hplain
  exact hplain.2 trivial

/-- Two plain names: the emails differ in text only. -/
theorem plain_names_alter_no_markup :
    SameButText boardroom (.booking (bookedBy "Ada")) (.booking (bookedBy "Bola")) ∧
      DiffersInTextOnly noReferences
        (confirmationHtml boardroom.confirmation (bookedBy "Ada") boardroom.room)
        (confirmationHtml boardroom.confirmation (bookedBy "Bola") boardroom.room) := by
  have hsame : SameButText boardroom (.booking (bookedBy "Ada")) (.booking (bookedBy "Bola")) :=
    bookedBy_same (by decide) (by decide)
  refine ⟨hsame, ?_⟩
  rw [submitted_text_alters_no_markup_iff noReferences boardroom hsame rfl rfl, reaches_blanks]
  refine ⟨boardroom_reaches _ _, ?_, ?_⟩
  · intro value hvalue
    obtain rfl : value = "Ada" := List.mem_singleton.1 hvalue
    exact plainText_of_ordinary (by decide +kernel)
  · intro value hvalue
    obtain rfl : value = "Bola" := List.mem_singleton.1 hvalue
    exact plainText_of_ordinary (by decide +kernel)

/-- A tag in the name of the booker is a tag in the email. -/
theorem name_with_tag_alters_markup :
    SameButText boardroom (.booking (bookedBy "Ada")) (.booking (bookedBy "<b>Ada")) ∧
      ¬ DiffersInTextOnly noReferences
        (confirmationHtml boardroom.confirmation (bookedBy "Ada") boardroom.room)
        (confirmationHtml boardroom.confirmation (bookedBy "<b>Ada") boardroom.room) := by
  refine ⟨bookedBy_same (by decide) (by decide), fun hdiffers => ?_⟩
  have hread := (readsAsIntended_iff confirmation_closed).1 hdiffers.2.2
  have hplain := hread.2 "<b>Ada" List.mem_cons_self
  have hchars : "<b>Ada".toList = ['<', 'b', '>', 'A', 'd', 'a'] := String.toList_ofList
  rw [hchars] at hplain
  exact Bool.noConfusion (hplain.2.2.1 rfl 'b' rfl)

end SalesTrades.Emails
