import SalesTrades.Leads.PackDelivery
import SalesTrades.Library.Markup

/-!
# The HTML of the campaign emails

The HTML parts of `build_pack_email`, `build_viewing_booking_email` and `build_lead_notification_email`.
A template is a list of pieces: what the visitor submitted are its fields, the rest is its copy. The
texts beside the HTML are left out, but not that joining them fails when the introduction or a title is
no string.
-/

set_option autoImplicit false

namespace SalesTrades.Emails.CampaignMailer

open SalesTrades.Library SalesTrades.Library.Markup SalesTrades.Leads

/-- What the templates read of a campaign beside its materials. A key that `config` does not have is
an empty object. -/
structure MailConfig where
  name : String
  digitalPack : Json
  viewingBooking : Json
  materialsDisplay : Json

structure MailLib where
  /-- `str(value)`, which an f-string writes. -/
  str : Json → String
  /-- `astimezone(UTC).strftime("%-d %B %Y, %H:%M")`. -/
  strftime : Datetime → String
  now : Datetime

/-- `value.get(key, default)`. -/
def getOr (value : Json) (key : String) (default : Json) : Except PyError Json :=
  match value with
  | .obj members => .ok (((members.find? fun m => m.1 == key).map Prod.snd).getD default)
  | _ => .error .attributeError

/-- A part of the text is joined with the others. -/
def joined : Json → Except PyError String
  | .str s => .ok s
  | _ => .error .typeError

/-! ## The notification of the sales team -/

def gold : String := "#c79a3a"
def bg : String := "#0c0d0f"
def card : String := "#131418"
def inner : String := "#0c0d0f"
def dividerColor : String := "#1e2028"
def white : String := "#ffffff"
def muted : String := "#d1d5db"
def dim : String := "#4b5563"
def labelGray : String := "#6b7280"

def label (text : String) : String :=
  s!"<div style=\"color:{gold};font-size:9px;font-weight:700;" ++
    s!"letter-spacing:0.14em;text-transform:uppercase;margin-bottom:6px\">{text}</div>"

def divider : String :=
  s!"<div style=\"height:1px;background:{dividerColor};margin:0 0 20px\"></div>"

def wtcHeader (subtitle : String) : String :=
  "      <table width=\"100%\" cellpadding=\"0\" cellspacing=\"0\">\n" ++
  s!"        <tr><td style=\"background:{bg};padding:36px 40px 0;text-align:center\">\n" ++
  s!"          <div style=\"color:{gold};font-size:10px;font-weight:700;letter-spacing:0.2em;text-transform:uppercase;margin-bottom:12px\">WORLD TRADE CENTER</div>\n" ++
  s!"          <div style=\"color:{white};font-size:30px;font-weight:800;margin-bottom:10px\">WTC Abuja</div>\n" ++
  s!"          <div style=\"color:{gold};font-size:14px;margin-bottom:28px\">{subtitle}</div>\n" ++
  s!"          <div style=\"height:1px;background:linear-gradient(to right,transparent,{gold} 20%,{gold} 80%,transparent)\"></div>\n" ++
  "        </td></tr>\n" ++
  "      </table>"

def wtcFooter (campaignName capturedAt : String) : String :=
  "      <table width=\"100%\" cellpadding=\"0\" cellspacing=\"0\">\n" ++
  s!"        <tr><td style=\"background:{bg};border-top:1px solid {dividerColor};padding:22px 40px;text-align:center\">\n" ++
  s!"          <div style=\"color:{dim};font-size:12px;margin-bottom:4px\">Captured via WTC Abuja Concierge App</div>\n" ++
  s!"          <div style=\"color:{dim};font-size:12px;margin-bottom:14px\">{capturedAt} &middot; {campaignName}</div>\n" ++
  s!"          <div style=\"color:{gold};font-size:9px;font-weight:700;letter-spacing:0.2em;text-transform:uppercase\">WORLD TRADE CENTER ABUJA</div>\n" ++
  "        </td></tr>\n" ++
  "      </table>"

def wrap (bodyHtml : List Piece) : List Piece :=
  .copy (s!"<div style=\"background:{bg};margin:0;padding:32px 16px;font-family:Arial,Helvetica,sans-serif\">\n" ++
    "  <table width=\"100%\" cellpadding=\"0\" cellspacing=\"0\" style=\"max-width:600px;margin:0 auto\">\n" ++
    s!"    <tr><td style=\"background:{card};border-radius:16px;overflow:hidden\">\n") ::
  bodyHtml ++
  [.copy "\n    </td></tr>\n  </table>\n</div>"]

/-- `" ".join(filter(None, [first_name, last_name])) or "Unknown"`. -/
def fullName (lead : Lead) : String :=
  if lead.firstName = "" then (if lead.lastName = "" then "Unknown" else lead.lastName)
  else if lead.lastName = "" then lead.firstName
  else lead.firstName ++ " " ++ lead.lastName

/-- `value or "Not provided"`. -/
def orNotProvided (value : String) : String := if value = "" then "Not provided" else value

def matItem (m : String) : List Piece :=
  [.copy (s!"<div style=\"color:{muted};font-size:14px;margin-bottom:10px\">" ++
    s!"<span style=\"color:{gold};margin-right:10px\">&#10022;</span>"),
   .field m, .copy "</div>"]

/-- The items of the materials block. -/
def matItems (requestedMaterials : List String) : List Piece :=
  if requestedMaterials = [] then
    [.copy s!"<div style=\"color:{labelGray};font-size:14px\">None requested</div>"]
  else requestedMaterials.flatMap matItem

def phoneLine (lead : Lead) : String :=
  if lead.phone = "" then ""
  else s!"<div style=\"color:{gold};font-size:14px;margin-top:6px\">" ++ s!"&#128241; {lead.phone}</div>"

def buildLeadNotificationEmail (lib : MailLib) (lead : Lead) (campaign : MailConfig) : List Piece :=
  let inspectionLabel := if lead.inspectionRequested then "YES" else "NO"
  let marketingBg := if lead.marketingOptIn then gold else "#1a1c22"
  let marketingColor := if lead.marketingOptIn then "#15181e" else labelGray
  let marketingLabel := if lead.marketingOptIn then "OPT-IN" else "NO"
  wrap <|
    [.copy (wtcHeader "New Lead Notification" ++ "\n" ++
      "      <table width=\"100%\" cellpadding=\"0\" cellspacing=\"0\">\n" ++
      "        <tr><td style=\"padding:32px 40px\">\n" ++
      "          <table width=\"100%\" cellpadding=\"0\" cellspacing=\"0\" style=\"margin-bottom:20px\">\n" ++
      "            <tr>\n" ++
      "              <td width=\"50%\" style=\"vertical-align:top;padding-right:16px\">\n" ++
      "                " ++ label "NAME" ++ "\n" ++
      s!"                <div style=\"color:{white};font-size:16px;font-weight:700;line-height:1.35\">"),
     .field (fullName lead),
     .copy "</div>\n",
     .copy ("              </td>\n" ++
      "              <td width=\"50%\" style=\"vertical-align:top;padding-left:16px\">\n" ++
      "                " ++ label "COMPANY" ++ "\n" ++
      s!"                <div style=\"color:{white};font-size:16px;font-weight:700;line-height:1.35\">"),
     .field (orNotProvided lead.company),
     .copy "</div>\n",
     .copy ("              </td>\n" ++
      "            </tr>\n" ++
      "          </table>\n" ++
      s!"          {divider}\n" ++
      "          <table width=\"100%\" cellpadding=\"0\" cellspacing=\"0\" style=\"margin-bottom:20px\">\n" ++
      "            <tr>\n" ++
      "              <td width=\"50%\" style=\"vertical-align:top;padding-right:16px\">\n" ++
      "                " ++ label "TITLE" ++ "\n" ++
      s!"                <div style=\"color:{muted};font-size:14px\">"),
     .field (orNotProvided (lead.jobTitle.getD "")),
     .copy "</div>\n",
     .copy ("              </td>\n" ++
      "              <td width=\"50%\" style=\"vertical-align:top;padding-left:16px\">\n" ++
      "                " ++ label "TIMING" ++ "\n" ++
      s!"                <div style=\"color:{muted};font-size:14px\">"),
     .field (orNotProvided (lead.timing.getD "")),
     .copy "</div>\n",
     .copy ("              </td>\n" ++
      "            </tr>\n" ++
      "          </table>\n" ++
      s!"          {divider}\n" ++
      "          " ++ label "CONTACT" ++ "\n" ++
      s!"          <div style=\"color:{gold};font-size:14px\"><a href=\"mailto:"),
     .copy lead.email,
     .copy s!"\" style=\"color:{gold};text-decoration:none\">&#9993; ",
     .copy lead.email,
     .copy "</a></div>\n          ",
     .copy (phoneLine lead),
     .copy ("\n          " ++
      s!"          <div style=\"background:{inner};border-radius:10px;padding:20px 24px;margin:20px 0\">\n" ++
      "            " ++ label "MATERIALS" ++ "\n            ")] ++
    matItems (lead.requestedMaterials.getD []) ++
    [.copy ("\n          </div>\n" ++
      "          <table width=\"100%\" cellpadding=\"0\" cellspacing=\"0\" style=\"margin-top:20px\">\n" ++
      "            <tr>\n" ++
      "              <td width=\"50%\" style=\"padding-right:6px\">\n" ++
      s!"                <div style=\"background:#1a1c22;border-radius:8px;padding:12px;text-align:center;color:{labelGray};font-size:11px;font-weight:700;letter-spacing:0.05em\">&#128273; INSPECTION: {inspectionLabel}</div>\n" ++
      "              </td>\n" ++
      "              <td width=\"50%\" style=\"padding-left:6px\">\n" ++
      s!"                <div style=\"background:{marketingBg};border-radius:8px;padding:12px;text-align:center;color:{marketingColor};font-size:11px;font-weight:700;letter-spacing:0.05em\">&#128226; MARKETING: {marketingLabel}</div>\n" ++
      "              </td>\n" ++
      "            </tr>\n" ++
      "          </table>\n" ++
      "        </td></tr>\n" ++
      "      </table>\n" ++
      wtcFooter campaign.name (lib.strftime (lead.capturedAt.getD lib.now)))]

/-! ## The emails to the visitor -/

def cCream : String := "#f0ede6"
def cInk : String := "#111110"
def cInkSoft : String := "#444442"
def cMuted : String := "#888885"
def cGold : String := "#c9a84c"
def cGoldDk : String := "#b8960c"
def cLine : String := "#e0ddd6"
def cPanel : String := "#f4f1eb"
def cStrip : String := "#1a1a18"
def cFoot : String := "#0d0d0c"
def cHeroBg : String := "#111110"
def serif : String := "Georgia,'Times New Roman',serif"
def sans : String := "'Helvetica Neue',Helvetica,Arial,sans-serif"

def head : String :=
  "<!DOCTYPE html>\n<html><head><meta charset=\"UTF-8\">" ++
  "<meta name=\"viewport\" content=\"width=device-width,initial-scale=1\">" ++
  "<style>" ++
  "@media only screen and (max-width:480px)\x7b" ++
  ".wtc-row-text\x7bdisplay:block!important;width:100%!important;\x7d" ++
  ".wtc-row-btn\x7bdisplay:block!important;width:100%!important;" ++
  "padding-left:0!important;text-align:left!important;\x7d" ++
  ".wtc-btn\x7bmargin:14px 0 0 0!important;width:100%!important;\x7d" ++
  ".wtc-btn a\x7bdisplay:block!important;text-align:center!important;\x7d" ++
  "\x7d" ++
  "</style></head>"

def cButton (url buttonLabel : String) (goldButton : Bool) : String :=
  let buttonBg := if goldButton then cGoldDk else cInk
  "<table role=\"presentation\" cellpadding=\"0\" cellspacing=\"0\" border=\"0\" " ++
  "class=\"wtc-btn\" style=\"display:inline-block;margin:6px 0 0 8px;\">" ++
  s!"<tr><td bgcolor=\"{buttonBg}\" style=\"border-radius:2px;\">" ++
  s!"<a href=\"{url}\" target=\"_blank\" style=\"display:inline-block;padding:11px 22px;" ++
  s!"font-family:{sans};font-size:10px;font-weight:700;letter-spacing:0.1em;" ++
  "white-space:nowrap;text-transform:uppercase;color:#ffffff;" ++
  s!"text-decoration:none;\">{buttonLabel} &#8595;</a>" ++
  "</td></tr></table>"

/-- The logo of `_c_header`. -/
def brand (lib : MailLib) (logoUrl : Json) : List Piece :=
  if logoUrl.truthy then
    [.copy "<img src=\"", .copy (lib.str logoUrl),
     .copy ("\" width=\"160\" alt=\"World Trade Center Abuja\" " ++
      "style=\"width:160px;height:auto;display:block;border:0;\">")]
  else
    [.copy (s!"<span style=\"font-family:{sans};font-size:11px;font-weight:700;" ++
      "letter-spacing:0.22em;text-transform:uppercase;color:#ffffff;\">" ++
      s!"World Trade Center <span style=\"color:{cGold};\">Abuja</span></span>")]

/-- `inner` of `_c_header`. -/
def heroInner (lib : MailLib) (tag headingHtml : String) (logoUrl : Json) (spacerHeight : ℕ)
    (showLabel : Bool) : List Piece :=
  [.copy ("            <table width=\"100%\" cellpadding=\"0\" cellspacing=\"0\" border=\"0\" role=\"presentation\">\n" ++
    "              <tr>\n" ++
    "                <td style=\"padding:30px 40px 34px;\">\n" ++
    "                  <table width=\"100%\" cellpadding=\"0\" cellspacing=\"0\" border=\"0\" role=\"presentation\">\n" ++
    "                    <tr>\n" ++
    "                      <td align=\"left\" style=\"vertical-align:middle;\">")] ++
  brand lib logoUrl ++
  [.copy ("</td>\n" ++
    "                      <td align=\"right\" style=\"vertical-align:middle;\">\n" ++
    s!"                        <span style=\"font-family:{sans};font-size:9px;font-weight:700;letter-spacing:0.2em;text-transform:uppercase;color:rgba(255,255,255,0.55);\">{tag}</span>\n" ++
    "                      </td>\n" ++
    "                    </tr>\n" ++
    "                  </table>\n" ++
    s!"                  <div style=\"font-size:0;line-height:0;height:{spacerHeight}px;\">&nbsp;</div>\n                  "),
   .copy (if showLabel then
      s!"<p style=\"font-family:{sans};font-size:8px;font-weight:700;letter-spacing:0.2em;text-transform:uppercase;color:{cGold};margin:0 0 8px;\">World Trade Center &middot; Abuja</p>"
      else ""),
   .copy "\n                  ",
   .copy (if headingHtml = "" then "" else
      s!"<p style=\"font-family:{serif};font-size:27px;font-weight:400;color:#ffffff;line-height:1.15;margin:0;\">{headingHtml}</p>"),
   .copy ("\n" ++
    "                </td>\n" ++
    "              </tr>\n" ++
    "            </table>")]

def cHeader (lib : MailLib) (tag headingHtml : String) (heroUrl logoUrl : Json) (spacerHeight : ℕ)
    (showLabel : Bool) : List Piece :=
  let innerPieces := heroInner lib tag headingHtml logoUrl spacerHeight showLabel
  let url := lib.str heroUrl
  if heroUrl.truthy then
    [.copy "        <tr>\n          <td background=\"", .copy url,
     .copy (s!"\" bgcolor=\"{cHeroBg}\" valign=\"bottom\" " ++
      s!"style=\"background-color:{cHeroBg};background-image:url('"), .copy url,
     .copy ("');background-position:center;background-size:cover;border-radius:4px 4px 0 0;\">\n" ++
      "            <!--[if gte mso 9]>\n" ++
      "            <v:rect xmlns:v=\"urn:schemas-microsoft-com:vml\" fill=\"true\" stroke=\"false\" style=\"width:600px;height:300px;\">\n" ++
      "            <v:fill type=\"frame\" src=\""), .copy url,
     .copy (s!"\" color=\"{cHeroBg}\" />\n" ++
      "            <v:textbox inset=\"0,0,0,0\">\n" ++
      "            <![endif]-->\n")] ++
    innerPieces ++
    [.copy ("\n            <!--[if gte mso 9]>\n" ++
      "            </v:textbox>\n" ++
      "            </v:rect>\n" ++
      "            <![endif]-->\n" ++
      "          </td>\n" ++
      "        </tr>")]
  else
    [.copy (s!"        <tr>\n          <td bgcolor=\"{cHeroBg}\" " ++
      s!"style=\"background:{cHeroBg};border-radius:4px 4px 0 0;\">\n")] ++
    innerPieces ++
    [.copy "\n          </td>\n        </tr>"]

def cFooter (contactLeadIn footerNoteHtml footerEmail : String) : String :=
  "        <tr>\n" ++
  s!"          <td style=\"background:{cStrip};padding:24px 48px;\">\n" ++
  "            <table width=\"100%\" cellpadding=\"0\" cellspacing=\"0\" border=\"0\" role=\"presentation\">\n" ++
  "              <tr>\n" ++
  "                <td style=\"vertical-align:middle;\">\n" ++
  s!"                  <p style=\"font-family:{sans};font-size:11px;color:#8f8f8b;margin:0 0 4px;\">{contactLeadIn}</p>\n" ++
  s!"                  <a href=\"mailto:{footerEmail}\" style=\"font-family:{sans};font-size:12px;color:{cGold};font-weight:600;text-decoration:none;\">{footerEmail}</a>\n" ++
  "                </td>\n" ++
  "                <td align=\"right\" style=\"vertical-align:middle;\">\n" ++
  s!"                  <a href=\"https://wtcabuja.com\" style=\"font-family:{sans};font-size:8px;letter-spacing:0.1em;text-transform:uppercase;color:{cGold};text-decoration:none;\">wtcabuja.com</a>\n" ++
  "                </td>\n" ++
  "              </tr>\n" ++
  "            </table>\n" ++
  "          </td>\n" ++
  "        </tr>\n" ++
  "        <tr>\n" ++
  s!"          <td style=\"background:{cFoot};padding:20px 48px;border-radius:0 0 4px 4px;\">\n" ++
  s!"            <p style=\"font-family:{sans};font-size:9px;color:#4a4a46;line-height:1.7;margin:0;\">{footerNoteHtml}</p>\n" ++
  "          </td>\n" ++
  "        </tr>"

/-- `_c_shell` up to the body, with the defaults of the two builders. -/
def cShellStart (lib : MailLib) (tag headingHtml : String) (heroUrl logoUrl : Json) : List Piece :=
  [.copy (s!"<body style=\"margin:0;padding:0;background:{cCream};\">\n" ++
    s!"  <table width=\"100%\" cellpadding=\"0\" cellspacing=\"0\" border=\"0\" role=\"presentation\" style=\"background:{cCream};\">\n" ++
    "    <tr>\n" ++
    "      <td align=\"center\" style=\"padding:40px 16px;\">\n" ++
    "        <table width=\"600\" cellpadding=\"0\" cellspacing=\"0\" border=\"0\" role=\"presentation\" style=\"max-width:600px;width:100%;\">\n")] ++
  cHeader lib tag headingHtml heroUrl logoUrl 88 true ++
  [.copy ("\n          <tr>\n" ++
    "            <td style=\"background:#ffffff;padding:40px 48px 36px;\">\n")]

/-- `_c_shell` after the body. -/
def cShellEnd (contactLeadIn footerNoteHtml : String) : List Piece :=
  [.copy ("\n            </td>\n" ++
    "          </tr>\n" ++
    cFooter contactLeadIn footerNoteHtml "enquiries@wtcabuja.com" ++
    "\n        </table>\n" ++
    "      </td>\n" ++
    "    </tr>\n" ++
    "  </table>\n" ++
    "</body>")]

def cShell (lib : MailLib) (tag headingHtml : String) (bodyHtml : List Piece)
    (contactLeadIn footerNoteHtml : String) (heroUrl logoUrl : Json) : List Piece :=
  cShellStart lib tag headingHtml heroUrl logoUrl ++ bodyHtml ++
    cShellEnd contactLeadIn footerNoteHtml

def greeting (lead : Lead) : List Piece :=
  if lead.firstName = "" then [.copy "Hello,"] else [.copy "Hello ", .field lead.firstName, .copy ","]

/-- The line of the body that the greeting stands in. -/
def greetingStart : String :=
  s!"              <p style=\"font-family:{sans};font-size:15px;color:{cInk};line-height:1.6;margin:0 0 8px;\">"

def btnLabel (i total : ℕ) : String := if 1 < total then s!"Download {i + 1}" else "Download"

/-- The row of one material in `_material_rows`. -/
def materialRow (lib : MailLib) (materialLabel : String) (urls : List String) (display : Json) :
    Except PyError String := do
  let entry ← getOr display materialLabel (.obj [])
  let eyebrow ← getOr entry "eyebrow" (.str "Document")
  let title ← getOr entry "title" (.str materialLabel)
  let description ← getOr entry "description" (.str "")
  let featured := (← getOr entry "featured" .null).truthy
  let buttons := String.join <| (urls.zipIdx).map fun (u, i) =>
    cButton u (btnLabel i urls.length) featured
  let descHtml := if description.truthy then
      s!"<p style=\"font-family:{sans};font-size:11px;color:{cMuted};" ++
      s!"margin:4px 0 0;line-height:1.5;\">{lib.str description}</p>"
    else ""
  let innerRow :=
    "                    <table width=\"100%\" cellpadding=\"0\" cellspacing=\"0\" border=\"0\" role=\"presentation\">\n" ++
    "                      <tr>\n" ++
    "                        <td class=\"wtc-row-text\" style=\"vertical-align:middle;\">\n" ++
    s!"                          <p style=\"font-family:{sans};font-size:8px;font-weight:700;letter-spacing:0.18em;text-transform:uppercase;color:{cGoldDk};margin:0 0 4px;\">{lib.str eyebrow}</p>\n" ++
    s!"                          <p style=\"font-family:{serif};font-size:16px;color:{cInk};margin:0;\">{lib.str title}</p>\n" ++
    s!"                          {descHtml}\n" ++
    "                        </td>\n" ++
    s!"                        <td class=\"wtc-row-btn\" align=\"right\" style=\"vertical-align:middle;padding-left:16px;\">{buttons}</td>\n" ++
    "                      </tr>\n" ++
    "                    </table>"
  if featured then
    return s!"<tr><td style=\"border-top:1px solid {cLine};padding-top:22px;\">" ++
      "<table width=\"100%\" cellpadding=\"0\" cellspacing=\"0\" border=\"0\" role=\"presentation\">" ++
      s!"<tr><td style=\"background:{cPanel};border-radius:3px;padding:20px 22px;\">" ++
      s!"{innerRow}</td></tr></table></td></tr>"
  else
    return s!"<tr><td style=\"border-top:1px solid {cLine};padding:22px 0 20px;\">" ++
      s!"{innerRow}</td></tr>"

def materialRows (lib : MailLib) (materials : List (String × List String)) (display : Json) :
    Except PyError String := do
  let rows ← materials.mapM fun m => materialRow lib m.1 m.2 display
  return "\n".intercalate rows

/-- The text of an email joins the titles of the materials. -/
def joinedTitles (materials : List (String × List String)) (display : Json) : Except PyError Unit :=
  materials.forM fun m => do
    let title ← getOr (← getOr display m.1 (.obj [])) "title" (.str m.1)
    let _ ← joined title

/-- The body of the pack email after the greeting. -/
def packBodyRest (introText rowsHtml : String) : String :=
  s!"              <p style=\"font-family:{sans};font-size:14px;color:{cInkSoft};line-height:1.7;margin:0 0 32px;\">{introText}</p>\n" ++
  "              <table width=\"100%\" cellpadding=\"0\" cellspacing=\"0\" border=\"0\" role=\"presentation\">\n" ++
  rowsHtml ++ "\n" ++
  "              </table>"

def buildPackEmail (lib : MailLib) (lead : Lead) (campaign : MailConfig)
    (materials : List (String × List String)) : Except PyError (List Piece) := do
  let packCfg := campaign.digitalPack
  let display := campaign.materialsDisplay
  let intro ← getOr packCfg "intro" (.str
    ("Thank you for your interest in World Trade Center Abuja. As requested, " ++
      "your materials are below — tap any button to download."))
  let eventLine ← getOr packCfg "event_line" (.str "")
  let heroUrl ← getOr packCfg "hero_url" (.str "")
  let logoUrl ← getOr packCfg "logo_url" (.str "")
  joinedTitles materials display
  let introText ← joined intro
  let rowsHtml ← materialRows lib materials display
  let bodyHtml := .copy greetingStart :: (greeting lead ++
    [.copy "</p>\n", .copy (packBodyRest introText rowsHtml)])
  let footerNote := "<br>".intercalate <|
    (if eventLine.truthy then
      [s!"Captured via WTC Abuja Concierge App &nbsp;&middot;&nbsp; {lib.str eventLine}"] else []) ++
    ["World Trade Center Abuja &nbsp;&middot;&nbsp; Central Business District, Abuja, Nigeria",
     "If a download link doesn't open, reply to this email and we'll assist."]
  return .copy head ::
    cShell lib "Digital Pack" "Your materials<br>are ready." bodyHtml "Questions? We're here." footerNote
      heroUrl logoUrl ++
    [.copy "</html>"]

def viewingSteps : List (String × String) :=
  [("Confirmation call",
    "Our team will contact you to confirm a convenient date and time for your private viewing."),
   ("Private tour",
    "A dedicated host will walk you through the offices, residences, and clubhouse — " ++
      "tailored to your interests."),
   ("Tailored proposal",
    "Following your visit, we'll prepare a proposal specific to your requirements — " ++
      "whether office, residence, or both.")]

def stepRow (i : ℕ) (title desc : String) : String :=
  "                  <tr>\n" ++
  "                    <td style=\"vertical-align:top;width:34px;padding:0 0 16px;\">\n" ++
  "                      <table role=\"presentation\" cellpadding=\"0\" cellspacing=\"0\" border=\"0\"><tr>\n" ++
  s!"                        <td width=\"22\" height=\"22\" align=\"center\" bgcolor=\"{cInk}\" style=\"border-radius:11px;font-family:{serif};font-size:11px;color:{cGold};line-height:22px;\">{i}</td>\n" ++
  "                      </tr></table>\n" ++
  "                    </td>\n" ++
  "                    <td style=\"vertical-align:top;padding:0 0 16px 4px;\">\n" ++
  s!"                      <p style=\"font-family:{sans};font-size:12px;font-weight:700;color:{cInk};margin:0 0 3px;\">{title}</p>\n" ++
  s!"                      <p style=\"font-family:{sans};font-size:12px;color:{cMuted};line-height:1.5;margin:0;\">{desc}</p>\n" ++
  "                    </td>\n" ++
  "                  </tr>"

/-- The documents before the visit: the rows, or the brochure, or nothing. -/
def docsBlock (docsRows : String) (hasBrochure : Bool) (brochureUrl : String) : String :=
  if docsRows ≠ "" then
    s!"              <p style=\"font-family:{sans};font-size:8px;font-weight:700;letter-spacing:0.18em;text-transform:uppercase;color:{cGoldDk};margin:0 0 4px;\">Before your visit</p>\n" ++
    s!"              <p style=\"font-family:{sans};font-size:13px;color:{cInkSoft};line-height:1.6;margin:0 0 4px;\">Your documents are ready — tap any button to download.</p>\n" ++
    "              <table width=\"100%\" cellpadding=\"0\" cellspacing=\"0\" border=\"0\" role=\"presentation\">\n" ++
    docsRows ++ "\n" ++
    "              </table>"
  else if hasBrochure then
    "              <table width=\"100%\" cellpadding=\"0\" cellspacing=\"0\" border=\"0\" role=\"presentation\" style=\"margin-top:8px;\">\n" ++
    "                <tr>\n" ++
    s!"                  <td style=\"background:{cPanel};border-radius:3px;padding:22px 24px;\">\n" ++
    "                    <table width=\"100%\" cellpadding=\"0\" cellspacing=\"0\" border=\"0\" role=\"presentation\">\n" ++
    "                      <tr>\n" ++
    "                        <td class=\"wtc-row-text\" style=\"vertical-align:middle;\">\n" ++
    s!"                          <p style=\"font-family:{sans};font-size:8px;font-weight:700;letter-spacing:0.14em;text-transform:uppercase;color:{cGoldDk};margin:0 0 5px;\">Prepare for your visit</p>\n" ++
    s!"                          <p style=\"font-family:{serif};font-size:15px;color:{cInk};margin:0 0 4px;\">Download the full brochure</p>\n" ++
    s!"                          <p style=\"font-family:{sans};font-size:11px;color:{cMuted};line-height:1.5;margin:0;\">Offices, residences, clubhouse and infrastructure — everything in one document.</p>\n" ++
    "                        </td>\n" ++
    "                        <td class=\"wtc-row-btn\" align=\"right\" style=\"vertical-align:middle;padding-left:16px;\">" ++
    cButton brochureUrl "Download" false ++ "</td>\n" ++
    "                      </tr>\n" ++
    "                    </table>\n" ++
    "                  </td>\n" ++
    "                </tr>\n" ++
    "              </table>"
  else ""

/-- The body of the viewing email after the greeting. -/
def viewingBodyRest (introText stepsHtml docs : String) : String :=
  s!"              <p style=\"font-family:{sans};font-size:14px;color:{cInkSoft};line-height:1.7;margin:0 0 32px;\">{introText}</p>\n" ++
  s!"              <p style=\"font-family:{sans};font-size:8px;font-weight:700;letter-spacing:0.18em;text-transform:uppercase;color:{cGoldDk};margin:0 0 18px;padding-top:22px;border-top:1px solid {cLine};\">Your viewing experience</p>\n" ++
  "              <table width=\"100%\" cellpadding=\"0\" cellspacing=\"0\" border=\"0\" role=\"presentation\" style=\"margin-bottom:24px;\">\n" ++
  stepsHtml ++ "\n" ++
  "              </table>\n" ++
  docs

def buildViewingBookingEmail (lib : MailLib) (lead : Lead) (campaign : MailConfig)
    (config : CampaignConfig) : Except PyError (List Piece) := do
  let viewCfg := campaign.viewingBooking
  let packCfg := campaign.digitalPack
  let display := campaign.materialsDisplay
  let documents ← allMaterials config
  let materials := documents.map fun m => (m.1, m.2.map lib.str)
  let intro ← getOr viewCfg "intro" (.str
    ("Thank you for requesting a viewing at World Trade Center Abuja. A member " ++
      "of our team will be in touch with you shortly to confirm the details and " ++
      "arrange a time that works for you."))
  let brochureUrl ← getOr viewCfg "brochure_url" (.str "")
  let heroUrl ← getOr packCfg "hero_url" (.str "")
  let logoUrl ← getOr packCfg "logo_url" (.str "")
  joinedTitles materials display
  let introText ← joined intro
  let stepsHtml := "\n".intercalate <| (viewingSteps.zipIdx 1).map fun (s, i) => stepRow i s.1 s.2
  let docsRows ← materialRows lib materials display
  let bodyHtml := .copy greetingStart :: (greeting lead ++
    [.copy "</p>\n", .copy (viewingBodyRest introText stepsHtml
      (docsBlock docsRows brochureUrl.truthy (lib.str brochureUrl)))])
  let domain := s!"<a href=\"https://wtcabuja.com\" style=\"color:{cGold};text-decoration:none;\">" ++
    "wtcabuja.com</a>"
  let footerNote :=
    s!"You are receiving this because you requested a viewing at {domain}.<br>" ++
    "World Trade Center Abuja &nbsp;&middot;&nbsp; Central Business District, Abuja, Nigeria"
  return .copy head ::
    cShell lib "Viewing Request" "Your viewing request<br>has been received." bodyHtml
      "Can't wait? Reach us directly." footerNote heroUrl logoUrl ++
    [.copy "</html>"]

/-! ## The shape of the templates -/

theorem closing_div : Closing "</div>".toList := closing_ofList [] 'd' ['i', 'v', '>'] rfl rfl rfl

theorem closing_div_line : Closing "</div>\n".toList :=
  closing_ofList [] 'd' ['i', 'v', '>', '\n'] rfl rfl rfl

theorem closing_paragraph : Closing "</p>\n".toList := closing_ofList [] 'p' ['>', '\n'] rfl rfl rfl

/-- Copy with the greeting of the lead in it. -/
structure GreetingShape (build : Lead → Except PyError (List Piece)) (before after : List Piece) :
    Prop where
  copyBefore : fields before = []
  copyAfter : fields after = []
  closing : Closing (leadingCopy after)
  built : ∀ lead, build lead = .ok (before ++ (greeting lead ++ after))

theorem cHeader_fields (lib : MailLib) (tag headingHtml : String) (heroUrl logoUrl : Json)
    (spacerHeight : ℕ) (showLabel : Bool) :
    fields (cHeader lib tag headingHtml heroUrl logoUrl spacerHeight showLabel) = [] := by
  have hbrand : fields (brand lib logoUrl) = [] := by
    rw [brand]
    split <;> rfl
  have hinner : fields (heroInner lib tag headingHtml logoUrl spacerHeight showLabel) = [] := by
    rw [heroInner, fields_append, fields_append, hbrand]
    rfl
  rw [cHeader]
  split
  · rw [fields_append, fields_append, hinner]
    rfl
  · rw [fields_append, fields_append, hinner]
    rfl

theorem cShellStart_fields (lib : MailLib) (tag headingHtml : String) (heroUrl logoUrl : Json) :
    fields (cShellStart lib tag headingHtml heroUrl logoUrl) = [] := by
  rw [cShellStart, fields_append, fields_append, cHeader_fields]
  rfl

/-- The emails to the visitor have the greeting between copy. -/
theorem greetingShape_of_eq {build : Lead → Except PyError (List Piece)} {lib : MailLib}
    {tag headingHtml contactLeadIn footerNoteHtml rest : String} {heroUrl logoUrl : Json}
    (h : ∀ lead, build lead = .ok (.copy head ::
      cShell lib tag headingHtml
        (.copy greetingStart :: (greeting lead ++ [.copy "</p>\n", .copy rest]))
        contactLeadIn footerNoteHtml heroUrl logoUrl ++ [.copy "</html>"])) :
    ∃ before after, GreetingShape build before after := by
  refine ⟨.copy head :: (cShellStart lib tag headingHtml heroUrl logoUrl ++ [.copy greetingStart]),
    .copy "</p>\n" :: .copy rest :: (cShellEnd contactLeadIn footerNoteHtml ++ [.copy "</html>"]),
    ?_, rfl, closing_append closing_paragraph _, fun lead => ?_⟩
  · rw [fields, fields_append, cShellStart_fields]
    rfl
  · rw [h, cShell]
    simp only [List.append_assoc, List.cons_append, List.nil_append]

/-- The pack email greets the lead between copy that does not depend on the lead, or is not built. -/
theorem buildPackEmail_shape (lib : MailLib) (campaign : MailConfig)
    (materials : List (String × List String)) :
    (∃ e, ∀ lead, buildPackEmail lib lead campaign materials = .error e) ∨
      ∃ before after, GreetingShape (buildPackEmail lib · campaign materials) before after := by
  simp only [buildPackEmail, bind, Except.bind]
  cases getOr campaign.digitalPack "intro" _ with
  | error e => exact Or.inl ⟨e, fun _ => rfl⟩
  | ok intro =>
  cases getOr campaign.digitalPack "event_line" _ with
  | error e => exact Or.inl ⟨e, fun _ => rfl⟩
  | ok eventLine =>
  cases getOr campaign.digitalPack "hero_url" _ with
  | error e => exact Or.inl ⟨e, fun _ => rfl⟩
  | ok heroUrl =>
  cases getOr campaign.digitalPack "logo_url" _ with
  | error e => exact Or.inl ⟨e, fun _ => rfl⟩
  | ok logoUrl =>
  cases joinedTitles materials campaign.materialsDisplay with
  | error e => exact Or.inl ⟨e, fun _ => rfl⟩
  | ok _ =>
  simp only
  cases joined intro with
  | error e => exact Or.inl ⟨e, fun _ => rfl⟩
  | ok introText =>
  cases materialRows lib materials campaign.materialsDisplay with
  | error e => exact Or.inl ⟨e, fun _ => rfl⟩
  | ok rowsHtml => exact Or.inr (greetingShape_of_eq fun lead => rfl)

theorem buildViewingBookingEmail_shape (lib : MailLib) (campaign : MailConfig)
    (config : CampaignConfig) :
    (∃ e, ∀ lead, buildViewingBookingEmail lib lead campaign config = .error e) ∨
      ∃ before after, GreetingShape (buildViewingBookingEmail lib · campaign config) before after := by
  simp only [buildViewingBookingEmail, bind, Except.bind]
  cases allMaterials config with
  | error e => exact Or.inl ⟨e, fun _ => rfl⟩
  | ok documents =>
  cases getOr campaign.viewingBooking "intro" _ with
  | error e => exact Or.inl ⟨e, fun _ => rfl⟩
  | ok intro =>
  cases getOr campaign.viewingBooking "brochure_url" _ with
  | error e => exact Or.inl ⟨e, fun _ => rfl⟩
  | ok brochureUrl =>
  cases getOr campaign.digitalPack "hero_url" _ with
  | error e => exact Or.inl ⟨e, fun _ => rfl⟩
  | ok heroUrl =>
  cases getOr campaign.digitalPack "logo_url" _ with
  | error e => exact Or.inl ⟨e, fun _ => rfl⟩
  | ok logoUrl =>
  simp only
  cases joinedTitles (documents.map fun m => (m.1, m.2.map lib.str)) campaign.materialsDisplay with
  | error e => exact Or.inl ⟨e, fun _ => rfl⟩
  | ok _ =>
  simp only
  cases joined intro with
  | error e => exact Or.inl ⟨e, fun _ => rfl⟩
  | ok introText =>
  cases materialRows lib (documents.map fun m => (m.1, m.2.map lib.str))
      campaign.materialsDisplay with
  | error e => exact Or.inl ⟨e, fun _ => rfl⟩
  | ok rowsHtml => exact Or.inr (greetingShape_of_eq fun lead => rfl)

/-! ## The fields of the notification -/

theorem matItem_closed {rest : List Piece} (m : String) (hrest : Closed rest) :
    Closed (matItem m ++ rest) :=
  closed_field m closing_div hrest

theorem matItems_fields (ms : List String) : fields (matItems ms) = ms := by
  have hitems : ∀ xs : List String, fields (xs.flatMap matItem) = xs := by
    intro xs
    induction xs with
    | nil => rfl
    | cons x xs ih =>
        rw [List.flatMap_cons, fields_append, ih]
        rfl
  rw [matItems]
  split
  · rename_i hnil
    rw [hnil]
    rfl
  · exact hitems ms

theorem matItems_closed {rest : List Piece} (ms : List String) (hrest : Closed rest) :
    Closed (matItems ms ++ rest) := by
  have hitems : ∀ xs : List String, Closed (xs.flatMap matItem ++ rest) := by
    intro xs
    induction xs with
    | nil => exact hrest
    | cons x xs ih =>
        rw [List.flatMap_cons, List.append_assoc]
        exact matItem_closed x ih
  rw [matItems]
  split
  · exact hrest
  · exact hitems ms

/-- The copy of the block depends on how many materials there are. -/
theorem matItems_blanks {ms ms' : List String} (hlen : ms.length = ms'.length) :
    blanks (matItems ms) = blanks (matItems ms') := by
  have hnil : ms = [] ↔ ms' = [] := by
    rw [← List.length_eq_zero_iff, ← List.length_eq_zero_iff, hlen]
  have hitems : ∀ xs : List String,
      blanks (xs.flatMap matItem) = (List.replicate xs.length (matItem "")).flatten := by
    intro xs
    induction xs with
    | nil => rfl
    | cons x xs ih =>
        rw [List.flatMap_cons, blanks_append, ih, List.length_cons, List.replicate_succ,
          List.flatten_cons]
        rfl
  rw [matItems, matItems]
  by_cases hempty : ms = []
  · rw [if_pos hempty, if_pos (hnil.1 hempty)]
  · rw [if_neg hempty, if_neg fun h => hempty (hnil.2 h), hitems, hitems, hlen]

variable {lib : MailLib} {lead lead' : Lead} {campaign : MailConfig}

theorem notification_fields : fields (buildLeadNotificationEmail lib lead campaign) =
    [fullName lead, orNotProvided lead.company, orNotProvided (lead.jobTitle.getD ""),
      orNotProvided (lead.timing.getD "")] ++ lead.requestedMaterials.getD [] := by
  have hrest := matItems_fields (lead.requestedMaterials.getD [])
  rw [buildLeadNotificationEmail, wrap]
  simp only [List.cons_append, List.nil_append, List.append_assoc, fields, fields_append, hrest,
    List.append_nil]

theorem notification_closed : Closed (buildLeadNotificationEmail lib lead campaign) := by
  rw [buildLeadNotificationEmail, wrap]
  simp only [List.cons_append, List.nil_append, List.append_assoc]
  refine closed_field (fullName lead) closing_div_line ?_
  refine closed_field (orNotProvided lead.company) closing_div_line ?_
  refine closed_field (orNotProvided (lead.jobTitle.getD "")) closing_div_line ?_
  refine closed_field (orNotProvided (lead.timing.getD "")) closing_div_line ?_
  exact matItems_closed _ (closed_copy rfl)

theorem notification_blanks (hemail : lead.email = lead'.email) (hphone : lead.phone = lead'.phone)
    (hinspection : lead.inspectionRequested = lead'.inspectionRequested)
    (hmarketing : lead.marketingOptIn = lead'.marketingOptIn)
    (hcaptured : lead.capturedAt = lead'.capturedAt)
    (hmaterials : (lead.requestedMaterials.getD []).length =
      (lead'.requestedMaterials.getD []).length) :
    blanks (buildLeadNotificationEmail lib lead campaign) =
      blanks (buildLeadNotificationEmail lib lead' campaign) := by
  simp only [buildLeadNotificationEmail, wrap, phoneLine, hemail, hphone, hinspection, hmarketing,
    hcaptured]
  have hcons : ∀ text ps, blanks (.copy text :: ps) = .copy text :: blanks ps := fun _ _ => rfl
  simp only [hcons, blanks_append, matItems_blanks hmaterials]
  rfl

end SalesTrades.Emails.CampaignMailer
