import SalesTrades.Leads.Model

/-!
# Engagement score

`engagement_score` with its weights. The age of the last open is compared in microseconds, where the
source divides and compares floating-point days.
-/

set_option autoImplicit false

namespace SalesTrades.Leads

/-- Minimum opens and points, the first match wins. -/
def openTiers : List (Int × Int) := [(25, 40), (15, 34), (10, 30), (5, 26), (3, 20), (2, 14), (1, 8)]

def perClick : Int := 12

def maxClickPoints : Int := 30

/-- Days since the last open at most, and points, the first match wins. -/
def recencyTiers : List (Int × Int) := [(7, 15), (30, 10), (60, 5), (90, 2)]

def perMaterial : Int := 2

def perInterest : Int := 4

def inspectionPoints : Int := 18

def marketingOptInPoints : Int := 5

def packDeliveredPoints : Int := 3

def maxScore : Int := 100

/-- Substring of the timing and points, the first match wins. -/
def timingTable : List (String × Int) :=
  [("immediat", 18), ("today", 18), ("tomorrow", 15), ("0-3", 12), ("within 3", 12),
    ("this week", 12), ("3-6", 8), ("3–6", 8), ("6-12", 4), ("6–12", 4), ("flexible", 2),
    ("future", 1), ("research", 1)]

/-- The points of the first entry whose key satisfies `p`. -/
def firstMatch {κ : Type} (table : List (κ × Int)) (p : κ → Bool) : Int :=
  ((table.find? fun entry => p entry.1).map Prod.snd).getD 0

def timingPoints (py : LowerCase) (timing : Option String) : Int :=
  match timing with
  | none => 0
  | some timing =>
      if timing = "" then 0
      else
        firstMatch timingTable fun token => token.toList <:+: (py.lower (strip timing)).toList

def openPoints (opens : Int) : Int := firstMatch openTiers fun threshold => opens ≥ threshold

def clickPoints (clickedMaterials : Option (List String)) : Int :=
  min (perClick * (clickedMaterials.getD []).length) maxClickPoints

def microsecondsPerDay : Int := 86400 * 1000000

def recencyPoints (openedAt : Option Datetime) (now : Datetime) : Int :=
  match openedAt with
  | none => 0
  | some openedAt =>
      firstMatch recencyTiers fun days =>
        now.instant - (ensureAware openedAt).instant ≤ days * microsecondsPerDay

/-- `engagement_score`. -/
def engagementScore (py : LowerCase) (lead : Lead) (now : Datetime) : Int :=
  let score :=
    openPoints lead.packOpenedCount + clickPoints lead.packClickedMaterials +
      recencyPoints lead.packOpenedAt now +
      perMaterial * (lead.requestedMaterials.getD []).length +
      perInterest * (lead.interests.getD []).length + timingPoints py lead.timing +
      (if lead.inspectionRequested then inspectionPoints else 0) +
      (if lead.marketingOptIn then marketingOptInPoints else 0) +
      (if lead.packDeliveryStatus = .sent then packDeliveredPoints else 0)
  min score maxScore

end SalesTrades.Leads
