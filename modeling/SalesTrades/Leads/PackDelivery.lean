import SalesTrades.Leads.Capture

/-!
# Pack delivery

`deliver_pack`, `deliver_viewing`, `deliver_pending` and the endpoints that call them. An email that
SendGrid accepts is a `Mail`; `Delivery` holds the rows and the mails so far, newest first. A delivery
of a row that is stored as it was loaded never raises (`deliverPackTo_spec`, `deliverViewingTo_spec`).
The texts of the emails are not modelled: whether an email is accepted is part of the `Attempt`.
-/

set_option autoImplicit false

namespace SalesTrades.Leads

open SalesTrades.Library

/-! ## Which materials can be delivered -/

/-- `_asset_urls`. -/
def assetUrls : Json → List String
  | .str s => if s = "" then [] else [s]
  | .arr xs => xs.filterMap fun
      | .str s => if s = "" then none else some s
      | _ => none
  | _ => []

/-- The material is known to the campaign and has a download link. -/
def CampaignConfig.Deliverable (config : CampaignConfig) (label : String) : Prop :=
  label ∈ config.materials ∧ assetUrls (Json.member config.materialsAssets label) ≠ []

instance (config : CampaignConfig) (label : String) : Decidable (config.Deliverable label) :=
  inferInstanceAs (Decidable (_ ∧ _))

/-- The loop of `deliverable_materials`. -/
def deliverableLoop (config : CampaignConfig) :
    (seen requested : List String) → List (String × List String)
  | _, [] => []
  | seen, label :: rest =>
      if label ∈ seen ∨ label ∉ config.materials then deliverableLoop config seen rest
      else
        let urls := assetUrls (Json.member config.materialsAssets label)
        if urls = [] then deliverableLoop config seen rest
        else (label, urls) :: deliverableLoop config (label :: seen) rest

/-- `deliverable_materials`. -/
def deliverableMaterials (lead : Lead) (campaign : Campaign) : List (String × List String) :=
  deliverableLoop campaign.config [] (lead.requestedMaterials.getD [])

/-- The labels of `deliverable_materials`. -/
def deliverableLabels (lead : Lead) (campaign : Campaign) : List String :=
  (deliverableMaterials lead campaign).map Prod.fst

theorem mem_deliverableLoop {config : CampaignConfig} {label : String} {seen requested : List String} :
    label ∈ (deliverableLoop config seen requested).map Prod.fst ↔
      label ∈ requested ∧ label ∉ seen ∧ config.Deliverable label := by
  induction requested generalizing seen with
  | nil => simp [deliverableLoop]
  | cons first rest ih =>
      rw [deliverableLoop]
      split
      · rename_i hskip
        rw [ih, List.mem_cons]
        refine and_congr_left fun hlabel => (or_iff_right fun heq => ?_).symm
        subst heq
        exact hskip.elim hlabel.1 fun h => h hlabel.2.1
      · rename_i hvisit
        rw [not_or, not_not] at hvisit
        simp only
        split
        · rename_i hurls
          rw [ih, List.mem_cons]
          refine and_congr_left fun hlabel => (or_iff_right fun heq => ?_).symm
          subst heq
          exact hlabel.2.2 hurls
        · rename_i hurls
          simp only [List.map_cons, List.mem_cons, ih, not_or]
          constructor
          · rintro (rfl | ⟨hrest, hne, hlabel⟩)
            · exact ⟨Or.inl rfl, hvisit.1, hvisit.2, hurls⟩
            · exact ⟨Or.inr hrest, hne.2, hlabel⟩
          · rintro ⟨rfl | hrest, hlabel⟩
            · exact Or.inl rfl
            · by_cases heq : label = first
              · exact Or.inl heq
              · exact Or.inr ⟨hrest, ⟨heq, hlabel.1⟩, hlabel.2⟩

/-- A label is deliverable to a lead when it is requested and deliverable. -/
theorem mem_deliverableLabels {lead : Lead} {campaign : Campaign} {label : String} :
    label ∈ deliverableLabels lead campaign ↔
      label ∈ lead.requestedMaterials.getD [] ∧ campaign.config.Deliverable label := by
  rw [deliverableLabels, deliverableMaterials, mem_deliverableLoop]
  simp

/-- `_real_materials_requested`. -/
def realMaterialsRequested (lead : Lead) (campaign : Campaign) : Bool :=
  (lead.requestedMaterials.getD []).any fun label => campaign.config.materials.contains label

/-- The links that `all_materials` takes from an entry: a string is one link, of a list or an object
it takes the truthy elements, and any other value cannot be iterated. -/
def entryUrls : Json → Except PyError (List Json)
  | .str s => .ok [.str s]
  | .arr xs => .ok (xs.filter Json.truthy)
  | .obj members => .ok ((members.map fun m => Json.str m.1).filter Json.truthy)
  | _ => .error .typeError

/-- The loop of `all_materials`. -/
def allMaterialsLoop (assets : List (String × Json)) :
    List String → Except PyError (List (String × List Json))
  | [] => .ok []
  | label :: rest =>
      let entry := Json.member assets label
      if !entry.truthy then allMaterialsLoop assets rest
      else
        match entryUrls entry with
        | .error e => .error e
        | .ok urls => (allMaterialsLoop assets rest).map fun out =>
            if urls = [] then out else (label, urls) :: out

/-- `all_materials`. -/
def allMaterials (config : CampaignConfig) : Except PyError (List (String × List Json)) :=
  allMaterialsLoop config.materialsAssets config.materials

/-- What has links for a pack has links for the document set. -/
theorem entryUrls_of_assetUrls {entry : Json} (hurls : assetUrls entry ≠ []) :
    entry.truthy = true ∧ ∃ urls, entryUrls entry = .ok urls ∧ urls ≠ [] := by
  cases entry with
  | str s =>
      have hs : s ≠ "" := by
        rintro rfl
        simp [assetUrls] at hurls
      exact ⟨by simp [Json.truthy, hs], _, rfl, by simp⟩
  | arr xs =>
      rw [assetUrls, ne_eq, List.filterMap_eq_nil_iff] at hurls
      push Not at hurls
      obtain ⟨x, hx, hlink⟩ := hurls
      have htruthy : x.truthy = true := by
        cases x with
        | str s =>
            simp only [ne_eq, ite_eq_left_iff, reduceCtorEq, imp_false, not_not] at hlink
            simpa [Json.truthy] using hlink
        | _ => simp at hlink
      have hmem : x ∈ xs.filter Json.truthy := List.mem_filter.2 ⟨hx, htruthy⟩
      refine ⟨?_, _, rfl, List.ne_nil_of_mem hmem⟩
      simpa [Json.truthy] using List.ne_nil_of_mem hx
  | _ => simp [assetUrls] at hurls

/-- A turn of the loop passes over an entry, or reads its links and goes on. -/
theorem allMaterialsLoop_cons_ok {assets : List (String × Json)} {first : String} {rest : List String}
    {docs : List (String × List Json)} (h : allMaterialsLoop assets (first :: rest) = .ok docs) :
    ((Json.member assets first).truthy = false ∧ allMaterialsLoop assets rest = .ok docs) ∨
      ∃ urls out, entryUrls (Json.member assets first) = .ok urls ∧
        allMaterialsLoop assets rest = .ok out ∧
        docs = if urls = [] then out else (first, urls) :: out := by
  rw [allMaterialsLoop] at h
  split at h
  · rename_i hfalsy
    exact Or.inl ⟨by simpa using hfalsy, h⟩
  · right
    split at h
    · cases h
    · rename_i urls hurls
      cases hloop : allMaterialsLoop assets rest with
      | error e => simp [hloop, Except.map] at h
      | ok out =>
          rw [hloop] at h
          exact ⟨urls, out, hurls, rfl, (Except.ok.inj h).symm⟩

theorem mem_allMaterialsLoop {assets : List (String × Json)} {labels : List String} {label : String}
    {docs : List (String × List Json)} (h : allMaterialsLoop assets labels = .ok docs)
    (hlabel : label ∈ labels) (hurls : assetUrls (Json.member assets label) ≠ []) :
    label ∈ docs.map Prod.fst := by
  obtain ⟨htruthy, links, hlinks, hne⟩ := entryUrls_of_assetUrls hurls
  induction labels generalizing docs with
  | nil => cases hlabel
  | cons first rest ih =>
      rcases allMaterialsLoop_cons_ok h with ⟨hfalsy, hrest⟩ | ⟨urls, out, hentry, hrest, rfl⟩
      · rcases List.mem_cons.1 hlabel with rfl | hmem
        · rw [htruthy] at hfalsy
          cases hfalsy
        · exact ih hrest hmem
      · rcases List.mem_cons.1 hlabel with rfl | hmem
        · obtain rfl := Except.ok.inj (hlinks.symm.trans hentry)
          rw [if_neg hne]
          exact List.mem_cons_self
        · have hout := ih hrest hmem
          split
          · exact hout
          · exact List.mem_cons_of_mem _ hout

/-- When it can be built, the document set has every material a pack can have. -/
theorem mem_allMaterials {config : CampaignConfig} {label : String}
    {docs : List (String × List Json)} (h : allMaterials config = .ok docs)
    (hlabel : config.Deliverable label) : label ∈ docs.map Prod.fst :=
  mem_allMaterialsLoop h hlabel.1 hlabel.2

/-! ## Delivery of one lead -/

/-- Whether SendGrid accepts the next email, and the clock. -/
structure Attempt where
  accepted : Bool
  now : Datetime

/-- `_flag_crm_refresh`. -/
def flagCrmRefresh (lead : Lead) : Lead :=
  if lead.crmSyncStatus = .synced then { lead with crmSyncStatus := .pending, crmError := none }
  else lead

/-- The lead after an email that carried `labels` reached it. -/
def markSent (lead : Lead) (labels : List String) (now : Datetime) : Lead :=
  flagCrmRefresh
    { lead with
      packDeliveryStatus := .sent
      packDeliveredAt := some now
      packDeliveredMaterials := some labels
      packDeliveryError := none }

/-- `deliver_pack` when there is nothing to deliver. -/
def withoutMaterials (lead : Lead) (campaign : Campaign) : Lead :=
  if realMaterialsRequested lead campaign then
    { lead with
      packDeliveryStatus := .failed
      packDeliveryError := some "no download link configured for requested materials" }
  else { lead with packDeliveryStatus := .notRequested, packDeliveryError := none }

/-- `deliver_pack` after the email: what it stores. -/
def afterSend (lead : Lead) (campaign : Campaign) (sent : Bool) (now : Datetime) : Lead :=
  if sent then markSent lead (deliverableLabels lead campaign) now
  else { lead with packDeliveryStatus := .failed, packDeliveryError := some "email send failed" }

/-- `deliver_pack` up to its commit: the lead to be stored, and the labels of the email when one was
accepted. `transport` says whether `wtc_sendgrid_api_key` is set. -/
def deliverPack (transport : Bool) (lead : Lead) (campaign : Campaign) (a : Attempt) :
    Lead × Option (List String) :=
  if deliverableMaterials lead campaign = [] then (withoutMaterials lead campaign, none)
  else if !transport then
    ({ lead with
      packDeliveryStatus := .skipped
      packDeliveryError := some "email transport not configured" }, none)
  else
    (afterSend lead campaign a.accepted a.now,
      if a.accepted then some (deliverableLabels lead campaign) else none)

/-- `send_viewing_booking`: false as well when the email cannot be built. -/
def sendViewingBooking (transport : Bool) (campaign : Campaign) (accepted : Bool) : Bool :=
  match allMaterials campaign.config with
  | .error _ => false
  | .ok _ => transport && accepted

/-- The labels of `all_materials`, none when it raises. -/
def documentSet (config : CampaignConfig) : List String :=
  match allMaterials config with
  | .error _ => []
  | .ok docs => docs.map Prod.fst

/-- `deliver_viewing` up to its commit: the lead to be stored, if it stores one, and the labels of the
email when one was accepted. -/
def deliverViewing (transport : Bool) (lead : Lead) (campaign : Campaign) (a : Attempt) :
    Option Lead × Option (List String) :=
  let sent := sendViewingBooking transport campaign a.accepted
  let docs := documentSet campaign.config
  (if !sent ∨ lead.packDeliveryStatus = .sent then none
    else if docs = [] then none
    else some (markSent lead docs a.now),
    if sent then some docs else none)

/-! ## Rows, mails and endpoints -/

/-- An email that was accepted: the row id of the lead and the labels it carried. -/
inductive Mail where
  | pack (id : Nat) (labels : List String)
  | viewing (id : Nat) (labels : List String)
  deriving DecidableEq

def Mail.id : Mail → Nat
  | .pack id _ => id
  | .viewing id _ => id

def Mail.labels : Mail → List String
  | .pack _ labels => labels
  | .viewing _ labels => labels

/-- The labels that emails have brought to a lead. -/
def emailed (log : List Mail) (id : Nat) : List String :=
  log.flatMap fun m => if m.id = id then m.labels else []

/-- The leads and the mails, newest first. -/
structure Delivery where
  leads : LeadTable
  log : List Mail

/-- The mail of a delivery, if an email was accepted. -/
def packMail (transport : Bool) (campaign : Campaign) (row : LeadRow) (a : Attempt) : List Mail :=
  ((deliverPack transport row.2 campaign a).2.map (Mail.pack row.1)).toList

def viewingMail (transport : Bool) (campaign : Campaign) (row : LeadRow) (a : Attempt) : List Mail :=
  ((deliverViewing transport row.2 campaign a).2.map (Mail.viewing row.1)).toList

/-- `deliver_pack` on a row the session has loaded. -/
def deliverPackTo (transport : Bool) (campaign : Campaign) (row : LeadRow) (a : Attempt)
    (d : Delivery) : Delivery × Except PyError LeadRow :=
  let log := packMail transport campaign row a ++ d.log
  match update d.leads row (deliverPack transport row.2 campaign a).1 with
  | .error e => (⟨d.leads, log⟩, .error e)
  | .ok (row', t') => (⟨t', log⟩, .ok row')

/-- `deliver_viewing` on a row the session has loaded. -/
def deliverViewingTo (transport : Bool) (campaign : Campaign) (row : LeadRow) (a : Attempt)
    (d : Delivery) : Delivery × Except PyError LeadRow :=
  let log := viewingMail transport campaign row a ++ d.log
  match (deliverViewing transport row.2 campaign a).1 with
  | none => (⟨d.leads, log⟩, .ok row)
  | some lead =>
      match update d.leads row lead with
      | .error e => (⟨d.leads, log⟩, .error e)
      | .ok (row', t') => (⟨t', log⟩, .ok row')

/-- The statuses the sweep selects. -/
def waiting (l : Lead) : Bool := l.packDeliveryStatus == .pending || l.packDeliveryStatus == .failed

/-- `list_pending_pack_delivery`: oldest first. -/
def listPendingPackDelivery (t : LeadTable) (limit : Nat) : List LeadRow :=
  (t.select waiting).take limit

/-- The loop of `deliver_pending`; `attempts` says how the attempt at each row goes. -/
def deliverLoop (transport : Bool) (campaigns : List Campaign) (attempts : Nat → Attempt) :
    List LeadRow → Delivery → Delivery × Except PyError Nat
  | [], d => (d, .ok 0)
  | row :: rest, d =>
      match getCampaign campaigns row.2.campaignId with
      | none => deliverLoop transport campaigns attempts rest d
      | some campaign =>
          match deliverPackTo transport campaign row (attempts row.1) d with
          | (d', .error e) => (d', .error e)
          | (d', .ok result) =>
              let outcome := deliverLoop transport campaigns attempts rest d'
              (outcome.1, outcome.2.map
                (· + if result.2.packDeliveryStatus = .sent then 1 else 0))

def deliverPending (transport : Bool) (campaigns : List Campaign) (attempts : Nat → Attempt)
    (limit : Nat) (d : Delivery) : Delivery × Except PyError Nat :=
  deliverLoop transport campaigns attempts (listPendingPackDelivery d.leads limit) d

/-- How a request fails: an HTTP status with its detail, or an exception. -/
inductive RequestError where
  | http (status : Nat) (detail : String)
  | python (e : PyError)

def captureErrorResponse : CaptureError → RequestError
  | .campaignNotFound detail => .http 404 detail
  | .campaignInactive detail => .http 409 detail
  | .python e => .python e

/-- `capture_lead` after the commit of the lead: the pack, then the viewing email. -/
def deliverCaptured (transport : Bool) (campaigns : List Campaign) (row : LeadRow) (created : Bool)
    (pack viewing : Attempt) (d : Delivery) : Delivery × Except PyError LeadRow :=
  match getCampaign campaigns row.2.campaignId with
  | none => (d, .ok row)
  | some campaign =>
      let afterPack :=
        if row.2.packDeliveryStatus = .pending then deliverPackTo transport campaign row pack d
        else (d, .ok row)
      match afterPack with
      | (d', .error e) => (d', .error e)
      | (d', .ok row') =>
          if created ∧ row'.2.inspectionRequested then
            deliverViewingTo transport campaign row' viewing d'
          else (d', .ok row')

/-- `capture_lead`. -/
def captureLead (py : LowerCase) (transport : Bool) (campaigns : List Campaign) (slug : String)
    (payload : LeadCreateRequest) (now : Datetime) (missed : Bool) (pack viewing : Attempt)
    (d : Delivery) : Delivery × Except RequestError LeadRow :=
  match captureLeadCreated py campaigns (strip slug) payload now missed d.leads with
  | (t', .error e) => (⟨t', d.log⟩, .error (captureErrorResponse e))
  | (t', .ok (row, created)) =>
      let result := deliverCaptured transport campaigns row created pack viewing ⟨t', d.log⟩
      (result.1, result.2.mapError .python)

/-- `resend_lead_pack`. -/
def resendLeadPack (transport : Bool) (campaigns : List Campaign) (campaignId leadId : Nat)
    (a : Attempt) (d : Delivery) : Delivery × Except RequestError LeadRow :=
  match getCampaign campaigns campaignId with
  | none => (d, .error (.http 404 "Campaign not found"))
  | some campaign =>
      match d.leads.get? leadId with
      | none => (d, .error (.http 404 "Lead not found"))
      | some row =>
          if row.2.campaignId ≠ campaignId then (d, .error (.http 404 "Lead not found"))
          else
            let result :=
              if row.2.inspectionRequested ∧ row.2.requestedMaterials.getD [] = [] then
                deliverViewingTo transport campaign row a d
              else deliverPackTo transport campaign row a d
            (result.1, result.2.mapError .python)

/-! ## What a delivery stores -/

section Delivery

variable {transport : Bool} {campaign : Campaign} {row : LeadRow} {a : Attempt} {d : Delivery}

/-- A delivery keeps the submission, the campaign and the email of the lead. -/
structure SameLead (l l' : Lead) : Prop where
  submitted : l'.toSubmitted = l.toSubmitted
  campaignId : l'.campaignId = l.campaignId
  email : l'.email = l.email

/-- A delivery does not change what can be delivered. -/
theorem deliverableLabels_sameLead {campaign : Campaign} {l l' : Lead} (h : SameLead l l') :
    deliverableLabels l' campaign = deliverableLabels l campaign := by
  simp only [deliverableLabels, deliverableMaterials, h.submitted]

theorem sameLead_markSent (lead : Lead) (labels : List String) (now : Datetime) :
    SameLead lead (markSent lead labels now) := by
  unfold markSent flagCrmRefresh
  split <;> exact ⟨rfl, rfl, rfl⟩

theorem sameLead_deliverPack (transport : Bool) (lead : Lead) (campaign : Campaign) (a : Attempt) :
    SameLead lead (deliverPack transport lead campaign a).1 := by
  unfold deliverPack
  split
  · unfold withoutMaterials
    split <;> exact ⟨rfl, rfl, rfl⟩
  · split
    · exact ⟨rfl, rfl, rfl⟩
    · unfold afterSend
      split
      · exact sameLead_markSent _ _ _
      · exact ⟨rfl, rfl, rfl⟩

theorem sameLead_deliverViewing (transport : Bool) (lead : Lead) (campaign : Campaign)
    (a : Attempt) : SameLead lead ((deliverViewing transport lead campaign a).1.getD lead) := by
  simp only [deliverViewing]
  split
  · exact ⟨rfl, rfl, rfl⟩
  · split
    · exact ⟨rfl, rfl, rfl⟩
    · exact sameLead_markSent _ _ _

@[simp]
theorem markSent_status (lead : Lead) (labels : List String) (now : Datetime) :
    (markSent lead labels now).packDeliveryStatus = .sent := by
  unfold markSent flagCrmRefresh
  split <;> rfl

@[simp]
theorem markSent_materials (lead : Lead) (labels : List String) (now : Datetime) :
    (markSent lead labels now).packDeliveredMaterials = some labels := by
  unfold markSent flagCrmRefresh
  split <;> rfl

/-- What `deliver_pack` can do: nothing to deliver, no key, an accepted email with all that can be
delivered, or a failed one. -/
theorem deliverPack_cases (transport : Bool) (lead : Lead) (campaign : Campaign) (a : Attempt) :
    (deliverableLabels lead campaign = [] ∧
      (deliverPack transport lead campaign a).1.packDeliveryStatus ≠ .sent ∧
      (deliverPack transport lead campaign a).2 = none) ∨
    (deliverableLabels lead campaign ≠ [] ∧ transport = false ∧
      (deliverPack transport lead campaign a).1.packDeliveryStatus = .skipped ∧
      (deliverPack transport lead campaign a).2 = none) ∨
    (deliverableLabels lead campaign ≠ [] ∧ transport = true ∧ a.accepted = true ∧
      (deliverPack transport lead campaign a).1 =
        markSent lead (deliverableLabels lead campaign) a.now ∧
      (deliverPack transport lead campaign a).2 = some (deliverableLabels lead campaign)) ∨
    (deliverableLabels lead campaign ≠ [] ∧ transport = true ∧ a.accepted = false ∧
      (deliverPack transport lead campaign a).1.packDeliveryStatus = .failed ∧
      (deliverPack transport lead campaign a).2 = none) := by
  by_cases hnone : deliverableMaterials lead campaign = []
  · left
    refine ⟨by simp [deliverableLabels, hnone], ?_, by simp [deliverPack, hnone]⟩
    simp only [deliverPack, hnone, if_true, withoutMaterials]
    split <;> simp
  · right
    have hlabels : deliverableLabels lead campaign ≠ [] := by simpa [deliverableLabels] using hnone
    cases transport with
    | false => exact Or.inl ⟨hlabels, rfl, by simp [deliverPack, hnone], by simp [deliverPack, hnone]⟩
    | true =>
        right
        cases haccepted : a.accepted with
        | true => exact Or.inl ⟨hlabels, rfl, rfl, by simp [deliverPack, hnone, afterSend, haccepted],
            by simp [deliverPack, hnone, haccepted]⟩
        | false => exact Or.inr ⟨hlabels, rfl, rfl, by simp [deliverPack, hnone, afterSend, haccepted],
            by simp [deliverPack, hnone, haccepted]⟩

/-- The mail of a delivery: one, with everything that can be delivered, when there is anything, the key
is set and the email is accepted. -/
theorem packMail_eq (transport : Bool) (campaign : Campaign) (row : LeadRow) (a : Attempt) :
    packMail transport campaign row a =
      if deliverableLabels row.2 campaign ≠ [] ∧ transport = true ∧ a.accepted = true then
        [.pack row.1 (deliverableLabels row.2 campaign)]
      else [] := by
  unfold packMail
  rcases deliverPack_cases transport row.2 campaign a with ⟨hnone, -, hmail⟩ |
    ⟨-, hoff, -, hmail⟩ | ⟨hsome, hon, haccepted, -, hmail⟩ | ⟨-, -, hrejected, -, hmail⟩
  · rw [hmail, if_neg fun h => h.1 hnone]
    rfl
  · rw [hmail, if_neg (by simp [hoff])]
    rfl
  · rw [hmail, if_pos ⟨hsome, hon, haccepted⟩]
    rfl
  · rw [hmail, if_neg (by simp [hrejected])]
    rfl

/-- What `deliver_viewing` can do: store nothing, in which case an email that carried documents went to
a lead that was marked sent, or mark the lead sent with the document set the email carried. -/
theorem deliverViewing_cases (transport : Bool) (lead : Lead) (campaign : Campaign) (a : Attempt) :
    ((deliverViewing transport lead campaign a).1 = none ∧
      ∀ labels, (deliverViewing transport lead campaign a).2 = some labels →
        labels = [] ∨ lead.packDeliveryStatus = .sent) ∨
    ∃ docs, allMaterials campaign.config = .ok docs ∧
      (deliverViewing transport lead campaign a).1 =
        some (markSent lead (docs.map Prod.fst) a.now) ∧
      (deliverViewing transport lead campaign a).2 = some (docs.map Prod.fst) ∧
      lead.packDeliveryStatus ≠ .sent := by
  unfold deliverViewing sendViewingBooking documentSet
  cases hdocs : allMaterials campaign.config with
  | error e => simp
  | ok docs =>
      by_cases hsent : (transport && a.accepted) = true
      · by_cases hstatus : lead.packDeliveryStatus = .sent
        · simp [hstatus]
        · by_cases hempty : docs.map Prod.fst = []
          · left
            simp [hsent, hempty]
          · right
            exact ⟨docs, rfl, by simp [hsent, hstatus, hempty], by simp [hsent], hstatus⟩
      · simp [hsent]

/-- `deliver_pack` on a row that is stored as it was loaded. -/
theorem deliverPackTo_spec (transport : Bool) (campaign : Campaign) (a : Attempt)
    (hrow : row ∈ d.leads.rows) :
    ∃ t', d.leads.update row.1 (deliverPack transport row.2 campaign a).1 = some t' ∧
      deliverPackTo transport campaign row a d =
        (⟨t', packMail transport campaign row a ++ d.log⟩,
          .ok (row.1, (deliverPack transport row.2 campaign a).1)) := by
  have hsame := sameLead_deliverPack transport row.2 campaign a
  obtain ⟨t', hupdate, htable⟩ := update_eq hrow hsame.campaignId hsame.email
  rw [Lead.write_current_loaded] at hupdate htable
  exact ⟨t', htable, by simp only [deliverPackTo, hupdate]⟩

/-- `deliver_viewing` on a row that is stored as it was loaded. -/
theorem deliverViewingTo_spec (transport : Bool) (campaign : Campaign) (a : Attempt)
    (hrow : row ∈ d.leads.rows) :
    ∃ t', d.leads.update row.1 ((deliverViewing transport row.2 campaign a).1.getD row.2) =
        some t' ∧
      deliverViewingTo transport campaign row a d =
        (⟨t', viewingMail transport campaign row a ++ d.log⟩,
          .ok (row.1, (deliverViewing transport row.2 campaign a).1.getD row.2)) := by
  have hsame := sameLead_deliverViewing transport row.2 campaign a
  unfold deliverViewingTo
  cases hstored : (deliverViewing transport row.2 campaign a).1 with
  | none => exact ⟨d.leads, Table.update_self hrow, rfl⟩
  | some lead =>
      rw [hstored] at hsame
      obtain ⟨t', hupdate, htable⟩ := update_eq hrow hsame.campaignId hsame.email
      rw [Option.getD_some, Lead.write_current_loaded] at hupdate htable
      exact ⟨t', htable, by simp only [hupdate, Option.getD_some]⟩

end Delivery

end SalesTrades.Leads
