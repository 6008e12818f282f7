import SalesTrades.Emails.Attribution

/-!
# Which campaign's label a click is recorded under

`_resolve_material` looks a clicked URL up in the `materials_assets` of every campaign, in the order
of `list_all`, and takes the first label that maps to it. The label of a click on a document of the
lead's own campaign is therefore a label of the newest campaign that has the document, and of the
lead's own campaign when no other one that has it is as new (`click_label_of_newest`).
-/

set_option autoImplicit false

namespace SalesTrades.Emails

open SalesTrades.Library SalesTrades.Leads

/-! ## The order of the campaigns -/

/-- A row of `campaigns` with its `created_at`. -/
structure CampaignRecord where
  createdAt : Int
  campaign : CampaignRow

/-- `list_all` without a status: `ORDER BY created_at DESC`. Rows of one moment come in any
order. -/
structure ListAll (rows listed : List CampaignRecord) : Prop where
  perm : listed.Perm rows
  newestFirst : listed.Pairwise fun before after => after.createdAt ≤ before.createdAt

/-! ## The scan -/

/-- A scan that goes through a list with the asset ends at the first campaign that has it, with a
label of that one. -/
theorem scanCampaigns_first {url : Json} {found : Option String} :
    ∀ {listed : List CampaignRecord}, (∃ row ∈ listed, HasAsset row.campaign url) →
      scanCampaigns url (listed.map CampaignRecord.campaign) = .ok found →
      ∃ before source after label, listed = before ++ source :: after ∧
        (∀ row ∈ before, ¬ HasAsset row.campaign url) ∧ MapsTo source.campaign label url ∧
        found = some label := by
  intro listed
  induction listed with
  | nil =>
      rintro ⟨row, hrow, -⟩
      cases hrow
  | cons head rest ih =>
      rintro ⟨row, hrow, hasset⟩ hscan
      rw [List.map_cons, scanCampaigns] at hscan
      cases hassets : head.campaign.assets with
      | error e =>
          rw [hassets] at hscan
          cases hscan
      | ok assets =>
          simp only [hassets] at hscan
          cases hlabel : labelIn assets url with
          | some label =>
              simp only [hlabel, Except.ok.injEq] at hscan
              refine ⟨[], head, rest, label, rfl, ?_, mapsTo_of_labelIn hassets hlabel, hscan.symm⟩
              intro row hrow
              cases hrow
          | none =>
              simp only [hlabel] at hscan
              -- the scan goes on: the campaign with the asset is further down
              have hhead : ¬ HasAsset head.campaign url := (labelIn_eq_none hassets).1 hlabel
              have hrest : ∃ row ∈ rest, HasAsset row.campaign url := by
                rcases List.mem_cons.1 hrow with rfl | hrow
                · exact absurd hasset hhead
                · exact ⟨row, hrow, hasset⟩
              obtain ⟨before, source, after, label, hsplit, hbefore, hmaps, hfound⟩ := ih hrest hscan
              refine ⟨head :: before, source, after, label, ?_, ?_, hmaps, hfound⟩
              · rw [hsplit, List.cons_append]
              · intro row hrow
                rcases List.mem_cons.1 hrow with rfl | hrow
                · exact hhead
                · exact hbefore row hrow

/-- **The label of a URL.** Whatever order the campaigns of one moment come in, the label is one of
a newest campaign that has the asset. -/
theorem resolveMaterial_newest {rows listed : List CampaignRecord} (hlist : ListAll rows listed)
    {url : Json} (htruthy : url.truthy = true) (hasset : ∃ row ∈ rows, HasAsset row.campaign url)
    {found : Option String}
    (hfound : resolveMaterial (listed.map CampaignRecord.campaign) url = .ok found) :
    ∃ source ∈ rows, ∃ label, found = some label ∧
      MapsTo source.campaign label url ∧
      ∀ row ∈ rows, HasAsset row.campaign url → row.createdAt ≤ source.createdAt := by
  obtain ⟨row, hrow, hhas⟩ := hasset
  rw [resolveMaterial, if_pos htruthy] at hfound
  obtain ⟨before, source, after, label, hsplit, hbefore, hmaps, hlabel⟩ :=
    scanCampaigns_first ⟨row, hlist.perm.mem_iff.2 hrow, hhas⟩ hfound
  have hsource : source ∈ listed := by
    rw [hsplit]
    exact List.mem_append_right _ (List.mem_cons_self ..)
  refine ⟨source, hlist.perm.mem_iff.1 hsource, label, hlabel, hmaps, ?_⟩
  intro other hother hhas'
  have hmem := hlist.perm.mem_iff.2 hother
  have hordered := hlist.newestFirst
  rw [hsplit] at hmem hordered
  rcases List.mem_append.1 hmem with hin | hin
  · -- a campaign that is scanned before the source does not have the asset
    exact absurd hhas' (hbefore other hin)
  · rcases List.mem_cons.1 hin with rfl | hin
    · exact Int.le_refl _
    · have htail := (List.pairwise_append.1 hordered).2.1
      exact (List.pairwise_cons.1 htail).1 other hin

/-! ## Recording a click -/

/-- The campaign of the lead. -/
structure OwnCampaign (rows : List CampaignRecord) (lead : Lead) (own : CampaignRecord) : Prop where
  stored : own ∈ rows
  id : own.campaign.id = lead.campaignId

/-- The click is recorded under the label: as the material of its row, and among the clicked
materials of the lead, where the empty label is not listed. -/
structure RecordedUnder (label : String) (event : EmailEvent) (before after : Lead) : Prop where
  material : event.material = some label
  clicked : ∀ m, m ∈ after.packClickedMaterials.getD [] ↔
    m ∈ before.packClickedMaterials.getD [] ∨ (m = label ∧ label ≠ "")

variable {lib : Lib}

/-- A click with a material is rolled up under that material. -/
theorem recordedUnder_rolledUp (clock : EventClock) (lead : Lead) {event : EmailEvent}
    {label : String} (hclick : event.eventType = .eventClick)
    (hmaterial : event.material = some label) :
    RecordedUnder label event lead (rolledUp lib clock lead event) where
  material := hmaterial
  clicked := by
    intro m
    unfold rolledUp rollup
    rw [hclick]
    simp only [hmaterial]
    by_cases hempty : label = ""
    · simp [hempty]
    · rw [if_neg hempty]
      by_cases hlisted : label ∈ lead.packClickedMaterials.getD []
      · rw [if_pos hlisted, Option.map_none, Option.getD_none]
        constructor
        · exact Or.inl
        · rintro (h | ⟨rfl, -⟩)
          · exact h
          · exact hlisted
      · rw [if_neg hlisted]
        simp [scored, hempty]

theorem textOf_eq_some {value : Json} {s : String} (h : textOf value = .ok (some s)) :
    value = .str s := by
  cases value with
  | str t =>
      simp only [textOf] at h
      by_cases htext : isText t = true
      · rw [if_pos htext, Except.ok.injEq, Option.some.injEq] at h
        rw [h]
      · rw [if_neg htext] at h
        cases h
  | _ => cases h

/-- The material of a click is looked up under the URL its row has. -/
theorem material_of_click {campaigns : List CampaignRow} {received : Int} {w : EmailWorld}
    {evt : PostedEvent} {lead : LeadRow} {event : EmailEvent} {url : String}
    (h : attributeEvent lib campaigns received w evt = .ok (some (lead, event)))
    (hurl : event.url = some url) : resolveMaterial campaigns (.str url) = .ok event.material := by
  obtain ⟨members, -, -, -, hread⟩ := attributeEvent_eq_some.1 h
  obtain ⟨-, hevent⟩ := readEvent_eq_some.1 hread
  obtain ⟨material, _, _, text, _, hmaterial, -, -, htext, -, hrow⟩ :=
    newEvent_eq_ok.1 (eventFor_eq_some.1 hevent).2
  have hlabel : event.material = material := congrArg EmailEvent.material hrow
  have hstored : event.url = text := congrArg EmailEvent.url hrow
  rw [← hstored, hurl] at htext
  rw [hlabel, ← textOf_eq_some htext]
  exact hmaterial

/-- **A click on a document of the lead's campaign.** It is recorded under a label that maps to the
URL in a newest campaign that has the document. That is the lead's own one if every other campaign
that has the document is older. -/
theorem click_label_of_newest (lib : Lib) {rows listed : List CampaignRecord}
    (hlist : ListAll rows listed) (evt : PostedEvent) (clock : EventClock) (w : EmailWorld)
    {lead : LeadRow} {event : EmailEvent} {own : CampaignRecord} {url : String}
    (hevent : attributeEvent lib (listed.map CampaignRecord.campaign) clock.received w evt =
      .ok (some (lead, event)))
    (hclick : event.eventType = .eventClick) (hurl : event.url = some url) (hne : url ≠ "")
    (hown : OwnCampaign rows lead.2 own) (hasset : HasAsset own.campaign (.str url)) :
    ∃ source ∈ rows, ∃ label, MapsTo source.campaign label (.str url) ∧
      (∀ row ∈ rows, HasAsset row.campaign (.str url) → row.createdAt ≤ source.createdAt) ∧
      ((∀ row ∈ rows, HasAsset row.campaign (.str url) →
        row = own ∨ row.createdAt < own.createdAt) → source = own) ∧
      ∃ w' lead', ingestOne lib (listed.map CampaignRecord.campaign) evt clock w = (w', .ok true) ∧
        w'.events.rows = w.events.rows ++ [(w.events.nextId, event)] ∧
        w'.leads.get? lead.1 = some (lead.1, lead') ∧ RecordedUnder label event lead.2 lead' := by
  have htruthy : (Json.str url).truthy = true := by
    simpa [Json.truthy] using hne
  -- the campaigns are scanned from the newest on
  obtain ⟨source, hsource, label, hlabel, hmaps, hnewest⟩ :=
    resolveMaterial_newest hlist htruthy ⟨own, hown.stored, hasset⟩
      (material_of_click hevent hurl)
  refine ⟨source, hsource, label, hmaps, hnewest, ?_, ?_⟩
  · intro holder
    rcases holder source hsource ⟨label, hmaps⟩ with heq | hlt
    · exact heq
    · -- the source is not older than the lead's campaign
      have hle := hnewest own hown.stored hasset
      omega
  · obtain ⟨_, -, -, hnew, hread⟩ := attributeEvent_eq_some.1 hevent
    obtain ⟨-, -, -, hget⟩ := readEvent_row hread
    obtain ⟨w', hstore, hstored⟩ :
        ∃ w', storeEvent lib clock lead event w = (w', .ok true) ∧
          Stored lib clock lead event w w' := storeEvent_spec hnew hget
    refine ⟨w', rolledUp lib clock lead.2 event, ?_, hstored.events, ?_, ?_⟩
    · rw [ingestOne, hevent]
      exact hstore
    · rw [hstored.leads, hget]
      simp
    · exact recordedUnder_rolledUp clock lead.2 hclick hlabel

/-! ## The stand and the website -/

/-- The public address of the brochure. -/
def brochureUrl : String :=
  "https://uxnddcxhzcjcldpheudk.supabase.co/storage/v1/object/public/campaign-assets/WTC-Abuja-Brochure.pdf"

/-- The assets with the brochure under a label. -/
def brochureAssets (label : String) : List (String × Json) := [(label, .arr [.str brochureUrl])]

/-- A campaign that offers the brochure under a label. -/
def offersBrochure (id : Nat) (label : String) : CampaignRow where
  id := id
  config := .obj [("materials", .arr [.str label]), ("materials_assets", .obj (brochureAssets label))]

/-- The stand of the exhibition. -/
def stand : CampaignRecord := ⟨1, offersBrochure 1 "Corporate Prospectus"⟩

/-- The website, created after it. -/
def website : CampaignRecord := ⟨2, offersBrochure 2 "brochure"⟩

/-- Ada, a lead of the stand, clicks the brochure. -/
def brochureClick : PostedEvent :=
  adaEvent "click" "e1" (.num 60) [("url", .str brochureUrl)]

/-- The row of that click, under a label. -/
def brochureRow (label : String) : EmailEvent where
  leadId := 1
  emailKind := none
  eventType := .eventClick
  material := some label
  url := some brochureUrl
  sgEventId := "e1"
  sgMessageId := none
  occurredAt := utc 60000000

theorem offersBrochure_assets (id : Nat) (label : String) :
    (offersBrochure id label).assets = .ok (brochureAssets label) := rfl

theorem offersBrochure_maps {id : Nat} {label label' : String} :
    MapsTo (offersBrochure id label) label' (.str brochureUrl) ↔ label' = label := by
  simp [MapsTo, offersBrochure_assets, brochureAssets, urlsOf]

theorem brochureAssets_label (label : String) :
    labelIn (brochureAssets label) (.str brochureUrl) = some label := by
  simp [labelIn, brochureAssets, urlsOf]

theorem brochureUrl_isText : isText brochureUrl = true := by
  decide +kernel

/-- Read in a list of campaigns that starts with one that offers it, the click becomes a row under
the label of that one. -/
theorem brochureClick_read (id : Nat) (label : String) (rest : List CampaignRow) :
    attributeEvent plainLib (offersBrochure id label :: rest) midnight.received oneLead
      brochureClick = .ok (some ((1, newLead 1 "ada@x.ng"), brochureRow label)) := by
  have hmaterial :
      resolveMaterial (offersBrochure id label :: rest) (.str brochureUrl) = .ok (some label) := by
    rw [resolveMaterial, if_pos (by decide +kernel), scanCampaigns, offersBrochure_assets]
    simp only [brochureAssets_label]
  apply attributeEvent_eq_some.2
  have hempty : ¬ Recorded oneLead.events (brochureRow label).sgEventId := by
    rintro ⟨row, hrow, -⟩
    cases hrow
  refine ⟨_, rfl, rfl, hempty, ?_⟩
  apply readEvent_eq_some.2
  refine ⟨rfl, eventFor_eq_some.2 ⟨⟨"ada@x.ng", by decide +kernel, by decide +kernel⟩, ?_⟩⟩
  apply newEvent_eq_ok.2
  refine ⟨some label, 60000000, none, some brochureUrl, none, hmaterial, by decide +kernel, rfl, ?_,
    rfl, rfl⟩
  have hurl : textOf (.str brochureUrl) = .ok (some brochureUrl) := by
    rw [textOf, if_pos brochureUrl_isText]
  exact hurl

theorem newestFirst_listed : ListAll [stand, website] [website, stand] where
  perm := List.Perm.swap _ _ _
  newestFirst := by
    simp [stand, website]

theorem stand_own : OwnCampaign [stand, website] (newLead 1 "ada@x.ng") stand where
  stored := List.mem_cons_self ..
  id := rfl

theorem brochure_of_newest :
    ∃ source ∈ [stand, website], ∃ label, MapsTo source.campaign label (.str brochureUrl) ∧
      website.createdAt ≤ source.createdAt ∧
      ∃ w' lead', ingestOne plainLib [website.campaign, stand.campaign] brochureClick midnight
          oneLead = (w', .ok true) ∧
        w'.leads.get? 1 = some (1, lead') ∧
        RecordedUnder label (brochureRow "brochure") (newLead 1 "ada@x.ng") lead' := by
  have hstand : HasAsset stand.campaign (.str brochureUrl) := ⟨_, offersBrochure_maps.2 rfl⟩
  have hwebsite : HasAsset website.campaign (.str brochureUrl) := ⟨_, offersBrochure_maps.2 rfl⟩
  obtain ⟨source, hsource, label, hmaps, hnewest, -, w', lead', hrun, -, hget, hrecorded⟩ :=
    click_label_of_newest plainLib newestFirst_listed brochureClick midnight oneLead
      (brochureClick_read 2 "brochure" [stand.campaign]) rfl rfl (by decide +kernel)
      stand_own hstand
  exact ⟨source, hsource, label, hmaps, hnewest website (by simp) hwebsite, w', lead', hrun, hget,
    hrecorded⟩

/-- The click of a lead of the stand is recorded under the label of the website, which maps to
nothing in the stand's own assets. -/
theorem stand_click_labelled_by_website :
    ListAll [stand, website] [website, stand] ∧
    OwnCampaign [stand, website] (newLead 1 "ada@x.ng") stand ∧
    HasAsset stand.campaign (.str brochureUrl) ∧
    attributeEvent plainLib [website.campaign, stand.campaign] midnight.received oneLead
      brochureClick = .ok (some ((1, newLead 1 "ada@x.ng"), brochureRow "brochure")) ∧
    (((ingestOne plainLib [website.campaign, stand.campaign] brochureClick midnight
      oneLead).1.leads.get? 1).bind fun row => row.2.packClickedMaterials) = some ["brochure"] ∧
    ¬ MapsTo stand.campaign "brochure" (.str brochureUrl) := by
  have hread : attributeEvent plainLib [website.campaign, stand.campaign] midnight.received oneLead
      brochureClick = .ok (some ((1, newLead 1 "ada@x.ng"), brochureRow "brochure")) :=
    brochureClick_read 2 "brochure" [stand.campaign]
  refine ⟨newestFirst_listed, stand_own, ⟨_, offersBrochure_maps.2 rfl⟩, hread, ?_, ?_⟩
  · rw [ingestOne, hread]
    decide +kernel
  · intro hmaps
    have hlabel := offersBrochure_maps.1 hmaps
    exact absurd hlabel (by decide)

end SalesTrades.Emails
