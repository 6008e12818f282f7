import SalesTrades.Emails.Attribution

/-!
# Events that can be read

`Readable` says, field by field and only as far as the code comes, which JSON values `_ingest_one`
reads without raising, the `config` of the campaigns that a click is looked up in among them;
`attributeEvent_ok_iff` shows that it is exact. A `WellTyped` event, whose fields are null or of the
documented types, is readable in every state where the campaigns are.
-/

set_option autoImplicit false

namespace SalesTrades.Emails

open SalesTrades.Library SalesTrades.Leads

variable {lib : Lib} {campaigns : List CampaignRow}

/-! ## Fields -/

/-- What a nullable text column takes. -/
def IsTextField (value : Json) : Prop := value = .null ∨ ∃ s, value = .str s ∧ isText s = true

/-- A type `in` can hash. -/
structure Hashable (value : Json) : Prop where
  not_arr : ∀ xs, value ≠ .arr xs
  not_obj : ∀ members, value ≠ .obj members

/-- The value is a lead id: a string of digits or a positive integer. -/
inductive NamesLead (lib : Lib) : EventValue → Nat → Prop where
  | digits {s : String} {leadId : Nat} : s ≠ "" → lib.isdigit s = true → lib.int s = .ok leadId →
      NamesLead lib (.plain (.str s)) leadId
  | number {q : ℚ} : q.den = 1 → 0 < q.num → NamesLead lib (.plain (.num q)) q.num.toNat

/-- A string of digits is one that `int` takes, and a lead id is in the range of the column. -/
structure ReadableLeadId (lib : Lib) (value : EventValue) : Prop where
  int : ∀ s, value = .plain (.str s) → s ≠ "" → lib.isdigit s = true →
    ∃ leadId, lib.int s = .ok leadId
  range : ∀ leadId, NamesLead lib value leadId → leadId < bigintBound

/-- The address the event is about is the lead's, or it is missing. -/
def ToLead (lib : Lib) (lead : Lead) (email : Json) : Prop :=
  ∃ s, email.orElse (.str "") = .str s ∧ isOwnEngagement lib lead (lib.text.lower (strip s)) = true

/-- The `config` of a campaign is an object, and so is its `materials_assets`. Either may be
missing. -/
structure ReadableAssets (campaign : CampaignRow) : Prop where
  config : campaign.config.truthy = true → ∃ members, campaign.config = .obj members
  materialsAssets : ∀ members entry, campaign.config = .obj members →
    (members.find? fun m => m.1 == "materials_assets") = some entry →
      ∃ assets, entry.2 = .obj assets

/-- Every campaign that the scan for the URL comes to, because no campaign before it has the URL,
has assets that can be read. -/
def Resolvable (campaigns : List CampaignRow) (url : Json) : Prop :=
  ∀ before campaign after, campaigns = before ++ campaign :: after →
    (∀ earlier ∈ before, ¬ HasAsset earlier url) → ReadableAssets campaign

/-- The fields of the new row. -/
structure ReadableRow (lib : Lib) (campaigns : List CampaignRow) (evt : SendgridEvent)
    (eventType : EventType) : Prop where
  material : eventType = .eventClick → (evt.get "url").truthy = true →
    Resolvable campaigns (evt.get "url")
  timestamp : (evt.get "timestamp").truthy = true →
    ∃ m, lib.fromtimestamp (evt.get "timestamp") = .ok m
  emailKind : IsTextField (evt.get "email_kind")
  url : eventType = .eventClick → IsTextField (evt.get "url")
  sgMessageId : IsTextField (evt.get "sg_message_id")

theorem textOf_ok_iff {value : Json} : (∃ r, textOf value = .ok r) ↔ IsTextField value := by
  unfold IsTextField
  cases value with
  | null => simp [textOf]
  | str s =>
      by_cases hs : isText s = true
      · simp [textOf, hs]
      · simp [textOf, hs]
  | _ => simp [textOf]

/-- The assets of a campaign are read exactly where they are an object or missing. -/
theorem assets_ok_iff {campaign : CampaignRow} :
    (∃ assets, campaign.assets = .ok assets) ↔ ReadableAssets campaign := by
  have hobj : ∀ members, campaign.config = .obj members →
      campaign.config.orElse (.obj []) = .obj members := by
    intro members hconfig
    rw [hconfig, Json.orElse]
    cases members with
    | nil => rfl
    | cons m rest => rfl
  constructor
  · rintro ⟨found, hfound⟩
    constructor
    · intro htruthy
      -- a config that is truthy is read as it is, any other as an empty object
      have hself : campaign.config.orElse (.obj []) = campaign.config := if_pos htruthy
      rw [CampaignRow.assets, hself] at hfound
      cases hconfig : campaign.config with
      | obj members => exact ⟨members, rfl⟩
      | _ =>
          rw [hconfig] at hfound
          cases hfound
    · intro members entry hconfig hentry
      obtain ⟨key, value⟩ := entry
      simp only [CampaignRow.assets, hobj members hconfig, hentry] at hfound
      cases value with
      | obj assets => exact ⟨assets, rfl⟩
      | _ => cases hfound
  · intro h
    by_cases htruthy : campaign.config.truthy = true
    · obtain ⟨members, hconfig⟩ := h.config htruthy
      rw [CampaignRow.assets, hobj members hconfig]
      cases hentry : members.find? fun m => m.1 == "materials_assets" with
      | none => exact ⟨[], by simp only [hentry]⟩
      | some entry =>
          obtain ⟨assets, hassets⟩ := h.materialsAssets members entry hconfig hentry
          obtain ⟨key, value⟩ := entry
          obtain rfl : value = .obj assets := hassets
          exact ⟨assets, by simp only [hentry]⟩
    · have hempty : campaign.config.orElse (.obj []) = .obj [] := if_neg htruthy
      rw [CampaignRow.assets, hempty]
      exact ⟨[], rfl⟩

theorem resolvable_cons {campaign : CampaignRow} {rest : List CampaignRow} {url : Json} :
    Resolvable (campaign :: rest) url ↔
      ReadableAssets campaign ∧ (¬ HasAsset campaign url → Resolvable rest url) := by
  constructor
  · intro h
    refine ⟨h [] campaign rest rfl (by simp), ?_⟩
    intro hnone before source after hsplit hbefore
    apply h (campaign :: before) source after (by rw [hsplit, List.cons_append])
    intro earlier hearlier
    rcases List.mem_cons.1 hearlier with rfl | hearlier
    · exact hnone
    · exact hbefore earlier hearlier
  · rintro ⟨hhead, hrest⟩ before source after hsplit hbefore
    cases before with
    | nil =>
        obtain ⟨rfl, -⟩ := List.cons.inj hsplit
        exact hhead
    | cons first before =>
        obtain ⟨rfl, htail⟩ := List.cons.inj hsplit
        apply hrest (hbefore campaign List.mem_cons_self) before source after htail
        intro earlier hearlier
        exact hbefore earlier (List.mem_cons_of_mem campaign hearlier)

/-- The scan goes through exactly where each campaign that it comes to can be read. -/
theorem scanCampaigns_ok_iff {campaigns : List CampaignRow} {url : Json} :
    (∃ r, scanCampaigns url campaigns = .ok r) ↔ Resolvable campaigns url := by
  induction campaigns with
  | nil =>
      refine iff_of_true ⟨none, rfl⟩ ?_
      intro before campaign after hsplit
      simp at hsplit
  | cons campaign rest ih =>
      rw [resolvable_cons, ← ih, ← assets_ok_iff]
      simp only [scanCampaigns]
      cases hassets : campaign.assets with
      | error e => simp
      | ok assets =>
          rw [← labelIn_eq_none hassets]
          cases hlabel : labelIn assets url with
          | none => simp [hlabel]
          | some label => simp [hlabel]

theorem resolveMaterial_ok_iff {campaigns : List CampaignRow} {url : Json} :
    (∃ r, resolveMaterial campaigns url = .ok r) ↔
      (url.truthy = true → Resolvable campaigns url) := by
  rw [resolveMaterial]
  by_cases hurl : url.truthy = true
  · rw [if_pos hurl, scanCampaigns_ok_iff]
    simp [hurl]
  · rw [if_neg hurl]
    simp [hurl]

theorem leadIdOf_eq_some {value : EventValue} {leadId : Nat} :
    leadIdOf lib value = .ok (some leadId) ↔ NamesLead lib value leadId := by
  constructor
  · intro h
    -- only a string of digits and a positive integer name a lead
    cases value with
    | float q => cases h
    | plain value =>
        cases value with
        | str s =>
            simp only [leadIdOf] at h
            split at h
            · rename_i hs
              cases hint : lib.int s with
              | error e =>
                  rw [hint] at h
                  cases h
              | ok n =>
                  rw [hint] at h
                  simp only [Except.map, Except.ok.injEq, Option.some.injEq] at h
                  exact .digits hs.1 hs.2 (h ▸ hint)
            · cases h
        | num q =>
            simp only [leadIdOf] at h
            split at h
            · rename_i hq
              simp only [Except.ok.injEq, Option.some.injEq] at h
              exact h ▸ .number hq.1 hq.2
            · cases h
        | _ => cases h
  · intro h
    cases h with
    | digits hs hdigit hint => simp [leadIdOf, hs, hdigit, hint, Except.map]
    | number hden hpos => simp [leadIdOf, hden, hpos]

theorem leadIdOf_ok_iff {value : EventValue} : (∃ r, leadIdOf lib value = .ok r) ↔
    ∀ s, value = .plain (.str s) → s ≠ "" → lib.isdigit s = true →
      ∃ leadId, lib.int s = .ok leadId := by
  cases value with
  | float q => simp [leadIdOf]
  | plain value =>
      cases value with
      | str s =>
          simp only [leadIdOf, EventValue.plain.injEq, Json.str.injEq, forall_eq']
          by_cases hs : s ≠ "" ∧ lib.isdigit s = true
          · rw [if_pos hs]
            cases lib.int s with
            | error e => simp [Except.map, hs.1, hs.2]
            | ok leadId => simp [Except.map]
          · rw [if_neg hs]
            constructor
            · intro _ hne hdigit
              exact absurd ⟨hne, hdigit⟩ hs
            · intro _
              exact ⟨none, rfl⟩
      | num q =>
          simp only [leadIdOf, EventValue.plain.injEq, reduceCtorEq, false_implies, implies_true,
            iff_true]
          split
          · exact ⟨_, rfl⟩
          · exact ⟨_, rfl⟩
      | _ => simp [leadIdOf]

theorem recipientOf_eq_ok {email : Json} {recipient : String} :
    recipientOf lib email = .ok recipient ↔
      ∃ s, email.orElse (.str "") = .str s ∧ recipient = lib.text.lower (strip s) := by
  unfold recipientOf
  cases email.orElse (.str "") with
  | str s => simp [eq_comm]
  | _ => simp

theorem newEvent_ok_iff {received : Int} {leadId : Nat} {evt : SendgridEvent} {key : EventKey} :
    (∃ event, newEvent lib campaigns received leadId evt key = .ok event) ↔
      ReadableRow lib campaigns evt key.eventType := by
  -- one condition for each read; a url is read of a click only
  have hmaterial : (∃ r, resolveMaterial campaigns (urlOf evt key.eventType) = .ok r) ↔
      (key.eventType = .eventClick → (evt.get "url").truthy = true →
        Resolvable campaigns (evt.get "url")) := by
    rw [resolveMaterial_ok_iff]
    unfold urlOf
    by_cases hclick : key.eventType = .eventClick
    · simp [hclick]
    · simp [hclick, Json.truthy]
  have hurl : (∃ r, textOf (urlOf evt key.eventType) = .ok r) ↔
      (key.eventType = .eventClick → IsTextField (evt.get "url")) := by
    rw [textOf_ok_iff]
    unfold urlOf
    by_cases hclick : key.eventType = .eventClick
    · simp [hclick]
    · simp [hclick, IsTextField]
  have htime : (∃ r, occurredAtOf lib received (evt.get "timestamp") = .ok r) ↔
      ((evt.get "timestamp").truthy = true →
        ∃ m, lib.fromtimestamp (evt.get "timestamp") = .ok m) := by
    unfold occurredAtOf
    by_cases hstamp : (evt.get "timestamp").truthy = true
    · simp [hstamp]
    · simp [hstamp]
  constructor
  · rintro ⟨event, hnew⟩
    obtain ⟨a, m, k, u, g, ha, hm, hk, hu, hg, -⟩ := newEvent_eq_ok.1 hnew
    exact
      { material := hmaterial.1 ⟨a, ha⟩
        timestamp := htime.1 ⟨m, hm⟩
        emailKind := textOf_ok_iff.1 ⟨k, hk⟩
        url := hurl.1 ⟨u, hu⟩
        sgMessageId := textOf_ok_iff.1 ⟨g, hg⟩ }
  · intro h
    obtain ⟨a, ha⟩ := hmaterial.2 h.material
    obtain ⟨m, hm⟩ := htime.2 h.timestamp
    obtain ⟨k, hk⟩ := textOf_ok_iff.2 h.emailKind
    obtain ⟨u, hu⟩ := hurl.2 h.url
    obtain ⟨g, hg⟩ := textOf_ok_iff.2 h.sgMessageId
    exact ⟨_, newEvent_eq_ok.2 ⟨a, m, k, u, g, ha, hm, hk, hu, hg, rfl⟩⟩

/-! ## Events -/

/-- The event is of a tracked type and has an id. -/
structure HasKey (evt : SendgridEvent) (key : EventKey) : Prop where
  event : evt.get "event" = .str key.eventType.text
  sgEventId : evt.get "sg_event_id" = .str key.sgEventId
  ne_empty : key.sgEventId ≠ ""
  isText : isText key.sgEventId = true

/-- The event is not yet recorded. -/
structure New (w : EmailWorld) (evt : SendgridEvent) (key : EventKey) : Prop
    extends HasKey evt key where
  not_recorded : ¬ Recorded w.events key.sgEventId

/-- The event names a lead of the table. -/
structure About (lib : Lib) (w : EmailWorld) (evt : SendgridEvent) (lead : LeadRow) : Prop where
  names : NamesLead lib (evt.posted "lead_id") lead.1
  get : w.leads.get? lead.1 = some lead

/-- Every field the code comes to can be read. -/
structure Readable (lib : Lib) (campaigns : List CampaignRow) (w : EmailWorld) (evt : SendgridEvent) :
    Prop where
  event : Hashable (evt.get "event")
  sgEventId : ∀ t : EventType, evt.get "event" = .str t.text →
    (evt.get "sg_event_id").truthy = true → ∃ s, evt.get "sg_event_id" = .str s ∧ isText s = true
  leadId : ∀ key, New w evt key → ReadableLeadId lib (evt.posted "lead_id")
  email : ∀ key lead, New w evt key → About lib w evt lead → (evt.get "email").truthy = true →
    ∃ s, evt.get "email" = .str s
  row : ∀ key lead, New w evt key → About lib w evt lead → ToLead lib lead.2 (evt.get "email") →
    ReadableRow lib campaigns evt key.eventType

theorem hasKey_iff {evt : SendgridEvent} {key : EventKey} :
    HasKey evt key ↔ eventKey evt = .ok (some key) := by
  rw [eventKey_eq_some]
  exact ⟨fun h => ⟨h.event, h.sgEventId, h.ne_empty, h.isText⟩,
    fun ⟨hevent, hid, hne, htext⟩ => ⟨hevent, hid, hne, htext⟩⟩

theorem sgEventIdOf_ok_iff {value : Json} : (∃ r, sgEventIdOf value = .ok r) ↔
    (value.truthy = true → ∃ s, value = .str s ∧ isText s = true) := by
  unfold sgEventIdOf
  by_cases ht : value.truthy = true
  · rw [if_pos ht]
    simp only [ht, true_implies]
    cases value with
    | str s =>
        by_cases hs : isText s = true
        · simp [hs]
        · simp [hs]
    | _ => simp
  · simp [ht]

/-- The key can be read exactly when the type can be hashed and the id of a tracked event is text.
-/
theorem eventKey_ok_iff {evt : SendgridEvent} : (∃ r, eventKey evt = .ok r) ↔
    Hashable (evt.get "event") ∧ ∀ t : EventType, evt.get "event" = .str t.text →
      (evt.get "sg_event_id").truthy = true →
        ∃ s, evt.get "sg_event_id" = .str s ∧ isText s = true := by
  unfold eventKey
  -- a list or an object cannot be hashed, and only a string can be a tracked type
  cases hevent : evt.get "event" with
  | arr xs => simpa using fun h : Hashable (.arr xs) => absurd rfl (h.not_arr xs)
  | obj ms => simpa using fun h : Hashable (.obj ms) => absurd rfl (h.not_obj ms)
  | str s =>
      have hhash : Hashable (.str s) := ⟨by simp, by simp⟩
      simp only [hhash, true_and, Json.str.injEq]
      cases htracked : trackedEvent s with
      | none =>
          constructor
          · rintro - t rfl
            rw [trackedEvent_eq_some.2 rfl] at htracked
            cases htracked
          · intro _
            exact ⟨none, rfl⟩
      | some eventType =>
          have hs := trackedEvent_eq_some.1 htracked
          have hmap : (∃ r, (sgEventIdOf (evt.get "sg_event_id")).map (Option.map fun sgEventId =>
              (⟨eventType, sgEventId⟩ : EventKey)) = .ok r) ↔
              ∃ r, sgEventIdOf (evt.get "sg_event_id") = .ok r := by
            cases sgEventIdOf (evt.get "sg_event_id") with
            | error e => simp [Except.map]
            | ok found => simp [Except.map]
          rw [hmap, sgEventIdOf_ok_iff]
          constructor
          · intro h _ _
            exact h
          · intro h
            exact h eventType hs
  | _ =>
      simp only [Except.ok.injEq, exists_eq', reduceCtorEq, false_implies, implies_true, and_true,
        true_iff]
      exact ⟨by simp, by simp⟩

/-- The lead can be read exactly when the id can. -/
theorem leadOf_ok_iff {leads : LeadTable} {evt : SendgridEvent} :
    (∃ r, leadOf lib leads evt = .ok r) ↔ ReadableLeadId lib (evt.posted "lead_id") := by
  unfold leadOf
  cases hid : leadIdOf lib (evt.posted "lead_id") with
  | error e =>
      simp only [reduceCtorEq, exists_false, false_iff]
      intro hread
      obtain ⟨r, hr⟩ := leadIdOf_ok_iff.2 hread.int
      rw [hid] at hr
      cases hr
  | ok found =>
      have hint := leadIdOf_ok_iff.1 ⟨found, hid⟩
      have hnames : ∀ n, NamesLead lib (evt.posted "lead_id") n ↔ found = some n := by
        intro n
        rw [← leadIdOf_eq_some, hid, Except.ok.injEq]
      cases found with
      | none =>
          simp only [Except.ok.injEq, exists_eq', true_iff]
          exact ⟨hint, fun n hn => absurd ((hnames n).1 hn) (by simp)⟩
      | some leadId =>
          simp only [getLead]
          -- the driver takes the id of the lookup if the column could have it
          by_cases hbound : leadId < bigintBound
          · simp only [hbound, if_true, Except.ok.injEq, exists_eq', true_iff]
            refine ⟨hint, fun n hn => ?_⟩
            rw [← Option.some.inj ((hnames n).1 hn)]
            exact hbound
          · simp only [hbound, if_false, reduceCtorEq, exists_false, false_iff]
            exact fun hread => hbound (hread.range leadId ((hnames leadId).2 rfl))

/-- With a readable id, the lead that is found is the one the event is about. -/
theorem leadOf_eq_some_iff_about {w : EmailWorld} {evt : SendgridEvent} {lead : LeadRow}
    (hid : ReadableLeadId lib (evt.posted "lead_id")) :
    leadOf lib w.leads evt = .ok (some lead) ↔ About lib w evt lead := by
  rw [leadOf_eq_some, leadIdOf_eq_some]
  constructor
  · rintro ⟨hnames, -, hget⟩
    exact ⟨hnames, hget⟩
  · intro h
    exact ⟨h.names, hid.range _ h.names, h.get⟩

/-- The row can be read exactly when the address can, and for the lead's own engagement its fields.
-/
theorem eventFor_ok_iff {received : Int} {lead : LeadRow} {evt : SendgridEvent} {key : EventKey} :
    (∃ r, eventFor lib campaigns received lead evt key = .ok r) ↔
      ((evt.get "email").truthy = true → ∃ s, evt.get "email" = .str s) ∧
      (ToLead lib lead.2 (evt.get "email") → ReadableRow lib campaigns evt key.eventType) := by
  have hemail : ((evt.get "email").truthy = true → ∃ s, evt.get "email" = .str s) ↔
      ∃ s, (evt.get "email").orElse (.str "") = .str s := by
    unfold Json.orElse
    by_cases ht : (evt.get "email").truthy = true
    · simp [ht]
    · simp [ht]
  have hown : ∀ recipient, recipientOf lib (evt.get "email") = .ok recipient →
      (ToLead lib lead.2 (evt.get "email") ↔ isOwnEngagement lib lead.2 recipient = true) := by
    intro recipient hrecipient
    obtain ⟨s, hs, rfl⟩ := recipientOf_eq_ok.1 hrecipient
    unfold ToLead
    rw [hs]
    simp
  rw [hemail]
  unfold eventFor
  cases hrecipient : recipientOf lib (evt.get "email") with
  | error e =>
      simp only [reduceCtorEq, exists_false, false_iff, not_and]
      rintro ⟨s, hs⟩
      rw [recipientOf_eq_ok.2 ⟨s, hs, rfl⟩] at hrecipient
      cases hrecipient
  | ok recipient =>
      obtain ⟨s, hs, -⟩ := recipientOf_eq_ok.1 hrecipient
      have hstr : ∃ s, (evt.get "email").orElse (.str "") = .str s := ⟨s, hs⟩
      have hnew : (∃ event, newEvent lib campaigns received lead.1 evt key = .ok event) ↔
          ReadableRow lib campaigns evt key.eventType := newEvent_ok_iff
      rw [hown recipient hrecipient, ← hnew]
      simp only [hstr, true_and]
      -- an event about a copy of the mail is skipped before its row is read
      by_cases ho : isOwnEngagement lib lead.2 recipient = true
      · rw [if_pos ho]
        cases newEvent lib campaigns received lead.1 evt key with
        | error e => simp [Except.map, ho]
        | ok event => simp [Except.map]
      · simp [ho]

theorem readEvent_ok_iff {received : Int} {w : EmailWorld} {evt : SendgridEvent} {key : EventKey} :
    (∃ r, readEvent lib campaigns received w.leads evt key = .ok r) ↔
      ReadableLeadId lib (evt.posted "lead_id") ∧
      ∀ lead, About lib w evt lead →
        ((evt.get "email").truthy = true → ∃ s, evt.get "email" = .str s) ∧
        (ToLead lib lead.2 (evt.get "email") → ReadableRow lib campaigns evt key.eventType) := by
  constructor
  · rintro ⟨r, hr⟩
    unfold readEvent at hr
    cases hlead : leadOf lib w.leads evt with
    | error e =>
        rw [hlead] at hr
        cases hr
    | ok found =>
        have hid := leadOf_ok_iff.1 ⟨found, hlead⟩
        refine ⟨hid, fun lead habout => ?_⟩
        rw [(leadOf_eq_some_iff_about hid).2 habout] at hr
        have hevent : ∃ r, eventFor lib campaigns received lead evt key = .ok r := by
          cases hevent : eventFor lib campaigns received lead evt key with
          | error e =>
              simp only [hevent] at hr
              cases hr
          | ok event => exact ⟨event, rfl⟩
        exact eventFor_ok_iff.1 hevent
  · rintro ⟨hid, hrow⟩
    obtain ⟨found, hfound⟩ := leadOf_ok_iff.2 hid
    unfold readEvent
    rw [hfound]
    -- where there is no such lead nothing else is read
    cases found with
    | none => exact ⟨none, rfl⟩
    | some lead =>
        have hevent : ∃ r, eventFor lib campaigns received lead evt key = .ok r :=
          eventFor_ok_iff.2 (hrow lead ((leadOf_eq_some_iff_about hid).1 hfound))
        obtain ⟨event, hevent⟩ := hevent
        simp only [hevent]
        exact ⟨_, rfl⟩

/-- **What can be read.** `_ingest_one` reaches its insert, or skips the event, exactly when every
field it comes to can be read. -/
theorem attributeEvent_ok_iff {received : Int} {w : EmailWorld} {evt : SendgridEvent} :
    (∃ r, attributeEvent lib campaigns received w (.obj evt) = .ok r) ↔
      Readable lib campaigns w evt := by
  simp only [attributeEvent]
  constructor
  · rintro ⟨r, hr⟩
    cases hkey : eventKey evt with
    | error e =>
        rw [hkey] at hr
        cases hr
    | ok found =>
        obtain ⟨hevent, hsg⟩ := eventKey_ok_iff.1 ⟨found, hkey⟩
        -- a new event is the one whose key was found, and its reading went through
        have hread : ∀ key, New w evt key →
            ∃ r, readEvent lib campaigns received w.leads evt key = .ok r := by
          intro key hnew
          rw [hasKey_iff.1 hnew.toHasKey] at hkey
          rw [hasKey_iff.1 hnew.toHasKey] at hr
          simp only [getBySgEventId_isSome, hnew.not_recorded, if_false] at hr
          exact ⟨r, hr⟩
        exact
          { event := hevent
            sgEventId := hsg
            leadId := fun key hnew => (readEvent_ok_iff.1 (hread key hnew)).1
            email := fun key lead hnew habout =>
              ((readEvent_ok_iff.1 (hread key hnew)).2 lead habout).1
            row := fun key lead hnew habout =>
              ((readEvent_ok_iff.1 (hread key hnew)).2 lead habout).2 }
  · intro h
    obtain ⟨found, hkey⟩ := eventKey_ok_iff.2 ⟨h.event, h.sgEventId⟩
    rw [hkey]
    cases found with
    | none => exact ⟨none, rfl⟩
    | some key =>
        simp only [getBySgEventId_isSome]
        by_cases hrecorded : Recorded w.events key.sgEventId
        · rw [if_pos hrecorded]
          exact ⟨none, rfl⟩
        · rw [if_neg hrecorded]
          have hnew : New w evt key := ⟨hasKey_iff.2 hkey, hrecorded⟩
          exact readEvent_ok_iff.2 ⟨h.leadId key hnew,
            fun lead habout => ⟨h.email key lead hnew habout, h.row key lead hnew habout⟩⟩

/-! ## Well-typed events -/

/-- The fields are null or of the documented types: a type, an id, texts, a lead id and a time stamp
in range. -/
structure WellTyped (lib : Lib) (evt : SendgridEvent) : Prop where
  event : evt.get "event" = .null ∨ ∃ s, evt.get "event" = .str s
  sgEventId : IsTextField (evt.get "sg_event_id")
  leadId : ReadableLeadId lib (evt.posted "lead_id")
  email : evt.get "email" = .null ∨ ∃ s, evt.get "email" = .str s
  timestamp : (evt.get "timestamp").truthy = true →
    ∃ m, lib.fromtimestamp (evt.get "timestamp") = .ok m
  emailKind : IsTextField (evt.get "email_kind")
  url : IsTextField (evt.get "url")
  sgMessageId : IsTextField (evt.get "sg_message_id")

theorem WellTyped.readable {evt : SendgridEvent} (h : WellTyped lib evt)
    (hassets : ∀ campaign ∈ campaigns, ReadableAssets campaign) (w : EmailWorld) :
    Readable lib campaigns w evt where
  event := by
    rcases h.event with hnull | ⟨s, hs⟩
    · rw [hnull]
      exact ⟨by simp, by simp⟩
    · rw [hs]
      exact ⟨by simp, by simp⟩
  sgEventId := by
    intro t _ htruthy
    rcases h.sgEventId with hnull | hs
    · rw [hnull] at htruthy
      cases htruthy
    · exact hs
  leadId := fun _ _ => h.leadId
  email := by
    intro key lead _ _ htruthy
    rcases h.email with hnull | hs
    · rw [hnull] at htruthy
      cases htruthy
    · exact hs
  row := fun _ _ _ _ _ =>
    { material := by
        intro _ _ before campaign after hsplit _
        apply hassets campaign
        rw [hsplit]
        exact List.mem_append_right before List.mem_cons_self
      timestamp := h.timestamp
      emailKind := h.emailKind
      url := fun _ => h.url
      sgMessageId := h.sgMessageId }

end SalesTrades.Emails
