import SalesTrades.Emails.Ingest

/-!
# Which row an event becomes

`Becomes` relates an event to the row it is recorded as. It depends on the ids and addresses of the
leads only, which no event changes (`SameLeads`), and the row of an event is determined up to its
time (`Becomes.unique`). `ingestOne_cases` says once what one event does: it is skipped or fails,
and then changes nothing, or it appends the row it becomes and rolls it up.
-/

set_option autoImplicit false

namespace SalesTrades.Emails

open SalesTrades.Library SalesTrades.Leads

variable {lib : Lib} {campaigns : List CampaignRow}

/-! ## Keys -/

theorem sgEventIdOf_eq_some {value : Json} {s : String} :
    sgEventIdOf value = .ok (some s) ↔ value = .str s ∧ s ≠ "" ∧ isText s = true := by
  cases value with
  | str t =>
      unfold sgEventIdOf
      by_cases ht : t = ""
      · subst ht
        refine iff_of_false (by simp [Json.truthy]) ?_
        rintro ⟨heq, hne, -⟩
        cases heq
        exact hne rfl
      · by_cases htext : isText t = true
        · simp only [Json.truthy, bne_iff_ne, ne_eq, ht, not_false_eq_true, if_true, htext,
            Except.ok.injEq, Option.some.injEq, Json.str.injEq]
          constructor
          · rintro rfl
            exact ⟨rfl, ht, htext⟩
          · exact fun h => h.1
        · simp only [Json.truthy, bne_iff_ne, ne_eq, ht, not_false_eq_true, if_true, htext,
            reduceCtorEq, if_false, Json.str.injEq, false_iff, not_and]
          rintro rfl _
          exact htext
  | _ =>
      unfold sgEventIdOf
      split <;> simp

/-- An event has a key exactly when its type is tracked and its id is a string. -/
theorem eventKey_eq_some {evt : SendgridEvent} {key : EventKey} :
    eventKey evt = .ok (some key) ↔ evt.get "event" = .str key.eventType.text ∧
      evt.get "sg_event_id" = .str key.sgEventId ∧ key.sgEventId ≠ "" ∧
      isText key.sgEventId = true := by
  unfold eventKey
  cases hevent : evt.get "event" with
  | str s =>
      simp only [Json.str.injEq]
      cases htracked : trackedEvent s with
      | none =>
          simp only [Except.ok.injEq, reduceCtorEq, false_iff, not_and]
          rintro rfl
          rw [trackedEvent_eq_some.2 rfl] at htracked
          cases htracked
      | some eventType =>
          have hs := trackedEvent_eq_some.1 htracked
          rw [← sgEventIdOf_eq_some]
          constructor
          · intro h
            cases hid : sgEventIdOf (evt.get "sg_event_id") with
            | error e => rw [hid] at h; cases h
            | ok found =>
                cases found with
                | none => rw [hid] at h; cases h
                | some sgEventId =>
                    rw [hid] at h
                    simp only [Except.map, Option.map_some, Except.ok.injEq, Option.some.injEq] at h
                    subst h
                    exact ⟨hs, rfl⟩
          · rintro ⟨htype, hid⟩
            rw [hid]
            -- the text determines the type
            rw [htype] at htracked
            rw [trackedEvent_eq_some.2 rfl, Option.some.injEq] at htracked
            simp only [Except.map, Option.map_some, Except.ok.injEq, Option.some.injEq]
            rw [← htracked]
  | _ => simp

/-! ## Labels of a URL -/

/-- The label maps to the URL in the campaign's `materials_assets`. -/
def MapsTo (campaign : CampaignRow) (label : String) (url : Json) : Prop :=
  ∃ assets value, campaign.assets = .ok assets ∧ (label, value) ∈ assets ∧ url ∈ urlsOf value

/-- The URL is one of the assets of the campaign. -/
def HasAsset (campaign : CampaignRow) (url : Json) : Prop := ∃ label, MapsTo campaign label url

theorem mapsTo_of_labelIn {campaign : CampaignRow} {assets : List (String × Json)} {url : Json}
    {label : String} (hassets : campaign.assets = .ok assets)
    (h : labelIn assets url = some label) : MapsTo campaign label url := by
  rw [labelIn, Option.map_eq_some_iff] at h
  obtain ⟨asset, hfound, rfl⟩ := h
  have hurl := List.find?_some hfound
  rw [decide_eq_true_eq] at hurl
  exact ⟨assets, asset.2, hassets, List.mem_of_find?_eq_some hfound, hurl⟩

/-- A campaign contributes no label only where the URL is none of its assets. -/
theorem labelIn_eq_none {campaign : CampaignRow} {assets : List (String × Json)} {url : Json}
    (hassets : campaign.assets = .ok assets) :
    labelIn assets url = none ↔ ¬ HasAsset campaign url := by
  rw [labelIn, Option.map_eq_none_iff, List.find?_eq_none]
  constructor
  · rintro hnone ⟨label, assets', value, hassets', hmem, hurl⟩
    rw [hassets, Except.ok.injEq] at hassets'
    subst hassets'
    apply hnone (label, value) hmem
    rw [decide_eq_true_eq]
    exact hurl
  · intro hnone asset hmem hurl
    rw [decide_eq_true_eq] at hurl
    exact hnone ⟨asset.1, assets, asset.2, hassets, hmem, hurl⟩

/-! ## Leads by address -/

/-- The address of a lead. -/
def leadEmail (leads : LeadTable) (leadId : Nat) : Option String :=
  (leads.get? leadId).map fun row => row.2.email

/-- The same leads under the same addresses. -/
def SameLeads (leads leads' : LeadTable) : Prop :=
  ∀ leadId, leadEmail leads' leadId = leadEmail leads leadId

theorem SameLeads.refl (leads : LeadTable) : SameLeads leads leads := fun _ => rfl

theorem SameLeads.symm {leads leads' : LeadTable} (h : SameLeads leads leads') :
    SameLeads leads' leads := fun leadId => (h leadId).symm

theorem SameLeads.trans {t₁ t₂ t₃ : LeadTable} (h : SameLeads t₁ t₂) (h' : SameLeads t₂ t₃) :
    SameLeads t₁ t₃ := fun leadId => (h' leadId).trans (h leadId)

theorem leadEmail_eq_some {leads : LeadTable} {leadId : Nat} {email : String} :
    leadEmail leads leadId = some email ↔
      ∃ lead, leads.get? leadId = some (leadId, lead) ∧ lead.email = email := by
  unfold leadEmail
  rw [Option.map_eq_some_iff]
  constructor
  · rintro ⟨row, hrow, hemail⟩
    obtain ⟨-, hid⟩ := Table.mem_of_get? hrow
    refine ⟨row.2, ?_, hemail⟩
    rw [hrow, ← hid]
  · rintro ⟨lead, hlead, hemail⟩
    exact ⟨(leadId, lead), hlead, hemail⟩

/-! ## Rows -/

theorem leadOf_eq_some {leads : LeadTable} {evt : SendgridEvent} {lead : LeadRow} :
    leadOf lib leads evt = .ok (some lead) ↔
      leadIdOf lib (evt.posted "lead_id") = .ok (some lead.1) ∧ lead.1 < bigintBound ∧
        leads.get? lead.1 = some lead := by
  unfold leadOf
  cases leadIdOf lib (evt.posted "lead_id") with
  | error e => simp
  | ok found =>
      cases found with
      | none => simp
      | some leadId =>
          simp only [getLead, Except.ok.injEq, Option.some.injEq]
          by_cases hbound : leadId < bigintBound
          · rw [if_pos hbound, Except.ok.injEq]
            constructor
            · intro h
              obtain ⟨-, hid⟩ := Table.mem_of_get? h
              subst hid
              exact ⟨rfl, hbound, h⟩
            · rintro ⟨rfl, -, h⟩
              exact h
          · rw [if_neg hbound]
            simp only [reduceCtorEq, false_iff, not_and]
            rintro rfl h
            exact absurd h hbound

theorem eventFor_eq_some {received : Int} {evt : SendgridEvent} {key : EventKey} {lead : LeadRow}
    {event : EmailEvent} :
    eventFor lib campaigns received lead evt key = .ok (some event) ↔
      (∃ recipient, recipientOf lib (evt.get "email") = .ok recipient ∧
        isOwnEngagement lib lead.2 recipient = true) ∧
      newEvent lib campaigns received lead.1 evt key = .ok event := by
  unfold eventFor
  cases recipientOf lib (evt.get "email") with
  | error e => simp
  | ok recipient =>
      simp only [Except.ok.injEq, exists_eq_left']
      by_cases hown : isOwnEngagement lib lead.2 recipient = true
      · rw [if_pos hown]
        cases newEvent lib campaigns received lead.1 evt key with
        | error e => simp [Except.map]
        | ok made => simp [Except.map, hown]
      · simp [hown]

/-- What a row is read from. -/
theorem readEvent_eq_some {received : Int} {leads : LeadTable} {evt : SendgridEvent}
    {key : EventKey} {lead : LeadRow} {event : EmailEvent} :
    readEvent lib campaigns received leads evt key = .ok (some (lead, event)) ↔
      leadOf lib leads evt = .ok (some lead) ∧
      eventFor lib campaigns received lead evt key = .ok (some event) := by
  unfold readEvent
  cases leadOf lib leads evt with
  | error e => simp
  | ok found =>
      cases found with
      | none => simp
      | some row =>
          simp only [Except.ok.injEq, Option.some.injEq]
          constructor
          · intro h
            cases hevent : eventFor lib campaigns received row evt key with
            | error e =>
                rw [hevent] at h
                cases h
            | ok made =>
                rw [hevent] at h
                simp only [Except.map, Except.ok.injEq, Option.map_eq_some_iff, Prod.mk.injEq] at h
                obtain ⟨_, rfl, rfl, rfl⟩ := h
                exact ⟨rfl, hevent⟩
          · rintro ⟨rfl, hevent⟩
            rw [hevent]
            rfl

/-- The row is the time, the texts and the material the event carries. -/
theorem newEvent_eq_ok {received : Int} {leadId : Nat} {evt : SendgridEvent} {key : EventKey}
    {event : EmailEvent} :
    newEvent lib campaigns received leadId evt key = .ok event ↔
      ∃ material occurredAt emailKind url sgMessageId,
        resolveMaterial campaigns (urlOf evt key.eventType) = .ok material ∧
        occurredAtOf lib received (evt.get "timestamp") = .ok occurredAt ∧
        textOf (evt.get "email_kind") = .ok emailKind ∧
        textOf (urlOf evt key.eventType) = .ok url ∧
        textOf (evt.get "sg_message_id") = .ok sgMessageId ∧
        event =
          { leadId := leadId
            emailKind := emailKind
            eventType := key.eventType
            material := material
            url := url
            sgEventId := key.sgEventId
            sgMessageId := sgMessageId
            occurredAt := utc occurredAt } := by
  unfold newEvent
  simp only [bind_eq_ok, Except.ok.injEq]
  constructor
  · rintro ⟨material, hmaterial, occurredAt, htime, emailKind, hkind, url, hurl, sgMessageId,
      hmessage, hrow⟩
    exact ⟨material, occurredAt, emailKind, url, sgMessageId, hmaterial, htime, hkind, hurl,
      hmessage, hrow.symm⟩
  · rintro ⟨material, occurredAt, emailKind, url, sgMessageId, hmaterial, htime, hkind, hurl,
      hmessage, hrow⟩
    exact ⟨material, hmaterial, occurredAt, htime, emailKind, hkind, url, hurl, sgMessageId,
      hmessage, hrow.symm⟩

/-- The key of a row. -/
def EmailEvent.key (event : EmailEvent) : EventKey := ⟨event.eventType, event.sgEventId⟩

/-- Read against these leads, the event is recorded as this row. -/
def Becomes (lib : Lib) (campaigns : List CampaignRow) (leads : LeadTable) (evt : PostedEvent)
    (event : EmailEvent) : Prop :=
  ∃ members received lead, evt = .obj members ∧ eventKey members = .ok (some event.key) ∧
    readEvent lib campaigns received leads members event.key = .ok (some (lead, event))

/-- A row that was read has the key and the lead it was read with. -/
theorem readEvent_row {received : Int} {leads : LeadTable} {evt : SendgridEvent} {key : EventKey}
    {lead : LeadRow} {event : EmailEvent}
    (h : readEvent lib campaigns received leads evt key = .ok (some (lead, event))) :
    event.key = key ∧ event.leadId = lead.1 ∧ (∃ m, event.occurredAt = utc m) ∧
      leads.get? lead.1 = some lead := by
  obtain ⟨hlead, hevent⟩ := readEvent_eq_some.1 h
  obtain ⟨_, m, _, _, _, -, -, -, -, -, rfl⟩ := newEvent_eq_ok.1 (eventFor_eq_some.1 hevent).2
  exact ⟨rfl, rfl, ⟨m, rfl⟩, (leadOf_eq_some.1 hlead).2.2⟩

/-- Whether an event becomes a row does not depend on when it is received. -/
theorem readEvent_any_time {received : Int} {leads : LeadTable} {evt : SendgridEvent}
    {key : EventKey} {lead : LeadRow} {event : EmailEvent} (received' : Int)
    (h : readEvent lib campaigns received leads evt key = .ok (some (lead, event))) :
    ∃ event', readEvent lib campaigns received' leads evt key = .ok (some (lead, event')) := by
  obtain ⟨hlead, hevent⟩ := readEvent_eq_some.1 h
  obtain ⟨hown, hnew⟩ := eventFor_eq_some.1 hevent
  obtain ⟨a, m, k, u, g, ha, hm, hk, hu, hg, -⟩ := newEvent_eq_ok.1 hnew
  have htime : ∃ m', occurredAtOf lib received' (evt.get "timestamp") = .ok m' := by
    unfold occurredAtOf at hm ⊢
    split
    · rename_i hstamped
      rw [if_pos hstamped] at hm
      exact ⟨m, hm⟩
    · exact ⟨received', rfl⟩
  obtain ⟨m', hm'⟩ := htime
  exact ⟨_, readEvent_eq_some.2 ⟨hlead, eventFor_eq_some.2 ⟨hown,
    newEvent_eq_ok.2 ⟨a, m', k, u, g, ha, hm', hk, hu, hg, rfl⟩⟩⟩⟩

/-- The row is read in the same way from the same leads. -/
theorem SameLeads.readEvent {received : Int} {leads leads' : LeadTable}
    (hsame : SameLeads leads leads') {evt : SendgridEvent} {key : EventKey} {lead : LeadRow}
    {event : EmailEvent}
    (h : readEvent lib campaigns received leads evt key = .ok (some (lead, event))) :
    ∃ lead', readEvent lib campaigns received leads' evt key = .ok (some (lead', event)) := by
  obtain ⟨hlead, hevent⟩ := readEvent_eq_some.1 h
  obtain ⟨⟨recipient, hrecipient, hown⟩, hnew⟩ := eventFor_eq_some.1 hevent
  obtain ⟨hid, hbound, hget⟩ := leadOf_eq_some.1 hlead
  have hemail : leadEmail leads' lead.1 = some lead.2.email := by
    rw [hsame lead.1, leadEmail, hget]
    rfl
  obtain ⟨lead', hget', heq⟩ := leadEmail_eq_some.1 hemail
  refine ⟨(lead.1, lead'), readEvent_eq_some.2
    ⟨?_, eventFor_eq_some.2 ⟨⟨recipient, hrecipient, ?_⟩, hnew⟩⟩⟩
  · exact leadOf_eq_some.2 ⟨hid, hbound, hget'⟩
  · -- only the address of the lead is compared
    simpa [isOwnEngagement, heq] using hown

theorem SameLeads.becomes {leads leads' : LeadTable} (hsame : SameLeads leads leads')
    {evt : PostedEvent} {event : EmailEvent} (h : Becomes lib campaigns leads evt event) :
    Becomes lib campaigns leads' evt event := by
  obtain ⟨members, received, lead, hevt, hkey, hread⟩ := h
  obtain ⟨lead', hread'⟩ := hsame.readEvent hread
  exact ⟨members, received, lead', hevt, hkey, hread'⟩

namespace Becomes

variable {leads : LeadTable} {evt : PostedEvent} {event event' : EmailEvent}

/-- An event becomes one row, its time apart. -/
theorem unique (h : Becomes lib campaigns leads evt event)
    (h' : Becomes lib campaigns leads evt event') :
    event' = { event with occurredAt := event'.occurredAt } := by
  obtain ⟨members, received, lead, rfl, hkey, hread⟩ := h
  obtain ⟨members', received', lead', hevt, hkey', hread'⟩ := h'
  rw [PostedEvent.obj.injEq] at hevt
  subst hevt
  rw [hkey, Except.ok.injEq, Option.some.injEq] at hkey'
  rw [← hkey'] at hread'
  obtain ⟨hlead, hevent⟩ := readEvent_eq_some.1 hread
  obtain ⟨hlead', hevent'⟩ := readEvent_eq_some.1 hread'
  rw [hlead, Except.ok.injEq, Option.some.injEq] at hlead'
  subst hlead'
  obtain ⟨a, m, k, u, g, ha, -, hk, hu, hg, hrow⟩ :=
    newEvent_eq_ok.1 (eventFor_eq_some.1 hevent).2
  obtain ⟨a', m', k', u', g', ha', -, hk', hu', hg', hrow'⟩ :=
    newEvent_eq_ok.1 (eventFor_eq_some.1 hevent').2
  rw [ha, Except.ok.injEq] at ha'
  rw [hk, Except.ok.injEq] at hk'
  rw [hu, Except.ok.injEq] at hu'
  rw [hg, Except.ok.injEq] at hg'
  subst ha' hk' hu' hg'
  rw [hrow, hrow']

/-- With a time stamp, the time as well: the clock is not read. -/
theorem unique_of_stamped (h : Becomes lib campaigns leads evt event)
    (h' : Becomes lib campaigns leads evt event')
    (hstamped : ∀ members, evt = .obj members →
      (SendgridEvent.get members "timestamp").truthy = true) :
    event' = event := by
  have hunique := h.unique h'
  obtain ⟨members, received, lead, hevt, -, hread⟩ := h
  obtain ⟨members', received', lead', hevt', -, hread'⟩ := h'
  rw [hevt, PostedEvent.obj.injEq] at hevt'
  subst hevt'
  obtain ⟨_, m, _, _, _, -, hm, -, -, -, hrow⟩ :=
    newEvent_eq_ok.1 (eventFor_eq_some.1 (readEvent_eq_some.1 hread).2).2
  obtain ⟨_, m', _, _, _, -, hm', -, -, -, hrow'⟩ :=
    newEvent_eq_ok.1 (eventFor_eq_some.1 (readEvent_eq_some.1 hread').2).2
  unfold occurredAtOf at hm hm'
  rw [if_pos (hstamped members hevt)] at hm hm'
  rw [hm, Except.ok.injEq] at hm'
  have htime : event'.occurredAt = event.occurredAt := by
    rw [hrow, hrow', hm']
  rw [hunique, htime]

end Becomes

/-! ## One event -/

theorem attributeEvent_eq_some {received : Int} {w : EmailWorld} {evt : PostedEvent}
    {lead : LeadRow} {event : EmailEvent} :
    attributeEvent lib campaigns received w evt = .ok (some (lead, event)) ↔
      ∃ members, evt = .obj members ∧ eventKey members = .ok (some event.key) ∧
        ¬ Recorded w.events event.sgEventId ∧
        readEvent lib campaigns received w.leads members event.key = .ok (some (lead, event)) := by
  cases evt with
  | obj members =>
      simp only [attributeEvent, PostedEvent.obj.injEq, exists_eq_left']
      cases eventKey members with
      | error e => simp
      | ok found =>
          cases found with
          | none => simp
          | some key =>
              simp only [Except.ok.injEq, Option.some.injEq, getBySgEventId_isSome]
              -- an event that is recorded is skipped unread
              by_cases hrecorded : Recorded w.events key.sgEventId
              · rw [if_pos hrecorded]
                simp only [Except.ok.injEq, reduceCtorEq, false_iff, not_and]
                rintro rfl h
                exact absurd hrecorded h
              · rw [if_neg hrecorded]
                constructor
                · intro hread
                  obtain ⟨rfl, -, -, -⟩ := readEvent_row hread
                  exact ⟨rfl, hrecorded, hread⟩
                · rintro ⟨rfl, -, hread⟩
                  exact hread
  | _ => simp [attributeEvent]

/-- The lead after a row about it was stored. -/
def rolledUp (lib : Lib) (clock : EventClock) (lead : Lead) (event : EmailEvent) : Lead :=
  ((rollup lead event).map (scored lib clock)).getD lead

/-- What a rollup keeps of the lead. -/
theorem rollup_identity {lead changed : Lead} {event : EmailEvent}
    (h : rollup lead event = some changed) :
    changed.campaignId = lead.campaignId ∧ changed.email = lead.email := by
  unfold rollup at h
  split at h
  · rw [← Option.some.inj h]
    exact ⟨rfl, rfl⟩
  · split at h
    · cases h
    · split at h
      · cases h
      · split at h
        · cases h
        · rw [← Option.some.inj h]
          exact ⟨rfl, rfl⟩
  · cases h

@[simp]
theorem rolledUp_email (clock : EventClock) (lead : Lead) (event : EmailEvent) :
    (rolledUp lib clock lead event).email = lead.email := by
  unfold rolledUp
  cases h : rollup lead event with
  | none => rfl
  | some changed => exact (rollup_identity h).2

/-- The tables after a row was stored: the row is appended, and the lead it is about rolled up. -/
structure Stored (lib : Lib) (clock : EventClock) (lead : LeadRow) (event : EmailEvent)
    (w w' : EmailWorld) : Prop where
  events : w'.events.rows = w.events.rows ++ [(w.events.nextId, event)]
  leads : ∀ id, w'.leads.get? id =
    (w.leads.get? id).map fun q =>
      if q.1 = lead.1 then (lead.1, rolledUp lib clock lead.2 event) else q

/-- The rollup of a lead whose row is `current` by now: the changed columns are written over it. -/
theorem bumpLeadRollup_spec (lib : Lib) (clock : EventClock) (event : EmailEvent)
    {leads : LeadTable} {lead : LeadRow} {current : Lead}
    (hget : leads.get? lead.1 = some (lead.1, current)) :
    ∃ leads', bumpLeadRollup lib clock leads lead event = .ok leads' ∧
      ∀ id, leads'.get? id = (leads.get? id).map fun q =>
        if q.1 = lead.1 then (lead.1, lead.2.write (rolledUp lib clock lead.2 event) current)
        else q := by
  have hmem : (lead.1, current) ∈ leads.rows := (Table.mem_of_get? hget).1
  unfold bumpLeadRollup rolledUp
  cases hroll : rollup lead.2 event with
  | none =>
      -- nothing is written, which is the same as writing the row that is there
      simp only [Option.map_none, Option.getD_none, Lead.write_loaded_loaded]
      exact ⟨leads, rfl, Table.get?_update (Table.update_self hmem)⟩
  | some changed =>
      obtain ⟨hcampaign, hemail⟩ := rollup_identity hroll
      have hok : ∃ leads', update leads lead (scored lib clock changed) = .ok
          ((lead.1, lead.2.write (scored lib clock changed) current), leads') ∧
          leads.update lead.1 (lead.2.write (scored lib clock changed) current) = some leads' :=
        update_eq hmem hcampaign hemail
      obtain ⟨leads', hupdate, htable⟩ := hok
      refine ⟨leads', ?_, ?_⟩
      · simp [hupdate, Except.map]
      · intro id
        rw [Table.get?_update htable]
        rfl

theorem rolledUp_of_not_feeds {clock : EventClock} {lead : Lead} {event : EmailEvent}
    (h : feedsRollup event.eventType ≠ true) : rolledUp lib clock lead event = lead := by
  unfold rolledUp rollup
  split
  · rename_i htype
    rw [htype] at h
    exact absurd rfl h
  · rename_i htype
    rw [htype] at h
    exact absurd rfl h
  · rfl

/-- A row that is not in the table is stored. -/
theorem storeEvent_spec {clock : EventClock} {w : EmailWorld} {lead : LeadRow} {event : EmailEvent}
    (hnew : ¬ Recorded w.events event.sgEventId) (hget : w.leads.get? lead.1 = some lead) :
    ∃ w', storeEvent lib clock lead event w = (w', .ok true) ∧
      Stored lib clock lead event w w' := by
  obtain ⟨events', hcreate, hrows⟩ := createEvent_ok hnew
  unfold storeEvent
  rw [hcreate]
  by_cases hfeeds : feedsRollup event.eventType = true
  · obtain ⟨leads', hbump, hleads⟩ := bumpLeadRollup_spec lib clock event hget
    rw [Lead.write_current_loaded] at hleads
    refine ⟨⟨leads', events'⟩, ?_, hrows, hleads⟩
    simp [hfeeds, hbump]
  · have hmem : (lead.1, lead.2) ∈ w.leads.rows := (Table.mem_of_get? hget).1
    refine ⟨⟨w.leads, events'⟩, ?_, hrows, ?_⟩
    · simp [hfeeds]
    · intro id
      rw [rolledUp_of_not_feeds hfeeds]
      exact Table.get?_update (Table.update_self hmem) id

/-- **What one event does.** It cannot be read, or it is skipped, and the tables stay as they are;
or it is attributed to a lead, and its row is stored. -/
theorem ingestOne_cases (lib : Lib) (campaigns : List CampaignRow) (evt : PostedEvent)
    (clock : EventClock) (w : EmailWorld) :
    (∃ e, attributeEvent lib campaigns clock.received w evt = .error e ∧
      ingestOne lib campaigns evt clock w = (w, .error e)) ∨
    (attributeEvent lib campaigns clock.received w evt = .ok none ∧
      ingestOne lib campaigns evt clock w = (w, .ok false)) ∨
    ∃ lead event w', attributeEvent lib campaigns clock.received w evt = .ok (some (lead, event)) ∧
      ingestOne lib campaigns evt clock w = (w', .ok true) ∧ Stored lib clock lead event w w' := by
  unfold ingestOne
  cases hattribute : attributeEvent lib campaigns clock.received w evt with
  | error e => exact Or.inl ⟨e, rfl, rfl⟩
  | ok found =>
      right
      cases found with
      | none => exact Or.inl ⟨rfl, rfl⟩
      | some r =>
          obtain ⟨lead, event⟩ := r
          obtain ⟨_, -, -, hnew, hread⟩ := attributeEvent_eq_some.1 hattribute
          obtain ⟨-, -, -, hget⟩ := readEvent_row hread
          obtain ⟨w', hstore, hstored⟩ := storeEvent_spec hnew hget
          exact Or.inr ⟨lead, event, w', rfl, hstore, hstored⟩

namespace Stored

variable {clock : EventClock} {lead : LeadRow} {event : EmailEvent} {w w' : EmailWorld}

theorem sameLeads (h : Stored lib clock lead event w w') (hget : w.leads.get? lead.1 = some lead) :
    SameLeads w.leads w'.leads := by
  intro id
  unfold leadEmail
  rw [h.leads id, Option.map_map]
  cases hid : w.leads.get? id with
  | none => rfl
  | some q =>
      simp only [Option.map_some, Function.comp_apply, Option.some.injEq]
      by_cases hq : q.1 = lead.1
      · obtain ⟨-, hqid⟩ := Table.mem_of_get? hid
        rw [← hqid, hq, hget, Option.some.injEq] at hid
        rw [if_pos hq, rolledUp_email, hid]
      · rw [if_neg hq]

theorem recorded (h : Stored lib clock lead event w w') {sgEventId : String} :
    Recorded w'.events sgEventId ↔ Recorded w.events sgEventId ∨ event.sgEventId = sgEventId := by
  unfold Recorded
  rw [h.events]
  simp [or_and_right, exists_or]

end Stored

end SalesTrades.Emails
