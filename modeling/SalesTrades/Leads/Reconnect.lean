import SalesTrades.Leads.CaptureRace
import SalesTrades.Library.Run

/-!
# The reconnect broadcast

The script `send_nog_reconnect.py` mails the leads of a campaign and marks each in its `responses`, the
column that a submission replaces as a whole. The script skips a lead whose marker is true, the statistics
count those that have one. So no lead is mailed twice, and all that were mailed are counted, exactly in
the runs in which every submission into the row of a mailed lead brings a marker, and every broadcast
that gets to a mailed lead finds its marker true (`reconnect_once_iff`).
-/

set_option autoImplicit false

namespace SalesTrades.Leads

open SalesTrades.Library SalesTrades.Library.Run

/-! ## The script -/

/-- `CAMPAIGN_SLUG`. -/
def reconnectSlug : String := "nog-2026"

/-- `SENT_KEY`. -/
def sentKey : String := "reconnect_sent_at"

/-- `_valid_email`: a match of `^[^@\s]+@[^@\s]+\.[^@\s]+$`, which has one at sign, and a dot within the
part behind it. -/
def validEmail (email : String) : Bool :=
  let address := (strip email).toList
  let domain := (address.dropWhile fun c => c != '@').drop 1
  !address.any isWhitespace && !(address.takeWhile fun c => c != '@').isEmpty &&
    !domain.contains '@' && (domain.drop 1).dropLast.contains '.'

/-- What a broadcast is given: the flags, how the transport answers for each lead, and the clock, as
`isoformat` prints it. -/
structure Broadcast where
  resend : Bool
  limit : Option Int
  accepted : Nat → Bool
  stamp : Nat → { s : String // s ≠ "" }

/-- `xs[:limit]`. -/
def sliceTo (limit : Option Int) (leads : List LeadRow) : List LeadRow :=
  match limit with
  | none => leads
  | some n => if 0 ≤ n then leads.take n.toNat else leads.take (leads.length - (-n).toNat)

/-- The loop that fills `eligible`. -/
def eligibleLeads (resend : Bool) : List LeadRow → Except PyError (List LeadRow)
  | [] => .ok []
  | lead :: rest =>
      if !validEmail lead.2.email then eligibleLeads resend rest
      else if resend then (eligibleLeads resend rest).map (lead :: ·)
      else do
        let marker ← (lead.2.responses.orElse (.obj [])).get sentKey
        let eligible ← eligibleLeads resend rest
        return if marker.truthy then eligible else lead :: eligible

/-- `{**members, key: value}`. -/
def setMember (members : List (String × Json)) (key : String) (value : Json) : List (String × Json) :=
  if Json.hasKey members key then members.map fun m => if m.1 == key then (key, value) else m
  else members ++ [(key, value)]

/-- `{**(lead.responses or {}), SENT_KEY: ...}`. -/
def stampedResponses (responses : Json) (stamp : String) : Except PyError Json :=
  match responses.orElse (.obj []) with
  | .obj members => .ok (.obj (setMember members sentKey (.str stamp)))
  | _ => .error .typeError

/-- The `leads` table, and the leads that have been mailed successfully, the last one first. -/
structure ReconnectWorld where
  leads : LeadTable
  mailed : List Nat

/-- The loop that sends. -/
def sendLoop (b : Broadcast) : List LeadRow → ReconnectWorld → ReconnectWorld × Except PyError Unit
  | [], w => (w, .ok ())
  | lead :: rest, w =>
      if b.accepted lead.1 then
        -- the mail is out, whether the marker is stored or not
        match stampedResponses lead.2.responses (b.stamp lead.1) with
        | .error e => ({ w with mailed := lead.1 :: w.mailed }, .error e)
        | .ok responses =>
            match update w.leads lead { lead.2 with responses := responses } with
            | .error e => ({ w with mailed := lead.1 :: w.mailed }, .error e)
            | .ok (_, leads) => sendLoop b rest ⟨leads, lead.1 :: w.mailed⟩
      else sendLoop b rest w

/-- `run` with `--image` and `--commit`. -/
def broadcast (campaigns : List Campaign) (b : Broadcast) (w : ReconnectWorld) :
    ReconnectWorld × Except PyError Unit :=
  match getBySlug campaigns reconnectSlug with
  | none => (w, .ok ())
  | some campaign =>
      match eligibleLeads b.resend (listForCampaign w.leads campaign.id 100000) with
      | .error e => (w, .error e)
      | .ok eligible => sendLoop b (sliceTo b.limit eligible) w

/-! ## The statistics -/

/-- The JSONB operator `?`, with which `has_key` is compiled. -/
def jsonbHasKey (value : Json) (key : String) : Bool :=
  match value with
  | .obj members => Json.hasKey members key
  | .arr xs => xs.contains (.str key)
  | .str s => s == key
  | _ => false

/-- `count_reconnect_sent`. -/
def countReconnectSent (t : LeadTable) (campaignId : Nat) : Nat :=
  (t.select fun l => l.campaignId == campaignId && jsonbHasKey l.responses sentKey).length

/-! ## Runs -/

/-- A broadcast without `--resend`, or a submission. -/
inductive ReconnectEvent where
  | broadcast (b : Broadcast) (noResend : b.resend = false)
  | capture (slug : String) (payload : LeadCreateRequest) (now : Datetime)

def reconnectStep (py : LowerCase) (campaigns : List Campaign) (e : ReconnectEvent)
    (w : ReconnectWorld) : Option ReconnectWorld :=
  match e with
  | .broadcast b _ => some (broadcast campaigns b w).1
  | .capture slug payload now =>
      some { w with leads := (captureLeadCreated py campaigns slug payload now false w.leads).1 }

/-- The statistics of the campaign count the lead: without its row they would count fewer. -/
def Counted (campaigns : List Campaign) (w : ReconnectWorld) (id : Nat) : Prop :=
  ∃ campaign, getBySlug campaigns reconnectSlug = some campaign ∧
    countReconnectSent (w.leads.without id) campaign.id < countReconnectSent w.leads campaign.id

/-- Every lead has been mailed at most once, and those that have are counted. -/
structure MailedOnce (campaigns : List Campaign) (w : ReconnectWorld) : Prop where
  nodup : w.mailed.Nodup
  counted : ∀ id ∈ w.mailed, Counted campaigns w id

/-- `responses or {}` has members. -/
def Readable (responses : Json) : Prop := ∃ members, responses.orElse (.obj []) = .obj members

/-- The marker as the script reads it is true. -/
def trueMarker (responses : Json) : Bool :=
  match (responses.orElse (.obj [])).get sentKey with
  | .ok marker => marker.truthy
  | .error _ => false

/-- A lead without a true marker whose address passes. -/
def awaitsMail (lead : LeadRow) : Bool := validEmail lead.2.email && !trueMarker lead.2.responses

/-- A broadcast gets to the lead unless its marker is true: it is listed with an address that passes, the
`responses` of all such leads can be read, and the limit lets more leads through than await the mail
before it. -/
def InReach (campaigns : List Campaign) (b : Broadcast) (t : LeadTable) (lead : LeadRow) : Prop :=
  ∃ campaign before after, getBySlug campaigns reconnectSlug = some campaign ∧
    listForCampaign t campaign.id 100000 = before ++ lead :: after ∧
    validEmail lead.2.email = true ∧
    (∀ q ∈ before ++ lead :: after, validEmail q.2.email = true → Readable q.2.responses) ∧
    (before.filter awaitsMail).length <
      (sliceTo b.limit ((before ++ lead :: after).filter awaitsMail)).length

/-- A submission into the row of a mailed lead brings a marker with it, and the marker of a mailed lead
that a broadcast gets to is true, unless the transport rejects the mail. -/
def KeepsMarkers (py : LowerCase) (campaigns : List Campaign) (e : ReconnectEvent)
    (w : ReconnectWorld) : Prop :=
  match e with
  | .broadcast b _ => ∀ lead ∈ w.leads.rows, lead.1 ∈ w.mailed → InReach campaigns b w.leads lead →
      b.accepted lead.1 = true → trueMarker lead.2.responses = true
  | .capture slug payload _ => ∀ row, mergeTarget py campaigns slug payload w.leads = some row →
      row.1 ∈ w.mailed → Json.hasKey payload.responses sentKey = true

/-! ## The members of `responses` -/

theorem hasKey_setMember (members : List (String × Json)) (key : String) (value : Json) :
    Json.hasKey (setMember members key value) key = true := by
  unfold setMember
  split
  · rename_i hkey
    obtain ⟨m, hm, heq⟩ := List.any_eq_true.1 hkey
    refine List.any_eq_true.2 ⟨(key, value), List.mem_map.2 ⟨m, hm, if_pos heq⟩, ?_⟩
    exact beq_self_eq_true key
  · exact List.any_eq_true.2 ⟨(key, value), by simp, beq_self_eq_true key⟩

/-- Replacing a member leaves the others where they are. -/
theorem find?_replaced_of_ne {key k : String} (hk : key ≠ k) (value : Json)
    (members : List (String × Json)) :
    ((members.map fun m => if m.1 == key then (key, value) else m).find? fun m => m.1 == k) =
      members.find? fun m => m.1 == k := by
  induction members with
  | nil => rfl
  | cons m rest ih =>
      rw [List.map_cons]
      by_cases hm : m.1 = key
      · have hmk : m.1 ≠ k := fun heq => hk (hm.symm.trans heq)
        rw [if_pos (by simpa using hm), List.find?_cons_of_neg (by simpa using hk),
          List.find?_cons_of_neg (by simpa using hmk), ih]
      · rw [if_neg (by simpa using hm), List.find?_cons, List.find?_cons, ih]

theorem find?_replaced {key : String} (value : Json) {members : List (String × Json)}
    (hkey : Json.hasKey members key = true) :
    ((members.map fun m => if m.1 == key then (key, value) else m).find? fun m => m.1 == key) =
      some (key, value) := by
  induction members with
  | nil => cases hkey
  | cons m rest ih =>
      rw [List.map_cons]
      by_cases hm : m.1 = key
      · rw [if_pos (by simpa using hm), List.find?_cons_of_pos (by simp)]
      · have hrest : Json.hasKey rest key = true := by simpa [Json.hasKey, hm] using hkey
        rw [if_neg (by simpa using hm), List.find?_cons_of_neg (by simpa using hm), ih hrest]

theorem find?_setMember (members : List (String × Json)) (key : String) (value : Json) (k : String) :
    ((setMember members key value).find? fun m => m.1 == k).map Prod.snd =
      if key = k then some value else (members.find? fun m => m.1 == k).map Prod.snd := by
  unfold setMember
  split
  · rename_i hkey
    by_cases hk : key = k
    · rw [if_pos hk, ← hk, find?_replaced value hkey]
      rfl
    · rw [if_neg hk, find?_replaced_of_ne hk]
  · rename_i hkey
    have hnone : (members.find? fun m => m.1 == key) = none := by
      rw [List.find?_eq_none]
      intro m hm heq
      exact hkey (List.any_eq_true.2 ⟨m, hm, heq⟩)
    by_cases hk : key = k
    · rw [if_pos hk, List.find?_append, ← hk, hnone]
      simp
    · rw [if_neg hk, List.find?_append]
      simp [hk]

theorem member_setMember (members : List (String × Json)) (key : String) (value : Json) (k : String) :
    Json.member (setMember members key value) k = if key = k then value else Json.member members k := by
  rw [Json.member, find?_setMember]
  split
  · rfl
  · rfl

theorem orElse_setMember (members : List (String × Json)) (key : String) (value : Json) :
    (Json.obj (setMember members key value)).orElse (.obj []) = .obj (setMember members key value) := by
  have hne : setMember members key value ≠ [] := by
    intro hnil
    have hkey := hasKey_setMember members key value
    rw [hnil] at hkey
    cases hkey
  simp [Json.orElse, Json.truthy, hne]

/-! ## The broadcast -/

section Send

variable {b : Broadcast} {leads eligible : List LeadRow} {w w' : ReconnectWorld}

/-- A test that the `responses` of a lead pass after it has been mailed. -/
def PassedByStamp (mark : Json → Bool) : Prop :=
  ∀ (members : List (String × Json)) (stamp : { s : String // s ≠ "" }),
    mark (.obj (setMember members sentKey (.str stamp.1))) = true

theorem hasKey_passedByStamp : PassedByStamp fun responses => jsonbHasKey responses sentKey :=
  fun members _ => hasKey_setMember members sentKey _

theorem trueMarker_passedByStamp : PassedByStamp trueMarker := by
  intro members stamp
  simp only [trueMarker, orElse_setMember, Json.get, member_setMember, if_true]
  simpa [Json.truthy] using stamp.2

theorem stampedResponses_readable {responses : Json} (h : Readable responses) (stamp : String) :
    ∃ members, stampedResponses responses stamp =
      .ok (.obj (setMember members sentKey (.str stamp))) := by
  obtain ⟨members, hmembers⟩ := h
  exact ⟨members, by rw [stampedResponses, hmembers]⟩

/-- The loop raises at `responses` that it cannot read, and else leaves out the leads with a true
marker. -/
theorem eligibleLeads_eq_ok_iff : eligibleLeads false leads = .ok eligible ↔
    (∀ lead ∈ leads, validEmail lead.2.email = true → Readable lead.2.responses) ∧
      eligible = leads.filter awaitsMail := by
  induction leads generalizing eligible with
  | nil =>
      rw [eligibleLeads, Except.ok.injEq, List.filter_nil, eq_comm]
      exact ⟨fun h => ⟨fun _ hlead => absurd hlead List.not_mem_nil, h⟩, fun h => h.2⟩
  | cons lead rest ih =>
      rw [eligibleLeads, List.forall_mem_cons]
      -- the responses of a lead without a valid address are not read
      cases hvalid : validEmail lead.2.email with
      | false =>
          have hskip : ¬ awaitsMail lead = true := by simp [awaitsMail, hvalid]
          rw [List.filter_cons_of_neg hskip]
          simpa using ih
      | true =>
          simp only [Bool.not_true, Bool.false_eq_true, if_false, forall_const]
          constructor
          · intro h
            obtain ⟨marker, hmarker, h⟩ := bind_eq_ok.1 h
            obtain ⟨others, hothers, h⟩ := bind_eq_ok.1 h
            obtain ⟨members, hmembers, -⟩ := get_eq_ok_iff.1 hmarker
            obtain ⟨hread, rfl⟩ := ih.1 hothers
            have htrue : trueMarker lead.2.responses = marker.truthy := by rw [trueMarker, hmarker]
            refine ⟨⟨⟨members, hmembers⟩, hread⟩, ?_⟩
            rw [← Except.ok.inj h, List.filter_cons, awaitsMail, hvalid, htrue]
            cases marker.truthy <;> rfl
          · rintro ⟨⟨⟨members, hmembers⟩, hread⟩, rfl⟩
            have hmarker : (lead.2.responses.orElse (.obj [])).get sentKey =
                .ok (Json.member members sentKey) := get_eq_ok_iff.2 ⟨members, hmembers, rfl⟩
            have htrue : trueMarker lead.2.responses = (Json.member members sentKey).truthy := by
              rw [trueMarker, hmarker]
            refine bind_eq_ok.2 ⟨_, hmarker, bind_eq_ok.2 ⟨_, ih.2 ⟨hread, rfl⟩, ?_⟩⟩
            rw [List.filter_cons, awaitsMail, hvalid, htrue]
            cases (Json.member members sentKey).truthy <;> rfl

theorem sliceTo_eq_take (limit : Option Int) (leads : List LeadRow) :
    ∃ k, sliceTo limit leads = leads.take k := by
  unfold sliceTo
  cases limit with
  | none => exact ⟨leads.length, leads.take_length.symm⟩
  | some n =>
      dsimp only
      split
      · exact ⟨_, rfl⟩
      · exact ⟨_, rfl⟩

theorem sliceTo_sublist (limit : Option Int) (leads : List LeadRow) :
    (sliceTo limit leads).Sublist leads := by
  obtain ⟨k, hk⟩ := sliceTo_eq_take limit leads
  rw [hk]
  exact List.take_sublist k leads

/-- A slice has a lead exactly when it has more leads than there are before it. -/
theorem mem_sliceTo_iff {limit : Option Int} {before after : List LeadRow} {lead : LeadRow}
    (hfirst : lead ∉ before) : lead ∈ sliceTo limit (before ++ lead :: after) ↔
      before.length < (sliceTo limit (before ++ lead :: after)).length := by
  obtain ⟨k, hk⟩ := sliceTo_eq_take limit (before ++ lead :: after)
  rw [hk]
  rcases Nat.lt_or_ge before.length k with hlt | hle
  · have htake : (before ++ lead :: after).take k =
        before ++ lead :: after.take (k - before.length - 1) := by
      rw [List.take_append, List.take_of_length_le hlt.le, List.take_cons (by omega)]
    rw [htake]
    exact iff_of_true (by simp) (by simp)
  · rw [List.take_append_of_le_length hle]
    refine iff_of_false (fun hmem => hfirst (List.mem_of_mem_take hmem)) ?_
    exact Nat.not_lt.2 ((List.length_take_le k before).trans hle)

/-- A row of the campaign that passes a test. -/
def Marked (mark : Json → Bool) (t : LeadTable) (id campaignId : Nat) : Prop :=
  ∃ l, (id, l) ∈ t.rows ∧ l.campaignId = campaignId ∧ mark l.responses = true

theorem counted_iff {campaigns : List Campaign} {id : Nat} : Counted campaigns w id ↔
    ∃ campaign, getBySlug campaigns reconnectSlug = some campaign ∧
      Marked (fun responses => jsonbHasKey responses sentKey) w.leads id campaign.id := by
  refine exists_congr fun campaign => and_congr_right fun _ => ?_
  simp only [countReconnectSent, Table.length_select_without_lt_iff, Bool.and_eq_true, beq_iff_eq]
  rfl

/-- What the loop does: the mails that were accepted went to leads that are marked now, and markers stay. -/
structure Mailed (b : Broadcast) (leads : List LeadRow) (w w' : ReconnectWorld) : Prop where
  mailed : w'.mailed = ((leads.filter fun lead => b.accepted lead.1).map Prod.fst).reverse ++ w.mailed
  kept : ∀ mark, PassedByStamp mark → ∀ id campaignId,
    Marked mark w.leads id campaignId → Marked mark w'.leads id campaignId
  marked : ∀ mark, PassedByStamp mark → ∀ lead ∈ leads, b.accepted lead.1 = true →
    Marked mark w'.leads lead.1 lead.2.campaignId

theorem sendLoop_spec (hmem : ∀ lead ∈ leads, lead ∈ w.leads.rows)
    (hids : (leads.map Prod.fst).Nodup) (hread : ∀ lead ∈ leads, Readable lead.2.responses) :
    Mailed b leads w (sendLoop b leads w).1 := by
  induction leads generalizing w with
  | nil => exact ⟨rfl, fun _ _ _ _ h => h, fun _ _ _ hlead => absurd hlead List.not_mem_nil⟩
  | cons lead rest ih =>
      obtain ⟨hlead, hrest⟩ := List.forall_mem_cons.1 hmem
      obtain ⟨hreadLead, hreadRest⟩ := List.forall_mem_cons.1 hread
      rw [List.map_cons, List.nodup_cons] at hids
      rw [sendLoop]
      cases haccepted : b.accepted lead.1 with
      | false =>
          have hloop := ih hrest hids.2 hreadRest
          rw [if_neg Bool.false_ne_true]
          refine ⟨?_, hloop.kept, fun mark hmark =>
            List.forall_mem_cons.2 ⟨fun h => ?_, hloop.marked mark hmark⟩⟩
          · rw [hloop.mailed, List.filter_cons_of_neg (by simp [haccepted])]
          · rw [haccepted] at h
            cases h
      | true =>
          obtain ⟨members, hstamp⟩ := stampedResponses_readable hreadLead (b.stamp lead.1).1
          generalize hnew : ({ lead.2 with
            responses := .obj (setMember members sentKey (.str (b.stamp lead.1).1)) } : Lead) = new
          have hresponses : new.responses =
            .obj (setMember members sentKey (.str (b.stamp lead.1).1)) := by rw [← hnew]
          have hcampaignNew : new.campaignId = lead.2.campaignId := by rw [← hnew]
          obtain ⟨t', hupdate, htable⟩ := update_eq hlead hcampaignNew (by rw [← hnew])
          rw [Lead.write_current_loaded] at hupdate htable
          rw [if_pos rfl, hstamp]
          simp only [hnew, hupdate]
          -- the other leads of the list are still as they were loaded
          have hrest' : ∀ q ∈ rest, q ∈ t'.rows := by
            intro q hq
            refine (Table.mem_of_update htable).2 (Or.inl ⟨hrest q hq, fun hid => hids.1 ?_⟩)
            exact hid ▸ List.mem_map_of_mem hq
          have hmarked : ∀ mark, PassedByStamp mark → Marked mark t' lead.1 lead.2.campaignId := by
            intro mark hmark
            refine ⟨new, (Table.mem_of_update htable).2 (Or.inr ⟨rfl, lead.2, hlead⟩), hcampaignNew, ?_⟩
            rw [hresponses]
            exact hmark members (b.stamp lead.1)
          have hloop := ih (w := ⟨t', lead.1 :: w.mailed⟩) hrest' hids.2 hreadRest
          refine ⟨?_, fun mark hmark id campaignId hid => hloop.kept mark hmark id campaignId ?_,
            fun mark hmark => List.forall_mem_cons.2
              ⟨fun _ => hloop.kept mark hmark _ _ (hmarked mark hmark), hloop.marked mark hmark⟩⟩
          · rw [hloop.mailed]
            simp [haccepted]
          · obtain ⟨l, hl, hcampaign, hold⟩ := hid
            by_cases heq : id = lead.1
            · subst heq
              obtain rfl : l = lead.2 := congrArg Prod.snd (w.leads.eq_of_id hl hlead rfl)
              exact hcampaign ▸ hmarked mark hmark
            · exact ⟨l, (Table.mem_of_update htable).2 (Or.inl ⟨hl, heq⟩), hcampaign, hold⟩

end Send

section Steps

variable {py : LowerCase} {campaigns : List Campaign} {b : Broadcast} {w : ReconnectWorld}

/-- What a broadcast takes up: the leads that await the mail, as far as the limit allows. -/
def takenUp (campaigns : List Campaign) (b : Broadcast) (t : LeadTable) : List LeadRow :=
  ((getBySlug campaigns reconnectSlug).bind fun campaign =>
    (eligibleLeads b.resend (listForCampaign t campaign.id 100000)).toOption.map
      (sliceTo b.limit)).getD []

theorem takenUp_of_ok {campaign : Campaign} {eligible : List LeadRow}
    (hslug : getBySlug campaigns reconnectSlug = some campaign)
    (heligible : eligibleLeads b.resend (listForCampaign w.leads campaign.id 100000) = .ok eligible) :
    takenUp campaigns b w.leads = sliceTo b.limit eligible := by
  rw [takenUp, hslug, Option.bind_some, heligible]
  rfl

theorem nodup_listForCampaign (t : LeadTable) (campaignId limit : Nat) :
    ((listForCampaign t campaignId limit).map Prod.fst).Nodup := by
  refine List.Nodup.sublist ((List.take_sublist limit _).map Prod.fst) ?_
  rw [List.map_reverse, List.nodup_reverse]
  exact t.nodup.sublist (List.filter_sublist.map Prod.fst)

/-- A broadcast takes up the leads in its reach whose marker is not true. -/
theorem mem_takenUp_iff (hresend : b.resend = false) {lead : LeadRow} :
    lead ∈ takenUp campaigns b w.leads ↔
      InReach campaigns b w.leads lead ∧ trueMarker lead.2.responses = false := by
  -- where the lead is in the slice of the leads that await the mail
  have hslice : ∀ campaign before after,
      listForCampaign w.leads campaign 100000 = before ++ lead :: after → awaitsMail lead = true →
      (lead ∈ sliceTo b.limit ((before ++ lead :: after).filter awaitsMail) ↔
        (before.filter awaitsMail).length <
          (sliceTo b.limit ((before ++ lead :: after).filter awaitsMail)).length) := by
    intro campaign before after hlist hawaits
    rw [List.filter_append, List.filter_cons_of_pos hawaits]
    refine mem_sliceTo_iff fun hmem => ?_
    have hnodup := (nodup_listForCampaign w.leads campaign 100000).of_map
    rw [hlist, List.nodup_append] at hnodup
    exact hnodup.2.2 lead (List.mem_of_mem_filter hmem) lead List.mem_cons_self rfl
  constructor
  · intro h
    cases hslug : getBySlug campaigns reconnectSlug with
    | none => simp [takenUp, hslug] at h
    | some campaign =>
        cases heligible : eligibleLeads b.resend (listForCampaign w.leads campaign.id 100000) with
        | error e => simp [takenUp, hslug, heligible, Except.toOption] at h
        | ok eligible =>
            rw [takenUp_of_ok hslug heligible] at h
            rw [hresend] at heligible
            obtain ⟨hread, rfl⟩ := eligibleLeads_eq_ok_iff.1 heligible
            obtain ⟨hlisted, hawaits⟩ := List.mem_filter.1 ((sliceTo_sublist _ _).subset h)
            obtain ⟨before, after, hlist⟩ := List.append_of_mem hlisted
            obtain ⟨hvalid, hmarker⟩ : validEmail lead.2.email = true ∧
                trueMarker lead.2.responses = false := by
              simpa [awaitsMail] using hawaits
            rw [hlist] at h hread
            exact ⟨⟨campaign, before, after, hslug, hlist, hvalid, hread,
              (hslice campaign.id before after hlist hawaits).1 h⟩, hmarker⟩
  · rintro ⟨⟨campaign, before, after, hslug, hlist, hvalid, hread, hroom⟩, hmarker⟩
    have hawaits : awaitsMail lead = true := by simp [awaitsMail, hvalid, hmarker]
    rw [takenUp_of_ok hslug (by rw [hresend, hlist]; exact eligibleLeads_eq_ok_iff.2 ⟨hread, rfl⟩)]
    exact (hslice campaign.id before after hlist hawaits).2 hroom

/-- A broadcast without `--resend` goes through what it takes up. -/
theorem broadcast_mailed (campaigns : List Campaign) (w : ReconnectWorld) (hresend : b.resend = false) :
    Mailed b (takenUp campaigns b w.leads) w (broadcast campaigns b w).1 ∧
      ((takenUp campaigns b w.leads).map Prod.fst).Nodup ∧
      ∀ lead ∈ takenUp campaigns b w.leads, lead ∈ w.leads.rows ∧ ∃ campaign,
        getBySlug campaigns reconnectSlug = some campaign ∧ lead.2.campaignId = campaign.id := by
  have hnothing : Mailed b [] w w :=
    ⟨rfl, fun _ _ _ _ h => h, fun _ _ _ hlead => absurd hlead List.not_mem_nil⟩
  cases hslug : getBySlug campaigns reconnectSlug with
  | none =>
      rw [broadcast, takenUp, hslug]
      exact ⟨hnothing, List.nodup_nil, fun _ hlead => absurd hlead List.not_mem_nil⟩
  | some campaign =>
      cases heligible : eligibleLeads b.resend (listForCampaign w.leads campaign.id 100000) with
      | error e =>
          rw [broadcast, takenUp, hslug, Option.bind_some]
          dsimp only
          rw [heligible]
          exact ⟨hnothing, List.nodup_nil, fun _ hlead => absurd hlead List.not_mem_nil⟩
      | ok eligible =>
          rw [takenUp_of_ok hslug heligible, broadcast, hslug]
          dsimp only
          rw [heligible]
          rw [hresend] at heligible
          obtain ⟨hread, rfl⟩ := eligibleLeads_eq_ok_iff.1 heligible
          -- what is taken up is part of the listing, so its leads are rows with ids of their own
          have hslice := sliceTo_sublist b.limit
            ((listForCampaign w.leads campaign.id 100000).filter awaitsMail)
          have hlist := hslice.trans List.filter_sublist
          have hrows : ∀ lead ∈ listForCampaign w.leads campaign.id 100000,
              lead ∈ w.leads.rows ∧ lead.2.campaignId = campaign.id := by
            intro lead hlead
            simpa [Table.mem_select] using List.mem_reverse.1 (List.mem_of_mem_take hlead)
          have hnodup := (nodup_listForCampaign w.leads campaign.id 100000).sublist
            (hlist.map Prod.fst)
          refine ⟨sendLoop_spec (fun lead hlead => (hrows lead (hlist.subset hlead)).1) hnodup
            (fun lead hlead => ?_), hnodup, fun lead hlead => ?_⟩
          · obtain ⟨hlisted, hawaits⟩ := List.mem_filter.1 (hslice.subset hlead)
            rw [awaitsMail, Bool.and_eq_true] at hawaits
            exact hread lead hlisted hawaits.1
          · exact ⟨(hrows lead (hlist.subset hlead)).1, campaign, rfl,
              (hrows lead (hlist.subset hlead)).2⟩

/-- A broadcast keeps the property exactly when the mailed leads that it gets to have true markers. -/
theorem mailedOnce_broadcast_iff (hresend : b.resend = false) (hw : MailedOnce campaigns w) :
    MailedOnce campaigns (broadcast campaigns b w).1 ↔
      KeepsMarkers py campaigns (.broadcast b hresend) w := by
  obtain ⟨hmailed, hids, hcampaign⟩ := broadcast_mailed campaigns w hresend
  constructor
  · rintro ⟨hnodup, -⟩ lead - hbefore hreach haccepted
    -- a lead it gets to whose marker is not true is mailed again
    by_contra hmarker
    have hlead := (mem_takenUp_iff hresend).2 ⟨hreach, Bool.eq_false_iff.2 hmarker⟩
    rw [hmailed.mailed, List.nodup_append] at hnodup
    refine hnodup.2.2 lead.1 (List.mem_reverse.2 (List.mem_map_of_mem ?_)) lead.1 hbefore rfl
    exact List.mem_filter.2 ⟨hlead, haccepted⟩
  · intro hkeeps
    refine ⟨?_, fun id hid => ?_⟩
    · rw [hmailed.mailed, List.nodup_append]
      refine ⟨List.nodup_reverse.2 (hids.sublist (List.filter_sublist.map Prod.fst)), hw.nodup, ?_⟩
      rintro a ha c hc rfl
      obtain ⟨lead, hlead, rfl⟩ := List.mem_map.1 (List.mem_reverse.1 ha)
      obtain ⟨hlead, haccepted⟩ := List.mem_filter.1 hlead
      obtain ⟨hreach, hfalse⟩ := (mem_takenUp_iff hresend).1 hlead
      rw [hkeeps lead (hcampaign lead hlead).1 hc hreach haccepted] at hfalse
      cases hfalse
    · rw [hmailed.mailed, List.mem_append, List.mem_reverse] at hid
      -- a lead of this broadcast gets its stamp, one that was mailed before keeps its marker
      rcases hid with hnew | hold
      · obtain ⟨lead, hlead, rfl⟩ := List.mem_map.1 hnew
        obtain ⟨hlead, haccepted⟩ := List.mem_filter.1 hlead
        obtain ⟨-, campaign, hslug, heq⟩ := hcampaign lead hlead
        exact counted_iff.2 ⟨campaign, hslug,
          heq ▸ hmailed.marked _ hasKey_passedByStamp lead hlead haccepted⟩
      · obtain ⟨campaign, hslug, hmarked⟩ := counted_iff.1 (hw.counted id hold)
        exact counted_iff.2 ⟨campaign, hslug,
          hmailed.kept _ hasKey_passedByStamp id campaign.id hmarked⟩

section Capture

variable {slug : String} {payload : LeadCreateRequest} {now : Datetime}

/-- A submission keeps a mark that it has itself, and those of the rows it does not go into. -/
theorem marked_capture {mark : Json → Bool} {id campaignId : Nat} (h : Marked mark w.leads id campaignId)
    (hpayload : ∀ row, mergeTarget py campaigns slug payload w.leads = some row → row.1 = id →
      mark (.obj payload.responses) = true) :
    Marked mark (captureLeadCreated py campaigns slug payload now false w.leads).1 id campaignId := by
  obtain ⟨l, hl, hcampaign, hmark⟩ := h
  rcases captureLeadCreated_cases py campaigns slug payload now false w.leads with
    ⟨-, hsame⟩ | ⟨campaign, row, hrow, hupdate⟩ | ⟨campaign, new, -, hinsert⟩
  · rw [hsame]
    exact ⟨l, hl, hcampaign, hmark⟩
  · have hmem := mem_of_mergeTarget hrow
    by_cases heq : row.1 = id
    · obtain rfl : l = row.2 := congrArg Prod.snd (w.leads.eq_of_id hl hmem heq.symm)
      exact ⟨mergedLead py campaign payload now (some row.2),
        (Table.mem_of_update hupdate).2 (Or.inr ⟨by rw [heq], row.2, hmem⟩), hcampaign,
        hpayload row hrow heq⟩
    · exact ⟨l, (Table.mem_of_update hupdate).2 (Or.inl ⟨hl, fun h => heq h.symm⟩), hcampaign, hmark⟩
  · exact ⟨l, (Table.mem_of_insert hinsert).2 (Or.inl hl), hcampaign, hmark⟩

/-- A submission keeps the property exactly when it brings the marker of a mailed lead with it. -/
theorem mailedOnce_capture_iff (hw : MailedOnce campaigns w) :
    MailedOnce campaigns
        { w with leads := (captureLeadCreated py campaigns slug payload now false w.leads).1 } ↔
      KeepsMarkers py campaigns (.capture slug payload now) w := by
  constructor
  · rintro ⟨-, hcounted⟩ row hrow hbefore
    obtain ⟨_, -, l, hl, -, hkey⟩ := counted_iff.1 (hcounted row.1 hbefore)
    rcases captureLeadCreated_cases py campaigns slug payload now false w.leads with
      ⟨hnone, -⟩ | ⟨campaign, row', hrow', hupdate⟩ | ⟨campaign, new, hnone, -⟩
    · exact absurd (hnone.symm.trans hrow) (Option.some_ne_none row).symm
    · obtain rfl : row = row' := Option.some.inj (hrow.symm.trans hrow')
      rcases (Table.mem_of_update hupdate).1 hl with ⟨-, hne⟩ | ⟨heq, -⟩
      · exact absurd rfl hne
      · obtain rfl := congrArg Prod.snd heq
        exact hkey
    · exact absurd (hnone.symm.trans hrow) (Option.some_ne_none row).symm
  · intro hkeeps
    refine ⟨hw.nodup, fun id hid => ?_⟩
    obtain ⟨reconnect, hslug, hmarked⟩ := counted_iff.1 (hw.counted id hid)
    refine counted_iff.2 ⟨reconnect, hslug, marked_capture hmarked ?_⟩
    rintro row hrow rfl
    exact hkeeps row hrow hid

end Capture

/-- A submission into the row of a mailed lead brings a true marker with it. -/
def KeepsTrueMarkers (py : LowerCase) (campaigns : List Campaign) (e : ReconnectEvent)
    (w : ReconnectWorld) : Prop :=
  match e with
  | .broadcast _ _ => True
  | .capture slug payload _ => ∀ row, mergeTarget py campaigns slug payload w.leads = some row →
      row.1 ∈ w.mailed → trueMarker (.obj payload.responses) = true

/-- The markers of the mailed leads are true. -/
def TrueMarkers (campaigns : List Campaign) (w : ReconnectWorld) : Prop :=
  ∀ id ∈ w.mailed, ∃ campaign, getBySlug campaigns reconnectSlug = some campaign ∧
    Marked trueMarker w.leads id campaign.id

theorem hasKey_of_trueMarker {members : List (String × Json)}
    (h : trueMarker (.obj members) = true) : Json.hasKey members sentKey = true := by
  by_contra hkey
  have hnone : members.find? (fun m => m.1 == sentKey) = none := by
    rw [List.find?_eq_none]
    intro m hm heq
    exact hkey (List.any_eq_true.2 ⟨m, hm, heq⟩)
  cases members with
  | nil => cases h
  | cons m rest =>
      have hget : (Json.obj (m :: rest)).get sentKey = .ok .null := by
        simp only [Json.get, Json.member, hnone]
        rfl
      simp only [trueMarker, Json.orElse, Json.truthy, List.isEmpty_cons, Bool.not_false, if_true,
        hget] at h
      cases h

/-- Where the markers of all mailed leads are true, a broadcast finds them so. -/
theorem TrueMarkers.keepsMarkers (hw : TrueMarkers campaigns w) (py : LowerCase)
    (hresend : b.resend = false) : KeepsMarkers py campaigns (.broadcast b hresend) w := by
  intro lead hlead hbefore _ _
  obtain ⟨_, -, l, hl, -, htrue⟩ := hw lead.1 hbefore
  obtain rfl : l = lead.2 := congrArg Prod.snd (w.leads.eq_of_id hl hlead rfl)
  exact htrue

theorem TrueMarkers.broadcast (hw : TrueMarkers campaigns w) (hresend : b.resend = false) :
    TrueMarkers campaigns (broadcast campaigns b w).1 := by
  obtain ⟨hmailed, -, htaken⟩ := broadcast_mailed campaigns w hresend
  intro id hid
  rw [hmailed.mailed, List.mem_append, List.mem_reverse] at hid
  rcases hid with hnew | hold
  · obtain ⟨lead, hlead, rfl⟩ := List.mem_map.1 hnew
    obtain ⟨hlead, haccepted⟩ := List.mem_filter.1 hlead
    obtain ⟨-, campaign, hslug, heq⟩ := htaken lead hlead
    exact ⟨campaign, hslug, heq ▸ hmailed.marked _ trueMarker_passedByStamp lead hlead haccepted⟩
  · obtain ⟨campaign, hslug, hmarked⟩ := hw id hold
    exact ⟨campaign, hslug, hmailed.kept _ trueMarker_passedByStamp id campaign.id hmarked⟩

/-- Where every submission into the row of a mailed lead brings a true marker with it, no broadcast mails
a lead again. -/
theorem mailedOnce_of_trueMarkers {es : List ReconnectEvent} (hw : MailedOnce campaigns w)
    (htrue : TrueMarkers campaigns w)
    (hguard : Guarded (reconnectStep py campaigns) (KeepsTrueMarkers py campaigns) es w) :
    Always (reconnectStep py campaigns) (MailedOnce campaigns) es w := by
  have hstep : ∀ e s t, MailedOnce campaigns s ∧ TrueMarkers campaigns s →
      KeepsTrueMarkers py campaigns e s → reconnectStep py campaigns e s = some t →
      MailedOnce campaigns t ∧ TrueMarkers campaigns t := by
    rintro e s t ⟨hs, hmarks⟩ hkeeps hstep
    cases e with
    | broadcast b hresend =>
        obtain rfl := Option.some.inj hstep
        have hmails := hmarks.keepsMarkers py hresend
        exact ⟨(mailedOnce_broadcast_iff hresend hs).2 hmails, hmarks.broadcast hresend⟩
    | capture slug payload now =>
        obtain rfl := Option.some.inj hstep
        refine ⟨(mailedOnce_capture_iff hs).2 fun row hrow hbefore =>
          hasKey_of_trueMarker (hkeeps row hrow hbefore), fun id hid => ?_⟩
        obtain ⟨campaign, hslug, hmarked⟩ := hmarks id hid
        refine ⟨campaign, hslug, marked_capture hmarked ?_⟩
        rintro row hrow rfl
        exact hkeeps row hrow hid
  exact (always_of_step hstep ⟨hw, htrue⟩ hguard).mono fun _ h => h.1

/-- In every run of broadcasts and submissions each lead is mailed at most once, and counted from then on,
exactly when every step keeps the markers. It is enough that all submissions into the rows of mailed
leads bring true ones. -/
theorem reconnect_once_iff {es : List ReconnectEvent} (hw : MailedOnce campaigns w) :
    (Always (reconnectStep py campaigns) (MailedOnce campaigns) es w ↔
      Guarded (reconnectStep py campaigns) (KeepsMarkers py campaigns) es w) ∧
    (TrueMarkers campaigns w →
      Guarded (reconnectStep py campaigns) (KeepsTrueMarkers py campaigns) es w →
      Always (reconnectStep py campaigns) (MailedOnce campaigns) es w) := by
  refine ⟨?_, mailedOnce_of_trueMarkers hw⟩
  have htotal : ∀ e s, (reconnectStep py campaigns e s).isSome = true := fun e s => by
    cases e <;> rfl
  obtain ⟨t, hrun⟩ := Option.isSome_iff_exists.1 (exec_isSome htotal es w)
  refine always_iff_guarded_of_exact (J := fun _ => True) (H := fun _ _ => True)
    (fun _ _ _ _ _ _ => trivial) (fun e s t _ hs _ hstep => ?_) trivial hw
    (guarded_of_forall (fun _ _ => trivial) w) hrun
  cases e with
  | broadcast b hresend =>
      obtain rfl := Option.some.inj hstep
      exact mailedOnce_broadcast_iff hresend hs
  | capture slug payload now =>
      obtain rfl := Option.some.inj hstep
      exact mailedOnce_capture_iff hs

end Steps

/-! ## One lead -/

/-- Ada is a lead of the campaign, and no one has been mailed. -/
def unmailed : ReconnectWorld :=
  ⟨((Table.empty _).insert (newLead 1 "ada@x.ng")).elim (Table.empty _) Prod.snd, []⟩

/-- A broadcast to everyone, at a transport that accepts all mails. -/
def acceptedBroadcast : ReconnectEvent :=
  .broadcast ⟨false, none, fun _ => true, fun _ => ⟨"2026-07-01T09:00:00+00:00", by decide⟩⟩ rfl

theorem unmailed_once : MailedOnce [plainCampaign] unmailed :=
  ⟨List.nodup_nil, fun _ hid => absurd hid List.not_mem_nil⟩

/-- Of two broadcasts the second mails no one. -/
theorem second_broadcast_mails_none :
    Always (reconnectStep asciiLower [plainCampaign]) (MailedOnce [plainCampaign])
      [acceptedBroadcast, acceptedBroadcast] unmailed := by
  refine (reconnect_once_iff unmailed_once).2 (fun _ hid => absurd hid List.not_mem_nil) ?_
  exact ⟨trivial, fun _ _ => ⟨trivial, fun _ _ => trivial⟩⟩

/-- A submission without the marker between two broadcasts: Ada is mailed twice. -/
theorem resubmitted_lead_mailed_twice :
    ¬ Always (reconnectStep asciiLower [plainCampaign]) (MailedOnce [plainCampaign])
      [acceptedBroadcast, .capture reconnectSlug (leadRequest "Ada" "Acme") noon, acceptedBroadcast]
      unmailed := by
  intro h
  obtain ⟨t, hrun, hmailed⟩ : ∃ t, exec (reconnectStep asciiLower [plainCampaign])
      [acceptedBroadcast, .capture reconnectSlug (leadRequest "Ada" "Acme") noon, acceptedBroadcast]
      unmailed = some t ∧ t.mailed = [1, 1] := ⟨_, rfl, rfl⟩
  have hnodup := (h.last hrun).nodup
  rw [hmailed] at hnodup
  exact absurd hnodup (by decide)

end SalesTrades.Leads
