import SalesTrades.Leads.Capture
import SalesTrades.Transfer.Model

/-!
# What a run does to one registration

The rows of a lead's registration and the events of the lead change in the pass of the loop that transfers
the lead, and in no other (`transferAll_same`). After that pass the lead is transferred: it has one
primary, its events point at it, and the second participant is there if there is one
(`transferItem_transferred`). `run_done_iff` and `mem_run_commits` reduce a run to the entries of
`to_create` that it has gone through.
-/

set_option autoImplicit false

namespace SalesTrades.Transfer

open SalesTrades.Library SalesTrades.Trade

/-! ## Registrations -/

/-- The rows of the lead's registration and the events of the lead are the same. -/
structure SameRegistration (leadId : Nat) (db db' : TransferDb) : Prop where
  rows : ∀ q : Participant, q.2.registrationId = registrationId leadId →
    (q ∈ db'.trade.rows ↔ q ∈ db.trade.rows)
  events : ∀ e : LeadEvent, e.leadId = leadId → (e ∈ db'.events ↔ e ∈ db.events)

/-- A row is the primary of the lead. -/
def PrimaryOf (lead : Leads.LeadRow) (q : Participant) : Prop :=
  q.2.registrationId = registrationId lead.1 ∧ q.2.isPrimary = true

/-- The lead is transferred completely: one primary, to which all its events point, and a row for the
second participant that it names. -/
structure Complete (db : TransferDb) (lead : Leads.LeadRow) : Prop where
  primary : ∃ p ∈ db.trade.rows, PrimaryOf lead p ∧
    (∀ q ∈ db.trade.rows, PrimaryOf lead q → q = p) ∧
      ∀ e ∈ db.events, e.leadId = lead.1 → e.tradeLeadId = some p.1
  second : NamesSecond lead.2.responses →
    ∃ q ∈ db.trade.rows, q.2.registrationId = registrationId lead.1 ∧ q.2.participantIndex = 2

/-- The statuses in which a run leaves the rows of a registration. -/
structure TransferredStatuses (db : TransferDb) (lead : Leads.LeadRow) : Prop where
  primary : ∀ q ∈ db.trade.rows, PrimaryOf lead q → q.2.crmSyncStatus = .synced
  second : ∀ q ∈ db.trade.rows, q.2.registrationId = registrationId lead.1 →
    q.2.isPrimary = false → q.2.crmSyncStatus = .pending

section Same

variable {leadId : Nat} {lead : Leads.LeadRow} {db db₁ db' : TransferDb}

theorem SameRegistration.refl (leadId : Nat) (db : TransferDb) : SameRegistration leadId db db :=
  ⟨fun _ _ => Iff.rfl, fun _ _ => Iff.rfl⟩

theorem SameRegistration.trans (h : SameRegistration leadId db db₁)
    (h' : SameRegistration leadId db₁ db') : SameRegistration leadId db db' :=
  ⟨fun q hq => (h'.rows q hq).trans (h.rows q hq),
    fun e he => (h'.events e he).trans (h.events e he)⟩

theorem SameRegistration.started_iff (h : SameRegistration lead.1 db db') :
    Started db' lead ↔ Started db lead := by
  rw [Transfer.started_iff, Transfer.started_iff]
  constructor
  · rintro ⟨q, hq, hid⟩
    exact ⟨q, (h.rows q hid).1 hq, hid⟩
  · rintro ⟨q, hq, hid⟩
    exact ⟨q, (h.rows q hid).2 hq, hid⟩

theorem SameRegistration.complete (h : SameRegistration lead.1 db db') (hdone : Complete db lead) :
    Complete db' lead := by
  obtain ⟨p, hp, hprimary, hunique, hevents⟩ := hdone.primary
  refine ⟨⟨p, (h.rows p hprimary.1).2 hp, hprimary, fun q hq hqp => ?_, fun e he hlead => ?_⟩, ?_⟩
  · exact hunique q ((h.rows q hqp.1).1 hq) hqp
  · exact hevents e ((h.events e hlead).1 he) hlead
  · intro hnames
    obtain ⟨q, hq, hid, hindex⟩ := hdone.second hnames
    exact ⟨q, (h.rows q hid).2 hq, hid, hindex⟩

theorem SameRegistration.symm (h : SameRegistration leadId db db') : SameRegistration leadId db' db :=
  ⟨fun q hq => (h.rows q hq).symm, fun e he => (h.events e he).symm⟩

theorem SameRegistration.statuses (h : SameRegistration lead.1 db db')
    (hdone : TransferredStatuses db lead) : TransferredStatuses db' lead :=
  ⟨fun q hq hqp => hdone.primary q ((h.rows q hqp.1).1 hq) hqp,
    fun q hq hid => hdone.second q ((h.rows q hid).1 hq) hid⟩

theorem Complete.started (h : Complete db lead) : Started db lead := by
  obtain ⟨p, hp, hprimary, -⟩ := h.primary
  exact Transfer.started_iff.2 ⟨p, hp, hprimary.1⟩

end Same

/-! ## One pass of the loop -/

section Item

variable {db db₁ db' : TransferDb} {lead : TransferLead} {id leadId : Nat} {item : TransferItem}
  {source : Leads.LeadRow}

theorem repointEvents_ok (h : repointEvents db leadId id = .ok db') :
    db'.trade = db.trade ∧ db'.events = repointed leadId id db.events := by
  unfold repointEvents at h
  split at h
  · cases h
    exact ⟨rfl, rfl⟩
  · cases h

/-- Without events of the lead the UPDATE changes nothing. -/
theorem repointEvents_self (hrow : ∃ q ∈ db.trade.rows, q.1 = id)
    (hevents : ∀ e ∈ db.events, e.leadId ≠ leadId) : repointEvents db leadId id = .ok db := by
  have hsame : repointed leadId id db.events = db.events := by
    refine (List.map_congr_left fun e he => ?_).trans (List.map_id _)
    rw [if_neg (hevents e he), id_eq]
  rw [repointEvents, dif_pos hrow]
  simp only [hsame]

theorem mem_repointed {tradeLeadId : Nat} {events : List LeadEvent} {e : LeadEvent}
    (he : e.leadId ≠ leadId) : e ∈ repointed leadId tradeLeadId events ↔ e ∈ events := by
  rw [repointed, List.mem_map]
  constructor
  · rintro ⟨e', he', rfl⟩
    split
    · rename_i heq
      rw [if_pos heq] at he
      exact absurd heq he
    · exact he'
  · intro hmem
    exact ⟨e, hmem, if_neg he⟩

/-- The events of the lead after the UPDATE. -/
theorem tradeLeadId_of_mem_repointed {tradeLeadId : Nat} {events : List LeadEvent} {e : LeadEvent}
    (hmem : e ∈ repointed leadId tradeLeadId events) (he : e.leadId = leadId) :
    e.tradeLeadId = some tradeLeadId := by
  obtain ⟨e', -, rfl⟩ := List.mem_map.1 hmem
  split at he
  · rename_i heq
    rw [if_pos heq]
  · rename_i hne
    exact absurd he hne

variable [ColumnDriver]

/-- The driver does not touch what tells the participants of a registration apart. -/
theorem flush_columns {l row : TradeLead} (h : l.flush = some row) :
    row.registrationId = l.registrationId ∧ row.isPrimary = l.isPrimary ∧
      row.participantIndex = l.participantIndex ∧ row.crmSyncStatus = l.crmSyncStatus := by
  obtain ⟨phone, jobTitle, -, -, -, rfl⟩ := flush_eq_some h
  exact ⟨rfl, rfl, rfl, rfl⟩

/-- What a successful `create_lead` does: a new row, with an id that no row had. -/
structure Created (db : TransferDb) (lead : TransferLead) (id : Nat) (db' : TransferDb) : Prop where
  row : ∃ row, lead.toTradeLead.flush = some row ∧ db'.trade.rows = db.trade.rows ++ [(id, row)]
  events : db'.events = db.events
  fresh : ∀ q ∈ db.trade.rows, q.1 ≠ id

theorem createParticipant_ok (h : createParticipant db lead = .ok (id, db')) : Created db lead id db' := by
  unfold createParticipant at h
  split at h
  · cases h
  · split at h
    · cases h
    · rename_i row trade hcreate
      cases h
      obtain ⟨hflush, hinsert⟩ := createLead_ok hcreate
      obtain ⟨hid, hrows, -⟩ := Table.insert_eq_some hinsert
      refine ⟨⟨row.2, hflush, ?_⟩, rfl, fun q hq heq => ?_⟩
      · rw [hrows, hid]
      · exact Nat.lt_irrefl _ ((hid ▸ heq) ▸ db.trade.id_lt q hq)

/-- A new row of another registration. -/
theorem Created.same (h : Created db lead id db') (hlead : lead.registrationId ≠ registrationId leadId) :
    SameRegistration leadId db db' := by
  obtain ⟨row, hflush, hrows⟩ := h.row
  refine ⟨fun q hq => ?_, fun e _ => by rw [h.events]⟩
  rw [hrows, List.mem_append, List.mem_singleton, or_iff_left]
  rintro rfl
  exact hlead ((flush_columns hflush).1.symm.trans hq)

/-- The steps of a pass that goes through: the primary, its events, and the second participant if there
is one. -/
structure Passed (db : TransferDb) (item : TransferItem) (id : Nat) (db₁ db₂ db' : TransferDb) : Prop where
  primary : Created db item.primary id db₁
  trade : db₂.trade = db₁.trade
  events : db₂.events = repointed item.lead.1 id db₁.events
  second : (item.second = none ∧ db' = db₂) ∨
    ∃ second secondId, item.second = some second ∧ Created db₂ second secondId db'

theorem transferItem_ok (h : (transferItem db item).2 = .ok db') :
    ∃ id db₁ db₂, Passed db item id db₁ db₂ db' := by
  unfold transferItem at h
  split at h
  · cases h
  · rename_i id db₁ hprimary
    split at h
    · cases h
    · rename_i db₂ hevents
      obtain ⟨htrade, hrepointed⟩ := repointEvents_ok hevents
      have hcreated := createParticipant_ok hprimary
      split at h
      · rename_i hnone
        cases h
        exact ⟨id, db₁, db', hcreated, htrade, hrepointed, Or.inl ⟨hnone, rfl⟩⟩
      · rename_i second hsome
        split at h
        · cases h
        · rename_i secondId db₃ hsecond
          cases h
          exact ⟨id, db₁, db₂, hcreated, htrade, hrepointed,
            Or.inr ⟨second, secondId, hsome, createParticipant_ok hsecond⟩⟩

/-- What a pass commits: the primary alone, or all of the registration. -/
theorem mem_transferItem_commits {label : CommitPoint} {m : TransferDb}
    (h : (label, m) ∈ (transferItem db item).1) :
    (label = .primary item.lead ∧ ∃ id, Created db item.primary id m ∧
      (item.second = none → (transferItem db item).2 = repointEvents m item.lead.1 id)) ∨
    (label = .second item.lead ∧ (transferItem db item).2 = .ok m) := by
  unfold transferItem at h ⊢
  split at h
  · cases h
  · rename_i id db₁ hprimary
    have hcreated := createParticipant_ok hprimary
    split at h
    · rename_i e hevents
      obtain ⟨rfl, rfl⟩ := Prod.mk.inj (List.mem_singleton.1 h)
      exact Or.inl ⟨rfl, id, hcreated, fun _ => hevents.symm⟩
    · rename_i db₂ hevents
      split at h
      · obtain ⟨rfl, rfl⟩ := Prod.mk.inj (List.mem_singleton.1 h)
        exact Or.inl ⟨rfl, id, hcreated, fun _ => hevents.symm⟩
      · rename_i second hsome
        split at h
        · obtain ⟨rfl, rfl⟩ := Prod.mk.inj (List.mem_singleton.1 h)
          exact Or.inl ⟨rfl, id, hcreated, fun hnone => absurd hnone (by rw [hsome]; simp)⟩
        · rcases List.mem_cons.1 h with heq | h
          · obtain ⟨rfl, rfl⟩ := Prod.mk.inj heq
            exact Or.inl ⟨rfl, id, hcreated, fun hnone => absurd hnone (by rw [hsome]; simp)⟩
          · obtain ⟨rfl, rfl⟩ := Prod.mk.inj (List.mem_singleton.1 h)
            exact Or.inr ⟨rfl, rfl⟩

/-- A pass leaves the registrations of other leads alone. -/
theorem Passed.same {id : Nat} {db₂ : TransferDb} (h : Passed db item id db₁ db₂ db')
    (hitem : ItemOf source item) (hother : leadId ≠ source.1) : SameRegistration leadId db db' := by
  have hregistration : registrationId source.1 ≠ registrationId leadId :=
    fun heq => hother (registrationId_injective heq).symm
  have hevents : SameRegistration leadId db₁ db₂ := by
    refine ⟨fun q _ => by rw [h.trade], fun e he => ?_⟩
    rw [h.events, mem_repointed]
    rwa [he, hitem.lead_eq]
  have hbefore := (h.primary.same (hitem.registration.trans_ne hregistration)).trans hevents
  rcases h.second with ⟨-, rfl⟩ | ⟨second, secondId, hsome, hcreated⟩
  · exact hbefore
  · exact hbefore.trans
      (hcreated.same ((hitem.second second hsome).registration.trans_ne hregistration))

/-- The rows after a pass. -/
theorem Passed.rows {id : Nat} {db₂ : TransferDb} (h : Passed db item id db₁ db₂ db') :
    ∃ p, item.primary.toTradeLead.flush = some p ∧ (id, p) ∈ db'.trade.rows ∧
      (∀ q ∈ db'.trade.rows, q ∈ db.trade.rows ∨ q = (id, p) ∨
        ∃ second, item.second = some second ∧ second.toTradeLead.flush = some q.2) ∧
      ∀ second, item.second = some second →
        ∃ q ∈ db'.trade.rows, second.toTradeLead.flush = some q.2 := by
  obtain ⟨p, hflush, hrows⟩ := h.primary.row
  have hrows₂ : db₂.trade.rows = db.trade.rows ++ [(id, p)] := by rw [h.trade, hrows]
  refine ⟨p, hflush, ?_⟩
  rcases h.second with ⟨hnone, rfl⟩ | ⟨second, secondId, hsome, hcreated⟩
  · rw [hrows₂]
    refine ⟨by simp, fun q hq => ?_, fun second hsome => absurd hsome (by simp [hnone])⟩
    rcases List.mem_append.1 hq with hq | hq
    · exact Or.inl hq
    · exact Or.inr (Or.inl (List.mem_singleton.1 hq))
  · obtain ⟨row, hsecond, hrow⟩ := hcreated.row
    rw [hrow, hrows₂]
    refine ⟨by simp, fun q hq => ?_, fun second' hsome' => ?_⟩
    · rcases List.mem_append.1 hq with hq | hq
      · rcases List.mem_append.1 hq with hq | hq
        · exact Or.inl hq
        · exact Or.inr (Or.inl (List.mem_singleton.1 hq))
      · obtain rfl := List.mem_singleton.1 hq
        exact Or.inr (Or.inr ⟨second, hsome, hsecond⟩)
    · obtain rfl : second = second' := Option.some.inj (hsome.symm.trans hsome')
      exact ⟨(secondId, row), by simp, hsecond⟩

theorem Passed.events_eq {id : Nat} {db₂ : TransferDb} (h : Passed db item id db₁ db₂ db') :
    db'.events = repointed item.lead.1 id db.events := by
  have hevents₂ : db₂.events = repointed item.lead.1 id db.events := by
    rw [h.events, h.primary.events]
  rcases h.second with ⟨-, rfl⟩ | ⟨second, secondId, -, hcreated⟩
  · exact hevents₂
  · rw [hcreated.events, hevents₂]

/-- After its pass a lead that had no row is transferred. -/
theorem Passed.transferred {id : Nat} {db₂ : TransferDb} (h : Passed db item id db₁ db₂ db')
    (hitem : ItemOf source item) (hnew : ¬ Started db source) :
    Complete db' source ∧ TransferredStatuses db' source := by
  obtain ⟨p, hprimary, hmem, hrows, hsecond⟩ := h.rows
  obtain ⟨hpid, hpprimary, -, hpstatus⟩ := flush_columns hprimary
  -- of this registration there are only the rows of the pass
  have hmine : ∀ q ∈ db'.trade.rows, q.2.registrationId = registrationId source.1 → q = (id, p) ∨
      ∃ second, item.second = some second ∧ second.toTradeLead.flush = some q.2 := by
    intro q hq hid
    refine (hrows q hq).resolve_left fun hold => hnew ?_
    exact Transfer.started_iff.2 ⟨q, hold, hid⟩
  have hseconds : ∀ q : Participant, (∃ second, item.second = some second ∧
      second.toTradeLead.flush = some q.2) →
      q.2.registrationId = registrationId source.1 ∧ q.2.participantIndex = 2 ∧
        q.2.isPrimary = false ∧ q.2.crmSyncStatus = .pending := by
    rintro q ⟨second, hsome, hflush⟩
    obtain ⟨hid, hisPrimary, hindex, hstatus⟩ := flush_columns hflush
    have hof := hitem.second second hsome
    exact ⟨hid.trans hof.registration, hindex.trans hof.second, hisPrimary.trans hof.isPrimary,
      hstatus.trans hof.pending⟩
  refine ⟨⟨⟨(id, p), hmem, ⟨hpid.trans hitem.registration, hpprimary.trans hitem.isPrimary⟩, ?_, ?_⟩, ?_⟩,
    ?_, ?_⟩
  · intro q hq hqp
    refine (hmine q hq hqp.1).resolve_right fun hs => ?_
    have hfalse := (hseconds q hs).2.2.1
    rw [hqp.2] at hfalse
    cases hfalse
  · intro e he hlead
    rw [h.events_eq] at he
    exact tradeLeadId_of_mem_repointed he (hlead.trans (congrArg Prod.fst hitem.lead_eq).symm)
  · intro hnames
    obtain ⟨second, hsome⟩ := Option.isSome_iff_exists.1 (hitem.second_iff.2 hnames)
    obtain ⟨q, hq, hflush⟩ := hsecond second hsome
    obtain ⟨hid, hindex, -⟩ := hseconds q ⟨second, hsome, hflush⟩
    exact ⟨q, hq, hid, hindex⟩
  · intro q hq hqp
    rcases hmine q hq hqp.1 with rfl | hs
    · exact hpstatus.trans hitem.synced
    · have hfalse := (hseconds q hs).2.2.1
      rw [hqp.2] at hfalse
      cases hfalse
  · intro q hq hid hfalse
    rcases hmine q hq hid with rfl | hs
    · rw [hpprimary, hitem.isPrimary] at hfalse
      cases hfalse
    · exact (hseconds q hs).2.2.2

end Item

/-! ## The loop -/

/-- The passes of the loop, one after another. -/
def transferAll [ColumnDriver] (db : TransferDb) (items : List TransferItem) :
    Except PyError TransferDb :=
  items.foldlM (fun db item => (transferItem db item).2) db

section Loop

variable [ColumnDriver] {db db' m : TransferDb} {items : List TransferItem}
  {leads : List Leads.LeadRow} {leadId : Nat}

theorem transferAll_cons (db : TransferDb) (item : TransferItem) (rest : List TransferItem) :
    transferAll db (item :: rest) = (transferItem db item).2 >>= fun db' => transferAll db' rest :=
  List.foldlM_cons

theorem transferAll_append (db : TransferDb) (items rest : List TransferItem) :
    transferAll db (items ++ rest) = transferAll db items >>= fun db' => transferAll db' rest :=
  List.foldlM_append

/-- The loop ends as its passes do. -/
theorem transferLoop_result (db : TransferDb) (items : List TransferItem) :
    (transferLoop db items).2 = transferAll db items := by
  induction items generalizing db with
  | nil => rfl
  | cons item rest ih =>
      rw [transferAll_cons, transferLoop]
      rcases transferItem db item with ⟨commits, e | db'⟩
      · rfl
      · exact ih db'

/-- A commit of the loop is the last one, or one of some pass after those before it. -/
theorem mem_transferLoop_commits {label : CommitPoint} (h : (label, m) ∈ (transferLoop db items).1) :
    (label = .final ∧ transferAll db items = .ok m) ∨
      ∃ passed item rest db₁, items = passed ++ item :: rest ∧ transferAll db passed = .ok db₁ ∧
        (label, m) ∈ (transferItem db₁ item).1 := by
  induction items generalizing db with
  | nil =>
      obtain ⟨rfl, rfl⟩ := Prod.mk.inj (List.mem_singleton.1 h)
      exact Or.inl ⟨rfl, rfl⟩
  | cons item rest ih =>
      by_cases hhere : (label, m) ∈ (transferItem db item).1
      · exact Or.inr ⟨[], item, rest, db, rfl, rfl, hhere⟩
      · rw [transferLoop] at h
        cases hitem : transferItem db item with
        | mk commits result =>
            rw [hitem] at h hhere
            cases result with
            | error e => exact absurd h hhere
            | ok db₁ =>
                have hone : (transferItem db item).2 = .ok db₁ := congrArg Prod.snd hitem
                rcases ih ((List.mem_append.1 h).resolve_left hhere) with
                  ⟨hlabel, hall⟩ | ⟨passed, item', rest', db₂, heq, hall, hmem⟩
                · refine Or.inl ⟨hlabel, ?_⟩
                  rw [transferAll_cons, hone]
                  exact hall
                · refine Or.inr ⟨item :: passed, item', rest', db₂, by rw [heq, List.cons_append], ?_, hmem⟩
                  rw [transferAll_cons, hone]
                  exact hall

/-- The passes leave the registrations of other leads alone. -/
theorem transferAll_same (hitems : List.Forall₂ ItemOf leads items)
    (hother : ∀ lead ∈ leads, leadId ≠ lead.1) (h : transferAll db items = .ok db') :
    SameRegistration leadId db db' := by
  induction hitems generalizing db with
  | nil =>
      cases h
      exact SameRegistration.refl leadId db'
  | cons hitem _ ih =>
      obtain ⟨hlead, hrest⟩ := List.forall_mem_cons.1 hother
      rw [transferAll_cons] at h
      obtain ⟨db₁, hone, hall⟩ := bind_eq_ok.1 h
      obtain ⟨id, a, b, hpassed⟩ := transferItem_ok hone
      exact (hpassed.same hitem hlead).trans (ih hrest hall)

/-- After the passes every lead that had no row is transferred. -/
theorem transferAll_transferred (hitems : List.Forall₂ ItemOf leads items)
    (hids : (leads.map Prod.fst).Nodup) (hnew : ∀ lead ∈ leads, ¬ Started db lead)
    (h : transferAll db items = .ok db') :
    ∀ lead ∈ leads, Complete db' lead ∧ TransferredStatuses db' lead := by
  induction hitems generalizing db with
  | nil => exact fun _ hlead => absurd hlead List.not_mem_nil
  | @cons lead item leads items hitem hrest ih =>
      rw [transferAll_cons] at h
      obtain ⟨db₁, hone, hall⟩ := bind_eq_ok.1 h
      obtain ⟨id, a, b, hpassed⟩ := transferItem_ok hone
      rw [List.map_cons, List.nodup_cons] at hids
      obtain ⟨hnewLead, hnewRest⟩ := List.forall_mem_cons.1 hnew
      have hne : ∀ lead' ∈ leads, lead'.1 ≠ lead.1 :=
        fun lead' hmem heq => hids.1 (heq ▸ List.mem_map_of_mem hmem)
      refine List.forall_mem_cons.2 ⟨?_, ih hids.2 (fun lead' hmem => ?_) hall⟩
      · obtain ⟨hcomplete, hstatuses⟩ := hpassed.transferred hitem hnewLead
        have hsame := transferAll_same hrest (fun lead' hmem => (hne lead' hmem).symm) hall
        exact ⟨hsame.complete hcomplete, hsame.statuses hstatuses⟩
      · rw [(hpassed.same hitem (hne lead' hmem)).started_iff]
        exact hnewRest lead' hmem

end Loop

/-! ## Runs -/

/-- The leads that the run transfers: those it reads that have no row. -/
def newLeads (source : TransferSource) (db : TransferDb) : List Leads.LeadRow :=
  (sourceLeads source).filter fun lead => ¬ Started db lead

/-- `to_create`, of a run that finds the campaign and the program. -/
structure Selected (py : LowerCase) (source : TransferSource) (db : TransferDb)
    (items : List TransferItem) : Prop where
  campaign : ∃ campaign, Leads.getBySlug source.campaigns sourceCampaignSlug = some campaign
  items : ∃ program, getProgramBySlug source.programs tradeProgramSlug = some program ∧
    List.Forall₂ (fun lead item => buildItem py program.id lead = .ok item) (newLeads source db) items

section Run

variable {py : LowerCase} {source : TransferSource} {db db' m : TransferDb} {items : List TransferItem}
  {lead : Leads.LeadRow}

theorem sourceLeads_eq {campaign : Leads.Campaign}
    (h : Leads.getBySlug source.campaigns sourceCampaignSlug = some campaign) :
    sourceLeads source = Leads.listForCampaign source.leads campaign.id 100000 := by
  simp only [sourceLeads, campaignLeads, h, Leads.listForCampaign]

/-- A lead is in the campaign once. -/
theorem nodup_campaignLeads (source : TransferSource) :
    ((campaignLeads source).map Prod.fst).Nodup := by
  unfold campaignLeads
  cases Leads.getBySlug source.campaigns sourceCampaignSlug with
  | none => exact List.nodup_nil
  | some campaign =>
      rw [List.map_reverse, List.nodup_reverse]
      exact source.leads.nodup.sublist ((List.filter_sublist).map Prod.fst)

theorem nodup_newLeads (source : TransferSource) (db : TransferDb) :
    ((newLeads source db).map Prod.fst).Nodup :=
  (nodup_campaignLeads source).sublist ((List.filter_sublist.trans (List.take_sublist _ _)).map Prod.fst)

theorem mem_newLeads : lead ∈ newLeads source db ↔ lead ∈ sourceLeads source ∧ ¬ Started db lead := by
  simp [newLeads]

theorem Selected.itemOf (h : Selected py source db items) :
    List.Forall₂ ItemOf (newLeads source db) items := by
  obtain ⟨program, -, hitems⟩ := h.items
  exact hitems.imp fun _ _ => buildItem_ok

variable [ColumnDriver]

/-- The run that `to_create` determines. -/
theorem Selected.run_eq (h : Selected py source db items) : run py source true db =
    ((transferLoop db items).1, (transferAll db items).map fun db' => (.done, db')) := by
  obtain ⟨campaign, hcampaign⟩ := h.campaign
  obtain ⟨program, hprogram, hitems⟩ := h.items
  have hselect := selectItems_eq_ok.2 hitems
  rw [sourceLeads_eq hcampaign] at hselect
  simp only [run, hcampaign, hprogram, hselect, if_true, transferLoop_result]

/-- A run that commits something, or completes, has gone through its preparations. -/
theorem selected_of_run (h : (run py source true db).1 ≠ [] ∨
    ∃ db', (run py source true db).2 = .ok (.done, db')) : ∃ items, Selected py source db items := by
  unfold run at h
  split at h
  · simp at h
  · rename_i campaign hcampaign
    split at h
    · simp at h
    · rename_i program hprogram
      split at h
      · simp at h
      · rename_i items hselect
        rw [← sourceLeads_eq hcampaign] at hselect
        exact ⟨items, ⟨campaign, hcampaign⟩, program, hprogram, selectItems_eq_ok.1 hselect⟩

/-- A run completes when all its passes go through. -/
theorem run_done_iff : (run py source true db).2 = .ok (.done, db') ↔
    ∃ items, Selected py source db items ∧ transferAll db items = .ok db' := by
  constructor
  · intro h
    obtain ⟨items, hselected⟩ := selected_of_run (Or.inr ⟨db', h⟩)
    rw [hselected.run_eq] at h
    refine ⟨items, hselected, ?_⟩
    cases hall : transferAll db items with
    | error e =>
        rw [hall] at h
        cases h
    | ok m =>
        rw [hall] at h
        cases h
        rfl
  · rintro ⟨items, hselected, hall⟩
    rw [hselected.run_eq, hall]
    rfl

theorem mem_run_commits {c : CommitPoint × TransferDb} (h : c ∈ (run py source true db).1) :
    ∃ items, Selected py source db items ∧ c ∈ (transferLoop db items).1 := by
  obtain ⟨items, hselected⟩ := selected_of_run (Or.inl (List.ne_nil_of_mem h))
  rw [hselected.run_eq] at h
  exact ⟨items, hselected, h⟩

/-- What a completed run does: the leads without a row are transferred, and the registrations of the
others are as they were. -/
theorem run_done (h : (run py source true db).2 = .ok (.done, db')) :
    (∀ lead ∈ newLeads source db, Complete db' lead ∧ TransferredStatuses db' lead) ∧
      ∀ leadId, (∀ lead ∈ newLeads source db, leadId ≠ lead.1) → SameRegistration leadId db db' := by
  obtain ⟨items, hselected, hall⟩ := run_done_iff.1 h
  refine ⟨?_, fun leadId hother => transferAll_same hselected.itemOf hother hall⟩
  exact transferAll_transferred hselected.itemOf (nodup_newLeads source db)
    (fun lead hlead => (mem_newLeads.1 hlead).2) hall

end Run

/-! ## A campaign with one lead -/

/-- The campaign as it is seeded, with one lead, and the trade program. -/
def oneLeadSource (lead : Leads.Lead) : TransferSource where
  campaigns := [⟨5, sourceCampaignSlug, .active,
    { baseTags := ["Export Launchpad", "2026 First Cohort"], tagMap := [], digitalPackTag := none
      inspectionTag := none, newsletterTag := none, materials := [], materialsAssets := []
      crmSyncEnabled := some (.bool false) }⟩]
  programs := [⟨1, tradeProgramSlug, .active,
    { baseTags := ["Export Launchpad"], crmSyncEnabled := none, requireAdminApproval := none
      crmLeadSourceId := .null }⟩]
  leads := ((Table.empty _).insert lead).elim (Table.empty _) Prod.snd

def emptyDb : TransferDb where
  trade := Table.empty _
  columns := []
  events := []
  foreignKey := fun _ he => absurd he List.not_mem_nil

/-- Ada's registration, as captured, with what the CRM sync recorded. -/
def adaLead (crmSyncStatus : Leads.CrmStatus) (crmContactId : Option String) : Leads.Lead :=
  { Leads.newLead 5 "ada@x.ng" with
    firstName := "Ada"
    lastName := "Obi"
    crmSyncStatus := crmSyncStatus
    crmContactId := crmContactId }

theorem campaignLeads_one (lead : Leads.Lead) (hcampaign : lead.campaignId = 5) :
    campaignLeads (oneLeadSource lead) = [(1, lead)] := by
  simp [campaignLeads, oneLeadSource, Leads.getBySlug, Table.select, Table.insert, Table.taken,
    Table.empty, hcampaign]

theorem sourceLeads_one (lead : Leads.Lead) (hcampaign : lead.campaignId = 5) :
    sourceLeads (oneLeadSource lead) = [(1, lead)] := by
  rw [sourceLeads, campaignLeads_one lead hcampaign]
  rfl

theorem not_started_empty (lead : Leads.LeadRow) : ¬ Started emptyDb lead := by
  simp [started_iff, emptyDb, Table.empty]

end SalesTrades.Transfer
