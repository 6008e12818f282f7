import SalesTrades.Emails.Model
import SalesTrades.Trade.PushedContacts

/-!
# When the CRM sync of a participant raises

`sync_trade_lead` with the check that PostgreSQL makes of the texts it is given, and
`sync_pending_trade` as a sweep of its passes. The payload is built inside of the `try`, so only an
answer that cannot be stored leaves it as an exception (`syncRecorded_iff`, `pendingRecorded_iff`).
Where the answers can be stored this is the sweep of `PushedContacts` (`pushPendingTrade_eq`).
-/

set_option autoImplicit false

namespace SalesTrades.Trade

open SalesTrades.Library SalesTrades.Library.Sweep SalesTrades.Emails

/-! ## The sync and its sweep -/

/-- The texts a sync writes can be stored. -/
def TradeLead.storable (l : TradeLead) : Bool := l.crmContactId.all isText && l.crmError.all isText

section Writes

variable [ColumnDriver]

/-- What the driver makes of a row that a sync changed, or what is raised. -/
def storedRow (lead : TradeLead) : Except PyError TradeLead :=
  if lead.storable then
    match lead.flush with
    | none => .error .dataError
    | some row => .ok row
  else .error .dataError

/-- What `sync_trade_lead` pushes. -/
def syncPushes (globalSync : Bool) (program : TradeProgram) (lead : Participant)
    (response : CrmResponse) (now : Int) : List Push :=
  ((syncTradeLead globalSync program lead.2 response now).2.map fun payload =>
    ⟨lead.1, payload, response.accepted⟩).toList

/-- `sync_trade_lead` on a row the session has loaded. -/
def storeSync (globalSync : Bool) (program : TradeProgram) (lead : Participant)
    (response : CrmResponse) (now : Int) (s : TradeLeads × List Push) :
    (TradeLeads × List Push) × Except PyError Participant :=
  let log := syncPushes globalSync program lead response now ++ s.2
  match storedRow (syncTradeLead globalSync program lead.2 response now).1 with
  -- the upsert has been sent, whether the row is stored or not
  | .error e => ((s.1, log), .error e)
  | .ok new =>
      match updateLead s.1 lead new with
      | .error e => ((s.1, log), .error e)
      | .ok (lead', t') => ((t', log), .ok lead')

/-- One pass of the loop of `sync_pending_trade`. -/
def storePass (globalSync : Bool) (programs : List TradeProgram) (o : SyncOutside)
    (lead : Participant) (s : TradeLeads × List Push) :
    (TradeLeads × List Push) × Except PyError Nat :=
  match getProgram programs lead.2.tradeProgramId with
  | none => (s, .ok 0)
  | some program =>
      let result := storeSync globalSync program lead (o.responses lead.1) o.now s
      (result.1, result.2.map fun lead' => if lead'.2.crmSyncStatus = .synced then 1 else 0)

/-- The participants `sync_pending_trade` selects. -/
def selectedParticipants (globalSync : Bool) (t : TradeLeads) (limit : Nat) : List Participant :=
  if globalSync then listPendingCrmSync t limit else []

/-- `sync_pending_trade`. -/
def storePendingTrade (globalSync : Bool) (programs : List TradeProgram) (o : SyncOutside)
    (limit : Nat) (s : TradeLeads × List Push) : (TradeLeads × List Push) × Except PyError Nat :=
  sweep (storePass globalSync programs o) (selectedParticipants globalSync s.1 limit) s

end Writes

/-! ## Texts -/

theorem isText_truncate {s : String} (h : isText s = true) : isText (truncate s) = true := by
  rw [isText_iff, truncate, String.toList_ofList]
  exact fun hmem => isText_iff.1 h (List.mem_of_mem_take hmem)

theorem isText_toString (n : Nat) : isText (toString n) = true := by
  rw [isText_iff]
  intro hmem
  have hdigits : Char.ofNat 0 ∈ Nat.toDigits 10 n := by simpa [toString, Nat.repr] using hmem
  have hdigit := Nat.isDigit_of_mem_toDigits (by decide) (by decide) hdigits
  revert hdigit
  decide

/-- What `join` says about a null is a text. -/
theorem isText_joinTexts {xs : List Json} {i : Nat} {text : String}
    (h : joinTexts xs i = .error text) : isText text = true := by
  induction xs generalizing i with
  | nil => cases h
  | cons x rest ih =>
      have hitem : isText s!"sequence item {i}: expected str instance, NoneType found" = true :=
        isText_append (isText_append (by decide) (isText_toString i)) (by decide)
      cases x with
      | str s =>
          cases hrest : joinTexts rest (i + 1) with
          | error text' =>
              rw [joinTexts, hrest, Except.map, Except.error.injEq] at h
              subst h
              exact ih hrest
          | ok texts =>
              rw [joinTexts, hrest] at h
              cases h
      | null => exact Except.error.inj h ▸ hitem
      | bool b => exact Except.error.inj h ▸ hitem
      | num q => exact Except.error.inj h ▸ hitem
      | arr ys => exact Except.error.inj h ▸ hitem
      | obj members => exact Except.error.inj h ▸ hitem

theorem isText_buildContactPayload {lead : TradeLead} {program : TradeProgram} {text : String}
    (h : buildContactPayload lead program = .error text) : isText text = true := by
  rw [buildContactPayload_eq] at h
  simp only [TradeLead.contactFields, Trade.contactFields, topicsSent] at h
  cases htopics : (lead.shared .topicsOfInterest).orElse (.arr []) with
  | arr xs =>
      rw [htopics] at h
      dsimp only at h
      cases hjoin : joinTexts xs 0 with
      | error text' =>
          rw [hjoin] at h
          exact Except.error.inj h ▸ isText_joinTexts hjoin
      | ok texts =>
          rw [hjoin] at h
          cases h
  | null => simp [htopics, Except.map] at h
  | bool b => simp [htopics, Except.map] at h
  | num q => simp [htopics, Except.map] at h
  | str s => simp [htopics, Except.map] at h
  | obj members => simp [htopics, Except.map] at h

/-! ## What leaves a sync -/

/-- What the answer puts on the row can be stored. -/
def CrmResponse.storable : CrmResponse → Bool
  | .contact id => id.all isText
  | .statusError message body => isText (truncate s!"{message} | body: {body}")
  | .error message => isText (truncate message)

/-- A sync that sends a contact can store the answer. -/
def SyncSafe (globalSync : Bool) (program : TradeProgram) (lead : TradeLead)
    (response : CrmResponse) : Prop :=
  GatesPass globalSync program lead →
    (∃ payload, buildContactPayload lead program = .ok payload) → response.storable = true

section Sync

variable [ColumnDriver] {globalSync : Bool} {program : TradeProgram} {lead : Participant}
  {response : CrmResponse}
  {now : Int} {s : TradeLeads × List Push}

omit [ColumnDriver] in
theorem storable_syncTradeLead (hlead : lead.2.storable = true) :
    (syncTradeLead globalSync program lead.2 response now).1.storable = true ↔
      SyncSafe globalSync program lead.2 response := by
  have hid : lead.2.crmContactId.all isText = true := (Bool.and_eq_true_iff.1 hlead).1
  unfold SyncSafe
  by_cases hgates : GatesPass globalSync program lead.2
  · rw [syncTradeLead_open hgates, pushTradeLead]
    cases hbuild : buildContactPayload lead.2 program with
    | error text =>
        -- the row is failed, with what the join said
        simpa [TradeLead.storable, hid] using isText_truncate (isText_buildContactPayload hbuild)
    | ok payload =>
        cases response <;> simp [TradeLead.storable, CrmResponse.storable, hid, hgates]
  · rw [syncTradeLead_closed hgates]
    exact iff_of_true hlead fun h => absurd h hgates

/-- The columns a sync writes are not those the driver converts. -/
theorem flush_syncTradeLead (hflush : lead.2.flush = some lead.2) :
    (syncTradeLead globalSync program lead.2 response now).1.flush =
      some (syncTradeLead globalSync program lead.2 response now).1 := by
  obtain ⟨_, _, _, _, hframe⟩ := syncTradeLead_frame globalSync program lead.2 response now
  have hcolumns := flush_eq_self_iff.1 hflush
  rw [hframe, flush_eq_self_iff]
  exact hcolumns

/-- A sync keeps program and email, so a row that can be stored goes into the table. -/
theorem storeSync_ok {new : TradeLead} (hrow : lead ∈ s.1.rows)
    (h : storedRow (syncTradeLead globalSync program lead.2 response now).1 = .ok new) :
    ∃ t', s.1.update lead.1 new = some t' ∧
      storeSync globalSync program lead response now s =
        ((t', syncPushes globalSync program lead response now ++ s.2), .ok (lead.1, new)) := by
  have hflush : (syncTradeLead globalSync program lead.2 response now).1.flush = some new := by
    unfold storedRow at h
    split at h
    · split at h
      · cases h
      · rename_i hflush
        exact hflush.trans (congrArg some (Except.ok.inj h))
    · cases h
  obtain ⟨_, _, _, _, hframe⟩ := syncTradeLead_frame globalSync program lead.2 response now
  obtain ⟨_, _, -, -, -, hnew⟩ := flush_eq_some hflush
  rw [hframe] at hnew
  obtain ⟨t', hupdate, htable⟩ := updateLead_keyed hrow (flush_flush hflush) (by rw [hnew])
    (by rw [hnew])
  exact ⟨t', htable, by simp only [storeSync, h, hupdate]⟩

theorem storeSync_error {e : PyError}
    (h : storedRow (syncTradeLead globalSync program lead.2 response now).1 = .error e) :
    storeSync globalSync program lead response now s =
      ((s.1, syncPushes globalSync program lead response now ++ s.2), .error e) := by
  simp only [storeSync, h]

/-- What becomes of a row that a sync changed. -/
theorem storedRow_eq_ok_iff {new : TradeLead} (hstorable : lead.2.storable = true)
    (hflush : lead.2.flush = some lead.2) :
    storedRow (syncTradeLead globalSync program lead.2 response now).1 = .ok new ↔
      SyncSafe globalSync program lead.2 response ∧
        new = (syncTradeLead globalSync program lead.2 response now).1 := by
  have hsafe : (syncTradeLead globalSync program lead.2 response now).1.storable = true ↔
      SyncSafe globalSync program lead.2 response := storable_syncTradeLead hstorable
  rw [storedRow, flush_syncTradeLead hflush, ← hsafe]
  by_cases h : (syncTradeLead globalSync program lead.2 response now).1.storable = true
  · rw [if_pos h]
    simpa [h] using eq_comm
  · rw [if_neg h]
    simp [h]

/-- `sync_trade_lead` returns with its outcome recorded on the row. -/
def SyncRecorded (globalSync : Bool) (program : TradeProgram) (lead : Participant)
    (response : CrmResponse) (now : Int) (s : TradeLeads × List Push) : Prop :=
  (storeSync globalSync program lead response now s).2 =
      .ok (lead.1, (syncTradeLead globalSync program lead.2 response now).1) ∧
    (lead.1, (syncTradeLead globalSync program lead.2 response now).1) ∈
      (storeSync globalSync program lead response now s).1.1.rows

/-- A sync of a stored participant records its outcome exactly when it is safe. -/
theorem syncRecorded_iff (hrow : lead ∈ s.1.rows) (hstorable : lead.2.storable = true)
    (hflush : lead.2.flush = some lead.2) :
    SyncRecorded globalSync program lead response now s ↔
      SyncSafe globalSync program lead.2 response := by
  unfold SyncRecorded
  constructor
  · rintro ⟨hreturns, -⟩
    cases houtcome : storedRow (syncTradeLead globalSync program lead.2 response now).1 with
    | error e =>
        rw [storeSync_error houtcome] at hreturns
        cases hreturns
    | ok new => exact ((storedRow_eq_ok_iff hstorable hflush).1 houtcome).1
  · intro hsafe
    obtain ⟨t', htable, hcall⟩ :=
      storeSync_ok hrow ((storedRow_eq_ok_iff hstorable hflush).2 ⟨hsafe, rfl⟩)
    rw [hcall]
    exact ⟨rfl, (Table.mem_of_update htable).2 (Or.inr ⟨rfl, lead.2, hrow⟩)⟩

end Sync

/-! ## What leaves a sweep -/

section Sweep

variable [ColumnDriver] {globalSync : Bool} {programs : List TradeProgram} {o : SyncOutside}
  {limit : Nat}
  {s : TradeLeads × List Push}

/-- The outcome of the pass over a participant, `none` when the program is gone. -/
def passOutcome (globalSync : Bool) (programs : List TradeProgram) (o : SyncOutside)
    (lead : Participant) : Option (Except PyError TradeLead) :=
  (getProgram programs lead.2.tradeProgramId).map fun program =>
    storedRow (syncTradeLead globalSync program lead.2 (o.responses lead.1) o.now).1

theorem storePass_rowVisits : RowVisits (fun s : TradeLeads × List Push => s.1)
    (storePass globalSync programs o) (passOutcome globalSync programs o) where
  passed lead s h := by
    rw [passOutcome, Option.map_eq_none_iff] at h
    simp only [storePass, h]
  raised lead s e _ h := by
    obtain ⟨program, hprogram, houtcome⟩ := Option.map_eq_some_iff.1 h
    rintro ⟨n, hn⟩
    simp only [storePass, hprogram, storeSync_error houtcome] at hn
    cases hn
  stored lead s new hrow h := by
    obtain ⟨program, hprogram, houtcome⟩ := Option.map_eq_some_iff.1 h
    obtain ⟨t', htable, hcall⟩ := storeSync_ok hrow houtcome
    simp only [storePass, hprogram, hcall]
    exact ⟨⟨_, rfl⟩, htable⟩

omit [ColumnDriver] in
/-- The selected participants are as they are stored, each once. -/
theorem selectedParticipants_ready (globalSync : Bool) (limit : Nat) (s : TradeLeads × List Push) :
    Ready (fun s : TradeLeads × List Push => s.1) (selectedParticipants globalSync s.1 limit) s := by
  cases globalSync with
  | false => exact ⟨List.forall_mem_nil _, List.nodup_nil⟩
  | true => exact ready_select _ _ limit s

/-- `sync_pending_trade` reaches its end with the outcome of every selected participant recorded. -/
def PendingRecorded (globalSync : Bool) (programs : List TradeProgram) (o : SyncOutside)
    (limit : Nat) (s : TradeLeads × List Push) : Prop :=
  Completes (storePendingTrade globalSync programs o limit s) ∧
    ∀ lead ∈ selectedParticipants globalSync s.1 limit, ∀ program,
      getProgram programs lead.2.tradeProgramId = some program →
        (lead.1, (syncTradeLead globalSync program lead.2 (o.responses lead.1) o.now).1) ∈
          (storePendingTrade globalSync programs o limit s).1.1.rows

/-- A sweep over stored participants records the outcome of all that it selects exactly when the sync
of each of them is safe. -/
theorem pendingRecorded_iff (hstorable : ∀ lead ∈ s.1.rows, lead.2.storable = true)
    (hflushed : Flushed s.1) :
    PendingRecorded globalSync programs o limit s ↔
      ∀ lead ∈ selectedParticipants globalSync s.1 limit, ∀ program,
        getProgram programs lead.2.tradeProgramId = some program →
          SyncSafe globalSync program lead.2 (o.responses lead.1) := by
  apply storePass_rowVisits.settled_iff (selectedParticipants_ready globalSync limit s)
  intro lead hlead program new
  have hrow := (selectedParticipants_ready globalSync limit s).1 lead hlead
  exact storedRow_eq_ok_iff (hstorable lead hrow) (hflushed lead hrow)

/-- A pass over a stored row, where the driver has nothing to reject. -/
theorem syncPass_eq_storePass {lead : Participant} (hrow : lead ∈ s.1.rows)
    (hstorable : lead.2.storable = true) (hflush : lead.2.flush = some lead.2)
    (hanswer : (o.responses lead.1).storable = true) :
    syncPass (pushVisit globalSync programs o) lead s = storePass globalSync programs o lead s := by
  cases hprogram : getProgram programs lead.2.tradeProgramId with
  | none => simp only [storePass, syncPass, pushVisit, hprogram, Option.map_none]
  | some program =>
      have hstored : storedRow (syncTradeLead globalSync program lead.2 (o.responses lead.1) o.now).1 =
          .ok (syncTradeLead globalSync program lead.2 (o.responses lead.1) o.now).1 :=
        (storedRow_eq_ok_iff hstorable hflush).2 ⟨fun _ _ => hanswer, rfl⟩
      obtain ⟨_, _, _, _, hframe⟩ :=
        syncTradeLead_frame globalSync program lead.2 (o.responses lead.1) o.now
      obtain ⟨t', hupdate, -⟩ := updateLead_keyed hrow (flush_syncTradeLead hflush)
        (by rw [hframe]) (by rw [hframe])
      simp only [storePass, syncPass, pushVisit, storeSync, syncPushes, hprogram, hstored, hupdate,
        Option.map_some, Except.map]

/-- **The two sweeps agree.** Where every answer can be stored, the sweep is the one that logs what the
CRM has of a participant. -/
theorem pushPendingTrade_eq (limit : Nat) {t : TradeLeads} (log : List Push)
    (hstorable : ∀ lead ∈ t.rows, lead.2.storable = true) (hflushed : Flushed t)
    (hanswers : ∀ id, (o.responses id).storable = true) :
    storePendingTrade globalSync programs o limit (t, log) =
      pushPendingTrade globalSync programs o limit t log := by
  unfold pushPendingTrade storePendingTrade
  cases globalSync with
  | false => rfl
  | true =>
      have hready := selectedParticipants_ready true limit (t, log)
      rw [if_pos rfl]
      -- the rows to come are those that were loaded, as they are stored
      apply sweep_congr (I := fun rs s => (∀ lead ∈ rs, lead ∈ t.rows) ∧
        Ready (fun s : TradeLeads × List Push => s.1) rs s)
      · rintro lead rest s ⟨hloaded, hrows, -⟩
        have hlead := hloaded lead (List.mem_cons_self ..)
        exact (syncPass_eq_storePass (hrows lead (List.mem_cons_self ..)) (hstorable lead hlead)
          (hflushed lead hlead) (hanswers lead.1)).symm
      · rintro lead rest s ⟨hloaded, hrows⟩ hreturns
        exact ⟨(List.forall_mem_cons.1 hloaded).2, storePass_rowVisits.ready hrows hreturns⟩
      · exact ⟨hready.1, hready⟩

end Sweep

end SalesTrades.Trade
