import SalesTrades.Deals.DealRuns
import SalesTrades.Library.Replay

/-!
# Interruptions of the deal sync

`run_deal_sync` with the operations on the client and the database that may raise made explicit: each
of them has a number, and a fault is the exception that the operation of a number raises. The journal
lists the upserts that were executed and those that the last commit made durable. One counter of
upserts runs across views, pipelines and skipped records, and every commit of a view or pipeline comes
between two multiples of the batch size, so that at most the upserts since the last multiple are not
durable (`Accounts`).
-/

set_option autoImplicit false

namespace SalesTrades.Deals

open SalesTrades.Library

variable {ref : Reference} {lib : PyLib}

/-! ## Upserts -/

/-- The part of `_upsert` before the statement is executed: `none` for a record that is skipped. -/
def prepareRecord (ref : Reference) (lib : PyLib) (deal : Json) :
    Except PyError (Option (Int × DealData)) := do
  match deal with
  | .obj members =>
      if ← inIds (activePipelineIds ref) (Json.member members "deal_pipeline_id") then
        let (id, data) ← parseViewDeal lib members
        let data ← popUnknown ref.stageIds data .stageId
        let data ← popUnknown ref.owners data .ownerId
        let dealId ← encodeDealId lib id
        return some (dealId, data)
      else return none
  | _ => .error .attributeError

/-- What an upsert writes, under the id of its deal. -/
abbrev DealUpsert : Type := Upsert Int fun c : DealColumn => c.Value

/-- The upsert of a record; `none` where it is skipped or cannot be read. -/
def recordUpsert (ref : Reference) (lib : PyLib) (deal : Json) : Option DealUpsert :=
  match prepareRecord ref lib deal with
  | .ok (some (id, data)) => some (id, data.encoded lib)
  | _ => none

/-- `_upsert` prepares the record, then executes the statement. -/
theorem upsertRecord_eq (deal : Json) (db : DealDb ref) :
    upsertRecord lib deal db =
      match prepareRecord ref lib deal with
      | .error e => .error e
      | .ok none => .ok none
      | .ok (some (id, data)) => (upsertDeal lib db id data).map some := by
  unfold upsertRecord prepareRecord
  cases deal with
  | obj members =>
      simp only [bind, Except.bind, pure, Except.pure]
      cases inIds (activePipelineIds ref) (Json.member members "deal_pipeline_id") with
      | error e => rfl
      | ok active =>
          cases active with
          | false => rfl
          | true =>
              simp only [if_true]
              cases parseViewDeal lib members with
              | error e => rfl
              | ok parsed =>
                  obtain ⟨id, data⟩ := parsed
                  simp only
                  cases popUnknown ref.stageIds data .stageId with
                  | error e => rfl
                  | ok data =>
                      simp only
                      cases popUnknown ref.owners data .ownerId with
                      | error e => rfl
                      | ok data =>
                          simp only
                          cases encodeDealId lib id with
                          | error e => rfl
                          | ok dealId =>
                              simp only
                              cases upsertDeal lib db dealId data <;> rfl
  | _ => rfl

/-! ## The store behind the snapshot -/

/-- Over a row with valid foreign keys, only those of the data matter. -/
theorem allows_overlay_iff {data row : DealRow} (hrow : ref.Allows row) :
    ref.Allows (PartialRecord.overlay data row) ↔ ref.Allows data := by
  have hcell : ∀ (c : DealColumn) (ok : c.Value → Prop), (∀ v ∈ row c, ok v) →
      ((∀ v ∈ PartialRecord.overlay data row c, ok v) ↔ ∀ v ∈ data c, ok v) := by
    intro c ok hheld
    constructor
    · intro h v hv
      exact h v (PartialRecord.overlay_of_some hv)
    · intro h v hv
      rcases Option.or_eq_some_iff.1 hv with hnew | ⟨-, hold⟩
      · exact h v hnew
      · exact hheld v hold
  exact and_congr (hcell .pipelineId _ hrow.1)
    (and_congr (hcell .stageId _ hrow.2.1) (hcell .ownerId _ hrow.2.2))

/-- Whether an upsert goes through does not depend on what is stored. -/
theorem upsertDeal_error_iff {id : Int} {data : DealData} {e : PyError} (db db' : DealDb ref) :
    upsertDeal lib db id data = .error e ↔ upsertDeal lib db' id data = .error e := by
  unfold upsertDeal
  by_cases henc : data.Encodable lib
  · have hiff : ref.Allows (PartialRecord.overlay (data.encoded lib) (db.rowOrEmpty id)) ↔
        ref.Allows (PartialRecord.overlay (data.encoded lib) (db'.rowOrEmpty id)) :=
      (allows_overlay_iff (db.allows_rowOrEmpty id)).trans
        (allows_overlay_iff (db'.allows_rowOrEmpty id)).symm
    by_cases hfk : ref.Allows (PartialRecord.overlay (data.encoded lib) (db.rowOrEmpty id))
    · simp [henc, hfk, hiff.1 hfk]
    · have hfk' : ¬ ref.Allows
          (PartialRecord.overlay (data.encoded lib) (db'.rowOrEmpty id)) := fun h => hfk (hiff.2 h)
      rw [dif_neg hfk, dif_neg hfk']
  · simp [henc]

/-- An upsert is one of the store. -/
theorem upsertDeal_put {id : Int} {data : DealData} {db db' : DealDb ref}
    (h : upsertDeal lib db id data = .ok db') :
    db'.deals = Replay.put db.deals (id, data.encoded lib) := by
  obtain ⟨-, hrow, hother, -⟩ := upsertDeal_spec h
  funext id'
  rw [Replay.put]
  by_cases hid : id' = id
  · subst hid
    rw [Function.update_self, hrow]
    rfl
  · rw [Function.update_of_ne hid, hother id' hid]

/-! ## The journal -/

/-- What the sync was at when it raised. -/
inductive Operation where
  | reference
  | request
  | record
  | upsert
  | commit
  deriving DecidableEq

structure Raised where
  operation : Operation
  error : PyError
  deriving DecidableEq

/-- The exception of each operation on the client or the database, for those that raise one. -/
abbrev Faults : Type := Nat → Option PyError

/-- The state of a sync with the upserts executed so far, those among them that are committed, and the
number of operations so far. -/
structure SyncJournal (ref : Reference) where
  state : SyncState ref
  executed : List DealUpsert
  durable : List DealUpsert
  operations : Nat

def SyncJournal.start (db : DealDb ref) : SyncJournal ref where
  state := .start db
  executed := []
  durable := []
  operations := 0

/-- Where a sync has got to, and the exception it has ended with. -/
abbrev Progress (ref : Reference) : Type := SyncJournal ref × Option Raised

/-- The next operation: it raises, or the sync goes on. -/
def attempt (faults : Faults) (operation : Operation) (j : SyncJournal ref)
    (goOn : SyncJournal ref → Progress ref) : Progress ref :=
  match faults j.operations with
  | some e => (j, some ⟨operation, e⟩)
  | none => goOn { j with operations := j.operations + 1 }

/-- `session.commit()`. A commit that raises is rolled back. -/
def journalCommit (faults : Faults) (j : SyncJournal ref) : Progress ref :=
  attempt faults .commit j fun j => ({ j with state := j.state.commit, durable := j.executed }, none)

/-- `upsert_deal`, the counter, and the commit of a full batch. -/
def journalUpsert (lib : PyLib) (faults : Faults) (id : Int) (data : DealData)
    (j : SyncJournal ref) : Progress ref :=
  attempt faults .upsert j fun j =>
    match upsertDeal lib j.state.working id data with
    | .error e => (j, some ⟨.upsert, e⟩)
    | .ok db =>
        let j := { j with
          state := { j.state with working := db, synced := j.state.synced + 1 }
          executed := j.executed ++ [(id, data.encoded lib)] }
        if j.state.synced % commitBatchSize = 0 then journalCommit faults j else (j, none)

/-- One round of a loop over records. -/
def journalRecord (lib : PyLib) (faults : Faults) (j : SyncJournal ref) : Yielded → Progress ref
  | .error e => (j, some ⟨.request, e⟩)
  | .ok deal =>
      attempt faults .request j fun j =>
        match prepareRecord ref lib deal with
        | .error e => (j, some ⟨.record, e⟩)
        | .ok none => ({ j with state := { j.state with skipped := j.state.skipped + 1 } }, none)
        | .ok (some (id, data)) => journalUpsert lib faults id data j

/-- The loop over one view or pipeline: the request that finds it at its end, and the commit. -/
def journalStream (lib : PyLib) (faults : Faults) :
    List Yielded → SyncJournal ref → Progress ref
  | [], j => attempt faults .request j (journalCommit faults)
  | item :: rest, j =>
      match journalRecord lib faults j item with
      | (j', none) => journalStream lib faults rest j'
      | (j', some raised) => (j', some raised)

def journalStreams (lib : PyLib) (faults : Faults) :
    List (List Yielded) → SyncJournal ref → Progress ref
  | [], j => (j, none)
  | stream :: rest, j =>
      match journalStream lib faults stream j with
      | (j', none) => journalStreams lib faults rest j'
      | (j', some raised) => (j', some raised)

/-- `run_deal_sync` under the faults. -/
def interruptedDealSync (lib : PyLib) (viewIds : List Int) (feed : Feed) (faults : Faults)
    (db : DealDb ref) : Progress ref :=
  attempt faults .reference (.start db) (journalStreams lib faults (feedStreams ref viewIds feed))

/-! ## What is not durable -/

section Accounting

variable {db : DealDb ref} {faults : Faults} {j : SyncJournal ref}

/-- The journal says what the databases hold. -/
structure Replays (db : DealDb ref) (j : SyncJournal ref) : Prop where
  working : j.state.working.deals = Replay.replay j.executed db.deals
  committed : j.state.committed.deals = Replay.replay j.durable db.deals
  durable : j.durable <+: j.executed
  synced : j.state.synced = j.executed.length

/-- At most `n` of the executed upserts are not durable. -/
def OpenAtMost (n : Nat) (j : SyncJournal ref) : Prop :=
  j.executed.length ≤ j.durable.length + n

/-- Between two operations, the upserts since the last full batch are all that may not be durable. -/
structure Accounts (db : DealDb ref) (j : SyncJournal ref) : Prop extends Replays db j where
  batch : OpenAtMost (j.state.synced % commitBatchSize) j

/-- The most that may not be durable where a sync stands. -/
def openLimit (j : SyncJournal ref) : Option Raised → Nat
  | none => j.state.synced % commitBatchSize
  | some raised => if raised.operation = .commit then commitBatchSize else commitBatchSize - 1

/-- A sync that had executed `before` goes on to execute `wanted`, or raises on the way. -/
structure GoesOn (db : DealDb ref) (before wanted : List DealUpsert) (p : Progress ref) : Prop where
  executed : ∃ part, part <+: wanted ∧ p.1.executed = before ++ part ∧ (p.2 = none → part = wanted)
  replays : Replays db p.1
  limit : OpenAtMost (openLimit p.1 p.2) p.1

theorem accounts_start (db : DealDb ref) : Accounts db (.start db) where
  working := rfl
  committed := rfl
  durable := List.prefix_rfl
  synced := rfl
  batch := Nat.zero_le _

theorem synced_mod_le (j : SyncJournal ref) :
    j.state.synced % commitBatchSize ≤ commitBatchSize - 1 := by
  have hlt : j.state.synced % commitBatchSize < commitBatchSize := Nat.mod_lt _ (by decide)
  omega

/-- Where nothing is executed any more and no exception is raised, the sync stands as it did. -/
theorem Accounts.rests (h : Accounts db j) : GoesOn db j.executed [] (j, none) where
  executed := ⟨[], List.prefix_rfl, (List.append_nil _).symm, fun _ => rfl⟩
  replays := h.toReplays
  limit := h.batch

/-- An exception leaves at most the open batch. -/
theorem Accounts.raises (h : Accounts db j) (wanted : List DealUpsert) (raised : Raised) :
    GoesOn db j.executed wanted (j, some raised) where
  executed := by
    refine ⟨[], List.nil_prefix, (List.append_nil _).symm, ?_⟩
    intro hnone
    cases hnone
  replays := h.toReplays
  limit := by
    have hbatch := h.batch
    have hmod := synced_mod_le j
    have hsize : commitBatchSize = 25 := rfl
    unfold OpenAtMost at hbatch
    show j.executed.length ≤ j.durable.length +
      if raised.operation = .commit then commitBatchSize else commitBatchSize - 1
    split <;> omega

theorem Accounts.attempt (h : Accounts db j) {wanted : List DealUpsert} (operation : Operation)
    {goOn : SyncJournal ref → Progress ref}
    (hgo : ∀ j', Accounts db j' → j'.executed = j.executed →
      GoesOn db j'.executed wanted (goOn j')) :
    GoesOn db j.executed wanted (attempt faults operation j goOn) := by
  unfold Deals.attempt
  cases faults j.operations with
  | some e => exact h.raises wanted ⟨operation, e⟩
  | none =>
      have hcounted : Accounts db { j with operations := j.operations + 1 } :=
        ⟨⟨h.working, h.committed, h.durable, h.synced⟩, h.batch⟩
      exact hgo _ hcounted rfl

/-- A commit closes a full batch, or raises and leaves it. -/
theorem Replays.commit (h : Replays db j) (hopen : OpenAtMost commitBatchSize j) :
    GoesOn db j.executed [] (journalCommit faults j) := by
  unfold journalCommit Deals.attempt
  cases faults j.operations with
  | some e =>
      refine ⟨⟨[], List.prefix_rfl, (List.append_nil _).symm, fun _ => rfl⟩, h, ?_⟩
      exact hopen
  | none =>
      refine ⟨⟨[], List.prefix_rfl, (List.append_nil _).symm, fun _ => rfl⟩, ?_, ?_⟩
      · exact ⟨h.working, h.working, List.prefix_rfl, h.synced⟩
      · exact Nat.le_add_right _ _

theorem GoesOn.andThen {before wanted wanted' : List DealUpsert} {p : Progress ref}
    (h : GoesOn db before wanted (j, none)) (h' : GoesOn db j.executed wanted' p) :
    GoesOn db before (wanted ++ wanted') p where
  executed := by
    obtain ⟨part, -, hexec, hall⟩ := h.executed
    obtain ⟨part', hpart', hexec', hall'⟩ := h'.executed
    have hwanted : part = wanted := hall rfl
    refine ⟨wanted ++ part', (List.prefix_append_right_inj _).2 hpart', ?_, ?_⟩
    · rw [hexec', hexec, hwanted, List.append_assoc]
    · intro hnone
      rw [hall' hnone]
  replays := h'.replays
  limit := h'.limit

theorem GoesOn.raised {before wanted wanted' : List DealUpsert} {raised : Raised}
    (h : GoesOn db before wanted (j, some raised)) :
    GoesOn db before (wanted ++ wanted') (j, some raised) where
  executed := by
    obtain ⟨part, hpart, hexec, -⟩ := h.executed
    refine ⟨part, hpart.trans (List.prefix_append _ _), hexec, ?_⟩
    intro hnone
    cases hnone
  replays := h.replays
  limit := h.limit

theorem GoesOn.accounts {before wanted : List DealUpsert} (h : GoesOn db before wanted (j, none)) :
    Accounts db j :=
  ⟨h.replays, h.limit⟩

/-- **Step.** One more upsert, with the commit if it fills a batch. -/
theorem Accounts.upsert (h : Accounts db j) (id : Int) (data : DealData) :
    GoesOn db j.executed [(id, data.encoded lib)] (journalUpsert lib faults id data j) := by
  apply h.attempt
  intro j' hj' _
  cases hupsert : upsertDeal lib j'.state.working id data with
  | error e => exact hj'.raises _ ⟨.upsert, e⟩
  | ok after =>
      have hbatch := hj'.batch
      have hsize : commitBatchSize = 25 := rfl
      -- the journal with the upsert in it
      let k : SyncJournal ref := { j' with
        state := { j'.state with working := after, synced := j'.state.synced + 1 }
        executed := j'.executed ++ [(id, data.encoded lib)] }
      have hk : Replays db k := by
        refine ⟨?_, hj'.committed, hj'.durable.trans (List.prefix_append _ _), ?_⟩
        · show after.deals = _
          rw [upsertDeal_put hupsert, Replay.replay_append, ← hj'.working]
          rfl
        · show j'.state.synced + 1 = _
          rw [List.length_append, hj'.synced]
          rfl
      have hlength : k.executed.length = j'.executed.length + 1 := by
        simp [k]
      have hadded : ∀ {p : Progress ref}, GoesOn db k.executed [] p →
          GoesOn db j'.executed [(id, data.encoded lib)] p := by
        intro p hp
        obtain ⟨part, hpart, hexec, -⟩ := hp.executed
        refine ⟨⟨_, List.prefix_rfl, ?_, fun _ => rfl⟩, hp.replays, hp.limit⟩
        rw [hexec, List.prefix_nil.1 hpart, List.append_nil]
      have hopen : OpenAtMost (j'.state.synced % commitBatchSize + 1) k := by
        unfold OpenAtMost at *
        rw [hlength]
        show _ ≤ j'.durable.length + _
        omega
      simp only
      split
      · rename_i hfull
        apply hadded
        apply hk.commit
        have hmod := synced_mod_le j'
        unfold OpenAtMost at *
        omega
      · rename_i hpartial
        apply hadded
        refine Accounts.rests ⟨hk, ?_⟩
        -- no multiple of the batch size lies between the two counts
        have hnext : (j'.state.synced + 1) % commitBatchSize =
            j'.state.synced % commitBatchSize + 1 := by
          simp only [hsize] at hpartial ⊢
          omega
        show OpenAtMost ((j'.state.synced + 1) % commitBatchSize) k
        rw [hnext]
        exact hopen

/-- The upsert of an item of the feed, if it has one. -/
def itemUpsert (ref : Reference) (lib : PyLib) : Yielded → Option DealUpsert
  | .ok deal => recordUpsert ref lib deal
  | .error _ => none

theorem Accounts.record (h : Accounts db j) (item : Yielded) :
    GoesOn db j.executed (itemUpsert ref lib item).toList (journalRecord lib faults j item) := by
  cases item with
  | error e => exact h.raises _ ⟨.request, e⟩
  | ok deal =>
      rw [journalRecord, itemUpsert, recordUpsert]
      apply h.attempt
      intro j' hj' _
      cases prepareRecord ref lib deal with
      | error e => exact hj'.raises _ ⟨.record, e⟩
      | ok prepared =>
          cases prepared with
          | none =>
              -- a skipped record counts for itself only
              have hskipped : Accounts db
                  { j' with state := { j'.state with skipped := j'.state.skipped + 1 } } :=
                ⟨⟨hj'.working, hj'.committed, hj'.durable, hj'.synced⟩, hj'.batch⟩
              exact hskipped.rests
          | some parts => exact hj'.upsert parts.1 parts.2

theorem Accounts.stream (h : Accounts db j) (stream : List Yielded) :
    GoesOn db j.executed (stream.filterMap (itemUpsert ref lib))
      (journalStream lib faults stream j) := by
  induction stream generalizing j with
  | nil =>
      apply h.attempt
      intro j' hj' _
      apply hj'.commit
      have hbatch := hj'.batch
      have hmod := synced_mod_le j'
      unfold OpenAtMost at *
      omega
  | cons item rest ih =>
      have hsplit : (item :: rest).filterMap (itemUpsert ref lib) =
          (itemUpsert ref lib item).toList ++ rest.filterMap (itemUpsert ref lib) := by
        cases hitem : itemUpsert ref lib item <;> simp [hitem]
      have hrecord : GoesOn db j.executed (itemUpsert ref lib item).toList
          (journalRecord lib faults j item) := h.record item
      rw [journalStream, hsplit]
      cases hrun : journalRecord lib faults j item with
      | mk j' raised =>
          rw [hrun] at hrecord
          cases raised with
          | some raised => exact hrecord.raised
          | none => exact hrecord.andThen (ih hrecord.accounts)

/-- **Run.** The streams one after another. -/
theorem Accounts.streams (h : Accounts db j) (streams : List (List Yielded)) :
    GoesOn db j.executed (streams.flatten.filterMap (itemUpsert ref lib))
      (journalStreams lib faults streams j) := by
  induction streams generalizing j with
  | nil => exact h.rests
  | cons stream rest ih =>
      have hstream : GoesOn db j.executed (stream.filterMap (itemUpsert ref lib))
          (journalStream lib faults stream j) := h.stream stream
      rw [journalStreams, List.flatten_cons, List.filterMap_append]
      cases hrun : journalStream lib faults stream j with
      | mk j' raised =>
          rw [hrun] at hstream
          cases raised with
          | some raised => exact hstream.raised
          | none => exact hstream.andThen (ih hstream.accounts)

end Accounting

/-- The upserts of a whole run, in order. -/
def plannedUpserts (ref : Reference) (lib : PyLib) (viewIds : List Int) (feed : Feed) :
    List DealUpsert :=
  (feedStreams ref viewIds feed).flatten.filterMap (itemUpsert ref lib)

theorem interruptedDealSync_goesOn (viewIds : List Int) (feed : Feed) (faults : Faults)
    (db : DealDb ref) :
    GoesOn db [] (plannedUpserts ref lib viewIds feed)
      (interruptedDealSync lib viewIds feed faults db) := by
  apply (accounts_start db).attempt
  intro j hj _
  exact hj.streams _

/-! ## Without faults -/

section Uninterrupted

/-- No operation raises. -/
def noFaults : Faults := fun _ => none

theorem journalRecord_noFaults (lib : PyLib) (j : SyncJournal ref) (item : Yielded) :
    match syncRecord lib j.state item with
    | .ok st => (journalRecord lib noFaults j item).1.state = st ∧
        (journalRecord lib noFaults j item).2 = none
    | .error e => (journalRecord lib noFaults j item).1.state = j.state ∧
        (journalRecord lib noFaults j item).2.map Raised.error = some e := by
  cases item with
  | error e => exact ⟨rfl, rfl⟩
  | ok deal =>
      simp only [syncRecord, upsertRecord_eq, journalRecord, attempt, noFaults]
      cases prepareRecord ref lib deal with
      | error e => exact ⟨rfl, rfl⟩
      | ok prepared =>
          cases prepared with
          | none => exact ⟨rfl, rfl⟩
          | some parts =>
              simp only [journalUpsert, attempt]
              cases upsertDeal lib j.state.working parts.1 parts.2 with
              | error e => exact ⟨rfl, rfl⟩
              | ok after =>
                  simp only [Except.map, bind, Except.bind, pure, Except.pure]
                  by_cases hfull : (j.state.synced + 1) % commitBatchSize = 0
                  · rw [if_pos hfull, if_pos hfull]
                    exact ⟨rfl, rfl⟩
                  · rw [if_neg hfull, if_neg hfull]
                    exact ⟨rfl, rfl⟩

theorem journalStream_noFaults (lib : PyLib) (stream : List Yielded) (j : SyncJournal ref) :
    (journalStream lib noFaults stream j).1.state = (syncStream lib stream j.state).1 ∧
      (journalStream lib noFaults stream j).2.map Raised.error =
        (syncStream lib stream j.state).2 := by
  induction stream generalizing j with
  | nil => exact ⟨rfl, rfl⟩
  | cons item rest ih =>
      have hrecord := journalRecord_noFaults lib j item
      rw [journalStream, syncStream]
      cases hsync : syncRecord lib j.state item with
      | error e =>
          rw [hsync] at hrecord
          obtain ⟨hstate, hraised⟩ := hrecord
          cases hrun : journalRecord lib noFaults j item with
          | mk j' raised =>
              rw [hrun] at hstate hraised
              cases raised with
              | none => cases hraised
              | some raised => exact ⟨hstate, hraised⟩
      | ok st =>
          rw [hsync] at hrecord
          obtain ⟨hstate, hraised⟩ := hrecord
          cases hrun : journalRecord lib noFaults j item with
          | mk j' raised =>
              rw [hrun] at hstate hraised
              cases hraised
              obtain rfl : j'.state = st := hstate
              exact ih j'

theorem journalStreams_noFaults (lib : PyLib) (streams : List (List Yielded)) (j : SyncJournal ref) :
    (journalStreams lib noFaults streams j).1.state = (syncStreams lib streams j.state).1 ∧
      (journalStreams lib noFaults streams j).2.map Raised.error =
        (syncStreams lib streams j.state).2 := by
  induction streams generalizing j with
  | nil => exact ⟨rfl, rfl⟩
  | cons stream rest ih =>
      have hstream : (journalStream lib noFaults stream j).1.state =
            (syncStream lib stream j.state).1 ∧
          (journalStream lib noFaults stream j).2.map Raised.error =
            (syncStream lib stream j.state).2 := journalStream_noFaults lib stream j
      rw [journalStreams, syncStreams]
      cases hrun : journalStream lib noFaults stream j with
      | mk j' raised =>
          cases hsync : syncStream lib stream j.state with
          | mk st e =>
              rw [hrun, hsync] at hstream
              obtain ⟨hstate, hraised⟩ := hstream
              obtain rfl : j'.state = st := hstate
              obtain rfl : raised.map Raised.error = e := hraised
              cases raised with
              | none => exact ih j'
              | some raised => exact ⟨rfl, rfl⟩

/-- **Refinement.** The journal of a sync without faults is a journal of `run_deal_sync`. -/
theorem interruptedDealSync_noFaults (viewIds : List Int) (feed : Feed) (db : DealDb ref) :
    (interruptedDealSync lib viewIds feed noFaults db).1.state.committed =
        (runDealSync lib viewIds feed db).1 ∧
      (interruptedDealSync lib viewIds feed noFaults db).2.map Raised.error =
        (runDealSync lib viewIds feed db).2 := by
  obtain ⟨hstate, hraised⟩ := journalStreams_noFaults lib (feedStreams ref viewIds feed)
    { SyncJournal.start db with operations := 1 }
  exact ⟨congrArg SyncState.committed hstate, hraised⟩

/-- A sync that does not raise plays all its upserts over the snapshot. -/
theorem runDealSync_deals {viewIds : List Int} {feed : Feed} {db : DealDb ref}
    (h : (runDealSync lib viewIds feed db).2 = none) :
    (runDealSync lib viewIds feed db).1.deals =
      Replay.replay (plannedUpserts ref lib viewIds feed) db.deals := by
  obtain ⟨hstate, hraised⟩ := journalStreams_noFaults lib (feedStreams ref viewIds feed)
    { SyncJournal.start db with operations := 1 }
  have hgoes : GoesOn db [] (plannedUpserts ref lib viewIds feed)
      (interruptedDealSync lib viewIds feed noFaults db) :=
    interruptedDealSync_goesOn viewIds feed noFaults db
  have hnone : (interruptedDealSync lib viewIds feed noFaults db).2 = none := by
    have hmap := hraised.trans h
    rw [Option.map_eq_none_iff] at hmap
    exact hmap
  obtain ⟨part, -, hexec, hall⟩ := hgoes.executed
  have hcommitted : (syncStreams lib (feedStreams ref viewIds feed) (.start db)).1.committed =
      (syncStreams lib (feedStreams ref viewIds feed) (.start db)).1.working :=
    syncStreams_committed (feedStreams ref viewIds feed) (.start db) rfl h
  have hworking := hgoes.replays.working
  rw [hexec, hall hnone, List.nil_append] at hworking
  rw [← hworking]
  have hsame : (interruptedDealSync lib viewIds feed noFaults db).1.state.working =
      (syncStreams lib (feedStreams ref viewIds feed) (.start db)).1.working :=
    congrArg SyncState.working hstate
  rw [hsame, ← hcommitted]
  rfl

end Uninterrupted

/-! ## Running again -/

section Again

variable {viewIds : List Int} {feed : Feed}

theorem upsertRecord_error_iff {deal : Json} {e : PyError} (db db' : DealDb ref) :
    upsertRecord lib deal db = .error e ↔ upsertRecord lib deal db' = .error e := by
  rw [upsertRecord_eq, upsertRecord_eq]
  cases prepareRecord ref lib deal with
  | error e' => exact Iff.rfl
  | ok prepared =>
      cases prepared with
      | none => exact Iff.rfl
      | some parts =>
          have hiff : ∀ e', upsertDeal lib db parts.1 parts.2 = .error e' ↔
              upsertDeal lib db' parts.1 parts.2 = .error e' :=
            fun e' => upsertDeal_error_iff db db'
          cases h : upsertDeal lib db parts.1 parts.2 with
          | error e' => simp [h, (hiff e').1 h, Except.map]
          | ok after =>
              cases h' : upsertDeal lib db' parts.1 parts.2 with
              | error e' =>
                  rw [(hiff e').2 h'] at h
                  cases h
              | ok after' => simp [h, h', Except.map]

/-- A record raises or does not whatever the database holds. -/
theorem syncRecord_error_iff {item : Yielded} {e : PyError} (st st' : SyncState ref) :
    syncRecord lib st item = .error e ↔ syncRecord lib st' item = .error e := by
  have honly : ∀ st : SyncState ref, syncRecord lib st item = .error e ↔
      item = .error e ∨ ∃ deal, item = .ok deal ∧ upsertRecord lib deal st.working = .error e := by
    intro st
    cases item with
    | error e' => simp [syncRecord]
    | ok deal =>
        simp only [syncRecord, bind, Except.bind, pure, Except.pure]
        cases hupsert : upsertRecord lib deal st.working with
        | error e' => simp [hupsert]
        | ok next =>
            cases next with
            | none => simp [hupsert]
            | some after =>
                by_cases hfull : (st.synced + 1) % commitBatchSize = 0
                · simp [hupsert, hfull]
                · simp [hupsert, hfull]
  rw [honly st, honly st']
  apply or_congr_right
  constructor
  · rintro ⟨deal, hdeal, h⟩
    exact ⟨deal, hdeal, (upsertRecord_error_iff _ _).1 h⟩
  · rintro ⟨deal, hdeal, h⟩
    exact ⟨deal, hdeal, (upsertRecord_error_iff _ _).1 h⟩

theorem syncStream_raises (stream : List Yielded) (st st' : SyncState ref) :
    (syncStream lib stream st).2 = (syncStream lib stream st').2 := by
  induction stream generalizing st st' with
  | nil => rfl
  | cons item rest ih =>
      rw [syncStream, syncStream]
      cases h : syncRecord lib st item with
      | error e => rw [(syncRecord_error_iff st st').1 h]
      | ok next =>
          cases h' : syncRecord lib st' item with
          | error e =>
              rw [(syncRecord_error_iff st' st).1 h'] at h
              cases h
          | ok next' => exact ih next next'

theorem syncStreams_raises (streams : List (List Yielded)) (st st' : SyncState ref) :
    (syncStreams lib streams st).2 = (syncStreams lib streams st').2 := by
  induction streams generalizing st st' with
  | nil => rfl
  | cons stream rest ih =>
      have hsame : (syncStream lib stream st).2 = (syncStream lib stream st').2 :=
        syncStream_raises stream st st'
      rw [syncStreams, syncStreams]
      cases h : syncStream lib stream st with
      | mk next raised =>
          cases h' : syncStream lib stream st' with
          | mk next' raised' =>
              rw [h, h'] at hsame
              obtain rfl : raised = raised' := hsame
              cases raised with
              | none => exact ih next next'
              | some e => rfl

/-- What interrupted syncs, one after the other, leave behind. -/
def afterAttempts (lib : PyLib) (viewIds : List Int) (feed : Feed) (attempts : List Faults)
    (db : DealDb ref) : DealDb ref :=
  attempts.foldl
    (fun db faults => (interruptedDealSync lib viewIds feed faults db).1.state.committed) db

/-- Interrupted syncs have played nothing but upserts of the plan. -/
theorem afterAttempts_replays (attempts : List Faults) (db : DealDb ref) :
    ∃ log, (∀ op ∈ log, op ∈ plannedUpserts ref lib viewIds feed) ∧
      (afterAttempts lib viewIds feed attempts db).deals = Replay.replay log db.deals := by
  induction attempts generalizing db with
  | nil =>
      refine ⟨[], ?_, rfl⟩
      intro op hop
      cases hop
  | cons faults rest ih =>
      have hgoes : GoesOn db [] (plannedUpserts ref lib viewIds feed)
          (interruptedDealSync lib viewIds feed faults db) :=
        interruptedDealSync_goesOn viewIds feed faults db
      obtain ⟨part, hpart, hexec, -⟩ := hgoes.executed
      rw [List.nil_append] at hexec
      obtain ⟨log, hlog, hrest⟩ := ih (interruptedDealSync lib viewIds feed faults db).1.state.committed
      refine ⟨(interruptedDealSync lib viewIds feed faults db).1.durable ++ log, ?_, ?_⟩
      · intro op hop
        rcases List.mem_append.1 hop with hdone | hop
        · have hin := hgoes.replays.durable.subset hdone
          rw [hexec] at hin
          exact hpart.subset hin
        · exact hlog op hop
      · rw [Replay.replay_append, ← hgoes.replays.committed]
        exact hrest

/-- **At most one batch.** Wherever a sync raises, the committed upserts are the first of those that
were executed, and at most 24 of them are lost, or 25 if it is a commit that raises. A sync that is
run again after any number of interruptions ends like one that was never interrupted. -/
theorem deal_sync_loses_one_batch (lib : PyLib) (viewIds : List Int) (feed : Feed)
    (db : DealDb ref) :
    (∀ faults j raised, interruptedDealSync lib viewIds feed faults db = (j, some raised) →
      j.executed <+: plannedUpserts ref lib viewIds feed ∧
      j.durable <+: j.executed ∧
      j.state.committed.deals = Replay.replay j.durable db.deals ∧
      j.executed.length ≤ j.durable.length + if raised.operation = .commit then 25 else 24) ∧
    ∀ attempts,
      (runDealSync lib viewIds feed (afterAttempts lib viewIds feed attempts db)).2 =
          (runDealSync lib viewIds feed db).2 ∧
        ((runDealSync lib viewIds feed db).2 = none →
          (runDealSync lib viewIds feed (afterAttempts lib viewIds feed attempts db)).1.deals =
            (runDealSync lib viewIds feed db).1.deals) := by
  constructor
  · intro faults j raised hrun
    have hgoes : GoesOn db [] (plannedUpserts ref lib viewIds feed)
        (interruptedDealSync lib viewIds feed faults db) :=
      interruptedDealSync_goesOn viewIds feed faults db
    rw [hrun] at hgoes
    obtain ⟨part, hpart, hexec, -⟩ := hgoes.executed
    rw [List.nil_append] at hexec
    refine ⟨?_, hgoes.replays.durable, hgoes.replays.committed, hgoes.limit⟩
    exact hexec ▸ hpart
  · intro attempts
    have hraises : (runDealSync lib viewIds feed (afterAttempts lib viewIds feed attempts db)).2 =
        (runDealSync lib viewIds feed db).2 := syncStreams_raises _ _ _
    refine ⟨hraises, ?_⟩
    intro hnone
    obtain ⟨log, hlog, hdeals⟩ :
        ∃ log, (∀ op ∈ log, op ∈ plannedUpserts ref lib viewIds feed) ∧
          (afterAttempts lib viewIds feed attempts db).deals = Replay.replay log db.deals :=
      afterAttempts_replays attempts db
    rw [runDealSync_deals (hraises.trans hnone), runDealSync_deals hnone, hdeals,
      Replay.replay_absorbs hlog]

/-- The commit after the first view raises. -/
def firstCommitFails : Faults := fun n => if n = 4 then some .integrityError else none

theorem first_view_lost :
    (interruptedDealSync plainLib [1] (sampleFeed 1 12) firstCommitFails
        (DealDb.empty sampleRef)).1.executed.length = 1 ∧
      (interruptedDealSync plainLib [1] (sampleFeed 1 12) firstCommitFails
        (DealDb.empty sampleRef)).1.durable.length = 0 ∧
      (interruptedDealSync plainLib [1] (sampleFeed 1 12) firstCommitFails
          (DealDb.empty sampleRef)).1.executed.length ≤
        (interruptedDealSync plainLib [1] (sampleFeed 1 12) firstCommitFails
          (DealDb.empty sampleRef)).1.durable.length + 25 ∧
      (runDealSync plainLib [1] (sampleFeed 1 12) (afterAttempts plainLib [1] (sampleFeed 1 12)
          [firstCommitFails] (DealDb.empty sampleRef))).1.deals =
        (runDealSync plainLib [1] (sampleFeed 1 12) (DealDb.empty sampleRef)).1.deals := by
  have hraised : (interruptedDealSync plainLib [1] (sampleFeed 1 12) firstCommitFails
      (DealDb.empty sampleRef)).2 = some ⟨.commit, .integrityError⟩ := by decide
  obtain ⟨hlost, hagain⟩ :=
    deal_sync_loses_one_batch plainLib [1] (sampleFeed 1 12) (DealDb.empty sampleRef)
  obtain ⟨-, -, -, hlimit⟩ := hlost firstCommitFails _ _ (Prod.ext rfl hraised)
  refine ⟨by decide, by decide, hlimit, (hagain [firstCommitFails]).2 (by decide)⟩

end Again

end SalesTrades.Deals
