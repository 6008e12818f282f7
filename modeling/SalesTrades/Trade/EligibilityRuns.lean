import SalesTrades.Trade.DocumentFrame

/-!
# Sequences of uploads

What successful calls of `submit_document`, one after the other, make of the participants of a
registration. The rows follow the calls (`Follows`): the status is the roll-up of the keys uploaded so
far, and the time of submission that of the first call that reached it. The order of the calls and
repeated uploads therefore do not matter, and nothing is taken back (`eligibility_follows_uploads`).
-/

set_option autoImplicit false

namespace SalesTrades.Trade

open SalesTrades.Library SalesTrades.Library.Run

variable {program : TradeProgram} {configured : Bool} {registrationId : String}

/-! ## Calls -/

/-- One call of `submit_document` and what it meets. -/
structure DocumentCall where
  args : DocumentArgs
  outside : SubmitOutside

/-- A call that succeeds. -/
def uploadStep [ColumnDriver] (configured : Bool) (program : TradeProgram) (call : DocumentCall)
    (w : DocumentWorld) : Option DocumentWorld :=
  match submitDocument configured program call.args call.outside w with
  | (w', .ok _) => some w'
  | (_, .error _) => none

/-- The keys that the calls have uploaded for the registration. -/
def uploadedKeys (registrationId : String) (calls : List DocumentCall) : Finset String :=
  ((calls.filter fun call => call.args.registrationId == registrationId).map
    fun call => call.args.documentKey).toFinset

theorem mem_uploadedKeys {calls : List DocumentCall} {key : String} :
    key ∈ uploadedKeys registrationId calls ↔
      ∃ call ∈ calls, call.args.registrationId = registrationId ∧ call.args.documentKey = key := by
  simp [uploadedKeys, and_assoc]

/-- More calls have uploaded at least as much. -/
theorem uploadedKeys_subset (calls later : List DocumentCall) :
    uploadedKeys registrationId calls ⊆ uploadedKeys registrationId (calls ++ later) := by
  intro key hkey
  obtain ⟨call, hcall, hmade⟩ := mem_uploadedKeys.1 hkey
  exact mem_uploadedKeys.2 ⟨call, List.mem_append_left _ hcall, hmade⟩

/-- A call for another registration uploads nothing for this one. -/
theorem uploadedKeys_other {calls : List DocumentCall} {call : DocumentCall}
    (h : call.args.registrationId ≠ registrationId) :
    uploadedKeys registrationId (calls ++ [call]) = uploadedKeys registrationId calls := by
  ext key
  rw [mem_uploadedKeys, mem_uploadedKeys]
  simp [or_and_right, exists_or, h]

/-- The roll-up of the calls. -/
def statusAfter (program : TradeProgram) (registrationId : String) (calls : List DocumentCall) :
    EligibilityStatus :=
  computeEligibilityStatus (uploadedKeys registrationId calls) program

/-- The clock of the first call for the registration after which all that is required is in; `before`
are the calls that came earlier. -/
def firstSubmitted (program : TradeProgram) (registrationId : String) :
    List DocumentCall → List DocumentCall → Option Int
  | _, [] => none
  | before, call :: rest =>
      if call.args.registrationId = registrationId ∧
          statusAfter program registrationId (before ++ [call]) = .submitted then
        some call.outside.now
      else firstSubmitted program registrationId (before ++ [call]) rest

theorem firstSubmitted_concat (before calls : List DocumentCall) (call : DocumentCall) :
    firstSubmitted program registrationId before (calls ++ [call]) =
      (firstSubmitted program registrationId before calls).or
        (if call.args.registrationId = registrationId ∧
            statusAfter program registrationId (before ++ calls ++ [call]) = .submitted then
          some call.outside.now
        else none) := by
  induction calls generalizing before with
  | nil => simp [firstSubmitted]
  | cons head rest ih =>
      rw [List.cons_append, firstSubmitted, firstSubmitted]
      split
      · rfl
      · rw [ih, List.append_assoc before [head] rest]
        rfl

/-! ## The status -/

/-- Submitted is what has all required documents, or any where none is required. -/
theorem statusAfter_eq_submitted_iff {calls : List DocumentCall} :
    statusAfter program registrationId calls = .submitted ↔
      (requiredKeys program ≠ ∅ ∧ requiredKeys program ⊆ uploadedKeys registrationId calls) ∨
        (requiredKeys program = ∅ ∧ uploadedKeys registrationId calls ≠ ∅) := by
  rw [statusAfter, computeEligibilityStatus_eq]
  by_cases hempty : uploadedKeys registrationId calls = ∅
  · simp [hempty]
  · rw [if_neg hempty]
    by_cases hrequired : requiredKeys program = ∅
    · simp [hrequired, hempty]
    · by_cases hsub : requiredKeys program ⊆ uploadedKeys registrationId calls
      · simp [hrequired, hsub]
      · simp [hrequired, hsub]

theorem rank_statusAfter_le (calls later : List DocumentCall) :
    (statusAfter program registrationId calls).rank ≤
      (statusAfter program registrationId (calls ++ later)).rank :=
  rank_compute_le (uploadedKeys_subset calls later)

/-- Once submitted, a registration stays so. -/
theorem statusAfter_submitted_append {calls : List DocumentCall} (later : List DocumentCall)
    (h : statusAfter program registrationId calls = .submitted) :
    statusAfter program registrationId (calls ++ later) = .submitted := by
  rw [statusAfter_eq_submitted_iff] at h ⊢
  have hsub : uploadedKeys registrationId calls ⊆ uploadedKeys registrationId (calls ++ later) :=
    uploadedKeys_subset calls later
  rcases h with ⟨hrequired, hin⟩ | ⟨hrequired, hsome⟩
  · exact Or.inl ⟨hrequired, hin.trans hsub⟩
  · refine Or.inr ⟨hrequired, ?_⟩
    intro hnone
    rw [hnone, Finset.subset_empty] at hsub
    exact hsome hsub

/-! ## The rows follow the calls -/

section Following

variable [ColumnDriver]

/-- A registration that no document has been uploaded for. -/
structure NothingUploaded (registrationId : String) (w : DocumentWorld) : Prop where
  documents : presentKeys w.documents registrationId = ∅
  status : ∀ q ∈ w.leads.rows, q.2.registrationId = registrationId →
    q.2.eligibilityStatus = .notRequested ∧ q.2.eligibilitySubmittedAt = none
  flushed : Flushed w.leads

/-- A participant after the calls. -/
def afterCalls (program : TradeProgram) (registrationId : String) (calls : List DocumentCall)
    (lead : TradeLead) : TradeLead :=
  { lead with
    eligibilityStatus := statusAfter program registrationId calls
    eligibilitySubmittedAt := firstSubmitted program registrationId [] calls }

/-- The documents and the participants of the registration, after calls from `start`. -/
structure Follows (program : TradeProgram) (registrationId : String) (start : DocumentWorld)
    (calls : List DocumentCall) (w : DocumentWorld) : Prop where
  keys : presentKeys w.documents registrationId = uploadedKeys registrationId calls
  rows : ∀ q, (q ∈ w.leads.rows ∧ q.2.registrationId = registrationId) ↔
    ∃ p ∈ start.leads.rows, p.2.registrationId = registrationId ∧
      q = (p.1, afterCalls program registrationId calls p.2)
  flushed : Flushed w.leads

variable {start w w' : DocumentWorld} {calls : List DocumentCall} {call : DocumentCall}

theorem follows_start (h : NothingUploaded registrationId start) :
    Follows program registrationId start [] start where
  keys := by
    rw [h.documents]
    rfl
  rows := by
    have hsame : ∀ p ∈ start.leads.rows, p.2.registrationId = registrationId →
        afterCalls program registrationId [] p.2 = p.2 := by
      intro p hp hreg
      obtain ⟨hstatus, hnone⟩ := h.status p hp hreg
      have hempty : statusAfter program registrationId [] = .notRequested :=
        computeEligibilityStatus_eq_notRequested_iff.2 rfl
      rw [afterCalls, hempty, firstSubmitted, ← hstatus, ← hnone]
    intro q
    constructor
    · rintro ⟨hq, hreg⟩
      exact ⟨q, hq, hreg, by rw [hsame q hq hreg]⟩
    · rintro ⟨p, hp, hreg, rfl⟩
      rw [hsame p hp hreg]
      exact ⟨hp, hreg⟩
  flushed := h.flushed

/-- A call that succeeds has been accepted, and has stored its document and rolled it up. -/
theorem uploadStep_writes (hflushed : Flushed w.leads)
    (h : uploadStep configured program call w = some w') :
    Accepted configured program call.args call.outside w.leads ∧
      SubmitWrites configured program call.args call.outside w w' := by
  have hwrites : SubmitWrites configured program call.args call.outside w
      (submitDocument configured program call.args call.outside w).1 :=
    submitDocument_writes configured program call.args call.outside hflushed
  rw [uploadStep] at h
  split at h
  · rename_i after r hcall
    cases h
    rw [hcall] at hwrites
    refine ⟨?_, hwrites⟩
    by_contra hrejected
    obtain ⟨e, he⟩ := submitDocument_not_accepted hrejected
    rw [hcall] at he
    cases he
  · cases h

omit [ColumnDriver] in
/-- Rolling up once more. -/
theorem rolledUp_afterCalls {lead : TradeLead} (hcall : call.args.registrationId = registrationId) :
    rolledUp (statusAfter program registrationId (calls ++ [call])) call.outside.now
        (afterCalls program registrationId calls lead) =
      afterCalls program registrationId (calls ++ [call]) lead := by
  simp only [rolledUp, afterCalls, firstSubmitted_concat, List.nil_append, hcall, true_and]
  congr 1
  by_cases hfirst : firstSubmitted program registrationId [] calls = none
  · simp [hfirst]
  · obtain ⟨m, hm⟩ := Option.ne_none_iff_exists'.1 hfirst
    simp [hm]

omit [ColumnDriver] in
theorem afterCalls_other {lead : TradeLead} (hcall : call.args.registrationId ≠ registrationId) :
    afterCalls program registrationId (calls ++ [call]) lead =
      afterCalls program registrationId calls lead := by
  simp [afterCalls, statusAfter, uploadedKeys_other hcall, firstSubmitted_concat, hcall]

/-- **Step.** The rows follow one more call, for the registration or for another. -/
theorem Follows.step (h : Follows program registrationId start calls w)
    (hstep : uploadStep configured program call w = some w') :
    Follows program registrationId start (calls ++ [call]) w' := by
  obtain ⟨haccepted, hwrites⟩ := uploadStep_writes h.flushed hstep
  cases hwrites with
  | nothing hrejected _ _ => exact absurd haccepted hrejected
  | stored _ hstore _ hrows =>
      have hkeys : presentKeys w'.documents registrationId =
          uploadedKeys registrationId (calls ++ [call]) := by
        ext key
        rw [mem_presentKeys_store (inPlace_getDocument call.args w.documents) hstore, h.keys,
          mem_uploadedKeys, mem_uploadedKeys]
        simp [or_and_right, exists_or]
      refine ⟨hkeys, ?_, ?_⟩
      · intro q
        rw [hrows]
        by_cases hcall : call.args.registrationId = registrationId
        · -- every participant is rolled up
          have hstatus : computeEligibilityStatus
              (presentKeys w'.documents call.args.registrationId) program =
                statusAfter program registrationId (calls ++ [call]) := by
            rw [hcall, hkeys]
            rfl
          rw [hstatus, hcall]
          constructor
          · rintro ⟨⟨-, hother⟩ | ⟨p, hp, hreg, rfl⟩, hq⟩
            · exact absurd hq hother
            · obtain ⟨p₀, hp₀, hreg₀, rfl⟩ := (h.rows p).1 ⟨hp, hreg⟩
              exact ⟨p₀, hp₀, hreg₀, by rw [rolledUp_afterCalls hcall]⟩
          · rintro ⟨p₀, hp₀, hreg₀, rfl⟩
            obtain ⟨hp, hreg⟩ := (h.rows _).2 ⟨p₀, hp₀, hreg₀, rfl⟩
            exact ⟨Or.inr ⟨_, hp, hreg, by rw [rolledUp_afterCalls hcall]⟩, hreg₀⟩
        · -- none of this registration is touched
          simp only [afterCalls_other hcall]
          rw [← h.rows q]
          constructor
          · rintro ⟨⟨hq, -⟩ | ⟨p, hp, hreg, rfl⟩, hq'⟩
            · exact ⟨hq, hq'⟩
            · exact absurd (hreg.symm.trans hq') hcall
          · rintro ⟨hq, hq'⟩
            refine ⟨Or.inl ⟨hq, ?_⟩, hq'⟩
            rw [hq']
            exact Ne.symm hcall
      · intro q hq
        rcases (hrows q).1 hq with ⟨hq, -⟩ | ⟨p, hp, -, rfl⟩
        · exact h.flushed q hq
        · exact rolledUp_flush (h.flushed p hp)

/-- **Run.** The rows follow every sequence of successful calls. -/
theorem Follows.run (h : Follows program registrationId start calls w)
    {later : List DocumentCall} (hrun : exec (uploadStep configured program) later w = some w') :
    Follows program registrationId start (calls ++ later) w' := by
  induction later generalizing calls w with
  | nil =>
      cases hrun
      rw [List.append_nil]
      exact h
  | cons call later ih =>
      obtain ⟨m, hm, hrest⟩ := exec_cons_eq_some.1 hrun
      have hnext : Follows program registrationId start (calls ++ [call] ++ later) w' :=
        ih (h.step hm) hrest
      rw [List.append_assoc] at hnext
      exact hnext

/-- The row of a participant after the calls. -/
theorem Follows.get (h : Follows program registrationId start calls w) {id : Nat} {lead : TradeLead}
    (hlead : (id, lead) ∈ start.leads.rows) (hreg : lead.registrationId = registrationId) :
    w.leads.get? id = some (id, afterCalls program registrationId calls lead) := by
  apply Table.get?_eq_some_iff.2
  exact ((h.rows _).2 ⟨(id, lead), hlead, hreg, rfl⟩).1

end Following

/-! ## The time of submission -/

variable {calls before after : List DocumentCall} {call : DocumentCall}

/-- Nothing has been submitted before all that is required is in. -/
theorem firstSubmitted_eq_none
    (h : statusAfter program registrationId (before ++ calls) ≠ .submitted) :
    firstSubmitted program registrationId before calls = none := by
  induction calls generalizing before with
  | nil => rfl
  | cons call rest ih =>
      have hrest : statusAfter program registrationId (before ++ [call] ++ rest) ≠ .submitted := by
        rw [List.append_assoc]
        exact h
      rw [firstSubmitted, if_neg, ih hrest]
      rintro ⟨-, hsubmitted⟩
      exact hrest (statusAfter_submitted_append rest hsubmitted)

/-- The time is that of the call that reaches it, whatever comes later. -/
theorem firstSubmitted_of_reaches (hcall : call.args.registrationId = registrationId)
    (hbefore : statusAfter program registrationId before ≠ .submitted)
    (hreaches : statusAfter program registrationId (before ++ [call]) = .submitted) :
    firstSubmitted program registrationId [] (before ++ call :: after) =
      some call.outside.now := by
  have hnone : firstSubmitted program registrationId [] before = none :=
    firstSubmitted_eq_none hbefore
  have hreached : firstSubmitted program registrationId [] (before ++ [call]) =
      some call.outside.now := by
    rw [firstSubmitted_concat, hnone, Option.none_or, List.nil_append, if_pos ⟨hcall, hreaches⟩]
  rw [← List.singleton_append, ← List.append_assoc]
  -- on the calls that come later, the last one first
  induction after using List.reverseRecOn with
  | nil =>
      rw [List.append_nil]
      exact hreached
  | append_singleton later last ih =>
      rw [← List.append_assoc, firstSubmitted_concat, ih]
      rfl

/-- A time that is set stays. -/
theorem firstSubmitted_append {now : Int} (later : List DocumentCall)
    (h : firstSubmitted program registrationId [] calls = some now) :
    firstSubmitted program registrationId [] (calls ++ later) = some now := by
  induction later using List.reverseRecOn with
  | nil =>
      rw [List.append_nil]
      exact h
  | append_singleton later last ih =>
      rw [← List.append_assoc, firstSubmitted_concat, ih]
      rfl

/-! ## The roll-up of a whole sequence -/

/-- What the uploads of the sequence make of a participant. -/
structure RolledUpBy (program : TradeProgram) (registrationId : String) (calls : List DocumentCall)
    (lead : TradeLead) : Prop where
  status : lead.eligibilityStatus =
    computeEligibilityStatus (uploadedKeys registrationId calls) program
  submitted : lead.eligibilityStatus = .submitted ↔
    (requiredKeys program ≠ ∅ ∧ requiredKeys program ⊆ uploadedKeys registrationId calls) ∨
      (requiredKeys program = ∅ ∧ uploadedKeys registrationId calls ≠ ∅)
  submittedAt : ∀ before call after, calls = before ++ call :: after →
    call.args.registrationId = registrationId →
    statusAfter program registrationId before ≠ .submitted →
    statusAfter program registrationId (before ++ [call]) = .submitted →
    lead.eligibilitySubmittedAt = some call.outside.now
  notSubmitted : lead.eligibilityStatus ≠ .submitted → lead.eligibilitySubmittedAt = none

theorem rolledUpBy_afterCalls (program : TradeProgram) (registrationId : String)
    (calls : List DocumentCall) (lead : TradeLead) :
    RolledUpBy program registrationId calls (afterCalls program registrationId calls lead) where
  status := rfl
  submitted := statusAfter_eq_submitted_iff
  submittedAt := by
    rintro before call after rfl hcall hbefore hreaches
    exact firstSubmitted_of_reaches hcall hbefore hreaches
  notSubmitted := by
    intro h
    have hnone : firstSubmitted program registrationId [] calls = none := firstSubmitted_eq_none h
    exact hnone

/-- **The roll-up.** After any sequence of successful calls, a participant has the status of the keys
that were uploaded and the time of the call that first reached submission; along the sequence the
status only rises and a time that is set stays; and another sequence that uploads the same keys gives
the same status. -/
theorem eligibility_follows_uploads [ColumnDriver] {start w : DocumentWorld}
    (hstart : NothingUploaded registrationId start)
    (hrun : exec (uploadStep configured program) calls start = some w)
    {id : Nat} {lead : TradeLead} (hlead : (id, lead) ∈ start.leads.rows)
    (hreg : lead.registrationId = registrationId) :
    ∃ lead', w.leads.get? id = some (id, lead') ∧
      RolledUpBy program registrationId calls lead' ∧
      (∀ before after mid, calls = before ++ after →
        exec (uploadStep configured program) before start = some mid →
        ∃ earlier, mid.leads.get? id = some (id, earlier) ∧
          RolledUpBy program registrationId before earlier ∧
          earlier.eligibilityStatus.rank ≤ lead'.eligibilityStatus.rank ∧
          ∀ now, earlier.eligibilitySubmittedAt = some now →
            lead'.eligibilitySubmittedAt = some now) ∧
      ∀ calls' other, exec (uploadStep configured program) calls' start = some other →
        uploadedKeys registrationId calls' = uploadedKeys registrationId calls →
        ∃ same, other.leads.get? id = some (id, same) ∧
          same.eligibilityStatus = lead'.eligibilityStatus := by
  -- every run to a prefix is an instance of this, and so is another sequence
  have hfollows : ∀ calls w, exec (uploadStep configured program) calls start = some w →
      w.leads.get? id = some (id, afterCalls program registrationId calls lead) := by
    intro calls w hrun
    have hrows : Follows program registrationId start ([] ++ calls) w :=
      (follows_start hstart).run hrun
    exact hrows.get hlead hreg
  refine ⟨_, hfollows calls w hrun, rolledUpBy_afterCalls program registrationId calls lead, ?_, ?_⟩
  · rintro before after mid rfl hmid
    refine ⟨_, hfollows before mid hmid, rolledUpBy_afterCalls program registrationId before lead,
      rank_statusAfter_le before after, ?_⟩
    intro now hnow
    exact firstSubmitted_append after hnow
  · intro calls' other hother hkeys
    refine ⟨_, hfollows calls' other hother, ?_⟩
    show statusAfter program registrationId calls' = statusAfter program registrationId calls
    rw [statusAfter, statusAfter, hkeys]

attribute [local instance] plainDriver

/-- Ada uploads her certificate, then replaces it. -/
def certificateTwice : List DocumentCall :=
  [⟨adaCertificate, ⟨true, true, 5⟩⟩, ⟨adaCertificate, ⟨true, true, 9⟩⟩]

theorem nothingUploaded_adaRegistered : NothingUploaded "r-ada" adaRegistered where
  documents := rfl
  status := by
    obtain ⟨p, hrows, hstatus⟩ : ∃ p, adaRegistered.leads.rows = [p] ∧
        p.2.eligibilityStatus = .notRequested ∧ p.2.eligibilitySubmittedAt = none :=
      ⟨_, rfl, rfl, rfl⟩
    rw [hrows]
    intro q hq _
    rw [List.mem_singleton.1 hq]
    exact hstatus
  flushed := adaRegistered_desk.flushed

/-- The second upload leaves the time of the first. -/
theorem certificate_submitted_once :
    ∃ w lead, exec (uploadStep true launchpad) certificateTwice adaRegistered = some w ∧
      w.leads.get? 1 = some (1, lead) ∧ lead.eligibilityStatus = .submitted ∧
      lead.eligibilitySubmittedAt = some 5 := by
  obtain ⟨w, hrun⟩ : ∃ w, exec (uploadStep true launchpad) certificateTwice adaRegistered = some w :=
    ⟨_, rfl⟩
  obtain ⟨row, hrow, hreg⟩ : ∃ row, (1, row) ∈ adaRegistered.leads.rows ∧
      row.registrationId = "r-ada" := ⟨_, List.mem_singleton_self _, rfl⟩
  obtain ⟨lead, hget, hrolled, -⟩ :=
    eligibility_follows_uploads nothingUploaded_adaRegistered hrun hrow hreg
  have hsubmitted : lead.eligibilityStatus = .submitted := by
    rw [hrolled.status]
    decide
  have hat : lead.eligibilitySubmittedAt = some 5 :=
    hrolled.submittedAt [] _ _ rfl rfl (by decide) (by decide)
  exact ⟨w, lead, hrun, hget, hsubmitted, hat⟩

end SalesTrades.Trade
