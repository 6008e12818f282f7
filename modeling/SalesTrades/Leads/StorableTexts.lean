import SalesTrades.Leads.CaptureRace

/-!
# The texts that captures store

The calls of `CaptureRace` as PostgreSQL takes their statements: an INSERT or UPDATE that sends a text
or a document it cannot store (`isText`, `Json.isStorable`) is refused, and the call raises. Which calls
that happens to can be read off their submissions (`refuses_iff`). A refused call writes nothing, and
the others run as if it were not there: what holds of the runs of captures holds of the calls of a
run whose submissions can be stored (`checked_run`).
-/

set_option autoImplicit false

namespace SalesTrades.Leads

open SalesTrades.Library SalesTrades.Library.Run SalesTrades.Library.Interleaving

universe u

/-- What a column of the type takes. -/
def ColumnValue.isStorable : ColumnValue → Bool
  | .text s => isText s
  | .optText s => s.all isText
  | .texts xs => xs.all fun xs => xs.all isText
  | .flag _ | .time _ => true
  | .json v => v.isStorable

/-- Every column of the submission can be stored. -/
def Submitted.IsStorable (s : Submitted) : Prop := ∀ c, (s.column c).isStorable = true

/-- The texts and the document of the request can be stored. -/
def LeadCreateRequest.isStorable (p : LeadCreateRequest) : Bool :=
  isText p.firstName && isText p.lastName && p.phone.all isText && isText p.company &&
    p.jobTitle.all isText && isText p.source && p.deviceId.all isText && p.timing.all isText &&
    (p.interests.all fun xs => xs.all isText) && (p.requestedMaterials.all fun xs => xs.all isText) &&
    p.inspectionType.all isText && Json.isStorableMembers p.responses

/-- The tags of a config, which is itself read from a `jsonb` column. -/
def CampaignConfig.tagsStorable (config : CampaignConfig) : Bool :=
  config.baseTags.all isText && (config.tagMap.all fun entry => isText entry.2) &&
    config.digitalPackTag.all isText && config.inspectionTag.all isText &&
    config.newsletterTag.all isText

variable {ι : Type u} {py : LowerCase} {campaign : Campaign} {payload : LeadCreateRequest}
  {now : Datetime}

/-! ## The columns of a submission -/

/-- A tag of the config, or the default for it. -/
theorem isText_getD {s : Option String} {d : String} (hs : s.all isText = true)
    (hd : isText d = true) : isText (s.getD d) = true := by
  cases s with
  | none => exact hd
  | some s => exact hs

theorem isText_of_mem_deriveTags (hconfig : campaign.config.tagsStorable = true)
    (hinterests : (payload.interests.all fun xs => xs.all isText) = true) {tag : String}
    (h : tag ∈ deriveTags campaign payload) : isText tag = true := by
  simp only [CampaignConfig.tagsStorable, Bool.and_eq_true, and_assoc, List.all_eq_true] at hconfig
  obtain ⟨hbase, hmap, hpack, hinspection, hnewsletter⟩ := hconfig
  -- the tags that a test adds
  have hsingle : ∀ {p : Prop} [Decidable p] {s : Option String} {d : String},
      s.all isText = true → isText d = true → tag ∈ (if p then [s.getD d] else []) →
        isText tag = true := by
    intro p _ s d hs hd hmem
    split at hmem
    · rw [List.mem_singleton.1 hmem]
      exact isText_getD hs hd
    · cases hmem
  have hinterest : ∀ interest ∈ payload.interests.getD [], isText interest = true := by
    intro interest hmem
    cases hxs : payload.interests with
    | none => simp [hxs] at hmem
    | some xs =>
        rw [hxs] at hmem hinterests
        exact List.all_eq_true.1 hinterests interest hmem
  simp only [deriveTags, List.mem_eraseDups, List.mem_filter, List.mem_append, List.mem_map] at h
  rcases h.1 with (((hmem | ⟨interest, hmem, rfl⟩) | hmem) | hmem) | hmem
  · exact hbase tag hmem
  · cases hfound : campaign.config.tagMap.find? fun entry => entry.1 == interest with
    | none => simpa [hfound] using hinterest interest hmem
    | some entry => simpa [hfound] using hmap entry (List.mem_of_find?_eq_some hfound)
  · -- the test on the materials has its branches the other way round
    split at hmem
    · cases hmem
    · rw [List.mem_singleton.1 hmem]
      exact isText_getD hpack (by decide +kernel)
  · exact hsingle hinspection (by decide +kernel) hmem
  · exact hsingle hnewsletter (by decide +kernel) hmem

/-- The columns that are set from a request can be stored exactly when the request can. -/
theorem isStorable_submittedBy_iff (hconfig : campaign.config.tagsStorable = true) :
    (submittedBy campaign payload).IsStorable ↔ payload.isStorable = true := by
  simp only [LeadCreateRequest.isStorable, Bool.and_eq_true, and_assoc]
  constructor
  · intro h
    -- a missing phone is stored as the empty text
    have hphone : payload.phone.all isText = true := by
      have hcolumn : isText (payload.phone.getD "") = true := h .phone
      cases hp : payload.phone with
      | none => rfl
      | some s => simpa [hp] using hcolumn
    exact ⟨h .firstName, h .lastName, hphone, h .company, h .jobTitle, h .source, h .deviceId,
      h .timing, h .interests, h .requestedMaterials, h .inspectionType, h .responses⟩
  · rintro ⟨hfirst, hlast, hphone, hcompany, hjob, hsource, hdevice, htiming, hinterests, hmaterials,
      hinspection, hresponses⟩ c
    cases c with
    | firstName => exact hfirst
    | lastName => exact hlast
    | phone => exact isText_getD hphone (by decide +kernel)
    | company => exact hcompany
    | jobTitle => exact hjob
    | source => exact hsource
    | deviceId => exact hdevice
    | timing => exact htiming
    | interests => exact hinterests
    | requestedMaterials => exact hmaterials
    | tags => exact List.all_eq_true.2 fun tag htag => isText_of_mem_deriveTags hconfig hinterests htag
    | inspectionRequested => rfl
    | inspectionType => exact hinspection
    | marketingOptIn => rfl
    | consentStatus => rfl
    | capturedAt => rfl
    | responses => exact hresponses

/-- A flush of storable columns onto a storable row leaves one. -/
theorem Submitted.isStorable_write {loaded new current : Submitted} (hnew : new.IsStorable)
    (hcurrent : current.IsStorable) : (loaded.write new current).IsStorable := by
  intro c
  rw [Submitted.column_write, dirtyWrite]
  split
  · exact hcurrent c
  · exact hnew c

/-! ## Statements that are refused -/

/-- The columns that the next statement of a call sends: all of a new row, the changed ones of a row
that was loaded. -/
def sent (campaign : Campaign) (payload : LeadCreateRequest) : CapturePhase → List ColumnValue
  | .selected none => submittedColumns.map (submittedBy campaign payload).column
  | .selected (some existing) | .reselected existing =>
      (submittedColumns.filter fun c =>
        (submittedBy campaign payload).column c ≠ existing.2.column c).map
          (submittedBy campaign payload).column
  | _ => []

/-- The database refuses the next statement of the call. -/
def refuses (campaign : Campaign) (payload : LeadCreateRequest) (phase : CapturePhase) : Bool :=
  (sent campaign payload phase).any fun v => !v.isStorable

/-- `captureStep` on the database. -/
def checkedStep (py : LowerCase) (campaign : Campaign) (now : Datetime) (t : LeadTable)
    (call : CaptureCall) : Option (LeadTable × CaptureCall) :=
  if refuses campaign call.payload call.phase = true then
    some (t, { call with phase := .raised .dataError })
  else captureStep py campaign now t call

/-- The calls whose next statement is a write. -/
def CapturePhase.isWrite : CapturePhase → Bool
  | .selected _ | .reselected _ => true
  | _ => false

/-- The instance that a call has in hand can be stored, as the row it was loaded from. -/
def CapturePhase.Storable : CapturePhase → Prop
  | .selected (some existing) | .reselected existing => existing.2.IsStorable
  | _ => True

theorem mem_sent_of_changed {existing : LeadRow} {c : SubmittedColumn}
    (h : (submittedBy campaign payload).column c ≠ existing.2.column c) :
    (submittedBy campaign payload).column c ∈ sent campaign payload (.reselected existing) :=
  List.mem_map_of_mem (List.mem_filter.2 ⟨mem_submittedColumns c, by simpa using h⟩)

/-- The refused statements: a write of a submission that cannot be stored. A column of it that the
row cannot have differs from the one that was loaded, so the UPDATE sends it. -/
theorem refuses_iff (hconfig : campaign.config.tagsStorable = true) {phase : CapturePhase}
    (hloaded : phase.Storable) :
    refuses campaign payload phase = true ↔ phase.isWrite = true ∧ payload.isStorable = false := by
  have hcolumns : payload.isStorable = false ↔
      ∃ c, ((submittedBy campaign payload).column c).isStorable = false := by
    rw [← Bool.not_eq_true, ← isStorable_submittedBy_iff hconfig, Submitted.IsStorable, not_forall]
    exact exists_congr fun c => Iff.of_eq (Bool.not_eq_true _)
  have hmerge : ∀ existing : LeadRow, existing.2.IsStorable →
      (refuses campaign payload (.reselected existing) = true ↔ payload.isStorable = false) := by
    intro existing hexisting
    rw [hcolumns, refuses, List.any_eq_true]
    constructor
    · rintro ⟨v, hv, hrefused⟩
      obtain ⟨c, -, rfl⟩ := List.mem_map.1 hv
      exact ⟨c, by simpa using hrefused⟩
    · rintro ⟨c, hc⟩
      -- the row that was loaded cannot have this value
      have hchanged : (submittedBy campaign payload).column c ≠ existing.2.column c := by
        intro h
        rw [h, hexisting c] at hc
        cases hc
      exact ⟨_, mem_sent_of_changed hchanged, by simp [hc]⟩
  cases phase with
  | selected found =>
      cases found with
      | none =>
          simp only [refuses, sent, List.any_map, List.any_eq_true, CapturePhase.isWrite, true_and,
            hcolumns]
          exact ⟨fun ⟨c, _, hc⟩ => ⟨c, by simpa using hc⟩,
            fun ⟨c, hc⟩ => ⟨c, mem_submittedColumns c, by simp [hc]⟩⟩
      | some existing => exact (hmerge existing hloaded).trans (by simp [CapturePhase.isWrite])
  | reselected existing => exact (hmerge existing hloaded).trans (by simp [CapturePhase.isWrite])
  | _ => simp [refuses, sent, CapturePhase.isWrite]

/-! ## Runs -/

/-- What a run of calls keeps; `stores` says whose submissions can be stored. -/
structure KeepsTexts (stores : ι → Bool) (c : Config ι LeadTable CaptureCall) : Prop where
  payload : ∀ i, (c.proc i).payload.isStorable = stores i
  rows : ∀ q ∈ c.shared.rows, q.2.IsStorable
  loaded : ∀ i, (c.proc i).phase.Storable
  returned : ∀ i row created, (c.proc i).phase = .returned row created → stores i = true

/-- The write of a storable submission. -/
theorem mergeStep_storable (hstores : (submittedBy campaign payload).IsStorable) {t t' : LeadTable}
    {existing : LeadRow} {phase' : CapturePhase} (hrows : ∀ q ∈ t.rows, q.2.IsStorable)
    (h : mergeStep py campaign payload now t existing = (t', phase')) :
    (∀ q ∈ t'.rows, q.2.IsStorable) ∧ phase'.Storable := by
  unfold mergeStep at h
  split at h
  · obtain ⟨rfl, rfl⟩ := Prod.mk.inj h
    exact ⟨hrows, trivial⟩
  · rename_i row t₁ hupdate
    obtain ⟨rfl, rfl⟩ := Prod.mk.inj h
    obtain ⟨current, hcurrent, rfl, htable⟩ := update_ok hupdate
    refine ⟨fun q hq => ?_, trivial⟩
    rcases (Table.mem_of_update htable).1 hq with ⟨hold, -⟩ | ⟨rfl, -⟩
    · exact hrows q hold
    · exact Submitted.isStorable_write hstores (hrows _ hcurrent)

/-- A step of a call: what it loads is storable, and what it writes is if the submission is. -/
theorem capturePhaseStep_storable {t t' : LeadTable} {phase phase' : CapturePhase}
    (hstores : phase.isWrite = true → (submittedBy campaign payload).IsStorable)
    (hrows : ∀ q ∈ t.rows, q.2.IsStorable)
    (h : capturePhaseStep py campaign payload now t phase = some (t', phase')) :
    (∀ q ∈ t'.rows, q.2.IsStorable) ∧ phase'.Storable := by
  cases phase with
  | start =>
      obtain ⟨rfl, rfl⟩ := Prod.mk.inj (Option.some.inj h)
      refine ⟨hrows, ?_⟩
      -- what is loaded is a row of the table
      cases hfound : getByCampaignEmail t campaign.id (normaliseEmail py payload.email) with
      | none => trivial
      | some existing => exact hrows existing (getByCampaignEmail_eq_some hfound).1
  | selected found =>
      cases found with
      | none =>
          rcases create_eq t (mergedLead py campaign payload now none) with
            ⟨-, t₁, hcreate, hinsert⟩ | ⟨-, hcreate⟩
          · simp only [capturePhaseStep, hcreate, Option.some.injEq, Prod.mk.injEq] at h
            obtain ⟨rfl, rfl⟩ := h
            refine ⟨fun q hq => ?_, trivial⟩
            rcases (Table.mem_of_insert hinsert).1 hq with hold | rfl
            · exact hrows q hold
            · exact hstores rfl
          · simp only [capturePhaseStep, hcreate, Option.some.injEq, Prod.mk.injEq] at h
            obtain ⟨rfl, rfl⟩ := h
            exact ⟨hrows, trivial⟩
      | some existing => exact mergeStep_storable (hstores rfl) hrows (Option.some.inj h)
  | violated =>
      obtain ⟨rfl, rfl⟩ := Prod.mk.inj (Option.some.inj h)
      exact ⟨hrows, trivial⟩
  | rolledBack =>
      simp only [capturePhaseStep] at h
      split at h
      · obtain ⟨rfl, rfl⟩ := Prod.mk.inj (Option.some.inj h)
        exact ⟨hrows, trivial⟩
      · rename_i existing hfound
        obtain ⟨rfl, rfl⟩ := Prod.mk.inj (Option.some.inj h)
        exact ⟨hrows, hrows existing (getByCampaignEmail_eq_some hfound).1⟩
  | reselected existing => exact mergeStep_storable (hstores rfl) hrows (Option.some.inj h)
  | returned row created => cases h
  | raised e => cases h

/-- A call returns with a write only. -/
theorem isWrite_of_returned {t t' : LeadTable} {phase phase' : CapturePhase}
    (h : capturePhaseStep py campaign payload now t phase = some (t', phase')) :
    phase.isWrite = true ∨ (t' = t ∧ ∀ row created, phase' ≠ .returned row created) := by
  cases phase with
  | start =>
      obtain ⟨rfl, rfl⟩ := Prod.mk.inj (Option.some.inj h)
      exact Or.inr ⟨rfl, fun _ _ hreturned => by cases hreturned⟩
  | selected found => exact Or.inl rfl
  | violated =>
      obtain ⟨rfl, rfl⟩ := Prod.mk.inj (Option.some.inj h)
      exact Or.inr ⟨rfl, fun _ _ hreturned => by cases hreturned⟩
  | rolledBack =>
      simp only [capturePhaseStep] at h
      split at h <;> obtain ⟨rfl, rfl⟩ := Prod.mk.inj (Option.some.inj h) <;>
        exact Or.inr ⟨rfl, fun _ _ hreturned => by cases hreturned⟩
  | reselected existing => exact Or.inl rfl
  | returned row created => cases h
  | raised e => cases h

section Runs

variable {stores : ι → Bool} {c c' : Config ι LeadTable CaptureCall}

/-- The step of a call on the database, by its submission: one that can be stored takes the step of
the capture, another leaves the table and does not return. -/
theorem checkedStep_cases (hconfig : campaign.config.tagsStorable = true)
    (hc : KeepsTexts stores c) {i : ι} {t : LeadTable} {call : CaptureCall}
    (h : checkedStep py campaign now c.shared (c.proc i) = some (t, call)) :
    call.payload = (c.proc i).payload ∧ (∀ q ∈ t.rows, q.2.IsStorable) ∧ call.phase.Storable ∧
      (stores i = false → t = c.shared ∧ ∀ row created, call.phase ≠ .returned row created) := by
  unfold checkedStep at h
  split at h
  · obtain ⟨rfl, rfl⟩ := Prod.mk.inj (Option.some.inj h)
    exact ⟨rfl, hc.rows, trivial, fun _ => ⟨rfl, fun _ _ hreturned => by cases hreturned⟩⟩
  · rename_i hrefuses
    rw [refuses_iff hconfig (hc.loaded i), hc.payload i, not_and] at hrefuses
    simp only [captureStep, Option.map_eq_some_iff, Prod.mk.injEq] at h
    obtain ⟨⟨t₁, phase'⟩, hphase, rfl, rfl⟩ := h
    have hstores : (c.proc i).phase.isWrite = true →
        (submittedBy campaign (c.proc i).payload).IsStorable := by
      intro hwrite
      rw [isStorable_submittedBy_iff hconfig, hc.payload i]
      simpa using hrefuses hwrite
    obtain ⟨hrows, hloaded⟩ := capturePhaseStep_storable hstores hc.rows hphase
    refine ⟨rfl, hrows, hloaded, fun hi => ?_⟩
    rcases isWrite_of_returned hphase with hwrite | hquiet
    · exact absurd hi (hrefuses hwrite)
    · exact hquiet

theorem keepsTexts_fire [DecidableEq ι] (hconfig : campaign.config.tagsStorable = true)
    (hc : KeepsTexts stores c) {e : ι × Datetime}
    (h : fire (checkedStep py campaign) e c = some c') : KeepsTexts stores c' := by
  obtain ⟨t, call, hstep, rfl⟩ := fire_eq_some.1 h
  obtain ⟨hpayload, hrows, hloaded, hquiet⟩ := checkedStep_cases hconfig hc hstep
  refine ⟨?_, hrows, ?_, ?_⟩
  · refine (Function.forall_update_iff _ fun i (call : CaptureCall) =>
      call.payload.isStorable = stores i).2 ⟨?_, fun i _ => hc.payload i⟩
    rw [hpayload]
    exact hc.payload e.1
  · exact (Function.forall_update_iff _ fun _ (call : CaptureCall) => call.phase.Storable).2
      ⟨hloaded, fun i _ => hc.loaded i⟩
  · refine (Function.forall_update_iff _ fun i (call : CaptureCall) => ∀ row created,
      call.phase = .returned row created → stores i = true).2 ⟨?_, fun i _ => hc.returned i⟩
    intro row created hreturned
    by_contra hstores
    exact (hquiet (by simpa using hstores)).2 row created hreturned

theorem keepsTexts_start (hrows : ∀ q ∈ c.shared.rows, q.2.IsStorable)
    (hstart : ∀ i, (c.proc i).phase = .start) :
    KeepsTexts (fun i => (c.proc i).payload.isStorable) c where
  payload _ := rfl
  rows := hrows
  loaded i := by
    rw [hstart i]
    trivial
  returned i row created h := by
    rw [hstart i] at h
    cases h

/-- **Captures on the database.** Any number of calls, with any submissions, run interleaved on a
table that the database has stored. It goes on storing every row of it; a call whose submission cannot
be stored does not return; and the other calls end, on the same table, as in the run of captures from
which the steps of those are left out. -/
theorem checked_run [DecidableEq ι] (hconfig : campaign.config.tagsStorable = true)
    (hrows : ∀ q ∈ c.shared.rows, q.2.IsStorable) (hstart : ∀ i, (c.proc i).phase = .start)
    {es : List (ι × Datetime)} (hrun : exec (fire (checkedStep py campaign)) es c = some c') :
    (∀ q ∈ c'.shared.rows, q.2.IsStorable) ∧
    (∀ i row created, (c'.proc i).phase = .returned row created →
      (c.proc i).payload.isStorable = true) ∧
    ∃ d, exec (fire (captureStep py campaign))
        (es.filter fun e => (c.proc e.1).payload.isStorable) c = some d ∧
      d.shared = c'.shared ∧ ∀ i, (c.proc i).payload.isStorable = true → d.proc i = c'.proc i := by
  have hfire : ∀ e d d', KeepsTexts (fun i => (c.proc i).payload.isStorable) d →
      fire (checkedStep py campaign) e d = some d' →
      KeepsTexts (fun i => (c.proc i).payload.isStorable) d' :=
    fun _ _ _ hd hf => keepsTexts_fire hconfig hd hf
  have hinit := keepsTexts_start hrows hstart
  have hend := exec_invariant hfire hinit hrun
  refine ⟨hend.rows, hend.returned, ?_⟩
  have hwithout := exec_without (captureStep py campaign)
    (fun i => (c.proc i).payload.isStorable = false) hfire ?_ ?_ hinit rfl (fun _ _ => rfl) hrun
  · simpa using hwithout
  · intro e d g l hd hsilent hstep
    exact ((checkedStep_cases hconfig hd hstep).2.2.2 hsilent).1
  · intro e d hd hstores
    have hrefuses : ¬ refuses campaign (d.proc e.1).payload (d.proc e.1).phase = true := by
      rw [refuses_iff hconfig (hd.loaded e.1), hd.payload e.1]
      exact fun h => hstores h.2
    rw [checkedStep, if_neg hrefuses]

end Runs

end SalesTrades.Leads
