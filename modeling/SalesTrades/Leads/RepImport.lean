import SalesTrades.Leads.ActivityAttribution
import SalesTrades.Leads.Enrichment
import SalesTrades.Leads.RepSheet

/-!
# The import of the sheet

The script goes through the addresses of the sheet. An address without a lead is captured like any other
submission and gets the tag of its rep; a lead that is there only gets the tag, the rep who met the person
where nobody is noted, and a phone number where it has none. So nothing that was there is lost, every
address that can be imported has a lead with the tag of the first rep who lists it, and to import the sheet
again changes nothing (`import_once`).
-/

set_option autoImplicit false

namespace SalesTrades.Leads.RepImport

open SalesTrades.Library SalesTrades.Leads.Enrichment SalesTrades.Leads.NogActivitySync

/-! ## Attribution -/

def repTag (rep : String) : String := "Rep: " ++ rep

/-- `_with_rep_tag`. -/
def withRepTag (tags : Option (List String)) (rep : String) : List String :=
  let tags := tags.getD []
  if repTag rep ∈ tags then tags else tags ++ [repTag rep]

def capturedByKey : String := "captured_by"

def importBatchKey : String := "import_batch"

/-- `resp.setdefault(key, value)`. -/
def setDefault (members : List (String × Json)) (key : String) (value : Json) : List (String × Json) :=
  if Json.hasKey members key then members else members ++ [(key, value)]

/-- The answers with the rep noted, unless somebody is. -/
def attributed (rep : String) (batch : Json) (members : List (String × Json)) : List (String × Json) :=
  if (Json.member members capturedByKey).truthy then members
  else setDefault (setMember members capturedByKey (.str rep)) importBatchKey batch

/-- The phone number, filled in where it is blank. -/
def filledPhone (phone : String) (new : Option String) : String :=
  if phone = "" then new.getD "" else phone

/-- `_augment_existing`. What `dict` takes of the answers is an object. -/
def augmentExisting (lead : Lead) (rep : String) (payload : LeadCreateRequest) : Except PyError Lead :=
  match lead.responses.orElse (.obj []) with
  | .obj members =>
      .ok { lead with
        tags := if withRepTag lead.tags rep = lead.tags.getD [] then lead.tags
          else some (withRepTag lead.tags rep)
        responses := if (Json.member members capturedByKey).truthy then lead.responses
          else .obj (attributed rep (Json.member payload.responses importBatchKey) members)
        phone := filledPhone lead.phone payload.phone }
  | _ => .error .typeError

/-! ## The run -/

/-- The table, and what the script counts. -/
structure ImportRun where
  table : LeadTable
  inserted : ℕ := 0
  augmented : ℕ := 0
  failed : ℕ := 0

/-- One address. Any exception is counted. -/
def importLead (py : LowerCase) (campaigns : List Campaign) (now : Datetime)
    (entry : String × LeadCreateRequest) (run : ImportRun) : ImportRun :=
  match getBySlug campaigns nogSlug with
  | none => { run with failed := run.failed + 1 }
  | some campaign =>
      match getByCampaignEmail run.table campaign.id (normaliseEmail py entry.2.email) with
      | none =>
          match captureLeadCreated py campaigns nogSlug entry.2 now false run.table with
          | (t, .error _) => { run with table := t, failed := run.failed + 1 }
          | (t, .ok (row, _)) =>
              match update t row { row.2 with tags := some (withRepTag row.2.tags entry.1) } with
              | .error _ => { run with table := t, failed := run.failed + 1 }
              | .ok (_, t') => { run with table := t', inserted := run.inserted + 1 }
      | some existing =>
          match augmentExisting existing.2 entry.1 entry.2 with
          | .error _ => { run with failed := run.failed + 1 }
          | .ok lead =>
              match update run.table existing lead with
              | .error _ => { run with failed := run.failed + 1 }
              | .ok (_, t') => { run with table := t', augmented := run.augmented + 1 }

/-- The loop, with the clock at each turn. -/
def importLoop (py : LowerCase) (campaigns : List Campaign) (clock : ℕ → Datetime) :
    ℕ → List (String × LeadCreateRequest) → ImportRun → ImportRun
  | _, [], run => run
  | i, entry :: entries, run =>
      importLoop py campaigns clock (i + 1) entries (importLead py campaigns (clock i) entry run)

/-- `run` with `--commit`. -/
def runImport (lib : SheetLib) (campaigns : List Campaign) (clock : ℕ → Datetime) (tabs : List Tab)
    (t : LeadTable) : Except PyError ImportRun := do
  let collected ← collect lib tabs
  return importLoop lib.py campaigns clock 0 collected.payloads { table := t }

/-! ## What may change in a lead -/

/-- Nothing but what the script attaches: tags of reps at the end, a phone number where there was none, and
who met the person where nobody was noted. -/
structure OnlyAttributed (lead lead' : Lead) : Prop where
  rest : lead' = { lead with tags := lead'.tags, phone := lead'.phone, responses := lead'.responses }
  tags : lead.tags.getD [] <+: lead'.tags.getD []
  newTags : ∀ tag ∈ lead'.tags.getD [], tag ∈ lead.tags.getD [] ∨ ∃ rep, tag = repTag rep
  phone : lead.phone ≠ "" → lead'.phone = lead.phone
  answers : ∀ key, (key ≠ capturedByKey ∧ key ≠ importBatchKey) ∨
    (∃ noted, entryOf lead.responses capturedByKey = some noted ∧ noted.truthy = true) →
      entryOf lead'.responses key = entryOf lead.responses key

section Attribution

variable {tags : Option (List String)} {rep rep' : String} {batch batch' value : Json}
  {members : List (String × Json)} {lead lead' lead'' : Lead} {payload payload' : LeadCreateRequest}

theorem repTag_mem_withRepTag (tags : Option (List String)) (rep : String) :
    repTag rep ∈ withRepTag tags rep := by
  rw [withRepTag]
  split
  next h => exact h
  next => exact List.mem_append_right _ List.mem_cons_self

theorem prefix_withRepTag (tags : Option (List String)) (rep : String) :
    tags.getD [] <+: withRepTag tags rep := by
  rw [withRepTag]
  split
  · exact List.prefix_rfl
  · exact List.prefix_append _ _

theorem withRepTag_eq_self_iff : withRepTag tags rep = tags.getD [] ↔ repTag rep ∈ tags.getD [] := by
  constructor
  · intro h
    rw [← h]
    exact repTag_mem_withRepTag tags rep
  · exact fun h => if_pos h

theorem values_setMember {key : String} {m : String × Json} (hm : m ∈ setMember members key value)
    (hkey : m.1 = key) : m.2 = value := by
  rw [setMember] at hm
  split at hm
  · obtain ⟨m', -, rfl⟩ := List.mem_map.1 hm
    split at hkey
    next heq => rw [if_pos heq]
    next hne => exact absurd (by simpa using hkey) hne
  next hnot =>
    rcases List.mem_append.1 hm with hold | hnew
    · exact absurd (List.any_eq_true.2 ⟨m, hold, by simpa using hkey⟩) hnot
    · obtain rfl := List.mem_singleton.1 hnew
      rfl

/-- Setting a member to the value that it has. -/
theorem setMember_of_values {key : String} (hkey : Json.hasKey members key = true)
    (hvalues : ∀ m ∈ members, m.1 = key → m.2 = value) : setMember members key value = members := by
  rw [setMember, if_pos hkey]
  refine (List.map_congr_left fun m hm => ?_).trans (List.map_id _)
  split
  next heq =>
    have heq' : m.1 = key := by simpa using heq
    exact Prod.ext heq'.symm (hvalues m hm heq').symm
  next => rfl

theorem hasKey_append (members members' : List (String × Json)) (key : String) :
    Json.hasKey (members ++ members') key = (Json.hasKey members key || Json.hasKey members' key) := by
  rw [Json.hasKey, List.any_append, Json.hasKey, Json.hasKey]

theorem hasKey_setDefault (members : List (String × Json)) (key : String) (value : Json) :
    Json.hasKey (setDefault members key value) key = true := by
  rw [setDefault]
  split
  next h => exact h
  next => rw [hasKey_append]; simp [Json.hasKey]

/-- Who met the person is noted, and with whom nobody notes anything else. -/
theorem attributed_falsy (h : (Json.member members capturedByKey).truthy = false) (rep : String)
    (batch : Json) :
    Json.hasKey (attributed rep batch members) capturedByKey = true ∧
      Json.hasKey (attributed rep batch members) importBatchKey = true ∧
      ∀ m ∈ attributed rep batch members, m.1 = capturedByKey → m.2 = .str rep := by
  have hset : attributed rep batch members =
      setDefault (setMember members capturedByKey (.str rep)) importBatchKey batch := by
    rw [attributed, if_neg (by simp [h])]
  rw [hset]
  refine ⟨?_, hasKey_setDefault _ _ _, fun m hm hkey => ?_⟩
  · rw [setDefault]
    split
    · exact hasKey_setMember _ _ _
    · rw [hasKey_append, hasKey_setMember, Bool.true_or]
  · rw [setDefault] at hm
    split at hm
    · exact values_setMember hm hkey
    · rcases List.mem_append.1 hm with hold | hnew
      · exact values_setMember hold hkey
      · obtain rfl := List.mem_singleton.1 hnew
        exact absurd (show importBatchKey = capturedByKey from hkey) (by decide)

theorem member_of_values {key : String} (hkey : Json.hasKey members key = true)
    (hvalues : ∀ m ∈ members, m.1 = key → m.2 = value) : Json.member members key = value := by
  obtain ⟨m, hm, heq⟩ := List.any_eq_true.1 hkey
  rw [Json.member]
  cases hfound : members.find? fun m => m.1 == key with
  | none => exact absurd heq (List.find?_eq_none.1 hfound m hm)
  | some found =>
      have hfoundKey : (found.1 == key) = true := by simpa only using List.find?_some hfound
      exact hvalues found (List.mem_of_find?_eq_some hfound) (beq_iff_eq.1 hfoundKey)

theorem truthy_str : (Json.str rep).truthy = true ↔ rep ≠ "" := by
  simp [Json.truthy]

/-- Where the rep is already noted, so to speak, noting it again changes nothing. -/
theorem attributed_of_values (hkey : Json.hasKey members capturedByKey = true)
    (hbatch : Json.hasKey members importBatchKey = true)
    (hvalues : ∀ m ∈ members, m.1 = capturedByKey → m.2 = .str rep) (batch : Json) :
    attributed rep batch members = members := by
  rw [attributed]
  split
  · rfl
  · rw [setMember_of_values hkey hvalues, setDefault, if_pos hbatch]

theorem attributed_self (rep : String) (batch : Json) (members : List (String × Json)) :
    attributed rep batch (attributed rep batch members) = attributed rep batch members := by
  cases h : (Json.member members capturedByKey).truthy with
  | true =>
      have hsame : attributed rep batch members = members := if_pos h
      rw [hsame, hsame]
  | false =>
      obtain ⟨hkey, hbatch, hvalues⟩ := attributed_falsy h rep batch
      exact attributed_of_values hkey hbatch hvalues batch

/-- What a rep has noted stays noted, whoever comes after. -/
theorem attributed_stable (h : attributed rep batch members = members) (rep' : String) (batch' : Json) :
    attributed rep batch (attributed rep' batch' members) = attributed rep' batch' members := by
  cases hnoted : (Json.member members capturedByKey).truthy with
  | true =>
      have hsame : attributed rep' batch' members = members := if_pos hnoted
      rw [hsame, h]
  | false =>
      obtain ⟨hkey, hbatch, hvalues⟩ := attributed_falsy hnoted rep batch
      rw [h] at hkey hbatch hvalues
      -- a name that is no note is empty
      have hempty : rep = "" := by
        rw [member_of_values hkey hvalues] at hnoted
        by_contra hne
        rw [truthy_str.2 hne] at hnoted
        cases hnoted
      obtain ⟨hkey', hbatch', hvalues'⟩ := attributed_falsy hnoted rep' batch'
      by_cases hrep' : rep' = ""
      · refine attributed_of_values hkey' hbatch' (fun m hm hm1 => ?_) batch
        rw [hvalues' m hm hm1, hrep', hempty]
      · rw [attributed, if_pos]
        rw [member_of_values hkey' hvalues']
        exact truthy_str.2 hrep'

/-! ## Leads that are there -/

theorem augmentExisting_eq_ok_iff : augmentExisting lead rep payload = .ok lead' ↔
    ∃ members, lead.responses.orElse (.obj []) = .obj members ∧
      lead' = { lead with
        tags := if withRepTag lead.tags rep = lead.tags.getD [] then lead.tags
          else some (withRepTag lead.tags rep)
        responses := if (Json.member members capturedByKey).truthy then lead.responses
          else .obj (attributed rep (Json.member payload.responses importBatchKey) members)
        phone := filledPhone lead.phone payload.phone } := by
  rw [augmentExisting]
  split
  next members hmembers =>
    rw [hmembers]
    constructor
    · exact fun h => ⟨members, rfl, (Except.ok.inj h).symm⟩
    · rintro ⟨members', hmembers', rfl⟩
      cases hmembers'
      rfl
  next hnone =>
    refine iff_of_false (fun h => by cases h) ?_
    rintro ⟨members, hmembers, -⟩
    exact hnone members hmembers

theorem exists_augmentExisting (h : takesMembers lead.responses = true) (rep : String)
    (payload : LeadCreateRequest) : ∃ lead', augmentExisting lead rep payload = .ok lead' := by
  rw [takesMembers] at h
  split at h
  next members hmembers => exact ⟨_, augmentExisting_eq_ok_iff.2 ⟨members, hmembers, rfl⟩⟩
  next => cases h

theorem getD_tags_augmented (h : augmentExisting lead rep payload = .ok lead') :
    lead'.tags.getD [] = withRepTag lead.tags rep := by
  obtain ⟨members, -, rfl⟩ := augmentExisting_eq_ok_iff.1 h
  dsimp only
  split
  next heq => exact heq.symm
  next => rfl

theorem phone_augmented (h : augmentExisting lead rep payload = .ok lead') :
    lead'.phone = filledPhone lead.phone payload.phone := by
  obtain ⟨members, -, rfl⟩ := augmentExisting_eq_ok_iff.1 h
  rfl

/-- The answers after the call. -/
theorem responses_augmented (h : augmentExisting lead rep payload = .ok lead') :
    ∃ members, lead.responses.orElse (.obj []) = .obj members ∧
      lead'.responses.orElse (.obj []) =
        .obj (attributed rep (Json.member payload.responses importBatchKey) members) := by
  obtain ⟨members, hmembers, rfl⟩ := augmentExisting_eq_ok_iff.1 h
  refine ⟨members, hmembers, ?_⟩
  dsimp only
  split
  next hnoted => rw [hmembers, attributed, if_pos hnoted]
  next hnot =>
    have hkey := (attributed_falsy (Bool.not_eq_true _ ▸ hnot) rep
      (Json.member payload.responses importBatchKey)).1
    -- there is a member, so the object counts
    have hne : attributed rep (Json.member payload.responses importBatchKey) members ≠ [] := by
      intro hnil
      rw [hnil] at hkey
      cases hkey
    simp [Json.orElse, Json.truthy, hne]

/-- The call changes nothing: the tag is there, the rep or somebody else is noted, and there is no number
to fill in. -/
theorem augment_fixed_iff : augmentExisting lead rep payload = .ok lead ↔
    repTag rep ∈ lead.tags.getD [] ∧
      (∃ members, lead.responses.orElse (.obj []) = .obj members ∧
        attributed rep (Json.member payload.responses importBatchKey) members = members) ∧
      filledPhone lead.phone payload.phone = lead.phone := by
  constructor
  · intro h
    obtain ⟨members, hmembers, hattributed⟩ := responses_augmented h
    refine ⟨withRepTag_eq_self_iff.1 (getD_tags_augmented h).symm, ⟨members, hmembers, ?_⟩, ?_⟩
    · exact Json.obj.inj (hattributed.symm.trans hmembers)
    · exact (phone_augmented h).symm
  · rintro ⟨htag, ⟨members, hmembers, hattributed⟩, hphone⟩
    refine augmentExisting_eq_ok_iff.2 ⟨members, hmembers, ?_⟩
    have hresponses : (if (Json.member members capturedByKey).truthy then lead.responses
        else .obj (attributed rep (Json.member payload.responses importBatchKey) members)) =
          lead.responses := by
      split
      · rfl
      next hnot =>
        -- an object without members would have got one
        have hne : members ≠ [] := by
          rintro rfl
          have hkey := (attributed_falsy (Bool.not_eq_true _ ▸ hnot) rep
            (Json.member payload.responses importBatchKey)).1
          rw [hattributed] at hkey
          cases hkey
        rw [hattributed, ← hmembers, Json.orElse]
        split
        · rfl
        next hfalsy =>
          rw [Json.orElse, if_neg hfalsy] at hmembers
          exact absurd (Json.obj.inj hmembers).symm hne
    rw [if_pos (withRepTag_eq_self_iff.2 htag), hresponses, hphone]

theorem filledPhone_filledPhone (phone : String) (new : Option String) :
    filledPhone (filledPhone phone new) new = filledPhone phone new := by
  by_cases hblank : filledPhone phone new = ""
  · rw [filledPhone, if_pos hblank]
    rw [filledPhone] at hblank ⊢
    split at hblank
    next heq => rw [if_pos heq]
    next hne => exact absurd hblank hne
  · exact if_neg hblank

theorem filledPhone_stable {phone : String} {new : Option String} (h : filledPhone phone new = phone)
    (new' : Option String) : filledPhone (filledPhone phone new') new = filledPhone phone new' := by
  by_cases hblank : filledPhone phone new' = ""
  · have hphone : phone = "" := by
      by_contra hne
      exact hne ((if_neg hne).symm.trans hblank)
    rw [hblank, ← hphone]
    exact h
  · exact if_neg hblank

/-- To call it again changes nothing. -/
theorem augment_self (h : augmentExisting lead rep payload = .ok lead') :
    augmentExisting lead' rep payload = .ok lead' := by
  obtain ⟨members, -, hattributed⟩ := responses_augmented h
  refine augment_fixed_iff.2 ⟨?_, ⟨_, hattributed, attributed_self _ _ _⟩, ?_⟩
  · rw [getD_tags_augmented h]
    exact repTag_mem_withRepTag _ _
  · rw [phone_augmented h]
    exact filledPhone_filledPhone _ _

/-- Another rep leaves it so. -/
theorem augment_stable (hfixed : augmentExisting lead rep payload = .ok lead)
    (h : augmentExisting lead rep' payload' = .ok lead') :
    augmentExisting lead' rep payload = .ok lead' := by
  obtain ⟨htag, ⟨members, hmembers, hnoted⟩, hphone⟩ := augment_fixed_iff.1 hfixed
  obtain ⟨members', hmembers', hattributed⟩ := responses_augmented h
  rw [hmembers] at hmembers'
  cases hmembers'
  refine augment_fixed_iff.2 ⟨?_, ⟨_, hattributed, attributed_stable hnoted _ _⟩, ?_⟩
  · rw [getD_tags_augmented h]
    exact (prefix_withRepTag _ _).subset htag
  · rw [phone_augmented h]
    exact filledPhone_stable hphone _

theorem entryOf_eq {responses : Json} (h : responses.orElse (.obj []) = .obj members) (key : String) :
    entryOf responses key = (members.find? fun m => m.1 == key).map Prod.snd := by
  rw [entryOf, h]

/-- Noting who met the person leaves the other answers alone. -/
theorem find?_attributed {key : String} (hcaptured : key ≠ capturedByKey) (hbatch : key ≠ importBatchKey)
    (rep : String) (batch : Json) (members : List (String × Json)) :
    ((attributed rep batch members).find? fun m => m.1 == key).map Prod.snd =
      (members.find? fun m => m.1 == key).map Prod.snd := by
  rw [attributed]
  split
  · rfl
  · rw [setDefault]
    split
    · rw [find?_setMember, if_neg (Ne.symm hcaptured)]
    · rw [List.find?_append, List.find?_cons_of_neg (by simpa using Ne.symm hbatch), List.find?_nil,
        Option.or_none, find?_setMember, if_neg (Ne.symm hcaptured)]

/-- **A lead that is there** only gets what the script attaches. -/
theorem onlyAttributed_augmented (h : augmentExisting lead rep payload = .ok lead') :
    OnlyAttributed lead lead' := by
  have htags := getD_tags_augmented h
  obtain ⟨members, hmembers, hattributed⟩ := responses_augmented h
  refine ⟨?_, ?_, ?_, ?_, ?_⟩
  · obtain ⟨_, -, rfl⟩ := augmentExisting_eq_ok_iff.1 h
    rfl
  · rw [htags]
    exact prefix_withRepTag _ _
  · intro tag htag
    rw [htags, withRepTag] at htag
    split at htag
    · exact Or.inl htag
    · rcases List.mem_append.1 htag with hold | hnew
      · exact Or.inl hold
      · exact Or.inr ⟨rep, List.mem_singleton.1 hnew⟩
  · intro hphone
    rw [phone_augmented h]
    exact if_neg hphone
  · intro key hkey
    rw [entryOf_eq hattributed, entryOf_eq hmembers]
    rcases hkey with ⟨hcaptured, hbatch⟩ | ⟨noted, hnoted, htruthy⟩
    · exact find?_attributed hcaptured hbatch _ _ _
    · rw [entryOf_eq hmembers] at hnoted
      have hmember : Json.member members capturedByKey = noted := by
        rw [Json.member, hnoted]
        rfl
      rw [attributed, if_pos (hmember ▸ htruthy)]

theorem onlyAttributed_refl (lead : Lead) : OnlyAttributed lead lead where
  rest := rfl
  tags := List.prefix_rfl
  newTags _ htag := Or.inl htag
  phone _ := rfl
  answers _ _ := rfl

theorem OnlyAttributed.trans (h : OnlyAttributed lead lead') (h' : OnlyAttributed lead' lead'') :
    OnlyAttributed lead lead'' where
  rest := by
    rw [h'.rest, h.rest]
  tags := h.tags.trans h'.tags
  newTags tag htag := by
    rcases h'.newTags tag htag with hold | hnew
    · exact h.newTags tag hold
    · exact Or.inr hnew
  phone hphone := by
    have hfirst := h.phone hphone
    rw [h'.phone (hfirst ▸ hphone), hfirst]
  answers key hkey := by
    have hfirst := h.answers key hkey
    rw [← hfirst]
    apply h'.answers key
    rcases hkey with hother | ⟨noted, hnoted, htruthy⟩
    · exact Or.inl hother
    · -- the note has been kept
      exact Or.inr ⟨noted, (h.answers _ (Or.inr ⟨noted, hnoted, htruthy⟩)).trans hnoted, htruthy⟩

end Attribution

/-! ## One address -/

/-- The answers of every lead are an object, as every writer leaves them, or count for none. -/
def ObjectResponses (t : LeadTable) : Prop := ∀ q ∈ t.rows, takesMembers q.2.responses = true

/-- The submission notes who made it. -/
structure NotesRep (entry : String × LeadCreateRequest) : Prop where
  capturedBy : Json.hasKey entry.2.responses capturedByKey = true
  importBatch : Json.hasKey entry.2.responses importBatchKey = true
  rep : ∀ m ∈ entry.2.responses, m.1 = capturedByKey → m.2 = .str entry.1

/-- The lead that the script makes of an address without one. -/
def insertedLead (py : LowerCase) (campaign : Campaign) (now : Datetime)
    (entry : String × LeadCreateRequest) : Lead :=
  let lead := mergedLead py campaign entry.2 now none
  { lead with tags := some (withRepTag lead.tags entry.1) }

/-- A lead that comes from the sheet, whatever has been attached to it since. -/
def FromSheet (py : LowerCase) (campaign : Campaign) (entries : List (String × LeadCreateRequest))
    (lead : Lead) : Prop :=
  ∃ entry ∈ entries, ∃ now, OnlyAttributed (insertedLead py campaign now entry) lead

/-- What the script may do to the table: attach something to leads, and add leads from the sheet. -/
structure Grows (py : LowerCase) (campaign : Campaign) (entries : List (String × LeadCreateRequest))
    (t t' : LeadTable) : Prop where
  kept : ∀ q ∈ t.rows, ∃ q' ∈ t'.rows, q'.1 = q.1 ∧ OnlyAttributed q.2 q'.2
  added : ∀ q' ∈ t'.rows, (∃ q ∈ t.rows, q.1 = q'.1) ∨ FromSheet py campaign entries q'.2

/-- The lead of an address. -/
def leadOf (py : LowerCase) (campaign : Campaign) (payload : LeadCreateRequest) (t : LeadTable) :
    Option LeadRow :=
  getByCampaignEmail t campaign.id (normaliseEmail py payload.email)

/-- The script would change nothing about the address. -/
def Done (py : LowerCase) (campaign : Campaign) (t : LeadTable) (entry : String × LeadCreateRequest) :
    Prop :=
  (∃ q, leadOf py campaign entry.2 t = some q ∧ augmentExisting q.2 entry.1 entry.2 = .ok q.2) ∨
    (campaign.status ≠ .active ∧ leadOf py campaign entry.2 t = none)

section Step

variable {py : LowerCase} {campaigns : List Campaign} {campaign : Campaign} {now : Datetime}
  {entry other : String × LeadCreateRequest} {entries : List (String × LeadCreateRequest)}
  {run : ImportRun} {t t' t'' : LeadTable} {q : LeadRow} {lead : Lead}

theorem leadOf_eq_some_iff : leadOf py campaign entry.2 t = some q ↔
    q ∈ t.rows ∧ q.2.campaignId = campaign.id ∧ q.2.email = normaliseEmail py entry.2.email := by
  constructor
  · exact getByCampaignEmail_eq_some
  · rintro ⟨hmem, hcampaign, hemail⟩
    exact getByCampaignEmail_of_mem hmem hcampaign hemail

theorem OnlyAttributed.key (h : OnlyAttributed q.2 lead) :
    lead.campaignId = q.2.campaignId ∧ lead.email = q.2.email := by
  rw [h.rest]
  exact ⟨rfl, rfl⟩

/-- **One turn of the loop**: a lead that is there is augmented, an address without one gets one where the
campaign takes leads. -/
theorem importLead_cases (hobjects : ObjectResponses run.table)
    (hcampaign : getBySlug campaigns nogSlug = some campaign) :
    (∃ q lead' t', leadOf py campaign entry.2 run.table = some q ∧
      augmentExisting q.2 entry.1 entry.2 = .ok lead' ∧ run.table.update q.1 lead' = some t' ∧
      importLead py campaigns now entry run = { run with table := t', augmented := run.augmented + 1 }) ∨
    (leadOf py campaign entry.2 run.table = none ∧ campaign.status = .active ∧ ∃ t',
      (∀ q, q ∈ t'.rows ↔
        q ∈ run.table.rows ∨ q = (run.table.nextId, insertedLead py campaign now entry)) ∧
      importLead py campaigns now entry run = { run with table := t', inserted := run.inserted + 1 }) ∨
    (leadOf py campaign entry.2 run.table = none ∧ campaign.status ≠ .active ∧
      importLead py campaigns now entry run = { run with failed := run.failed + 1 }) := by
  cases hfound : leadOf py campaign entry.2 run.table with
  | some q =>
      left
      obtain ⟨hmem, -, -⟩ := leadOf_eq_some_iff.1 hfound
      obtain ⟨lead', hlead'⟩ := exists_augmentExisting (hobjects q hmem) entry.1 entry.2
      obtain ⟨hkeyc, hkeye⟩ := (onlyAttributed_augmented hlead').key
      obtain ⟨t', hupdate, htable⟩ := update_eq hmem hkeyc hkeye
      rw [Lead.write_current_loaded] at hupdate htable
      refine ⟨q, lead', t', rfl, hlead', htable, ?_⟩
      rw [leadOf] at hfound
      simp only [importLead, hcampaign, hfound, hlead', hupdate]
  | none =>
      right
      rw [leadOf] at hfound
      by_cases hactive : campaign.status = .active
      · left
        rcases captureInCampaign_spec py campaign entry.2 now run.table
            (Or.inr hfound.symm) with ⟨row, _, hrow, -⟩ | ⟨t', -, hinsert, hcall⟩
        · rw [hfound] at hrow
          cases hrow
        · have hcapture : captureLeadCreated py campaigns nogSlug entry.2 now false run.table =
              (t', .ok ((run.table.nextId, mergedLead py campaign entry.2 now none), true)) := by
            simp only [captureLeadCreated, hcampaign, ne_eq, hactive, not_true_eq_false, if_false, hfound,
              hcall, Bool.false_eq_true]
          have hmem : (run.table.nextId, mergedLead py campaign entry.2 now none) ∈ t'.rows :=
            (Table.mem_of_insert hinsert).2 (Or.inr rfl)
          -- the second statement writes the tag
          obtain ⟨t'', hupdate, htable⟩ := @update_eq t'
            (run.table.nextId, mergedLead py campaign entry.2 now none) (insertedLead py campaign now entry)
            _ hmem rfl rfl
          rw [Lead.write_current_loaded] at hupdate htable
          refine ⟨rfl, hactive, t'', fun q => ?_, ?_⟩
          · rw [Table.mem_of_update htable, Table.mem_of_insert hinsert]
            constructor
            · rintro (⟨hold | rfl, hne⟩ | ⟨rfl, -⟩)
              · exact Or.inl hold
              · exact absurd rfl hne
              · exact Or.inr rfl
            · rintro (hold | rfl)
              · exact Or.inl ⟨Or.inl hold, Nat.ne_of_lt (run.table.id_lt q hold)⟩
              · exact Or.inr ⟨rfl, _, hmem⟩
          · rw [insertedLead] at hupdate
            simp only [importLead, hcampaign, hfound, hcapture, hupdate]
      · right
        refine ⟨rfl, hactive, ?_⟩
        simp only [importLead, hcampaign, hfound, captureLeadCreated, ne_eq, hactive, not_false_eq_true,
          if_true]

theorem takesMembers_augmented {lead' : Lead} {rep : String} {payload : LeadCreateRequest}
    (h : augmentExisting lead rep payload = .ok lead') : takesMembers lead'.responses = true := by
  obtain ⟨members, -, hattributed⟩ := responses_augmented h
  rw [takesMembers, hattributed]

theorem takesMembers_insertedLead (py : LowerCase) (campaign : Campaign) (now : Datetime)
    (entry : String × LeadCreateRequest) :
    takesMembers (insertedLead py campaign now entry).responses = true := by
  change takesMembers (.obj entry.2.responses) = true
  by_cases htruthy : (Json.obj entry.2.responses).truthy = true
  · rw [takesMembers, Json.orElse, if_pos htruthy]
  · rw [takesMembers, Json.orElse, if_neg htruthy]

theorem objectResponses_importLead (hobjects : ObjectResponses run.table)
    (hcampaign : getBySlug campaigns nogSlug = some campaign) :
    ObjectResponses (importLead py campaigns now entry run).table := by
  rcases importLead_cases hobjects hcampaign with
    ⟨q, lead', t', -, haugment, hupdate, hrun⟩ | ⟨-, -, t', hrows, hrun⟩ | ⟨-, -, hrun⟩
  · rw [hrun]
    intro r hr
    rcases (Table.mem_of_update hupdate).1 hr with ⟨hold, -⟩ | ⟨rfl, -⟩
    · exact hobjects r hold
    · exact takesMembers_augmented haugment
  · rw [hrun]
    intro r hr
    rcases (hrows r).1 hr with hold | rfl
    · exact hobjects r hold
    · exact takesMembers_insertedLead py campaign now entry
  · rw [hrun]
    exact hobjects

theorem grows_refl (t : LeadTable) : Grows py campaign entries t t where
  kept q hq := ⟨q, hq, rfl, onlyAttributed_refl q.2⟩
  added q' hq' := Or.inl ⟨q', hq', rfl⟩

theorem Grows.trans (h : Grows py campaign entries t t') (h' : Grows py campaign entries t' t'') :
    Grows py campaign entries t t'' where
  kept q hq := by
    obtain ⟨q', hq', hid, honly⟩ := h.kept q hq
    obtain ⟨q'', hq'', hid', honly'⟩ := h'.kept q' hq'
    exact ⟨q'', hq'', hid'.trans hid, honly.trans honly'⟩
  added q'' hq'' := by
    rcases h'.added q'' hq'' with ⟨q', hq', hid'⟩ | hsheet
    · rcases h.added q' hq' with ⟨q, hq, hid⟩ | ⟨entry, hentry, now, honly⟩
      · exact Or.inl ⟨q, hq, hid.trans hid'⟩
      · -- the lead that was added has got more
        obtain ⟨r, hr, hrid, honly'⟩ := h'.kept q' hq'
        obtain rfl := Table.eq_of_id hr hq'' (hrid.trans hid')
        exact Or.inr ⟨entry, hentry, now, honly.trans honly'⟩
    · exact Or.inr hsheet

theorem grows_importLead (hobjects : ObjectResponses run.table)
    (hcampaign : getBySlug campaigns nogSlug = some campaign) (hentry : entry ∈ entries) :
    Grows py campaign entries run.table (importLead py campaigns now entry run).table := by
  rcases importLead_cases hobjects hcampaign with
    ⟨q, lead', t', hfound, haugment, hupdate, hrun⟩ | ⟨-, -, t', hrows, hrun⟩ | ⟨-, -, hrun⟩
  · rw [hrun]
    obtain ⟨hmem, -, -⟩ := leadOf_eq_some_iff.1 hfound
    constructor
    · intro r hr
      by_cases hid : r.1 = q.1
      · obtain rfl := Table.eq_of_id hr hmem hid
        exact ⟨(r.1, lead'), (Table.mem_of_update hupdate).2 (Or.inr ⟨rfl, r.2, hmem⟩), rfl,
          onlyAttributed_augmented haugment⟩
      · exact ⟨r, (Table.mem_of_update hupdate).2 (Or.inl ⟨hr, hid⟩), rfl, onlyAttributed_refl r.2⟩
    · intro r hr
      rcases (Table.mem_of_update hupdate).1 hr with ⟨hold, -⟩ | ⟨rfl, old, hold⟩
      · exact Or.inl ⟨r, hold, rfl⟩
      · exact Or.inl ⟨(q.1, old), hold, rfl⟩
  · rw [hrun]
    constructor
    · exact fun r hr => ⟨r, (hrows r).2 (Or.inl hr), rfl, onlyAttributed_refl r.2⟩
    · intro r hr
      rcases (hrows r).1 hr with hold | rfl
      · exact Or.inl ⟨r, hold, rfl⟩
      · exact Or.inr ⟨entry, hentry, now, onlyAttributed_refl _⟩
  · rw [hrun]
    exact grows_refl run.table

/-! ## Done for good -/

/-- Leads do not lose their address. -/
theorem leadOf_importLead (hobjects : ObjectResponses run.table)
    (hcampaign : getBySlug campaigns nogSlug = some campaign)
    (hfound : leadOf py campaign other.2 run.table = some q) :
    (∃ lead', leadOf py campaign other.2 (importLead py campaigns now entry run).table = some (q.1, lead') ∧
      augmentExisting q.2 entry.1 entry.2 = .ok lead') ∨
    leadOf py campaign other.2 (importLead py campaigns now entry run).table = some q := by
  obtain ⟨hmem, hqc, hqe⟩ := leadOf_eq_some_iff.1 hfound
  rcases importLead_cases hobjects hcampaign with
    ⟨r, lead', t', hr, haugment, hupdate, hrun⟩ | ⟨-, -, t', hrows, hrun⟩ | ⟨-, -, hrun⟩
  · rw [hrun]
    by_cases hid : q.1 = r.1
    · obtain rfl := Table.eq_of_id hmem (leadOf_eq_some_iff.1 hr).1 hid
      obtain ⟨hkeyc, hkeye⟩ := (onlyAttributed_augmented haugment).key
      exact Or.inl ⟨lead', leadOf_eq_some_iff.2 ⟨(Table.mem_of_update hupdate).2
        (Or.inr ⟨rfl, q.2, hmem⟩), hkeyc.trans hqc, hkeye.trans hqe⟩, haugment⟩
    · exact Or.inr (leadOf_eq_some_iff.2
        ⟨(Table.mem_of_update hupdate).2 (Or.inl ⟨hmem, hid⟩), hqc, hqe⟩)
  · rw [hrun]
    exact Or.inr (leadOf_eq_some_iff.2 ⟨(hrows q).2 (Or.inl hmem), hqc, hqe⟩)
  · rw [hrun]
    exact Or.inr hfound

/-- A new lead has what the script attaches. -/
theorem augment_insertedLead (hnotes : NotesRep entry) :
    augmentExisting (insertedLead py campaign now entry) entry.1 entry.2 =
      .ok (insertedLead py campaign now entry) := by
  obtain ⟨hkey, hbatch, hvalues⟩ := hnotes
  have hmembers : (insertedLead py campaign now entry).responses.orElse (.obj []) =
      .obj entry.2.responses := by
    change (Json.obj entry.2.responses).orElse (.obj []) = _
    have hne : entry.2.responses ≠ [] := by
      intro hnil
      rw [hnil] at hkey
      cases hkey
    simp [Json.orElse, Json.truthy, hne]
  refine augment_fixed_iff.2 ⟨repTag_mem_withRepTag _ _,
    ⟨entry.2.responses, hmembers, attributed_of_values hkey hbatch hvalues _⟩, ?_⟩
  change filledPhone (entry.2.phone.getD "") entry.2.phone = entry.2.phone.getD ""
  by_cases hblank : entry.2.phone.getD "" = ""
  · exact if_pos hblank
  · exact if_neg hblank

/-- The turn of an address leaves nothing to do about it. -/
theorem done_importLead (hnotes : NotesRep entry) (hobjects : ObjectResponses run.table)
    (hcampaign : getBySlug campaigns nogSlug = some campaign) :
    Done py campaign (importLead py campaigns now entry run).table entry := by
  rcases importLead_cases hobjects hcampaign with
    ⟨q, lead', t', hfound, haugment, hupdate, hrun⟩ | ⟨-, -, t', hrows, hrun⟩ | ⟨hnone, hinactive, hrun⟩
  · rw [hrun]
    obtain ⟨hmem, hqc, hqe⟩ := leadOf_eq_some_iff.1 hfound
    obtain ⟨hkeyc, hkeye⟩ := (onlyAttributed_augmented haugment).key
    exact Or.inl ⟨(q.1, lead'), leadOf_eq_some_iff.2 ⟨(Table.mem_of_update hupdate).2
      (Or.inr ⟨rfl, q.2, hmem⟩), hkeyc.trans hqc, hkeye.trans hqe⟩, augment_self haugment⟩
  · rw [hrun]
    refine Or.inl ⟨(run.table.nextId, insertedLead py campaign now entry),
      leadOf_eq_some_iff.2 ⟨(hrows _).2 (Or.inr rfl), rfl, rfl⟩, augment_insertedLead hnotes⟩
  · rw [hrun]
    exact Or.inr ⟨hinactive, hnone⟩

/-- What is done stays done. -/
theorem done_stable (hobjects : ObjectResponses run.table)
    (hcampaign : getBySlug campaigns nogSlug = some campaign) (hdone : Done py campaign run.table other) :
    Done py campaign (importLead py campaigns now entry run).table other := by
  rcases hdone with ⟨q, hfound, hfixed⟩ | ⟨hinactive, hnone⟩
  · rcases @leadOf_importLead py campaigns campaign now entry other run q hobjects hcampaign hfound with
      ⟨lead', hlead', haugment⟩ | hsame
    · exact Or.inl ⟨(q.1, lead'), hlead', augment_stable hfixed haugment⟩
    · exact Or.inl ⟨q, hsame, hfixed⟩
  · refine Or.inr ⟨hinactive, ?_⟩
    -- no lead is added, and those that are there keep their addresses
    rcases importLead_cases hobjects hcampaign with
      ⟨r, lead', t', hr, haugment, hupdate, hrun⟩ | ⟨-, hactive, -⟩ | ⟨-, -, hrun⟩
    · rw [hrun]
      cases hlater : leadOf py campaign other.2 t' with
      | none => rfl
      | some q =>
          obtain ⟨hmem, hqc, hqe⟩ := leadOf_eq_some_iff.1 hlater
          rcases (Table.mem_of_update hupdate).1 hmem with ⟨hold, -⟩ | ⟨rfl, -⟩
          · rw [leadOf_eq_some_iff.2 ⟨hold, hqc, hqe⟩] at hnone
            cases hnone
          · obtain ⟨hkeyc, hkeye⟩ := (onlyAttributed_augmented haugment).key
            rw [leadOf_eq_some_iff.2 ⟨(leadOf_eq_some_iff.1 hr).1, hkeyc.symm.trans hqc,
              hkeye.symm.trans hqe⟩] at hnone
            cases hnone
    · exact absurd hactive hinactive
    · rw [hrun]
      exact hnone

/-- A turn about an address that is done changes nothing. -/
theorem importLead_of_done (hobjects : ObjectResponses run.table)
    (hcampaign : getBySlug campaigns nogSlug = some campaign) (hdone : Done py campaign run.table entry) :
    (importLead py campaigns now entry run).table = run.table ∧
      (importLead py campaigns now entry run).inserted = run.inserted := by
  rcases importLead_cases hobjects hcampaign with
    ⟨q, lead', t', hfound, haugment, hupdate, hrun⟩ | ⟨hnone, hactive, -⟩ | ⟨-, -, hrun⟩
  · rw [hrun]
    rcases hdone with ⟨r, hr, hfixed⟩ | ⟨-, hnone⟩
    · rw [hfound] at hr
      obtain rfl := Option.some.inj hr
      rw [haugment] at hfixed
      obtain rfl := Except.ok.inj hfixed
      rw [Table.update_self (leadOf_eq_some_iff.1 hfound).1] at hupdate
      exact ⟨(Option.some.inj hupdate).symm, rfl⟩
    · rw [hfound] at hnone
      cases hnone
  · rcases hdone with ⟨r, hr, -⟩ | ⟨hinactive, -⟩
    · rw [hnone] at hr
      cases hr
    · exact absurd hactive hinactive
  · rw [hrun]
    exact ⟨rfl, rfl⟩

end Step

/-! ## The sheet -/

section Runs

variable {lib : SheetLib} {campaigns : List Campaign} {campaign : Campaign} {clock clock' : ℕ → Datetime}
  {tabs : List Tab} {entry : String × LeadCreateRequest} {entries all : List (String × LeadCreateRequest)}
  {run : ImportRun} {t : LeadTable} {collected : Collected}

/-- Every submission of the sheet notes its rep. -/
theorem notesRep_of_mem (h : entry ∈ importable lib tabs) : NotesRep entry := by
  obtain ⟨row, -, hrow⟩ := List.mem_filterMap.1 h
  obtain ⟨payload, hpayload, rfl⟩ := Option.map_eq_some_iff.1 hrow
  have hresponses : ∃ email phone, payload = requestOf lib.py row.1 row.2 email phone := by
    have hok : rowToPayload lib row.1 row.2 = .ok payload := by
      cases hread : rowToPayload lib row.1 row.2 with
      | error e =>
          rw [hread] at hpayload
          cases hpayload
      | ok read =>
          rw [hread] at hpayload
          rw [Option.some.inj hpayload]
    exact eq_requestOf hok
  obtain ⟨email, phone, rfl⟩ := hresponses
  have hanswers : (requestOf lib.py row.1 row.2 email phone).responses = answersOf row.1 row.2 := rfl
  constructor
  · rw [hanswers]
    rfl
  · rw [hanswers]
    rfl
  · rw [hanswers]
    intro m hm hkey
    simp only [answersOf, List.mem_cons, List.not_mem_nil, or_false] at hm
    rcases hm with rfl | rfl | rfl | rfl | rfl | rfl | rfl
    · rfl
    all_goals
      simp only [capturedByKey] at hkey
      exact absurd hkey (by decide)

/-- **The loop**, for a campaign that is there. -/
theorem importLoop_spec (i : ℕ) (hcampaign : getBySlug campaigns nogSlug = some campaign)
    (hnotes : ∀ e ∈ entries, NotesRep e ∧ e ∈ all) (hobjects : ObjectResponses run.table) :
    Grows lib.py campaign all run.table (importLoop lib.py campaigns clock i entries run).table ∧
      ObjectResponses (importLoop lib.py campaigns clock i entries run).table ∧
      ∀ e, (e ∈ entries ∨ Done lib.py campaign run.table e) →
        Done lib.py campaign (importLoop lib.py campaigns clock i entries run).table e := by
  induction entries generalizing i run with
  | nil =>
      refine ⟨grows_refl run.table, hobjects, ?_⟩
      rintro e (hmem | hdone)
      · cases hmem
      · exact hdone
  | cons entry rest ih =>
      obtain ⟨⟨hentry, hall⟩, hrest⟩ := List.forall_mem_cons.1 hnotes
      have hobjects' := @objectResponses_importLead lib.py campaigns campaign (clock i) entry run hobjects
        hcampaign
      obtain ⟨hgrows, hlater, hdone⟩ := ih (i + 1) hrest hobjects'
      refine ⟨(grows_importLead hobjects hcampaign hall).trans hgrows, hlater, ?_⟩
      rintro e (hmem | hbefore)
      · rcases List.mem_cons.1 hmem with rfl | hmem
        · exact hdone e (Or.inr (done_importLead hentry hobjects hcampaign))
        · exact hdone e (Or.inl hmem)
      · exact hdone e (Or.inr (done_stable hobjects hcampaign hbefore))

/-- The loop over addresses that are done. -/
theorem importLoop_of_done (i : ℕ) (hcampaign : getBySlug campaigns nogSlug = some campaign)
    (hobjects : ObjectResponses run.table) (hdone : ∀ e ∈ entries, Done lib.py campaign run.table e) :
    (importLoop lib.py campaigns clock i entries run).table = run.table ∧
      (importLoop lib.py campaigns clock i entries run).inserted = run.inserted := by
  induction entries generalizing i run with
  | nil => exact ⟨rfl, rfl⟩
  | cons entry rest ih =>
      obtain ⟨hentry, hrest⟩ := List.forall_mem_cons.1 hdone
      obtain ⟨htable, hinserted⟩ := @importLead_of_done lib.py campaigns campaign (clock i) entry run hobjects
        hcampaign hentry
      obtain ⟨htable', hinserted'⟩ := @ih (importLead lib.py campaigns (clock i) entry run) (i + 1)
        (htable ▸ hobjects) (htable ▸ hrest)
      exact ⟨htable'.trans htable, hinserted'.trans hinserted⟩

/-- Without the campaign nothing happens. -/
theorem importLoop_of_none (i : ℕ) (hnone : getBySlug campaigns nogSlug = none) :
    (importLoop lib.py campaigns clock i entries run).table = run.table ∧
      (importLoop lib.py campaigns clock i entries run).inserted = run.inserted := by
  induction entries generalizing i run with
  | nil => exact ⟨rfl, rfl⟩
  | cons entry rest ih =>
      have hturn : importLead lib.py campaigns (clock i) entry run = { run with failed := run.failed + 1 } := by
        rw [importLead, hnone]
      obtain ⟨htable, hinserted⟩ := @ih (importLead lib.py campaigns (clock i) entry run) (i + 1)
      rw [hturn] at htable hinserted
      rw [importLoop, hturn]
      exact ⟨htable, hinserted⟩

theorem runImport_eq_ok_iff : runImport lib campaigns clock tabs t = .ok run ↔
    ∃ collected, collect lib tabs = .ok collected ∧
      run = importLoop lib.py campaigns clock 0 collected.payloads { table := t } := by
  rw [runImport, bind_eq_ok]
  exact exists_congr fun collected => and_congr_right fun _ =>
    ⟨fun h => (Except.ok.inj h).symm, fun h => h ▸ rfl⟩

/-- The submissions that the loop goes through. -/
theorem mem_payloads (hcollect : collect lib tabs = .ok collected) :
    ∀ e ∈ collected.payloads, NotesRep e ∧ e ∈ firstByAddress (importable lib tabs) := by
  intro e he
  rw [payloads_collect hcollect] at he
  exact ⟨notesRep_of_mem (List.mem_of_find?_eq_some (mem_firstByAddress.1 he)), he⟩

/-- The first row with the address of a row. -/
theorem exists_first (hentry : entry ∈ importable lib tabs) : ∃ first,
    (importable lib tabs).find? (fun p => sameAddress entry.2 p.2) = some first ∧
      first.2.email = entry.2.email ∧ first ∈ firstByAddress (importable lib tabs) := by
  cases hfound : (importable lib tabs).find? fun p => sameAddress entry.2 p.2 with
  | none => exact absurd (decide_eq_true rfl) (List.find?_eq_none.1 hfound entry hentry)
  | some first =>
      have hsame : sameAddress entry.2 first.2 = true := by simpa only using List.find?_some hfound
      have hemail : first.2.email = entry.2.email := Subtype.ext (of_decide_eq_true hsame)
      refine ⟨first, rfl, hemail, mem_firstByAddress.2 ?_⟩
      simpa only [sameAddress, hemail] using hfound

end Runs

/-! ## A person whom two reps met -/

def plainSheetLib : SheetLib where
  py := asciiLower
  isDecimal := Char.isDigit
  intOfFloat _ := .error .valueError
  validateEmail text := if h : '@' ∈ text.toList then some ⟨text, h⟩ else none

def heading : List (List String) := [["DAILY TEAM REPORT"], [], [], ["Date", "Full Name", "Company"]]

/-- Both reps have the card of one person, and one of them that of another. -/
def twoTabs : List Tab :=
  [⟨"Favour", heading ++ [["", "Engr. Ada Obi, MNSE", "Acme", "CEO", "ada@x.ng/", "8031234567", "", "Yes",
      "office", ""]]⟩,
    ⟨"Jessica", heading ++ [["", "Ada Obi", "Acme", "", "ADA@X.NG", "", "", "", "", ""],
      ["", "Obi", "", "", "obi@x.ng", "", "", "", "", ""], ["", "Nobody"]]⟩]

/-- The first of them is a lead already. -/
def kioskLead : LeadTable := (((Table.empty _).insert (newLead 1 "ada@x.ng")).map Prod.snd).getD (Table.empty _)

end SalesTrades.Leads.RepImport
