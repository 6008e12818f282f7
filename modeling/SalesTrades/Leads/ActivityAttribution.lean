import SalesTrades.Deals.WebhookDates
import SalesTrades.Leads.Capture
import SalesTrades.Leads.NogActivitySync

/-!
# The contact of an activity

A row of `contact_activity` has the id of a remote item as its key, so an item that is listed under two
contacts ends up with the one that is visited last, and the next run, in another order, moves it to the
other. The name in a row is that of the last lead of its contact. So every contact keeps its activities,
and a second run changes nothing, exactly when no item is listed under two contacts and the leads of a
contact with rows have one name (`attributed_iff`).
-/

set_option autoImplicit false

namespace SalesTrades.Leads.NogActivitySync

open SalesTrades.Library SalesTrades.Library.Keyed SalesTrades.Deals SalesTrades.Freshsales

/-! ## What a run should do -/

/-- The contacts of the leads. -/
def contactIds (lib : ActivityLib) (leads : List LeadRow) : List Int :=
  leads.filterMap fun lead => (contactOf lib lead).toOption

/-- Every e-mail and note with a time has a row under each contact that the CRM lists it for. -/
def Attributed (lib : ActivityLib) (crm : Crm) (cids : List Int) (t : ActivityTable) : Prop :=
  ∀ cid ∈ cids, ∀ p ∈ listedItems lib crm cid,
    ∃ row ∈ t.rows, row.contactId = cid ∧ row.sourceKey = p.2.sourceKey

/-- A run goes through and leaves the table as it is, in whatever order the leads come. -/
def Steady (lib : ActivityLib) (crm : Crm) (fuel : ℕ) (campaigns : List Campaign)
    (leads : List LeadRow) (t : ActivityTable) : Prop :=
  ∀ leads', leads'.Perm leads →
    ∃ c, runNogActivitySync lib crm fuel campaigns leads' none t = some ⟨t, .counted c⟩

/-! ## The condition -/

def itemKey (p : Int × Item) : String := p.2.sourceKey

/-- No e-mail and no note with a time is listed under two contacts. -/
def OneContactPerItem (lib : ActivityLib) (crm : Crm) (cids : List Int) : Prop :=
  ∀ cid ∈ cids, ∀ cid' ∈ cids, ∀ p ∈ listedItems lib crm cid, ∀ p' ∈ listedItems lib crm cid',
    itemKey p = itemKey p' → cid = cid'

/-- The last sales activity of each id that is about one of the contacts. -/
def lastSales (lib : ActivityLib) (crm : Crm) (fuel : ℕ) (cids : List Int) : List (Int × Item) :=
  match listedSales lib crm fuel cids.toFinset with
  | some (.ok sales) => lasting itemKey sales
  | _ => []

/-- The CRM has something about the contact that makes a row. -/
def HasRows (lib : ActivityLib) (crm : Crm) (fuel : ℕ) (cids : List Int) (cid : Int) : Prop :=
  listedItems lib crm cid ≠ [] ∨ ∃ p ∈ lastSales lib crm fuel cids, p.1 = cid

/-- The leads of a contact with rows have one name. -/
def OneNamePerContact (lib : ActivityLib) (crm : Crm) (fuel : ℕ) (leads : List LeadRow) : Prop :=
  ∀ lead ∈ leads, ∀ lead' ∈ leads, ∀ cid, contactOf lib lead = .ok cid →
    contactOf lib lead' = .ok cid → HasRows lib crm fuel (contactIds lib leads) cid →
      contactName lead = contactName lead'

/-! ## The items of a run -/

section Items

variable {lib : ActivityLib} {crm : Crm} {fuel : ℕ} {cid : Int} {cids cids' : List Int}
  {ids : Finset Int} {read : Json → Except PyError (Option (Int × Item))} {xs : List Json} {x : Json}
  {items sales : List (Int × Item)} {p : Int × Item} {k : String}
  {typeMap : List (Json × ActivityType)}

theorem mem_readAll (h : readAll read xs = .ok items) (hp : p ∈ items) :
    ∃ x ∈ xs, read x = .ok (some p) := by
  induction xs generalizing items with
  | nil =>
      obtain rfl := Except.ok.inj h
      cases hp
  | cons x xs ih =>
      obtain ⟨found, hfound, h⟩ := bind_eq_ok.1 h
      obtain ⟨rest, hrest, h⟩ := bind_eq_ok.1 h
      obtain rfl := Except.ok.inj h
      rcases List.mem_append.1 hp with hnow | hlater
      · refine ⟨x, List.mem_cons_self, ?_⟩
        rw [hfound, Option.mem_toList.1 hnow]
      · obtain ⟨x', hx', hread⟩ := ih hrest hlater
        exact ⟨x', List.mem_cons_of_mem x hx', hread⟩

/-- The first letter of a key tells what it is the key of. -/
def keyLetter (p : Int × Item) : Option Char := (itemKey p).toList.head?

theorem emailItem_spec (h : emailItem lib cid x = .ok (some p)) :
    p.1 = cid ∧ keyLetter p = some 'e' := by
  obtain ⟨time, -, h⟩ := bind_eq_ok.1 h
  obtain ⟨occurredAt, -, h⟩ := bind_eq_ok.1 h
  cases occurredAt with
  | none => cases h
  | some occurredAt =>
      obtain ⟨direction, -, h⟩ := bind_eq_ok.1 h
      obtain ⟨subject, -, h⟩ := bind_eq_ok.1 h
      obtain ⟨id, -, h⟩ := bind_eq_ok.1 h
      obtain rfl := Option.some.inj (Except.ok.inj h)
      refine ⟨rfl, ?_⟩
      simp [keyLetter, itemKey]

theorem noteItem_spec (h : noteItem lib cid x = .ok (some p)) :
    p.1 = cid ∧ keyLetter p = some 'n' := by
  obtain ⟨created, -, h⟩ := bind_eq_ok.1 h
  obtain ⟨updated, -, h⟩ := bind_eq_ok.1 h
  obtain ⟨occurredAt, -, h⟩ := bind_eq_ok.1 h
  cases occurredAt with
  | none => cases h
  | some occurredAt =>
      obtain ⟨description, -, h⟩ := bind_eq_ok.1 h
      obtain ⟨desc, -, h⟩ := bind_eq_ok.1 h
      obtain ⟨id, -, h⟩ := bind_eq_ok.1 h
      obtain rfl := Option.some.inj (Except.ok.inj h)
      refine ⟨rfl, ?_⟩
      simp [keyLetter, itemKey]

theorem contactIn_mem {value : Json} (h : contactIn ids value = some cid) : cid ∈ ids := by
  rw [contactIn.eq_def] at h
  split at h
  · split at h
    · rename_i hmem
      rw [← Option.some.inj h]
      exact hmem.2
    · cases h
  · cases h

theorem salesItem_spec (h : salesItem lib typeMap ids x = .ok (some p)) :
    p.1 ∈ ids ∧ keyLetter p = some 's' := by
  obtain ⟨targetable, -, h⟩ := bind_eq_ok.1 h
  obtain ⟨type, -, h⟩ := bind_eq_ok.1 h
  split at h
  · cases h
  · obtain ⟨id, -, h⟩ := bind_eq_ok.1 h
    obtain ⟨key, -, h⟩ := bind_eq_ok.1 h
    cases hcontact : contactIn ids key with
    | none =>
        rw [hcontact] at h
        cases h
    | some cid =>
        rw [hcontact] at h
        obtain ⟨created, -, h⟩ := bind_eq_ok.1 h
        obtain ⟨start, -, h⟩ := bind_eq_ok.1 h
        obtain ⟨occurredAt, -, h⟩ := bind_eq_ok.1 h
        cases occurredAt with
        | none => cases h
        | some occurredAt =>
            obtain ⟨typeId, -, h⟩ := bind_eq_ok.1 h
            obtain ⟨kind, -, h⟩ := bind_eq_ok.1 h
            obtain ⟨title, -, h⟩ := bind_eq_ok.1 h
            obtain ⟨id, -, h⟩ := bind_eq_ok.1 h
            obtain rfl := Option.some.inj (Except.ok.inj h)
            refine ⟨contactIn_mem hcontact, ?_⟩
            simp [keyLetter, itemKey]

/-- An item that is listed under a contact is recorded for it. -/
theorem mem_listedItems (hp : p ∈ listedItems lib crm cid) : p.1 = cid ∧ keyLetter p ≠ some 's' := by
  rw [listedItems] at hp
  cases h : listed lib crm cid with
  | error e =>
      rw [h] at hp
      cases hp
  | ok items =>
      rw [h] at hp
      obtain ⟨conv, -, h⟩ := bind_eq_ok.1 h
      obtain ⟨emails, hemails, h⟩ := bind_eq_ok.1 h
      obtain ⟨answer, -, h⟩ := bind_eq_ok.1 h
      obtain ⟨notes, hnotes, h⟩ := bind_eq_ok.1 h
      obtain rfl := Except.ok.inj h
      rcases List.mem_append.1 hp with hp | hp
      · obtain ⟨x, -, hx⟩ := mem_readAll hemails hp
        obtain ⟨hcid, hletter⟩ := emailItem_spec hx
        exact ⟨hcid, by rw [hletter]; decide⟩
      · obtain ⟨x, -, hx⟩ := mem_readAll hnotes hp
        obtain ⟨hcid, hletter⟩ := noteItem_spec hx
        exact ⟨hcid, by rw [hletter]; decide⟩

theorem mem_listedSales (h : listedSales lib crm fuel ids = some (.ok sales)) (hp : p ∈ sales) :
    p.1 ∈ ids ∧ keyLetter p = some 's' := by
  rw [listedSales] at h
  cases htypes : activityTypeMap lib.py crm.salesActivityTypes with
  | error e =>
      rw [htypes] at h
      cases h
  | ok typeMap =>
      rw [htypes] at h
      cases hwalk : iterSalesActivities crm.salesActivities fuel with
      | none =>
          rw [hwalk] at h
          cases h
      | some w =>
          rw [hwalk] at h
          obtain ⟨items, hread, h⟩ := bind_eq_ok.1 (Option.some.inj h)
          cases hraised : w.raised with
          | some e =>
              rw [hraised] at h
              cases h
          | none =>
              rw [hraised] at h
              obtain rfl := Except.ok.inj h
              obtain ⟨x, -, hx⟩ := mem_readAll hread hp
              exact salesItem_spec hx

theorem letters_of_listedSales (h : listedSales lib crm fuel ids = some (.ok sales)) :
    ∀ p ∈ sales, keyLetter p = some 's' :=
  fun _ hp => (mem_listedSales h hp).2

/-! ## The last item of a key -/

theorem lastWith_sales_eq_none (hsales : ∀ p ∈ sales, keyLetter p = some 's')
    (hk : k.toList.head? ≠ some 's') : lastWith itemKey k sales = none := by
  rw [lastWith_eq_none_iff, List.mem_map]
  rintro ⟨p, hp, rfl⟩
  exact hk (hsales p hp)

theorem lastWith_visits_eq_none (hk : k.toList.head? = some 's') :
    lastWith itemKey k (cids.flatMap (listedItems lib crm)) = none := by
  rw [lastWith_eq_none_iff, List.mem_map]
  rintro ⟨p, hp, rfl⟩
  obtain ⟨cid, -, hlisted⟩ := List.mem_flatMap.1 hp
  exact (mem_listedItems hlisted).2 hk

/-- An item of a contact is replaced by later items of this contact only. -/
theorem lastWith_allItems_listed (hone : OneContactPerItem lib crm cids)
    (hsales : ∀ p ∈ sales, keyLetter p = some 's') (hcid : cid ∈ cids)
    (hp : p ∈ listedItems lib crm cid) : lastWith itemKey (itemKey p) (allItems lib crm cids sales) =
      lastWith itemKey (itemKey p) (listedItems lib crm cid) := by
  -- no sales activity has the key of an e-mail or a note
  rw [allItems, lastWith_append, lastWith_sales_eq_none hsales (mem_listedItems hp).2, Option.none_or]
  apply lastWith_flatMap hcid
  intro cid' hcid' hne
  rw [lastWith_eq_none_iff, List.mem_map]
  rintro ⟨p', hp', hkey⟩
  exact hne (hone cid' hcid' cid hcid p' hp' p hp hkey)

theorem lastWith_allItems_sales (hk : k.toList.head? = some 's') :
    lastWith itemKey k (allItems lib crm cids sales) = lastWith itemKey k sales := by
  rw [allItems, lastWith_append, lastWith_visits_eq_none hk, Option.or_none]

/-- The order of the contacts makes no difference for the items that last. -/
theorem lastWith_allItems_congr (hone : OneContactPerItem lib crm cids)
    (hsales : ∀ p ∈ sales, keyLetter p = some 's') (hmem : ∀ c, c ∈ cids' ↔ c ∈ cids) :
    lastWith itemKey k (allItems lib crm cids' sales) =
      lastWith itemKey k (allItems lib crm cids sales) := by
  by_cases hlisted : ∃ cid ∈ cids, ∃ p ∈ listedItems lib crm cid, itemKey p = k
  · obtain ⟨cid, hcid, p, hp, rfl⟩ := hlisted
    have hone' : OneContactPerItem lib crm cids' := by
      intro c hc c' hc'
      exact hone c ((hmem c).1 hc) c' ((hmem c').1 hc')
    rw [lastWith_allItems_listed hone hsales hcid hp,
      lastWith_allItems_listed hone' hsales ((hmem cid).2 hcid) hp]
  · -- a key that no contact has is that of a sales activity, or of nothing
    have hnone : ∀ cs : List Int, (∀ c ∈ cs, c ∈ cids) →
        lastWith itemKey k (cs.flatMap (listedItems lib crm)) = none := by
      intro cs hcs
      rw [lastWith_eq_none_iff, List.mem_map]
      rintro ⟨p, hp, hkey⟩
      obtain ⟨cid, hcid, hp⟩ := List.mem_flatMap.1 hp
      exact hlisted ⟨cid, hcs cid hcid, p, hp, hkey⟩
    rw [allItems, allItems, lastWith_append, lastWith_append, hnone cids fun _ h => h,
      hnone cids' fun c hc => (hmem c).1 hc]

end Items

/-! ## Rows -/

section Rows

variable {lib : ActivityLib} {crm : Crm} {base : Int → Base} {cid : Int} {cids : List Int}
  {sales : List (Int × Item)} {p : Int × Item} {t t' : ActivityTable}

/-- The item that lasts has its row in the table. -/
theorem mem_of_lastWith
    (hrows : t'.rows = putAll Activity.sourceKey (written lib crm base cids sales) t.rows)
    (hlast : lastWith itemKey (itemKey p) (allItems lib crm cids sales) = some p) :
    activityRow lib (base p.1) p.2 ∈ t'.rows := by
  rw [hrows]
  apply mem_putAll_of_lastWith (k := itemKey p)
  rw [written, lastWith_map]
  exact congrArg (Option.map _) hlast

/-- **Attribution.** Every contact keeps its items exactly when no item is listed under two contacts. -/
theorem attributed_iff_oneContact (hbase : ∀ c, (base c).contactId = c)
    (hsales : ∀ p ∈ sales, keyLetter p = some 's')
    (hrows : t'.rows = putAll Activity.sourceKey (written lib crm base cids sales) t.rows) :
    Attributed lib crm cids t' ↔ OneContactPerItem lib crm cids := by
  constructor
  · intro h cid hcid cid' hcid' p hp p' hp' hkey
    obtain ⟨row, hrow, hcontact, hrowkey⟩ := h cid hcid p hp
    obtain ⟨row', hrow', hcontact', hrowkey'⟩ := h cid' hcid' p' hp'
    have hsame : row = row' :=
      List.inj_on_of_nodup_map t'.nodup hrow hrow' (hrowkey.trans (hkey.trans hrowkey'.symm))
    rw [← hcontact, ← hcontact', hsame]
  · intro hone cid hcid p hp
    have hlast := lastWith_allItems_listed hone hsales hcid hp
    obtain ⟨w, hmem, hkey, hw⟩ := @exists_lastWith _ _ _ itemKey p _ hp
    rw [hw, ← hkey] at hlast
    refine ⟨_, mem_of_lastWith hrows hlast, ?_, hkey⟩
    exact (hbase w.1).trans (mem_listedItems hmem).1

end Rows

/-! ## Orders of the leads -/

section Orders

variable {lib : ActivityLib} {crm : Crm} {fuel : ℕ} {campaigns : List Campaign} {campaign : Campaign}
  {dir : Directory} {leads leads' : List LeadRow} {contacts contacts' : List (Int × LeadRow)}
  {cid : Int} {lead : LeadRow} {sales : List (Int × Item)} {p : Int × Item} {t : ActivityTable}

/-- The id of the contact of a lead. -/
def contactIdOf (lib : ActivityLib) (lead : LeadRow) : Int := (contactOf lib lead).toOption.getD 0

theorem contactIdOf_eq (h : contactOf lib lead = .ok cid) : contactIdOf lib lead = cid := by
  rw [contactIdOf, h]
  rfl

/-- The list is built exactly when every lead has the id of a contact. -/
theorem contactsOf_eq_ok_iff : contactsOf lib leads = .ok contacts ↔
    (∀ lead ∈ leads, contactOf lib lead = .ok (contactIdOf lib lead)) ∧
      contacts = leads.map fun lead => (contactIdOf lib lead, lead) := by
  rw [contactsOf]
  induction leads generalizing contacts with
  | nil => exact ⟨fun h => ⟨List.forall_mem_nil _, (Except.ok.inj h).symm⟩, fun h => h.2 ▸ rfl⟩
  | cons lead leads ih =>
      rw [List.mapM_cons, bind_eq_ok, List.forall_mem_cons, List.map_cons]
      constructor
      · rintro ⟨p, hp, h⟩
        obtain ⟨cid, hcid, hp⟩ := bind_eq_ok.1 hp
        obtain ⟨rest, hrest, h⟩ := bind_eq_ok.1 h
        obtain rfl := Except.ok.inj hp
        obtain rfl := Except.ok.inj h
        obtain ⟨hall, rfl⟩ := ih.1 hrest
        rw [contactIdOf_eq hcid]
        exact ⟨⟨hcid, hall⟩, rfl⟩
      · rintro ⟨⟨hcid, hall⟩, rfl⟩
        exact ⟨_, bind_eq_ok.2 ⟨_, hcid, rfl⟩, bind_eq_ok.2 ⟨_, ih.2 ⟨hall, rfl⟩, rfl⟩⟩

theorem mem_contacts_iff (h : contactsOf lib leads = .ok contacts) :
    (cid, lead) ∈ contacts ↔ lead ∈ leads ∧ contactOf lib lead = .ok cid := by
  obtain ⟨hall, rfl⟩ := contactsOf_eq_ok_iff.1 h
  rw [List.mem_map]
  constructor
  · rintro ⟨lead', hlead', heq⟩
    obtain ⟨rfl, rfl⟩ := Prod.mk.inj heq
    exact ⟨hlead', hall lead' hlead'⟩
  · rintro ⟨hlead, hcid⟩
    exact ⟨lead, hlead, Prod.ext (Except.ok.inj ((hall lead hlead).symm.trans hcid)) rfl⟩

theorem map_fst_contacts (h : contactsOf lib leads = .ok contacts) :
    contacts.map Prod.fst = contactIds lib leads := by
  obtain ⟨hall, rfl⟩ := contactsOf_eq_ok_iff.1 h
  rw [List.map_map, contactIds, ← List.filterMap_eq_map]
  apply List.filterMap_congr
  intro lead hlead
  rw [hall lead hlead]
  rfl

theorem contacts_of_perm (h : contactsOf lib leads = .ok contacts) (hperm : leads'.Perm leads) :
    ∃ contacts', contactsOf lib leads' = .ok contacts' ∧ contacts'.Perm contacts := by
  obtain ⟨hall, rfl⟩ := contactsOf_eq_ok_iff.1 h
  refine ⟨_, contactsOf_eq_ok_iff.2 ⟨?_, rfl⟩, hperm.map _⟩
  exact fun lead hlead => hall lead (hperm.mem_iff.1 hlead)

theorem leadByContact_spec (hcid : cid ∈ contacts.map Prod.fst) :
    ∃ lead, leadByContact contacts cid = some lead ∧ (cid, lead) ∈ contacts := by
  obtain ⟨p, hp, rfl⟩ := List.mem_map.1 hcid
  have hsome : (contacts.reverse.find? fun q => q.1 == p.1).isSome := by
    rw [List.find?_isSome]
    exact ⟨p, List.mem_reverse.2 hp, beq_self_eq_true p.1⟩
  obtain ⟨q, hq⟩ := Option.isSome_iff_exists.1 hsome
  refine ⟨q.2, ?_, ?_⟩
  · rw [leadByContact, hq]
    rfl
  · have hkey : q.1 = p.1 := by simpa using List.find?_some hq
    rw [← hkey]
    exact List.mem_reverse.1 (List.mem_of_find?_eq_some hq)

/-- The last lead of a contact gives the name. -/
theorem leadByContact_last (h : contactsOf lib (leads ++ [lead]) = .ok contacts)
    (hcid : contactOf lib lead = .ok cid) : leadByContact contacts cid = some lead := by
  obtain ⟨-, rfl⟩ := contactsOf_eq_ok_iff.1 h
  rw [leadByContact, List.map_append, List.reverse_append, List.map_singleton, contactIdOf_eq hcid]
  simp

/-! ## Steadiness -/

/-- An order that goes through, and leaves the table as it is, has written what is there. -/
theorem Steady.row_mem (hcampaign : getBySlug campaigns nogSlug = some campaign)
    (hsteady : Steady lib crm fuel campaigns leads t) (hperm : leads'.Perm leads)
    (hdir : directory lib crm fuel = some (.ok dir))
    (hcontacts' : contactsOf lib leads' = .ok contacts')
    (hsales : listedSales lib crm fuel (contactIds lib leads).toFinset = some (.ok sales))
    (hids : (contacts'.map Prod.fst).toFinset = (contactIds lib leads).toFinset)
    (hlast : lastWith itemKey (itemKey p) (allItems lib crm (contacts'.map Prod.fst) sales) = some p) :
    activityRow lib (baseOf campaign dir contacts' p.1) p.2 ∈ t.rows := by
  obtain ⟨dir', contacts₁, sales', hdir', hcontacts₁, hreads, hrows⟩ :=
    (sync_counted_iff hcampaign).1 (hsteady leads' hperm)
  obtain rfl := Except.ok.inj (Option.some.inj (hdir.symm.trans hdir'))
  obtain rfl := Except.ok.inj (hcontacts'.symm.trans hcontacts₁)
  obtain rfl : sales = sales' := by
    have hsales' := hreads.sales_eq
    rw [hids, hsales] at hsales'
    exact Except.ok.inj (Option.some.inj hsales')
  exact mem_of_lastWith hrows hlast

/-- A contact with rows has an item that lasts. -/
theorem HasRows.exists_last {cids : List Int} (h : HasRows lib crm fuel cids cid)
    (hone : OneContactPerItem lib crm cids) (hcid : cid ∈ cids)
    (hsales : listedSales lib crm fuel cids.toFinset = some (.ok sales)) :
    ∃ p, p.1 = cid ∧ lastWith itemKey (itemKey p) (allItems lib crm cids sales) = some p := by
  have hletters := letters_of_listedSales hsales
  rcases h with hlisted | ⟨p, hp, rfl⟩
  · obtain ⟨p, hp⟩ := List.exists_mem_of_ne_nil _ hlisted
    obtain ⟨w, hmem, hkey, hw⟩ := @exists_lastWith _ _ _ itemKey p _ hp
    refine ⟨w, (mem_listedItems hmem).1, ?_⟩
    rw [hkey, lastWith_allItems_listed hone hletters hcid hp, hw]
  · rw [lastSales, hsales] at hp
    refine ⟨p, rfl, ?_⟩
    rw [lastWith_allItems_sales (hletters p (mem_of_mem_lasting hp))]
    exact mem_lasting_iff.1 hp

/-- An item that lasts is about a contact with rows. -/
theorem hasRows_of_last {cids : List Int}
    (hsales : listedSales lib crm fuel cids.toFinset = some (.ok sales))
    (hlast : lastWith itemKey (itemKey p) (allItems lib crm cids sales) = some p) :
    p.1 ∈ cids ∧ HasRows lib crm fuel cids p.1 := by
  rcases List.mem_append.1 (lastWith_spec hlast).1 with hp | hp
  · obtain ⟨cid, hcid, hp⟩ := List.mem_flatMap.1 hp
    obtain rfl := (mem_listedItems hp).1
    exact ⟨hcid, Or.inl (List.ne_nil_of_mem hp)⟩
  · obtain ⟨hmem, hletter⟩ := mem_listedSales hsales hp
    refine ⟨List.mem_toFinset.1 hmem, Or.inr ⟨p, ?_, rfl⟩⟩
    rw [lastSales, hsales]
    rw [lastWith_allItems_sales hletter] at hlast
    exact mem_lasting_iff.2 hlast

theorem exists_perm_last (h : lead ∈ leads) : ∃ others, (others ++ [lead]).Perm leads := by
  obtain ⟨before, after, rfl⟩ := List.append_of_mem h
  refine ⟨before ++ after, ?_⟩
  rw [List.append_assoc]
  exact (List.perm_append_singleton lead after).append_left before

theorem toFinset_of_perm (hcontacts : contactsOf lib leads = .ok contacts)
    (hperm : contacts'.Perm contacts) :
    (contacts'.map Prod.fst).toFinset = (contactIds lib leads).toFinset := by
  rw [← map_fst_contacts hcontacts]
  exact List.toFinset_eq_of_perm _ _ (hperm.map Prod.fst)

/-- Whether the database takes a row does not depend on the order of the leads. -/
theorem takesAll_baseOf {items : List (Int × Item)}
    (h : TakesAll lib (baseOf campaign dir contacts) items) :
    TakesAll lib (baseOf campaign dir contacts') items :=
  h

/-- If no order changes the table, then the leads of a contact with rows have one name. -/
theorem oneName_of_steady (hcampaign : getBySlug campaigns nogSlug = some campaign)
    (hdir : directory lib crm fuel = some (.ok dir)) (hcontacts : contactsOf lib leads = .ok contacts)
    (hsales : listedSales lib crm fuel (contactIds lib leads).toFinset = some (.ok sales))
    (hone : OneContactPerItem lib crm (contactIds lib leads))
    (hsteady : Steady lib crm fuel campaigns leads t) : OneNamePerContact lib crm fuel leads := by
  intro lead hlead lead' hlead' cid hcid hcid' hrows
  have hmem : cid ∈ contactIds lib leads := by
    rw [← map_fst_contacts hcontacts]
    exact List.mem_map_of_mem ((mem_contacts_iff hcontacts).2 ⟨hlead, hcid⟩)
  obtain ⟨p, rfl, hlast⟩ := hrows.exists_last hone hmem hsales
  have hletters := letters_of_listedSales hsales
  -- a run with the lead at the end writes its name
  have hrow : ∀ l ∈ leads, contactOf lib l = .ok p.1 →
      ∃ row ∈ t.rows, row.sourceKey = itemKey p ∧ row.contactName = contactName l := by
    intro l hl hcontact
    obtain ⟨others, hperm⟩ := exists_perm_last hl
    obtain ⟨contacts', hcontacts', hperm'⟩ := contacts_of_perm hcontacts hperm
    have hids := toFinset_of_perm hcontacts hperm'
    have hlast' : lastWith itemKey (itemKey p) (allItems lib crm (contacts'.map Prod.fst) sales) =
        some p := by
      rw [lastWith_allItems_congr hone hletters ?_, hlast]
      intro c
      rw [← List.mem_toFinset, hids, List.mem_toFinset]
    refine ⟨_, hsteady.row_mem hcampaign hperm hdir hcontacts' hsales hids hlast', rfl, ?_⟩
    have hname : (leadByContact contacts' p.1).bind contactName = contactName l := by
      rw [leadByContact_last hcontacts' hcontact, Option.bind_some]
    exact hname
  obtain ⟨row, hmemRow, hkey, hname⟩ := hrow lead hlead hcid
  obtain ⟨row', hmemRow', hkey', hname'⟩ := hrow lead' hlead' hcid'
  have hsame : row = row' :=
    List.inj_on_of_nodup_map t.nodup hmemRow hmemRow' (hkey.trans hkey'.symm)
  rw [← hname, ← hname', hsame]

/-- If every item is listed under one contact and the leads of a contact with rows have one name, then
every order writes what is there. -/
theorem steady_of_oneName {t₀ : ActivityTable}
    (hcampaign : getBySlug campaigns nogSlug = some campaign)
    (hdir : directory lib crm fuel = some (.ok dir)) (hcontacts : contactsOf lib leads = .ok contacts)
    (hreads : Reads lib crm fuel (baseOf campaign dir contacts) (contacts.map Prod.fst) sales)
    (hrows : t.rows = putAll Activity.sourceKey
      (written lib crm (baseOf campaign dir contacts) (contacts.map Prod.fst) sales) t₀.rows)
    (hone : OneContactPerItem lib crm (contactIds lib leads))
    (hname : OneNamePerContact lib crm fuel leads) : Steady lib crm fuel campaigns leads t := by
  intro leads' hperm
  have hmap := map_fst_contacts hcontacts
  have hsales := hreads.sales_eq
  rw [hmap] at hsales hrows
  have hletters := letters_of_listedSales hsales
  obtain ⟨contacts', hcontacts', hperm'⟩ := contacts_of_perm hcontacts hperm
  have hids := toFinset_of_perm hcontacts hperm'
  have hmem : ∀ c, c ∈ contacts'.map Prod.fst ↔ c ∈ contactIds lib leads := by
    intro c
    rw [← List.mem_toFinset, hids, List.mem_toFinset]
  refine (sync_counted_iff hcampaign).2 ⟨dir, contacts', sales, hdir, hcontacts', ⟨?_, ?_, ?_⟩, ?_⟩
  · intro cid hcid
    obtain ⟨items, hlisted, htakes⟩ := hreads.visits cid ((hperm'.map Prod.fst).mem_iff.1 hcid)
    exact ⟨items, hlisted, takesAll_baseOf htakes⟩
  · rw [hids]
    exact hsales
  · exact takesAll_baseOf hreads.takes
  · -- the rows that last are those that are there
    symm
    apply putAll_absorbed t.nodup
    intro row hrow
    obtain ⟨p, hlast, rfl⟩ : ∃ p, lastWith itemKey (itemKey p)
        (allItems lib crm (contacts'.map Prod.fst) sales) = some p ∧
          activityRow lib (baseOf campaign dir contacts' p.1) p.2 = row := by
      have hlast := mem_lasting_iff.1 hrow
      rw [written, lastWith_map, Option.map_eq_some_iff] at hlast
      obtain ⟨p, hp, rfl⟩ := hlast
      exact ⟨p, hp, rfl⟩
    rw [lastWith_allItems_congr hone hletters hmem] at hlast
    obtain ⟨hcid, hhas⟩ := hasRows_of_last hsales hlast
    obtain ⟨lead, hlead, hleadMem⟩ := leadByContact_spec (hmap ▸ hcid)
    obtain ⟨lead', hlead', hleadMem'⟩ := leadByContact_spec ((hmem p.1).2 hcid)
    obtain ⟨hin, hcontact⟩ := (mem_contacts_iff hcontacts).1 hleadMem
    obtain ⟨hin', hcontact'⟩ := (mem_contacts_iff hcontacts).1 (hperm'.mem_iff.1 hleadMem')
    -- the two orders may give the contact to different leads, but these have one name
    have hbase : baseOf campaign dir contacts' p.1 = baseOf campaign dir contacts p.1 := by
      have hnames := hname lead' hin' lead hin p.1 hcontact' hcontact hhas
      simp only [baseOf, hlead, hlead', Option.bind_some, hnames]
    rw [hbase]
    exact mem_of_lastWith hrows hlast

end Orders

section Results

variable {lib : ActivityLib} {crm : Crm} {fuel : ℕ} {campaigns : List Campaign} {leads : List LeadRow}
  {t t' : ActivityTable} {c : Counters}

/-- What a run that goes through has read and written. -/
theorem counted_spec
    (h : runNogActivitySync lib crm fuel campaigns leads none t = some ⟨t', .counted c⟩) :
    ∃ campaign dir contacts sales, getBySlug campaigns nogSlug = some campaign ∧
      directory lib crm fuel = some (.ok dir) ∧ contactsOf lib leads = .ok contacts ∧
      Reads lib crm fuel (baseOf campaign dir contacts) (contacts.map Prod.fst) sales ∧
      t'.rows = putAll Activity.sourceKey
        (written lib crm (baseOf campaign dir contacts) (contacts.map Prod.fst) sales) t.rows := by
  cases hcampaign : getBySlug campaigns nogSlug with
  | none =>
      rw [runNogActivitySync, hcampaign] at h
      cases h
  | some campaign =>
      obtain ⟨dir, contacts, sales, hread⟩ := (sync_counted_iff hcampaign).1 ⟨c, h⟩
      exact ⟨campaign, dir, contacts, sales, rfl, hread⟩

/-- After a run that goes through every contact has its items exactly when none is listed under two. -/
theorem attributed_of_counted
    (h : runNogActivitySync lib crm fuel campaigns leads none t = some ⟨t', .counted c⟩) :
    Attributed lib crm (contactIds lib leads) t' ↔
      OneContactPerItem lib crm (contactIds lib leads) := by
  obtain ⟨campaign, dir, contacts, sales, -, -, hcontacts, hreads, hrows⟩ := counted_spec h
  have hbase : ∀ cid, (baseOf campaign dir contacts cid).contactId = cid := fun _ => rfl
  have hsales := hreads.sales_eq
  rw [map_fst_contacts hcontacts] at hrows hsales
  exact attributed_iff_oneContact hbase (letters_of_listedSales hsales) hrows

end Results

/-- Every contact keeps its activities, and a second run changes nothing, exactly when no item is listed
under two contacts and the leads of a contact with rows have one name. -/
theorem attributed_iff (lib : ActivityLib) (crm : Crm) (fuel : ℕ) (campaigns : List Campaign)
    (leads : List LeadRow) (t t' : ActivityTable) (c : Counters)
    (h : runNogActivitySync lib crm fuel campaigns leads none t = some ⟨t', .counted c⟩) :
    (Attributed lib crm (contactIds lib leads) t' ∧ Steady lib crm fuel campaigns leads t') ↔
      OneContactPerItem lib crm (contactIds lib leads) ∧ OneNamePerContact lib crm fuel leads := by
  rw [attributed_of_counted h]
  obtain ⟨campaign, dir, contacts, sales, hcampaign, hdir, hcontacts, hreads, hrows⟩ := counted_spec h
  have hsales := hreads.sales_eq
  rw [map_fst_contacts hcontacts] at hsales
  constructor
  · rintro ⟨hone, hsteady⟩
    exact ⟨hone, oneName_of_steady hcampaign hdir hcontacts hsales hone hsteady⟩
  · rintro ⟨hone, hname⟩
    exact ⟨hone, steady_of_oneName hcampaign hdir hcontacts hreads hrows hone hname⟩

/-! ## A mail to two contacts -/

/-- `int(text)` on a text of digits. -/
def intOfDigits (text : String) : Option Int :=
  if text.toList.isEmpty then none
  else text.toList.foldlM (fun n c => if c.isDigit then some (10 * n + (c.toNat - 48)) else none) 0

/-- The text of an integer. -/
def formatInteger (value : Json) : String :=
  match value with
  | .num q => toString q.num
  | _ => "None"

def plainActivityLib : ActivityLib :=
  { dateLib plainLib with
    takesJson := fun _ => true
    py := asciiLower
    intOfText := intOfDigits
    format := formatInteger }

/-- Every contact was sent the same mail, and there is nothing else. -/
def sharedMail : Crm where
  owners := .ok (.obj [])
  filteredSearch _ _ _ := .ok (.obj [])
  conversations _ := .ok (.obj [("email_conversations", .arr [.obj [("id", .num 7),
    ("conversation_time", .str "2026-03-02T10:00:00Z")]])])
  notes _ := .ok (.obj [])
  salesActivityTypes := .ok (.obj [])
  salesActivities _ := .ok (.obj [])

def nogCampaign : Campaign where
  id := 1
  slug := nogSlug
  status := .active
  config := ⟨[], [], none, none, none, [], [], none⟩

/-- A lead with the contact of this id. -/
def contactLead (id : Nat) (email contact : String) : LeadRow :=
  (id, { newLead 1 email with crmContactId := some contact })

/-- Two leads, who are contacts 1 and 2. -/
def twoContacts : List LeadRow := [contactLead 1 "ada@x.ng" "1", contactLead 2 "obi@x.ng" "2"]

def noActivities : ActivityTable := ⟨[], List.nodup_nil⟩

def Outcome.isCounted (outcome : Outcome) : Bool :=
  match outcome with
  | .counted _ => true
  | _ => false

theorem exists_counted {run : Option SyncRun} (h : (run.any fun r => r.outcome.isCounted) = true) :
    ∃ t' c, run = some ⟨t', .counted c⟩ := by
  cases run with
  | none => cases h
  | some run =>
      obtain ⟨t', outcome⟩ := run
      cases outcome with
      | counted c => exact ⟨t', c, rfl⟩
      | campaignNotFound => cases h
      | raised => cases h

theorem twoContacts_counted : ∃ t' c, runNogActivitySync plainActivityLib sharedMail 1 [nogCampaign]
    twoContacts none noActivities = some ⟨t', .counted c⟩ := by
  apply exists_counted
  decide +kernel

theorem attributed_iff_twoContacts : ∃ t' c,
    runNogActivitySync plainActivityLib sharedMail 1 [nogCampaign] twoContacts none noActivities =
      some ⟨t', .counted c⟩ ∧
    ((Attributed plainActivityLib sharedMail (contactIds plainActivityLib twoContacts) t' ∧
        Steady plainActivityLib sharedMail 1 [nogCampaign] twoContacts t') ↔
      OneContactPerItem plainActivityLib sharedMail (contactIds plainActivityLib twoContacts) ∧
        OneNamePerContact plainActivityLib sharedMail 1 twoContacts) := by
  obtain ⟨t', c, hrun⟩ := twoContacts_counted
  exact ⟨t', c, hrun, attributed_iff plainActivityLib sharedMail 1 [nogCampaign] twoContacts
    noActivities t' c hrun⟩

/-- Contact 1 has lost the mail to contact 2. -/
theorem sharedMail_not_attributed : ∃ t' c,
    runNogActivitySync plainActivityLib sharedMail 1 [nogCampaign] twoContacts none noActivities =
      some ⟨t', .counted c⟩ ∧
    ¬ (Attributed plainActivityLib sharedMail (contactIds plainActivityLib twoContacts) t' ∧
        Steady plainActivityLib sharedMail 1 [nogCampaign] twoContacts t') := by
  obtain ⟨t', c, hrun⟩ := twoContacts_counted
  refine ⟨t', c, hrun, fun h => ?_⟩
  have hone := (attributed_of_counted hrun).1 h.1
  have hids : contactIds plainActivityLib twoContacts = [1, 2] := by decide +kernel
  have hlisted : "email:7" ∈ (listedItems plainActivityLib sharedMail 1).map itemKey := by
    decide +kernel
  have hlisted' : "email:7" ∈ (listedItems plainActivityLib sharedMail 2).map itemKey := by
    decide +kernel
  obtain ⟨p, hp, hkey⟩ := List.mem_map.1 hlisted
  obtain ⟨p', hp', hkey'⟩ := List.mem_map.1 hlisted'
  rw [hids] at hone
  have hsame : (1 : Int) = 2 :=
    hone 1 (by decide) 2 (by decide) p hp p' hp' (hkey.trans hkey'.symm)
  exact absurd hsame (by decide)

end SalesTrades.Leads.NogActivitySync
