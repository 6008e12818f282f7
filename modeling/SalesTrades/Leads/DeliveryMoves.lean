import SalesTrades.Leads.DeliveryCalls

/-!
# What one step of a delivery path does

The leads that a process has in hand are `Good`: they were loaded as waiting, and the log has the
emails of the delivery under way and no others since the last request. Every step is a `Move`: it keeps
the leads in hand good, lets go of a lead only in a state in which nobody will mail it again, and
leaves all other leads alone (`deliveryPhaseStep_move`).
-/

set_option autoImplicit false

namespace SalesTrades.Leads

open SalesTrades.Library SalesTrades.Library.Interleaving

/-! ## Leads in hand -/

/-- The pack emails of a delivery so far. -/
def PackTask.mails (transport : Bool) (task : PackTask) : Nat :=
  if deliverableLabels task.row.2 task.campaign ≠ [] ∧ transport = true ∧ task.answer = some true then 1
  else 0

theorem PackTask.mails_le_one (transport : Bool) (task : PackTask) : task.mails transport ≤ 1 := by
  unfold PackTask.mails
  split <;> decide

/-- A row that a process has loaded: it was waiting, and it is still there. -/
def Loaded (row : LeadRow) (s : DeliveryShared) : Prop :=
  waiting row.2 = true ∧ ∃ current, (row.1, current) ∈ s.leads.rows

/-- What holds of the leads a process has in hand: each was loaded, and the log has the emails of the
delivery under way and no others since the last request. -/
def DeliveryPhase.Good (transport : Bool) (s : DeliveryShared) : DeliveryPhase → Prop
  | .packing task _ =>
      Loaded task.row s ∧ emailsSince task.row.1 s.log = task.mails transport
  | .sweeping todo task =>
      (∀ t, task = some t → Loaded t.row s ∧ emailsSince t.row.1 s.log = t.mails transport) ∧
        (∀ row ∈ todo, Loaded row s ∧ emailsSince row.1 s.log = 0) ∧
        (DeliveryPhase.sweeping todo task).inHand.Nodup
  | _ => True

/-- A lead in hand is in the table and was mailed at most once since its last request. -/
theorem DeliveryPhase.Good.lead {transport : Bool} {phase : DeliveryPhase} {s : DeliveryShared}
    (h : phase.Good transport s) {id : Nat} (hid : id ∈ phase.inHand) :
    (∃ l, (id, l) ∈ s.leads.rows) ∧ emailsSince id s.log ≤ 1 := by
  have hlead : ∀ row : LeadRow, ∀ n, Loaded row s ∧ emailsSince row.1 s.log = n → n ≤ 1 →
      (∃ l, (row.1, l) ∈ s.leads.rows) ∧ emailsSince row.1 s.log ≤ 1 :=
    fun row n h hn => ⟨h.1.2, h.2.le.trans hn⟩
  cases phase with
  | packing task created =>
      obtain rfl : id = task.row.1 := by simpa [inHand] using hid
      exact hlead task.row _ h (task.mails_le_one transport)
  | sweeping todo task =>
      obtain ⟨htask, htodo, -⟩ := h
      rcases List.mem_append.1 hid with hid | hid
      · obtain ⟨t, ht, rfl⟩ : ∃ t, task = some t ∧ t.row.1 = id := by simpa using hid
        exact hlead t.row _ (htask t ht) (t.mails_le_one transport)
      · obtain ⟨row, hrow, rfl⟩ := List.mem_map.1 hid
        exact hlead row _ (htodo row hrow) (Nat.zero_le 1)
  | start => cases hid
  | viewing task => cases hid
  | ended => cases hid

/-- Rows are never deleted. -/
def Keeps (s s' : DeliveryShared) : Prop :=
  ∀ q ∈ s.leads.rows, ∃ current, (q.1, current) ∈ s'.leads.rows

theorem Loaded.keeps {row : LeadRow} {s s' : DeliveryShared} (h : Loaded row s) (hkeeps : Keeps s s') :
    Loaded row s' := by
  obtain ⟨hwaiting, current, hcurrent⟩ := h
  exact ⟨hwaiting, hkeeps (row.1, current) hcurrent⟩

/-- The leads in hand stay good while nobody mails them. -/
theorem DeliveryPhase.Good.stable {transport : Bool} {phase : DeliveryPhase} {s s' : DeliveryShared}
    (h : phase.Good transport s) (hkeeps : Keeps s s')
    (hlog : ∀ id ∈ phase.inHand, emailsSince id s'.log = emailsSince id s.log) :
    phase.Good transport s' := by
  cases phase with
  | packing task created =>
      obtain ⟨hloaded, hmails⟩ := h
      exact ⟨hloaded.keeps hkeeps, (hlog _ (by simp [inHand])).trans hmails⟩
  | sweeping todo task =>
      obtain ⟨htask, htodo, hnodup⟩ := h
      refine ⟨fun t ht => ?_, fun row hrow => ?_, hnodup⟩
      · obtain ⟨hloaded, hmails⟩ := htask t ht
        exact ⟨hloaded.keeps hkeeps, (hlog _ (by simp [inHand, ht])).trans hmails⟩
      · obtain ⟨hloaded, hmails⟩ := htodo row hrow
        refine ⟨hloaded.keeps hkeeps, (hlog _ ?_).trans hmails⟩
        exact List.mem_append_right _ (List.mem_map_of_mem hrow)
  | start => trivial
  | viewing task => trivial
  | ended => trivial

/-- What a step of a process does: to the leads in its hand, and to those it does not touch. -/
structure Move (transport : Bool) (phase phase' : DeliveryPhase) (s s' : DeliveryShared)
    (takesUp : List Nat) : Prop where
  good : phase'.Good transport s'
  keeps : Keeps s s'
  requests : phase ≠ .start → ∀ id, lastRequest id s'.log = lastRequest id s.log
  inHand : ∀ id ∈ phase'.inHand,
    id ∈ phase.inHand ∨ id ∈ takesUp ∨ phase = .start ∧ ∀ l, (id, l) ∉ s.leads.rows
  silent : ∀ id, id ∉ phase.inHand → id ∉ phase'.inHand →
    emailsSince id s'.log = emailsSince id s.log
  released : ∀ id ∈ phase.inHand, id ∉ phase'.inHand → emailsSince id s'.log ≤ 1 ∧
    ∀ l, (id, l) ∈ s'.leads.rows → waiting l = true → emailsSince id s'.log = 0
  untouched : ∀ id, id ∉ phase.inHand → id ∉ phase'.inHand → ∀ l, (id, l) ∈ s'.leads.rows →
    waiting l = true → ∃ l₀, (id, l₀) ∈ s.leads.rows ∧ waiting l₀ = true

section Move

variable {py : LowerCase} {transport : Bool} {s s' : DeliveryShared} {a : Attempt}

theorem keeps_refl (s : DeliveryShared) : Keeps s s := fun q hq => ⟨q.2, hq⟩

theorem keeps_update {id : Nat} {new : Lead} {t' : LeadTable}
    (h : s.leads.update id new = some t') (log : List PackEvent) (locked : Bool) :
    Keeps s ⟨t', log, locked⟩ := by
  intro q hq
  by_cases hid : q.1 = id
  · exact ⟨new, (Table.mem_of_update h).2 (Or.inr ⟨by rw [hid], q.2, hid ▸ hq⟩)⟩
  · exact ⟨q.2, (Table.mem_of_update h).2 (Or.inl ⟨hq, hid⟩)⟩

/-- After an update of one row, a waiting row is that row or was waiting before. -/
theorem waiting_of_update {id : Nat} {new : Lead} {t' : LeadTable}
    (h : s.leads.update id new = some t') {i : Nat} {l : Lead} (hmem : (i, l) ∈ t'.rows)
    (hwaiting : waiting l = true) :
    (i = id ∧ waiting new = true) ∨ ∃ l₀, (i, l₀) ∈ s.leads.rows ∧ waiting l₀ = true := by
  rcases (Table.mem_of_update h).1 hmem with ⟨hq, -⟩ | ⟨heq, -⟩
  · exact Or.inr ⟨l, hq, hwaiting⟩
  · rw [Prod.mk.injEq] at heq
    exact Or.inl ⟨heq.1, heq.2 ▸ hwaiting⟩

/-- A step that changes no lead and logs no pack email, and lets go of no lead it has mailed. -/
theorem move_idle {phase phase' : DeliveryPhase} {takesUp : List Nat} (hleads : s'.leads = s.leads)
    (hlog : ∀ id, emailsSince id s'.log = emailsSince id s.log)
    (hrequests : ∀ id, lastRequest id s'.log = lastRequest id s.log)
    (hgood : phase'.Good transport s')
    (hinHand : ∀ id ∈ phase'.inHand, id ∈ phase.inHand ∨ id ∈ takesUp)
    (hreleased : ∀ id ∈ phase.inHand, id ∉ phase'.inHand → emailsSince id s.log = 0) :
    Move transport phase phase' s s' takesUp := by
  refine ⟨hgood, fun q hq => ⟨q.2, hleads ▸ hq⟩, fun _ => hrequests, fun id hid => ?_,
    fun id _ _ => hlog id,
    fun id hid hout => ?_, fun id _ _ l hl hwaiting => ⟨l, hleads ▸ hl, hwaiting⟩⟩
  · exact (hinHand id hid).imp_right Or.inl
  · rw [hlog id, hreleased id hid hout]
    exact ⟨Nat.zero_le 1, fun _ _ _ => rfl⟩

theorem emailsSince_append_of_not_mem {id : Nat} {mails : List Mail} {log : List PackEvent}
    (h : ∀ labels, .pack id labels ∉ mails) :
    emailsSince id (mails.map .mailed ++ log) = emailsSince id log := by
  induction mails with
  | nil => rfl
  | cons m mails ih =>
      have hrest := ih fun labels hm => h labels (List.mem_cons_of_mem m hm)
      cases m with
      | pack i labels =>
          have hne : i ≠ id := fun heq => h labels (heq ▸ List.mem_cons_self)
          simpa [emailsSince, hne] using hrest
      | viewing i labels => simpa [emailsSince] using hrest

theorem lastRequest_append {id : Nat} {log : List PackEvent} (mails : List Mail) :
    lastRequest id (mails.map .mailed ++ log) = lastRequest id log := by
  induction mails with
  | nil => rfl
  | cons m mails ih => simpa [lastRequest] using ih

/-- The email of a delivery is counted for its lead and for no other. -/
theorem emailsSince_sendStep (transport : Bool) (a : Attempt) (task : PackTask)
    (h : emailsSince task.row.1 s.log = 0) (id : Nat) :
    emailsSince id (sendStep transport task a s).1.log =
      if id = task.row.1 then (sendStep transport task a s).2.mails transport
      else emailsSince id s.log := by
  simp only [sendStep, packMail_eq, PackTask.mails, Option.some.injEq]
  by_cases hid : id = task.row.1
  · subst hid
    split <;> simp [emailsSince, h]
  · rw [if_neg hid]
    refine emailsSince_append_of_not_mem fun labels hm => ?_
    split at hm
    · simp only [List.mem_singleton, Mail.pack.injEq] at hm
      exact hid hm.1
    · cases hm

/-- The commit of an answered delivery succeeds, and a lead that was mailed does not wait any more. -/
theorem commitStep_spec (transport : Bool) {task : PackTask} {accepted : Bool}
    (hloaded : Loaded task.row s) (hanswer : task.answer = some accepted) (now : Datetime) :
    ∃ new t', s.leads.update task.row.1 new = some t' ∧
      commitStep transport task accepted now s = .ok ((task.row.1, new), { s with leads := t' }) ∧
      (waiting new = true → task.mails transport = 0) := by
  obtain ⟨hwaiting, current, hcurrent⟩ := hloaded
  have hsame := sameLead_deliverPack transport task.row.2 task.campaign ⟨accepted, now⟩
  obtain ⟨t', hupdate, htable⟩ := update_eq hcurrent hsame.campaignId hsame.email
  refine ⟨_, t', htable, by simp only [commitStep, hupdate], fun hstill => ?_⟩
  by_contra hmails
  simp only [PackTask.mails, hanswer, Option.some.injEq, ite_eq_right_iff, Nat.one_ne_zero,
    imp_false, not_not] at hmails
  obtain ⟨hsome, hon, haccepted⟩ := hmails
  rcases deliverPack_cases transport task.row.2 task.campaign ⟨accepted, now⟩ with ⟨hnone, -⟩ |
    ⟨-, hoff, -⟩ | ⟨-, -, -, hmarked, -⟩ | ⟨-, -, hrejected, -⟩
  · exact hsome hnone
  · rw [hon] at hoff
    cases hoff
  · -- the loaded status was not `sent`, so the flush writes it
    rw [hmarked] at hstill
    have hne : PackStatus.sent ≠ task.row.2.packDeliveryStatus := by
      intro heq
      simp [waiting, ← heq] at hwaiting
    simp [waiting, Lead.write, dirtyWrite, hne] at hstill
  · rw [haccepted] at hrejected
    cases hrejected

/-- A step that updates one row: one in hand before or after, or one that does not wait. -/
theorem move_update {phase phase' : DeliveryPhase} {takesUp : List Nat} {id : Nat} {new : Lead}
    {t' : LeadTable} {log : List PackEvent} (hupdate : s.leads.update id new = some t')
    (hrow : id ∈ phase.inHand ∨ id ∈ phase'.inHand ∨ waiting new = false)
    (hlog : ∀ i, i ∉ phase.inHand → i ∉ phase'.inHand → emailsSince i log = emailsSince i s.log)
    (hrequests : phase ≠ .start → ∀ i, lastRequest i log = lastRequest i s.log)
    (hgood : phase'.Good transport ⟨t', log, s.locked⟩)
    (hinHand : ∀ i ∈ phase'.inHand, i ∈ phase.inHand ∨ i ∈ takesUp)
    (hreleased : ∀ i ∈ phase.inHand, i ∉ phase'.inHand →
      i = id ∧ emailsSince i log ≤ 1 ∧ (waiting new = true → emailsSince i log = 0)) :
    Move transport phase phase' s ⟨t', log, s.locked⟩ takesUp := by
  refine ⟨hgood, keeps_update hupdate log s.locked, hrequests,
    fun i hi => (hinHand i hi).imp_right Or.inl, hlog,
    fun i hi hout => ?_, fun i hi hout l hl hwaiting => ?_⟩
  · obtain ⟨rfl, hle, hzero⟩ := hreleased i hi hout
    refine ⟨hle, fun l hl hwaiting => ?_⟩
    rcases (Table.mem_of_update hupdate).1 hl with ⟨-, hne⟩ | ⟨heq, -⟩
    · exact absurd rfl hne
    · rw [Prod.mk.injEq] at heq
      exact hzero (heq.2 ▸ hwaiting)
  · rcases waiting_of_update hupdate hl hwaiting with ⟨rfl, hnew⟩ | hold
    · rcases hrow with hin | hin | hnot
      · exact absurd hin hi
      · exact absurd hin hout
      · rw [hnot] at hnew
        cases hnew
    · exact hold

@[simp]
theorem afterPack_inHand (campaign : Campaign) (row : LeadRow) (created : Bool) :
    (afterPack campaign row created).inHand = [] := by
  unfold afterPack
  split <;> rfl

theorem afterPack_good (campaign : Campaign) (row : LeadRow) (created : Bool) :
    (afterPack campaign row created).Good transport s := by
  unfold afterPack
  split <;> trivial

/-- The steps of a pack that is under way in the endpoint. -/
theorem move_packing {task : PackTask} {created : Bool} {caller : Caller} {campaigns : List Campaign}
    {phase' : DeliveryPhase} (hgood : (DeliveryPhase.packing task created).Good transport s)
    (h : deliveryPhaseStep py transport campaigns caller a s (.packing task created) =
      some (s', phase')) : Move transport (.packing task created) phase' s s' [] := by
  obtain ⟨hloaded, hmails⟩ := hgood
  simp only [deliveryPhaseStep] at h
  cases hanswer : task.answer with
  | none =>
      simp only [hanswer, Option.some.injEq, Prod.mk.injEq] at h
      obtain ⟨rfl, rfl⟩ := h
      have hzero : emailsSince task.row.1 s.log = 0 := by simpa [PackTask.mails, hanswer] using hmails
      have hcount := emailsSince_sendStep transport a task hzero
      refine ⟨⟨hloaded, (hcount task.row.1).trans (if_pos rfl)⟩, keeps_refl s,
        fun _ id => lastRequest_append _, fun id hid => Or.inl hid, fun id hid _ => ?_,
        fun id hid hout => absurd hid hout, fun id _ _ l hl hwaiting => ⟨l, hl, hwaiting⟩⟩
      rw [hcount, if_neg (by simpa [DeliveryPhase.inHand] using hid)]
  | some accepted =>
      obtain ⟨new, t', hupdate, hcommit, hmailed⟩ :=
        commitStep_spec transport hloaded hanswer a.now
      simp only [hanswer, hcommit, Option.some.injEq, Prod.mk.injEq] at h
      obtain ⟨rfl, rfl⟩ := h
      refine move_update hupdate (Or.inl (by simp [DeliveryPhase.inHand])) (fun _ _ _ => rfl)
        (fun _ _ => rfl) (afterPack_good _ _ _) (by simp) ?_
      intro i hi _
      obtain rfl : i = task.row.1 := by simpa [DeliveryPhase.inHand] using hi
      rw [hmails]
      exact ⟨rfl, task.mails_le_one transport, hmailed⟩

/-- A sweep between two leads loads the campaign of the next one, drops a lead without a campaign, or
ends. -/
theorem move_nextLead {todo : List LeadRow} {caller : Caller} {campaigns : List Campaign}
    {phase' : DeliveryPhase} (hgood : (DeliveryPhase.sweeping todo none).Good transport s)
    (h : deliveryPhaseStep py transport campaigns caller a s (.sweeping todo none) =
      some (s', phase')) : Move transport (.sweeping todo none) phase' s s' [] := by
  obtain ⟨-, htodo, hnodup⟩ := hgood
  cases todo with
  | nil =>
      simp only [deliveryPhaseStep, Option.some.injEq, Prod.mk.injEq] at h
      obtain ⟨rfl, rfl⟩ := h
      exact move_idle (releaseStep_leads caller s) (fun id => by rw [releaseStep_log])
        (fun id => by rw [releaseStep_log]) trivial (by simp [DeliveryPhase.inHand])
        (by simp [DeliveryPhase.inHand])
  | cons row rest =>
      obtain ⟨⟨hrow, hzero⟩, hrest⟩ := List.forall_mem_cons.1 htodo
      simp only [deliveryPhaseStep] at h
      cases hcampaign : getCampaign campaigns row.2.campaignId with
      | none =>
          simp only [hcampaign, Option.some.injEq, Prod.mk.injEq] at h
          obtain ⟨rfl, rfl⟩ := h
          refine move_idle rfl (fun _ => rfl) (fun _ => rfl) ⟨by simp, hrest, ?_⟩ ?_ ?_
          · exact (List.nodup_cons.1 hnodup).2
          · intro id hid
            exact Or.inl (List.mem_cons_of_mem _ hid)
          · intro id hid hout
            rcases List.mem_cons.1 hid with rfl | hid
            · exact hzero
            · exact absurd hid hout
      | some campaign =>
          simp only [hcampaign, Option.some.injEq, Prod.mk.injEq] at h
          obtain ⟨rfl, rfl⟩ := h
          refine move_idle rfl (fun _ => rfl) (fun _ => rfl) ⟨?_, hrest, hnodup⟩
            (fun id hid => Or.inl hid) (fun id hid hout => absurd hid hout)
          intro t ht
          obtain rfl := Option.some.inj ht
          exact ⟨hrow, by simpa [PackTask.mails] using hzero⟩

/-- A sweep sends the pack of the lead it is at, and then commits it. -/
theorem move_sweptLead {todo : List LeadRow} {task : PackTask} {caller : Caller}
    {campaigns : List Campaign} {phase' : DeliveryPhase}
    (hgood : (DeliveryPhase.sweeping todo (some task)).Good transport s)
    (h : deliveryPhaseStep py transport campaigns caller a s (.sweeping todo (some task)) =
      some (s', phase')) : Move transport (.sweeping todo (some task)) phase' s s' [] := by
  obtain ⟨htask, htodo, hnodup⟩ := hgood
  obtain ⟨hloaded, hmails⟩ := htask task rfl
  have hnot : task.row.1 ∉ todo.map Prod.fst := (List.nodup_cons.1 hnodup).1
  simp only [deliveryPhaseStep] at h
  cases hanswer : task.answer with
  | none =>
      simp only [hanswer, Option.some.injEq, Prod.mk.injEq] at h
      obtain ⟨rfl, rfl⟩ := h
      have hzero : emailsSince task.row.1 s.log = 0 := by
        simpa [PackTask.mails, hanswer] using hmails
      have hcount := emailsSince_sendStep transport a task hzero
      refine ⟨⟨fun t ht => ?_, fun row hrow => ?_, hnodup⟩, keeps_refl s,
        fun _ id => lastRequest_append _, fun id hid => Or.inl hid, fun id hid _ => ?_,
        fun id hid hout => absurd hid hout, fun id _ _ l hl hwaiting => ⟨l, hl, hwaiting⟩⟩
      · obtain rfl := Option.some.inj ht
        exact ⟨hloaded, (hcount task.row.1).trans (if_pos rfl)⟩
      · obtain ⟨hrowLoaded, hrowZero⟩ := htodo row hrow
        refine ⟨hrowLoaded, ?_⟩
        rw [hcount, if_neg, hrowZero]
        exact fun heq => hnot (heq ▸ List.mem_map_of_mem hrow)
      · rw [hcount, if_neg]
        rintro rfl
        exact hid List.mem_cons_self
  | some accepted =>
      obtain ⟨new, t', hupdate, hcommit, hmailed⟩ :=
        commitStep_spec transport hloaded hanswer a.now
      simp only [hanswer, hcommit, Option.some.injEq, Prod.mk.injEq] at h
      obtain ⟨rfl, rfl⟩ := h
      refine move_update hupdate (Or.inl List.mem_cons_self) (fun _ _ _ => rfl)
        (fun _ _ => rfl) ?_ ?_ ?_
      · refine ⟨by simp, fun row hrow => ?_, (List.nodup_cons.1 hnodup).2⟩
        obtain ⟨hrowLoaded, hrowZero⟩ := htodo row hrow
        exact ⟨hrowLoaded.keeps (keeps_update hupdate s.log s.locked), hrowZero⟩
      · exact fun i hi => Or.inl (List.mem_cons_of_mem _ hi)
      · intro i hi hout
        rcases List.mem_cons.1 hi with rfl | hi
        · rw [hmails]
          exact ⟨rfl, task.mails_le_one transport, hmailed⟩
        · exact absurd hi hout

/-- The steps of a sweep that has its list. -/
theorem move_sweeping {todo : List LeadRow} {task : Option PackTask} {caller : Caller}
    {campaigns : List Campaign} {phase' : DeliveryPhase}
    (hgood : (DeliveryPhase.sweeping todo task).Good transport s)
    (h : deliveryPhaseStep py transport campaigns caller a s (.sweeping todo task) =
      some (s', phase')) : Move transport (.sweeping todo task) phase' s s' [] := by
  cases task with
  | none => exact move_nextLead hgood h
  | some task => exact move_sweptLead hgood h

/-- The steps of a viewing email. -/
theorem move_viewing {task : PackTask} {caller : Caller} {campaigns : List Campaign}
    {phase' : DeliveryPhase}
    (h : deliveryPhaseStep py transport campaigns caller a s (.viewing task) = some (s', phase')) :
    Move transport (.viewing task) phase' s s' [] := by
  simp only [deliveryPhaseStep] at h
  cases hanswer : task.answer with
  | none =>
      simp only [hanswer, Option.some.injEq, Prod.mk.injEq] at h
      obtain ⟨rfl, rfl⟩ := h
      refine move_idle rfl (fun id => emailsSince_append_of_not_mem fun labels hm => ?_)
        (fun id => lastRequest_append _) trivial (by simp [DeliveryPhase.inHand])
        (by simp [DeliveryPhase.inHand])
      simp [viewingMail] at hm
  | some accepted =>
      simp only [hanswer, Option.some.injEq, Prod.mk.injEq] at h
      obtain ⟨rfl, rfl⟩ := h
      have hidle : Move transport (.viewing task) .ended s s [] :=
        move_idle rfl (fun _ => rfl) (fun _ => rfl) trivial (by simp [DeliveryPhase.inHand])
          (by simp [DeliveryPhase.inHand])
      unfold viewingCommitStep
      rcases deliverViewing_cases transport task.row.2 task.campaign ⟨accepted, a.now⟩ with
        ⟨hnone, -⟩ | ⟨docs, -, hmarked, -, hstatus⟩
      · rw [hnone]
        exact hidle
      · rw [hmarked]
        simp only
        split
        · exact hidle
        · rename_i row' t' hupdate
          obtain ⟨current, -, -, htable⟩ := update_ok hupdate
          refine move_update htable (Or.inr (Or.inr ?_)) (fun _ _ _ => rfl) (fun _ _ => rfl) trivial
            (by simp [DeliveryPhase.inHand]) (by simp [DeliveryPhase.inHand])
          simp [waiting, Lead.write, dirtyWrite, hstatus.symm]

/-- A submission never leaves its lead failed. -/
theorem mergedLead_waiting_eq {campaign : Campaign} {payload : LeadCreateRequest} {now : Datetime}
    {existing : Option Lead} :
    waiting (mergedLead py campaign payload now existing) =
      decide ((mergedLead py campaign payload now existing).packDeliveryStatus = .pending) := by
  have hne : (mergedLead py campaign payload now existing).packDeliveryStatus ≠ .failed := by
    simp only [mergedLead, recomputeScore, nextPackStatus]
    split
    · split <;> simp
    · split <;> simp
  simp [waiting, hne, beq_eq_decide]

/-- Where the endpoint stands after it has stored `row`. -/
def afterSubmit (campaign : Campaign) (row : LeadRow) (created : Bool) (t' : LeadTable)
    (s : DeliveryShared) : DeliveryShared × DeliveryPhase :=
  if row.2.packDeliveryStatus = .pending then
    (⟨t', .requested row.1 (deliverableLabels row.2 campaign) :: s.log, s.locked⟩,
      .packing ⟨campaign, row, none⟩ created)
  else (⟨t', s.log, s.locked⟩, afterPack campaign row created)

/-- What a submission does: nothing, a merge, or a new lead. -/
theorem submitStep_cases (py : LowerCase) (campaigns : Campaigns) (slug : String)
    (payload : LeadCreateRequest) (now : Datetime) (s : DeliveryShared) :
    submitStep py campaigns.list slug payload now s = (s, .ended) ∨
    ∃ campaign, getBySlug campaigns.list (strip slug) = some campaign ∧ campaign.status = .active ∧
      ((∃ row t', getByCampaignEmail s.leads campaign.id (normaliseEmail py payload.email) = some row ∧
        s.leads.update row.1 (mergedLead py campaign payload now (some row.2)) = some t' ∧
        submitStep py campaigns.list slug payload now s =
          afterSubmit campaign (row.1, mergedLead py campaign payload now (some row.2)) false t' s) ∨
      ∃ t', s.leads.insert (mergedLead py campaign payload now none) = some (s.leads.nextId, t') ∧
        submitStep py campaigns.list slug payload now s =
          afterSubmit campaign (s.leads.nextId, mergedLead py campaign payload now none) true t' s) := by
  unfold submitStep captureLeadCreated
  cases hslug : getBySlug campaigns.list (strip slug) with
  | none => exact Or.inl rfl
  | some campaign =>
      by_cases hactive : campaign.status = .active
      · right
        refine ⟨campaign, rfl, hactive, ?_⟩
        -- the delivery looks the campaign up by the id that the row has
        have hcampaign := campaigns.getCampaign_of_mem (List.mem_of_find?_eq_some hslug)
        simp only [hactive, ne_eq, not_true_eq_false, if_false, Bool.false_eq_true]
        rcases captureInCampaign_spec py campaign payload now s.leads (Or.inr rfl) with
          ⟨row, t', hfound, hupdate, hcall⟩ | ⟨t', -, hinsert, hcall⟩
        · left
          refine ⟨row, t', hfound, hupdate, ?_⟩
          have hkey : getCampaign campaigns.list
              (mergedLead py campaign payload now (some row.2)).campaignId = some campaign := by
            rw [(mergedLead_key py campaign payload now row.2).1,
              (getByCampaignEmail_eq_some hfound).2.1, hcampaign]
          simp only [hcall, hkey, afterSubmit]
        · right
          refine ⟨t', hinsert, ?_⟩
          have hkey : getCampaign campaigns.list
              (mergedLead py campaign payload now none).campaignId = some campaign := hcampaign
          simp only [hcall, hkey, afterSubmit]
      · left
        simp [hactive]

/-- A submission that is merged into `row`: it is put in hand where it asks for the pack again, and
is not waiting otherwise. -/
theorem move_merged {campaigns : Campaigns} {slug : String} {payload : LeadCreateRequest}
    {campaign : Campaign} {row : LeadRow} {t' : LeadTable} {phase' : DeliveryPhase}
    (hslug : getBySlug campaigns.list (strip slug) = some campaign)
    (hactive : campaign.status = .active)
    (hfound : getByCampaignEmail s.leads campaign.id (normaliseEmail py payload.email) = some row)
    (hupdate : s.leads.update row.1 (mergedLead py campaign payload a.now (some row.2)) = some t')
    (h : afterSubmit campaign (row.1, mergedLead py campaign payload a.now (some row.2)) false t' s =
      (s', phase')) :
    Move transport .start phase' s s'
      (DeliveryCall.takesUp py campaigns.list ⟨.endpoint slug payload, .start⟩ s) := by
  rw [afterSubmit] at h
  split at h
  · rename_i hpending
    rw [Prod.mk.injEq] at h
    obtain ⟨rfl, rfl⟩ := h
    refine move_update hupdate (Or.inr (Or.inl (by simp [DeliveryPhase.inHand]))) ?_
      (fun h => absurd rfl h) ⟨⟨?_, ?_⟩, ?_⟩ ?_ (by simp [DeliveryPhase.inHand])
    · intro i _ hi
      have hne : row.1 ≠ i := fun heq => hi (by simp [DeliveryPhase.inHand, heq])
      simp [emailsSince, hne]
    · rw [mergedLead_waiting_eq, decide_eq_true_iff]
      exact hpending
    · exact ⟨_, (Table.mem_of_update hupdate).2
        (Or.inr ⟨rfl, row.2, (getByCampaignEmail_eq_some hfound).1⟩)⟩
    · simp [emailsSince, PackTask.mails]
    · intro i hi
      right
      obtain rfl : i = row.1 := by simpa [DeliveryPhase.inHand] using hi
      have hnext : nextPackStatus (some row.2) (some row.2.packDeliveryStatus)
          (row.2.requestedMaterials.getD []) payload = .pending := hpending
      simp only [DeliveryCall.takesUp, hslug, hfound, hactive, hnext, true_and, if_true]
      exact List.mem_singleton.2 rfl
  · rename_i hpending
    rw [Prod.mk.injEq] at h
    obtain ⟨rfl, rfl⟩ := h
    refine move_update hupdate (Or.inr (Or.inr ?_)) (fun _ _ _ => rfl) (fun _ _ => rfl)
      (afterPack_good _ _ _) (by simp) (by simp [DeliveryPhase.inHand])
    rw [mergedLead_waiting_eq, decide_eq_false_iff_not]
    exact hpending

/-- A submission that stores a new lead, which is put in hand where it asks for the pack. -/
theorem move_created {campaigns : Campaigns} {slug : String} {payload : LeadCreateRequest}
    {campaign : Campaign} {t' : LeadTable} {phase' : DeliveryPhase}
    (hinsert : s.leads.insert (mergedLead py campaign payload a.now none) =
      some (s.leads.nextId, t'))
    (h : afterSubmit campaign (s.leads.nextId, mergedLead py campaign payload a.now none) true t' s =
      (s', phase')) :
    Move transport .start phase' s s'
      (DeliveryCall.takesUp py campaigns.list ⟨.endpoint slug payload, .start⟩ s) := by
  -- nobody can have the new lead in hand: its id is handed out now
  have hnew : ∀ l, (s.leads.nextId, l) ∉ s.leads.rows :=
    fun l hl => (s.leads.id_lt _ hl).ne rfl
  have hkeeps : ∀ log, Keeps s ⟨t', log, s.locked⟩ :=
    fun log q hq => ⟨q.2, (Table.mem_of_insert hinsert).2 (Or.inl hq)⟩
  have hold : ∀ i l, (i, l) ∈ t'.rows → waiting l = true →
      (i = s.leads.nextId ∧ waiting (mergedLead py campaign payload a.now none) = true) ∨
        ∃ l₀, (i, l₀) ∈ s.leads.rows ∧ waiting l₀ = true := by
    intro i l hl hwaiting
    rcases (Table.mem_of_insert hinsert).1 hl with hl | heq
    · exact Or.inr ⟨l, hl, hwaiting⟩
    · rw [Prod.mk.injEq] at heq
      exact Or.inl ⟨heq.1, heq.2 ▸ hwaiting⟩
  rw [afterSubmit] at h
  split at h
  · rename_i hpending
    rw [Prod.mk.injEq] at h
    obtain ⟨rfl, rfl⟩ := h
    have hwaiting : waiting (mergedLead py campaign payload a.now none) = true := by
      rw [mergedLead_waiting_eq, decide_eq_true_iff]
      exact hpending
    refine ⟨⟨⟨hwaiting, _, (Table.mem_of_insert hinsert).2 (Or.inr rfl)⟩, ?_⟩, hkeeps _,
      fun h => absurd rfl h, ?_, ?_, by simp [DeliveryPhase.inHand], ?_⟩
    · simp [emailsSince, PackTask.mails]
    · intro id hid
      obtain rfl : id = s.leads.nextId := by simpa [DeliveryPhase.inHand] using hid
      exact Or.inr (Or.inr ⟨rfl, hnew⟩)
    · intro id _ hid
      have hne : s.leads.nextId ≠ id := fun heq => hid (by simp [DeliveryPhase.inHand, heq])
      simp [emailsSince, hne]
    · intro id _ hid l hl hl'
      rcases hold id l hl hl' with ⟨rfl, -⟩ | hold
      · exact absurd (List.mem_singleton.2 rfl) hid
      · exact hold
  · rename_i hpending
    rw [Prod.mk.injEq] at h
    obtain ⟨rfl, rfl⟩ := h
    have hwaiting : waiting (mergedLead py campaign payload a.now none) = false := by
      rw [mergedLead_waiting_eq, decide_eq_false_iff_not]
      exact hpending
    refine ⟨afterPack_good _ _ _, hkeeps _, fun _ _ => rfl, by simp, fun _ _ _ => rfl,
      by simp [DeliveryPhase.inHand], ?_⟩
    intro id _ _ l hl hl'
    rcases hold id l hl hl' with ⟨-, hnow⟩ | hold
    · rw [hwaiting] at hnow
      cases hnow
    · exact hold

theorem move_submit {campaigns : Campaigns} {slug : String} {payload : LeadCreateRequest}
    {phase' : DeliveryPhase}
    (h : deliveryPhaseStep py transport campaigns.list (.endpoint slug payload) a s .start =
      some (s', phase')) :
    Move transport .start phase' s s'
      (DeliveryCall.takesUp py campaigns.list ⟨.endpoint slug payload, .start⟩ s) := by
  simp only [deliveryPhaseStep, Option.some.injEq] at h
  rcases submitStep_cases py campaigns slug payload a.now s with hidle |
    ⟨campaign, hslug, hactive, ⟨row, t', hfound, hupdate, hsubmit⟩ | ⟨t', hinsert, hsubmit⟩⟩
  · rw [hidle, Prod.mk.injEq] at h
    obtain ⟨rfl, rfl⟩ := h
    exact move_idle rfl (fun _ => rfl) (fun _ => rfl) trivial (by simp [DeliveryPhase.inHand])
      (by simp [DeliveryPhase.inHand])
  · rw [hsubmit] at h
    exact move_merged hslug hactive hfound hupdate h
  · rw [hsubmit] at h
    exact move_created hinsert h

/-- A sweep loads its list. -/
theorem move_select {underLock : Bool} {limit : Nat} {campaigns : List Campaign}
    {phase' : DeliveryPhase}
    (hfree : ∀ id ∈ DeliveryCall.takesUp py campaigns ⟨.sweep underLock limit, .start⟩ s,
      ∀ l, (id, l) ∈ s.leads.rows → waiting l = true → emailsSince id s.log = 0)
    (h : deliveryPhaseStep py transport campaigns (.sweep underLock limit) a s .start =
      some (s', phase')) :
    Move transport .start phase' s s'
      (DeliveryCall.takesUp py campaigns ⟨.sweep underLock limit, .start⟩ s) := by
  simp only [deliveryPhaseStep] at h
  simp only [DeliveryCall.takesUp] at hfree ⊢
  split at h
  · rw [Option.some.injEq, Prod.mk.injEq] at h
    obtain ⟨rfl, rfl⟩ := h
    exact move_idle rfl (fun _ => rfl) (fun _ => rfl) trivial (by simp [DeliveryPhase.inHand])
      (by simp [DeliveryPhase.inHand])
  · rename_i hgo
    rw [if_neg hgo] at hfree ⊢
    rw [Option.some.injEq, Prod.mk.injEq] at h
    obtain ⟨rfl, rfl⟩ := h
    refine move_idle rfl (fun _ => rfl) (fun _ => rfl) ⟨by simp, fun row hrow => ?_, ?_⟩
      (fun id hid => Or.inr hid) (by simp [DeliveryPhase.inHand])
    · obtain ⟨hmem, hwaiting⟩ := mem_listPendingPackDelivery hrow
      exact ⟨⟨hwaiting, row.2, hmem⟩, hfree row.1 (List.mem_map_of_mem hrow) row.2 hmem hwaiting⟩
    · exact s.leads.nodup_ids_select waiting _

/-- **What a step does.** Every step of a process whose leads are in good order is a `Move`, when the
waiting leads that it takes up have not been mailed since their last request. -/
theorem deliveryPhaseStep_move {campaigns : Campaigns} {call : DeliveryCall} {phase' : DeliveryPhase}
    (hgood : call.phase.Good transport s)
    (hfree : ∀ id ∈ call.takesUp py campaigns.list s, ∀ l, (id, l) ∈ s.leads.rows →
      waiting l = true → emailsSince id s.log = 0)
    (h : deliveryPhaseStep py transport campaigns.list call.caller a s call.phase =
      some (s', phase')) :
    Move transport call.phase phase' s s' (call.takesUp py campaigns.list s) := by
  obtain ⟨caller, phase⟩ := call
  cases phase with
  | start =>
      cases caller with
      | endpoint slug payload => exact move_submit h
      | sweep underLock limit => exact move_select hfree h
  | packing task created => exact move_packing hgood h
  | viewing task => exact move_viewing h
  | sweeping todo task => exact move_sweeping hgood h
  | ended => simp [deliveryPhaseStep] at h

end Move

end SalesTrades.Leads
