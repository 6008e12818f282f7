import Mathlib.Data.List.Nodup
import Mathlib.Data.List.Pairwise
import Mathlib.Tactic.Common

/-!
# Relational tables with a partial unique index

A table is a list of rows with numeric ids, handed out by a counter. `key` is the indexed expression
of a unique index: two rows may not have the same `some k`, and a row with `key r = none` is not
covered by the index. The index is a field of the structure, so a table that violates it cannot be
built: `insert` and `update` return `none` exactly on a violation (`insert_eq_none_iff`,
`update_eq_none_iff`). Rows keep their position, so the list order is the insertion order.
-/

set_option autoImplicit false

namespace SalesTrades.Library

universe u v

variable {ρ : Type u} {κ : Type v}

/-- Rows with their ids, the id counter, and the unique index on `key`. -/
@[ext]
structure Table (key : ρ → Option κ) where
  rows : List (Nat × ρ)
  nextId : Nat
  id_lt : ∀ q ∈ rows, q.1 < nextId
  nodup : (rows.map Prod.fst).Nodup
  unique : rows.Pairwise fun a b => ∀ k, key a.2 = some k → key b.2 ≠ some k

namespace Table

variable {key : ρ → Option κ}

/-- The table with no rows. -/
def empty (key : ρ → Option κ) : Table key where
  rows := []
  nextId := 1
  id_lt := by simp
  nodup := by simp
  unique := by simp

/-- The row with id `id`. -/
def get? (t : Table key) (id : Nat) : Option (Nat × ρ) := t.rows.find? fun q => q.1 == id

/-- The first row satisfying `p`. -/
def first (t : Table key) (p : ρ → Bool) : Option (Nat × ρ) := t.rows.find? fun q => p q.2

/-- Every row satisfying `p`, in the order of the table. -/
def select (t : Table key) (p : ρ → Bool) : List (Nat × ρ) := t.rows.filter fun q => p q.2

/-- The table without the row of an id. -/
def without (t : Table key) (id : Nat) : Table key where
  rows := t.rows.filter fun q => q.1 != id
  nextId := t.nextId
  id_lt := fun q hq => t.id_lt q (List.mem_of_mem_filter hq)
  nodup := t.nodup.sublist (List.filter_sublist.map Prod.fst)
  unique := t.unique.sublist List.filter_sublist

theorem mem_of_get? {t : Table key} {id : Nat} {q : Nat × ρ} (h : t.get? id = some q) :
    q ∈ t.rows ∧ q.1 = id :=
  ⟨List.mem_of_find?_eq_some h, by simpa using List.find?_some h⟩

theorem mem_of_first {t : Table key} {p : ρ → Bool} {q : Nat × ρ} (h : t.first p = some q) :
    q ∈ t.rows ∧ p q.2 = true := by
  unfold first at h
  exact ⟨List.mem_of_find?_eq_some h, by simpa using List.find?_some h⟩

theorem first_eq_none_iff {t : Table key} {p : ρ → Bool} :
    t.first p = none ↔ ∀ q ∈ t.rows, p q.2 = false := by
  simp [first]

theorem mem_select {t : Table key} {p : ρ → Bool} {q : Nat × ρ} :
    q ∈ t.select p ↔ q ∈ t.rows ∧ p q.2 = true := by
  simp [select]

/-- A selection loses a row with an id exactly when it has the row of that id. -/
theorem length_select_without_lt_iff {t : Table key} {p : ρ → Bool} {id : Nat} :
    ((t.without id).select p).length < (t.select p).length ↔ ∃ r, (id, r) ∈ t.rows ∧ p r = true := by
  have hfilter : (t.without id).select p = (t.select p).filter fun q => q.1 != id := by
    simp only [without, select, List.filter_filter, Bool.and_comm]
  rw [hfilter, List.length_filter_lt_length_iff_exists]
  constructor
  · rintro ⟨q, hq, hid⟩
    obtain ⟨hrow, hp⟩ := mem_select.1 hq
    obtain rfl : q.1 = id := by simpa using hid
    exact ⟨q.2, hrow, hp⟩
  · rintro ⟨r, hrow, hp⟩
    exact ⟨(id, r), mem_select.2 ⟨hrow, hp⟩, by simp⟩

/-- A selection within a limit has no id twice. -/
theorem nodup_ids_select (t : Table key) (p : ρ → Bool) (limit : Nat) :
    (((t.select p).take limit).map Prod.fst).Nodup :=
  t.nodup.sublist (((List.take_sublist _ _).trans List.filter_sublist).map _)

theorem nodup_select (t : Table key) (p : ρ → Bool) (limit : Nat) :
    ((t.select p).take limit).Nodup :=
  List.Nodup.of_map _ (t.nodup_ids_select p limit)

/-- An id determines its row. -/
theorem eq_of_id {t : Table key} {a b : Nat × ρ} (ha : a ∈ t.rows) (hb : b ∈ t.rows)
    (h : a.1 = b.1) : a = b :=
  List.inj_on_of_nodup_map t.nodup ha hb h

theorem get?_eq_some_iff {t : Table key} {id : Nat} {r : ρ} :
    t.get? id = some (id, r) ↔ (id, r) ∈ t.rows := by
  refine ⟨fun h => (mem_of_get? h).1, fun h => ?_⟩
  cases hq : t.get? id with
  | none =>
      have := List.find?_eq_none.1 hq (id, r) h
      simp at this
  | some q =>
      obtain ⟨hmem, hid⟩ := mem_of_get? hq
      rw [eq_of_id hmem h hid]

/-- The unique index: two rows with the same covered key are the same row. -/
theorem eq_of_key {t : Table key} {a b : Nat × ρ} {k : κ} (ha : a ∈ t.rows) (hb : b ∈ t.rows)
    (hka : key a.2 = some k) (hkb : key b.2 = some k) : a = b := by
  by_contra hne
  have hsym : Std.Symm fun a b : Nat × ρ => ∀ k, key a.2 = some k → key b.2 ≠ some k :=
    ⟨fun a b hab k hb ha => hab k ha hb⟩
  exact t.unique.forall ha hb hne k hka hkb

/-- The rows of `t'` are those of `t`, each as `f` writes it. -/
def Rewritten (f : Nat × ρ → ρ) (t t' : Table key) : Prop :=
  ∀ q, q ∈ t'.rows ↔ ∃ p ∈ t.rows, q = (p.1, f p)

theorem Rewritten.mem {t t' : Table key} {f : Nat × ρ → ρ} (h : Rewritten f t t') {q : Nat × ρ} (hq : q ∈ t.rows) :
    (q.1, f q) ∈ t'.rows :=
  (h _).2 ⟨q, hq, rfl⟩

theorem rewritten_self {t : Table key} {f : Nat × ρ → ρ} (h : ∀ q ∈ t.rows, f q = q.2) : Rewritten f t t := by
  intro q
  constructor
  · exact fun hq => ⟨q, hq, by rw [h q hq]⟩
  · rintro ⟨p, hp, rfl⟩
    rw [h p hp]
    exact hp

theorem Rewritten.congr {t t' : Table key} {f g : Nat × ρ → ρ} (h : Rewritten f t t')
    (hfg : ∀ q ∈ t.rows, f q = g q) : Rewritten g t t' := by
  intro q
  rw [h q]
  exact exists_congr fun p => and_congr_right fun hp => by rw [hfg p hp]

theorem Rewritten.trans {t t' t'' : Table key} {f g : Nat × ρ → ρ} (h : Rewritten f t t')
    (h' : Rewritten g t' t'') : Rewritten (fun q => g (q.1, f q)) t t'' := by
  intro q
  rw [h' q]
  constructor
  · rintro ⟨p, hp, rfl⟩
    obtain ⟨o, ho, rfl⟩ := (h p).1 hp
    exact ⟨o, ho, rfl⟩
  · rintro ⟨o, ho, rfl⟩
    exact ⟨(o.1, f o), h.mem ho, rfl⟩

/-- Looking rows up by their ids tells how they were rewritten. -/
theorem rewritten_iff_get? {t t' : Table key} {f : Nat × ρ → ρ} :
    Rewritten f t t' ↔ ∀ id, t'.get? id = (t.get? id).map fun q => (q.1, f q) := by
  constructor
  · intro h id
    cases hget : t.get? id with
    | some q =>
        obtain ⟨hq, rfl⟩ := mem_of_get? hget
        exact get?_eq_some_iff.2 (h.mem hq)
    | none =>
        rw [Option.map_none, Option.eq_none_iff_forall_ne_some]
        intro q' hq'
        -- the row would be there before
        obtain ⟨hmem, hid⟩ := mem_of_get? hq'
        obtain ⟨q, hq, rfl⟩ := (h q').1 hmem
        have hfound : t.get? q.1 = some (q.1, q.2) := get?_eq_some_iff.2 hq
        rw [show q.1 = id from hid, hget] at hfound
        cases hfound
  · rintro h ⟨id, r⟩
    rw [← get?_eq_some_iff, h, Option.map_eq_some_iff]
    constructor
    · rintro ⟨p, hp, heq⟩
      exact ⟨p, (mem_of_get? hp).1, heq.symm⟩
    · rintro ⟨p, hp, heq⟩
      obtain rfl : id = p.1 := congrArg Prod.fst heq
      exact ⟨p, get?_eq_some_iff.2 hp, heq.symm⟩

variable [DecidableEq κ]

/-- Some row other than `id` holds the key of `r`. -/
def taken (t : Table key) (id : Nat) (r : ρ) : Bool :=
  t.rows.any fun q => q.1 != id && (key r).isSome && key q.2 == key r

theorem taken_eq_true_iff {t : Table key} {id : Nat} {r : ρ} :
    t.taken id r = true ↔ ∃ q ∈ t.rows, q.1 ≠ id ∧ ∃ k, key r = some k ∧ key q.2 = some k := by
  simp only [taken, List.any_eq_true, Bool.and_eq_true, bne_iff_ne, beq_iff_eq,
    Option.isSome_iff_exists, and_assoc]
  refine exists_congr fun q => and_congr_right fun _ => and_congr_right fun _ => ?_
  constructor
  · rintro ⟨⟨k, hk⟩, heq⟩
    exact ⟨k, hk, heq.trans hk⟩
  · rintro ⟨k, hr, hq⟩
    exact ⟨⟨k, hr⟩, hq.trans hr.symm⟩

theorem taken_eq_false_iff {t : Table key} {id : Nat} {r : ρ} :
    t.taken id r = false ↔
      ∀ q ∈ t.rows, q.1 ≠ id → ∀ k, key r = some k → key q.2 ≠ some k := by
  rw [← Bool.not_eq_true, taken_eq_true_iff]
  push Not
  rfl

/-- Append a row under the next id; `none` when the unique index rejects it. -/
def insert (t : Table key) (r : ρ) : Option (Nat × Table key) :=
  if h : t.taken t.nextId r = true then none
  else some (t.nextId,
    { rows := t.rows ++ [(t.nextId, r)]
      nextId := t.nextId + 1
      id_lt := by
        intro q hq
        rcases List.mem_append.1 hq with hq | hq
        · exact Nat.lt_succ_of_lt (t.id_lt q hq)
        · simp only [List.mem_singleton] at hq
          simp [hq]
      nodup := by
        rw [List.map_append, List.nodup_append]
        refine ⟨t.nodup, by simp, ?_⟩
        intro a ha b hb
        obtain ⟨q, hq, rfl⟩ := List.mem_map.1 ha
        simp only [List.map_cons, List.map_nil, List.mem_singleton] at hb
        exact hb ▸ Nat.ne_of_lt (t.id_lt q hq)
      unique := by
        rw [Bool.not_eq_true, taken_eq_false_iff] at h
        rw [List.pairwise_append]
        -- an old row and the new one: `taken` has looked for the key among the old rows
        refine ⟨t.unique, by simp, ?_⟩
        intro a ha b hb k hka
        simp only [List.mem_singleton] at hb
        subst hb
        exact fun hkb => h a ha (Nat.ne_of_lt (t.id_lt a ha)) k hkb hka })

/-- Replace the row with id `id`; `none` when the unique index rejects the new row. -/
def update (t : Table key) (id : Nat) (r : ρ) : Option (Table key) :=
  if h : t.taken id r = true then none
  else some
    { rows := t.rows.map fun q => if q.1 = id then (id, r) else q
      nextId := t.nextId
      id_lt := by
        intro q hq
        obtain ⟨q', hq', rfl⟩ := List.mem_map.1 hq
        have := t.id_lt q' hq'
        split <;> simp_all
      nodup := by
        have : (t.rows.map fun q => if q.1 = id then (id, r) else q).map Prod.fst =
            t.rows.map Prod.fst := by
          rw [List.map_map]
          refine List.map_congr_left fun q _ => ?_
          simp only [Function.comp_apply]
          split <;> simp_all
        rw [this]
        exact t.nodup
      unique := by
        rw [Bool.not_eq_true, taken_eq_false_iff] at h
        rw [List.pairwise_map]
        have hids : t.rows.Pairwise fun a b => a.1 ≠ b.1 := List.pairwise_map.1 t.nodup
        refine List.Pairwise.imp_of_mem ?_ (t.unique.and hids)
        intro a b ha hb hab k
        obtain ⟨hkey, hne⟩ := hab
        -- ids are distinct, so at most one of the two rows is the replaced one
        by_cases hai : a.1 = id
        · have hbi : b.1 ≠ id := fun hbi => hne (hai.trans hbi.symm)
          simp only [hai, hbi, if_true, if_false]
          exact h b hb hbi k
        · by_cases hbi : b.1 = id
          · simp only [hai, hbi, if_true, if_false]
            exact fun hka hkb => h a ha hai k hkb hka
          · simp only [hai, hbi, if_false]
            exact hkey k }

theorem insert_eq_none_iff {t : Table key} {r : ρ} :
    t.insert r = none ↔ ∃ q ∈ t.rows, ∃ k, key r = some k ∧ key q.2 = some k := by
  rw [insert, dite_eq_iff]
  simp only [taken_eq_true_iff, reduceCtorEq, exists_false, or_false, exists_prop, and_true]
  exact exists_congr fun q => and_congr_right fun hq => and_iff_right (Nat.ne_of_lt (t.id_lt q hq))

/-- What a successful insert does. -/
theorem insert_eq_some {t t' : Table key} {r : ρ} {id : Nat} (h : t.insert r = some (id, t')) :
    id = t.nextId ∧ t'.rows = t.rows ++ [(t.nextId, r)] ∧ t'.nextId = t.nextId + 1 := by
  unfold insert at h
  split at h
  · cases h
  · simp only [Option.some.injEq, Prod.mk.injEq] at h
    obtain ⟨rfl, rfl⟩ := h
    exact ⟨rfl, rfl, rfl⟩

theorem mem_of_insert {t t' : Table key} {r : ρ} {id : Nat} (h : t.insert r = some (id, t'))
    {q : Nat × ρ} : q ∈ t'.rows ↔ q ∈ t.rows ∨ q = (id, r) := by
  obtain ⟨rfl, hrows, -⟩ := insert_eq_some h
  simp [hrows]

theorem update_eq_none_iff {t : Table key} {id : Nat} {r : ρ} :
    t.update id r = none ↔
      ∃ q ∈ t.rows, q.1 ≠ id ∧ ∃ k, key r = some k ∧ key q.2 = some k := by
  rw [update, dite_eq_iff]
  simp only [taken_eq_true_iff, reduceCtorEq, exists_false, or_false, exists_prop, and_true]

/-- What a successful update does. -/
theorem update_eq_some {t t' : Table key} {r : ρ} {id : Nat} (h : t.update id r = some t') :
    t'.rows = t.rows.map (fun q => if q.1 = id then (id, r) else q) ∧ t'.nextId = t.nextId := by
  unfold update at h
  split at h
  · cases h
  · simp only [Option.some.injEq] at h
    subst h
    exact ⟨rfl, rfl⟩

theorem mem_of_update {t t' : Table key} {r : ρ} {id : Nat} (h : t.update id r = some t')
    {q : Nat × ρ} : q ∈ t'.rows ↔
      (q ∈ t.rows ∧ q.1 ≠ id) ∨ (q = (id, r) ∧ ∃ old, (id, old) ∈ t.rows) := by
  rw [(update_eq_some h).1, List.mem_map]
  constructor
  · rintro ⟨a, ha, rfl⟩
    by_cases hai : a.1 = id
    · simp only [hai, if_true]
      exact Or.inr ⟨trivial, a.2, hai ▸ ha⟩
    · simp only [hai, if_false]
      exact Or.inl ⟨ha, hai⟩
  · rintro (⟨hq, hne⟩ | ⟨rfl, old, hold⟩)
    · exact ⟨q, hq, by simp [hne]⟩
    · exact ⟨(id, old), hold, by simp⟩

/-- An update writes its own row. -/
theorem rewritten_update {t t' : Table key} {id : Nat} {r : ρ} (h : t.update id r = some t') :
    Rewritten (fun q => if q.1 = id then r else q.2) t t' := by
  intro q
  dsimp only
  rw [mem_of_update h]
  constructor
  · rintro (⟨hq, hne⟩ | ⟨rfl, old, hold⟩)
    · exact ⟨q, hq, by rw [if_neg hne]⟩
    · exact ⟨(id, old), hold, by rw [if_pos rfl]⟩
  · rintro ⟨p, hp, rfl⟩
    by_cases hid : p.1 = id
    · right
      rw [if_pos hid, ← hid]
      exact ⟨rfl, p.2, hp⟩
    · left
      rw [if_neg hid]
      exact ⟨hp, hid⟩

/-- Which row an id leads to after an update. -/
theorem get?_update {t t' : Table key} {id : Nat} {r : ρ} (h : t.update id r = some t') (j : Nat) :
    t'.get? j = (t.get? j).map fun q => if q.1 = id then (id, r) else q := by
  unfold get?
  rw [(update_eq_some h).1, List.find?_map]
  congr 2
  funext q
  simp only [Function.comp_apply]
  -- the row that is written keeps its id
  by_cases hq : q.1 = id
  · simp [hq]
  · simp [hq]

/-- An update that keeps the key of the row it replaces is never rejected. -/
theorem exists_update_of_key_eq {t : Table key} {id : Nat} {old r : ρ} (hmem : (id, old) ∈ t.rows)
    (hkey : key r = key old) : ∃ t', t.update id r = some t' := by
  rw [← Option.isSome_iff_exists, Option.isSome_iff_ne_none]
  intro hnone
  obtain ⟨q, hq, hne, k, hk, hkq⟩ := update_eq_none_iff.1 hnone
  -- the row that holds the key is the row that is replaced
  have := t.eq_of_key hq hmem hkq (hkey ▸ hk)
  exact hne (by rw [this])

/-- The tables have the same rows, the row `id` apart. -/
def SameExcept (id : Nat) (t t' : Table key) : Prop :=
  ∀ q, q.1 ≠ id → (q ∈ t'.rows ↔ q ∈ t.rows)

theorem sameExcept_insert {t t' : Table key} {r : ρ} {id : Nat} (h : t.insert r = some (id, t')) :
    SameExcept id t t' := by
  intro q hq
  rw [mem_of_insert h]
  refine or_iff_left fun heq => hq ?_
  rw [heq]

theorem sameExcept_update {t t' : Table key} {r : ρ} {id : Nat} (h : t.update id r = some t') :
    SameExcept id t t' := by
  intro q hq
  rw [mem_of_update h]
  constructor
  · rintro (⟨hmem, -⟩ | ⟨rfl, -⟩)
    · exact hmem
    · exact absurd rfl hq
  · exact fun hmem => Or.inl ⟨hmem, hq⟩

/-- Writing back the row that is there changes nothing. -/
theorem update_self {t : Table key} {id : Nat} {r : ρ} (hmem : (id, r) ∈ t.rows) :
    t.update id r = some t := by
  obtain ⟨t', ht'⟩ := exists_update_of_key_eq hmem rfl
  rw [ht', Option.some.injEq]
  obtain ⟨hrows, hnext⟩ := update_eq_some ht'
  refine Table.ext ?_ hnext
  rw [hrows]
  conv_rhs => rw [← List.map_id t.rows]
  refine List.map_congr_left fun q hq => ?_
  by_cases hqi : q.1 = id
  · simp only [hqi, if_true, id_eq]
    exact eq_of_id hmem hq hqi.symm
  · simp [hqi]

/-- Every row that one of the tables has and the other has not satisfies `p`. -/
def ChangesWithin (p : ρ → Prop) (t t' : Table key) : Prop :=
  ∀ q, (q ∈ t'.rows ↔ q ∈ t.rows) ∨ p q.2

omit [DecidableEq κ] in
theorem ChangesWithin.of_rows_eq {p : ρ → Prop} {t t' : Table key} (h : t'.rows = t.rows) :
    ChangesWithin p t t' :=
  fun _ => Or.inl (by rw [h])

theorem changesWithin_insert {p : ρ → Prop} {t t' : Table key} {r : ρ} {id : Nat}
    (h : t.insert r = some (id, t')) (hr : p r) : ChangesWithin p t t' := by
  intro q
  by_cases hq : q = (id, r)
  · exact Or.inr (hq ▸ hr)
  · left
    rw [mem_of_insert h]
    exact or_iff_left hq

/-- An update is within `p` when it writes the row as it is, or over a row of `p` another of `p`. -/
theorem changesWithin_update_iff {p : ρ → Prop} {t t' : Table key} {id : Nat} {old r : ρ}
    (hold : (id, old) ∈ t.rows) (h : t.update id r = some t') :
    ChangesWithin p t t' ↔ r = old ∨ (p old ∧ p r) := by
  constructor
  · intro hwithin
    by_cases hsame : r = old
    · exact Or.inl hsame
    have hnew : (id, r) ∈ t'.rows := (mem_of_update h).2 (Or.inr ⟨rfl, old, hold⟩)
    refine Or.inr ⟨(hwithin (id, old)).resolve_left fun hiff => hsame ?_,
      (hwithin (id, r)).resolve_left fun hiff => hsame ?_⟩
    · exact congrArg Prod.snd (eq_of_id hnew (hiff.2 hold) rfl)
    · exact congrArg Prod.snd (eq_of_id (hiff.1 hnew) hold rfl)
  · rintro (rfl | ⟨hpold, hpr⟩)
    · rw [update_self hold, Option.some.injEq] at h
      exact .of_rows_eq (by rw [h])
    · intro q
      by_cases hid : q.1 = id
      · by_cases hq : q = (id, r)
        · exact Or.inr (hq ▸ hpr)
        by_cases hq' : q = (id, old)
        · exact Or.inr (hq' ▸ hpold)
        · -- a row under the id is the old one or the new one
          refine Or.inl (iff_of_false (fun hmem => ?_) fun hmem => hq' (eq_of_id hmem hold hid))
          rcases (mem_of_update h).1 hmem with ⟨-, hne⟩ | ⟨heq, -⟩
          · exact hne hid
          · exact hq heq
      · exact Or.inl (sameExcept_update h q hid)

end Table

end SalesTrades.Library
