import Mathlib.Data.List.Nodup
import Mathlib.Data.List.Basic

/-!
# Keyed tables

A table is a list of rows in which no key occurs twice; the key is part of its type, and the
uniqueness is carried by the table, so that an insert has to find its key free and an update has
to leave the keys alone. Reads and writes choose rows by a predicate, as a `WHERE` clause does.

## Main definitions

* `Table key`: rows with pairwise distinct keys
* `Table.insert?`, `Table.update`, `Table.delete`: the writes
* `Table.select`, `Table.selectOne`, `Table.affected`: the reads, and the number of rows a write
  touches
* `Table.AgreeOutside P`: two tables with the same rows outside `P`
* `Table.Has t f v k`: the row at `k` has the attribute `v`
* `Linked t A B`: every row of a junction table links two things with one attribute

## Main results

* `Table.eq_of_key_eq`: a key has at most one row
* `Table.selectOne_key`: a lookup by key finds exactly the row with that key
* `Table.mem_insert?`, `Table.mem_update`, `Table.mem_delete`: the rows after a write
* `Table.selectOne_insert?`, `Table.selectOne_update_key`, `Table.selectOne_delete_key`: the lookup
  by key after a write
* `Table.agreeOutside_delete`, `Table.agreeOutside_update`: the writes that stay inside a set of
  rows
* `Table.has_insert`, `Table.has_update`, `Table.has_delete`: the attributes after a write
* `Linked.mono`, `Linked.insert`: the links after a write
-/

namespace Relational

variable {Row Key : Type}

/-- Rows with pairwise distinct keys. -/
structure Table (key : Row → Key) where
  rows : List Row
  nodup : (rows.map key).Nodup

namespace Table

variable {key : Row → Key}

instance : Membership Row (Table key) := ⟨fun t r => r ∈ t.rows⟩

theorem mem_def {t : Table key} {r : Row} : r ∈ t ↔ r ∈ t.rows := Iff.rfl

@[simp] theorem mem_mk {l : List Row} {h : (l.map key).Nodup} {r : Row} :
    r ∈ (⟨l, h⟩ : Table key) ↔ r ∈ l := Iff.rfl

theorem ext {t t' : Table key} (h : t.rows = t'.rows) : t = t' := by
  cases t
  cases t'
  simpa using h

/-- The table without rows. -/
def empty : Table key := ⟨[], List.nodup_nil⟩

instance : EmptyCollection (Table key) := ⟨empty⟩

@[simp] theorem not_mem_empty (r : Row) : r ∉ (∅ : Table key) := List.not_mem_nil

/-- The table with one row. -/
def single (r : Row) : Table key := ⟨[r], List.nodup_singleton _⟩

@[simp] theorem rows_single (r : Row) : (single r : Table key).rows = [r] := rfl

/-- Insert a row whose key is free. -/
def insert? [DecidableEq Key] (t : Table key) (r : Row) : Option (Table key) :=
  if h : key r ∈ t.rows.map key then none
  else some ⟨r :: t.rows, List.nodup_cons.mpr ⟨h, t.nodup⟩⟩

/-- Change the rows chosen by `p`, leaving every key alone. -/
def update (t : Table key) (p : Row → Bool) (f : Row → Row) (hf : ∀ r, key (f r) = key r) :
    Table key where
  rows := t.rows.map fun r => if p r then f r else r
  nodup := by
    have hkeys : key ∘ (fun r => if p r then f r else r) = key := by
      funext r
      by_cases hp : p r <;> simp [hp, hf]
    rw [List.map_map, hkeys]
    exact t.nodup

/-- Remove the rows chosen by `p`. -/
def delete (t : Table key) (p : Row → Bool) : Table key where
  rows := t.rows.filter fun r => !p r
  nodup := t.nodup.sublist (List.filter_sublist.map key)

/-- The rows chosen by `p`. -/
def select (t : Table key) (p : Row → Bool) : List Row := t.rows.filter p

/-- The first row chosen by `p`. -/
def selectOne (t : Table key) (p : Row → Bool) : Option Row := t.rows.find? p

/-- The number of rows chosen by `p`. -/
def affected (t : Table key) (p : Row → Bool) : Nat := t.rows.countP p

/-- **A key has at most one row.** -/
theorem eq_of_key_eq {t : Table key} {r r' : Row} (hr : r ∈ t) (hr' : r' ∈ t)
    (h : key r = key r') : r = r' :=
  List.inj_on_of_nodup_map t.nodup hr hr' h

theorem rows_nodup (t : Table key) : t.rows.Nodup := List.Nodup.of_map _ t.nodup

section Insert

variable [DecidableEq Key] {t t' : Table key} {r x : Row}

theorem insert?_eq_none : t.insert? x = none ↔ ∃ r ∈ t, key r = key x := by
  simp only [insert?, dite_eq_left_iff, reduceCtorEq, imp_false, not_not, List.mem_map]
  exact Iff.rfl

theorem rows_of_insert? (h : t.insert? x = some t') : t'.rows = x :: t.rows := by
  unfold insert? at h
  split at h
  · cases h
  · cases h
    rfl

theorem mem_insert? (h : t.insert? x = some t') : r ∈ t' ↔ r = x ∨ r ∈ t := by
  rw [mem_def, rows_of_insert? h, List.mem_cons]
  exact Iff.rfl

theorem insert?_fresh (h : t.insert? x = some t') (hr : r ∈ t) : key r ≠ key x := by
  intro hk
  rw [insert?_eq_none.mpr ⟨r, hr, hk⟩] at h
  cases h

theorem insert?_isSome (h : ∀ r ∈ t, key r ≠ key x) : ∃ t', t.insert? x = some t' := by
  cases hi : t.insert? x with
  | some t' => exact ⟨t', rfl⟩
  | none =>
    obtain ⟨r, hr, hk⟩ := insert?_eq_none.mp hi
    exact absurd hk (h r hr)

end Insert

section Write

variable {t : Table key} {r : Row} {p : Row → Bool}

theorem mem_update {f : Row → Row} {hf : ∀ r, key (f r) = key r} :
    r ∈ t.update p f hf ↔ ∃ x ∈ t, (if p x then f x else x) = r := by
  simp only [mem_def, update, List.mem_map]

/-- A row that the update leaves alone. -/
theorem mem_update_of_not {f : Row → Row} {hf : ∀ r, key (f r) = key r} (hr : r ∈ t)
    (hp : p r = false) : r ∈ t.update p f hf :=
  mem_update.mpr ⟨r, hr, by simp [hp]⟩

theorem mem_update_of_pos {f : Row → Row} {hf : ∀ r, key (f r) = key r} (hr : r ∈ t)
    (hp : p r = true) : f r ∈ t.update p f hf :=
  mem_update.mpr ⟨r, hr, by simp [hp]⟩

theorem update_of_forall_not {f : Row → Row} {hf : ∀ r, key (f r) = key r}
    (h : ∀ r ∈ t, p r = false) : t.update p f hf = t := by
  refine ext ?_
  simp only [update]
  refine (List.map_congr_left fun r hr => ?_).trans (List.map_id _)
  simp [h r hr]

/-- Changes that do the same to the chosen rows do the same to the table. -/
theorem update_congr {f g : Row → Row} {hf : ∀ r, key (f r) = key r} {hg : ∀ r, key (g r) = key r}
    (h : ∀ r ∈ t, p r = true → f r = g r) : t.update p f hf = t.update p g hg := by
  apply ext
  show t.rows.map _ = t.rows.map _
  refine List.map_congr_left fun r hr => ?_
  by_cases hp : p r = true
  · rw [if_pos hp, if_pos hp, h r hr hp]
  · rw [if_neg hp, if_neg hp]

/-- A change that leaves the chosen rows as they are leaves the table as it is. -/
theorem update_eq_self {f : Row → Row} {hf : ∀ r, key (f r) = key r}
    (h : ∀ r ∈ t, p r = true → f r = r) : t.update p f hf = t := by
  apply ext
  show t.rows.map _ = t.rows
  rw [List.map_congr_left (g := id), List.map_id]
  intro r hr
  by_cases hp : p r = true
  · rw [if_pos hp, h r hr hp]
    rfl
  · rw [if_neg hp]
    rfl

theorem mem_delete : r ∈ t.delete p ↔ r ∈ t ∧ p r = false := by
  simp [mem_def, delete]

theorem affected_pos : 0 < t.affected p ↔ ∃ r ∈ t, p r = true := List.countP_pos_iff

theorem affected_eq_zero : t.affected p = 0 ↔ ∀ r ∈ t, p r = false := by
  simp [affected, List.countP_eq_zero, mem_def]

/-- A write touches at most one row exactly when it chooses no two. -/
theorem affected_le_one : t.affected p ≤ 1 ↔ ∀ r ∈ t, ∀ r' ∈ t, p r → p r' → r = r' := by
  have hnodup : (t.rows.filter p).Nodup := t.rows_nodup.sublist List.filter_sublist
  rw [affected, List.countP_eq_length_filter]
  constructor
  · intro hle r hr r' hr' hp hp'
    have hm : r ∈ t.rows.filter p := List.mem_filter.mpr ⟨hr, hp⟩
    have hm' : r' ∈ t.rows.filter p := List.mem_filter.mpr ⟨hr', hp'⟩
    rcases hf : t.rows.filter p with _ | ⟨a, _ | ⟨b, l⟩⟩
    · simp [hf] at hm
    · rw [hf, List.mem_singleton] at hm hm'
      rw [hm, hm']
    · simp [hf] at hle
  · intro h
    cases hf : t.rows.filter p with
    | nil => simp
    | cons a l =>
      have hall : ∀ b ∈ t.rows.filter p, b = a := by
        intro b hb
        have ha : a ∈ t.rows.filter p := by simp [hf]
        rw [List.mem_filter] at ha hb
        exact h b hb.1 a ha.1 hb.2 ha.2
      rw [hf] at hall hnodup
      cases l with
      | nil => simp
      | cons b l =>
        rw [hall b (by simp)] at hnodup
        simp at hnodup

end Write

section Read

variable {t : Table key} {r : Row} {p : Row → Bool}

theorem mem_select : r ∈ t.select p ↔ r ∈ t ∧ p r = true := List.mem_filter

theorem selectOne_mem (h : t.selectOne p = some r) : r ∈ t := List.mem_of_find?_eq_some h

theorem selectOne_pos (h : t.selectOne p = some r) : p r = true := List.find?_some h

theorem selectOne_eq_none : t.selectOne p = none ↔ ∀ r ∈ t, p r = false := by
  simp [selectOne, mem_def]

theorem selectOne_isSome (hr : r ∈ t) (hp : p r = true) : ∃ x, t.selectOne p = some x := by
  cases h : t.selectOne p with
  | some x => exact ⟨x, rfl⟩
  | none =>
    rw [selectOne_eq_none.mp h r hr] at hp
    cases hp

/-- **A lookup by key** finds exactly the row with that key. -/
theorem selectOne_key [DecidableEq Key] {k : Key} :
    t.selectOne (fun r => key r = k) = some r ↔ r ∈ t ∧ key r = k := by
  constructor
  · intro h
    exact ⟨selectOne_mem h, by simpa using selectOne_pos h⟩
  · rintro ⟨hr, hk⟩
    obtain ⟨x, hx⟩ := selectOne_isSome (p := fun r => key r = k) hr (by simpa using hk)
    have hxk : key x = k := by simpa using selectOne_pos hx
    rw [hx, eq_of_key_eq (selectOne_mem hx) hr (hxk.trans hk.symm)]

theorem selectOne_key_eq_none [DecidableEq Key] {k : Key} :
    t.selectOne (fun r => key r = k) = none ↔ ∀ r ∈ t, key r ≠ k := by
  simp [selectOne_eq_none]

/-- A lookup by key after an update. -/
theorem selectOne_update [DecidableEq Key] {f : Row → Row} {g : ∀ r, key (f r) = key r}
    {k : Key} (h : t.selectOne (fun r => key r = k) = some r) :
    (t.update p f g).selectOne (fun r => key r = k) = some (if p r then f r else r) := by
  obtain ⟨hr, hk⟩ := selectOne_key.mp h
  refine selectOne_key.mpr ⟨mem_update.mpr ⟨r, hr, rfl⟩, ?_⟩
  split
  · exact (g r).trans hk
  · exact hk

/-- An update finds no key that was not there. -/
theorem selectOne_update_none [DecidableEq Key] {f : Row → Row} {g : ∀ r, key (f r) = key r}
    {k : Key} (h : t.selectOne (fun r => key r = k) = none) :
    (t.update p f g).selectOne (fun r => key r = k) = none := by
  refine selectOne_key_eq_none.mpr fun r hr => ?_
  obtain ⟨r', hr', rfl⟩ := mem_update.mp hr
  have hk := selectOne_key_eq_none.mp h r' hr'
  split
  · rwa [g]
  · exact hk

/-- A lookup by key after an insert. -/
theorem selectOne_insert [DecidableEq Key] {x : Row} {t' : Table key} {k : Key}
    (hins : t.insert? x = some t') (h : t.selectOne (fun r => key r = k) = some r) :
    t'.selectOne (fun r => key r = k) = some r := by
  obtain ⟨hr, hk⟩ := selectOne_key.mp h
  exact selectOne_key.mpr ⟨(mem_insert? hins).mpr (.inr hr), hk⟩

/-- **A lookup by key after an insert.** -/
theorem selectOne_insert? [DecidableEq Key] {x : Row} {t' : Table key} {k : Key}
    (hins : t.insert? x = some t') :
    t'.selectOne (fun r => key r = k) =
      if k = key x then some x else t.selectOne fun r => key r = k := by
  ext r
  rw [selectOne_key, mem_insert? hins]
  split
  · rename_i hk
    constructor
    · rintro ⟨rfl | hr, hrk⟩
      · rfl
      · exact absurd (hrk.trans hk) (insert?_fresh hins hr)
    · rintro ⟨⟩
      exact ⟨.inl rfl, hk.symm⟩
  · rename_i hk
    rw [selectOne_key]
    constructor
    · rintro ⟨rfl | hr, hrk⟩
      · exact absurd hrk.symm hk
      · exact ⟨hr, hrk⟩
    · rintro ⟨hr, hrk⟩
      exact ⟨.inr hr, hrk⟩

/-- **A lookup by key after the row of one key is changed.** -/
theorem selectOne_update_key [DecidableEq Key] {f : Row → Row} {g : ∀ r, key (f r) = key r}
    {k k' : Key} :
    (t.update (fun r => key r = k') f g).selectOne (fun r => key r = k) =
      if k = k' then (t.selectOne fun r => key r = k).map f
      else t.selectOne fun r => key r = k := by
  cases hr : t.selectOne fun r => key r = k with
  | none =>
    rw [selectOne_update_none hr]
    simp
  | some r =>
    have hk := (selectOne_key.mp hr).2
    rw [selectOne_update hr]
    by_cases hsame : k = k'
    · simp [hsame, hk.trans hsame]
    · simp [hk, hsame]

/-- **A lookup by key after the row of one key is removed.** -/
theorem selectOne_delete_key [DecidableEq Key] {k k' : Key} :
    (t.delete fun r => key r = k').selectOne (fun r => key r = k) =
      if k = k' then none else t.selectOne fun r => key r = k := by
  ext r
  rw [selectOne_key, mem_delete, decide_eq_false_iff_not]
  split
  · rename_i hsame
    constructor
    · rintro ⟨⟨-, hne⟩, hrk⟩
      exact absurd (hrk.trans hsame) hne
    · rintro ⟨⟩
  · rename_i hother
    rw [selectOne_key]
    constructor
    · rintro ⟨⟨hr, -⟩, hrk⟩
      exact ⟨hr, hrk⟩
    · rintro ⟨hr, hrk⟩
      exact ⟨⟨hr, fun hk' => hother (hrk.symm.trans hk')⟩, hrk⟩

/-- A row that is there after an insert is the new one, or was there before. -/
theorem selectOne_of_insert [DecidableEq Key] {x : Row} {t' : Table key} {k : Key}
    (hins : t.insert? x = some t')
    (h : t'.selectOne (fun r => key r = k) = some r) :
    (r = x ∧ key x = k) ∨ t.selectOne (fun r => key r = k) = some r := by
  obtain ⟨hr, hk⟩ := selectOne_key.mp h
  rcases (mem_insert? hins).mp hr with rfl | hr
  · exact .inl ⟨rfl, hk⟩
  · exact .inr (selectOne_key.mpr ⟨hr, hk⟩)

/-- A row that is there after a delete was there before. -/
theorem selectOne_of_delete [DecidableEq Key] {k : Key}
    (h : (t.delete p).selectOne (fun r => key r = k) = some r) :
    t.selectOne (fun r => key r = k) = some r := by
  obtain ⟨hr, hk⟩ := selectOne_key.mp h
  exact selectOne_key.mpr ⟨(mem_delete.mp hr).1, hk⟩

/-- What a row's column is after an update, from what it was. -/
theorem selectOne_of_update [DecidableEq Key] {f : Row → Row} {g : ∀ r, key (f r) = key r}
    {r' : Row} {k : Key} (h : (t.update p f g).selectOne (fun r => key r = k) = some r') :
    ∃ r, t.selectOne (fun r => key r = k) = some r ∧ r' = if p r then f r else r := by
  cases hr : t.selectOne (fun r => key r = k) with
  | none =>
    rw [selectOne_update_none hr] at h
    cases h
  | some r =>
    rw [selectOne_update hr] at h
    exact ⟨r, rfl, (Option.some.inj h).symm⟩

end Read

section AgreeOutside

variable {P P' : Row → Prop} {t t' t'' : Table key} {p : Row → Bool}

/-- The tables have the same rows outside `P`. -/
def AgreeOutside (P : Row → Prop) (t t' : Table key) : Prop :=
  ∀ r, ¬P r → (r ∈ t' ↔ r ∈ t)

theorem AgreeOutside.refl (P : Row → Prop) (t : Table key) : AgreeOutside P t t :=
  fun _ _ => Iff.rfl

theorem AgreeOutside.trans_iff (h : AgreeOutside P t t') :
    AgreeOutside P t t'' ↔ AgreeOutside P t' t'' :=
  forall_congr' fun r => imp_congr_right fun hr => by rw [h r hr]

theorem agreeOutside_insert [DecidableEq Key] {x : Row} (h : t.insert? x = some t') (hx : P x) :
    AgreeOutside P t t' := by
  intro r hr
  rw [mem_insert? h]
  constructor
  · rintro (rfl | hmem)
    · exact absurd hx hr
    · exact hmem
  · exact .inr

/-- **A delete stays inside `P`** exactly when it chooses only rows of `P`. -/
theorem agreeOutside_delete : AgreeOutside P t (t.delete p) ↔ ∀ r ∈ t, p r = true → P r := by
  constructor
  · intro h r hr hp
    by_contra hP
    have hkept := (mem_delete.mp ((h r hP).mpr hr)).2
    rw [hp] at hkept
    cases hkept
  · intro h r hP
    rw [mem_delete]
    refine ⟨And.left, fun hr => ⟨hr, ?_⟩⟩
    by_contra hp
    exact hP (h r hr (by simpa using hp))

/-- **An update stays inside `P`** exactly when it changes only rows of `P`, provided that it
moves no row into `P` or out of it. -/
theorem agreeOutside_update {f : Row → Row} (hf : ∀ r, key (f r) = key r)
    (hP : ∀ r, P (f r) ↔ P r) :
    AgreeOutside P t (t.update p f hf) ↔ ∀ r ∈ t, p r = true → P r ∨ f r = r := by
  constructor
  · intro h r hr hp
    by_contra hnot
    obtain ⟨hPr, hne⟩ := not_or.mp hnot
    obtain ⟨x, hx, hxr⟩ := mem_update.mp ((h r hPr).mpr hr)
    have hkey : key x = key r := by
      rw [← hxr]
      split
      · exact (hf x).symm
      · rfl
    obtain rfl := eq_of_key_eq hx hr hkey
    rw [if_pos hp] at hxr
    exact hne hxr
  · intro h r hPr
    rw [mem_update]
    constructor
    · rintro ⟨x, hx, hxr⟩
      split at hxr
      · rename_i hp
        subst hxr
        rcases h x hx hp with hPx | hfx
        · exact absurd ((hP x).mpr hPx) hPr
        · rwa [hfx]
      · rwa [← hxr]
    · intro hr
      refine ⟨r, hr, ?_⟩
      split
      · rename_i hp
        exact (h r hr hp).resolve_left hPr
      · rfl

end AgreeOutside

/-! ### Attributes -/

section Has

variable {β : Type} {t t' : Table key} {f : Row → β} {v v' : β} {k : Key}

/-- The table has a row at the key `k`, with the attribute `v`. -/
def Has (t : Table key) (f : Row → β) (v : β) (k : Key) : Prop := ∃ r ∈ t, key r = k ∧ f r = v

theorem Has.unique (h : t.Has f v k) (h' : t.Has f v' k) : v = v' := by
  obtain ⟨r, hr, hk, rfl⟩ := h
  obtain ⟨r', hr', hk', rfl⟩ := h'
  rw [eq_of_key_eq hr hr' (hk.trans hk'.symm)]

theorem has_insert [DecidableEq Key] {x : Row} (hins : t.insert? x = some t') :
    t'.Has f v k ↔ (key x = k ∧ f x = v) ∨ t.Has f v k := by
  constructor
  · rintro ⟨r, hr, hk, hv⟩
    rcases (mem_insert? hins).mp hr with rfl | hr
    · exact .inl ⟨hk, hv⟩
    · exact .inr ⟨r, hr, hk, hv⟩
  · rintro (⟨hk, hv⟩ | ⟨r, hr, hk, hv⟩)
    · exact ⟨x, (mem_insert? hins).mpr (.inl rfl), hk, hv⟩
    · exact ⟨r, (mem_insert? hins).mpr (.inr hr), hk, hv⟩

/-- An update of other columns. -/
theorem has_update {p : Row → Bool} {g : Row → Row} (hg : ∀ r, key (g r) = key r)
    (hf : ∀ r, f (g r) = f r) : (t.update p g hg).Has f v k ↔ t.Has f v k := by
  constructor
  · rintro ⟨r, hr, hk, hv⟩
    obtain ⟨x, hx, rfl⟩ := mem_update.mp hr
    refine ⟨x, hx, ?_, ?_⟩
    · rw [← hk]
      split
      · exact (hg x).symm
      · rfl
    · rw [← hv]
      split
      · exact (hf x).symm
      · rfl
  · rintro ⟨r, hr, hk, hv⟩
    by_cases hp : p r = true
    · exact ⟨g r, mem_update_of_pos hr hp, (hg r).trans hk, (hf r).trans hv⟩
    · exact ⟨r, mem_update_of_not hr (by simpa using hp), hk, hv⟩

theorem has_delete [DecidableEq Key] {k' : Key} :
    (t.delete fun r => key r = k').Has f v k ↔ t.Has f v k ∧ k ≠ k' := by
  constructor
  · rintro ⟨r, hr, rfl, hv⟩
    obtain ⟨hr, hne⟩ := mem_delete.mp hr
    exact ⟨⟨r, hr, rfl, hv⟩, by simpa using hne⟩
  · rintro ⟨⟨r, hr, rfl, hv⟩, hne⟩
    exact ⟨r, mem_delete.mpr ⟨hr, by simpa using hne⟩, rfl, hv⟩

end Has

end Table

/-! ### Junction tables -/

section Linked

variable {key : Row → Key} {β : Type} {t t' : Table key} {A B A' B' : β → Row → Prop}

/-- Every row links two things with one attribute. -/
def Linked (t : Table key) (A B : β → Row → Prop) : Prop := ∀ x ∈ t, ∃ v, A v x ∧ B v x

theorem Linked.of_empty (A B : β → Row → Prop) : Linked (∅ : Table key) A B :=
  fun x hx => absurd hx (Table.not_mem_empty x)

/-- Rows may go, as long as what the others link stays. -/
theorem Linked.mono (h : Linked t A B) (hsub : ∀ x ∈ t', x ∈ t)
    (hA : ∀ x ∈ t', ∀ v, A v x → A' v x) (hB : ∀ x ∈ t', ∀ v, B v x → B' v x) :
    Linked t' A' B' := by
  intro x hx
  obtain ⟨v, ha, hb⟩ := h x (hsub x hx)
  exact ⟨v, hA x hx v ha, hB x hx v hb⟩

theorem Linked.insert [DecidableEq Key] {x : Row} (h : Linked t A B) (hins : t.insert? x = some t')
    {v : β} (ha : A v x) (hb : B v x) : Linked t' A B := by
  intro y hy
  rcases (Table.mem_insert? hins).mp hy with rfl | hy
  · exact ⟨v, ha, hb⟩
  · exact h y hy

end Linked

end Relational
