import Authrs.Relational.Table
import Authrs.Interaction.Serial
import Mathlib.Data.Fintype.Basic
import Mathlib.Logic.Function.Basic

/-!
# Updates of one row under READ COMMITTED

A statement `UPDATE … WHERE key = (SELECT …)` is not one step. Its sub-select reads the snapshot that
the statement starts with; then the statement locks the row that was selected, and waits while another
one holds it. A row that was changed in the meantime is tested again, but only against the statement's
own condition, which is that it has the selected key. So a statement can update a row that its
sub-select would not select any more.

## Main definitions

* `KeyUpdate`: a statement, by its sub-select and its `SET`
* `Stage`, `Updating`: where a statement stands, and the table with the statements on it
* `Updating.advance`: the next step of a statement
* `Claims`: the sub-selects select free rows, and no row stays free
* `SelectsApart`, `OncePerRow`: the condition on a step, and what it is for

## Main results

* `Updating.alone_of_none`, `Updating.alone_of_some`: a statement that nothing interrupts
* `oncePerRow_of_selectsApart`: statements that select apart update each row at most once
* `selectsApart_of_oncePerRow`: no other statements do, once all that have started are done
-/

namespace Relational

open Interaction

variable {Row Key ι : Type} {key : Row → Key}

/-- A statement `UPDATE … SET … WHERE key = (SELECT …)`. -/
structure KeyUpdate (key : Row → Key) where
  select : Table key → Option Key
  set : Row → Row
  key_set : ∀ r, key (set r) = key r

namespace KeyUpdate

variable [DecidableEq Key] {u : KeyUpdate key} {t : Table key} {r : Row} {k k' : Key}

/-- `SET` the row with a key. -/
def apply (u : KeyUpdate key) (t : Table key) (k : Key) : Table key :=
  t.update (fun r => key r = k) u.set u.key_set

theorem mem_apply : r ∈ u.apply t k ↔ ∃ x ∈ t, (if key x = k then u.set x else x) = r := by
  simp only [apply, Table.mem_update, decide_eq_true_eq]

/-- No key comes, and none goes. -/
theorem mem_key_apply : (∃ r ∈ u.apply t k', key r = k) ↔ ∃ r ∈ t, key r = k := by
  have hkey : ∀ x, key (if key x = k' then u.set x else x) = key x := by
    intro x
    split
    · exact u.key_set x
    · rfl
  constructor
  · rintro ⟨r, hr, rfl⟩
    obtain ⟨x, hx, rfl⟩ := mem_apply.mp hr
    exact ⟨x, hx, (hkey x).symm⟩
  · rintro ⟨r, hr, rfl⟩
    exact ⟨_, mem_apply.mpr ⟨r, hr, rfl⟩, hkey r⟩

end KeyUpdate

/-- Where a statement stands. -/
inductive Stage (Key : Type)
  | waiting
  | selected (k : Option Key)
  | locked (k : Key)
  | done (k : Option Key)
  deriving DecidableEq

/-- The statement is about to update the row. -/
def Stage.Pending (k : Key) (x : Stage Key) : Prop := x = .selected (some k) ∨ x = .locked k

instance [DecidableEq Key] (k : Key) (x : Stage Key) : Decidable (x.Pending k) :=
  inferInstanceAs (Decidable (_ ∨ _))

/-- The statement is about to update the row, or has updated it. -/
def Stage.Bound (k : Key) (x : Stage Key) : Prop := x.Pending k ∨ x = .done (some k)

/-- The committed rows, the keys of the locked ones, and the statements. -/
structure Updating (ι : Type) (key : Row → Key) where
  table : Table key
  locks : List Key
  stage : ι → Stage Key

namespace Updating

/-- No statement has started. -/
def start (t : Table key) : Updating ι key := ⟨t, [], fun _ => .waiting⟩

variable [DecidableEq ι]

/-- The statement `i` is at another stage. -/
def put (c : Updating ι key) (i : ι) (x : Stage Key) : Updating ι key :=
  { c with stage := Function.update c.stage i x }

@[simp] theorem put_table (c : Updating ι key) (i : ι) (x : Stage Key) :
    (c.put i x).table = c.table := rfl

@[simp] theorem put_stage_self (c : Updating ι key) (i : ι) (x : Stage Key) :
    (c.put i x).stage i = x := Function.update_self ..

theorem put_stage_ne (c : Updating ι key) {i j : ι} (x : Stage Key) (h : j ≠ i) :
    (c.put i x).stage j = c.stage j := Function.update_of_ne h ..

variable [DecidableEq Key]

/-- **The next step of a statement.** -/
def advance (u : ι → KeyUpdate key) (c : Updating ι key) (i : ι) : Updating ι key :=
  match c.stage i with
  -- The sub-select reads the snapshot: the rows that are committed when the statement starts.
  | .waiting => c.put i (.selected ((u i).select c.table))
  | .selected none => c.put i (.done none)
  | .selected (some k) =>
    -- It waits for the lock, and then tests its own condition on the row as it is by now.
    if k ∈ c.locks then c
    else if c.table.rows.any fun r => key r = k then
      ⟨c.table, k :: c.locks, (c.put i (.locked k)).stage⟩
    else c.put i (.done none)
  | .locked k =>
    ⟨(u i).apply c.table k, c.locks.erase k, (c.put i (.done (some k))).stage⟩
  | .done _ => c

section Steps

variable {u : ι → KeyUpdate key} {c : Updating ι key} {i : ι} {k : Key}

theorem advance_waiting (h : c.stage i = .waiting) :
    c.advance u i = c.put i (.selected ((u i).select c.table)) := by
  unfold advance
  rw [h]

theorem advance_none (h : c.stage i = .selected none) : c.advance u i = c.put i (.done none) := by
  unfold advance
  rw [h]

theorem advance_selected (h : c.stage i = .selected (some k)) (hlocks : k ∉ c.locks)
    (hrow : ∃ r ∈ c.table, key r = k) :
    c.advance u i = ⟨c.table, k :: c.locks, (c.put i (.locked k)).stage⟩ := by
  obtain ⟨r, hr, hk⟩ := hrow
  unfold advance
  rw [h]
  dsimp only
  rw [if_neg hlocks, if_pos (List.any_eq_true.mpr ⟨r, hr, decide_eq_true hk⟩)]

theorem advance_locked (h : c.stage i = .locked k) :
    c.advance u i =
      ⟨(u i).apply c.table k, c.locks.erase k, (c.put i (.done (some k))).stage⟩ := by
  unfold advance
  rw [h]

theorem advance_done {o : Option Key} (h : c.stage i = .done o) : c.advance u i = c := by
  unfold advance
  rw [h]

/-- A statement that nothing interrupts, and whose sub-select finds nothing. -/
theorem alone_of_none (h : c.stage i = .waiting) (hselect : (u i).select c.table = none) :
    (finalState (advance u) c [i, i, i]).table = c.table ∧
      (finalState (advance u) c [i, i, i]).stage i = .done none := by
  have hone : c.advance u i = c.put i (.selected none) := by rw [advance_waiting h, hselect]
  have htwo : (c.put i (.selected none)).advance u i = (c.put i (.selected none)).put i (.done none) :=
    advance_none (put_stage_self ..)
  have hrun : finalState (advance u) c [i, i, i] = (c.put i (.selected none)).put i (.done none) := by
    change ((c.advance u i).advance u i).advance u i = _
    rw [hone, htwo]
    exact advance_done (put_stage_self ..)
  rw [hrun]
  exact ⟨rfl, put_stage_self ..⟩

/-- A statement that nothing interrupts, and whose sub-select finds a row. -/
theorem alone_of_some (h : c.stage i = .waiting) (hselect : (u i).select c.table = some k)
    (hlocks : k ∉ c.locks) (hrow : ∃ r ∈ c.table, key r = k) :
    (finalState (advance u) c [i, i, i]).table = (u i).apply c.table k ∧
      (finalState (advance u) c [i, i, i]).stage i = .done (some k) := by
  have hone : c.advance u i = c.put i (.selected (some k)) := by rw [advance_waiting h, hselect]
  have htwo := advance_selected (u := u) (c := c.put i (.selected (some k))) (put_stage_self ..)
    hlocks hrow
  have hlocked : ((c.advance u i).advance u i).stage i = .locked k := by
    rw [hone, htwo]
    exact put_stage_self ..
  have hrun : finalState (advance u) c [i, i, i] = ((c.advance u i).advance u i).advance u i := rfl
  rw [hrun, advance_locked hlocked, hone, htwo]
  exact ⟨rfl, put_stage_self ..⟩

end Steps

/-- What a step does to the stage of the statement that makes it, and to the table. -/
inductive Turn (u : ι → KeyUpdate key) (c : Updating ι key) (i : ι) : Updating ι key → Prop
  | waits : Turn u c i c
  | starts (h : c.stage i = .waiting) : Turn u c i (c.put i (.selected ((u i).select c.table)))
  | locks (k : Key) (h : c.stage i = .selected (some k)) :
    Turn u c i ⟨c.table, k :: c.locks, (c.put i (.locked k)).stage⟩
  | misses {o : Option Key} (h : c.stage i = .selected o)
    (hnone : ∀ k, o = some k → ∀ r ∈ c.table, key r ≠ k) : Turn u c i (c.put i (.done none))
  | updates (k : Key) (h : c.stage i = .locked k) :
    Turn u c i ⟨(u i).apply c.table k, c.locks.erase k, (c.put i (.done (some k))).stage⟩

variable {u : ι → KeyUpdate key} {c c' : Updating ι key} {i j : ι} {k : Key}

/-- **A step is a turn.** -/
theorem turn_advance (u : ι → KeyUpdate key) (c : Updating ι key) (i : ι) :
    Turn u c i (c.advance u i) := by
  unfold advance
  split
  · rename_i h
    exact .starts h
  · rename_i h
    exact .misses h fun k hk => nomatch hk
  · rename_i k h
    split
    · exact .waits
    · split
      · exact .locks k h
      · rename_i hany
        refine .misses h ?_
        rintro _ ⟨⟩ r hr hk
        exact hany (List.any_eq_true.mpr ⟨r, hr, decide_eq_true hk⟩)
  · rename_i k h
    exact .updates k h
  · exact .waits

/-- The stages of the other statements stay. -/
theorem Turn.stage_ne (h : Turn u c i c') (hj : j ≠ i) : c'.stage j = c.stage j := by
  cases h with
  | waits => rfl
  | _ => exact put_stage_ne c _ hj

/-- No key comes, and none goes. -/
theorem Turn.mem_key (h : Turn u c i c') (k : Key) :
    (∃ r ∈ c'.table, key r = k) ↔ ∃ r ∈ c.table, key r = k := by
  cases h with
  | updates => exact KeyUpdate.mem_key_apply
  | _ => exact Iff.rfl

/-- Who is about to update a row goes on to it. -/
theorem Turn.bound (h : Turn u c i c') (hrow : ∃ r ∈ c.table, key r = k)
    (hb : (c.stage j).Bound k) : (c'.stage j).Bound k := by
  by_cases hj : j = i
  · subst hj
    cases h with
    | waits => exact hb
    | starts h =>
      rw [h] at hb
      rcases hb with (hb | hb) | hb <;> cases hb
    | locks k' h =>
      rw [h] at hb
      rcases hb with (hb | hb) | hb <;> cases hb
      exact .inl (.inr (put_stage_self ..))
    | misses h hnone =>
      rw [h] at hb
      obtain ⟨r, hr, hk⟩ := hrow
      rcases hb with (hb | hb) | hb <;> cases hb
      exact absurd hk (hnone k rfl r hr)
    | updates k' h =>
      rw [h] at hb
      rcases hb with (hb | hb) | hb <;> cases hb
      exact .inr (put_stage_self ..)
  · rwa [h.stage_ne hj]

/-- Who is bound to a row was bound to it, or has selected it now. -/
theorem Turn.bound_inv (h : Turn u c i c') (hb : (c'.stage j).Bound k) :
    (c.stage j).Bound k ∨
      (j = i ∧ c.stage i = .waiting ∧ (u i).select c.table = some k) := by
  by_cases hj : j = i
  · subst hj
    cases h with
    | waits => exact .inl hb
    | starts h =>
      rw [put_stage_self] at hb
      rcases hb with (hb | hb) | hb
      · exact .inr ⟨rfl, h, Stage.selected.inj hb⟩
      · cases hb
      · cases hb
    | locks k' h =>
      rcases hb with (hb | hb) | hb <;> cases (put_stage_self ..).symm.trans hb
      exact .inl (.inl (.inl h))
    | misses h =>
      rcases hb with (hb | hb) | hb <;> cases (put_stage_self ..).symm.trans hb
    | updates k' h =>
      rcases hb with (hb | hb) | hb <;> cases (put_stage_self ..).symm.trans hb
      exact .inl (.inl (.inr h))
  · rw [h.stage_ne hj] at hb
    exact .inl hb

end Updating

/-! ### Rows that are taken once -/

section Claims

variable [DecidableEq Key] [DecidableEq ι]

/-- The sub-selects select rows that are free, and a row that a statement has set is not. -/
structure Claims (u : ι → KeyUpdate key) (free : Row → Prop) : Prop where
  select : ∀ i t k, (u i).select t = some k → ∃ r ∈ t, key r = k ∧ free r
  set : ∀ i r, ¬free ((u i).set r)

/-- **A step that selects apart**: a statement selects a row only while no other one is about to
update it. -/
def SelectsApart (u : ι → KeyUpdate key) (c : Updating ι key) (i : ι) : Prop :=
  c.stage i = .waiting → ∀ k ∈ (u i).select c.table, ∀ j, ¬(c.stage j).Pending k

instance [Fintype ι] (u : ι → KeyUpdate key) (c : Updating ι key) (i : ι) :
    Decidable (SelectsApart u c i) :=
  inferInstanceAs (Decidable (_ → ∀ k ∈ (u i).select c.table, _))

/-- **Each row is updated at most once.** -/
def OncePerRow (c : Updating ι key) : Prop :=
  ∀ i j k, c.stage i = .done (some k) → c.stage j = .done (some k) → i = j

/-- Every statement that has started is done. -/
def AllDone (c : Updating ι key) : Prop := ∀ i, c.stage i = .waiting ∨ ∃ o, c.stage i = .done o

variable {u : ι → KeyUpdate key} {free : Row → Prop} {c : Updating ι key} {i : ι}

/-- What steps that select apart keep: a row has at most one statement bound to it, and it is not
free when that one is done. -/
structure Exclusive (free : Row → Prop) (c : Updating ι key) : Prop where
  unique : ∀ i j k, (c.stage i).Bound k → (c.stage j).Bound k → i = j
  taken : ∀ i k, c.stage i = .done (some k) → ∀ r ∈ c.table, key r = k → ¬free r

omit [DecidableEq Key] [DecidableEq ι] in
theorem exclusive_start (free : Row → Prop) (t : Table key) : Exclusive free (Updating.start t : Updating ι key) := by
  constructor
  · rintro i j k ((h | h) | h) <;> cases h
  · rintro i k ⟨⟩

/-- **A step that selects apart** keeps the bindings unique. -/
theorem Exclusive.advance (hu : Claims u free) (h : Exclusive free c) (happ : SelectsApart u c i) :
    Exclusive free (c.advance u i) := by
  have hturn := c.turn_advance u i
  -- Nobody is bound to a row that is selected: it is free, and no one is about to update it.
  have hnobody : ∀ k, c.stage i = .waiting → (u i).select c.table = some k → ∀ j,
      ¬(c.stage j).Bound k := by
    rintro k hwaiting hselect j (hpending | hdone)
    · exact happ hwaiting k hselect j hpending
    · obtain ⟨r, hr, hk, hfree⟩ := hu.select i c.table k hselect
      exact h.taken j k hdone r hr hk hfree
  constructor
  · intro a b k ha hb
    rcases hturn.bound_inv ha with ha | ⟨hai, hwaiting, hselect⟩
    · rcases hturn.bound_inv hb with hb | ⟨-, hwaiting, hselect⟩
      · exact h.unique a b k ha hb
      · exact absurd ha (hnobody k hwaiting hselect a)
    · rcases hturn.bound_inv hb with hb | ⟨hbi, -⟩
      · exact absurd hb (hnobody k hwaiting hselect b)
      · exact hai.trans hbi.symm
  · intro a k hdone r hr hk
    generalize c.advance u i = c' at hturn hdone hr
    cases hturn with
    | updates k' =>
      obtain ⟨x, hx, rfl⟩ := KeyUpdate.mem_apply.mp hr
      by_cases hset : key x = k'
      · rw [if_pos hset]
        exact hu.set i x
      · rw [if_neg hset] at hk ⊢
        by_cases ha : a = i
        · subst ha
          cases (Updating.put_stage_self ..).symm.trans hdone
          exact absurd hk hset
        · exact h.taken a k ((Updating.put_stage_ne c _ ha).symm.trans hdone) x hx hk
    | waits => exact h.taken a k hdone r hr hk
    | _ =>
      by_cases ha : a = i
      · subst ha
        cases (Updating.put_stage_self ..).symm.trans hdone
      · exact h.taken a k ((Updating.put_stage_ne c _ ha).symm.trans hdone) r hr hk

/-- **Statements that select apart update each row at most once.** -/
theorem oncePerRow_of_selectsApart (hu : Claims u free) (t : Table key) {l : List ι}
    (h : EachCall (Updating.advance u) (SelectsApart u) (.start t) l) :
    OncePerRow (finalState (Updating.advance u) (.start t) l) := by
  have hexcl := h.invariant (fun c i hs hP => hs.advance hu hP) (exclusive_start free t)
  exact fun i j k hi hj => hexcl.unique i j k (.inr hi) (.inr hj)

/-- Two statements are bound to one row. -/
def Doubled (c : Updating ι key) : Prop :=
  ∃ i j k, i ≠ j ∧ (∃ r ∈ c.table, key r = k) ∧ (c.stage i).Bound k ∧ (c.stage j).Bound k

theorem Doubled.advance (h : Doubled c) (u : ι → KeyUpdate key) (i : ι) :
    Doubled (c.advance u i) := by
  obtain ⟨a, b, k, hne, hrow, ha, hb⟩ := h
  have hturn := c.turn_advance u i
  exact ⟨a, b, k, hne, (hturn.mem_key k).mpr hrow, hturn.bound hrow ha, hturn.bound hrow hb⟩

theorem Doubled.finalState (h : Doubled c) (u : ι → KeyUpdate key) (l : List ι) :
    Doubled (finalState (Updating.advance u) c l) := by
  induction l generalizing c with
  | nil => exact h
  | cons i l ih => exact ih (h.advance u i)

/-- A step that does not select apart binds two statements to one row. -/
theorem doubled_of_not_selectsApart (hu : Claims u free) (h : ¬SelectsApart u c i) :
    Doubled (c.advance u i) := by
  simp only [SelectsApart, not_forall, not_not] at h
  obtain ⟨hwaiting, k, hselect, j, hpending⟩ := h
  have hne : i ≠ j := by
    rintro rfl
    rw [hwaiting] at hpending
    rcases hpending with h | h <;> cases h
  obtain ⟨r, hr, hk, -⟩ := hu.select i c.table k hselect
  rw [Updating.advance_waiting hwaiting, Option.mem_def.mp hselect]
  refine ⟨i, j, k, hne, ⟨r, hr, hk⟩, .inl (.inl (Updating.put_stage_self ..)), .inl ?_⟩
  rwa [Updating.put_stage_ne c _ hne.symm]

omit [DecidableEq Key] [DecidableEq ι] in
/-- A row with two statements bound to it has been updated twice when they are done. -/
theorem Doubled.not_oncePerRow (h : Doubled c) (hdone : AllDone c) : ¬OncePerRow c := by
  obtain ⟨i, j, k, hne, -, hi, hj⟩ := h
  have hupdated : ∀ i, (c.stage i).Bound k → c.stage i = .done (some k) := by
    intro i hi
    rcases hdone i with hwaiting | ⟨o, ho⟩
    · rw [hwaiting] at hi
      rcases hi with (hi | hi) | hi <;> cases hi
    · rw [ho] at hi
      rcases hi with (hi | hi) | hi <;> cases hi
      exact ho
  exact fun honce => hne (honce i j k (hupdated i hi) (hupdated j hj))

/-- **Statements that update each row at most once select apart**, when all that have started are
done. -/
theorem selectsApart_of_oncePerRow (hu : Claims u free) {l : List ι}
    (hdone : AllDone (finalState (Updating.advance u) c l))
    (h : OncePerRow (finalState (Updating.advance u) c l)) :
    EachCall (Updating.advance u) (SelectsApart u) c l := by
  induction l generalizing c with
  | nil => trivial
  | cons i l ih =>
    refine ⟨?_, ih hdone h⟩
    by_contra hnot
    exact ((doubled_of_not_selectsApart hu hnot).finalState u l).not_oncePerRow hdone h

end Claims

end Relational
