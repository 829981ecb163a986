import Mathlib.Logic.Function.Basic

/-!
# Leases

A store whose values run out: under a key there is, at each instant, a value or nothing. A value is
granted until a deadline, which may be moved, and can be removed before. After any number of such
operations there is under a key what was granted last and not removed since, until its deadline.

## Main definitions

* `Leases κ α τ`: what there is under each key at each instant
* `LeaseOp`, `LeaseOp.apply`, `Leases.after`: the operations, one and all of a record
* `LeaseOp.Grants`, `LeaseOp.Removes`, `LeaseOp.Spares`: what an operation does to a value

## Main results

* `Leases.granted_of_after`: what there is has been granted, and not removed since
* `Leases.after_of_granted`: what has been granted stays until its deadline, if it is spared
-/

namespace Relational

variable {κ α τ : Type}

/-- What there is under each key at each instant, if nothing more is done. -/
abbrev Leases (κ α τ : Type) : Type := κ → τ → Option α

/-- What is done to a store: a value is granted until a deadline, what there is under a key at an
instant gets another deadline or is removed, and values are removed. -/
inductive LeaseOp (κ α τ : Type)
  | grant (k : κ) (a : α) (deadline : τ)
  | move (k : κ) (now : τ) (deadline : Option τ)
  | drop (p : κ → α → Bool)

namespace LeaseOp

/-- The operation puts the value under the key. -/
def Grants (k : κ) (a : α) : LeaseOp κ α τ → Prop
  | grant k' a' _ => k' = k ∧ a' = a
  | _ => False

/-- The operation removes the value from under the key. -/
def Removes (k : κ) (a : α) : LeaseOp κ α τ → Prop
  | drop p => p k a = true
  | _ => False

/-- The operation leaves the value under the key as it is. -/
def Spares (k : κ) (a : α) : LeaseOp κ α τ → Prop
  | grant k' _ _ => k' ≠ k
  | move k' _ _ => k' ≠ k
  | drop p => p k a = false

variable [DecidableEq κ] [LT τ] [DecidableLT τ]

/-- What the operation makes of a store. -/
def apply (op : LeaseOp κ α τ) (m : Leases κ α τ) : Leases κ α τ :=
  match op with
  | grant k a deadline => Function.update m k fun t => if t < deadline then some a else none
  | move k now deadline =>
    Function.update m k fun t =>
      if (m k now).isSome then (m k now).filter fun _ => deadline.any (t < ·) else m k t
  | drop p => fun k t => (m k t).filter fun a => !p k a

variable {m : Leases κ α τ} {k k' : κ} {a a' : α} {t now deadline : τ}

theorem apply_grant :
    (grant k' a' deadline).apply m k t =
      if k = k' then (if t < deadline then some a' else none) else m k t := by
  show Function.update m k' _ k t = _
  rw [Function.update_apply]
  split <;> rfl

theorem apply_move {deadline : Option τ} :
    (move k' now deadline).apply m k t =
      if k = k' ∧ (m k now).isSome then (m k now).filter fun _ => deadline.any (t < ·)
      else m k t := by
  show Function.update m k' _ k t = _
  rw [Function.update_apply]
  by_cases hk : k = k'
  · subst hk
    simp
  · simp [hk]

theorem apply_drop {p : κ → α → Bool} :
    (drop p : LeaseOp κ α τ).apply m k t = (m k t).filter fun a => !p k a := rfl

/-- A value under a key that an operation has not granted was there, and is not removed. -/
theorem of_apply {op : LeaseOp κ α τ} (h : op.apply m k t = some a) (hgrant : ¬ op.Grants k a) :
    (∃ t', m k t' = some a) ∧ ¬ op.Removes k a := by
  cases op with
  | grant k' a' deadline =>
    rw [apply_grant] at h
    refine ⟨?_, not_false⟩
    split at h
    · rename_i hk
      split at h
      · exact absurd ⟨hk.symm, Option.some.inj h⟩ hgrant
      · cases h
    · exact ⟨t, h⟩
  | move k' now deadline =>
    rw [apply_move] at h
    refine ⟨?_, not_false⟩
    split at h
    · exact ⟨now, (Option.filter_eq_some_iff.mp h).1⟩
    · exact ⟨t, h⟩
  | drop p =>
    rw [apply_drop, Option.filter_eq_some_iff] at h
    obtain ⟨hold, hp⟩ := h
    refine ⟨⟨t, hold⟩, ?_⟩
    simpa [Removes] using hp

/-- A value that is spared stays until its deadline. -/
theorem apply_of_spares {op : LeaseOp κ α τ} (hop : op.Spares k a)
    (h : ∀ t, m k t = if t < deadline then some a else none) :
    op.apply m k t = if t < deadline then some a else none := by
  cases op with
  | grant k' a' d =>
    rw [apply_grant, if_neg (Ne.symm hop)]
    exact h t
  | move k' now d =>
    rw [apply_move, if_neg fun hk => hop hk.1.symm]
    exact h t
  | drop p =>
    rw [apply_drop, h t]
    split
    · simp [Option.filter, show p k a = false from hop]
    · rfl

end LeaseOp

namespace Leases

variable [DecidableEq κ] [LT τ] [DecidableLT τ]

/-- **A store after the operations of a record**, newest first. -/
def after (m : Leases κ α τ) (ops : List (LeaseOp κ α τ)) : Leases κ α τ :=
  ops.foldr LeaseOp.apply m

variable {m : Leases κ α τ} {ops newer older : List (LeaseOp κ α τ)} {op : LeaseOp κ α τ} {k : κ}
  {a : α} {t deadline : τ}

@[simp] theorem after_nil : m.after [] = m := rfl

@[simp] theorem after_cons : m.after (op :: ops) = op.apply (m.after ops) := rfl

theorem after_append : m.after (newer ++ older) = (m.after older).after newer := by
  unfold after
  rw [List.foldr_append]

/-- **What there is has been granted**, or was there at the start, and has not been removed since. -/
theorem granted_of_after (h : m.after ops k t = some a) :
    ((∃ t', m k t' = some a) ∧ ∀ op ∈ ops, ¬ op.Removes k a) ∨
      ∃ newer op older, ops = newer ++ op :: older ∧ op.Grants k a ∧
        ∀ op' ∈ newer, ¬ op'.Removes k a := by
  induction ops generalizing t with
  | nil => exact .inl ⟨⟨t, h⟩, by simp⟩
  | cons op ops ih =>
    by_cases hgrant : op.Grants k a
    · exact .inr ⟨[], op, ops, rfl, hgrant, by simp⟩
    · obtain ⟨⟨t', hbefore⟩, hkeeps⟩ := LeaseOp.of_apply h hgrant
      rcases ih hbefore with ⟨hstart, hold⟩ | ⟨newer, op', older, rfl, hop', hnewer⟩
      · exact .inl ⟨hstart, List.forall_mem_cons.mpr ⟨hkeeps, hold⟩⟩
      · exact .inr ⟨op :: newer, op', older, rfl, hop', List.forall_mem_cons.mpr ⟨hkeeps, hnewer⟩⟩

/-- **What has been granted stays until its deadline**, if every later operation spares it. -/
theorem after_of_granted (hnewer : ∀ op ∈ newer, op.Spares k a) :
    m.after (newer ++ .grant k a deadline :: older) k t = if t < deadline then some a else none := by
  induction newer generalizing t with
  | nil =>
    rw [List.nil_append, after_cons, LeaseOp.apply_grant, if_pos rfl]
  | cons op newer ih =>
    obtain ⟨hop, hnewer⟩ := List.forall_mem_cons.mp hnewer
    exact LeaseOp.apply_of_spares hop fun t => ih hnewer

end Leases

end Relational
