import Mathlib.Logic.Relation
import Mathlib.Data.Finset.Card
import Mathlib.Data.List.Dedup
import Mathlib.Order.Monotone.Basic

/-!
# Closures by rounds

A recursive query adds, round by round, the successors of what it has found, until a round finds
nothing new. On finitely many elements as many rounds as there are elements find everything that is
reachable from the start, whether or not the relation has cycles.

## Main definitions

* `Finds R next`: a round finds the successors of what was found before
* `saturate next start n`: what is found after `n` rounds

## Main results

* `mem_saturate_iff`: as many rounds as there are elements find what is reachable
-/

namespace Relational

open Relation

variable {α : Type*} [DecidableEq α]

/-- What is found after `n` rounds. -/
def saturate (next : List α → List α) (start : List α) : Nat → List α
  | 0 => start.dedup
  | n + 1 => (saturate next start n ++ next (saturate next start n)).dedup

/-- A round finds the successors of what was found before. -/
def Finds (R : α → α → Prop) (next : List α → List α) : Prop :=
  ∀ l b, b ∈ next l ↔ ∃ a ∈ l, R a b

section Rounds

variable {R : α → α → Prop} {next : List α → List α} {start : List α} {a b : α} {n : Nat}

theorem mem_saturate_succ :
    b ∈ saturate next start (n + 1) ↔
      b ∈ saturate next start n ∨ b ∈ next (saturate next start n) := by
  rw [saturate, List.mem_dedup, List.mem_append]

/-- What is found is reachable. -/
theorem reachable_of_mem (hnext : Finds R next) (hb : b ∈ saturate next start n) :
    ∃ a ∈ start, ReflTransGen R a b := by
  induction n generalizing b with
  | zero => exact ⟨b, List.mem_dedup.mp hb, .refl⟩
  | succ n ih =>
    rcases mem_saturate_succ.mp hb with hold | hnew
    · exact ih hold
    · obtain ⟨c, hc, hcb⟩ := (hnext _ _).mp hnew
      obtain ⟨a, ha, hac⟩ := ih hc
      exact ⟨a, ha, hac.tail hcb⟩

/-- The number of elements found. -/
def found (next : List α → List α) (start : List α) (n : Nat) : Nat :=
  (saturate next start n).toFinset.card

theorem saturate_subset_succ (n : Nat) :
    (saturate next start n).toFinset ⊆ (saturate next start (n + 1)).toFinset := by
  intro b hb
  rw [List.mem_toFinset] at hb ⊢
  exact mem_saturate_succ.mpr (.inl hb)

theorem found_mono : Monotone (found next start) :=
  monotone_nat_of_le_succ fun n => Finset.card_le_card (saturate_subset_succ n)

/-- A round that adds nothing finds nothing new. -/
theorem closed_of_found_eq (h : found next start n = found next start (n + 1))
    (hb : b ∈ next (saturate next start n)) : b ∈ saturate next start n := by
  have hsame : (saturate next start n).toFinset = (saturate next start (n + 1)).toFinset :=
    Finset.eq_of_subset_of_card_le (saturate_subset_succ n) h.ge
  have hmem : b ∈ (saturate next start (n + 1)).toFinset :=
    List.mem_toFinset.mpr (mem_saturate_succ.mpr (.inr hb))
  rw [← hsame, List.mem_toFinset] at hmem
  exact hmem

/-- After a round that adds nothing no round adds anything. -/
theorem found_stable (hnext : Finds R next)
    (h : found next start n = found next start (n + 1)) :
    found next start (n + 1) = found next start (n + 2) := by
  have hclosed : ∀ b, b ∈ saturate next start (n + 1) ↔ b ∈ saturate next start n := by
    intro b
    rw [mem_saturate_succ]
    exact or_iff_left_of_imp (closed_of_found_eq h)
  refine congrArg Finset.card (Finset.ext fun b => ?_)
  rw [List.mem_toFinset, List.mem_toFinset, mem_saturate_succ (n := n + 1)]
  refine (or_iff_left_of_imp fun hb => ?_).symm
  -- Its predecessor was there a round before.
  obtain ⟨a, ha, hab⟩ := (hnext _ _).mp hb
  exact mem_saturate_succ.mpr (.inr ((hnext _ _).mpr ⟨a, (hclosed a).mp ha, hab⟩))

/-- **As many rounds as there are elements find what is reachable.** -/
theorem mem_saturate_iff (hnext : Finds R next) {elements : List α}
    (hstart : start ⊆ elements) (hsub : ∀ l, next l ⊆ elements) :
    b ∈ saturate next start elements.length ↔ ∃ a ∈ start, ReflTransGen R a b := by
  have hbound : ∀ m, found next start m ≤ elements.length := by
    intro m
    have hall : ∀ m, saturate next start m ⊆ elements := by
      intro m
      induction m with
      | zero => exact fun b hb => hstart (List.mem_dedup.mp hb)
      | succ m ih =>
        intro b hb
        rcases mem_saturate_succ.mp hb with hold | hnew
        · exact ih hold
        · exact hsub _ hnew
    refine (Finset.card_le_card fun b hb => ?_).trans elements.toFinset_card_le
    rw [List.mem_toFinset] at hb ⊢
    exact hall m hb
  have hlast := Nat.stabilises_of_monotone found_mono hbound
    (fun m => found_stable (n := m) hnext) (Nat.le_succ elements.length)
  constructor
  · exact reachable_of_mem hnext
  · rintro ⟨a, ha, hab⟩
    induction hab with
    | refl =>
      have hzero : ∀ m, a ∈ saturate next start m := by
        intro m
        induction m with
        | zero => exact List.mem_dedup.mpr ha
        | succ m ih => exact mem_saturate_succ.mpr (.inl ih)
      exact hzero _
    | tail _ hbc ih => exact closed_of_found_eq hlast.symm ((hnext _ _).mpr ⟨_, ih, hbc⟩)

end Rounds

end Relational
