import Mathlib.Logic.Relation
import Mathlib.Data.List.Perm.Subperm

/-!
# Hierarchies

A hierarchy is a relation from nodes to their parents; it is acyclic when no node is above itself.
One new edge keeps it acyclic unless it closes a cycle, and what is above a node changes by one
new edge only when the edge starts above the node. In an acyclic hierarchy over finitely many
nodes the way up ends after as many steps as there are nodes.

## Main definitions

* `Acyclic R`: no node is above itself
* `AddsEdge R R' a b`: every edge of `R'` is one of `R`, or the edge from `a` to `b`
* `ascend next n a`: `n` steps up from `a`

## Main results

* `AddsEdge.above`: what one new edge puts above a node
* `AddsEdge.acyclic`: an edge to a node that is not below its start closes no cycle
* `ascend_ends`: the way up ends
-/

namespace Relational

open Relation

variable {α : Type*} {R R' : α → α → Prop} {a b : α}

/-- No node is above itself. -/
def Acyclic (R : α → α → Prop) : Prop := ∀ x, ¬ TransGen R x x

theorem Acyclic.mono (h : Acyclic R) (hsub : ∀ x y, R' x y → R x y) : Acyclic R' :=
  fun x hx => h x (TransGen.mono hsub x x hx)

/-- Every edge of `R'` is one of `R`, or the edge from `a` to `b`. -/
def AddsEdge (R R' : α → α → Prop) (a b : α) : Prop := ∀ x y, R' x y → R x y ∨ x = a ∧ y = b

/-- **What one new edge puts above a node**: only what is above the end of the edge, for a node
below its start. -/
theorem AddsEdge.above (h : AddsEdge R R' a b) {x y : α} (hxy : ReflTransGen R' x y) :
    ReflTransGen R x y ∨ ReflTransGen R x a ∧ ReflTransGen R b y := by
  induction hxy with
  | refl => exact .inl .refl
  | @tail y z hxy hyz ih =>
    rcases h y z hyz with hold | ⟨rfl, rfl⟩
    · rcases ih with hx | ⟨hxa, hby⟩
      · exact .inl (hx.tail hold)
      · exact .inr ⟨hxa, hby.tail hold⟩
    · rcases ih with hx | ⟨hxa, -⟩
      · exact .inr ⟨hx, .refl⟩
      · exact .inr ⟨hxa, .refl⟩

/-- **An edge closes no cycle** when its end is not below its start. -/
theorem AddsEdge.acyclic (h : AddsEdge R R' a b) (hR : Acyclic R) (hba : ¬ ReflTransGen R b a) :
    Acyclic R' := by
  intro x hx
  obtain ⟨y, hxy, hyx⟩ := TransGen.head'_iff.mp hx
  -- the first edge of the cycle is old or new, and so is the way back
  rcases h x y hxy with hold | ⟨rfl, rfl⟩
  · rcases h.above hyx with hback | ⟨hya, hbx⟩
    · exact hR x (TransGen.head' hold hback)
    · exact hba (hbx.trans (ReflTransGen.head hold hya))
  · rcases h.above hyx with hback | ⟨-, hback⟩
    · exact hba hback
    · exact hba hback

/-! ### The way up -/

variable {next : α → Option α}

/-- `n` steps up from `a`. -/
def ascend (next : α → Option α) : Nat → α → Option α
  | 0, a => some a
  | n + 1, a => (next a).bind (ascend next n)

/-- The nodes of a way up are above its start, distinct and among the nodes. -/
theorem exists_nodup_of_ascend (hacyclic : Acyclic fun x y => next x = some y) {nodes : List α}
    (hnodes : ∀ x y, next x = some y → y ∈ nodes) {n : Nat} {a b : α}
    (h : ascend next n a = some b) :
    ∃ l : List α, l.length = n ∧ l.Nodup ∧ (∀ x ∈ l, x ∈ nodes) ∧
      ∀ x ∈ l, TransGen (fun x y => next x = some y) a x := by
  induction n generalizing a with
  | zero => exact ⟨[], rfl, List.nodup_nil, by simp, by simp⟩
  | succ n ih =>
    obtain ⟨c, hac, hc⟩ := Option.bind_eq_some_iff.mp h
    obtain ⟨l, hlen, hnodup, hmem, habove⟩ := ih hc
    refine ⟨c :: l, congrArg Nat.succ hlen, ?_, ?_, ?_⟩
    · rw [List.nodup_cons]
      exact ⟨fun hcl => hacyclic c (habove c hcl), hnodup⟩
    · rw [List.forall_mem_cons]
      exact ⟨hnodes a c hac, hmem⟩
    · rw [List.forall_mem_cons]
      exact ⟨.single hac, fun x hx => .head hac (habove x hx)⟩

/-- **The way up ends** after as many steps as there are nodes. -/
theorem ascend_ends (hacyclic : Acyclic fun x y => next x = some y) {nodes : List α}
    (hnodes : ∀ x y, next x = some y → y ∈ nodes) {n : Nat} (hn : nodes.length < n) (a : α) :
    ascend next n a = none := by
  cases h : ascend next n a with
  | none => rfl
  | some b =>
    obtain ⟨l, hlen, hnodup, hmem, -⟩ := exists_nodup_of_ascend hacyclic hnodes h
    have hle : l.length ≤ nodes.length := (hnodup.subperm hmem).length_le
    omega

end Relational
