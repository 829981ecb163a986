import Mathlib.Data.List.Sort
import Mathlib.Data.String.Basic

/-!
# Sorting by a key and dropping repetitions

`sort_by` is stable, and `dedup_by` drops an element whose key is that of the one before it. Together
they leave, for each key of a list, the first element that has it.

## Main definitions

* `dedupBy key`: drop the elements whose key is repeated
* `sortBy key`: a stable sort
* `distinctBy key`: both

## Main results

* `mem_distinctBy`: an element is left when it is the first of its key
* `pairwise_distinctBy`: the keys are left in increasing order, each once
-/

namespace Relational

variable {α κ : Type}

section Dedup

variable [DecidableEq κ] {key : α → κ}

/-- `dedup_by`, after the element that was kept last. -/
def dedupFrom (key : α → κ) (a : α) : List α → List α
  | [] => [a]
  | b :: l => if key b = key a then dedupFrom key a l else a :: dedupFrom key b l

/-- `dedup_by`: drop the elements whose key is that of the one before. -/
def dedupBy (key : α → κ) : List α → List α
  | [] => []
  | a :: l => dedupFrom key a l

end Dedup

variable [LinearOrder κ] {key : α → κ} {a x : α} {l : List α}

/-- `sort_by`. -/
def sortBy (key : α → κ) (l : List α) : List α := l.insertionSort fun a b => key a ≤ key b

/-- Sort by a key, and drop the elements that repeat one. -/
def distinctBy (key : α → κ) (l : List α) : List α := dedupBy key (sortBy key l)

/-- After a sorted list, the element that is kept is the first of its key. -/
theorem mem_dedupFrom (h : (a :: l).Pairwise fun x y => key x ≤ key y) :
    x ∈ dedupFrom key a l ↔ (a :: l).find? (fun y => key y = key x) = some x := by
  induction l generalizing a with
  | nil =>
    rw [dedupFrom, List.mem_singleton, List.find?_cons, List.find?_nil]
    split
    · simp [eq_comm]
    · rename_i hne
      simp only [reduceCtorEq, iff_false]
      rintro rfl
      simp at hne
  | cons b l ih =>
    obtain ⟨ha, hbl⟩ := List.pairwise_cons.mp h
    rw [dedupFrom]
    split
    · rename_i hkey
      have hal : (a :: l).Pairwise fun x y => key x ≤ key y :=
        h.sublist ((List.sublist_cons_self b l).cons_cons a)
      rw [ih hal, List.find?_cons, List.find?_cons, List.find?_cons, hkey]
      by_cases hx : key a = key x <;> simp [hx]
    · rename_i hkey
      rw [List.mem_cons, ih hbl]
      by_cases hx : key a = key x
      · -- No later element has the key of `a`.
        have hnone : (b :: l).find? (fun y => key y = key x) ≠ some x := by
          intro hfound
          have hb : key b ≤ key x := by
            rcases List.mem_cons.mp (List.mem_of_find?_eq_some hfound) with rfl | hmem
            · exact le_refl _
            · exact List.rel_of_pairwise_cons hbl hmem
          exact hkey (le_antisymm (hb.trans hx.symm.le) (ha b List.mem_cons_self))
        have hfirst : (a :: b :: l).find? (fun y => key y = key x) = some a :=
          List.find?_cons_of_pos (decide_eq_true hx)
        rw [hfirst, or_iff_left hnone, Option.some_inj, eq_comm]
      · have hne : x ≠ a := by
          rintro rfl
          exact hx rfl
        have hlater : (a :: b :: l).find? (fun y => key y = key x) =
            (b :: l).find? fun y => key y = key x :=
          List.find?_cons_of_neg (by simpa using hx)
        rw [hlater, or_iff_right hne]

theorem mem_dedupBy (h : l.Pairwise fun x y => key x ≤ key y) :
    x ∈ dedupBy key l ↔ l.find? (fun y => key y = key x) = some x := by
  cases l with
  | nil => simp [dedupBy]
  | cons a l => exact mem_dedupFrom h

/-- What is kept of a sorted list is in strict order. -/
theorem pairwise_dedupFrom (h : (a :: l).Pairwise fun x y => key x ≤ key y) :
    (dedupFrom key a l).Pairwise fun x y => key x < key y := by
  induction l generalizing a with
  | nil => exact List.pairwise_singleton _ _
  | cons b l ih =>
    obtain ⟨ha, hbl⟩ := List.pairwise_cons.mp h
    rw [dedupFrom]
    split
    · exact ih (h.sublist ((List.sublist_cons_self b l).cons_cons a))
    · rename_i hkey
      refine List.pairwise_cons.mpr ⟨fun x hx => ?_, ih hbl⟩
      have hlt : key a < key b := lt_of_le_of_ne (ha b List.mem_cons_self) (Ne.symm hkey)
      have hmem : x ∈ b :: l := List.mem_of_find?_eq_some ((mem_dedupFrom hbl).mp hx)
      rcases List.mem_cons.mp hmem with rfl | hmem
      · exact hlt
      · exact hlt.trans_le (List.rel_of_pairwise_cons hbl hmem)

theorem pairwise_dedupBy (h : l.Pairwise fun x y => key x ≤ key y) :
    (dedupBy key l).Pairwise fun x y => key x < key y := by
  cases l with
  | nil => exact List.Pairwise.nil
  | cons a l => exact pairwise_dedupFrom h

instance total_key_le : Std.Total fun a b : α => key a ≤ key b := ⟨fun a b => le_total (key a) (key b)⟩

instance isTrans_key_le : IsTrans α fun a b => key a ≤ key b := ⟨fun _ _ _ => le_trans⟩

theorem pairwise_sortBy (key : α → κ) (l : List α) :
    (sortBy key l).Pairwise fun x y => key x ≤ key y :=
  List.pairwise_insertionSort _ _

theorem perm_sortBy (key : α → κ) (l : List α) : (sortBy key l).Perm l :=
  List.perm_insertionSort _ _

/-- **The sort is stable**: the elements of one key stay in their order. -/
theorem filter_sortBy (key : α → κ) (l : List α) (k : κ) :
    (sortBy key l).filter (fun y => key y = k) = l.filter fun y => key y = k := by
  have hpairwise : (l.filter fun y => key y = k).Pairwise fun x y => key x ≤ key y := by
    refine List.pairwise_of_forall_mem_list fun x hx y hy => ?_
    have hkx : key x = k := of_decide_eq_true (List.mem_filter.mp hx).2
    have hky : key y = k := of_decide_eq_true (List.mem_filter.mp hy).2
    exact (hkx.trans hky.symm).le
  have hsub : (l.filter fun y => key y = k).Sublist (sortBy key l) :=
    List.sublist_insertionSort hpairwise List.filter_sublist
  have hfilter := hsub.filter fun y => key y = k
  simp only [List.filter_filter, Bool.and_self] at hfilter
  exact (hfilter.eq_of_length ((perm_sortBy key l).filter _).length_eq.symm).symm

theorem find?_sortBy (key : α → κ) (l : List α) (k : κ) :
    (sortBy key l).find? (fun y => key y = k) = l.find? fun y => key y = k := by
  rw [← List.head?_filter, ← List.head?_filter, filter_sortBy]

/-- **An element is left when it is the first of its key.** -/
theorem mem_distinctBy : x ∈ distinctBy key l ↔ l.find? (fun y => key y = key x) = some x := by
  rw [distinctBy, mem_dedupBy (pairwise_sortBy key l), find?_sortBy]

/-- **The keys are left in increasing order**, each once. -/
theorem pairwise_distinctBy (key : α → κ) (l : List α) :
    (distinctBy key l).Pairwise fun x y => key x < key y :=
  pairwise_dedupBy (pairwise_sortBy key l)

/-- Every key of the list is left. -/
theorem exists_mem_distinctBy (key : α → κ) (hx : x ∈ l) : ∃ y ∈ distinctBy key l, key y = key x := by
  have hsome : (l.find? fun y => key y = key x).isSome :=
    List.find?_isSome.mpr ⟨x, hx, decide_eq_true rfl⟩
  obtain ⟨y, hy⟩ := Option.isSome_iff_exists.mp hsome
  have hkey : key y = key x :=
    of_decide_eq_true (List.find?_some (p := fun y => decide (key y = key x)) hy)
  refine ⟨y, mem_distinctBy.mpr ?_, hkey⟩
  rw [hkey, hy]

/-- Sorting and dropping repetitions keeps what is in the list. -/
theorem mem_distinctBy_id {l : List κ} {x : κ} : x ∈ distinctBy id l ↔ x ∈ l := by
  rw [mem_distinctBy]
  constructor
  · exact List.mem_of_find?_eq_some
  · intro hx
    obtain ⟨y, hy, hkey⟩ := exists_mem_distinctBy id hx
    have hyx : y = x := hkey
    rw [hyx, mem_distinctBy] at hy
    exact hy

end Relational
