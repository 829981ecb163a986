import Mathlib.Data.List.Sort
import Mathlib.Data.Nat.Find

/-!
# Pages of a sorted result

`LIMIT n OFFSET s` takes a part of an arrangement of the rows. An order that is not total has several
arrangements, and each query takes its own, so a row of a group of ties may be in any place of the
group. The pages have every row once, whichever arrangements are taken, exactly when no group of ties
lies on two pages.

## Main definitions

* `Arrangement le rows l`: the rows in an order
* `before`, `upTo`: how many rows come before a row, and how many come before it or tie with it
* `page`, `PagesPartition`: the pages up to the first empty one have every row once
* `TiesOnOnePage`: no group of ties lies on two pages
* `lexLe`: one order, and another one for its ties

## Main results

* `Arrangement.index`: the places of a row
* `exists_arrangement`: each of them is taken in some arrangement
* `pagesPartition_iff`: when the pages have every row once
-/

namespace Relational

variable {Row : Type}

/-! ### Orders -/

/-- An order in which rows may tie. -/
structure Preordered (le : Row → Row → Bool) : Prop where
  total : ∀ x y, le x y || le y x
  trans : ∀ x y z, le x y → le y z → le x z

/-- One order, and another one for its ties. -/
def lexLe (le le' : Row → Row → Bool) (x y : Row) : Bool := le x y && (!le y x || le' x y)

theorem Preordered.lex {le le' : Row → Row → Bool} (h : Preordered le) (h' : Preordered le') :
    Preordered (lexLe le le') where
  total x y := by
    have hxy := h.total x y
    have hxy' := h'.total x y
    unfold lexLe
    revert hxy hxy'
    cases le x y <;> cases le y x <;> cases le' x y <;> cases le' y x <;> decide
  trans x y z hxy hyz := by
    unfold lexLe at hxy hyz ⊢
    rw [Bool.and_eq_true, Bool.or_eq_true, Bool.not_eq_true'] at hxy hyz ⊢
    obtain ⟨hle, hties⟩ := hxy
    obtain ⟨hle', hties'⟩ := hyz
    refine ⟨h.trans x y z hle hle', ?_⟩
    cases hback : le z x with
    | false => exact .inl rfl
    | true =>
      -- all three tie in the first order
      have hyx := h.trans y z x hle' hback
      have hzy := h.trans z x y hback hle
      rw [hyx] at hties
      rw [hzy] at hties'
      exact .inr (h'.trans x y z (hties.resolve_left Bool.noConfusion)
        (hties'.resolve_left Bool.noConfusion))

theorem Preordered.flip {le : Row → Row → Bool} (h : Preordered le) :
    Preordered fun x y => le y x where
  total x y := h.total y x
  trans x y z hxy hyz := h.trans z y x hyz hxy

theorem Preordered.comap {α : Type} {le : α → α → Bool} (h : Preordered le) (f : Row → α) :
    Preordered fun x y => le (f x) (f y) where
  total x y := h.total (f x) (f y)
  trans x y z := h.trans (f x) (f y) (f z)

theorem Preordered.all : Preordered fun _ _ : Row => true :=
  ⟨fun _ _ => rfl, fun _ _ _ _ _ => rfl⟩

variable {le : Row → Row → Bool}

theorem Preordered.refl (h : Preordered le) (x : Row) : le x x = true := by
  have htotal := h.total x x
  rwa [Bool.or_self] at htotal

theorem Preordered.of_not (h : Preordered le) {x y : Row} (hxy : le x y = false) : le y x = true := by
  have htotal := h.total x y
  rwa [hxy, Bool.false_or] at htotal

/-- **The rows in an order.** -/
structure Arrangement (le : Row → Row → Bool) (rows l : List Row) : Prop where
  perm : l.Perm rows
  sorted : l.Pairwise fun x y => le x y = true

/-- The rows before a row. -/
def before (le : Row → Row → Bool) (rows : List Row) (r : Row) : Nat := rows.countP fun x => !le r x

/-- The rows before a row, and those that tie with it. -/
def upTo (le : Row → Row → Bool) (rows : List Row) (r : Row) : Nat := rows.countP fun x => le x r

/-! ### The places of a row -/

section Places

variable {P : Row → Bool} {l rows : List Row} {r : Row} {i : Nat}

/-- A property of the first rows holds of those below its count. -/
theorem getElem?_iff_lt_countP (hmono : l.Pairwise fun x y => P y = true → P x = true)
    (hr : l[i]? = some r) : P r = true ↔ i < l.countP P := by
  induction l generalizing i with
  | nil => cases hr
  | cons a l ih =>
    obtain ⟨ha, hl⟩ := List.pairwise_cons.mp hmono
    by_cases hPa : P a = true
    · rw [List.countP_cons_of_pos hPa]
      cases i with
      | zero =>
        obtain rfl : a = r := Option.some.inj hr
        simp [hPa]
      | succ i =>
        rw [ih hl hr]
        omega
    · have hnone : ∀ x ∈ l, ¬ P x = true := fun x hx hPx => hPa (ha x hx hPx)
      rw [List.countP_cons_of_neg hPa, List.countP_eq_zero.mpr hnone]
      have hr' := List.mem_of_getElem? hr
      rcases List.mem_cons.mp hr' with rfl | hmem
      · simp [hPa]
      · simp [hnone r hmem]

/-- **The places of a row** are after the rows before it, and before those after it. -/
theorem Arrangement.index (hle : Preordered le) (h : Arrangement le rows l) (hr : l[i]? = some r) :
    before le rows r ≤ i ∧ i < upTo le rows r := by
  unfold before upTo
  rw [← h.perm.countP_eq, ← h.perm.countP_eq]
  constructor
  · have hmono : l.Pairwise fun x y => (!le r y) = true → (!le r x) = true := by
      refine h.sorted.imp fun {x y} hxy hry => ?_
      rw [Bool.not_eq_true'] at hry ⊢
      cases hrx : le r x with
      | false => rfl
      | true =>
        rw [hle.trans r x y hrx hxy] at hry
        cases hry
    have hiff := getElem?_iff_lt_countP hmono hr
    rw [hle.refl r] at hiff
    exact Nat.le_of_not_lt fun hlt => Bool.noConfusion (hiff.mpr hlt)
  · have hmono : l.Pairwise fun x y => le y r = true → le x r = true :=
      h.sorted.imp fun {x y} hxy hyr => hle.trans x y r hxy hyr
    exact (getElem?_iff_lt_countP hmono hr).mp (hle.refl r)

theorem upTo_le_length : upTo le rows r ≤ rows.length := List.countP_le_length

/-- Three groups of rows in order, of which the second one ties, are in order. -/
theorem sorted_groups (hle : Preordered le) {B T A : List Row}
    (hB : ∀ x ∈ B, le x r = true) (hT : ∀ x ∈ T, le x r = true ∧ le r x = true)
    (hA : ∀ x ∈ A, le r x = true) :
    (B.mergeSort le ++ (T ++ A.mergeSort le)).Pairwise fun x y => le x y = true := by
  have hsort : ∀ L : List Row, (L.mergeSort le).Pairwise fun x y => le x y = true := fun L =>
    List.pairwise_mergeSort (fun x y z => hle.trans x y z) (fun x y => hle.total x y) L
  rw [List.pairwise_append, List.pairwise_append]
  refine ⟨hsort B, ⟨?_, hsort A, fun x hx y hy => ?_⟩, fun x hx y hy => ?_⟩
  · exact List.pairwise_of_forall_mem_list fun x hx y hy =>
      hle.trans x r y (hT x hx).1 (hT y hy).2
  · exact hle.trans x r y (hT x hx).1 (hA y (List.mem_mergeSort.mp hy))
  · refine hle.trans x r y (hB x (List.mem_mergeSort.mp hx)) ?_
    rcases List.mem_append.mp hy with hy | hy
    · exact (hT y hy).2
    · exact hA y (List.mem_mergeSort.mp hy)

/-- **Each place of a row is taken** in some arrangement. -/
theorem exists_arrangement (hle : Preordered le) (hr : r ∈ rows) (hlow : before le rows r ≤ i)
    (hhigh : i < upTo le rows r) : ∃ l, Arrangement le rows l ∧ l[i]? = some r := by
  -- the rows up to the ties, of these the earlier ones and the ties, and the rows after them
  obtain ⟨U, hU⟩ : ∃ U, rows.filter (fun x => le x r) = U := ⟨_, rfl⟩
  have hrows : (U ++ rows.filter fun x => !le x r).Perm rows := by
    rw [← hU]
    exact List.filter_append_perm _ _
  have hsplit : (U.filter (fun x => !le r x) ++ U.filter fun x => !!le r x).Perm U :=
    List.filter_append_perm _ _
  have hbefore : (U.filter fun x => !le r x).length = before le rows r := by
    rw [← hU, List.filter_filter, ← List.countP_eq_length_filter]
    refine List.countP_congr fun x _ => ?_
    cases hrx : le r x with
    | false => simp [hle.of_not hrx]
    | true => simp
  have hupTo : U.length = upTo le rows r := by
    rw [← hU, ← List.countP_eq_length_filter]
    rfl
  have hrU : r ∈ U := by
    rw [← hU]
    exact List.mem_filter.mpr ⟨hr, hle.refl r⟩
  have hrT : r ∈ U.filter fun x => !!le r x :=
    List.mem_filter.mpr ⟨hrU, by rw [hle.refl r]; rfl⟩
  obtain ⟨T₁, T₂, hT⟩ := List.append_of_mem hrT
  have hlen := hsplit.length_eq
  rw [hT, List.length_append, hbefore, hupTo] at hlen
  obtain ⟨j, rfl⟩ : ∃ j, i = before le rows r + j := ⟨i - before le rows r, by omega⟩
  have hj : j ≤ (T₁ ++ T₂).length := by
    rw [List.length_append, List.length_cons] at hlen
    rw [List.length_append]
    omega
  -- the row is put among the other ties
  have hties : ((T₁ ++ T₂).take j ++ r :: (T₁ ++ T₂).drop j).Perm (T₁ ++ r :: T₂) := by
    refine List.perm_middle.trans (List.Perm.trans ?_ List.perm_middle.symm)
    rw [List.take_append_drop]
  have htiesMem : ∀ x ∈ (T₁ ++ T₂).take j ++ r :: (T₁ ++ T₂).drop j,
      le x r = true ∧ le r x = true := by
    intro x hx
    have hx' := hties.mem_iff.mp hx
    rw [← hT, ← hU, List.filter_filter, List.mem_filter, Bool.and_eq_true, Bool.not_not] at hx'
    exact ⟨hx'.2.2, hx'.2.1⟩
  refine ⟨_, ⟨?_, sorted_groups (B := U.filter fun x => !le r x)
    (A := rows.filter fun x => !le x r) hle (fun x hx => ?_) htiesMem fun x hx => ?_⟩, ?_⟩
  · refine List.Perm.trans ?_ hrows
    rw [← List.append_assoc]
    refine List.Perm.append ?_ (List.mergeSort_perm _ _)
    refine List.Perm.trans ?_ hsplit
    rw [hT]
    exact (List.mergeSort_perm _ _).append hties
  · have hxU := (List.mem_filter.mp hx).1
    rw [← hU] at hxU
    exact (List.mem_filter.mp hxU).2
  · have hnot := (List.mem_filter.mp hx).2
    rw [Bool.not_eq_true'] at hnot
    exact hle.of_not hnot
  · have hplace : ((U.filter fun x => !le r x).mergeSort le ++ (T₁ ++ T₂).take j).length =
        before le rows r + j := by
      rw [List.length_append, List.length_mergeSort, hbefore, List.length_take, Nat.min_eq_left hj]
    rw [List.append_assoc, ← List.append_assoc, ← hplace, List.getElem?_append_right (Nat.le_refl _),
      Nat.sub_self]
    rfl

end Places

/-! ### Pages -/

section Pages

variable {l rows : List Row} {r : Row} {n k m : Nat}

/-- `LIMIT n OFFSET n * k`. -/
def page (l : List Row) (n k : Nat) : List Row := (l.drop (n * k)).take n

/-- **The pages partition the rows**: up to the first empty one, they have every row once, whichever
arrangement each query takes. -/
def PagesPartition (le : Row → Row → Bool) (rows : List Row) (n : Nat) : Prop :=
  ∀ pick : Nat → List Row, (∀ k, Arrangement le rows (pick k)) →
    ∃ m, page (pick m) n m = [] ∧ (∀ k < m, page (pick k) n k ≠ []) ∧
      ((List.range m).flatMap fun k => page (pick k) n k).Perm rows

/-- **No group of ties lies on two pages**: the first and the last place of a row are on one. -/
def TiesOnOnePage (le : Row → Row → Bool) (rows : List Row) (n : Nat) : Prop :=
  ∀ r ∈ rows, before le rows r / n = (upTo le rows r - 1) / n

instance TiesOnOnePage.decidable (le : Row → Row → Bool) (rows : List Row) (n : Nat) :
    Decidable (TiesOnOnePage le rows n) :=
  inferInstanceAs (Decidable (∀ r ∈ rows, before le rows r / n = (upTo le rows r - 1) / n))

/-- A row is on the page of its place. -/
theorem mem_page (hn : 0 < n) : r ∈ page l n k ↔ ∃ i, l[i]? = some r ∧ i / n = k := by
  unfold page
  rw [List.mem_iff_getElem?]
  constructor
  · rintro ⟨j, hj⟩
    rw [List.getElem?_take] at hj
    split at hj
    · rename_i hjn
      rw [List.getElem?_drop] at hj
      refine ⟨n * k + j, hj, ?_⟩
      rw [Nat.mul_add_div hn, Nat.div_eq_of_lt hjn, Nat.add_zero]
    · cases hj
  · rintro ⟨i, hi, rfl⟩
    refine ⟨i % n, ?_⟩
    rw [List.getElem?_take_of_lt (Nat.mod_lt i hn), List.getElem?_drop, Nat.div_add_mod]
    exact hi

theorem page_eq_nil (hn : 0 < n) : page l n k = [] ↔ l.length ≤ n * k := by
  unfold page
  rw [List.take_eq_nil_iff, List.drop_eq_nil_iff]
  exact or_iff_right (Nat.ne_of_gt hn)

/-- The first empty page. -/
theorem exists_first_empty {pick : Nat → List Row} (hn : 0 < n)
    (hpick : ∀ k, Arrangement le rows (pick k)) :
    ∃ m, page (pick m) n m = [] ∧ (∀ k < m, page (pick k) n k ≠ []) ∧ rows.length ≤ n * m := by
  have hempty : ∀ k, page (pick k) n k = [] ↔ rows.length ≤ n * k := fun k => by
    rw [page_eq_nil hn, (hpick k).perm.length_eq]
  have hexists : ∃ m, page (pick m) n m = [] :=
    ⟨rows.length, (hempty _).mpr (Nat.le_mul_of_pos_left _ hn)⟩
  classical
  exact ⟨Nat.find hexists, Nat.find_spec hexists, fun k hk => Nat.find_min hexists hk,
    (hempty _).mp (Nat.find_spec hexists)⟩

/-- The page of a row, when its group of ties is on one page. -/
theorem mem_page_of_ties (hle : Preordered le) (hn : 0 < n) (hties : TiesOnOnePage le rows n)
    (h : Arrangement le rows l) :
    r ∈ page l n k ↔ r ∈ rows ∧ before le rows r / n = k := by
  rw [mem_page hn]
  constructor
  · rintro ⟨i, hi, rfl⟩
    have hr := h.perm.mem_iff.mp (List.mem_of_getElem? hi)
    obtain ⟨hlow, hhigh⟩ := h.index hle hi
    refine ⟨hr, Nat.le_antisymm (Nat.div_le_div_right hlow) ?_⟩
    rw [hties r hr]
    exact Nat.div_le_div_right (by omega)
  · rintro ⟨hr, rfl⟩
    obtain ⟨i, hi⟩ := List.mem_iff_getElem?.mp (h.perm.mem_iff.mpr hr)
    obtain ⟨hlow, hhigh⟩ := h.index hle hi
    refine ⟨i, hi, Nat.le_antisymm ?_ (Nat.div_le_div_right hlow)⟩
    rw [hties r hr]
    exact Nat.div_le_div_right (by omega)

theorem nodup_page (hl : l.Nodup) : (page l n k).Nodup :=
  hl.sublist ((List.take_sublist _ _).trans (List.drop_sublist _ _))

/-- Ties on one page leave every row to one page. -/
theorem pagesPartition_of_ties (hle : Preordered le) (hnodup : rows.Nodup) (hn : 0 < n)
    (hties : TiesOnOnePage le rows n) : PagesPartition le rows n := by
  intro pick hpick
  obtain ⟨m, hempty, hfirst, hlen⟩ := exists_first_empty hn hpick
  refine ⟨m, hempty, hfirst, ?_⟩
  have hmem : ∀ r k, r ∈ page (pick k) n k ↔ r ∈ rows ∧ before le rows r / n = k :=
    fun r k => mem_page_of_ties hle hn hties (hpick k)
  have hpages : ((List.range m).flatMap fun k => page (pick k) n k).Nodup := by
    refine List.nodup_flatMap.mpr ⟨fun k _ => nodup_page ((hpick k).perm.nodup_iff.mpr hnodup), ?_⟩
    refine List.nodup_range.imp fun {j k} hne => ?_
    intro r hj hk
    exact hne (((hmem r j).mp hj).2.symm.trans ((hmem r k).mp hk).2)
  refine (List.perm_ext_iff_of_nodup hpages hnodup).mpr fun r => ?_
  rw [List.mem_flatMap]
  constructor
  · rintro ⟨k, -, hk⟩
    exact ((hmem r k).mp hk).1
  · intro hr
    obtain ⟨i, hi⟩ := List.mem_iff_getElem?.mp ((hpick 0).perm.mem_iff.mpr hr)
    obtain ⟨hlow, hhigh⟩ := (hpick 0).index hle hi
    have hbefore : before le rows r < n * m :=
      (hlow.trans_lt (hhigh.trans_le upTo_le_length)).trans_le hlen
    refine ⟨before le rows r / n, ?_, (hmem r _).mpr ⟨hr, rfl⟩⟩
    rw [List.mem_range]
    exact Nat.div_lt_of_lt_mul hbefore

/-- A row on two pages is listed twice. -/
theorem ties_of_pagesPartition (hle : Preordered le) (hnodup : rows.Nodup) (hn : 0 < n)
    (h : PagesPartition le rows n) : TiesOnOnePage le rows n := by
  intro r hr
  have hpos : before le rows r < upTo le rows r := by
    have hsorted : r ∈ rows.mergeSort le := List.mem_mergeSort.mpr hr
    obtain ⟨i, hi⟩ := List.mem_iff_getElem?.mp hsorted
    have harr : Arrangement le rows (rows.mergeSort le) :=
      ⟨List.mergeSort_perm _ _, List.pairwise_mergeSort (fun x y z => hle.trans x y z)
        (fun x y => hle.total x y) rows⟩
    obtain ⟨hlow, hhigh⟩ := harr.index hle hi
    omega
  by_contra hne
  -- the row is taken at the first place by one query, and at the last place by the others
  obtain ⟨l, hl, hfirst⟩ := exists_arrangement hle hr (Nat.le_refl _) hpos
  obtain ⟨l', hl', hlast⟩ := exists_arrangement hle hr (i := upTo le rows r - 1) (by omega)
    (by omega)
  obtain ⟨pick, hpick⟩ : ∃ pick : Nat → List Row,
      pick = fun k => if k = before le rows r / n then l else l' := ⟨_, rfl⟩
  have hat : pick (before le rows r / n) = l := by
    rw [hpick]
    exact if_pos rfl
  have hat' : pick ((upTo le rows r - 1) / n) = l' := by
    rw [hpick]
    exact if_neg (Ne.symm hne)
  obtain ⟨m, hempty, -, hperm⟩ := h pick (fun k => by
    rw [hpick]
    dsimp only
    split
    · exact hl
    · exact hl')
  have hon : r ∈ page (pick (before le rows r / n)) n (before le rows r / n) := by
    rw [hat]
    exact (mem_page hn).mpr ⟨_, hfirst, rfl⟩
  have hon' : r ∈ page (pick ((upTo le rows r - 1) / n)) n ((upTo le rows r - 1) / n) := by
    rw [hat']
    exact (mem_page hn).mpr ⟨_, hlast, rfl⟩
  have hlen : rows.length ≤ n * m := by
    have hm := (page_eq_nil hn).mp hempty
    have hpm : (pick m).length = rows.length := by
      rw [hpick]
      dsimp only
      split
      · exact hl.perm.length_eq
      · exact hl'.perm.length_eq
    rwa [hpm] at hm
  have hlt : ∀ i, i < upTo le rows r → i / n < m := fun i hi =>
    Nat.div_lt_of_lt_mul ((hi.trans_le upTo_le_length).trans_le hlen)
  have hdisjoint := (List.nodup_flatMap.mp (hperm.nodup_iff.mpr hnodup)).2
  -- the later of the two pages is not the earlier one
  have hpages : ∀ j k, j < k → k < m → r ∈ page (pick j) n j → r ∉ page (pick k) n k := by
    intro j k hjk hkm hj hk
    have hpair := List.pairwise_iff_getElem.mp hdisjoint j k (by rw [List.length_range]; omega)
      (by rwa [List.length_range]) hjk
    rw [List.getElem_range, List.getElem_range] at hpair
    exact hpair hj hk
  rcases Nat.lt_or_gt_of_ne hne with hlt' | hgt
  · exact hpages _ _ hlt' (hlt _ (by omega)) hon hon'
  · exact hpages _ _ hgt (hlt _ hpos) hon' hon

/-- **When the pages have every row once**: no group of ties lies on two of them. -/
theorem pagesPartition_iff (hle : Preordered le) (hnodup : rows.Nodup) (hn : 0 < n) :
    PagesPartition le rows n ↔ TiesOnOnePage le rows n :=
  ⟨ties_of_pagesPartition hle hnodup hn, pagesPartition_of_ties hle hnodup hn⟩

end Pages

end Relational
