import Authrs.Query.Meaning
import Authrs.Relational.Paging

/-!
# Listing the memberships page by page

The list of memberships is in the order of the sort list, or of the creation times when there is none.
Neither ends with a key that tells all memberships apart, so memberships may tie, and the database
arranges ties anew for each page. What the comparisons of values are is a parameter.

## Main definitions

* `OrderKey`, `orderText`: the keys of an `ORDER BY`, and its text
* `userKeys`: the keys of a list of memberships
* `keysLe`: the order of rows by keys
* `matching`: the rows of a list, before they are ordered

## Main results

* `users_list_query`: the condition and the keys of a list of memberships
* `users_list_pages_iff`: when the pages have every membership once
* `one_member_listed_twice`: memberships that were created at the same time
-/

namespace Authrs.Query

open SqlText Relational

/-! ### Keys -/

/-- A key of an `ORDER BY` clause. -/
structure OrderKey where
  column : ColumnRef
  desc : Bool

def OrderKey.text (k : OrderKey) : String := k.column.text ++ " " ++ (if k.desc then "DESC" else "ASC")

/-- The clause, with its leading blank. -/
def orderText (keys : List OrderKey) : String := " ORDER BY " ++ join ", " (keys.map OrderKey.text)

/-- The key of a part of a sort list. -/
def sortKey (fields : FieldMap) (s : SortSpec) : Option OrderKey :=
  (fields.find? fun f => f.apiName = s.field).map fun spec => ⟨spec.column, s.desc⟩

theorem createdAt_isColumnName : isColumnName "u.created_at" = true := by decide +kernel

/-- **The keys of a list of memberships**: those of the sort list, or the creation time. -/
def userKeys (sort : List SortSpec) : Option (List OrderKey) :=
  if sort = [] then some [⟨⟨"u.created_at", createdAt_isColumnName⟩, true⟩]
  else sort.mapM (sortKey userFilterFields)

theorem orderPart_eq_ok {fields : FieldMap} {s : SortSpec} {part : String}
    (h : orderPart fields s = .ok part) : ∃ k, sortKey fields s = some k ∧ part = k.text := by
  unfold orderPart at h
  unfold sortKey
  split at h
  · cases h
  · rename_i spec hspec
    split at h
    · cases h
    · cases h
      rw [hspec]
      exact ⟨⟨spec.column, s.desc⟩, rfl, rfl⟩

theorem orderParts_eq_ok {fields : FieldMap} {sort : List SortSpec} {parts : List String}
    (h : sort.mapM (orderPart fields) = .ok parts) :
    ∃ keys, sort.mapM (sortKey fields) = some keys ∧ parts = keys.map OrderKey.text := by
  induction sort generalizing parts with
  | nil =>
    cases h
    exact ⟨[], rfl, rfl⟩
  | cons s sort ih =>
    rw [List.mapM_cons] at h
    obtain ⟨part, hpart, h⟩ := bind_eq_ok.mp h
    obtain ⟨rest, hrest, h⟩ := bind_eq_ok.mp h
    cases h
    obtain ⟨k, hk, rfl⟩ := orderPart_eq_ok hpart
    obtain ⟨keys, hkeys, rfl⟩ := ih hrest
    refine ⟨k :: keys, ?_, rfl⟩
    rw [List.mapM_cons, hk, hkeys]
    rfl

/-- The clause of a list of memberships is that of its keys. -/
theorem users_order {sort : List SortSpec} {orderSql : String}
    (h : buildOrder userFilterFields sort = .ok orderSql) :
    ∃ keys, userKeys sort = some keys ∧
      (if orderSql = "" then " ORDER BY u.created_at DESC" else orderSql) = orderText keys := by
  obtain ⟨parts, hparts, hsql⟩ := bind_eq_ok.mp h
  obtain ⟨keys, hkeys, rfl⟩ := orderParts_eq_ok hparts
  unfold userKeys
  cases sort with
  | nil =>
    cases hkeys
    cases hsql
    exact ⟨_, rfl, rfl⟩
  | cons s sort =>
    rw [List.mapM_cons] at hkeys
    have hne : keys.map OrderKey.text ≠ [] := by
      rintro hnil
      rw [List.map_eq_nil_iff.mp hnil] at hkeys
      obtain ⟨k, -, hkeys⟩ := Option.bind_eq_some_iff.mp hkeys
      obtain ⟨ks, -, hkeys⟩ := Option.bind_eq_some_iff.mp hkeys
      cases hkeys
    rw [if_neg hne] at hsql
    cases hsql
    refine ⟨keys, ?_, ?_⟩
    · rw [if_neg (List.cons_ne_nil s sort), List.mapM_cons]
      exact hkeys
    · rw [if_neg]
      · rfl
      · intro hempty
        have hlen := congrArg String.length hempty
        rw [String.length_append] at hlen
        change 10 + _ = 0 at hlen
        omega

/-! ### The list -/

section List

variable {V Row : Type} (ops : Operators V) (le : V → V → Bool) (view : Row → String → V)
  (args : Nat → V)

/-- The order of rows by one key. -/
def keyLe (k : OrderKey) (x y : Row) : Bool :=
  if k.desc then le (view y k.column.text) (view x k.column.text)
  else le (view x k.column.text) (view y k.column.text)

/-- **The order of rows by keys**: each key is for the ties of those before it. -/
def keysLe : List OrderKey → Row → Row → Bool
  | [] => fun _ _ => true
  | k :: ks => lexLe (keyLe le view k) (keysLe ks)

/-- The rows that a condition selects. -/
def matching (e : Expr) (table : List Row) : List Row :=
  table.filter fun r => e.eval ops (view r) args = .yes

variable {le}

theorem keyLe_preordered (hle : Preordered le) (k : OrderKey) : Preordered (keyLe le view k) := by
  unfold keyLe
  cases k.desc with
  | false => exact hle.comap fun r : Row => view r k.column.text
  | true => exact (hle.comap fun r : Row => view r k.column.text).flip

theorem keysLe_preordered (hle : Preordered le) (ks : List OrderKey) :
    Preordered (keysLe le view ks) := by
  induction ks with
  | nil => exact .all
  | cons k ks ih => exact (keyLe_preordered view hle k).lex ih

variable {toLowercase : String → String} {includeArchived : Bool} {filter : Option FilterNode}
  {sort : List SortSpec} {built : BuiltQuery}

/-- **The condition and the keys** of a list of memberships. -/
theorem users_list_query
    (hfilter : ∀ node ∈ filter, ∃ input, parseRsql toLowercase input = .ok node)
    (hlist : UsersRepo.list includeArchived filter sort = .ok built) :
    ∃ e keys, condition built.whereSql = some e ∧ userKeys sort = some keys ∧
      built.orderSql = orderText keys := by
  obtain ⟨inner, hbuild, h⟩ := bind_eq_ok.mp hlist
  cases h
  have horder : ∃ keys, userKeys sort = some keys ∧
      (if inner.orderSql = "" then " ORDER BY u.created_at DESC" else inner.orderSql) =
        orderText keys := by
    obtain ⟨r, -, hrest⟩ := bind_eq_ok.mp hbuild
    obtain ⟨orderSql, hsort, hrest⟩ := bind_eq_ok.mp hrest
    cases hrest
    exact users_order hsort
  obtain ⟨keys, hkeys, htext⟩ := horder
  have hown := endpoints_conjuncts.1 includeArchived
  cases filter with
  | none =>
    obtain ⟨r, hwhere, hrest⟩ := bind_eq_ok.mp hbuild
    obtain ⟨orderSql, -, hrest⟩ := bind_eq_ok.mp hrest
    cases hwhere
    cases hrest
    have hcondition := condition_join (DenotesAll.preds (usersConjuncts includeArchived).listed)
    exact ⟨_, keys, (congrArg condition hown).trans hcondition, hkeys, htext⟩
  | some node =>
    obtain ⟨input, hparse⟩ := hfilter node rfl
    obtain ⟨-, -, e, hcondition, -⟩ :=
      build_selects textOperators toLowercase (usersConjuncts includeArchived) hparse hbuild
    rw [← hown] at hcondition
    exact ⟨e, keys, hcondition, hkeys, htext⟩

/-- **When the pages of a list of memberships have each matching one once**, however each query
arranges the ties: no group of ties lies on two pages. -/
theorem users_list_pages_iff (hle : Preordered le)
    (hfilter : ∀ node ∈ filter, ∃ input, parseRsql toLowercase input = .ok node)
    (hlist : UsersRepo.list includeArchived filter sort = .ok built) {table : List Row}
    (hnodup : table.Nodup) {n : Nat} (hn : 0 < n) :
    ∃ e keys, condition built.whereSql = some e ∧ userKeys sort = some keys ∧
      built.orderSql = orderText keys ∧
        (PagesPartition (keysLe le view keys) (matching ops view args e table) n ↔
          TiesOnOnePage (keysLe le view keys) (matching ops view args e table) n) := by
  obtain ⟨e, keys, hcondition, hkeys, htext⟩ := users_list_query hfilter hlist
  refine ⟨e, keys, hcondition, hkeys, htext, ?_⟩
  exact pagesPartition_iff (keysLe_preordered view hle keys) (hnodup.filter _) hn

end List

/-! ### Two members -/

/-- The order of texts, `NULL` last. -/
def textLe : Option String → Option String → Bool
  | _, none => true
  | none, some _ => false
  | some a, some b => a ≤ b

theorem textLe_preordered : Preordered textLe where
  total a b := by
    cases a <;> cases b <;> simp only [textLe, Bool.or_true, Bool.true_or, Bool.or_eq_true,
      decide_eq_true_eq]
    exact String.le_total _ _
  trans a b c hab hbc := by
    cases a <;> cases b <;> cases c <;> simp only [textLe, decide_eq_true_eq, reduceCtorEq] at *
    exact String.le_trans hab hbc

/-- A membership of the tenant, with the time of its creation. -/
def createdAt (member : String × String) (column : String) : Option String :=
  if column = "u.created_at" then some member.2
  else if column = "u.tenant_id" then some "acme"
  else some "active"

/-- Two members that joined one after the other. -/
theorem users_list_pages_joined :
    ∃ e keys, condition "u.tenant_id = $1 AND u.status != 'archived'" = some e ∧
      userKeys [] = some keys ∧ " ORDER BY u.created_at DESC" = orderText keys ∧
        (PagesPartition (keysLe textLe createdAt keys) (matching textOperators createdAt
            (fun _ => some "acme") e [("ann", "1"), ("bob", "2")]) 1 ↔
          TiesOnOnePage (keysLe textLe createdAt keys) (matching textOperators createdAt
            (fun _ => some "acme") e [("ann", "1"), ("bob", "2")]) 1) := by
  have hfilter : ∀ node ∈ (none : Option FilterNode), ∃ input, parseRsql id input = .ok node := by
    rintro _ ⟨⟩
  have hlist : UsersRepo.list false none [] =
      .ok ⟨"u.tenant_id = $1 AND u.status != 'archived'", " ORDER BY u.created_at DESC", []⟩ := rfl
  exact users_list_pages_iff textOperators createdAt (fun _ => some "acme") textLe_preordered hfilter
    hlist (by decide) Nat.one_pos

/-- **Two members that joined at once**: with one membership a page, one of them may be listed twice
and the other one never. -/
theorem one_member_listed_twice : ¬ ∀ {V Row : Type} (ops : Operators V) (le : V → V → Bool)
    (view : Row → String → V) (args : Nat → V) (toLowercase : String → String)
    (includeArchived : Bool) (filter : Option FilterNode) (sort : List SortSpec) (built : BuiltQuery)
    (table : List Row) (n : Nat), Preordered le →
      (∀ node ∈ filter, ∃ input, parseRsql toLowercase input = .ok node) →
      UsersRepo.list includeArchived filter sort = .ok built → table.Nodup → 0 < n →
      ∃ e keys, condition built.whereSql = some e ∧ userKeys sort = some keys ∧
        PagesPartition (keysLe le view keys) (matching ops view args e table) n := by
  intro h
  have hlist : UsersRepo.list false none [] =
      .ok ⟨"u.tenant_id = $1 AND u.status != 'archived'", " ORDER BY u.created_at DESC", []⟩ := rfl
  obtain ⟨e, keys, hcondition, hkeys, hpages⟩ := h textOperators textLe createdAt
    (fun _ => some "acme") id false none [] _ [("ann", "1"), ("bob", "1")] 1 textLe_preordered
    (by rintro _ ⟨⟩) hlist (by decide) Nat.one_pos
  have hties := (pagesPartition_iff (keysLe_preordered createdAt textLe_preordered keys)
    (List.Nodup.filter _ (by decide)) Nat.one_pos).mp hpages
  have hrun : ((condition "u.tenant_id = $1 AND u.status != 'archived'").bind fun e =>
      (userKeys []).map fun keys => decide (TiesOnOnePage (keysLe textLe createdAt keys)
        (matching textOperators createdAt (fun _ => some "acme") e
          [("ann", "1"), ("bob", "1")]) 1)) = some false := by
    decide +kernel
  rw [hcondition, hkeys] at hrun
  exact absurd hties (of_decide_eq_false (Option.some.inj hrun))

end Authrs.Query
