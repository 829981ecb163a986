import Mathlib.Data.List.Basic
import Mathlib.Data.List.Nodup
import Mathlib.Data.List.Infix

/-!
# Policies and their evaluation

The fragment of the Cedar policy language made of scope constraints, attribute access, `like` and
comparisons. A policy is satisfied by a request when the constraints on its scope hold and all its
conditions evaluate to true; a condition that evaluates to an error is not true. A set of policies
allows a request that satisfies a `permit` policy and no `forbid` policy.

## Main definitions

* `EntityUid`, `Entity`, `Context`, `Request`: what a request is about
* `PatternElem`, `matchPattern`: the patterns of `like`
* `Expr`, `Expr.eval`: conditions
* `Policy`, `Policy.satisfied`: policies and the requests they apply to
* `PolicySet`, `PolicySet.add`, `PolicySet.decision`: sets of policies and their decisions

## Main results

* `Expr.eval_context`: an expression that does not mention the context does not depend on it
* `PolicySet.addAll_eq_ok`: adding policies one by one succeeds exactly when their ids stay distinct
-/

namespace Cedar

/-- The identity of an entity: its type, with its namespace, and its id. -/
structure EntityUid where
  typeName : String
  eid : String
  deriving DecidableEq

/-- The values that literals denote. -/
inductive Prim
  | bool (b : Bool)
  | long (n : Int)
  | string (s : String)
  deriving DecidableEq

/-- A value. Sets, records and the like are kept as their texts: no operator looks into them. -/
inductive Value
  | prim (p : Prim)
  | other (text : String)
  deriving DecidableEq

/-- An entity with its attributes and its parents. -/
structure Entity where
  uid : EntityUid
  attrs : List (String × Value)
  parents : List EntityUid

abbrev Entities : Type := List Entity

/-- The context of a request, a record. -/
abbrev Context : Type := List (String × Value)

structure Request where
  principal : EntityUid
  action : EntityUid
  resource : EntityUid
  context : Context

/-! ### Entities -/

namespace Entities

/-- The attribute of an entity. -/
def attr (es : Entities) (uid : EntityUid) (name : String) : Option Value :=
  (es.find? fun e => e.uid = uid).bind fun e => e.attrs.lookup name

/-- A chain of at most `n` parents leads from `a` to `b`. -/
def reaches (es : Entities) : (n : Nat) → (a b : EntityUid) → Bool
  | 0, a, b => a = b
  | n + 1, a, b => a = b || es.any fun e => e.uid = a && e.parents.any fun p => reaches es n p b

/-- `a in b`: the entity itself or one of its ancestors. -/
def isIn (es : Entities) (a b : EntityUid) : Bool := reaches es es.length a b

end Entities

/-! ### Patterns -/

/-- An element of a `like` pattern. -/
inductive PatternElem
  | wildcard
  | literal (s : String)
  deriving DecidableEq

/-- Whether a pattern matches a text. A wildcard matches any run of characters. -/
def matchPattern : List PatternElem → List Char → Bool
  | [], cs => cs.isEmpty
  | .wildcard :: ps, cs => cs.tails.any (matchPattern ps)
  | .literal s :: ps, cs =>
    s.toList.isPrefixOf cs && matchPattern ps (cs.drop s.toList.length)

theorem matchPattern_nil {cs : List Char} : matchPattern [] cs = true ↔ cs = [] := by
  simp [matchPattern]

theorem matchPattern_wildcard {ps : List PatternElem} {cs : List Char} :
    matchPattern (.wildcard :: ps) cs = true ↔
      ∃ run rest, cs = run ++ rest ∧ matchPattern ps rest = true := by
  rw [matchPattern, List.any_eq_true]
  constructor
  · rintro ⟨rest, hrest, hmatch⟩
    obtain ⟨run, hrun⟩ := (List.mem_tails _ _).mp hrest
    exact ⟨run, rest, hrun.symm, hmatch⟩
  · rintro ⟨run, rest, rfl, hmatch⟩
    exact ⟨rest, (List.mem_tails _ _).mpr ⟨run, rfl⟩, hmatch⟩

theorem matchPattern_literal {s : String} {ps : List PatternElem} {cs : List Char} :
    matchPattern (.literal s :: ps) cs = true ↔
      ∃ rest, cs = s.toList ++ rest ∧ matchPattern ps rest = true := by
  rw [matchPattern, Bool.and_eq_true, List.isPrefixOf_iff_prefix]
  constructor
  · rintro ⟨⟨rest, rfl⟩, hmatch⟩
    rw [List.drop_left] at hmatch
    exact ⟨rest, rfl, hmatch⟩
  · rintro ⟨rest, rfl, hmatch⟩
    rw [List.drop_left]
    exact ⟨⟨rest, rfl⟩, hmatch⟩

/-! ### Expressions -/

inductive Var
  | principal
  | action
  | resource
  | context
  deriving DecidableEq

inductive CompareOp
  | eq
  | neq
  | lt
  | gt
  deriving DecidableEq

inductive Expr
  | lit (p : Prim)
  | attr (v : Var) (name : String)
  | like (e : Expr) (pattern : List PatternElem)
  | compare (op : CompareOp) (l r : Expr)

/-- A comparison. Values of different types are unequal; only integers are ordered. -/
def CompareOp.eval : CompareOp → Value → Value → Option Bool
  | .eq, a, b => some (a = b)
  | .neq, a, b => some (a ≠ b)
  | .lt, .prim (.long m), .prim (.long n) => some (m < n)
  | .gt, .prim (.long m), .prim (.long n) => some (n < m)
  | _, _, _ => none

/-- The attribute of what a variable stands for. -/
def Var.attr (req : Request) (es : Entities) (name : String) : Var → Option Value
  | .principal => es.attr req.principal name
  | .action => es.attr req.action name
  | .resource => es.attr req.resource name
  | .context => req.context.lookup name

/-- The value of an expression; `none` is an evaluation error. -/
def Expr.eval (req : Request) (es : Entities) : Expr → Option Value
  | .lit p => some (.prim p)
  | .attr v name => v.attr req es name
  | .like e pattern =>
    match e.eval req es with
    | some (.prim (.string s)) => some (.prim (.bool (matchPattern pattern s.toList)))
    | _ => none
  | .compare op l r =>
    (l.eval req es).bind fun a => (r.eval req es).bind fun b =>
      (op.eval a b).map fun t => .prim (.bool t)

/-- The expression does not mention the context. -/
def Expr.ContextFree : Expr → Prop
  | .lit _ => True
  | .attr v _ => v ≠ .context
  | .like e _ => e.ContextFree
  | .compare _ l r => l.ContextFree ∧ r.ContextFree

theorem Var.attr_context {v : Var} (hv : v ≠ .context) (req : Request) (es : Entities)
    (name : String) (ctx : Context) :
    v.attr { req with context := ctx } es name = v.attr req es name := by
  cases v with
  | context => exact absurd rfl hv
  | _ => rfl

/-- **An expression that does not mention the context does not depend on it.** -/
theorem Expr.eval_context {e : Expr} (he : e.ContextFree) (req : Request) (es : Entities)
    (ctx : Context) : e.eval { req with context := ctx } es = e.eval req es := by
  induction e with
  | lit p => rfl
  | attr v name => exact Var.attr_context he req es name ctx
  | like e pattern ih =>
    rw [Expr.eval, ih he, Expr.eval]
  | compare op l r ihl ihr =>
    rw [Expr.eval, ihl he.1, ihr he.2, Expr.eval]

/-! ### Policies -/

inductive Effect
  | permit
  | forbid
  deriving DecidableEq

/-- A constraint on the principal, the action or the resource. -/
inductive Scope
  | all
  | eq (uid : EntityUid)
  | isIn (uid : EntityUid)

/-- A policy whose conditions all are `when` clauses. -/
structure Policy where
  id : String
  effect : Effect
  principal : Scope
  action : Scope
  resource : Scope
  conditions : List Expr

def Scope.holds (es : Entities) (uid : EntityUid) : Scope → Bool
  | .all => true
  | .eq u => uid = u
  | .isIn u => es.isIn uid u

/-- The scope of the policy covers the request. -/
def Policy.covers (p : Policy) (req : Request) (es : Entities) : Bool :=
  p.principal.holds es req.principal && p.action.holds es req.action &&
    p.resource.holds es req.resource

/-- The policy applies to the request. -/
def Policy.satisfied (p : Policy) (req : Request) (es : Entities) : Bool :=
  p.covers req es && p.conditions.all fun e => e.eval req es = some (.prim (.bool true))

theorem Policy.satisfied_iff {p : Policy} {req : Request} {es : Entities} :
    p.satisfied req es = true ↔
      p.covers req es = true ∧ ∀ e ∈ p.conditions, e.eval req es = some (.prim (.bool true)) := by
  simp [satisfied]

/-- No condition of the policy mentions the context. -/
def Policy.ContextFree (p : Policy) : Prop := ∀ e ∈ p.conditions, e.ContextFree

theorem Policy.satisfied_context {p : Policy} (hp : p.ContextFree) (req : Request)
    (es : Entities) (ctx : Context) :
    p.satisfied { req with context := ctx } es = p.satisfied req es := by
  have hcovers : p.covers { req with context := ctx } es = p.covers req es := rfl
  rw [Bool.eq_iff_iff, Policy.satisfied_iff, Policy.satisfied_iff, hcovers]
  apply and_congr_right
  intro
  apply forall₂_congr
  intro e he
  rw [Expr.eval_context (hp e he)]

/-- Policies with distinct ids. The order in which a set lists its policies is not specified;
nothing below depends on it. -/
structure PolicySet where
  policies : List Policy
  nodup : (policies.map Policy.id).Nodup

namespace PolicySet

def new : PolicySet := ⟨[], List.nodup_nil⟩

@[simp] theorem policies_new : new.policies = [] := rfl

theorem ext {s s' : PolicySet} (h : s.policies = s'.policies) : s = s' := by
  cases s
  cases s'
  simpa using h

theorem nodup_append {s : PolicySet} {p : Policy} (h : p.id ∉ s.policies.map Policy.id) :
    ((s.policies ++ [p]).map Policy.id).Nodup := by
  rw [List.map_append, List.map_singleton, List.nodup_append]
  refine ⟨s.nodup, List.nodup_singleton _, ?_⟩
  intro a ha b hb hab
  rw [List.mem_singleton.mp hb] at hab
  exact h (hab ▸ ha)

/-- Add a policy whose id is free; `taken` is the error for an id that is not. -/
def add (taken : String → String) (s : PolicySet) (p : Policy) : Except String PolicySet :=
  if h : p.id ∈ s.policies.map Policy.id then .error (taken p.id)
  else .ok ⟨s.policies ++ [p], nodup_append h⟩

/-- Add policies one by one. -/
def addAll (taken : String → String) (s : PolicySet) (ps : List Policy) :
    Except String PolicySet :=
  ps.foldlM (add taken) s

variable {taken : String → String} {s s' : PolicySet}

theorem add_eq_ok {p : Policy} :
    s.add taken p = .ok s' ↔
      p.id ∉ s.policies.map Policy.id ∧ s'.policies = s.policies ++ [p] := by
  rw [add]
  split
  · rename_i h
    exact ⟨fun h' => (by cases h'), fun h' => absurd h h'.1⟩
  · rename_i h
    constructor
    · intro h'
      cases h'
      exact ⟨h, rfl⟩
    · rintro ⟨-, h'⟩
      exact congrArg Except.ok (ext h'.symm)

/-- **Adding policies one by one succeeds exactly when the ids stay distinct**, and adds them. -/
theorem addAll_eq_ok {ps : List Policy} :
    s.addAll taken ps = .ok s' ↔
      ((s.policies ++ ps).map Policy.id).Nodup ∧ s'.policies = s.policies ++ ps := by
  induction ps generalizing s with
  | nil =>
    rw [addAll, List.foldlM_nil, List.append_nil]
    constructor
    · intro h
      cases h
      exact ⟨s'.nodup, rfl⟩
    · rintro ⟨-, h⟩
      exact congrArg Except.ok (ext h.symm)
  | cons p ps ih =>
    rw [addAll, List.foldlM_cons]
    cases hadd : s.add taken p with
    | error e =>
      constructor
      · intro h
        cases h
      · rintro ⟨hnodup, -⟩
        have hfree : p.id ∉ s.policies.map Policy.id := by
          rw [List.map_append, List.map_cons] at hnodup
          intro hmem
          exact (List.nodup_append.mp hnodup).2.2 _ hmem _ List.mem_cons_self rfl
        rw [add, dif_neg hfree] at hadd
        cases hadd
    | ok s₁ =>
      have happend : s.policies ++ p :: ps = s₁.policies ++ ps := by
        rw [(add_eq_ok.mp hadd).2, List.append_assoc, List.singleton_append]
      rw [happend]
      exact ih

end PolicySet

/-! ### Decisions -/

inductive Decision
  | allow
  | deny
  deriving DecidableEq

/-- A policy with the effect applies to the request. -/
def PolicySet.applies (s : PolicySet) (effect : Effect) (req : Request) (es : Entities) : Bool :=
  s.policies.any fun p => p.effect = effect && p.satisfied req es

/-- Some `permit` policy applies and no `forbid` policy does. -/
def PolicySet.decision (s : PolicySet) (req : Request) (es : Entities) : Decision :=
  if s.applies .permit req es && !s.applies .forbid req es then .allow else .deny

theorem PolicySet.applies_iff {s : PolicySet} {effect : Effect} {req : Request} {es : Entities} :
    s.applies effect req es = true ↔
      ∃ p ∈ s.policies, p.effect = effect ∧ p.satisfied req es = true := by
  simp [applies]

theorem PolicySet.decision_eq_allow {s : PolicySet} {req : Request} {es : Entities} :
    s.decision req es = .allow ↔
      s.applies .permit req es = true ∧ s.applies .forbid req es = false := by
  simp [decision]

/-- Policies that do not mention the context apply in every context or in none. -/
theorem PolicySet.applies_context {s : PolicySet} (hs : ∀ p ∈ s.policies, p.ContextFree)
    (effect : Effect) (req : Request) (es : Entities) (ctx : Context) :
    s.applies effect { req with context := ctx } es = s.applies effect req es := by
  rw [Bool.eq_iff_iff, applies_iff, applies_iff]
  apply exists_congr
  intro p
  apply and_congr_right
  intro hp
  rw [Policy.satisfied_context (hs p hp)]

end Cedar
