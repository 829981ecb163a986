import Authrs.Policy.Tuples

/-!
# The conditions of a statement

What a statement with conditions means, and what it is compiled to. The compiler writes the
operands of a comparison as an array and the attribute as a variable, which is no expression of the
JSON format: a statement with a condition does not compile, unless it has no tuple.

## Main definitions

* `Condition.Supported`, `Condition.Holds`: the conditions that are documented, and their meaning
* `Enforced`: the policies of a statement apply as it says

## Main results

* `conditions_enforced_iff`: when a statement is compiled to its meaning
-/

namespace Authrs

open Cedar (Crate)

/-- The operators of conditions, and the comparisons they stand for. -/
def conditionOperators : List (String × Cedar.CompareOp) :=
  [("eq", .eq), ("neq", .neq), ("gt", .gt), ("lt", .lt)]

/-- An attribute of the context, one of the operators, and a text, a boolean or an integer. -/
structure Condition.Supported (c : Condition) : Prop where
  attributeName : ∃ name, c.attributeName = "context." ++ name
  operator : c.operator ∈ conditionOperators.map Prod.fst
  value : ∃ p, Cedar.Prim.ofJson c.value = some p

/-- The condition holds of a context: the attribute is there, and the comparison is true. -/
def Condition.Holds (c : Condition) (ctx : Cedar.Context) : Prop :=
  ∃ name op p v, c.attributeName = "context." ++ name ∧ (c.operator, op) ∈ conditionOperators ∧
    Cedar.Prim.ofJson c.value = some p ∧ ctx.lookup name = some v ∧ op.eval v (.prim p) = some true

/-- Principal, action and resource of the tuple match the request. -/
def PolicyTuple.Matches (t : PolicyTuple) (req : Cedar.Request) (es : Cedar.Entities) : Prop :=
  (principalScope t.principal).holds es req.principal = true ∧
    req.action = ⟨"AuthRS::Action", t.action⟩ ∧
    (resourceScope t.resource).holds es req.resource = true ∧
    ∀ e ∈ likeConditions t.resource, e.eval req es = some (.prim (.bool true))

theorem PolicyTuple.satisfied_policy_iff (t : PolicyTuple) (permissionDbId : String)
    (req : Cedar.Request) (es : Cedar.Entities) :
    (t.policy permissionDbId).satisfied req es = true ↔ t.Matches req es := by
  rw [Cedar.Policy.satisfied_iff, Cedar.Policy.covers, Bool.and_eq_true, Bool.and_eq_true,
    and_assoc, and_assoc]
  apply and_congr_right
  intro
  apply and_congr_left
  intro
  exact decide_eq_true_iff

/-- The document compiles, and the policy of each tuple of the statement applies to a request
exactly when the tuple matches and every condition holds of the context. -/
def Enforced (C : Crate) (doc : PermissionDocument) (permissionDbId : String)
    (stmt : PermissionStatement) : Prop :=
  ∃ set, compile C doc permissionDbId = .ok set ∧
    ∀ t ∈ stmt.tuples, ∃ p ∈ set.policies, p.id = policyId permissionDbId t ∧
      p.effect = stmt.effect.cedar ∧
      ∀ req es, p.satisfied req es = true ↔
        t.Matches req es ∧ ∀ c ∈ stmt.conditions, c.Holds req.context

theorem tuples_alone (version : String) (stmt : PermissionStatement) :
    (PermissionDocument.mk version [stmt]).tuples = stmt.tuples := by
  rw [PermissionDocument.tuples, List.flatMap_singleton]

theorem nodup_ids_iff_joined (permissionDbId : String) (ts : List PolicyTuple) :
    (ts.map (policyId permissionDbId)).Nodup ↔ (ts.map PolicyTuple.joined).Nodup := by
  have hmap : ts.map (policyId permissionDbId) =
      (ts.map PolicyTuple.joined).map fun s => permissionDbId ++ ("-" ++ s) := by
    rw [List.map_map]
    exact List.map_congr_left fun t _ => policyId_eq permissionDbId t
  have hinj : Function.Injective fun s => permissionDbId ++ ("-" ++ s) := by
    intro s s' h
    have hlist := congrArg String.toList h
    simp only [String.toList_append] at hlist
    exact String.toList_inj.mp (List.append_cancel_left (List.append_cancel_left hlist))
  rw [hmap, List.nodup_map_iff hinj]

variable {C : Crate}

/-- A statement with a condition and a tuple does not compile. -/
theorem compile_alone_refused (hC : C.ReadsPolicies) {version permissionDbId : String}
    {stmt : PermissionStatement} (htuples : stmt.tuples ≠ []) (hconditions : stmt.conditions ≠ []) :
    ∀ set, compile C ⟨version, [stmt]⟩ permissionDbId ≠ .ok set := by
  intro set hset
  obtain ⟨t, ts, hts⟩ := List.exists_cons_of_ne_nil htuples
  have ht : t ∈ stmt.tuples := by
    rw [hts]
    exact List.mem_cons_self
  have hnone := ((compile_eq_ok hC).mp hset).1 t (by rwa [tuples_alone])
  rw [(PermissionStatement.mem_tuples.mp ht).1] at hnone
  exact hconditions hnone

/-- **A statement is compiled to its meaning exactly when it has no tuple, or no condition and
distinct ids**; an unknown operator is refused exactly when there is a tuple. -/
theorem conditions_enforced_iff (hC : C.ReadsPolicies) (version permissionDbId : String)
    (stmt : PermissionStatement) :
    ((∀ c ∈ stmt.conditions, c.Supported) →
      (Enforced C ⟨version, [stmt]⟩ permissionDbId stmt ↔
        stmt.tuples = [] ∨ stmt.conditions = [] ∧ (stmt.tuples.map PolicyTuple.joined).Nodup)) ∧
    ((∃ c ∈ stmt.conditions, c.operator ∉ conditionOperators.map Prod.fst) →
      ((∀ set, compile C ⟨version, [stmt]⟩ permissionDbId ≠ .ok set) ↔ stmt.tuples ≠ [])) := by
  have hcompile : ∀ set, compile C ⟨version, [stmt]⟩ permissionDbId = .ok set ↔
      (∀ t ∈ stmt.tuples, t.stmt.conditions = []) ∧
        (stmt.tuples.map PolicyTuple.joined).Nodup ∧
        set.policies = stmt.tuples.map (PolicyTuple.policy permissionDbId) := by
    intro set
    rw [compile_eq_ok hC, tuples_alone, nodup_ids_iff_joined]
  -- The set of a statement whose tuples have no conditions.
  have hset : (∀ t ∈ stmt.tuples, t.stmt.conditions = []) →
      (stmt.tuples.map PolicyTuple.joined).Nodup →
        ∃ set, compile C ⟨version, [stmt]⟩ permissionDbId = .ok set ∧
          set.policies = stmt.tuples.map (PolicyTuple.policy permissionDbId) := by
    intro hconditions hnodup
    have hids : ((stmt.tuples.map (PolicyTuple.policy permissionDbId)).map
        Cedar.Policy.id).Nodup := by
      rw [List.map_map]
      exact (nodup_ids_iff_joined permissionDbId stmt.tuples).mpr hnodup
    exact ⟨⟨_, hids⟩, (hcompile _).mpr ⟨hconditions, hnodup, rfl⟩, rfl⟩
  constructor
  · intro _
    constructor
    · rintro ⟨set, hok, -⟩
      by_cases htuples : stmt.tuples = []
      · exact .inl htuples
      · refine .inr ⟨?_, ((hcompile set).mp hok).2.1⟩
        by_contra hconditions
        exact compile_alone_refused hC htuples hconditions set hok
    · rintro (htuples | ⟨hconditions, hnodup⟩)
      · have hnone : ∀ t ∈ stmt.tuples, t.stmt.conditions = [] := by
          rw [htuples]
          exact List.forall_mem_nil _
        obtain ⟨set, hok, -⟩ := hset hnone (by rw [htuples]; exact List.nodup_nil)
        refine ⟨set, hok, ?_⟩
        rw [htuples]
        exact List.forall_mem_nil _
      · have hnone : ∀ t ∈ stmt.tuples, t.stmt.conditions = [] := by
          intro t ht
          rw [(PermissionStatement.mem_tuples.mp ht).1, hconditions]
        obtain ⟨set, hok, hpolicies⟩ := hset hnone hnodup
        refine ⟨set, hok, fun t ht => ?_⟩
        refine ⟨t.policy permissionDbId, ?_, rfl, ?_, fun req es => ?_⟩
        · rw [hpolicies]
          exact List.mem_map_of_mem ht
        · change t.stmt.effect.cedar = _
          rw [(PermissionStatement.mem_tuples.mp ht).1]
        · rw [t.satisfied_policy_iff, hconditions]
          exact ⟨fun h => ⟨h, List.forall_mem_nil _⟩, And.left⟩
  · rintro ⟨c, hc, -⟩
    have hconditions : stmt.conditions ≠ [] := List.ne_nil_of_mem hc
    constructor
    · rintro hrefused htuples
      have hnone : ∀ t ∈ stmt.tuples, t.stmt.conditions = [] := by
        rw [htuples]
        exact List.forall_mem_nil _
      obtain ⟨set, hok, -⟩ := hset hnone (by rw [htuples]; exact List.nodup_nil)
      exact hrefused set hok
    · intro htuples
      exact compile_alone_refused hC htuples hconditions

/-! ### Two statements -/

/-- Everyone with a verified second factor may run one query. -/
def runVerified : PermissionStatement where
  sid := "s"
  effect := .allow
  principals := ["*"]
  actions := ["run"]
  resources := ["service:core/package:_default/query:sample"]
  conditions := [⟨"context.mfa_verified", "eq", .bool true⟩]

theorem conditions_enforced_unconditional :
    Enforced Cedar.reference ⟨"1.0", [{ runVerified with conditions := [] }]⟩ "p"
      { runVerified with conditions := [] } := by
  refine ((conditions_enforced_iff Cedar.reference_readsPolicies "1.0" "p"
    { runVerified with conditions := [] }).1 (List.forall_mem_nil _)).mpr (.inr ⟨rfl, ?_⟩)
  exact List.nodup_singleton _

/-- A restriction to verified sessions is an error. -/
theorem runVerified_not_enforced :
    (∀ c ∈ runVerified.conditions, c.Supported) ∧
      ¬ Enforced Cedar.reference ⟨"1.0", [runVerified]⟩ "p" runVerified := by
  constructor
  · rw [runVerified, List.forall_mem_singleton]
    exact ⟨⟨"mfa_verified", rfl⟩, by decide, ⟨.bool true, rfl⟩⟩
  · rintro ⟨set, hok, -⟩
    exact compile_alone_refused Cedar.reference_readsPolicies (by simp [runVerified,
      PermissionStatement.tuples]) (by simp [runVerified]) set hok

end Authrs
