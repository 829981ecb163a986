import Authrs.Base.Error
import Authrs.Cedar.Crate
import Authrs.Policy.Domain
import Authrs.Policy.Resource

/-!
# The compiler of permission documents

A document is compiled into a set of Cedar policies, one for each statement, principal, action and
resource. The functions of the `cedar_policy` crate are a parameter.

## Main definitions

* `compile`, `buildCedarJson`, `parsePrincipal`, `parseResource`, `resourceLikeCondition`,
  `buildConditions`: their namesakes in the source
* `PolicyTuple`, `PermissionDocument.tuples`: what the policies of a document stand for
* `PolicyTuple.policy`: the policy of a tuple without conditions

## Main results

* `compile_eq_ok`: when a document compiles, and into which policies
-/

namespace Authrs

open Cedar (Crate PolicySet EntityUid Scope Expr IsTypeName IsActionType)

variable (C : Crate)

/-- "role:<uuid>", "user:<uuid>" and "*". A principal without a prefix is a user. -/
def parsePrincipal (principal : String) : Json :=
  if principal = "*" then .object [("op", .string "All")]
  else
    let (pre, id) := (splitOnce principal ':').getD ("user", principal)
    let (op, entityType) :=
      match pre with
      | "role" => ("in", "AuthRS::Role")
      | _ => ("==", "AuthRS::User")
    .object [("entity", .object [("id", .string id), ("type", .string entityType)]),
      ("op", .string op)]

/-- A wildcard resource constrains nothing: the match is the `like` condition. -/
def parseResource (resourcePath : String) : Json :=
  if Resource.isWildcard resourcePath then .object [("op", .string "All")]
  else
    let segments := splitChar resourcePath '/'
    let entityType := "AuthRS::" ++ Resource.entityType resourcePath
    let id := Resource.entityId segments
    .object [("entity", .object [("id", .string id), ("type", .string entityType)]),
      ("op", .string "==")]

/-- `when { resource.path like "<pattern>" }` -/
def resourceLikeCondition (resourcePath : String) : Json :=
  .object [("body", .object [("like", .object [
      ("left", .object [(".", .object [("attr", .string "path"),
        ("left", .object [("Var", .string "resource")])])]),
      ("pattern", .array (Resource.likePattern resourcePath))])]),
    ("kind", .string "when")]

/-- The operands are an array, the first of them the attribute as a variable. An operator that is
not listed becomes `==`. -/
def buildCondition (c : Condition) : Json :=
  let op :=
    match c.operator with
    | "neq" => "!="
    | "gt" => ">"
    | "lt" => "<"
    | _ => "=="
  let attr := trimStartMatchesStr c.attributeName "context."
  .object [("body", .object [(op, .array [.object [("Var", .string attr)],
      .object [("Value", c.value)]])]),
    ("kind", .string "when")]

def buildConditions (conditions : List Condition) : List Json :=
  if conditions.isEmpty then [] else conditions.map buildCondition

def buildCedarJson (stmt : PermissionStatement) (principal action resource : String) : Json :=
  let effect :=
    match stmt.effect with
    | .allow => "permit"
    | .deny => "forbid"
  let conditions := buildConditions stmt.conditions
  let conditions :=
    if Resource.isWildcard resource && resource ≠ "*" then
      conditions ++ [resourceLikeCondition resource]
    else conditions
  .object [
    ("action", .object [
      ("entity", .object [("id", .string action), ("type", .string "AuthRS::Action")]),
      ("op", .string "==")]),
    ("conditions", .array conditions),
    ("effect", .string effect),
    ("principal", parsePrincipal principal),
    ("resource", parseResource resource)]

/-- What one policy is compiled from. -/
structure PolicyTuple where
  stmt : PermissionStatement
  principal : String
  action : String
  resource : String

/-- The id of a policy: `"{permission_db_id}-{sid}-{action}-{resource}"`. -/
def policyId (permissionDbId : String) (t : PolicyTuple) : String :=
  permissionDbId ++ "-" ++ t.stmt.sid ++ "-" ++ t.action ++ "-" ++ t.resource

/-- The body of the innermost loop of `compile`. -/
def addTuple (permissionDbId : String) (set : PolicySet) (t : PolicyTuple) :
    Except AppError PolicySet := do
  let cedarJson := buildCedarJson t.stmt t.principal t.action t.resource
  let policy ← (C.policyFromJson (policyId permissionDbId t) cedarJson).mapError .internal
  (set.add C.idTaken policy).mapError .internal

/-- One policy for each statement, principal, action and resource. -/
def compile (doc : PermissionDocument) (permissionDbId : String) : Except AppError PolicySet :=
  doc.statements.foldlM (fun set stmt =>
    stmt.principals.foldlM (fun set principal =>
      stmt.actions.foldlM (fun set action =>
        stmt.resources.foldlM (fun set resource =>
          addTuple C permissionDbId set ⟨stmt, principal, action, resource⟩)
          set)
        set)
      set)
    PolicySet.new

/-! ### The tuples of a document -/

def PermissionStatement.tuples (stmt : PermissionStatement) : List PolicyTuple :=
  stmt.principals.flatMap fun principal =>
    stmt.actions.flatMap fun action =>
      stmt.resources.map fun resource => ⟨stmt, principal, action, resource⟩

def PermissionDocument.tuples (doc : PermissionDocument) : List PolicyTuple :=
  doc.statements.flatMap PermissionStatement.tuples

theorem PermissionStatement.mem_tuples {stmt : PermissionStatement} {t : PolicyTuple} :
    t ∈ stmt.tuples ↔ t.stmt = stmt ∧ t.principal ∈ stmt.principals ∧ t.action ∈ stmt.actions ∧
      t.resource ∈ stmt.resources := by
  simp only [tuples, List.mem_flatMap, List.mem_map]
  constructor
  · rintro ⟨principal, hp, action, ha, resource, hr, rfl⟩
    exact ⟨rfl, hp, ha, hr⟩
  · rintro ⟨rfl, hp, ha, hr⟩
    exact ⟨_, hp, _, ha, _, hr, rfl⟩

theorem PermissionDocument.mem_tuples {doc : PermissionDocument} {t : PolicyTuple} :
    t ∈ doc.tuples ↔ t.stmt ∈ doc.statements ∧ t.principal ∈ t.stmt.principals ∧
      t.action ∈ t.stmt.actions ∧ t.resource ∈ t.stmt.resources := by
  simp only [tuples, List.mem_flatMap, PermissionStatement.mem_tuples]
  constructor
  · rintro ⟨stmt, hstmt, rfl, h⟩
    exact ⟨hstmt, h⟩
  · rintro ⟨hstmt, h⟩
    exact ⟨t.stmt, hstmt, rfl, h⟩

theorem foldlM_flatMap {ε α β γ : Type} (f : α → γ → Except ε α) (g : β → List γ) (l : List β)
    (a : α) : (l.flatMap g).foldlM f a = l.foldlM (fun a b => (g b).foldlM f a) a := by
  induction l generalizing a with
  | nil => rfl
  | cons b l ih =>
    rw [List.flatMap_cons, List.foldlM_append, List.foldlM_cons]
    exact congrArg _ (funext ih)

/-- The nested loops go through the tuples. -/
theorem compile_eq_foldlM (doc : PermissionDocument) (permissionDbId : String) :
    compile C doc permissionDbId = doc.tuples.foldlM (addTuple C permissionDbId) .new := by
  rw [PermissionDocument.tuples, foldlM_flatMap]
  simp only [PermissionStatement.tuples, foldlM_flatMap, List.foldlM_map]
  rfl

/-! ### The policy of a tuple -/

def Effect.cedar : Effect → Cedar.Effect
  | .allow => .permit
  | .deny => .forbid

/-- The constraint that `parsePrincipal` writes. -/
def principalScope (principal : String) : Scope :=
  if principal = "*" then .all
  else
    match splitOnce principal ':' with
    | some ("role", id) => .isIn ⟨"AuthRS::Role", id⟩
    | some (_, id) => .eq ⟨"AuthRS::User", id⟩
    | none => .eq ⟨"AuthRS::User", principal⟩

/-- The entity that a wildcard-free resource names. -/
def resourceEntity (resource : String) : EntityUid :=
  ⟨"AuthRS::" ++ Resource.entityType resource, Resource.entityId (splitChar resource '/')⟩

/-- The constraint that `parseResource` writes. -/
def resourceScope (resource : String) : Scope :=
  if Resource.isWildcard resource then .all else .eq (resourceEntity resource)

/-- The condition that a wildcard resource adds. -/
def likeConditions (resource : String) : List Expr :=
  if Resource.isWildcard resource && resource ≠ "*" then
    [.like (.attr .resource "path") (Resource.likeElems resource)]
  else []

/-- The policy of a tuple without conditions. -/
def PolicyTuple.policy (permissionDbId : String) (t : PolicyTuple) : Cedar.Policy where
  id := policyId permissionDbId t
  effect := t.stmt.effect.cedar
  principal := principalScope t.principal
  action := .eq ⟨"AuthRS::Action", t.action⟩
  resource := resourceScope t.resource
  conditions := likeConditions t.resource

theorem parsePrincipal_eq (principal : String) :
    parsePrincipal principal = (principalScope principal).toJson := by
  unfold parsePrincipal principalScope
  split
  · rfl
  · cases hsplit : splitOnce principal ':' with
    | none => rfl
    | some p =>
      obtain ⟨pre, id⟩ := p
      by_cases hrole : pre = "role"
      · subst hrole
        rfl
      · simp only [Option.getD_some]
        rfl

theorem parseResource_eq (resource : String) :
    parseResource resource = (resourceScope resource).toJson := by
  unfold parseResource resourceScope
  split <;> rfl

theorem resourceLikeCondition_eq (resource : String) :
    resourceLikeCondition resource =
      Cedar.whenClause (Expr.like (.attr .resource "path") (Resource.likeElems resource)).toJson := by
  rw [resourceLikeCondition, Resource.likePattern_eq]
  rfl

/-- **A tuple without conditions is written as its policy.** -/
theorem buildCedarJson_eq {t : PolicyTuple} (ht : t.stmt.conditions = []) (permissionDbId : String) :
    buildCedarJson t.stmt t.principal t.action t.resource = (t.policy permissionDbId).toJson := by
  have heffect : (match t.stmt.effect with
      | .allow => "permit"
      | .deny => "forbid") = t.stmt.effect.cedar.text := by
    cases t.stmt.effect <;> rfl
  have hconditions : (if Resource.isWildcard t.resource && t.resource ≠ "*" then
      buildConditions t.stmt.conditions ++ [resourceLikeCondition t.resource]
      else buildConditions t.stmt.conditions) =
      (likeConditions t.resource).map fun e => Cedar.whenClause e.toJson := by
    rw [ht, likeConditions, resourceLikeCondition_eq]
    split <;> rfl
  simp only [buildCedarJson]
  rw [heffect, hconditions, parsePrincipal_eq, parseResource_eq]
  rfl

/-! ### What is compiled -/

theorem isTypeName_role : IsTypeName "AuthRS::Role" := ⟨["AuthRS", "Role"], by decide, by decide, by decide⟩

theorem isTypeName_user : IsTypeName "AuthRS::User" := ⟨["AuthRS", "User"], by decide, by decide, by decide⟩

theorem isTypeName_action : IsTypeName "AuthRS::Action" :=
  ⟨["AuthRS", "Action"], by decide, by decide, by decide⟩

theorem isActionType_action : IsActionType "AuthRS::Action" := ⟨["AuthRS"], by decide, by decide⟩

theorem principalScope_names (principal : String) :
    (principalScope principal).Names IsTypeName := by
  unfold principalScope
  split
  · trivial
  · split
    · exact isTypeName_role
    · exact isTypeName_user
    · exact isTypeName_user

theorem isTypeName_of_mem {T : String} (hT : T ∈ Resource.types) : IsTypeName ("AuthRS::" ++ T) := by
  have hident : ∀ T ∈ Resource.types, Cedar.isIdent T = true ∧
      "AuthRS::" ++ T = Cedar.pathText ["AuthRS", T] := by
    decide
  obtain ⟨hid, htext⟩ := hident T hT
  refine ⟨["AuthRS", T], by simp, ?_, htext⟩
  rw [List.forall_mem_cons, List.forall_mem_singleton]
  exact ⟨by decide, hid⟩

theorem PolicyTuple.policy_valid (permissionDbId : String) (t : PolicyTuple) :
    (t.policy permissionDbId).Valid where
  principal := principalScope_names t.principal
  action := isActionType_action
  resource := by
    change (resourceScope t.resource).Names IsTypeName
    unfold resourceScope
    split
    · trivial
    · exact isTypeName_of_mem (Resource.entityType_mem _)
  conditions := by
    change ∀ e ∈ likeConditions t.resource, e.Valid
    unfold likeConditions
    split
    · exact List.forall_mem_singleton.mpr trivial
    · exact List.forall_mem_nil _

/-- The body of a condition is no expression. -/
theorem not_exprJson_condition (c : Condition) {body : Json}
    (hbody : (buildCondition c).get? "body" = some body) : ¬ Cedar.ExprJson body := by
  have hop : ∃ op : Cedar.CompareOp, body = .object [(op.text, .array
      [.object [("Var", .string (trimStartMatchesStr c.attributeName "context."))],
        .object [("Value", c.value)]])] := by
    unfold buildCondition at hbody
    simp only at hbody
    split at hbody
    · exact ⟨.neq, (Option.some.inj hbody).symm⟩
    · exact ⟨.gt, (Option.some.inj hbody).symm⟩
    · exact ⟨.lt, (Option.some.inj hbody).symm⟩
    · exact ⟨.eq, (Option.some.inj hbody).symm⟩
  obtain ⟨op, rfl⟩ := hop
  exact Cedar.not_exprJson_array op _

/-- A tuple with a condition is written as no policy. -/
theorem not_conditionsJson {t : PolicyTuple} (ht : t.stmt.conditions ≠ []) :
    ¬ Cedar.ConditionsJson (buildCedarJson t.stmt t.principal t.action t.resource) := by
  intro h
  obtain ⟨c, cs, hcs⟩ := List.exists_cons_of_ne_nil ht
  have hin : buildCondition c ∈ buildConditions t.stmt.conditions := by
    rw [hcs, buildConditions]
    exact List.mem_cons_self
  have hmem : buildCondition c ∈ (if Resource.isWildcard t.resource && t.resource ≠ "*" then
      buildConditions t.stmt.conditions ++ [resourceLikeCondition t.resource]
      else buildConditions t.stmt.conditions) := by
    split
    · exact List.mem_append_left _ hin
    · exact hin
  obtain ⟨body, hbody, hexpr⟩ := h _ rfl _ hmem
  exact not_exprJson_condition c hbody hexpr

variable {C}

theorem addTuple_eq_ok (hC : C.ReadsPolicies) {permissionDbId : String} {t : PolicyTuple}
    {set set' : PolicySet} :
    addTuple C permissionDbId set t = .ok set' ↔
      t.stmt.conditions = [] ∧ set.add C.idTaken (t.policy permissionDbId) = .ok set' := by
  by_cases ht : t.stmt.conditions = []
  · have hread := hC.policy_of_json (policyId permissionDbId t) (t.policy permissionDbId)
      (t.policy_valid permissionDbId)
    rw [addTuple, buildCedarJson_eq ht permissionDbId, hread]
    change (set.add C.idTaken (t.policy permissionDbId)).mapError _ = _ ↔ _
    cases set.add C.idTaken (t.policy permissionDbId) with
    | error e => simp [Except.mapError]
    | ok s => simp [Except.mapError, ht]
  · have hrefused : ∀ p, C.policyFromJson (policyId permissionDbId t)
        (buildCedarJson t.stmt t.principal t.action t.resource) ≠ .ok p :=
      fun p hp => not_conditionsJson ht (hC.json_of_policy _ _ p hp)
    rw [addTuple]
    cases hread : C.policyFromJson (policyId permissionDbId t)
        (buildCedarJson t.stmt t.principal t.action t.resource) with
    | error e =>
      refine ⟨fun h => ?_, fun h => absurd h.1 ht⟩
      cases h
    | ok p => exact absurd hread (hrefused p)

theorem foldlM_addTuple_eq_ok (hC : C.ReadsPolicies) {permissionDbId : String}
    {ts : List PolicyTuple} {set set' : PolicySet} :
    ts.foldlM (addTuple C permissionDbId) set = .ok set' ↔
      (∀ t ∈ ts, t.stmt.conditions = []) ∧
        set.addAll C.idTaken (ts.map (PolicyTuple.policy permissionDbId)) = .ok set' := by
  induction ts generalizing set with
  | nil =>
    constructor
    · intro h
      cases h
      exact ⟨List.forall_mem_nil _, rfl⟩
    · rintro ⟨-, h⟩
      cases h
      rfl
  | cons t ts ih =>
    rw [List.foldlM_cons, List.map_cons, PolicySet.addAll, List.foldlM_cons, List.forall_mem_cons]
    cases hadd : set.add C.idTaken (t.policy permissionDbId) with
    | error e =>
      have hnone : ∀ s, addTuple C permissionDbId set t ≠ .ok s := by
        intro s hs
        rw [addTuple_eq_ok hC, hadd] at hs
        cases hs.2
      cases hstep : addTuple C permissionDbId set t with
      | error e' =>
        constructor
        · intro h
          cases h
        · rintro ⟨-, h⟩
          cases h
      | ok s => exact absurd hstep (hnone s)
    | ok s =>
      -- A condition refuses the policy itself; without one only the set can refuse it.
      by_cases ht : t.stmt.conditions = []
      · rw [(addTuple_eq_ok hC).mpr ⟨ht, hadd⟩, and_assoc]
        exact ih.trans ⟨fun h => ⟨ht, h⟩, And.right⟩
      · have hnone : ∀ s, addTuple C permissionDbId set t ≠ .ok s := fun s hs =>
          ht ((addTuple_eq_ok hC).mp hs).1
        cases hstep : addTuple C permissionDbId set t with
        | error e' =>
          constructor
          · intro h
            cases h
          · exact fun h => absurd h.1.1 ht
        | ok s => exact absurd hstep (hnone s)

/-- **When a document compiles, and into which policies**: no statement with a tuple has a
condition, and the ids of the tuples are distinct. -/
theorem compile_eq_ok (hC : C.ReadsPolicies) {doc : PermissionDocument} {permissionDbId : String}
    {set : PolicySet} :
    compile C doc permissionDbId = .ok set ↔
      (∀ t ∈ doc.tuples, t.stmt.conditions = []) ∧
        (doc.tuples.map (policyId permissionDbId)).Nodup ∧
        set.policies = doc.tuples.map (PolicyTuple.policy permissionDbId) := by
  have hids : (doc.tuples.map (PolicyTuple.policy permissionDbId)).map Cedar.Policy.id =
      doc.tuples.map (policyId permissionDbId) := by
    rw [List.map_map]
    rfl
  rw [compile_eq_foldlM, foldlM_addTuple_eq_ok hC, PolicySet.addAll_eq_ok,
    PolicySet.policies_new, List.nil_append, hids]

end Authrs
