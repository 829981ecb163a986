import Authrs.Policy.Conditions
import Authrs.Policy.Declared
import Authrs.Policy.Tuples
import Authrs.Store.World

/-!
# The context of a request

The crate accepts a request when its context is of the type that the schema declares for the action.
The engine passes the context of the request on, as the empty one if it cannot be read, and takes the
refusal for a denial: a request that the policies permit is allowed when its context is accepted, and
denied otherwise. No action of a plain name declares a context, and the context of the permission
middleware has three attributes.

## Main definitions

* `Compiled`: the policies of documents
* `Permitted`: the schema and the policies permit a request
* `TakesContext`: the schema accepts the context of a request
* `ReadsEmpty`: a context is empty to the engine
* `middlewareContext`: the context that `require_permission` builds

## Main results

* `authorize_eq_allow_iff`: when a request is allowed
* `context_ignored_iff`: when two contexts make no difference
* `takesContext_iff_readsEmpty`: without a declared context, only the empty one is accepted
* `middleware_denies`: a request with the context of the middleware is never allowed
-/

namespace Authrs

open Cedar (Crate PolicySet EntityUid Entities Decision)
open Schema

variable {C : Crate}

/-- The entities of a request; what the crate does not accept falls back to none. -/
def requestEntities (C : Crate) (schema : C.Schema) (principal : EntityUid) (roleNames : List String)
    (resource : String) : Entities :=
  (C.entitiesFromEntities
    (buildResourceChain C resource ++ [buildUserEntity C principal roleNames]) schema).getD []

/-- The set is compiled from documents: from one, or from those of some permissions. -/
def Compiled (C : Crate) (set : PolicySet) : Prop :=
  (∃ doc permissionDbId, compile C doc permissionDbId = .ok set) ∨
    ∃ docs, policySetForRoles C docs = .ok set

/-- No condition of a compiled policy mentions the context. -/
theorem PolicyTuple.policy_contextFree (permissionDbId : String) (t : PolicyTuple) :
    (t.policy permissionDbId).ContextFree := by
  change ∀ e ∈ likeConditions t.resource, e.ContextFree
  unfold likeConditions
  split
  · exact List.forall_mem_singleton.mpr (by simp [Cedar.Expr.ContextFree])
  · exact List.forall_mem_nil _

theorem Compiled.contextFree (hP : C.ReadsPolicies) {set : PolicySet} (h : Compiled C set) :
    ∀ p ∈ set.policies, p.ContextFree := by
  intro p hp
  rcases h with ⟨doc, id, hdoc⟩ | ⟨docs, hdocs⟩
  · rw [((compile_eq_ok hP).mp hdoc).2.2] at hp
    obtain ⟨t, -, rfl⟩ := List.mem_map.mp hp
    exact t.policy_contextFree _
  · rw [((policySetForRoles_eq_ok hP).mp hdocs).2.2] at hp
    obtain ⟨d, -, hp⟩ := List.mem_flatMap.mp hp
    obtain ⟨t, -, rfl⟩ := List.mem_map.mp hp
    exact t.policy_contextFree _

/-- **The schema and the policies permit the request**: its action applies to users and to the
resource, a `permit` policy applies to it and no `forbid` policy does. -/
def Permitted (C : Crate) (schema : C.Schema) (set : PolicySet) (userId : Uuid)
    (roleNames : List String) (action resource : String) : Prop :=
  ∃ p a r, userUid C userId = some p ∧ actionUid C action = some a ∧
    resourceRootUid C resource = some r ∧ C.appliesTo schema a p.typeName r.typeName = true ∧
    set.applies .permit ⟨p, a, r, []⟩ (requestEntities C schema p roleNames resource) = true ∧
    set.applies .forbid ⟨p, a, r, []⟩ (requestEntities C schema p roleNames resource) = false

/-- **The schema accepts the context for the action**, as the engine reads it: the empty one, if it
cannot be read. -/
def TakesContext (C : Crate) (schema : C.Schema) (action : String) (context : Json) : Prop :=
  ∀ a, actionUid C action = some a →
    C.acceptsContext schema a ((C.contextFromJson context).getD []) = true

/-- The context is read as the empty record, or not at all. -/
def ReadsEmpty (C : Crate) (context : Json) : Prop := (C.contextFromJson context).getD [] = []

section Decision

variable {text : String} {schema : C.Schema} {set : PolicySet} {userId : Uuid} {roleNames : List String}
  {action resource : String} {context : Json}

/-- A request whose parts can be read. -/
theorem authorize_of_parts (hV : C.Validates) (hA : C.Authorizes)
    (hset : ∀ p ∈ set.policies, p.ContextFree) {p a r : EntityUid} (hp : userUid C userId = some p)
    (ha : actionUid C action = some a) (hr : resourceRootUid C resource = some r) :
    authorize C ⟨userId, roleNames, action, resource, context⟩ set schema = some .allow ↔
      (C.appliesTo schema a p.typeName r.typeName = true ∧
        set.applies .permit ⟨p, a, r, []⟩ (requestEntities C schema p roleNames resource) = true ∧
        set.applies .forbid ⟨p, a, r, []⟩ (requestEntities C schema p roleNames resource) = false) ∧
      C.acceptsContext schema a ((C.contextFromJson context).getD []) = true := by
  unfold authorize
  simp only [hp, ha, hr, hV.request_of_parts]
  by_cases happlies : C.appliesTo schema a p.typeName r.typeName = true
  · by_cases haccepts : C.acceptsContext schema a ((C.contextFromJson context).getD []) = true
    · simp only [happlies, haccepts, Bool.and_self, if_true, Option.some.injEq, and_true, true_and]
      rw [hA, PolicySet.decision_eq_allow]
      -- The policies apply as in the empty context.
      have hcontext := fun effect => PolicySet.applies_context hset effect ⟨p, a, r, []⟩
        (requestEntities C schema p roleNames resource) ((C.contextFromJson context).getD [])
      rw [← hcontext .permit, ← hcontext .forbid]
      rfl
    · simp [haccepts]
  · simp [happlies]

theorem Permitted.of_normal (hU : C.ReadsUids) (haction : Cedar.Normal C.tables action.toList)
    (hresource : Cedar.Normal C.tables (Resource.entityId (splitChar resource '/')).toList)
    (happlies : C.appliesTo schema ⟨"AuthRS::Action", action⟩ "AuthRS::User"
      (resourceEntity resource).typeName = true)
    (hset : ∀ p es,
      set.applies .permit ⟨p, ⟨"AuthRS::Action", action⟩, resourceEntity resource, []⟩ es = true ∧
      set.applies .forbid ⟨p, ⟨"AuthRS::Action", action⟩, resourceEntity resource, []⟩ es = false) :
    Permitted C schema set userId roleNames action resource :=
  ⟨_, _, _, readsUserIds hU userId, actionUid_of_normal hU haction,
    resourceRootUid_of_normal hU hresource, happlies, hset _ _⟩

/-- **When a request is allowed**: the schema and the policies permit it, and the schema accepts its
context. -/
theorem authorize_eq_allow_iff (hV : C.Validates) (hA : C.Authorizes)
    (hset : ∀ p ∈ set.policies, p.ContextFree) :
    authorize C ⟨userId, roleNames, action, resource, context⟩ set schema = some .allow ↔
      Permitted C schema set userId roleNames action resource ∧
        TakesContext C schema action context := by
  constructor
  · intro h
    cases hp : userUid C userId with
    | none => simp [authorize, hp] at h
    | some p =>
      cases hr : resourceRootUid C resource with
      | none => simp [authorize, hp, hr] at h
      | some r =>
        cases ha : actionUid C action with
        | none => simp [authorize, hp, hr, ha] at h
        | some a =>
          obtain ⟨hpermitted, haccepts⟩ := (authorize_of_parts hV hA hset hp ha hr).mp h
          refine ⟨⟨p, a, r, hp, ha, hr, hpermitted⟩, fun a' ha' => ?_⟩
          obtain rfl := Option.some.inj (ha.symm.trans ha')
          exact haccepts
  · rintro ⟨⟨p, a, r, hp, ha, hr, hpermitted⟩, htakes⟩
    exact (authorize_of_parts hV hA hset hp ha hr).mpr ⟨hpermitted, htakes a ha⟩

/-- **Without a declared context only the empty one is accepted**, of a request that is permitted. -/
theorem takesContext_iff_readsEmpty (hS : DeclaresNoContext C schema)
    (h : Permitted C schema set userId roleNames action resource) :
    TakesContext C schema action context ↔ ReadsEmpty C context := by
  obtain ⟨p, a, r, -, ha, -, happlies, -⟩ := h
  rw [ReadsEmpty, ← hS a _ _ _ happlies]
  constructor
  · exact fun htakes => htakes a ha
  · intro haccepts a' ha'
    obtain rfl := Option.some.inj (ha.symm.trans ha')
    exact haccepts

/-- Two requests that differ in their contexts panic alike. -/
theorem authorize_eq_none_iff :
    authorize C ⟨userId, roleNames, action, resource, context⟩ set schema = none ↔
      userUid C userId = none := by
  unfold authorize
  cases userUid C userId with
  | none => simp
  | some p =>
    simp only [reduceCtorEq, iff_false]
    split
    · split <;> exact Option.some_ne_none _
    · exact Option.some_ne_none _

theorem eq_iff_of_none {x y : Option Decision} (h : x = none ↔ y = none) :
    x = y ↔ (x = some .allow ↔ y = some .allow) := by
  rcases x with _ | _ | _ <;> rcases y with _ | _ | _ <;> simp at h ⊢

end Decision

/-- **When two contexts make no difference**: when the schema accepts both of them for the action or
neither, or the schema and the policies do not permit the request. -/
theorem context_ignored_iff (hP : C.ReadsPolicies) (hV : C.Validates) (hA : C.Authorizes)
    (schema : C.Schema) (set : PolicySet) (hset : Compiled C set) (userId : Uuid)
    (roleNames : List String) (action resource : String) (fields fields' : List (String × Json)) :
    authorize C ⟨userId, roleNames, action, resource, .object fields⟩ set schema =
        authorize C ⟨userId, roleNames, action, resource, .object fields'⟩ set schema ↔
      (TakesContext C schema action (.object fields) ↔
          TakesContext C schema action (.object fields')) ∨
        ¬Permitted C schema set userId roleNames action resource := by
  have hfree := hset.contextFree hP
  rw [eq_iff_of_none (authorize_eq_none_iff.trans authorize_eq_none_iff.symm),
    authorize_eq_allow_iff hV hA hfree, authorize_eq_allow_iff hV hA hfree]
  tauto

/-! ### The context of the middleware -/

/-- The context that `require_permission` builds. -/
def middlewareContext (session : SessionPayload) : Json :=
  .object [("actor_type", .string "user"),
    ("mfa_verified", .bool (session.permissions.contains "mfa_verified")),
    ("tenant_id", .string session.tenantId)]

theorem not_readsEmpty_middleware (hR : C.ReadsContexts) (session : SessionPayload) :
    ¬ReadsEmpty C (middlewareContext session) := by
  intro h
  have hread : C.contextFromJson (middlewareContext session) = some
      [("actor_type", .prim (.string "user")),
        ("mfa_verified", .prim (.bool (session.permissions.contains "mfa_verified"))),
        ("tenant_id", .prim (.string session.tenantId))] :=
    hR.context_of_json [("actor_type", .string "user"),
      ("mfa_verified", .bool (session.permissions.contains "mfa_verified")),
      ("tenant_id", .string session.tenantId)] (by simp) (by simp [Cedar.Expr.Valid])
  rw [ReadsEmpty, hread] at h
  cases h

/-- **A request with the context of the middleware is never allowed**, where no context is declared. -/
theorem middleware_denies (hP : C.ReadsPolicies) (hV : C.Validates) (hA : C.Authorizes)
    (hR : C.ReadsContexts) {schema : C.Schema} (hS : DeclaresNoContext C schema)
    (session : SessionPayload) {set : PolicySet} (hset : Compiled C set) (userId : Uuid)
    (roleNames : List String) (action resource : String) :
    authorize C ⟨userId, roleNames, action, resource, middlewareContext session⟩ set schema ≠
      some .allow := by
  rw [Ne, authorize_eq_allow_iff hV hA (hset.contextFree hP)]
  rintro ⟨hpermitted, htakes⟩
  exact not_readsEmpty_middleware hR session ((takesContext_iff_readsEmpty hS hpermitted).mp htakes)

/-! ### A query that everyone may run -/

/-- The policy of a document that allows everyone to run one query. -/
def runSampleSet : PolicySet := ⟨runSample.tuples.map (PolicyTuple.policy "p"), by decide⟩

/-- The schema without packages. -/
def builtinSchema : Cedar.Declarations :=
  let text := buildSchemaStr asciiCase [] []
  ⟨textEntities text, (splitChar text '\n').filterMap lineDecl⟩

theorem builtinSchema_read :
    referenceSchema (buildSchemaStr asciiCase [] []) = .ok builtinSchema := rfl

/-- The resource of the document. -/
def sampleQuery : String := "service:core/package:_default/query:sample"

theorem runSampleSet_compiled : compile Cedar.reference runSample "p" = .ok runSampleSet :=
  (compile_eq_ok Cedar.reference_readsPolicies).mpr ⟨by decide, by decide, rfl⟩

/-- The policy applies to every request to run the query. -/
theorem runSampleSet_applies (p : EntityUid) (es : Entities) :
    runSampleSet.applies .permit
      ⟨p, ⟨"AuthRS::Action", "run"⟩, resourceEntity sampleQuery, []⟩ es = true ∧
    runSampleSet.applies .forbid
      ⟨p, ⟨"AuthRS::Action", "run"⟩, resourceEntity sampleQuery, []⟩ es = false := by
  obtain ⟨t, htuples, ht⟩ : ∃ t : PolicyTuple, runSample.tuples = [t] ∧
      t.stmt.effect = .allow ∧ t.principal = "*" ∧ t.action = "run" ∧ t.resource = sampleQuery :=
    ⟨_, rfl, rfl, rfl, rfl, rfl⟩
  obtain ⟨heffect, hprincipal, haction, hresource⟩ := ht
  have hpolicies : runSampleSet.policies = [t.policy "p"] := by
    change runSample.tuples.map (PolicyTuple.policy "p") = _
    rw [htuples, List.map_singleton]
  have hexact : Resource.isWildcard sampleQuery = false := by decide +kernel
  constructor
  · rw [PolicySet.applies_iff, hpolicies]
    refine ⟨_, List.mem_singleton_self _, by simp [PolicyTuple.policy, heffect, Effect.cedar], ?_⟩
    rw [t.satisfied_policy_iff, PolicyTuple.Matches, hprincipal, haction, hresource]
    simp [principalScope, resourceScope, likeConditions, hexact, Cedar.Scope.holds]
  · rw [PolicySet.applies, hpolicies]
    simp [PolicyTuple.policy, heffect, Effect.cedar]

theorem runSample_permitted (userId : Uuid) :
    Permitted Cedar.reference builtinSchema runSampleSet userId [] "run" sampleQuery := by
  have haction : ∀ c ∈ "run".toList, Cedar.PlainAscii c := Cedar.forall_plainAscii (by decide)
  have hresource : ∀ c ∈ (Resource.entityId (splitChar sampleQuery '/')).toList, Cedar.PlainAscii c :=
    Cedar.forall_plainAscii (by decide +kernel)
  have htypes : (resourceEntity sampleQuery).typeName ∈
      lineTypes (actionLine "run" (appliesTo "[Query]")) := by
    decide +kernel
  have happlies := referenceSchema_appliesTo (List.forall_mem_nil _) (List.forall_mem_nil _)
    builtinSchema_read (.query (by decide)) htypes
  exact .of_normal Cedar.reference_readsUids (Cedar.normal_of_ascii haction)
    (Cedar.normal_of_ascii hresource) happlies runSampleSet_applies

/-- The schema accepts the empty context, and not the one with a flag. -/
theorem context_ignored_iff_query :
    authorize Cedar.reference ⟨0, [], "run", sampleQuery, .object []⟩ runSampleSet builtinSchema =
        authorize Cedar.reference ⟨0, [], "run", sampleQuery,
          .object [("mfa_verified", .bool true)]⟩ runSampleSet builtinSchema ↔
      (TakesContext Cedar.reference builtinSchema "run" (.object []) ↔
        TakesContext Cedar.reference builtinSchema "run" (.object [("mfa_verified", .bool true)])) ∨
        ¬Permitted Cedar.reference builtinSchema runSampleSet 0 [] "run" sampleQuery :=
  context_ignored_iff Cedar.reference_readsPolicies Cedar.reference_validates
    Cedar.reference_authorizes builtinSchema runSampleSet (.inl ⟨_, _, runSampleSet_compiled⟩) 0 []
    "run" sampleQuery [] [("mfa_verified", .bool true)]

/-- Everyone may run the query, but not through the middleware. -/
theorem query_denied_by_middleware :
    compile Cedar.reference runSample "p" = .ok runSampleSet ∧
      (∀ stmt ∈ runSample.statements, stmt.conditions = []) ∧
      referenceSchema (buildSchemaStr asciiCase [] []) = .ok builtinSchema ∧
      authorize Cedar.reference ⟨0, [], "run", sampleQuery, .object []⟩ runSampleSet builtinSchema ≠
        authorize Cedar.reference ⟨0, [], "run", sampleQuery,
          middlewareContext ⟨"acme", 0, 0, [], [], [], [], [], none, none, 0⟩⟩
          runSampleSet builtinSchema := by
  refine ⟨runSampleSet_compiled, by decide, builtinSchema_read, ?_⟩
  have hcompiled : Compiled Cedar.reference runSampleSet := .inl ⟨_, _, runSampleSet_compiled⟩
  have hS : DeclaresNoContext Cedar.reference builtinSchema :=
    reference_readsPlainActions asciiCase [] [] builtinSchema (List.forall_mem_nil _)
      (List.forall_mem_nil _) builtinSchema_read
  have hempty : ReadsEmpty Cedar.reference (.object []) := rfl
  have hpermitted := runSample_permitted 0
  have hallowed := (authorize_eq_allow_iff Cedar.reference_validates Cedar.reference_authorizes
    (hcompiled.contextFree Cedar.reference_readsPolicies)).mpr
      ⟨hpermitted, (takesContext_iff_readsEmpty hS hpermitted).mpr hempty⟩
  rw [hallowed]
  exact (middleware_denies Cedar.reference_readsPolicies Cedar.reference_validates
    Cedar.reference_authorizes Cedar.reference_readsContexts hS _ hcompiled _ _ _ _).symm

end Authrs
