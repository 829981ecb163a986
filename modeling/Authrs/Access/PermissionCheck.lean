import Authrs.Access.TenantOnly
import Authrs.Policy.Decisions
import Authrs.Policy.Principals

/-!
# The permission check, from the tables

What the handler of `/admin/permissions/check` answers, in the words of the rows it reads. The roles
of a user are those that are reachable, along parents in the tenant, from the roles of the user and
of the user's groups; the documents are those of the tenant's permissions that are attached to these
roles. The handler answers when every one of these documents can be read and compiled, and says of
each action whether the documents grant it.

## Main definitions

* `Db.HasRole`, `Db.AttachedDocument`, `Db.AttachedTuple`: the roles and the statements for a user
* `AllowedIn`: a request is allowed, by the rows of a database
* `Answers`: what a response says

## Main results

* `mem_decideEach`: the last resource of an action decides on it
* `adminCheckPermission_iff`: when the handler answers, and what
-/

namespace Authrs

open Interaction Relational
open Cedar (Crate PolicySet)
open Schema

namespace Db

variable (db : Db) (C : Crate) (fromValue : Json → Except String PermissionDocument) (T : String)
  (userId : Uuid)

/-- An effective role of the user has a name that is read as the uid. -/
def HasRole (uid : String) : Prop := ∃ r, db.EffectiveRole T userId r ∧ ReadsRole C r.uid uid

/-- **A document for the user**: it is that of a permission of the tenant that is attached to an
effective role of the user. -/
def AttachedDocument (id : Uuid) (value : Json) : Prop :=
  ∃ r p, db.EffectiveRole T userId r ∧ db.AttachedIn T r p ∧ p.id = id ∧ p.document = some value

/-- A tuple of a document for the user. -/
def AttachedTuple (t : PolicyTuple) : Prop :=
  ∃ id value doc, db.AttachedDocument T userId id value ∧ fromValue value = .ok doc ∧ t ∈ doc.tuples

variable {db C fromValue T userId}

theorem mem_uids_gathered {uid : String} :
    uid ∈ (rolesGathered db T userId).1 ↔ ∃ r, db.EffectiveRole T userId r ∧ r.uid = uid := by
  unfold rolesGathered
  rw [mem_dedupChain, List.mem_insertionSort, List.mem_insertionSort, List.mem_dedup,
    List.mem_dedup, List.mem_map, List.mem_map]
  simp only [effectiveRole_iff]
  constructor
  · rintro (⟨r, hr, huid⟩ | ⟨r, hr, huid⟩)
    · exact ⟨r, .inl hr, huid⟩
    · exact ⟨r, .inr hr, huid⟩
  · rintro ⟨r, hr | hr, huid⟩
    · exact .inl ⟨r, hr, huid⟩
    · exact .inr ⟨r, hr, huid⟩

theorem mem_ids_gathered {id : Uuid} :
    id ∈ (rolesGathered db T userId).2 ↔ ∃ r, db.EffectiveRole T userId r ∧ r.id = id := by
  unfold rolesGathered
  rw [mem_dedupChain, List.mem_dedup, List.mem_dedup, List.mem_map, List.mem_map]
  simp only [effectiveRole_iff]
  constructor
  · rintro (⟨r, hr, hid⟩ | ⟨r, hr, hid⟩)
    · exact ⟨r, .inl hr, hid⟩
    · exact ⟨r, .inr hr, hid⟩
  · rintro ⟨r, hr | hr, hid⟩
    · exact .inl ⟨r, hr, hid⟩
    · exact .inr ⟨r, hr, hid⟩

/-- **The documents that are loaded are the documents for the user.** -/
theorem mem_documentsFor_gathered {x : Uuid × Json} :
    x ∈ db.documentsFor T (rolesGathered db T userId).2 ↔ db.AttachedDocument T userId x.1 x.2 := by
  obtain ⟨id, value⟩ := x
  unfold documentsFor AttachedDocument AttachedIn
  simp only [List.mem_filterMap, Table.mem_select, Bool.and_eq_true, decide_eq_true_eq,
    List.any_eq_true, mem_ids_gathered, Option.map_eq_some_iff, Prod.mk.injEq]
  constructor
  · rintro ⟨p, ⟨hp, hin, rp, hrp, hperm, r, hr, hrole⟩, _, hdoc, rfl, rfl⟩
    exact ⟨r, p, hr, ⟨hp, hin, rp, hrp, hrole.symm, hperm⟩, rfl, hdoc⟩
  · rintro ⟨r, p, hr, ⟨hp, hin, rp, hrp, hrole, hperm⟩, rfl, hdoc⟩
    exact ⟨p, ⟨hp, hin, rp, hrp, hperm, r, hr, hrole.symm⟩, _, hdoc, rfl, rfl⟩

end Db

/-! ### The documents that are loaded -/

section Documents

variable {C : Crate} {fromValue : Json → Except String PermissionDocument}

/-- Reading the rows succeeds when every row can be read, and keeps their order. -/
theorem parseDocuments_eq_ok {rows : List (Uuid × Json)} {docs : List (Uuid × PermissionDocument)} :
    PermissionsRepo.parseDocuments fromValue rows = .ok docs ↔
      List.Forall₂ (fun x d => d.1 = x.1 ∧ fromValue x.2 = .ok d.2) rows docs := by
  induction rows generalizing docs with
  | nil =>
    rw [PermissionsRepo.parseDocuments, List.forall₂_nil_left_iff]
    constructor
    · intro h
      cases h
      rfl
    · rintro rfl
      rfl
  | cons x rows ih =>
    obtain ⟨id, value⟩ := x
    rw [PermissionsRepo.parseDocuments, List.forall₂_cons_left_iff]
    cases hvalue : fromValue value with
    | error e =>
      constructor
      · intro h
        cases h
      · rintro ⟨d, _, ⟨-, hd⟩, -, -⟩
        cases hd
    | ok doc =>
      cases hrows : PermissionsRepo.parseDocuments fromValue rows with
      | error e =>
        constructor
        · intro h
          cases h
        · rintro ⟨d, ds, -, hds, -⟩
          rw [← ih, hrows] at hds
          cases hds
      | ok ds =>
        constructor
        · intro h
          cases h
          exact ⟨(id, doc), ds, ⟨rfl, rfl⟩, ih.mp hrows, rfl⟩
        · rintro ⟨⟨_, d⟩, ds', ⟨rfl, hd⟩, hds, rfl⟩
          rw [← ih, hrows] at hds
          obtain rfl := Except.ok.inj hds
          cases hd
          rfl

variable {db : Db} {T : String} {userId : Uuid}

/-- The tuples of the documents that are loaded are those for the user. -/
theorem tuplesOf_gathered {docs : List (Uuid × PermissionDocument)}
    (h : PermissionsRepo.parseDocuments fromValue
      (db.documentsFor T (rolesGathered db T userId).2) = .ok docs) (t : PolicyTuple) :
    tuplesOf docs t ↔ db.AttachedTuple fromValue T userId t := by
  have hdocs := parseDocuments_eq_ok.mp h
  constructor
  · rintro ⟨d, hd, ht⟩
    obtain ⟨x, hx, -, hvalue⟩ := exists_mem_of_forall₂ hdocs hd
    exact ⟨x.1, x.2, d.2, Db.mem_documentsFor_gathered.mp hx, hvalue, ht⟩
  · rintro ⟨id, value, doc, hattached, hvalue, ht⟩
    have hx : (id, value) ∈ db.documentsFor T (rolesGathered db T userId).2 :=
      Db.mem_documentsFor_gathered.mpr hattached
    obtain ⟨d, hd, -, hvalue'⟩ := exists_mem_of_forall₂ hdocs.flip hx
    obtain rfl := Except.ok.inj (hvalue.symm.trans hvalue')
    exact ⟨d, hd, ht⟩

/-- Every document for the user can be read and compiled. -/
def Db.AllCompile (db : Db) (C : Crate) (fromValue : Json → Except String PermissionDocument)
    (T : String) (userId : Uuid) : Prop :=
  ∀ id value, db.AttachedDocument T userId id value →
    ∃ doc, fromValue value = .ok doc ∧ ∃ set, compile C doc id.hyphenated = .ok set

/-- **The documents make a set of policies when every one of them compiles.** -/
theorem exists_policySet_iff (hP : C.ReadsPolicies) :
    (∃ set, (PermissionsRepo.parseDocuments fromValue
        (db.documentsFor T (rolesGathered db T userId).2) >>= policySetForRoles C) = .ok set) ↔
      db.AllCompile C fromValue T userId := by
  constructor
  · rintro ⟨set, hset⟩ id value hattached
    obtain ⟨docs, hdocs, hcompiled⟩ := bind_eq_ok.mp hset
    have hx : (id, value) ∈ db.documentsFor T (rolesGathered db T userId).2 :=
      Db.mem_documentsFor_gathered.mpr hattached
    obtain ⟨d, hd, rfl, hvalue⟩ := exists_mem_of_forall₂ (parseDocuments_eq_ok.mp hdocs).flip hx
    exact ⟨d.2, hvalue, ((policySetForRoles_eq_ok hP).mp hcompiled).1 d hd⟩
  · intro hall
    have hread : ∀ x ∈ db.documentsFor T (rolesGathered db T userId).2,
        ∃ d : Uuid × PermissionDocument, d.1 = x.1 ∧ fromValue x.2 = .ok d.2 := by
      intro x hx
      obtain ⟨doc, hdoc, -⟩ := hall _ _ (Db.mem_documentsFor_gathered.mp hx)
      exact ⟨(x.1, doc), rfl, hdoc⟩
    obtain ⟨docs, hdocs⟩ := exists_forall₂.mpr hread
    have hcompile : ∀ d ∈ docs, ∃ set, compile C d.2 d.1.hyphenated = .ok set := by
      intro d hd
      obtain ⟨x, hx, hid, hvalue⟩ := exists_mem_of_forall₂ hdocs hd
      obtain ⟨doc, hdoc, hset⟩ := hall _ _ (Db.mem_documentsFor_gathered.mp hx)
      obtain rfl := Except.ok.inj (hdoc.symm.trans hvalue)
      rwa [hid]
    have hids : (docs.map Prod.fst).Nodup := by
      have hsame : docs.map Prod.fst =
          (db.documentsFor T (rolesGathered db T userId).2).map Prod.fst := by
        clear hread hcompile
        generalize db.documentsFor T (rolesGathered db T userId).2 = rows at hdocs
        induction hdocs with
        | nil => rfl
        | cons h _ ih => rw [List.map_cons, List.map_cons, ih, h.1]
      rw [hsame]
      exact db.nodup_documentsFor T _
    refine ⟨⟨_, nodup_permissionPolicies hP hids hcompile⟩, ?_⟩
    rw [parseDocuments_eq_ok.mpr hdocs]
    exact (policySetForRoles_eq_ok hP).mpr ⟨hcompile, nodup_permissionPolicies hP hids hcompile, rfl⟩

end Documents

/-! ### The decisions of the handler -/

section Handler

variable {C : Crate} {schema : C.Schema}

theorem isAllowed_eq (hC : C.ReadsUids) (req : AuthzRequest) (set : PolicySet) :
    isAllowed C schema req set = pure (decide (authorize C req set schema = some .allow)) := by
  have hsome : authorize C req set schema ≠ none := by
    rw [Ne, authorize_eq_none_iff, readsUserIds hC]
    exact Option.some_ne_none _
  unfold isAllowed
  cases hdecision : authorize C req set schema with
  | none => exact absurd hdecision hsome
  | some decision => simp

/-- The decisions on some actions, each on its resource. -/
def decisionsOn (allowed : String → String → Bool) (pairs : List (String × String)) :
    List (String × Bool) :=
  pairs.foldl (fun decisions x => insertDecision decisions x.1 (allowed x.1 x.2)) []

theorem decideEach_eq (hC : C.ReadsUids) (userId : Uuid) (roleNames : List String) (context : Json)
    (set : PolicySet) (pairs : List (String × String)) (decisions : List (String × Bool)) :
    decideEach C schema userId roleNames context set pairs decisions =
      pure (pairs.foldl (fun decisions x => insertDecision decisions x.1
        (authorize C ⟨userId, roleNames, x.1, x.2, context⟩ set schema = some .allow)) decisions) := by
  induction pairs generalizing decisions with
  | nil => rfl
  | cons x pairs ih =>
    obtain ⟨action, resource⟩ := x
    unfold decideEach
    rw [isAllowed_eq hC]
    exact ih _

/-- **The last resource of an action decides on it**, and every action has one decision. -/
theorem mem_decisionsOn {allowed : String → String → Bool} {pairs : List (String × String)}
    {action : String} {b : Bool} :
    (action, b) ∈ decisionsOn allowed pairs ↔
      ∃ resource, pairs.reverse.lookup action = some resource ∧ b = allowed action resource := by
  induction pairs using List.reverseRecOn with
  | nil => simp [decisionsOn]
  | append_singleton pairs x ih =>
    obtain ⟨a, r⟩ := x
    have hstep : decisionsOn allowed (pairs ++ [(a, r)]) =
        insertDecision (decisionsOn allowed pairs) a (allowed a r) := by
      rw [decisionsOn, List.foldl_append]
      rfl
    rw [hstep, insertDecision, List.mem_append, List.mem_filter, ih, List.reverse_append,
      List.reverse_singleton, List.singleton_append]
    by_cases ha : action = a
    · subst ha
      simp
    · have hne : (action == a) = false := beq_false_of_ne ha
      rw [List.lookup_cons, hne]
      simp [ha]

theorem nodup_decisionsOn (allowed : String → String → Bool) (pairs : List (String × String)) :
    ((decisionsOn allowed pairs).map Prod.fst).Nodup := by
  induction pairs using List.reverseRecOn with
  | nil => exact List.nodup_nil
  | append_singleton pairs x ih =>
    have hstep : decisionsOn allowed (pairs ++ [x]) =
        insertDecision (decisionsOn allowed pairs) x.1 (allowed x.1 x.2) := by
      rw [decisionsOn, List.foldl_append]
      rfl
    rw [hstep, insertDecision, List.map_append, List.map_singleton, List.nodup_append]
    refine ⟨ih.sublist (List.filter_sublist.map _), List.nodup_singleton _, ?_⟩
    intro a ha a' ha'
    obtain ⟨d, hd, rfl⟩ := List.mem_map.mp ha
    rw [List.mem_singleton.mp ha']
    simpa using (List.mem_filter.mp hd).2

/-- **A request is allowed, by the rows of a database**: the schema declares the action for the type
of the resource and accepts the context, and the documents for the user grant the request. -/
structure AllowedIn (C : Crate) (fromValue : Json → Except String PermissionDocument)
    (schema : C.Schema) (db : Db) (T : String) (userId : Uuid) (context : Json)
    (action resource : String) : Prop where
  declared : C.appliesTo schema ⟨"AuthRS::Action", action⟩ "AuthRS::User"
    ("AuthRS::" ++ Resource.entityType resource) = true
  context : TakesContext C schema action context
  granted : Granted (db.AttachedTuple fromValue T userId) userId (db.HasRole C T userId) action
    resource

/-- **What a response says**: of one action, whether it is allowed on the resource; or of each of
several actions, whether it is allowed on its own resource, the last one that is listed for it. -/
inductive Answers (allowed : String → String → Prop) (body : CheckPermissionBody)
    (pairs : List (String × String)) : PermissionDecisions → Prop
  | one {action : String} {b : Bool} : body.action = some action →
    (b = true ↔ allowed action body.resource) →
    Answers allowed body pairs (.one body.resource action b)
  | all {decisions : List (String × Bool)} : body.action = none →
    (decisions.map Prod.fst).Nodup →
    (∀ action b, (action, b) ∈ decisions ↔ ∃ resource,
      pairs.reverse.lookup action = some resource ∧ (b = true ↔ allowed action resource)) →
    Answers allowed body pairs (.all body.resource decisions)

/-- What the body asks about: one action, or those of the resource. -/
def CheckPermissionBody.requests (body : CheckPermissionBody) (pairs : List (String × String)) :
    List (String × String) :=
  match body.action with
  | some action => [(action, body.resource)]
  | none => pairs

variable {fromValue : Json → Except String PermissionDocument}

/-- What the handler answers with a set of policies. -/
def responseWith (C : Crate) (schema : C.Schema) (pairs : List (String × String))
    (body : CheckPermissionBody) (roleNames : List String) (set : PolicySet) : PermissionDecisions :=
  let allowed := fun action resource => decide (authorize C
    ⟨body.userId, roleNames, action, resource, body.context.getD (.object [])⟩ set schema =
      some .allow)
  match body.action with
  | some action => .one body.resource action (allowed action body.resource)
  | none => .all body.resource (decisionsOn allowed pairs)

/-- The handler answers with the policies of the documents that it loads. -/
theorem exec_adminCheckPermission (hC : C.ReadsUids) (w : World) (s : State) (tenantId : TenantId)
    (body : CheckPermissionBody) (pairs : List (String × String)) :
    ((adminCheckPermission C fromValue schema (.ok pairs) tenantId body).exec (handle w) s).1 =
      ((PermissionsRepo.parseDocuments fromValue (s.db.documentsFor tenantId.val
        (rolesGathered s.db tenantId.val body.userId).2) >>= policySetForRoles C).mapError
          Failure.error).map
        (responseWith C schema pairs body (rolesGathered s.db tenantId.val body.userId).1) := by
  unfold adminCheckPermission
  rw [Program.bind_eq, Program.exec_bind_ok _ (exec_gatherRoles w _ _)]
  simp only
  rw [Program.bind_eq, Program.exec_bind, exec_getPolicySetForRoles]
  cases PermissionsRepo.parseDocuments fromValue (s.db.documentsFor tenantId.val
      (rolesGathered s.db tenantId.val body.userId).2) >>= policySetForRoles C with
  | error e => rfl
  | ok set =>
    simp only [Except.mapError, Except.map]
    unfold responseWith
    cases body.action with
    | some action =>
      simp only [isAllowed_eq hC]
      rfl
    | none =>
      simp only [decideEach_eq hC]
      rfl

/-- The engine decides by the rows. -/
theorem authorize_iff_allowedIn (hC : C.ReadsUids) (hV : C.Validates) (hA : C.Authorizes)
    (hS : AuthrsSchema C schema) {db : Db} {T : String}
    {userId : Uuid} {context : Json} {docs : List (Uuid × PermissionDocument)} {set : PolicySet}
    (hdocs : PermissionsRepo.parseDocuments fromValue
      (db.documentsFor T (rolesGathered db T userId).2) = .ok docs)
    (hset : set.policies = docs.flatMap permissionPolicies) {action resource : String}
    (haction : ∀ c ∈ action.toList, PlainChar C c)
    (hresource : ∀ c ∈ resource.toList, PlainChar C c) :
    authorize C ⟨userId, (rolesGathered db T userId).1, action, resource, context⟩ set schema =
        some .allow ↔
      AllowedIn C fromValue schema db T userId context action resource := by
  have hroles : AuthzRequest.HasRole C
      ⟨userId, (rolesGathered db T userId).1, action, resource, context⟩ = db.HasRole C T userId := by
    funext uid
    apply propext
    constructor
    · rintro ⟨name, hname, hread⟩
      obtain ⟨r, hr, rfl⟩ := Db.mem_uids_gathered.mp hname
      exact ⟨r, hr, hread⟩
    · rintro ⟨r, hr, hread⟩
      exact ⟨r.uid, Db.mem_uids_gathered.mpr ⟨r, hr, rfl⟩, hread⟩
  have htuples : tuplesOf docs = db.AttachedTuple fromValue T userId :=
    funext fun t => propext (tuplesOf_gathered hdocs t)
  have hplain : AuthzRequest.Plain C
      ⟨userId, (rolesGathered db T userId).1, action, resource, context⟩ := ⟨haction, hresource⟩
  rw [authorize_iff_granted hC hV hA hS hplain hset, hroles, htuples]
  constructor
  · rintro ⟨hdeclared, hcontext, hgranted⟩
    exact ⟨hdeclared, hcontext, hgranted⟩
  · rintro ⟨hdeclared, hcontext, hgranted⟩
    exact ⟨hdeclared, hcontext, hgranted⟩

/-- **When the handler answers, and what**: when every document for the user can be read and
compiled; and then as the rows of the database say. -/
theorem adminCheckPermission_iff (hC : C.ReadsUids) (hP : C.ReadsPolicies) (hV : C.Validates)
    (hA : C.Authorizes) (U : CaseTable) (parseSchema : SchemaParser C.Schema)
    (packageTables customActions : List (String × String))
    (hS : ReadsEntityLines C parseSchema (buildSchemaStr U packageTables customActions))
    (hschema : parseSchema (buildSchemaStr U packageTables customActions) = .ok schema)
    (fromValue : Json → Except String PermissionDocument) (w : World) (s : State)
    (tenantId : TenantId) (body : CheckPermissionBody) (pairs : List (String × String))
    (hplain : ∀ x ∈ body.requests pairs, (∀ c ∈ x.1.toList, PlainChar C c) ∧
      ∀ c ∈ x.2.toList, PlainChar C c) :
    ((∃ answer, ((adminCheckPermission C fromValue schema (.ok pairs) tenantId body).exec
        (handle w) s).1 = .ok answer) ↔ s.db.AllCompile C fromValue tenantId.val body.userId) ∧
      ∀ answer, ((adminCheckPermission C fromValue schema (.ok pairs) tenantId body).exec
        (handle w) s).1 = .ok answer →
          Answers (AllowedIn C fromValue schema s.db tenantId.val body.userId
            (body.context.getD (.object []))) body pairs answer := by
  rw [exec_adminCheckPermission hC]
  cases hset : PermissionsRepo.parseDocuments fromValue (s.db.documentsFor tenantId.val
      (rolesGathered s.db tenantId.val body.userId).2) >>= policySetForRoles C with
  | error e =>
    have hnone : ¬ s.db.AllCompile C fromValue tenantId.val body.userId := by
      rw [← exists_policySet_iff hP, hset]
      exact nofun
    exact ⟨⟨nofun, fun h => absurd h hnone⟩, nofun⟩
  | ok set =>
    have hall : s.db.AllCompile C fromValue tenantId.val body.userId :=
      (exists_policySet_iff hP).mp ⟨set, hset⟩
    refine ⟨⟨fun _ => hall, fun _ => ⟨_, rfl⟩⟩, ?_⟩
    rintro _ ⟨⟩
    obtain ⟨docs, hdocs, hcompiled⟩ := bind_eq_ok.mp hset
    have hpolicies := ((policySetForRoles_eq_ok hP).mp hcompiled).2.2
    -- Each decision is that of the documents, by the meaning of the merged set.
    have hdecide : ∀ x ∈ body.requests pairs, (authorize C ⟨body.userId,
        (rolesGathered s.db tenantId.val body.userId).1, x.1, x.2, body.context.getD (.object [])⟩
          set schema = some .allow ↔
        AllowedIn C fromValue schema s.db tenantId.val body.userId
          (body.context.getD (.object [])) x.1 x.2) := fun x hx =>
      authorize_iff_allowedIn hC hV hA (hS _ hschema) hdocs hpolicies (hplain x hx).1 (hplain x hx).2
    unfold responseWith
    unfold CheckPermissionBody.requests at hdecide
    cases haction : body.action with
    | some action =>
      rw [haction] at hdecide
      refine .one haction ?_
      rw [decide_eq_true_iff]
      exact hdecide (action, body.resource) (List.mem_singleton_self _)
    | none =>
      rw [haction] at hdecide
      refine .all haction (nodup_decisionsOn _ _) fun action b => ?_
      rw [mem_decisionsOn]
      refine exists_congr fun resource => and_congr_right fun hlookup => ?_
      -- Of two lines for one action the last one counts.
      have hmem : (action, resource) ∈ pairs := by
        obtain ⟨newer, older, hpairs, -⟩ := List.lookup_eq_some_iff.mp hlookup
        rw [← List.mem_reverse, hpairs]
        exact List.mem_append_right _ List.mem_cons_self
      rw [← hdecide (action, resource) hmem, Bool.eq_iff_iff, decide_eq_true_iff]

end Handler

/-! ### A trainee -/

/-- The clerk's role, and the trainee's below it. -/
def clerkRole : RoleRow := ⟨1, "acme", "Clerk", "clerk", none⟩

def traineeRole : RoleRow := ⟨2, "acme", "Trainee", "trainee", some 1⟩

/-- The permission of clerks. -/
def clerksPermission : PermissionRow := ⟨1, "acme", "clerks", none, some clerksButOne.toValue⟩

/-- User 5 is a trainee of acme. -/
def traineeOfAcme : State :=
  .ofDb { Db.empty with
    roles := ⟨[clerkRole, traineeRole], by decide⟩
    userRoles := .single ⟨5, 2⟩
    permissions := .single clerksPermission
    rolePermissions := .single ⟨1, 1⟩ } 0

/-- Trainees are clerks. -/
theorem trainee_clerk : traineeOfAcme.db.EffectiveRole "acme" 5 clerkRole := by
  refine ⟨traineeRole, .inl ⟨?_, rfl, ⟨5, 2⟩, List.mem_singleton_self _, rfl, rfl⟩, .single ?_⟩
  · exact List.mem_cons_of_mem _ (List.mem_singleton_self _)
  · exact ⟨List.mem_cons_self, rfl, rfl⟩

theorem attachedDocument_trainee :
    traineeOfAcme.db.AttachedDocument "acme" 5 1 clerksButOne.toValue :=
  ⟨clerkRole, clerksPermission, trainee_clerk, ⟨List.mem_singleton_self _, rfl, ⟨1, 1⟩,
    List.mem_singleton_self _, rfl, rfl⟩, rfl, rfl⟩

/-- The only permission is that of clerks. -/
theorem eq_of_attachedDocument {userId id : Uuid} {value : Json}
    (h : traineeOfAcme.db.AttachedDocument "acme" userId id value) : id = 1 := by
  obtain ⟨r, p, -, ⟨hp, -⟩, rfl, -⟩ := h
  rw [List.mem_singleton.mp hp]
  rfl

/-- The trainee inherits the permission of clerks. -/
theorem adminCheckPermission_iff_trainee :
    ((adminCheckPermission Cedar.reference (fun _ => .ok clerksButOne) builtinSchema (.ok []) acme
      ⟨5, sampleQuery, some "run", none⟩).exec (handle .offline) traineeOfAcme).1 =
        .ok (.one sampleQuery "run" true) := by
  have hplain : ∀ x ∈ [("run", sampleQuery)], (∀ c ∈ x.1.toList, PlainChar Cedar.reference c) ∧
      ∀ c ∈ x.2.toList, PlainChar Cedar.reference c := by
    rw [List.forall_mem_singleton]
    exact ⟨(runsSample_plain 5).action, (runsSample_plain 5).resource⟩
  obtain ⟨hanswers, hsays⟩ := adminCheckPermission_iff Cedar.reference_readsUids
    Cedar.reference_readsPolicies Cedar.reference_validates Cedar.reference_authorizes asciiCase
    referenceSchema [] [] (reference_readsEntityLines asciiCase _ _) builtinSchema_read
    (fun _ => .ok clerksButOne) .offline traineeOfAcme acme ⟨5, sampleQuery, some "run", none⟩ [] hplain
  have hall : traineeOfAcme.db.AllCompile Cedar.reference (fun _ => .ok clerksButOne) "acme" 5 := by
    intro id value hattached
    rw [eq_of_attachedDocument hattached]
    exact ⟨clerksButOne, rfl, clerksButOneSet, clerksButOne_compiles⟩
  have hallowed : AllowedIn Cedar.reference (fun _ => .ok clerksButOne) builtinSchema
      traineeOfAcme.db "acme" 5 (.object []) "run" sampleQuery := by
    have htuple : ∀ t, traineeOfAcme.db.AttachedTuple (fun _ => .ok clerksButOne) "acme" 5 t ↔
        tuplesOf [(1, clerksButOne)] t := by
      intro t
      constructor
      · rintro ⟨_, _, doc, -, hdoc, ht⟩
        obtain rfl := Except.ok.inj hdoc
        exact ⟨_, List.mem_singleton_self _, ht⟩
      · rintro ⟨d, hd, ht⟩
        rw [List.mem_singleton.mp hd] at ht
        exact ⟨1, _, clerksButOne, attachedDocument_trainee, rfl, ht⟩
    refine ⟨appliesTo_sampleQuery, fun _ _ => rfl, ?_, ?_⟩
    · refine ⟨_, (htuple _).mpr (mem_tuplesOf_clerksButOne.mpr (.inl rfl)), rfl, ?_, rfl,
        resourceMatches_sampleQuery⟩
      exact .role (by decide) ⟨clerkRole, trainee_clerk, (readsRole_of_normal
        Cedar.reference_readsUids (Cedar.normal_of_ascii (Cedar.forall_plainAscii (by decide)))
          _).mpr rfl⟩
    · intro t ht hdeny hconcerns
      rcases mem_tuplesOf_clerksButOne.mp ((htuple t).mp ht) with rfl | rfl
      · cases hdeny
      · exact absurd (eq_seven_of_principal hconcerns.principal) (by decide)
  obtain ⟨answer, hanswer⟩ := hanswers.mpr hall
  rw [hanswer]
  cases hsays answer hanswer with
  | one haction hb =>
    obtain rfl := Option.some.inj haction
    rw [hb.mpr hallowed]
  | all haction _ _ => cases haction

end Authrs
