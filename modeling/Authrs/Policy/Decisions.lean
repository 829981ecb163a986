import Authrs.Policy.Contexts
import Authrs.Policy.Entities

/-!
# What documents mean

The decision on a request, in the words of the documents. A statement concerns a request when one
of its principals stands for the user or for a role of the user, one of its actions is the action,
and one of its resources is the resource or covers its path. A request is allowed when some statement
that allows concerns it and no statement that denies does, as far as the schema declares the action
for the type of the resource and accepts the context.

The policies and the entities of a request are written by two parts of the program, one in JSON and
one in texts that are parsed. They agree on the texts of plain characters.

## Main definitions

* `PrincipalMatches`, `ResourceMatches`, `PolicyTuple.Concerns`: a statement concerns a request
* `Granted`: some statement allows and none denies
* `AuthzRequest.Plain`: a request of plain characters

## Main results

* `requestEntities_of_plain`: the crate accepts the entities of such a request
* `PolicyTuple.matches_iff`: a compiled policy applies when its statement concerns the request
* `decision_iff`: when the documents of some permissions allow a request
-/

namespace Authrs

open Cedar (Crate PolicySet EntityUid Entity Entities Scope)
open Cedar.Crate (uidText)
open Schema

/-! ### The meaning of a statement -/

/-- **A principal of a document stands for the user**: everyone, one of the user's roles, or the
user's own id under any other prefix, or under none. -/
inductive PrincipalMatches (userId : Uuid) (hasRole : String → Prop) : String → Prop
  | everyone : PrincipalMatches userId hasRole "*"
  | role {principal uid : String} : splitOnce principal ':' = some ("role", uid) → hasRole uid →
    PrincipalMatches userId hasRole principal
  | user {principal pre : String} : splitOnce principal ':' = some (pre, userId.hyphenated) →
    pre ≠ "role" → PrincipalMatches userId hasRole principal
  | bare : PrincipalMatches userId hasRole userId.hyphenated

/-- **A resource of a document is the resource of a request**, or covers its path. Paths are compared
by the type of their last segment and without the prefixes of their segments. -/
def ResourceMatches (pattern resource : String) : Prop :=
  if Resource.isWildcard pattern then Resource.Covers pattern.toList resource.toList
  else Resource.entityType pattern = Resource.entityType resource ∧
    (splitChar pattern '/').map Resource.stripPrefix =
      (splitChar resource '/').map Resource.stripPrefix

/-- **The tuple concerns a request.** -/
structure PolicyTuple.Concerns (t : PolicyTuple) (userId : Uuid) (hasRole : String → Prop)
    (action resource : String) : Prop where
  principal : PrincipalMatches userId hasRole t.principal
  action : t.action = action
  resource : ResourceMatches t.resource resource

/-- **A request is granted** by some tuples: one that allows concerns it, and none that denies. -/
structure Granted (tuples : PolicyTuple → Prop) (userId : Uuid) (hasRole : String → Prop)
    (action resource : String) : Prop where
  allowed : ∃ t, tuples t ∧ t.stmt.effect = .allow ∧ t.Concerns userId hasRole action resource
  undenied : ∀ t, tuples t → t.stmt.effect = .deny → ¬ t.Concerns userId hasRole action resource

theorem PrincipalMatches.congr {userId : Uuid} {hasRole hasRole' : String → Prop}
    (h : ∀ uid, hasRole uid ↔ hasRole' uid) {principal : String} :
    PrincipalMatches userId hasRole principal ↔ PrincipalMatches userId hasRole' principal := by
  rw [show hasRole = hasRole' from funext fun uid => propext (h uid)]

/-! ### Requests of plain characters -/

/-- The character prints and has no escape sequence, at the beginning of a text or later. -/
def PlainChar (C : Crate) (c : Char) : Prop :=
  Cedar.Plain C.tables c ∧ C.tables.graphemeExtend c = false

theorem normal_of_plainChar {C : Crate} {cs : List Char} (h : ∀ c ∈ cs, PlainChar C c) :
    Cedar.Normal C.tables cs where
  plain c hc := (h c hc).1
  head c hc := (h c (List.mem_of_mem_head? hc)).2

theorem plainChar_of_ascii {C : Crate} {c : Char} (h : Cedar.PlainAscii c) : PlainChar C c :=
  have htables := C.tables.ascii c h.2.1 h.2.2
  ⟨⟨h.1, htables.1⟩, htables.2⟩

/-- The action and the resource of the request have plain characters. -/
structure AuthzRequest.Plain (C : Crate) (req : AuthzRequest) : Prop where
  action : ∀ c ∈ req.action.toList, PlainChar C c
  resource : ∀ c ∈ req.resource.toList, PlainChar C c

theorem mem_joinStr {parts : List String} {c d : Char} (h : c ∈ (joinStr parts d).toList) :
    c = d ∨ ∃ s ∈ parts, c ∈ s.toList := by
  rw [joinStr, String.toList_ofList] at h
  induction parts with
  | nil => cases h
  | cons s parts ih =>
    cases parts with
    | nil =>
      rw [List.map_singleton, List.intercalate_singleton] at h
      exact .inr ⟨s, List.mem_singleton_self s, h⟩
    | cons s' parts =>
      rw [List.map_cons, List.map_cons, List.intercalate_cons_cons, ← List.map_cons] at h
      rcases List.mem_append.mp h with h | h
      · rcases List.mem_append.mp h with h | h
        · exact .inr ⟨s, List.mem_cons_self, h⟩
        · exact .inl (List.mem_singleton.mp h)
      · obtain hd | ⟨x, hx, hc⟩ := ih h
        · exact .inl hd
        · exact .inr ⟨x, List.mem_cons_of_mem _ hx, hc⟩

theorem mem_joinStr_of_mem {parts : List String} {c d : Char} {s : String} (hs : s ∈ parts)
    (hc : c ∈ s.toList) : c ∈ (joinStr parts d).toList := by
  rw [joinStr, String.toList_ofList]
  induction parts with
  | nil => cases hs
  | cons s' parts ih =>
    cases parts with
    | nil =>
      obtain rfl := List.mem_singleton.mp hs
      rwa [List.map_singleton, List.intercalate_singleton]
    | cons s'' parts =>
      rw [List.map_cons, List.map_cons, List.intercalate_cons_cons, ← List.map_cons]
      rcases List.mem_cons.mp hs with rfl | hs
      · exact List.mem_append_left _ (List.mem_append_left _ hc)
      · exact List.mem_append_right _ (ih hs)

/-- A segment has the characters of its path. -/
theorem mem_of_mem_splitChar {s x : String} {c d : Char} (hx : x ∈ splitChar s d)
    (hc : c ∈ x.toList) : c ∈ s.toList := by
  rw [← joinStr_splitChar s d]
  exact mem_joinStr_of_mem hx hc

theorem mem_of_mem_stripPrefix {segment : String} {c : Char}
    (h : c ∈ (Resource.stripPrefix segment).toList) : c ∈ segment.toList := by
  unfold Resource.stripPrefix at h
  cases hsplit : splitOnce segment ':' with
  | none => rwa [hsplit] at h
  | some p =>
    obtain ⟨a, b⟩ := p
    rw [hsplit] at h
    rw [(splitOnce_eq_some.mp hsplit).1]
    exact List.mem_append_right _ (List.mem_cons_of_mem _ h)

/-- The id of a prefix of a plain path is plain. -/
theorem plain_entityId {C : Crate} {resource : String} (hresource : ∀ c ∈ resource.toList, PlainChar C c)
    {segments : List String} (hsub : segments ⊆ splitChar resource '/') :
    ∀ c ∈ (Resource.entityId segments).toList, PlainChar C c := by
  intro c hc
  obtain rfl | ⟨x, hx, hcx⟩ := mem_joinStr hc
  · exact plainChar_of_ascii (by decide)
  · obtain ⟨segment, hsegment, rfl⟩ := List.mem_map.mp hx
    exact hresource c (mem_of_mem_splitChar (hsub hsegment) (mem_of_mem_stripPrefix hcx))

variable {C : Crate}

/-! ### The entities of a plain request -/

/-- The entity of a prefix of a path. -/
def prefixEntity (segments : List String) : EntityUid :=
  ⟨"AuthRS::" ++ prefixType segments, Resource.entityId segments⟩

theorem prefixEntity_splitChar (resource : String) :
    prefixEntity (splitChar resource '/') = resourceEntity resource := by
  have hlast : (splitChar resource '/').getLast?.getD resource =
      (splitChar resource '/').getLastD "" := by
    rw [List.getLastD_eq_getLast?, List.getLast?_eq_some_getLast (splitChar_ne_nil resource '/')]
    rfl
  rw [prefixEntity, prefixType, resourceEntity, Resource.entityType, hlast]

section Plain

variable {resource : String} (hresource : ∀ c ∈ resource.toList, PlainChar C c)

include hresource

theorem prefixUid_of_plain (hC : C.ReadsUids) {segments : List String}
    (hsub : segments ⊆ splitChar resource '/') :
    prefixUid C segments = some (prefixEntity segments) :=
  hC.of_normal (isTypeName_of_mem (prefixType_mem segments))
    (normal_of_plainChar (plain_entityId hresource hsub))

/-- An entity of the chain, with its path and its parents. -/
theorem mem_buildResourceChain (hC : C.ReadsUids) (hV : C.Validates) {e : Entity}
    (he : e ∈ buildResourceChain C resource) : ∃ segments, e.uid = prefixEntity segments ∧
      e.attrs = [("path", .prim (.string (joinStr segments '/')))] ∧
      ∀ q ∈ e.parents, ∃ shorter, q = prefixEntity shorter ∧
        Resource.allowsParent (prefixType segments) (prefixType shorter) = true := by
  have hsub : ∀ s ∈ (splitChar resource '/').inits.tail, s ⊆ splitChar resource '/' :=
    fun s hs => ((List.mem_inits _ _).mp (List.mem_of_mem_tail hs)).subset
  obtain ⟨segments, hsegments, huid, hattrs, hparents⟩ :=
    (buildResourceChain_chainOf (distinguishesUids hC) hV resource).entity e he
  rw [prefixUid_of_plain hresource hC (hsub _ hsegments), Option.some.injEq] at huid
  refine ⟨segments, huid.symm, hattrs, fun q hq => ?_⟩
  obtain ⟨shorter, hshorter, hq, hallowed⟩ := hparents q hq
  rw [prefixUid_of_plain hresource hC (hsub _ hshorter), Option.some.injEq] at hq
  exact ⟨shorter, hq.symm, hallowed⟩

end Plain

/-- The name of a role is read as the text of a uid. -/
def ReadsRole (C : Crate) (name uid : String) : Prop :=
  C.uidFromStr (uidText "AuthRS::Role" name) = some ⟨"AuthRS::Role", uid⟩

/-- A name that is displayed as it is is read as it stands. -/
theorem readsRole_of_normal (hC : C.ReadsUids) {name : String}
    (hname : Cedar.Normal C.tables name.toList) (uid : String) :
    ReadsRole C name uid ↔ name = uid := by
  rw [ReadsRole, hC.of_normal isTypeName_role hname, Option.some.injEq, EntityUid.mk.injEq]
  exact and_iff_right rfl

/-- One of the role names of the request is read as the uid. -/
def AuthzRequest.HasRole (C : Crate) (req : AuthzRequest) (uid : String) : Prop :=
  ∃ name ∈ req.roleNames, ReadsRole C name uid

theorem mem_roleUids {roleNames : List String} {uid : String} :
    (⟨"AuthRS::Role", uid⟩ : EntityUid) ∈ roleUids C roleNames ↔
      ∃ name ∈ roleNames, ReadsRole C name uid :=
  List.mem_filterMap

/-- The entities of a plain request, as they are written. -/
def plainEntities (C : Crate) (req : AuthzRequest) : Entities :=
  buildResourceChain C req.resource ++
    [buildUserEntity C ⟨"AuthRS::User", req.userId.hyphenated⟩ req.roleNames]

variable {req : AuthzRequest}

/-- The entity of a resource is neither a user's nor a role's. -/
theorem prefixEntity_ne (segments : List String) (id : String) :
    prefixEntity segments ≠ ⟨"AuthRS::User", id⟩ ∧ prefixEntity segments ≠ ⟨"AuthRS::Role", id⟩ := by
  obtain ⟨huser, hrole⟩ := resourceType_ne (prefixType_mem segments)
  exact ⟨fun h => huser (congrArg EntityUid.typeName h),
    fun h => hrole (congrArg EntityUid.typeName h)⟩

theorem user_ne_role (id uid : String) :
    (⟨"AuthRS::User", id⟩ : EntityUid) ≠ ⟨"AuthRS::Role", uid⟩ := by
  intro h
  have htype : "AuthRS::User" = "AuthRS::Role" := congrArg EntityUid.typeName h
  exact absurd htype (by decide)

/-- No entity is given twice. -/
theorem nodup_plainEntities (hC : C.ReadsUids) (hV : C.Validates) (hreq : req.Plain C) :
    ((plainEntities C req).map Entity.uid).Nodup := by
  rw [plainEntities, List.map_append, List.map_singleton, List.nodup_append]
  refine ⟨(buildResourceChain_chainOf (distinguishesUids hC) hV req.resource).nodup, List.nodup_singleton _, ?_⟩
  intro u hu v hv
  obtain ⟨e, he, rfl⟩ := List.mem_map.mp hu
  obtain ⟨segments, huid, -⟩ := mem_buildResourceChain hreq.resource hC hV he
  rw [List.mem_singleton.mp hv, huid]
  exact (prefixEntity_ne segments _).1

theorem wellFounded_plainEntities (hC : C.ReadsUids) (hV : C.Validates) (hreq : req.Plain C) :
    Crate.WellFounded (plainEntities C req) := by
  have hchain : Crate.WellFounded (buildResourceChain C req.resource) :=
    (buildResourceChain_chainOf (distinguishesUids hC) hV req.resource).wellFounded
  apply hchain.snoc
  · intro e he
    obtain ⟨segments, huid, -⟩ := mem_buildResourceChain hreq.resource hC hV he
    rw [huid]
    exact (prefixEntity_ne segments _).1
  · intro e he hparent
    obtain ⟨segments, -, -, hparents⟩ := mem_buildResourceChain hreq.resource hC hV he
    obtain ⟨shorter, hq, -⟩ := hparents _ hparent
    exact (prefixEntity_ne shorter _).1 hq.symm
  · intro hparent
    have hrole : (⟨"AuthRS::User", req.userId.hyphenated⟩ : EntityUid) ∈
        roleUids C req.roleNames := hparent
    have htype : "AuthRS::User" = "AuthRS::Role" := roleUids_typeName (distinguishesUids hC) hrole
    exact absurd htype (by decide)

/-- **The crate accepts the entities of a plain request.** -/
theorem requestEntities_of_plain (hC : C.ReadsUids) (hV : C.Validates) {schema : C.Schema}
    (hS : AuthrsSchema C schema) (hreq : req.Plain C) :
    requestEntities C schema ⟨"AuthRS::User", req.userId.hyphenated⟩ req.roleNames req.resource =
      plainEntities C req := by
  have haccepted : C.entitiesFromEntities (plainEntities C req) schema =
      some (plainEntities C req) := by
    refine hV.entities_of_list _ _ (fun e he => ?_) (nodup_plainEntities hC hV hreq)
      (wellFounded_plainEntities hC hV hreq)
    rcases List.mem_append.mp he with he | he
    · obtain ⟨segments, huid, hattrs, hparents⟩ := mem_buildResourceChain hreq.resource hC hV he
      have hentity : e = ⟨prefixEntity segments,
          [("path", .prim (.string (joinStr segments '/')))], e.parents⟩ := by
        rw [← huid, ← hattrs]
      rw [hentity]
      refine hS.resource _ (prefixType_mem segments) _ _ _ fun q hq => ?_
      obtain ⟨shorter, rfl, hallowed⟩ := hparents q hq
      exact ⟨_, declaredParents_of_allowsParent hallowed, rfl⟩
    · obtain rfl := List.mem_singleton.mp he
      exact hS.user _ _ fun q hq =>
        ⟨"Role", role_mem_declaredParents, roleUids_typeName (distinguishesUids hC) hq⟩
  change (C.entitiesFromEntities (plainEntities C req) schema).getD [] = _
  rw [haccepted, Option.getD_some]

/-- The resource of the request has its path. -/
theorem path_plainEntities (hC : C.ReadsUids) (hV : C.Validates) (hreq : req.Plain C) :
    (plainEntities C req).attr (resourceEntity req.resource) "path" =
      some (.prim (.string req.resource)) := by
  have hroot : resourceRootUid C req.resource = some (resourceEntity req.resource) := by
    rw [resourceRootUid_eq_prefixUid, prefixUid_of_plain hreq.resource hC (List.Subset.refl _),
      prefixEntity_splitChar]
  obtain ⟨parents, hlast⟩ := buildResourceChain_getLast hV hroot
  have hmem : ⟨resourceEntity req.resource, [("path", .prim (.string req.resource))], parents⟩ ∈
      plainEntities C req := List.mem_append_left _ (List.mem_of_getLast? hlast)
  -- No other entity has its identity.
  have hfind : (plainEntities C req).find? (fun e => e.uid = resourceEntity req.resource) =
      some ⟨resourceEntity req.resource, [("path", .prim (.string req.resource))], parents⟩ := by
    cases hfound : (plainEntities C req).find? fun e => e.uid = resourceEntity req.resource with
    | none => exact absurd (decide_eq_true rfl) (List.find?_eq_none.mp hfound _ hmem)
    | some e =>
      have huid : e.uid = resourceEntity req.resource := by
        simpa using List.find?_some hfound
      rw [List.inj_on_of_nodup_map (nodup_plainEntities hC hV hreq) (List.mem_of_find?_eq_some hfound)
        hmem huid]
  rw [Entities.attr, hfind]
  rfl

/-- Nothing is above a role. -/
theorem reaches_of_role (hC : C.ReadsUids) (hV : C.Validates) (hreq : req.Plain C) (n : Nat)
    {p q : EntityUid} (hp : p.typeName = "AuthRS::Role") :
    (plainEntities C req).reaches n p q = true ↔ p = q := by
  -- A role is no entity of the request.
  have hnone : ∀ e ∈ plainEntities C req, e.uid ≠ p := by
    obtain ⟨T, uid⟩ := p
    obtain rfl : T = "AuthRS::Role" := hp
    intro e he
    rcases List.mem_append.mp he with he | he
    · obtain ⟨segments, huid, -⟩ := mem_buildResourceChain hreq.resource hC hV he
      rw [huid]
      exact (prefixEntity_ne segments _).2
    · obtain rfl := List.mem_singleton.mp he
      exact user_ne_role _ _
  cases n with
  | zero => exact decide_eq_true_iff
  | succ n =>
    have hany : (plainEntities C req).any (fun e => e.uid = p &&
        e.parents.any fun p' => (plainEntities C req).reaches n p' q) = false := by
      rw [List.any_eq_false]
      intro e he
      simp [hnone e he]
    rw [Entities.reaches, hany, Bool.or_false]
    exact decide_eq_true_iff

/-- **The user is in the roles of the request** and in no other role. -/
theorem isIn_plainEntities (hC : C.ReadsUids) (hV : C.Validates) (hreq : req.Plain C) (uid : String) :
    (plainEntities C req).isIn ⟨"AuthRS::User", req.userId.hyphenated⟩ ⟨"AuthRS::Role", uid⟩ = true ↔
      req.HasRole C uid := by
  have hlength : (plainEntities C req).length = (buildResourceChain C req.resource).length + 1 := by
    rw [plainEntities, List.length_append, List.length_singleton]
  rw [AuthzRequest.HasRole, ← mem_roleUids, Entities.isIn, hlength, Entities.reaches, decide_eq_false (user_ne_role _ _),
    Bool.false_or, List.any_eq_true]
  constructor
  · rintro ⟨e, he, hstep⟩
    rw [Bool.and_eq_true, decide_eq_true_eq, List.any_eq_true] at hstep
    obtain ⟨huid, p, hp, hreach⟩ := hstep
    rcases List.mem_append.mp he with he | he
    · obtain ⟨segments, hsegments, -⟩ := mem_buildResourceChain hreq.resource hC hV he
      exact absurd (hsegments.symm.trans huid) (prefixEntity_ne segments _).1
    · obtain rfl := List.mem_singleton.mp he
      have hrole : p ∈ roleUids C req.roleNames := hp
      rwa [← (reaches_of_role hC hV hreq _ (roleUids_typeName (distinguishesUids hC) hrole)).mp hreach]
  · intro huid
    refine ⟨buildUserEntity C ⟨"AuthRS::User", req.userId.hyphenated⟩ req.roleNames,
      List.mem_append_right _ (List.mem_singleton_self _), ?_⟩
    rw [Bool.and_eq_true, decide_eq_true_eq, List.any_eq_true]
    exact ⟨rfl, _, huid, (reaches_of_role hC hV hreq _ rfl).mpr rfl⟩

/-! ### Policies and statements -/

theorem splitOnce_hyphenated (u : Uuid) : splitOnce u.hyphenated ':' = none := by
  rw [splitOnce_eq_none]
  intro hc
  have hne : ∀ c ∈ u.hyphenated.toList, c ≠ ':' := u.hyphenated_chars (by decide) (by decide)
  exact hne _ hc rfl

theorem splitOnce_star : splitOnce "*" ':' = none := by decide

/-- **The constraint of a principal holds of the users that the principal stands for.** -/
theorem principalScope_holds_iff (hC : C.ReadsUids) (hV : C.Validates) (hreq : req.Plain C)
    (principal : String) :
    (principalScope principal).holds (plainEntities C req)
        ⟨"AuthRS::User", req.userId.hyphenated⟩ = true ↔
      PrincipalMatches req.userId (req.HasRole C) principal := by
  by_cases hstar : principal = "*"
  · subst hstar
    exact ⟨fun _ => .everyone, fun _ => rfl⟩
  cases hsplit : splitOnce principal ':' with
  -- Without a colon the whole principal is the id of a user.
  | none =>
    have hscope : principalScope principal = .eq ⟨"AuthRS::User", principal⟩ := by
      rw [principalScope, if_neg hstar, hsplit]
    rw [hscope, Scope.holds, decide_eq_true_iff]
    constructor
    · intro h
      obtain ⟨-, rfl⟩ := EntityUid.mk.inj h
      exact .bare
    · intro h
      cases h with
      | everyone => exact absurd rfl hstar
      | role hrole _ => exact absurd (hrole.symm.trans hsplit) (Option.some_ne_none _)
      | user huser _ => exact absurd (huser.symm.trans hsplit) (Option.some_ne_none _)
      | bare => rfl
  | some p =>
    obtain ⟨pre, id⟩ := p
    -- A hyphenated id has no colon, so the principal is not the bare id of the user.
    have hbare : principal ≠ req.userId.hyphenated := by
      rintro rfl
      rw [splitOnce_hyphenated] at hsplit
      cases hsplit
    -- The prefix `role` makes it a role, any other prefix a user.
    by_cases hpre : pre = "role"
    · subst hpre
      have hscope : principalScope principal = .isIn ⟨"AuthRS::Role", id⟩ := by
        rw [principalScope, if_neg hstar, hsplit]
        rfl
      rw [hscope, Scope.holds, isIn_plainEntities hC hV hreq]
      constructor
      · exact .role hsplit
      · intro h
        cases h with
        | everyone => exact absurd rfl hstar
        | role hrole huid =>
          obtain ⟨-, rfl⟩ := Prod.mk.inj (Option.some.inj (hrole.symm.trans hsplit))
          exact huid
        | user huser hne =>
          exact absurd (Prod.mk.inj (Option.some.inj (huser.symm.trans hsplit))).1 hne
        | bare => exact absurd rfl hbare
    · have hscope : principalScope principal = .eq ⟨"AuthRS::User", id⟩ := by
        rw [principalScope, if_neg hstar, hsplit]
        split
        · rename_i heq
          exact absurd (Prod.mk.inj (Option.some.inj heq)).1 hpre
        · rename_i heq
          rw [(Prod.mk.inj (Option.some.inj heq)).2]
        · rename_i heq
          cases heq
      rw [hscope, Scope.holds, decide_eq_true_iff]
      constructor
      · intro h
        obtain ⟨-, rfl⟩ := EntityUid.mk.inj h
        exact .user hsplit hpre
      · intro h
        cases h with
        | everyone => exact absurd rfl hstar
        | role hrole _ =>
          exact absurd (Prod.mk.inj (Option.some.inj (hrole.symm.trans hsplit))).1.symm hpre
        | user huser _ =>
          rw [(Prod.mk.inj (Option.some.inj (huser.symm.trans hsplit))).2]
        | bare => exact absurd rfl hbare

/-- **The constraint and the condition of a resource hold of the resources it matches.** -/
theorem resource_holds_iff (hC : C.ReadsUids) (hV : C.Validates) (hreq : req.Plain C)
    (pattern : String) {cedarReq : Cedar.Request}
    (hresource : cedarReq.resource = resourceEntity req.resource) :
    ((resourceScope pattern).holds (plainEntities C req) cedarReq.resource = true ∧
        ∀ e ∈ likeConditions pattern, e.eval cedarReq (plainEntities C req) =
          some (.prim (.bool true))) ↔
      ResourceMatches pattern req.resource := by
  unfold resourceScope likeConditions ResourceMatches
  by_cases hwild : Resource.isWildcard pattern = true
  · have hholds : (if Resource.isWildcard pattern then Scope.all
        else .eq (resourceEntity pattern)).holds (plainEntities C req) cedarReq.resource = true := by
      rw [if_pos hwild]
      rfl
    rw [and_iff_right hholds, if_pos hwild, hwild, Bool.true_and]
    by_cases hstar : pattern = "*"
    · subst hstar
      have hcovers : Resource.Covers ['*'] req.resource.toList := by
        have h : Resource.Covers ('*' :: []) (req.resource.toList ++ []) := .star _ .nil
        rwa [List.append_nil] at h
      simp [hcovers]
    · rw [if_pos (by simpa using hstar), List.forall_mem_singleton, Cedar.Expr.eval,
        ← Resource.matchPattern_likeElems]
      have hpath : (Cedar.Expr.attr .resource "path").eval cedarReq (plainEntities C req) =
          some (.prim (.string req.resource)) := by
        rw [Cedar.Expr.eval, Cedar.Var.attr, hresource, path_plainEntities hC hV hreq]
      rw [hpath]
      simp
  · rw [if_neg hwild, if_neg hwild, Scope.holds, decide_eq_true_iff, hresource,
      resourceEntity_eq_iff]
    have hnone : ¬((Resource.isWildcard pattern && decide (pattern ≠ "*")) = true) := by
      simp [hwild]
    rw [if_neg hnone]
    constructor
    · rintro ⟨⟨htype, hsegments⟩, -⟩
      exact ⟨htype.symm, hsegments.symm⟩
    · rintro ⟨htype, hsegments⟩
      exact ⟨⟨htype.symm, hsegments.symm⟩, List.forall_mem_nil _⟩

/-- What the engine asks the crate to decide on a plain request. -/
def plainRequest (req : AuthzRequest) : Cedar.Request :=
  ⟨⟨"AuthRS::User", req.userId.hyphenated⟩, ⟨"AuthRS::Action", req.action⟩,
    resourceEntity req.resource, []⟩

/-- **A compiled policy applies to a request when its statement concerns it.** -/
theorem PolicyTuple.matches_iff (hC : C.ReadsUids) (hV : C.Validates) (hreq : req.Plain C)
    (t : PolicyTuple) :
    t.Matches (plainRequest req) (plainEntities C req) ↔
      t.Concerns req.userId (req.HasRole C) req.action req.resource := by
  have haction : (plainRequest req).action = ⟨"AuthRS::Action", t.action⟩ ↔
      t.action = req.action := by
    constructor
    · intro h
      exact (EntityUid.mk.inj h).2.symm
    · intro h
      rw [h]
      rfl
  rw [PolicyTuple.Matches, haction]
  constructor
  · rintro ⟨hprincipal, haction, hresource⟩
    exact ⟨(principalScope_holds_iff hC hV hreq _).mp hprincipal, haction,
      (resource_holds_iff hC hV hreq _ rfl).mp hresource⟩
  · rintro ⟨hprincipal, haction, hresource⟩
    exact ⟨(principalScope_holds_iff hC hV hreq _).mpr hprincipal, haction,
      (resource_holds_iff hC hV hreq _ rfl).mpr hresource⟩

/-! ### Decisions -/

section Decision

variable {schema : C.Schema} {set : PolicySet}

/-- The tuples of some permissions. -/
def tuplesOf (docs : List (Uuid × PermissionDocument)) (t : PolicyTuple) : Prop :=
  ∃ d ∈ docs, t ∈ d.2.tuples

/-- A set applies to a request with an effect when a statement with that effect concerns it. -/
theorem applies_iff (hC : C.ReadsUids) (hV : C.Validates) (hreq : req.Plain C)
    {docs : List (Uuid × PermissionDocument)} (hset : set.policies = docs.flatMap permissionPolicies)
    (effect : Effect) :
    set.applies effect.cedar (plainRequest req) (plainEntities C req) = true ↔
      ∃ t, tuplesOf docs t ∧ t.stmt.effect = effect ∧
        t.Concerns req.userId (req.HasRole C) req.action req.resource := by
  have hinj : ∀ e e' : Effect, e.cedar = e'.cedar → e = e' := by
    intro e e'
    cases e <;> cases e' <;> simp [Effect.cedar]
  rw [PolicySet.applies_iff, hset]
  constructor
  · rintro ⟨p, hp, heffect, hsatisfied⟩
    obtain ⟨d, hd, hp⟩ := List.mem_flatMap.mp hp
    obtain ⟨t, ht, rfl⟩ := List.mem_map.mp hp
    refine ⟨t, ⟨d, hd, ht⟩, hinj _ _ heffect, ?_⟩
    rw [← t.matches_iff hC hV hreq]
    exact (t.satisfied_policy_iff _ _ _).mp hsatisfied
  · rintro ⟨t, ⟨d, hd, ht⟩, rfl, hconcerns⟩
    refine ⟨_, List.mem_flatMap.mpr ⟨d, hd, List.mem_map_of_mem ht⟩, rfl, ?_⟩
    rw [t.satisfied_policy_iff, t.matches_iff hC hV hreq]
    exact hconcerns

/-- The schema and the policies permit a plain request when it is granted. -/
theorem permitted_iff (hC : C.ReadsUids) (hV : C.Validates)
    (hS : AuthrsSchema C schema) (hreq : req.Plain C)
    {docs : List (Uuid × PermissionDocument)}
    (hset : set.policies = docs.flatMap permissionPolicies) :
    Permitted C schema set req.userId req.roleNames req.action req.resource ↔
      C.appliesTo schema ⟨"AuthRS::Action", req.action⟩ "AuthRS::User"
          ("AuthRS::" ++ Resource.entityType req.resource) = true ∧
        Granted (tuplesOf docs) req.userId (req.HasRole C) req.action req.resource := by
  have hr : resourceRootUid C req.resource = some (resourceEntity req.resource) := by
    rw [resourceRootUid_eq_prefixUid, prefixUid_of_plain hreq.resource hC (List.Subset.refl _),
      prefixEntity_splitChar]
  have hforbid : set.applies .forbid (plainRequest req) (plainEntities C req) = false ↔
      ∀ t, tuplesOf docs t → t.stmt.effect = .deny →
        ¬ t.Concerns req.userId (req.HasRole C) req.action req.resource := by
    have h := applies_iff hC hV hreq hset .deny
    change set.applies .forbid _ _ = true ↔ _ at h
    rw [← Bool.not_eq_true, h]
    push Not
    rfl
  have hpermit := applies_iff hC hV hreq hset .allow
  change set.applies .permit _ _ = true ↔ _ at hpermit
  constructor
  · rintro ⟨p, a, r, hp, ha, hr', happlies, hallow, hdeny⟩
    obtain rfl := Option.some.inj ((readsUserIds hC _).symm.trans hp)
    obtain rfl := Option.some.inj ((actionUid_of_normal hC (normal_of_plainChar hreq.action)).symm.trans ha)
    obtain rfl := Option.some.inj (hr.symm.trans hr')
    rw [requestEntities_of_plain hC hV hS hreq] at hallow hdeny
    exact ⟨happlies, hpermit.mp hallow, hforbid.mp hdeny⟩
  · rintro ⟨happlies, hallow, hdeny⟩
    refine ⟨_, _, _, readsUserIds hC _, actionUid_of_normal hC (normal_of_plainChar hreq.action), hr, happlies, ?_, ?_⟩
    · rw [requestEntities_of_plain hC hV hS hreq]
      exact hpermit.mpr hallow
    · rw [requestEntities_of_plain hC hV hS hreq]
      exact hforbid.mpr hdeny

/-- When a plain request is allowed. -/
theorem authorize_iff_granted (hC : C.ReadsUids) (hV : C.Validates) (hA : C.Authorizes)
    (hS : AuthrsSchema C schema) (hreq : req.Plain C)
    {docs : List (Uuid × PermissionDocument)}
    (hset : set.policies = docs.flatMap permissionPolicies) :
    authorize C req set schema = some .allow ↔
      C.appliesTo schema ⟨"AuthRS::Action", req.action⟩ "AuthRS::User"
          ("AuthRS::" ++ Resource.entityType req.resource) = true ∧
        TakesContext C schema req.action req.context ∧
        Granted (tuplesOf docs) req.userId (req.HasRole C) req.action req.resource := by
  rw [← and_assoc, and_right_comm, ← permitted_iff hC hV hS hreq hset]
  refine authorize_eq_allow_iff hV hA fun p hp => ?_
  rw [hset] at hp
  obtain ⟨d, -, hp⟩ := List.mem_flatMap.mp hp
  obtain ⟨t, -, rfl⟩ := List.mem_map.mp hp
  exact t.policy_contextFree _

end Decision

/-- **When the documents of some permissions allow a request**: the schema declares the action for
the type of the resource and accepts the context, and the statements grant the request. The engine
never fails. -/
theorem decision_iff (hC : C.ReadsUids) (hP : C.ReadsPolicies) (hV : C.Validates)
    (hA : C.Authorizes) (U : CaseTable) (parseSchema : SchemaParser C.Schema)
    (packageTables customActions : List (String × String))
    (hS : ReadsEntityLines C parseSchema (buildSchemaStr U packageTables customActions))
    (schema : C.Schema)
    (hschema : parseSchema (buildSchemaStr U packageTables customActions) = .ok schema)
    (docs : List (Uuid × PermissionDocument)) (set : PolicySet)
    (hset : policySetForRoles C docs = .ok set) (req : AuthzRequest) (hreq : req.Plain C) :
    (authorize C req set schema = some .allow ↔
      C.appliesTo schema ⟨"AuthRS::Action", req.action⟩ "AuthRS::User"
          ("AuthRS::" ++ Resource.entityType req.resource) = true ∧
        TakesContext C schema req.action req.context ∧
        Granted (tuplesOf docs) req.userId (req.HasRole C) req.action req.resource) ∧
      authorize C req set schema ≠ none := by
  have hpolicies := ((policySetForRoles_eq_ok hP).mp hset).2.2
  refine ⟨authorize_iff_granted hC hV hA (hS _ hschema) hreq hpolicies, ?_⟩
  rw [Ne, authorize_eq_none_iff, readsUserIds hC]
  exact Option.some_ne_none _

/-! ### Clerks, but one -/

/-- A statement on the one action. -/
def runStatement (sid : String) (effect : Effect) (principal resource : String) :
    PermissionStatement where
  sid := sid
  effect := effect
  principals := [principal]
  actions := ["run"]
  resources := [resource]
  conditions := []

/-- Clerks may run what is in the service, and user 7 may not run the sample query. -/
def clerksButOne : PermissionDocument where
  version := "1.0"
  statements := [runStatement "clerks" .allow "role:clerk" "service:core/*",
    runStatement "notSeven" .deny "user:00000000-0000-0000-0000-000000000007" sampleQuery]

theorem mem_tuplesOf_clerksButOne {t : PolicyTuple} :
    tuplesOf [(1, clerksButOne)] t ↔
      t = ⟨runStatement "clerks" .allow "role:clerk" "service:core/*", "role:clerk", "run",
          "service:core/*"⟩ ∨
        t = ⟨runStatement "notSeven" .deny "user:00000000-0000-0000-0000-000000000007" sampleQuery,
          "user:00000000-0000-0000-0000-000000000007", "run", sampleQuery⟩ := by
  have hmem : tuplesOf [(1, clerksButOne)] t ↔ t ∈ clerksButOne.tuples := by simp [tuplesOf]
  rw [hmem, ← List.mem_pair]
  rfl

/-- The policies of the document. -/
def clerksButOneSet : PolicySet := ⟨permissionPolicies (1, clerksButOne), by decide +kernel⟩

theorem clerksButOne_compiles :
    compile Cedar.reference clerksButOne (Uuid.hyphenated 1) = .ok clerksButOneSet := by
  have hnodup : (clerksButOne.tuples.map (policyId (Uuid.hyphenated 1))).Nodup := by
    have h := clerksButOneSet.nodup
    change ((clerksButOne.tuples.map (PolicyTuple.policy (Uuid.hyphenated 1))).map _).Nodup at h
    rwa [List.map_map] at h
  exact (compile_eq_ok Cedar.reference_readsPolicies).mpr ⟨by decide, hnodup, rfl⟩

theorem clerksButOne_compiled :
    policySetForRoles Cedar.reference [(1, clerksButOne)] = .ok clerksButOneSet := by
  refine (policySetForRoles_eq_ok Cedar.reference_readsPolicies).mpr ⟨?_, ?_, ?_⟩
  · exact List.forall_mem_singleton.mpr ⟨_, clerksButOne_compiles⟩
  · rw [List.flatMap_singleton]
    exact clerksButOneSet.nodup
  · rw [List.flatMap_singleton]
    rfl

/-- A clerk's request to run the query. -/
def runsSample (userId : Uuid) : AuthzRequest := ⟨userId, ["clerk"], "run", sampleQuery, .object []⟩

theorem runsSample_plain (userId : Uuid) : (runsSample userId).Plain Cedar.reference := by
  have haction : ∀ c ∈ "run".toList, Cedar.PlainAscii c := Cedar.forall_plainAscii (by decide)
  have hresource : ∀ c ∈ sampleQuery.toList, Cedar.PlainAscii c :=
    Cedar.forall_plainAscii (by decide +kernel)
  exact ⟨fun c hc => plainChar_of_ascii (haction c hc), fun c hc => plainChar_of_ascii (hresource c hc)⟩

theorem hasRole_runsSample (userId : Uuid) : (runsSample userId).HasRole Cedar.reference "clerk" :=
  ⟨"clerk", List.mem_singleton_self _, (readsRole_of_normal Cedar.reference_readsUids
    (Cedar.normal_of_ascii (Cedar.forall_plainAscii (by decide))) _).mpr rfl⟩

/-- The sample query is in the service. -/
theorem resourceMatches_sampleQuery : ResourceMatches "service:core/*" sampleQuery := by
  have hwild : Resource.isWildcard "service:core/*" = true := by decide
  rw [ResourceMatches, if_pos hwild, ← Resource.matchPattern_likeElems]
  decide +kernel

theorem appliesTo_sampleQuery : Cedar.reference.appliesTo builtinSchema ⟨"AuthRS::Action", "run"⟩
    "AuthRS::User" (resourceEntity sampleQuery).typeName = true := by
  have htypes : (resourceEntity sampleQuery).typeName ∈
      lineTypes (actionLine "run" (appliesTo "[Query]")) := by
    decide +kernel
  exact referenceSchema_appliesTo (List.forall_mem_nil _) (List.forall_mem_nil _)
    builtinSchema_read (.query (by decide)) htypes

theorem splitOnce_seven : splitOnce "user:00000000-0000-0000-0000-000000000007" ':' =
    some ("user", Uuid.hyphenated 7) := by decide +kernel

/-- The statement that denies concerns user 7 alone. -/
theorem eq_seven_of_principal {userId : Uuid} {hasRole : String → Prop}
    (h : PrincipalMatches userId hasRole "user:00000000-0000-0000-0000-000000000007") :
    userId = 7 := by
  have hsplit := splitOnce_seven
  generalize hp : "user:00000000-0000-0000-0000-000000000007" = p at h hsplit
  cases h with
  | everyone => cases splitOnce_star.symm.trans hsplit
  | role hrole _ =>
    have hpre := (Prod.mk.inj (Option.some.inj (hrole.symm.trans hsplit))).1
    exact absurd hpre (by decide)
  | user huser _ =>
    exact Uuid.hyphenated_injective (Prod.mk.inj (Option.some.inj (huser.symm.trans hsplit))).2
  | bare => cases (splitOnce_hyphenated userId).symm.trans hsplit

/-- User 5 may run the query, and user 7 may not, though both are clerks. -/
theorem decision_iff_clerks :
    authorize Cedar.reference (runsSample 5) clerksButOneSet builtinSchema = some .allow ∧
      authorize Cedar.reference (runsSample 7) clerksButOneSet builtinSchema ≠ some .allow := by
  have hiff := fun userId => (decision_iff Cedar.reference_readsUids Cedar.reference_readsPolicies
    Cedar.reference_validates Cedar.reference_authorizes asciiCase referenceSchema
    [] [] (reference_readsEntityLines asciiCase _ _) builtinSchema builtinSchema_read [(1, clerksButOne)]
    clerksButOneSet clerksButOne_compiled (runsSample userId) (runsSample_plain userId)).1
  constructor
  · refine (hiff 5).mpr ⟨appliesTo_sampleQuery, fun _ _ => rfl, ?_, ?_⟩
    · refine ⟨_, mem_tuplesOf_clerksButOne.mpr (.inl rfl), rfl, ?_, rfl, resourceMatches_sampleQuery⟩
      exact .role (by decide) (hasRole_runsSample 5)
    · intro t ht hdeny hconcerns
      rcases mem_tuplesOf_clerksButOne.mp ht with rfl | rfl
      · cases hdeny
      · exact absurd (eq_seven_of_principal hconcerns.principal) (by decide)
  · intro h
    obtain ⟨-, -, hgranted⟩ := (hiff 7).mp h
    refine hgranted.undenied _ (mem_tuplesOf_clerksButOne.mpr (.inr rfl)) rfl ⟨?_, rfl, ?_⟩
    · exact .user splitOnce_seven (by decide)
    · have hexact : ¬Resource.isWildcard sampleQuery = true := by decide +kernel
      change ResourceMatches sampleQuery sampleQuery
      rw [ResourceMatches, if_neg hexact]
      exact ⟨rfl, rfl⟩

end Authrs
