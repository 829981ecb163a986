import Authrs.Policy.Compiler

/-!
# The authorization engine

Builds the entities of a request and has the crate decide it. What the crate does not read or does
not accept is a denial, except the entities and the context: they fall back to empty ones.

## Main definitions

* `AuthzRequest`, `authorize`, `userUid`, `actionUid`, `resourceUid`, `resourceRootUid`,
  `buildUserEntity`, `buildResourceChain`: their namesakes in the source
* `ReadsUserIds`: the crate reads the ids of users
-/

namespace Authrs

open Cedar (Crate PolicySet EntityUid Entity Entities Context Decision)
open Cedar.Crate (uidText)

/-- A request for authorization. -/
structure AuthzRequest where
  userId : Uuid
  /-- Role uids taken from the session. -/
  roleNames : List String
  action : String
  resource : String
  context : Json

variable (C : Crate)

def userUid (id : Uuid) : Option EntityUid := C.uidFromStr (uidText "AuthRS::User" id.hyphenated)

def actionUid (verb : String) : Option EntityUid := C.uidFromStr (uidText "AuthRS::Action" verb)

def resourceUid (entityType id : String) : Option EntityUid :=
  C.uidFromStr (uidText ("AuthRS::" ++ entityType) id)

def resourceRootUid (resourcePath : String) : Option EntityUid :=
  resourceUid C (Resource.entityType resourcePath) (Resource.entityId (splitChar resourcePath '/'))

/-- The parents that can be read; the others are dropped. -/
def roleUids (roleNames : List String) : List EntityUid :=
  roleNames.filterMap fun name => C.uidFromStr (uidText "AuthRS::Role" name)

def buildUserEntity (uid : EntityUid) (roleNames : List String) : Entity :=
  ⟨uid, [], roleUids C roleNames⟩

/-- The entities so far, and the one before with its type. -/
abbrev ChainState : Type := List Entity × Option (String × EntityUid)

/-- The entity of a path's prefix `segments`: its type comes from its last segment, its parent is
the entity before it when the schema allows that membership. -/
def chainStep (st : ChainState) (segments : List String) : ChainState :=
  let entityType := Resource.segmentEntityType (segments.getLastD "")
  match resourceUid C entityType (Resource.entityId segments) with
  | none => (st.1, none)
  | some uid =>
    let parents :=
      ((st.2.filter fun parent => Resource.allowsParent entityType parent.1).map Prod.snd).toList
    let attrs := [("path", .prim (.string (joinStr segments '/')))]
    match C.entityNew uid attrs parents with
    | none => (st.1, none)
    | some entity => (st.1 ++ [entity], some (entityType, uid))

/-- The full ancestor chain of a path, one entity for each of its prefixes. -/
def buildResourceChain (resourcePath : String) : List Entity :=
  ((splitChar resourcePath '/').inits.tail.foldl (chainStep C) ([], none)).1

/-- The decision on a request; `none` is the panic of `user_uid` on an id that is not read. -/
def authorize (req : AuthzRequest) (policySet : PolicySet) (schema : C.Schema) : Option Decision :=
  match userUid C req.userId with
  | none => none
  | some principalUid =>
    match resourceRootUid C req.resource, actionUid C req.action with
    | some resourceUid, some actionUid =>
      let allEntities :=
        buildResourceChain C req.resource ++ [buildUserEntity C principalUid req.roleNames]
      let entities := (C.entitiesFromEntities allEntities schema).getD []
      let ctx := (C.contextFromJson req.context).getD []
      match C.requestNew principalUid actionUid resourceUid ctx schema with
      | some request => some (C.isAuthorized request policySet entities)
      | none => some .deny
    | _, _ => some .deny

variable {C}

/-- The id of a user is read as it is written. -/
def ReadsUserIds (C : Crate) : Prop :=
  ∀ id : Uuid, userUid C id = some ⟨"AuthRS::User", id.hyphenated⟩

theorem readsUserIds (hC : C.ReadsUids) : ReadsUserIds C := fun id =>
  hC.of_normal isTypeName_user
    (Cedar.normal_of_ascii (id.hyphenated_chars (by decide) (by decide)))

theorem actionUid_of_normal (hC : C.ReadsUids) {action : String}
    (h : Cedar.Normal C.tables action.toList) :
    actionUid C action = some ⟨"AuthRS::Action", action⟩ :=
  hC.of_normal isTypeName_action h

theorem resourceRootUid_of_normal (hC : C.ReadsUids) {resource : String}
    (h : Cedar.Normal C.tables (Resource.entityId (splitChar resource '/')).toList) :
    resourceRootUid C resource = some (resourceEntity resource) :=
  hC.of_normal (isTypeName_of_mem (Resource.entityType_mem resource)) h

/-- **The entity of a request is the one a policy names exactly when the id is displayed as it
is.** -/
theorem resourceRootUid_eq_iff (hC : C.ReadsUids) (resource : String) :
    resourceRootUid C resource = some (resourceEntity resource) ↔
      Cedar.Normal C.tables (Resource.entityId (splitChar resource '/')).toList :=
  hC.iff_normal (isTypeName_of_mem (Resource.entityType_mem resource))

theorem append_left_cancel {s t : String} (h : "AuthRS::" ++ s = "AuthRS::" ++ t) : s = t := by
  have hlist := congrArg String.toList h
  rw [String.toList_append, String.toList_append] at hlist
  exact String.toList_inj.mp (List.append_cancel_left hlist)

/-- Two resources name one entity when their types and their stripped segments are equal. -/
theorem resourceEntity_eq_iff (p r : String) :
    resourceEntity p = resourceEntity r ↔ Resource.entityType p = Resource.entityType r ∧
      (splitChar p '/').map Resource.stripPrefix = (splitChar r '/').map Resource.stripPrefix := by
  rw [← Resource.entityId_splitChar_inj, resourceEntity, resourceEntity, EntityUid.mk.injEq]
  constructor
  · rintro ⟨htype, hid⟩
    exact ⟨append_left_cancel htype, hid⟩
  · rintro ⟨htype, hid⟩
    rw [htype]
    exact ⟨rfl, hid⟩

end Authrs
