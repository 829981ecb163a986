import Authrs.Repo.Tokens
import Authrs.Policy.Domain

/-!
# Repositories of roles, groups and permissions

`RolesRepo`, `GroupsRepo` and `PermissionsRepo`: the writes, and the lookups a session is built
from. A check and the write it guards are separate statements.

## Main definitions

* `toUid`: the slug of a role or group name
* `RolesRepo.*`, `GroupsRepo.*`, `PermissionsRepo.*`: the methods

## Main results

* `RolesRepo.*_keepsDb`, `GroupsRepo.*_keepsDb`: the lookups leave the tables alone
-/

namespace Authrs

/-- The characters of a slug: runs of other characters become one `_`, none at the start. -/
def uidChars (w : World) : (prevUnderscore : Bool) → List Char → List Char
  | _, [] => []
  | prevUnderscore, c :: cs =>
    if w.isAlphanumeric c then c :: uidChars w false cs
    else if prevUnderscore then uidChars w true cs
    else '_' :: uidChars w true cs

/-- Convert a role name to a stable uid slug. -/
def toUid (w : World) (name : String) : String :=
  let uid := uidChars w true (w.toLowercase (trim name)).toList
  -- Strip trailing underscore
  String.ofList (if uid.getLast? = some '_' then uid.dropLast else uid)

open Interaction

namespace RolesRepo

def getUserPermissions (tenantId : String) (userId : Uuid) : Service (List String) :=
  query (.roles (.getUserPermissions tenantId userId))

def getUserRoles (tenantId : String) (userId : Uuid) : Service (List String) :=
  query (.roles (.getUserRoles tenantId userId))

def getUserRoleIds (tenantId : String) (userId : Uuid) : Service (List Uuid) :=
  query (.roles (.getUserRoleIds tenantId userId))

/-- Assign a role to a user. Returns NotFound if user or role not in tenant. -/
def assignRoleToUser (tenantId : String) (userId roleId : Uuid) : Service Unit := do
  let touched : Nat ← query (.roles (.assignRoleToUser tenantId userId roleId))
  Service.ensure (touched ≠ 0) (.notFound "User or role not found in tenant")

/-- Remove a role from a user. -/
def removeRoleFromUser (userId roleId : Uuid) : Service Bool := do
  let touched : Nat ← query (.roles (.removeRoleFromUser userId roleId))
  pure (decide (0 < touched))

def getRoleIdByUid (tenantId uid : String) : Service (Option Uuid) :=
  query (.roles (.getRoleIdByUid tenantId uid))

/-- The ancestor chain of the parent must not reach the child. -/
def validateNoCycle (tenantId : String) (parentRoleId childRoleId : Uuid) : Service Unit := do
  Service.ensure (parentRoleId ≠ childRoleId) (.badRequest "A role cannot be its own parent")
  let cycle : Option Uuid ← query (.roles (.cycleProbe parentRoleId childRoleId tenantId))
  Service.ensure (cycle = none)
    (.badRequest "Setting this parent would create a role hierarchy cycle")

/-- Validate that the parent belongs to the tenant and that setting it as the parent of the child
(if given) would not create a cycle. -/
def validateParent (tenantId : String) (parentRoleId : Uuid) (childRoleId : Option Uuid) :
    Service Unit := do
  let found : Option Uuid ← query (.roles (.existsInTenant parentRoleId tenantId))
  Service.ensure (found ≠ none) (.notFound "Parent role not found in tenant")
  match childRoleId with
  | some childId => validateNoCycle tenantId parentRoleId childId
  | none => pure ()

/-- `if let Some(parent_id) = parent_role_id { self.validate_parent(..).await?; }`. -/
def validateParentOpt (tenantId : String) (parentRoleId childRoleId : Option Uuid) :
    Service Unit :=
  match parentRoleId with
  | some parentId => validateParent tenantId parentId childRoleId
  | none => pure ()

/-- Create a role for a tenant. Returns Conflict if a role with the same uid already exists. -/
def create (w : World) (tenantId name : String) (parentRoleId : Option Uuid) :
    Service (Uuid × String × String) := do
  let name := trim name
  Service.ensure (name ≠ "") (.badRequest "Role name is required")
  let uid := toUid w name
  let existing ← getRoleIdByUid tenantId uid
  Service.ensure (existing = none)
    (.conflict ("A role with uid '" ++ uid ++ "' already exists for this tenant"))
  validateParentOpt tenantId parentRoleId none
  let id ← newUuid
  execute (.roles (.insert id tenantId name uid parentRoleId))
  pure (id, name, uid)

/-- Set or clear the parent of an existing role. -/
def setParent (tenantId : String) (roleId : Uuid) (parentRoleId : Option Uuid) :
    Service Unit := do
  let found : Option Uuid ← query (.roles (.existsInTenant roleId tenantId))
  Service.ensure (found ≠ none) (.notFound "Role not found in tenant")
  validateParentOpt tenantId parentRoleId (some roleId)
  execute (.roles (.setParent parentRoleId roleId tenantId))

/-- Delete a role. Returns true if deleted. -/
def delete (tenantId : String) (roleId : Uuid) : Service Bool := do
  let touched : Nat ← query (.roles (.delete tenantId roleId))
  pure (decide (0 < touched))

/-- Returns the full ancestor chain for a role (excluding the role itself), root-first. -/
def getRoleAncestors (tenantId : String) (roleId : Uuid) :
    Service (List (Uuid × String × String)) :=
  query (.roles (.getRoleAncestors tenantId roleId))

/-- Resolve a role identifier (name or uid) to its uid for use in permission principals. -/
def resolveRoleUid (tenantId identifier : String) : Service (Option String) :=
  query (.roles (.resolveRoleUid tenantId identifier))

section Lookups

variable (w : World) (tenantId : String)

theorem getRoleIdByUid_keepsDb (uid : String) :
    (getRoleIdByUid tenantId uid).Asks (KeepsDb w) :=
  asks_query (keepsDb_sql fun _ _ _ _ h => by cases h; rfl)

theorem existsInTenant_keepsDb (roleId : Uuid) :
    (query (.roles (.existsInTenant roleId tenantId))).Asks (KeepsDb w) :=
  asks_query (keepsDb_sql fun _ _ _ _ h => by cases h; rfl)

theorem cycleProbe_keepsDb (parentRoleId childRoleId : Uuid) :
    (query (.roles (.cycleProbe parentRoleId childRoleId tenantId))).Asks (KeepsDb w) :=
  asks_query (keepsDb_sql fun _ _ _ _ h => by
    obtain ⟨_, -, h⟩ := bind_eq_ok.mp h
    cases h
    rfl)

theorem validateNoCycle_keepsDb (parentRoleId childRoleId : Uuid) :
    (validateNoCycle tenantId parentRoleId childRoleId).Asks (KeepsDb w) :=
  (asks_ensure _ _).bind fun _ =>
    (cycleProbe_keepsDb w tenantId parentRoleId childRoleId).bind fun _ => asks_ensure _ _

theorem validateParentOpt_keepsDb (parentRoleId childRoleId : Option Uuid) :
    (validateParentOpt tenantId parentRoleId childRoleId).Asks (KeepsDb w) := by
  cases parentRoleId with
  | none => trivial
  | some parentId =>
    refine (existsInTenant_keepsDb w tenantId parentId).bind fun _ =>
      (asks_ensure _ _).bind fun _ => ?_
    cases childRoleId with
    | none => trivial
    | some childId => exact validateNoCycle_keepsDb w tenantId parentId childId

end Lookups

end RolesRepo

namespace GroupsRepo

def create (w : World) (tenantId name : String) (description : Option String) :
    Service (Uuid × String × String) := do
  let name := trim name
  Service.ensure (name ≠ "") (.badRequest "Group name is required")
  let uid := toUid w name
  let existing : Option Uuid ← query (.groups (.getIdByUid tenantId uid))
  Service.ensure (existing = none)
    (.conflict ("A group with uid '" ++ uid ++ "' already exists for this tenant"))
  let id ← newUuid
  execute (.groups (.insert id tenantId name uid description))
  pure (id, name, uid)

/-- A new name must not be empty nor another group's. -/
def validateName (tenantId : String) (groupId : Uuid) (name : String) : Service Unit := do
  Service.ensure (name ≠ "") (.badRequest "Group name cannot be empty")
  let existing : Option Uuid ← query (.groups (.getIdByNameExcept tenantId name groupId))
  Service.ensure (existing = none)
    (.conflict ("A group named '" ++ name ++ "' already exists for this tenant"))

/-- `if let Some(n) = name { .. }`. -/
def validateNameOpt (tenantId : String) (groupId : Uuid) (name : Option String) : Service Unit :=
  match name with
  | some n => validateName tenantId groupId n
  | none => pure ()

/-- Partially update a group. The `uid` is never changed on rename. -/
def update (tenantId : String) (groupId : Uuid) (name : Option String)
    (description : Option (Option String)) :
    Service (Option (String × String × Option String)) := do
  let name := name.map trim
  validateNameOpt tenantId groupId name
  query (.groups (.update tenantId groupId name description))

/-- Delete a group. Returns true if deleted. -/
def delete (tenantId : String) (groupId : Uuid) : Service Bool := do
  let touched : Nat ← query (.groups (.delete tenantId groupId))
  pure (decide (0 < touched))

/-- When an insert touched no row, tell a missing group from an existing link. -/
def requireGroup (tenantId : String) (groupId : Uuid) (touched : Nat) (message : String) :
    Service Unit := do
  if touched = 0 then
    let found : Option Uuid ← query (.groups (.existsInTenant groupId tenantId))
    Service.ensure (found ≠ none) (.notFound message)
  else pure ()

/-- Add a user to a group. Both must belong to the tenant. -/
def addUser (tenantId : String) (groupId userId : Uuid) : Service Unit := do
  let touched : Nat ← query (.groups (.addUser tenantId userId groupId))
  requireGroup tenantId groupId touched "Group not found in tenant"

/-- Remove a user from a group. Returns true if removed. -/
def removeUser (groupId userId : Uuid) : Service Bool := do
  let touched : Nat ← query (.groups (.removeUser userId groupId))
  pure (decide (0 < touched))

/-- Assign a role to a group. Both must belong to the tenant. -/
def assignRole (tenantId : String) (groupId roleId : Uuid) : Service Unit := do
  let touched : Nat ← query (.groups (.assignRole tenantId groupId roleId))
  requireGroup tenantId groupId touched "Group or role not found in tenant"

/-- Remove a role from a group. Returns true if removed. -/
def removeRole (groupId roleId : Uuid) : Service Bool := do
  let touched : Nat ← query (.groups (.removeRole groupId roleId))
  pure (decide (0 < touched))

def getUserGroupUids (tenantId : String) (userId : Uuid) : Service (List String) :=
  query (.groups (.getUserGroupUids tenantId userId))

def getUserGroupIds (tenantId : String) (userId : Uuid) : Service (List Uuid) :=
  query (.groups (.getUserGroupIds tenantId userId))

def getUserGroupRoleUids (tenantId : String) (userId : Uuid) : Service (List String) :=
  query (.groups (.getUserGroupRoleUids tenantId userId))

def getUserGroupRoleIds (tenantId : String) (userId : Uuid) : Service (List Uuid) :=
  query (.groups (.getUserGroupRoleIds tenantId userId))

def getUserGroupPermissions (tenantId : String) (userId : Uuid) : Service (List String) :=
  query (.groups (.getUserGroupPermissions tenantId userId))

section Lookups

variable (w : World) (tenantId : String)

theorem getIdByUid_keepsDb (uid : String) :
    (query (.groups (.getIdByUid tenantId uid))).Asks (KeepsDb w) :=
  asks_query (keepsDb_sql fun _ _ _ _ h => by cases h; rfl)

theorem validateName_keepsDb (groupId : Uuid) (name : String) :
    (validateName tenantId groupId name).Asks (KeepsDb w) :=
  (asks_ensure _ _).bind fun _ =>
    (asks_query (keepsDb_sql fun _ _ _ _ h => by cases h; rfl)).bind fun _ => asks_ensure _ _

theorem validateNameOpt_keepsDb (groupId : Uuid) (name : Option String) :
    (validateNameOpt tenantId groupId name).Asks (KeepsDb w) := by
  cases name with
  | none => trivial
  | some n => exact validateName_keepsDb w tenantId groupId n

theorem requireGroup_keepsDb (groupId : Uuid) (touched : Nat) (message : String) :
    (requireGroup tenantId groupId touched message).Asks (KeepsDb w) := by
  unfold requireGroup
  split
  · exact (asks_query (keepsDb_sql fun _ _ _ _ h => by cases h; rfl)).bind fun _ => asks_ensure _ _
  · trivial

end Lookups

end GroupsRepo

namespace PermissionsRepo

def create (tenantId name : String) (description : Option String)
    (document : PermissionDocument) : Service Uuid := do
  let id ← newUuid
  execute (.permissions (.insert id tenantId name description document.toValue))
  pure id

/-- Create a permission, or overwrite the existing one of the same name. -/
def upsert (tenantId name : String) (description : Option String)
    (document : PermissionDocument) : Service Uuid := do
  let id ← newUuid
  query (.permissions (.upsert id tenantId name description document.toValue))

def delete (tenantId : String) (permissionId : Uuid) : Service Bool := do
  let touched : Nat ← query (.permissions (.delete permissionId tenantId))
  pure (decide (0 < touched))

def attachToRole (tenantId : String) (roleId permissionId : Uuid) : Service Unit := do
  let roleExists : Bool ← query (.permissions (.roleExists roleId tenantId))
  Service.ensure (roleExists = true) (.notFound "Role not found in tenant")
  let permExists : Bool ← query (.permissions (.permissionExists permissionId tenantId))
  Service.ensure (permExists = true) (.notFound "Permission not found in tenant")
  execute (.permissions (.attach roleId permissionId))

def detachFromRole (roleId permissionId : Uuid) : Service Bool := do
  let touched : Nat ← query (.permissions (.detach roleId permissionId))
  pure (decide (0 < touched))

/-- `serde_json::from_value::<PermissionDocument>` on each row, up to the first that fails. -/
def parseDocuments (fromValue : Json → Except String PermissionDocument) :
    List (Uuid × Json) → Except AppError (List (Uuid × PermissionDocument))
  | [] => .ok []
  | (id, docVal) :: rows => do
    let doc ← (fromValue docVal).mapError AppError.internal
    let docs ← parseDocuments fromValue rows
    .ok ((id, doc) :: docs)

/-- Fetch all distinct permission documents for a set of role ids. -/
def getForRoles (fromValue : Json → Except String PermissionDocument) (tenantId : String)
    (roleIds : List Uuid) : Service (List (Uuid × PermissionDocument)) :=
  if roleIds = [] then pure []
  else do
    let rows : List (Uuid × Json) ← query (.permissions (.getForRoles tenantId roleIds))
    Service.ofResult (parseDocuments fromValue rows)

/-- Resolve a role name or uid to the role's uid within a tenant. -/
def resolveRoleUid (tenantId identifier : String) : Service (Option String) :=
  query (.roles (.resolveRoleUid tenantId identifier))

end PermissionsRepo

end Authrs
