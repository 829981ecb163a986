import Authrs.Repo.Access

/-!
# The administrative operations

The handlers under `/admin` that write roles, groups, permissions and their junction tables. Each
takes the ids of its path and its body; the tenant is the one of the header. The removals take no
tenant. A new permission's document has had its principals resolved and has compiled.

## Main definitions

* `AdminOp`: an operation with its path and body
* `AdminOp.run`: its handler
-/

namespace Authrs

open Interaction

/-- A write under `/admin`, with the ids of its path and the fields of its body. -/
inductive AdminOp
  | createRole (name : String) (parentRoleId : Option Uuid)
  | setRoleParent (roleId : Uuid) (parentRoleId : Option Uuid)
  | deleteRole (roleId : Uuid)
  | assignRoleToUser (userId roleId : Uuid)
  | removeRoleFromUser (userId roleId : Uuid)
  | createGroup (name : String) (description : Option String)
  | updateGroup (groupId : Uuid) (name : Option String) (description : Option (Option String))
  | deleteGroup (groupId : Uuid)
  | addUserToGroup (groupId userId : Uuid)
  | removeUserFromGroup (groupId userId : Uuid)
  | assignRoleToGroup (groupId roleId : Uuid)
  | removeRoleFromGroup (groupId roleId : Uuid)
  | createPermission (name : String) (description : Option String)
      (document : PermissionDocument) (overwrite : Bool)
  | deletePermission (permissionId : Uuid)
  | attachPermissionToRole (roleId permissionId : Uuid)
  | detachPermissionFromRole (roleId permissionId : Uuid)

namespace AdminOp

/-- A removal that finds nothing is an error. -/
def orNotFound (p : Service Bool) (message : String) : Service Unit := do
  let found ← p
  Service.ensure (found = true) (.notFound message)

/-- The write of `admin_create_permission`. -/
def writePermission (tenantId name : String) (description : Option String)
    (document : PermissionDocument) (overwrite : Bool) : Service Uuid :=
  if overwrite then PermissionsRepo.upsert tenantId name description document
  else PermissionsRepo.create tenantId name description document

/-- **The handler** of an operation, for a tenant. -/
def run (w : World) (T : TenantId) : AdminOp → Service Unit
  | createRole name parentRoleId => do
    let _ ← RolesRepo.create w T.val name parentRoleId
    pure ()
  | setRoleParent roleId parentRoleId => RolesRepo.setParent T.val roleId parentRoleId
  | deleteRole roleId => orNotFound (RolesRepo.delete T.val roleId) "Role not found"
  | assignRoleToUser userId roleId => RolesRepo.assignRoleToUser T.val userId roleId
  | removeRoleFromUser userId roleId =>
    orNotFound (RolesRepo.removeRoleFromUser userId roleId) "User role assignment not found"
  | createGroup name description => do
    let _ ← GroupsRepo.create w T.val name description
    pure ()
  | updateGroup groupId name description => do
    let updated ← GroupsRepo.update T.val groupId name description
    Service.ensure (updated ≠ none) (.notFound "Group not found")
  | deleteGroup groupId => orNotFound (GroupsRepo.delete T.val groupId) "Group not found"
  | addUserToGroup groupId userId => GroupsRepo.addUser T.val groupId userId
  | removeUserFromGroup groupId userId =>
    orNotFound (GroupsRepo.removeUser groupId userId) "User is not a member of this group"
  | assignRoleToGroup groupId roleId => GroupsRepo.assignRole T.val groupId roleId
  | removeRoleFromGroup groupId roleId =>
    orNotFound (GroupsRepo.removeRole groupId roleId) "Role is not assigned to this group"
  | createPermission name description document overwrite => do
    let _ ← writePermission T.val name description document overwrite
    pure ()
  | deletePermission permissionId =>
    orNotFound (PermissionsRepo.delete T.val permissionId) "Permission not found"
  | attachPermissionToRole roleId permissionId =>
    PermissionsRepo.attachToRole T.val roleId permissionId
  | detachPermissionFromRole roleId permissionId =>
    orNotFound (PermissionsRepo.detachFromRole roleId permissionId)
      "Permission-role assignment not found"

end AdminOp

end Authrs
