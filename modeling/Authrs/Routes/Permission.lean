import Authrs.Policy.Engine
import Authrs.Policy.Tuples
import Authrs.Repo.Access
import Authrs.Services.Auth

/-!
# The permission check

The handler of `/admin/permissions/check`. It gathers the roles of a user, directly and through the
groups of the user, by uid and by id, loads the permission documents of the roles, and has each
request decided.

## Main definitions

* `gatherRoles`: the uids and the ids of the roles
* `PermissionsService.getPolicySetForRoles`: the policies of the roles
* `adminCheckPermission`: the handler
-/

namespace Authrs

open Interaction

/-- The body of the request. -/
structure CheckPermissionBody where
  userId : Uuid
  resource : String
  action : Option String
  context : Option Json

/-- The response: the decision on one action, or on each action of the resource. -/
inductive PermissionDecisions
  | one (resource action : String) (allowed : Bool)
  | all (resource : String) (decisions : List (String × Bool))
  deriving DecidableEq

/-- The uids and the ids of the roles of a user, direct and inherited through groups. -/
def gatherRoles (tenantId : String) (userId : Uuid) : Service (List String × List Uuid) := do
  let directNames ← RolesRepo.getUserRoles tenantId userId
  let directIds ← RolesRepo.getUserRoleIds tenantId userId
  let groupNames ← GroupsRepo.getUserGroupRoleUids tenantId userId
  let groupIds ← GroupsRepo.getUserGroupRoleIds tenantId userId
  pure (dedupChain directNames groupNames, dedupChain directIds groupIds)

variable (C : Cedar.Crate) (fromValue : Json → Except String PermissionDocument)

/-- Compile a policy set from only the permissions attached to the given role ids. -/
def PermissionsService.getPolicySetForRoles (tenantId : String) (roleIds : List Uuid) :
    Service Cedar.PolicySet := do
  let docs ← PermissionsRepo.getForRoles fromValue tenantId roleIds
  Service.ofResult (policySetForRoles C docs)

variable (schema : C.Schema)

def isAllowed (req : AuthzRequest) (policySet : Cedar.PolicySet) : Service Bool :=
  match authorize C req policySet schema with
  | some decision => pure (decide (decision = .allow))
  | none => Program.throw (.panic "called `Result::unwrap()` on an `Err` value")

/-- `HashMap::insert`. -/
def insertDecision (decisions : List (String × Bool)) (action : String) (allowed : Bool) :
    List (String × Bool) :=
  decisions.filter (fun d => d.1 ≠ action) ++ [(action, allowed)]

/-- Each action is decided on its own resource. -/
def decideEach (userId : Uuid) (roleNames : List String) (context : Json)
    (policySet : Cedar.PolicySet) :
    List (String × String) → List (String × Bool) → Service (List (String × Bool))
  | [], decisions => pure decisions
  | (action, resource) :: pairs, decisions => do
    let allowed ← isAllowed C schema ⟨userId, roleNames, action, resource, context⟩ policySet
    decideEach userId roleNames context policySet pairs (insertDecision decisions action allowed)

/-- The handler of the permission check. `actionResources` is what
`get_actions_for_resource(resource)` returns for the action registry. -/
def adminCheckPermission (actionResources : Except AppError (List (String × String)))
    (tenantId : TenantId) (body : CheckPermissionBody) : Service PermissionDecisions := do
  let (roleNames, roleIds) ← gatherRoles tenantId.val body.userId
  let context := body.context.getD (.object [])
  let policySet ← PermissionsService.getPolicySetForRoles C fromValue tenantId.val roleIds
  match body.action with
  | some action =>
    let allowed ← isAllowed C schema ⟨body.userId, roleNames, action, body.resource, context⟩
      policySet
    pure (.one body.resource action allowed)
  | none =>
    let pairs ← Service.ofResult actionResources
    let decisions ← decideEach C schema body.userId roleNames context policySet pairs []
    pure (.all body.resource decisions)

end Authrs
