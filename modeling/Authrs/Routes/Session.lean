import Authrs.Services.Session
import Authrs.Repo.Accounts

/-!
# The session routes

The handlers of the session router that look a session up and end sessions. A session is named by
the bearer token of the request; logging out everywhere takes the tenant from the `X-Tenant-ID`
header and the user from the session.

## Main definitions

* `bearerToken`: the token of the `Authorization` header
* `sessionValidate`, `logout`, `logoutAll`, `logoutGlobal`: the routes
-/

namespace Authrs

open Interaction

/-- `bearer_token`, on the text of the `Authorization` header. -/
def bearerToken (authorization : Option String) : Service String := do
  let auth ← Service.okOr authorization (.unauthorized "Missing Authorization header")
  Service.okOr (dropStart "Bearer " auth) (.unauthorized "Invalid Authorization header")

variable (w : World)

/-- The session behind a bearer token. -/
def bearerSession (authorization : Option String) : Service SessionPayload := do
  let sessionToken ← bearerToken authorization
  let payload ← SessionStore.get w sessionToken
  Service.okOr payload (.unauthorized "Invalid or expired session")

/-- `session_validate`: the payload that is rendered. -/
def sessionValidate (authorization : Option String) : Service SessionPayload :=
  bearerSession w authorization

/-- `logout`. An error of the audit table is ignored. -/
def logout (authorization : Option String) : Service Unit := do
  let sessionToken ← bearerToken authorization
  let _ ← SessionStore.delete w sessionToken
  let _ ← (PostgresSessionStore.revokeBySessionToken sessionToken).toExcept Failure.recoverable
  pure ()

/-- Delete the sessions of a membership from the store, and revoke them in the audit table, whose
errors are ignored. -/
def endSessions (tenantId : String) (userId : Uuid) : Service Nat := do
  let count ← SessionStore.deleteAllForUser w tenantId userId
  let _ ← (PostgresSessionStore.revokeAllForUser tenantId userId).toExcept Failure.recoverable
  pure count

/-- `logout_all`: the number of revoked sessions. -/
def logoutAll (tenantId : TenantId) (authorization : Option String) : Service Nat := do
  let payload ← bearerSession w authorization
  endSessions w tenantId.val payload.userId

/-- `for m in memberships`: end the sessions of each membership, and count them. -/
def endEach (revoked : Nat) : List User → Service Nat
  | [] => pure revoked
  | m :: memberships => do
    let count ← endSessions w m.tenantId m.id
    endEach (revoked + count) memberships

/-- Global logout: revoke every session of this identity across all its tenants. -/
def logoutGlobal (authorization : Option String) : Service Nat := do
  let payload ← bearerSession w authorization
  let memberships ← UsersRepo.getMembershipsForIdentity payload.identityId
  endEach w 0 memberships

end Authrs
