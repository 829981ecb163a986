import Authrs.Services.Mfa

/-!
# The auth service: logins

The login entry points, the gates every login passes, and the tail they share: a forced password
change, a second factor, or a session.

## Main definitions

* `AuthService.checkGates`, `finalizeLogin`, `doCreateSession`: the shared tail
* `AuthService.loginEmailPassword`, `loginUsernamePassword`, `loginWithVerifiedOtp`,
  `completeMfaLogin`, `loginIdentity`, `selectTenant`, `selectTenantWithToken`: the entry points
* `AuthService.ensureEmailDomainAllowed`, `effectiveLoginMethods`: the tenant's restrictions
-/

namespace Authrs

open Interaction

def LOGIN_METHOD_EMAIL_PASSWORD : Int := 1
def LOGIN_METHOD_EMAIL_OTP : Int := 2
def LOGIN_METHOD_USERNAME_PASSWORD : Int := 4
def LOGIN_METHOD_OAUTH : Int := 5
def DEFAULT_LOCK_AFTER_ATTEMPTS : Nat := 5
def DEFAULT_LOCK_DURATION_MINS : Int := 15
def DEFAULT_SESSION_TTL_SECS : Nat := 3600
def PASSWORD_RESET_TOKEN_TTL_MINS : Int := 60
def FORCE_CHANGE_TOKEN_TTL_MINS : Int := 15
/-- Window to complete the second factor after the first one succeeded. -/
def MFA_CHALLENGE_TTL_MINS : Int := 5
def MAX_MFA_ATTEMPTS : Nat := 5
def IDENTITY_TOKEN_TTL_MINS : Int := 10

/-- How a login ends. -/
inductive LoginResult
  | success (sessionToken : String) (expiresAt : Time)
  | mfaRequired (mfaToken : String) (userId : Uuid)
  | passwordChangeRequired (changeToken : String)
  deriving DecidableEq

/-- A tenant the identity belongs to. -/
structure TenantMembership where
  tenantId : String
  status : String
  deriving DecidableEq

/-- Chain two lists and deduplicate, preserving the first-seen order. -/
def dedupChain {α : Type} [DecidableEq α] (a b : List α) : List α :=
  (a ++ b).reverse.dedup.reverse

theorem mem_dedupChain {α : Type} [DecidableEq α] {a b : List α} {x : α} :
    x ∈ dedupChain a b ↔ x ∈ a ∨ x ∈ b := by
  simp [dedupChain, or_comm]

theorem nodup_dedupChain {α : Type} [DecidableEq α] (a b : List α) : (dedupChain a b).Nodup :=
  List.nodup_reverse.mpr (List.nodup_dedup _)

/-- The first and the last instant of `DateTime<Utc>`. -/
def minUtc : Time := seconds (-8334601228800)
def maxUtc : Time := seconds 8210266876799 + 999999

/-- `a * b` in `u64`. -/
def mulU64 (w : World) (a b : Nat) : Service Nat :=
  if a * b < 2 ^ 64 then pure (a * b)
  else if w.overflowChecks then Program.throw (.panic "attempt to multiply with overflow")
  else pure (a * b % 2 ^ 64)

/-- `Utc::now() + chrono::Duration::seconds(secs)`. -/
def nowPlusSeconds (secs : Int) : Service Time := do
  let now ← utcNow
  if secs < -9223372036854775 ∨ 9223372036854775 < secs then
    Program.throw (.panic "TimeDelta::seconds out of bounds")
  else if now + seconds secs < minUtc ∨ maxUtc < now + seconds secs then
    Program.throw (.panic "`DateTime + TimeDelta` overflowed")
  else pure (now + seconds secs)

namespace AuthService

variable (w : World)

/-- The fallback session lifetime. -/
def defaultSessionTtlSecs : Nat :=
  if 0 < w.defaultSessionTtlSecs then w.defaultSessionTtlSecs else DEFAULT_SESSION_TTL_SECS

/-! ### Restrictions of the tenant -/

/-- The methods a membership supports. -/
def userSupportedMethods (user : User) : List Int :=
  (if user.email.isSome then [1, 2] else []) ++
    (if user.mobile.isSome ∧ user.countryCode.isSome then [3, 6] else []) ++
    (if user.username.isSome then [4] else []) ++ [LOGIN_METHOD_OAUTH]

/-- The tenant's allowed methods that the user supports. -/
def effectiveLoginMethods (tenantId : String) (user : User) : Service (List Int) := do
  let allowed ← TenantConfigLoader.getLoginMethods w tenantId
  let tenantAllowed := allowed.getD [1, 2, 3, 4, 5, 6]
  pure (tenantAllowed.filter fun m => m ∈ userSupportedMethods user)

/-- `d.trim().trim_start_matches('@').to_lowercase()`. -/
def normalizeDomain (d : String) : String := w.toLowercase (trimStartMatches (trim d) '@')

/-- The domain of an email: the part after the last `@`, if it is not empty. -/
def emailDomain (email : String) : Option String :=
  match rsplitOnce (trim email) '@' with
  | some (_, d) => if d ≠ "" then some (w.toLowercase d) else none
  | none => none

/-- Whether an allowlist permits an email. -/
def domainPermitted (allowed : List String) (email : String) : Bool :=
  match emailDomain w email with
  | some domain => allowed.any fun d => normalizeDomain w d = domain
  | none => false

/-- Enforce the tenant's email-domain allowlist. No allowlist, or an empty one, permits all
domains. -/
def ensureEmailDomainAllowed (tenantId email : String) : Service Unit := do
  let allowed ← TenantConfigLoader.getAllowedEmailDomains w tenantId
  Service.ensure (allowed.getD [] = [] ∨ domainPermitted w (allowed.getD []) email = true)
    (.forbidden "Email domain is not permitted")

/-! ### Credentials and gates -/

/-- `verify_password(hash, password)?`. -/
def verifyPassword (hash password : String) : Service Bool :=
  Service.ofResult ((w.verifyPassword hash password).mapError .internal)

/-- Load the global identity behind a membership. -/
def loadIdentity (identityId : Uuid) : Service Identity := do
  let identity ← IdentitiesRepo.getById identityId
  Service.okOr identity (.internal "Identity not found for membership")

theorem exec_loadIdentity_eq_ok {w : World} {s s' : State} {identityId : Uuid} {i : Identity} :
    (loadIdentity identityId).exec (handle w) s = (.ok i, s') ↔
      (∃ row, s.db.identity identityId = some row ∧ row.toIdentity = i) ∧ s = s' := by
  change (Service.okOr ((s.db.identity identityId).map IdentityRow.toIdentity) _).exec
    (handle w) s = _ ↔ _
  rw [Service.exec_okOr_eq_ok, Option.map_eq_some_iff]

/-- `if let Some(locked_until) = identity.locked_until`: not locked at present. -/
def checkLock (identity : Identity) : Service Unit :=
  match identity.lockedUntil with
  | some lockedUntil => do
    let now ← utcNow
    Service.ensure (¬ now < lockedUntil) (.locked "Account is temporarily locked")
  | none => pure ()

/-- `if let Some(valid_until) = user.access_valid_until`: access has not expired. -/
def checkAccess (user : User) : Service Unit :=
  match user.accessValidUntil with
  | some validUntil => do
    let now ← utcNow
    Service.ensure (¬ validUntil < now) (.accessExpired "Account access has expired")
  | none => pure ()

/-- Gates common to every login: per-tenant membership status/access plus the global identity
status and lockout. -/
def checkGates (user : User) (identity : Identity) : Service Unit := do
  Service.ensure (user.status = "active" ∧ identity.status = "active")
    (.forbidden "Account is not active")
  checkLock identity
  checkAccess user

/-- `identity.failed_attempts + 1 >= DEFAULT_LOCK_AFTER_ATTEMPTS` in `i32`. -/
def lockReached (failedAttempts : Nat) : Service Bool :=
  if failedAttempts < maxInt then pure (decide (DEFAULT_LOCK_AFTER_ATTEMPTS ≤ failedAttempts + 1))
  else if w.overflowChecks then Program.throw (.panic "attempt to add with overflow")
  else pure false

/-- Global lockout: failed attempts accrue against the shared credential. -/
def registerFailedAttempt (identity : Identity) : Service Unit := do
  if ← lockReached w identity.failedAttempts then
    let now ← utcNow
    IdentitiesRepo.incrementFailedAttempts identity.id
      (some (now + minutes DEFAULT_LOCK_DURATION_MINS))
  else IdentitiesRepo.incrementFailedAttempts identity.id none

/-! ### The shared tail -/

/-- The roles, permissions and groups of a user: direct and inherited through groups. A failed
lookup counts as empty. -/
structure Grants where
  roles : List String
  roleIds : List Uuid
  permissions : List String
  groups : List String
  groupIds : List Uuid

def loadGrants (tenantId : String) (userId : Uuid) : Service Grants := do
  let directRoleUids ← (RolesRepo.getUserRoles tenantId userId).unwrapOrDefault
  let directRoleIds ← (RolesRepo.getUserRoleIds tenantId userId).unwrapOrDefault
  let directPerms ← (RolesRepo.getUserPermissions tenantId userId).unwrapOrDefault
  let groupUids ← (GroupsRepo.getUserGroupUids tenantId userId).unwrapOrDefault
  let groupIds ← (GroupsRepo.getUserGroupIds tenantId userId).unwrapOrDefault
  let groupRoleUids ← (GroupsRepo.getUserGroupRoleUids tenantId userId).unwrapOrDefault
  let groupRoleIds ← (GroupsRepo.getUserGroupRoleIds tenantId userId).unwrapOrDefault
  let groupPerms ← (GroupsRepo.getUserGroupPermissions tenantId userId).unwrapOrDefault
  pure {
    roles := dedupChain directRoleUids groupRoleUids
    roleIds := dedupChain directRoleIds groupRoleIds
    permissions := dedupChain directPerms groupPerms
    groups := groupUids
    groupIds := groupIds }

/-- The lifetime of a session: the tenant's absolute timeout, or the default. -/
def sessionTtl (tenantId : String) : Service Nat := do
  let policy ← TenantConfigLoader.getSessionPolicy w tenantId
  match policy.bind (·.absoluteTimeoutMins) with
  | some m => mulU64 w m 60
  | none => pure (defaultSessionTtlSecs w)

/-- The audit row, when the store has not written it. -/
def auditSession (sessionToken : String) (payload : SessionPayload) : Service Unit :=
  if SessionStore.writesAuditRow w then pure ()
  else PostgresSessionStore.createAudit sessionToken payload.tenantId payload.userId payload.ip
    payload.userAgent payload.expiresAt payload

/-- Create a session for a user. Caller must have checked status, lock, and login method. -/
def doCreateSession (tenantId : String) (user : User) (ip userAgent : Option String) :
    Service LoginResult := do
  let grants ← loadGrants tenantId user.id
  let ttlSecs ← sessionTtl w tenantId
  let expiresAt ← nowPlusSeconds (RedisSessionStore.asI64 ttlSecs)
  let sessionToken ← randomToken
  let payload : SessionPayload := {
    tenantId := tenantId
    userId := user.id
    identityId := user.identityId
    roles := grants.roles
    roleIds := grants.roleIds
    permissions := grants.permissions
    groups := grants.groups
    groupIds := grants.groupIds
    ip := ip
    userAgent := userAgent
    expiresAt := expiresAt }
  SessionStore.set w sessionToken payload ttlSecs
  auditSession w sessionToken payload
  pure (.success sessionToken expiresAt)

def issueForceChangeToken (tenantId : String) (userId : Uuid) : Service LoginResult := do
  let changeToken ← randomToken
  let now ← utcNow
  ForceChangeTokensRepo.create tenantId userId changeToken
    (now + minutes FORCE_CHANGE_TOKEN_TTL_MINS)
  pure (.passwordChangeRequired changeToken)

/-- Open a second-factor challenge. -/
def issueChallenge (tenantId : String) (userId : Uuid) : Service LoginResult := do
  let mfaToken ← randomToken
  let now ← utcNow
  MfaRepo.createChallenge mfaToken tenantId userId (now + minutes MFA_CHALLENGE_TTL_MINS)
  pure (.mfaRequired mfaToken userId)

/-- Shared tail once the credential is verified and gates pass: force-change → MFA → session.
Force-change and MFA are global (read off the identity). -/
def finalizeLogin (tenantId : String) (user : User) (identity : Identity)
    (ip userAgent : Option String) : Service LoginResult :=
  if identity.forcePasswordChange then issueForceChangeToken tenantId user.id
  else if identity.mfaEnabled then issueChallenge tenantId user.id
  else doCreateSession w tenantId user ip userAgent

/-! ### Password and OTP logins -/

/-- The credential check of a password login, with its failed attempt. -/
def checkPassword (identity : Identity) (password message : String) : Service Unit := do
  let passwordHash ← Service.okOr identity.passwordHash (.unauthorized "Invalid credentials")
  if ← verifyPassword w passwordHash password then pure ()
  else
    registerFailedAttempt w identity
    Service.throw (.unauthorized message)

def doPasswordLogin (tenantId : String) (user : User) (password : String)
    (ip userAgent : Option String) (method : Int) : Service LoginResult := do
  let identity ← loadIdentity user.identityId
  checkGates user identity
  let effective ← effectiveLoginMethods w tenantId user
  Service.ensure (method ∈ effective)
    (.forbidden "This login method is not allowed for your account")
  checkPassword w identity password "Invalid email or password"
  IdentitiesRepo.clearFailedAttempts identity.id
  finalizeLogin w tenantId user identity ip userAgent

def loginEmailPassword (tenantId email password : String) (ip userAgent : Option String) :
    Service LoginResult := do
  ensureEmailDomainAllowed w tenantId email
  let user ← UsersRepo.getByEmail tenantId email
  let user ← Service.okOr user (.unauthorized "Invalid email or password")
  doPasswordLogin w tenantId user password ip userAgent LOGIN_METHOD_EMAIL_PASSWORD

def loginUsernamePassword (tenantId username password : String) (ip userAgent : Option String) :
    Service LoginResult := do
  let user ← UsersRepo.getByUsername tenantId username
  let user ← Service.okOr user (.unauthorized "Invalid username or password")
  doPasswordLogin w tenantId user password ip userAgent LOGIN_METHOD_USERNAME_PASSWORD

/-- Login with verified OTP (caller has already validated the code). -/
def loginWithVerifiedOtp (tenantId email : String) (ip userAgent : Option String) :
    Service LoginResult := do
  let user ← UsersRepo.getByEmailInsensitive tenantId email
  let user ← Service.okOr user (.unauthorized "Invalid or expired code")
  let identity ← loadIdentity user.identityId
  checkGates user identity
  let effective ← effectiveLoginMethods w tenantId user
  Service.ensure (LOGIN_METHOD_EMAIL_OTP ∈ effective)
    (.forbidden "Email OTP login is not allowed for your account")
  finalizeLogin w tenantId user identity ip userAgent

/-! ### The second factor -/

/-- A challenge out of attempts is deleted and refused. -/
def refuseExhausted (mfaToken : String) (challenge : MfaChallenge) : Service Unit := do
  if MAX_MFA_ATTEMPTS ≤ challenge.attemptCount then
    let _ ← MfaRepo.deleteChallenge mfaToken
    Service.throw (.unauthorized "Too many attempts. Sign in again.")
  else pure ()

/-- The second-factor check, with its failed attempt on the challenge and on the identity. -/
def checkSecondFactor (mfaToken : String) (identity : Identity) (code : String) :
    Service Unit := do
  if ← MfaService.verify w identity code then pure ()
  else
    MfaRepo.incrementChallengeAttempts mfaToken
    registerFailedAttempt w identity
    Service.throw (.unauthorized "Invalid MFA code")

/-- Second step of an MFA login: redeem the challenge with a TOTP or backup code. -/
def completeMfaLogin (mfaToken code : String) (ip userAgent : Option String) :
    Service LoginResult := do
  let challenge ← MfaRepo.getChallenge mfaToken
  let challenge ← Service.okOr challenge (.unauthorized "Invalid or expired MFA token")
  refuseExhausted mfaToken challenge
  let user ← UsersRepo.getById challenge.tenantId challenge.userId
  let user ← Service.okOr user (.unauthorized "Invalid or expired MFA token")
  let identity ← loadIdentity user.identityId
  checkGates user identity
  checkSecondFactor w mfaToken identity code
  let redeemed ← MfaRepo.deleteChallenge mfaToken
  Service.ensure (redeemed = true) (.unauthorized "Invalid or expired MFA token")
  IdentitiesRepo.clearFailedAttempts identity.id
  doCreateSession w challenge.tenantId user ip userAgent

/-! ### Identity-first login and tenant selection -/

/-- The tenant memberships of an identity. -/
def tenantsForIdentity (identityId : Uuid) : Service (List TenantMembership) := do
  let memberships ← UsersRepo.getMembershipsForIdentity identityId
  pure (memberships.map fun m => ⟨m.tenantId, m.status⟩)

/-- Tenant-less login by a global handle (email). -/
def loginIdentity (email password : String) : Service (String × List TenantMembership) := do
  let email := trim email
  let identity ← IdentitiesRepo.getByEmail email
  let identity ← Service.okOr identity (.unauthorized "Invalid credentials")
  Service.ensure (identity.status = "active") (.forbidden "Account is not active")
  checkLock identity
  checkPassword w identity password "Invalid credentials"
  IdentitiesRepo.clearFailedAttempts identity.id
  let identityToken ← randomToken
  let now ← utcNow
  IdentityTokensRepo.create identity.id identityToken (now + minutes IDENTITY_TOKEN_TTL_MINS)
  let tenants ← tenantsForIdentity identity.id
  pure (identityToken, tenants)

/-- Resolve an identity token to its tenant memberships. -/
def tenantsForIdentityToken (identityToken : String) : Service (List TenantMembership) := do
  let identityId ← IdentityTokensRepo.getValid identityToken
  let identityId ← Service.okOr identityId (.unauthorized "Invalid or expired identity token")
  tenantsForIdentity identityId

/-- Mint a tenant-scoped session for an already-authenticated identity. -/
def selectTenant (identityId : Uuid) (tenantId : String) (ip userAgent : Option String) :
    Service LoginResult := do
  let user ← UsersRepo.getMembership identityId tenantId
  let user ← Service.okOr user (.forbidden "No membership in this tenant")
  let identity ← loadIdentity identityId
  checkGates user identity
  finalizeLogin w tenantId user identity ip userAgent

/-- Exchange an identity token for a tenant-scoped session. -/
def selectTenantWithToken (identityToken tenantId : String) (ip userAgent : Option String) :
    Service LoginResult := do
  let identityId ← IdentityTokensRepo.getValid identityToken
  let identityId ← Service.okOr identityId (.unauthorized "Invalid or expired identity token")
  selectTenant w identityId tenantId ip userAgent

end AuthService

end Authrs
