import Authrs.Services.Auth

/-!
# The auth service: passwords

Setting the shared password: by a reset token, by the user, by an administrator, and by a
forced-change token, whose holder is logged in afterwards.

## Main definitions

* `AuthService.passwordPolicyError`: what a password violates
* `AuthService.forgotPassword`, `resetPassword`, `changePassword`, `adminResetPassword`,
  `forceChangePassword`

## Main results

* `AuthService.exec_validatePassword`: the policy check run alone
-/

namespace Authrs

open Interaction

namespace AuthService

variable (w : World)

/-- `validate_password_policy`: the first requirement a password violates. -/
def passwordPolicyError (password : String) (policy : Option PasswordPolicy) : Option AppError :=
  match policy with
  | none => none
  | some p =>
    if p.minLength.any (password.utf8ByteSize < ·) then
      some (.badRequest ("Password must be at least " ++ toString (p.minLength.getD 0) ++
        " characters"))
    else if p.requireUppercase = some true ∧ ¬password.toList.any w.isUppercase then
      some (.badRequest "Password must contain at least one uppercase letter")
    else if p.requireDigit = some true ∧ ¬password.toList.any isAsciiDigit then
      some (.badRequest "Password must contain at least one digit")
    else none

/-- The tenant's password policy holds of a password. -/
def validatePassword (tenantId password : String) : Service Unit := do
  let policy ← TenantConfigLoader.getPasswordPolicy w tenantId
  match passwordPolicyError w password policy with
  | some e => Service.throw e
  | none => pure ()

/-- What the tenant's password policy says of a password. -/
def policyOutcome (db : Db) (tenantId password : String) : Except AppError Unit := do
  let v ← db.config w tenantId "password_policy" "default"
  match passwordPolicyError w password (v.bind PasswordPolicy.fromValue) with
  | some e => .error e
  | none => .ok ()

theorem exec_validatePassword (s : State) (tenantId password : String) :
    (validatePassword w tenantId password).exec (handle w) s =
      ((policyOutcome w s.db tenantId password).mapError .error, s) := by
  unfold validatePassword TenantConfigLoader.getPasswordPolicy policyOutcome
  rw [Program.bind_eq, Program.exec_bind, TenantConfigLoader.exec_getTyped]
  cases s.db.config w tenantId "password_policy" "default" with
  | error e => rfl
  | ok v =>
    change (match passwordPolicyError w password (v.bind PasswordPolicy.fromValue) with
        | some e => Service.throw e
        | none => pure () : Service Unit).exec (handle w) s =
      ((match passwordPolicyError w password (v.bind PasswordPolicy.fromValue) with
        | some e => .error e
        | none => .ok () : Except AppError Unit).mapError .error, s)
    cases passwordPolicyError w password (v.bind PasswordPolicy.fromValue) <;> rfl

def ensureRetyped (password retypePassword : String) : Service Unit :=
  Service.ensure (password = retypePassword)
    (.badRequest "Password and retype password do not match")

theorem exec_validatePassword_eq_ok {w : World} {s s' : State} {tenantId password : String} :
    (validatePassword w tenantId password).exec (handle w) s = (.ok (), s') ↔
      policyOutcome w s.db tenantId password = .ok () ∧ s = s' := by
  rw [exec_validatePassword]
  cases policyOutcome w s.db tenantId password with
  | error e => simp [Except.mapError]
  | ok u => simp [Except.mapError]

/-- Forgot password: create a reset token for the email's identity, if there is one. -/
def forgotPassword (email : String) : Service (Option (String × String)) := do
  let email := w.toLowercase (trim email)
  Service.ensure (email ≠ "") (.badRequest "Email is required")
  let identity ← IdentitiesRepo.getByEmail email
  match identity.bind fun i => i.email.map fun e => (i.id, e) with
  | none => pure none
  | some (identityId, toEmail) =>
    PasswordResetTokensRepo.deleteForIdentity identityId
    let token ← randomToken
    let now ← utcNow
    PasswordResetTokensRepo.create identityId token (now + minutes PASSWORD_RESET_TOKEN_TTL_MINS)
    pure (some (toEmail, token))

/-- Reset password using a token from the forgot-password email. -/
def resetPassword (tenantId token newPassword retypePassword : String) : Service Unit := do
  let token := trim token
  Service.ensure (token ≠ "") (.badRequest "Token is required")
  ensureRetyped newPassword retypePassword
  validatePassword w tenantId newPassword
  let identityId ← PasswordResetTokensRepo.getValid token
  let identityId ← Service.okOr identityId (.badRequest "Invalid or expired reset token")
  let passwordHash ← hashPassword newPassword
  IdentitiesRepo.updatePassword identityId passwordHash
  PasswordResetTokensRepo.deleteByToken token

/-- Change password for the current user (requires current password). -/
def changePassword (tenantId : String) (userId : Uuid)
    (currentPassword newPassword retypePassword : String) : Service Unit := do
  ensureRetyped newPassword retypePassword
  validatePassword w tenantId newPassword
  let user ← UsersRepo.getById tenantId userId
  let user ← Service.okOr user (.notFound "User not found")
  let identity ← loadIdentity user.identityId
  let passwordHash ← Service.okOr identity.passwordHash (.badRequest "Account has no password set")
  let correct ← verifyPassword w passwordHash currentPassword
  Service.ensure (correct = true) (.unauthorized "Current password is incorrect")
  let newHash ← hashPassword newPassword
  IdentitiesRepo.updatePassword identity.id newHash

/-- Set the password of an identity, for the tenant whose administrator may. -/
def setSharedPassword (identityId : Uuid) (newPassword : String) (forcePasswordChange : Bool) :
    Service Unit := do
  let passwordHash ← hashPassword newPassword
  IdentitiesRepo.updatePassword identityId passwordHash
  IdentitiesRepo.setForcePasswordChange identityId forcePasswordChange

/-- Require the user to reset a password shared with other tenants. -/
def forceSharedChange (identityId : Uuid) (forcePasswordChange : Bool) : Service Unit := do
  Service.ensure (forcePasswordChange = true)
    (.forbidden ("This account belongs to multiple tenants; you cannot set its shared password." ++
      " Pass forcePasswordChange=true to require the user to reset it themselves."))
  IdentitiesRepo.setForcePasswordChange identityId true

/-- Admin reset: set a new password for a user (no current password required). -/
def adminResetPassword (tenantId : String) (userId : Uuid) (newPassword retypePassword : String)
    (forcePasswordChange : Bool) : Service Unit := do
  ensureRetyped newPassword retypePassword
  validatePassword w tenantId newPassword
  let user ← UsersRepo.getById tenantId userId
  let user ← Service.okOr user (.notFound "User not found")
  -- A tenant admin may set a usable password only when the identity is single-tenant.
  let memberships ← UsersRepo.getMembershipsForIdentity user.identityId
  if 1 < memberships.length then forceSharedChange user.identityId forcePasswordChange
  else setSharedPassword user.identityId newPassword forcePasswordChange

/-- Complete a forced password change using a change token issued at login. -/
def forceChangePassword (changeToken newPassword retypePassword : String)
    (ip userAgent : Option String) : Service LoginResult := do
  let found ← ForceChangeTokensRepo.getValid changeToken
  let (tenantId, userId) ← Service.okOr found (.unauthorized "Invalid or expired change token")
  ensureRetyped newPassword retypePassword
  validatePassword w tenantId newPassword
  let user ← UsersRepo.getById tenantId userId
  let user ← Service.okOr user (.notFound "User not found")
  checkAccess user
  let passwordHash ← hashPassword newPassword
  -- update_password also clears the global force_password_change flag.
  IdentitiesRepo.updatePassword user.identityId passwordHash
  ForceChangeTokensRepo.deleteByToken changeToken
  let identity ← loadIdentity user.identityId
  finalizeLogin w tenantId user identity ip userAgent

end AuthService

end Authrs
