import Authrs.Services.Passwords

/-!
# The auth service: provisioning

The operations that create identities and memberships: public signup, the administrator's user
creation, sign-in with an identity provider, and the acceptance of an invite. Each insert is a
statement of its own.

## Main definitions

* `AuthService.signup`, `adminCreateUser`, `loginOauth`, `verifyMembershipInvite`
* `AuthService.resolveOrCreateIdentity`, `resolveOauthIdentity`, `ensureMembership`
-/

namespace Authrs

open Interaction

/-- Provider account normalized for account linking. -/
structure OauthProfile where
  providerUserId : String
  email : Option String
  /-- True only when the provider vouches the email belongs to this account. -/
  emailVerified : Bool
  firstName : Option String
  lastName : Option String
  deriving DecidableEq

/-- The email the provider vouches for. -/
def OauthProfile.verifiedEmail (profile : OauthProfile) : Option String :=
  if profile.emailVerified then profile.email else none

/-- The email the provider does not vouch for. -/
def OauthProfile.unverifiedEmail (profile : OauthProfile) : Option String :=
  if profile.emailVerified then none else profile.email

/-- Outcome of a public signup. -/
inductive SignupOutcome
  | created (user : User)
  | verificationSent (email token : String)

/-- A text that is present and not empty. -/
def isPresent (s : Option String) : Bool := s.any (· ≠ "")

/-- At least one of email, (mobile AND country code), or username must exist. -/
def hasValidIdentity (email mobile countryCode username : Option String) : Bool :=
  isPresent email || (isPresent mobile && isPresent countryCode) || isPresent username

namespace AuthService

variable (w : World)

/-! ### Sign-in with an identity provider -/

/-- Only a verified email can satisfy the domain allowlist. -/
def checkOauthDomain (tenantId : String) (verifiedEmail : Option String) : Service Unit :=
  match verifiedEmail with
  | some e => ensureEmailDomainAllowed w tenantId e
  | none => do
    let allowed ← TenantConfigLoader.getAllowedEmailDomains w tenantId
    Service.ensure (allowed.getD [] = [])
      (.forbidden "A verified email is required to sign in to this tenant")

/-- An unverified email must never attach to (or shadow) an existing account. -/
def refuseUnverifiedCollision (unverifiedEmail : Option String) : Service Unit :=
  match unverifiedEmail with
  | none => pure ()
  | some e => do
    let taken ← IdentitiesRepo.existsByEmail e
    Service.ensure (taken = false)
      (.forbidden
        "An account with this email already exists. Sign in with your existing method.")

/-- A fresh social-only identity: the email handle is set only when verified. -/
def createOauthIdentity (profile : OauthProfile) (allowSignup : Bool) : Service Identity := do
  refuseUnverifiedCollision profile.unverifiedEmail
  Service.ensure (allowSignup = true) (.forbidden "No account exists for this sign-in")
  IdentitiesRepo.create profile.verifiedEmail none none profile.firstName
    profile.lastName none

/-- The identity of a verified email, if any. -/
def identityOfVerifiedEmail (verifiedEmail : Option String) : Service (Option Identity) :=
  match verifiedEmail with
  | some e => IdentitiesRepo.getByEmail e
  | none => pure none

/-- The identity that an unlinked provider account is linked to. -/
def identityToLink (profile : OauthProfile) (allowSignup : Bool) : Service Identity := do
  let existing ← identityOfVerifiedEmail profile.verifiedEmail
  match existing with
  -- The provider verified ownership of this email: link to its identity.
  | some i => pure i
  | none => createOauthIdentity profile allowSignup

/-- Resolve the global identity: linked provider account, else auto-link by a provider-VERIFIED
email, else a fresh identity. -/
def resolveOauthIdentity (provider : String) (profile : OauthProfile) (allowSignup : Bool) :
    Service Identity := do
  let linked ← OauthRepo.getLinkedIdentity provider profile.providerUserId
  match linked with
  | some identityId => loadIdentity identityId
  | none =>
    let identity ← identityToLink profile allowSignup
    OauthRepo.link identity.id provider profile.providerUserId profile.email
    pure identity

/-- The membership in the tenant, created when signup is allowed. -/
def ensureMembership (identity : Identity) (tenantId : String) (allowSignup : Bool) :
    Service User := do
  let membership ← UsersRepo.getMembership identity.id tenantId
  match membership with
  | some u => pure u
  | none =>
    if allowSignup then UsersRepo.create identity tenantId none
    else Service.throw (.forbidden "No membership in this tenant")

/-- Login (or first-time sign-in) with a verified OAuth provider profile. -/
def loginOauth (tenantId provider : String) (profile : OauthProfile) (allowSignup : Bool)
    (ip userAgent : Option String) : Service LoginResult := do
  checkOauthDomain w tenantId profile.verifiedEmail
  let identity ← resolveOauthIdentity provider profile allowSignup
  Service.ensure (identity.status = "active") (.forbidden "Account is not active")
  let user ← ensureMembership identity tenantId allowSignup
  checkGates user identity
  let effective ← effectiveLoginMethods w tenantId user
  Service.ensure (LOGIN_METHOD_OAUTH ∈ effective)
    (.forbidden "OAuth login is not allowed for your account")
  finalizeLogin w tenantId user identity ip userAgent

/-! ### Signup -/

/-- A mobile number needs its country code. -/
def mobileWithoutCode (mobile countryCode : Option String) : Bool :=
  match mobile, countryCode with
  | some m, some c => trim m ≠ "" && trim c = ""
  | _, _ => false

/-- The identity of a mobile number, when both parts are given. -/
def identityOfMobile (mobile countryCode : Option String) : Service (Option Identity) :=
  match mobile, countryCode with
  | some m, some c => IdentitiesRepo.getByMobile c m
  | _, _ => pure none

/-- The existing identity a signup collides with, by email or by mobile. -/
def signupCollision (email : String) (mobile countryCode : Option String) :
    Service (Option Identity) := do
  let byEmail ← IdentitiesRepo.getByEmail email
  match byEmail with
  | some i => pure (some i)
  | none => identityOfMobile mobile countryCode

/-- Email the real owner a verify-to-join link. -/
def inviteExisting (identity : Identity) (tenantId email : String)
    (firstName lastName : Option String) : Service SignupOutcome := do
  let token ← randomToken
  let now ← utcNow
  MembershipInvitesRepo.create identity.id tenantId firstName lastName none token
    (now + minutes PASSWORD_RESET_TOKEN_TTL_MINS)
  pure (.verificationSent (identity.email.getD email) token)

/-- Sign up a new user with email (required), optional mobile, and password. -/
def signup (tenantId firstName lastName email : String) (mobile countryCode : Option String)
    (password retypePassword : String) : Service SignupOutcome := do
  let email := trim email
  Service.ensure (email ≠ "") (.badRequest "Email is required")
  ensureEmailDomainAllowed w tenantId email
  ensureRetyped password retypePassword
  validatePassword w tenantId password
  Service.ensure (mobileWithoutCode mobile countryCode = false)
    (.badRequest "Country code is required when mobile is provided")
  let mobile := nonEmptyTrimmed mobile
  let countryCode := nonEmptyTrimmed countryCode
  let first := nonEmptyTrimmed (some firstName)
  let last := nonEmptyTrimmed (some lastName)
  let member ← UsersRepo.getByEmail tenantId email
  Service.ensure (member = none) (.conflict "An account with this email already exists")
  let existing ← signupCollision email mobile countryCode
  match existing with
  | some identity => inviteExisting identity tenantId email first last
  | none =>
    let passwordHash ← hashPassword password
    let identity ← IdentitiesRepo.create (some email) mobile countryCode first last
      (some passwordHash)
    let user ← UsersRepo.create identity tenantId none
    pure (.created user)

/-! ### Provisioning by an administrator -/

/-- No member of the tenant has the email yet. -/
def ensureEmailFree (tenantId : String) (email : Option String) : Service Unit :=
  match email with
  | none => pure ()
  | some e => do
    let member ← UsersRepo.getByEmail tenantId e
    Service.ensure (member = none) (.conflict "An account with this email already exists")

/-- No member of the tenant has the username yet. -/
def ensureUsernameFree (tenantId : String) (username : Option String) : Service Unit :=
  match username with
  | none => pure ()
  | some u => do
    let member ← UsersRepo.getByUsername tenantId u
    Service.ensure (member = none) (.conflict "An account with this username already exists")

/-- The hash of an optional password, which has to be retyped. -/
def hashOptionalPassword (tenantId : String) (password retypePassword : Option String) :
    Service (Option String) :=
  match password, retypePassword with
  | some p, some r => do
    ensureRetyped p r
    validatePassword w tenantId p
    let passwordHash ← hashPassword p
    pure (some passwordHash)
  | none, none => pure none
  | _, _ => Service.throw (.badRequest
      "Both password and retypePassword are required when setting a password")

/-- The identity of an optional email. -/
def identityOfEmail (email : Option String) : Service (Option Identity) :=
  match email with
  | some e => IdentitiesRepo.getByEmail e
  | none => pure none

/-- Find a global identity by email or mobile, or create one. -/
def resolveOrCreateIdentity
    (email mobile countryCode firstName lastName passwordHash : Option String) :
    Service Identity := do
  let byEmail ← identityOfEmail email
  match byEmail with
  | some i => pure i
  | none =>
    let byMobile ← identityOfMobile mobile countryCode
    match byMobile with
    | some i => pure i
    | none => IdentitiesRepo.create email mobile countryCode firstName lastName passwordHash

/-- Admin create user: at least one of email, (mobile+country code), or username required. -/
def adminCreateUser (tenantId : String)
    (firstName lastName email username mobile countryCode password retypePassword :
      Option String) : Service User := do
  let email := nonEmptyTrimmed email
  let username := nonEmptyTrimmed username
  let mobile := nonEmptyTrimmed mobile
  let countryCode := nonEmptyTrimmed countryCode
  Service.ensure (hasValidIdentity email mobile countryCode username = true)
    (.badRequest "At least one of email, (mobile and countryCode), or username is required")
  ensureEmailFree tenantId email
  ensureUsernameFree tenantId username
  let passwordHash ← hashOptionalPassword w tenantId password retypePassword
  let identity ← resolveOrCreateIdentity email mobile countryCode (nonEmptyTrimmed firstName)
    (nonEmptyTrimmed lastName) passwordHash
  UsersRepo.create identity tenantId username

/-! ### Memberships -/

/-- Accept a membership invite (verify-to-join). -/
def verifyMembershipInvite (token : String) : Service User := do
  let invite ← MembershipInvitesRepo.getValid token
  let invite ← Service.okOr invite (.badRequest "Invalid or expired invite token")
  let membership ← UsersRepo.getMembership invite.identityId invite.tenantId
  match membership with
  -- Idempotent: if the membership already exists, just consume the token.
  | some user =>
    MembershipInvitesRepo.deleteByToken token
    pure user
  | none =>
    let identity ← loadIdentity invite.identityId
    let user ← UsersRepo.create identity invite.tenantId invite.username
    MembershipInvitesRepo.deleteByToken token
    pure user

def adminSetAccessValidUntil (tenantId : String) (userId : Uuid)
    (accessValidUntil : Option Time) : Service Unit := do
  let user ← UsersRepo.getById tenantId userId
  let _ ← Service.okOr user (.notFound "User not found")
  UsersRepo.setAccessValidUntil tenantId userId accessValidUntil

def adminArchiveUser (tenantId : String) (userId : Uuid) : Service Unit := do
  let user ← UsersRepo.getById tenantId userId
  let _ ← Service.okOr user (.notFound "User not found")
  let archived ← UsersRepo.archive tenantId userId
  Service.ensure (archived = true) (.badRequest "User is already archived")

end AuthService

end Authrs
