import Authrs.Base.Text
import Authrs.Base.Error
import Authrs.Base.Json
import Authrs.Relational.Table
import Mathlib.Tactic.Simps.Basic

/-!
# The database schema

The tables of the migrations, each keyed by the column (or pair of columns) that identifies its
rows, and the domain values read from them. Columns that no statement of the program reads
(surrogate ids of token tables, creation times of tokens) are left out.

## Main definitions

* `Identity`, `User`, `SessionPayload`: the domain values
* `IdentityRow`, `MembershipRow`, `RoleRow`, …: the rows
* `Db`: the tables
* `User.ofRows`: a membership joined with its identity, as every membership read returns it
-/

namespace Authrs

open Relational

/-! ### Identities and memberships -/

/-- The global account: handles, credentials, lockout. -/
structure Identity where
  id : Uuid
  email : Option String
  mobile : Option String
  countryCode : Option String
  firstName : Option String
  lastName : Option String
  passwordHash : Option String
  mfaEnabled : Bool
  mfaSecret : Option String
  forcePasswordChange : Bool
  failedAttempts : Nat
  lockedUntil : Option Time
  /-- Global account kill-switch (distinct from the per-tenant membership status). -/
  status : String
  createdAt : Time
  updatedAt : Time
  deriving DecidableEq

/-- A row of `identities`: the identity and its TOTP replay marker. -/
structure IdentityRow extends Identity where
  mfaLastUsedStep : Option Nat
  deriving DecidableEq

/-- A row of `users`: the membership of an identity in a tenant. -/
structure MembershipRow where
  id : Uuid
  tenantId : String
  identityId : Uuid
  username : Option String
  status : String
  accessValidUntil : Option Time
  createdAt : Time
  updatedAt : Time
  deriving DecidableEq

/-- A membership with the display fields of its identity. -/
structure User where
  id : Uuid
  tenantId : String
  identityId : Uuid
  firstName : Option String
  lastName : Option String
  email : Option String
  username : Option String
  mobile : Option String
  countryCode : Option String
  status : String
  mfaEnabled : Bool
  accessValidUntil : Option Time
  createdAt : Time
  updatedAt : Time
  deriving DecidableEq

/-- `SELECT_COLS` over `users u JOIN identities i`. -/
@[simps] def User.ofRows (u : MembershipRow) (i : Identity) : User where
  id := u.id
  tenantId := u.tenantId
  identityId := u.identityId
  firstName := i.firstName
  lastName := i.lastName
  email := i.email
  username := u.username
  mobile := i.mobile
  countryCode := i.countryCode
  status := u.status
  mfaEnabled := i.mfaEnabled
  accessValidUntil := u.accessValidUntil
  createdAt := u.createdAt
  updatedAt := u.updatedAt

/-- A row of `identity_oauth_accounts`. -/
structure OauthAccountRow where
  identityId : Uuid
  provider : String
  providerUserId : String
  email : Option String
  deriving DecidableEq

/-- A row of `identity_backup_codes`. -/
structure BackupCodeRow where
  id : Uuid
  identityId : Uuid
  codeHash : String
  consumedAt : Option Time
  deriving DecidableEq

/-! ### Tokens -/

/-- A row of `mfa_challenges`. -/
structure ChallengeRow where
  token : String
  tenantId : String
  userId : Uuid
  attemptCount : Nat
  expiresAt : Time
  deriving DecidableEq

/-- A row of `oauth_states`. -/
structure OauthStateRow where
  state : String
  tenantId : String
  provider : String
  pkceVerifier : String
  nonce : String
  expiresAt : Time
  deriving DecidableEq

/-- A row of `identity_tokens` and of `password_reset_tokens`. -/
structure IdentityTokenRow where
  identityId : Uuid
  token : String
  expiresAt : Time
  deriving DecidableEq

/-- A row of `force_change_tokens`. -/
structure ForceChangeTokenRow where
  tenantId : String
  userId : Uuid
  token : String
  expiresAt : Time
  deriving DecidableEq

/-- A row of `membership_invites`. -/
structure InviteRow where
  identityId : Uuid
  tenantId : String
  firstName : Option String
  lastName : Option String
  username : Option String
  token : String
  expiresAt : Time
  deriving DecidableEq

/-- A row of `otp_codes`. -/
structure OtpRow where
  id : Uuid
  tenantId : String
  identifier : String
  channel : String
  code : String
  purpose : String
  expiresAt : Time
  attemptCount : Nat
  createdAt : Time
  deriving DecidableEq

/-! ### Roles, groups and permissions -/

structure RoleRow where
  id : Uuid
  tenantId : String
  name : String
  uid : String
  parentRoleId : Option Uuid
  deriving DecidableEq

structure GroupRow where
  id : Uuid
  tenantId : String
  name : String
  uid : String
  description : Option String
  createdAt : Time
  deriving DecidableEq

/-- A row of `permissions`; the document is a JSON value that the rest of the program decodes. -/
structure PermissionRow where
  id : Uuid
  tenantId : String
  name : String
  description : Option String
  document : Option Json

structure UserRoleRow where
  userId : Uuid
  roleId : Uuid
  deriving DecidableEq

structure RolePermissionRow where
  roleId : Uuid
  permissionId : Uuid
  deriving DecidableEq

structure UserGroupRow where
  userId : Uuid
  groupId : Uuid
  createdAt : Time
  deriving DecidableEq

structure GroupRoleRow where
  groupId : Uuid
  roleId : Uuid
  deriving DecidableEq

/-! ### Tenants, configuration and sessions -/

structure TenantRow where
  id : String
  name : String
  status : String
  createdAt : Time
  deriving DecidableEq

structure KvStoreRow where
  tenantId : String
  groupKey : String
  key : String
  value : String
  sensitive : Bool
  updatedAt : Time
  deriving DecidableEq

/-- What a session carries. -/
structure SessionPayload where
  tenantId : String
  userId : Uuid
  identityId : Uuid
  roles : List String
  roleIds : List Uuid
  permissions : List String
  groups : List String
  groupIds : List Uuid
  ip : Option String
  userAgent : Option String
  expiresAt : Time
  deriving DecidableEq

/-- A row of `sessions`. -/
structure SessionRow where
  tenantId : String
  userId : Uuid
  sessionToken : String
  ipAddress : Option String
  userAgent : Option String
  expiresAt : Time
  revoked : Bool
  payload : Option SessionPayload
  deriving DecidableEq

/-- The tables, each keyed by what identifies its rows. -/
structure Db where
  tenants : Table TenantRow.id
  kvStore : Table fun r : KvStoreRow => (r.tenantId, r.groupKey, r.key)
  identities : Table fun r : IdentityRow => r.id
  users : Table MembershipRow.id
  identityOauthAccounts : Table fun r : OauthAccountRow => (r.provider, r.providerUserId)
  identityBackupCodes : Table BackupCodeRow.id
  mfaChallenges : Table ChallengeRow.token
  oauthStates : Table OauthStateRow.state
  identityTokens : Table IdentityTokenRow.token
  passwordResetTokens : Table IdentityTokenRow.token
  forceChangeTokens : Table ForceChangeTokenRow.token
  membershipInvites : Table InviteRow.token
  roles : Table RoleRow.id
  groups : Table GroupRow.id
  permissions : Table PermissionRow.id
  userRoles : Table fun r : UserRoleRow => (r.userId, r.roleId)
  rolePermissions : Table fun r : RolePermissionRow => (r.roleId, r.permissionId)
  userGroups : Table fun r : UserGroupRow => (r.userId, r.groupId)
  groupRoles : Table fun r : GroupRoleRow => (r.groupId, r.roleId)
  sessions : Table SessionRow.sessionToken
  otpCodes : Table OtpRow.id

/-- The database without rows. -/
def Db.empty : Db :=
  ⟨∅, ∅, ∅, ∅, ∅, ∅, ∅, ∅, ∅, ∅, ∅, ∅, ∅, ∅, ∅, ∅, ∅, ∅, ∅, ∅, ∅⟩

end Authrs
