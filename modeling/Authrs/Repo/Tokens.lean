import Authrs.Repo.Accounts

/-!
# Repositories of tokens

`OauthRepo`, `IdentityTokensRepo`, `PasswordResetTokensRepo`, `ForceChangeTokensRepo` and
`MembershipInvitesRepo`. A forced-change token and an invite replace the ones before them: the
delete and the insert are two statements.

## Main definitions

* `OauthRepo.*`, `IdentityTokensRepo.*`, `PasswordResetTokensRepo.*`, `ForceChangeTokensRepo.*`,
  `MembershipInvitesRepo.*`: the methods
-/

namespace Authrs

namespace OauthRepo

def createState (state tenantId provider pkceVerifier nonce : String) (expiresAt : Time) :
    Service Unit := do
  -- Opportunistic cleanup keeps the table small without a background job.
  execute (.oauth .deleteExpired)
  execute (.oauth (.insertState state tenantId provider pkceVerifier nonce expiresAt))

/-- Atomically consume a valid (non-expired) state. -/
def takeState (state : String) : Service (Option OauthState) :=
  query (.oauth (.takeState state))

/-- The identity linked to a provider account, if any. -/
def getLinkedIdentity (provider providerUserId : String) : Service (Option Uuid) :=
  query (.oauth (.getLinkedIdentity provider providerUserId))

def link (identityId : Uuid) (provider providerUserId : String) (email : Option String) :
    Service Unit :=
  execute (.oauth (.link identityId provider providerUserId email))

end OauthRepo

namespace IdentityTokensRepo

def create (identityId : Uuid) (token : String) (expiresAt : Time) : Service Unit :=
  execute (.tokens (.createIdentityToken identityId token expiresAt))

def getValid (token : String) : Service (Option Uuid) :=
  query (.tokens (.getIdentityToken token))

def deleteByToken (token : String) : Service Unit :=
  execute (.tokens (.deleteIdentityToken token))

end IdentityTokensRepo

namespace PasswordResetTokensRepo

def create (identityId : Uuid) (token : String) (expiresAt : Time) : Service Unit :=
  execute (.tokens (.createResetToken identityId token expiresAt))

def getValid (token : String) : Service (Option Uuid) := do
  let now ← utcNow
  query (.tokens (.getResetToken token now))

def deleteByToken (token : String) : Service Unit :=
  execute (.tokens (.deleteResetToken token))

def deleteForIdentity (identityId : Uuid) : Service Unit :=
  execute (.tokens (.deleteResetTokensFor identityId))

end PasswordResetTokensRepo

namespace ForceChangeTokensRepo

/-- Store a force-change token for the user. Any existing tokens for the user are replaced. -/
def create (tenantId : String) (userId : Uuid) (token : String) (expiresAt : Time) :
    Service Unit := do
  execute (.tokens (.deleteForceChangeTokensFor tenantId userId))
  execute (.tokens (.createForceChangeToken tenantId userId token expiresAt))

def getValid (token : String) : Service (Option (String × Uuid)) :=
  query (.tokens (.getForceChangeToken token))

def deleteByToken (token : String) : Service Unit :=
  execute (.tokens (.deleteForceChangeToken token))

end ForceChangeTokensRepo

namespace MembershipInvitesRepo

/-- One pending invite per (identity, tenant). -/
def create (identityId : Uuid) (tenantId : String) (firstName lastName username : Option String)
    (token : String) (expiresAt : Time) : Service Unit := do
  execute (.tokens (.deleteInvitesFor identityId tenantId))
  execute (.tokens (.createInvite identityId tenantId firstName lastName username token expiresAt))

def getValid (token : String) : Service (Option MembershipInvite) :=
  query (.tokens (.getInvite token))

def deleteByToken (token : String) : Service Unit :=
  execute (.tokens (.deleteInvite token))

end MembershipInvitesRepo

end Authrs
