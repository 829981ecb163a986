import Authrs.Routes.Oauth
import Authrs.Routes.Otp
import Authrs.Routes.Session
import Authrs.Services.Passwords

/-!
# The routes that sign somebody in

Every route that can end with a session, a challenge, a change token or an identity token. They hand
their parameters to the service, and no address and no user agent.

## Main definitions

* `Routes.selectTenant`, `Routes.mfaValidate`, `Routes.forceChangePassword`, `Routes.switchTenant`: their
  namesakes in the source
* `SignInCall`, `SignInCall.run`: a call of one of the routes
-/

namespace Authrs

open Interaction

namespace Routes

/-- `select_tenant`: exchange an identity token (Bearer) for a session of a tenant. -/
def selectTenant (w : World) (authorization : Option String) (tenantId : String) :
    Service LoginResult := do
  let identityToken ← bearerToken authorization
  AuthService.selectTenantWithToken w identityToken tenantId none none

/-- `mfa_validate`: complete a login that returned a challenge. -/
def mfaValidate (w : World) (mfaToken code : String) : Service LoginResult :=
  AuthService.completeMfaLogin w (trim mfaToken) code none none

/-- `force_change_password`. A second demand for a change would be an error. -/
def forceChangePassword (w : World) (changeToken newPassword retypePassword : String) :
    Service LoginResult := do
  let result ← AuthService.forceChangePassword w changeToken newPassword retypePassword none none
  match result with
  | .passwordChangeRequired _ =>
    Service.throw (.internal "Unexpected login state after password change")
  | result => pure result

/-- `switch_tenant`: a session of another tenant for the identity behind a session (Bearer). -/
def switchTenant (w : World) (authorization : Option String) (tenantId : String) :
    Service LoginResult := do
  let payload ← bearerSession w authorization
  AuthService.selectTenant w payload.identityId tenantId none none

end Routes

/-- A call of a route that signs somebody in. -/
inductive SignInCall
  | emailPassword (tenantId : TenantId) (email password : String)
  | usernamePassword (tenantId : TenantId) (username password : String)
  | otpVerify (tenantId : TenantId) (identifier code channel : String)
  | oauthCallback (tenantId : Option TenantId) (provider : String) (query : OauthCallbackQuery)
  | identityLogin (email password : String)
  | mfaValidate (mfaToken code : String)
  | forceChange (changeToken newPassword retypePassword : String)
  | selectTenant (authorization : Option String) (tenantId : String)
  | switchTenant (authorization : Option String) (tenantId : String)

/-- **The call**, with its result dropped. -/
def SignInCall.run (w : World) : SignInCall → Service Unit
  | emailPassword tenantId email password => do
    let _ ← AuthService.loginEmailPassword w tenantId.val email password none none
    pure ()
  | usernamePassword tenantId username password => do
    let _ ← AuthService.loginUsernamePassword w tenantId.val username password none none
    pure ()
  | otpVerify tenantId identifier code channel => do
    let _ ← Authrs.otpVerify w tenantId.val identifier code channel
    pure ()
  | oauthCallback tenantId provider query => do
    let _ ← Authrs.oauthCallback w tenantId provider query
    pure ()
  | identityLogin email password => do
    let _ ← AuthService.loginIdentity w email password
    pure ()
  | mfaValidate mfaToken code => do
    let _ ← Routes.mfaValidate w mfaToken code
    pure ()
  | forceChange changeToken newPassword retypePassword => do
    let _ ← Routes.forceChangePassword w changeToken newPassword retypePassword
    pure ()
  | selectTenant authorization tenantId => do
    let _ ← Routes.selectTenant w authorization tenantId
    pure ()
  | switchTenant authorization tenantId => do
    let _ ← Routes.switchTenant w authorization tenantId
    pure ()

end Authrs
