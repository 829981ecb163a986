import Authrs.Repo.Otp
import Authrs.Services.Provisioning

/-!
# The routes of the one-time codes

`email_otp_request` and `otp_verify` of the auth router. A verification reads the newest code, and
compares it, and counts a wrong one or logs in and deletes the right one: four requests with
nothing that holds them together.

## Main definitions

* `emailOtpRequest`, `otpVerify`: the routes
* `checkOtp`: the comparison
-/

namespace Authrs

open Interaction

def MAX_OTP_ATTEMPTS : Nat := 5

variable (w : World)

/-- `email_otp_request`. -/
def emailOtpRequest (tenantId email : String) : Service Unit := do
  Service.ensure (w.smtpConfigured = true)
    (.internal "Email OTP is not configured. Set SMTP_HOST and SMTP_FROM.")
  let email := w.toLowercase (trim email)
  Service.ensure (email ≠ "") (.badRequest "email is required")
  AuthService.ensureEmailDomainAllowed w tenantId email
  let code : String ← Program.request (I := authrs) Request.newOtpCode
  let now ← utcNow
  let _ ← OtpRepo.create tenantId email "email" code "login" (now + minutes 10)
  let sent : Except String Unit ←
    Program.request (I := authrs) (Request.sendOtpEmail email code)
  Service.ofResult (sent.mapError fun _ => .internal "Failed to send verification email")

/-- The comparison of a code with a row: a wrong code is counted. -/
def checkOtp (otp : OtpRow) (code : String) : Service Unit := do
  Service.ensure (otp.attemptCount < MAX_OTP_ATTEMPTS)
    (.unauthorized "Too many attempts. Request a new code.")
  if otp.code ≠ code then
    OtpRepo.incrementAttempts otp.id
    Service.throw (.unauthorized "Invalid or expired code")
  else pure ()

/-- `otp_verify`. -/
def otpVerify (tenantId identifier code channel : String) : Service LoginResult := do
  let identifier := trim identifier
  let code := trim code
  let channel := trim channel
  Service.ensure (identifier ≠ "" ∧ code ≠ "" ∧ channel ≠ "")
    (.badRequest "identifier, code, and channel are required")
  Service.ensure (channel = "email") (.badRequest "Only channel 'email' is supported")
  let identifier := w.toLowercase identifier
  let otp ← OtpRepo.getLatest tenantId identifier "email" "login"
  let otp ← Service.okOr otp (.unauthorized "Invalid or expired code")
  checkOtp otp code
  let result ← AuthService.loginWithVerifiedOtp w tenantId identifier none none
  OtpRepo.delete otp.id
  pure result

end Authrs
