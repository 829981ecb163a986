import Authrs.Services.Provisioning

/-!
# The signup route

The handler of `/auth/signup` and the response that the client sees. A new account is answered
with its fields; an account that exists is answered with a generic text, after a link has been
mailed to its owner.

## Main definitions

* `Response`, `AppError.intoResponse`: what a handler answers
* `SignupBody`, `Mails`: the request, and the settings of the deployment for mails
* `Routes.signup`: the handler
* `Service.response`: the response to a call
-/

namespace Authrs

open Interaction

/-! ### Responses -/

/-- A status code with a JSON body. -/
structure Response where
  status : Nat
  body : Json

/-- The status code of an error, and its code in the body. -/
def AppError.statusCode : AppError → Nat × String
  | .badRequest _ => (400, "bad_request")
  | .unauthorized _ => (401, "unauthorized")
  | .forbidden _ => (403, "forbidden")
  | .notFound _ => (404, "not_found")
  | .conflict _ => (409, "conflict")
  | .locked _ => (423, "account_locked")
  | .accessExpired _ => (403, "access_expired")
  | .tooManyRequests _ => (429, "rate_limited")
  | .validation _ => (422, "invalid_filter")
  | .internal _ => (500, "internal_error")

/-- `IntoResponse for AppError`. -/
def AppError.intoResponse (e : AppError) : Response where
  status := e.statusCode.1
  body := .object [("error", .string e.statusCode.2), ("message", .string e.display)]

theorem AppError.status_le (e : AppError) : 400 ≤ e.intoResponse.status := by
  cases e with
  | _ => simp [intoResponse, statusCode]

/-- An optional text as JSON. -/
def Json.ofOption : Option String → Json
  | none => .null
  | some s => .string s

/-- **The response to a call.** A handler that panics answers nothing. -/
def Service.response (w : World) (s : State) (p : Service Response) : Option Response :=
  match (p.exec (handle w) s).1 with
  | .ok r => some r
  | .error (.error e) => some e.intoResponse
  | .error (.panic _) => none

section Response

variable {w : World} {s s' : State} {p : Service Response}

theorem Service.response_ok {r : Response} (h : p.exec (handle w) s = (.ok r, s')) :
    p.response w s = some r := by
  unfold response
  rw [h]

/-- A response that is no error has been returned by the handler. -/
theorem Service.exec_of_response {r : Response} (h : p.response w s = some r)
    (hstatus : r.status < 400) : ∃ s', p.exec (handle w) s = (.ok r, s') := by
  unfold response at h
  rcases hexec : p.exec (handle w) s with ⟨f | a, s'⟩
  · rw [hexec] at h
    cases f with
    | panic m => cases h
    | error e =>
      cases h
      exact absurd hstatus (Nat.not_lt.mpr e.status_le)
  · rw [hexec] at h
    cases h
    exact ⟨s', rfl⟩

end Response

/-! ### The handler -/

/-- The body of a signup request. -/
structure SignupBody where
  firstName : String
  lastName : String
  email : String
  mobile : Option String
  countryCode : Option String
  password : String
  retypePassword : String

/-- The settings of the deployment for mails, and what becomes of an invite mail. -/
structure Mails where
  frontendUrl : Option String
  sendInvite : (toEmail token : String) → (link : Option String) → Except String Unit

/-- `trim_end_matches('/')`. -/
def trimEndSlashes (s : String) : String :=
  String.ofList (s.toList.reverse.dropWhile (· = '/')).reverse

def membershipLink (base token : String) : String :=
  trimEndSlashes base ++ "/verify-membership?token=" ++ token

/-- The base URL for links; an empty one counts as absent. -/
def TenantConfigLoader.getFrontendBaseUrl (w : World) (tenantId : String) :
    Service (Option String) := do
  let v ← getTyped w tenantId "frontend_config" "base_url" Json.asString
  pure (v.filter (· ≠ ""))

namespace Routes

variable (w : World) (mails : Mails)

/-- Email the owner a verify link to join this tenant. -/
def mailInvite (tenantId toEmail token : String) : Service Unit := do
  if w.smtpConfigured = true then
    let configured ← TenantConfigLoader.getFrontendBaseUrl w tenantId
    let baseUrl := configured.orElse fun _ => mails.frontendUrl
    let link := baseUrl.map (membershipLink · token)
    -- an error of the mail server is only logged
    let _sent := mails.sendInvite toEmail token link
    pure ()
  else pure ()

/-- The response to a new account. -/
def createdResponse (user : User) : Response where
  status := 201
  body := .object [("id", .string user.id.hyphenated),
    ("firstName", .ofOption user.firstName), ("lastName", .ofOption user.lastName),
    ("email", .ofOption user.email), ("mobile", .ofOption user.mobile),
    ("countryCode", .ofOption user.countryCode), ("status", .string user.status)]

/-- The response is intentionally generic (no enumeration). -/
def acceptedResponse : Response where
  status := 202
  body := .object [("message", .string
    "Registration received. If further steps are required, we've emailed you instructions.")]

/-- The response to an outcome of the service. -/
def respond (tenantId : String) : SignupOutcome → Service Response
  | .created user => pure (createdResponse user)
  | .verificationSent email token => do
    mailInvite w mails tenantId email token
    pure acceptedResponse

def signup (tenantId : TenantId) (body : SignupBody) : Service Response := do
  let outcome ← AuthService.signup w tenantId.val body.firstName body.lastName body.email body.mobile
    body.countryCode body.password body.retypePassword
  respond w mails tenantId.val outcome

end Routes

end Authrs
