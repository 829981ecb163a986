import Authrs.Services.Oauth

/-!
# The OAuth routes

`oauth_redirect` starts a sign-in for the tenant of the `X-Tenant-ID` header, `oauth_callback` ends
one. The tenant of a callback comes from the stored state; a header that is sent along has to agree
with it, and one that the extractor rejects counts as absent.

## Main definitions

* `OauthCallbackQuery`, `callbackParams`: what the provider's redirect carries
* `oauthRedirect`, `oauthCallback`: the routes
-/

namespace Authrs

open Interaction

/-- The query of a callback. -/
structure OauthCallbackQuery where
  code : Option String
  state : Option String
  error : Option String
  errorDescription : Option String

/-- The provider's redirect either carries an `error` (user cancelled, consent denied, ...) or a
non-empty `code` and `state`. -/
def callbackParams (query : OauthCallbackQuery) : Except AppError (String × String) :=
  match query.error with
  | some error =>
    .error (.unauthorized ("OAuth sign-in failed: " ++ query.errorDescription.getD error))
  | none =>
    match query.code, query.state with
    | some c, some s =>
      if c ≠ "" ∧ s ≠ "" then .ok (c, s)
      else .error (.badRequest "code and state are required")
    | _, _ => .error (.badRequest "code and state are required")

/-- An `X-Tenant-ID` header, if sent, must match the tenant of the state. -/
def checkHeaderTenant (tenantId : Option TenantId) (stateTenant : String) : Service Unit :=
  match tenantId with
  | none => pure ()
  | some headerTenant =>
    Service.ensure (headerTenant.val = stateTenant)
      (.unauthorized "OAuth state was issued for a different tenant")

variable (w : World)

/-- `oauth_redirect`: the URL to navigate to, and the `state` to keep. -/
def oauthRedirect (tenantId : TenantId) (provider : String) : Service (String × String) := do
  let provider ← Service.ofResult (Provider.parse provider)
  OauthService.authorizationUrl w tenantId.val provider

/-- `oauth_callback`. -/
def oauthCallback (tenantId : Option TenantId) (provider : String) (query : OauthCallbackQuery) :
    Service LoginResult := do
  let provider ← Service.ofResult (Provider.parse provider)
  let (code, oauthState) ← Service.ofResult (callbackParams query)
  let callback ← OauthService.complete w provider code oauthState
  checkHeaderTenant tenantId callback.tenantId
  AuthService.loginOauth w callback.tenantId provider.asStr callback.profile callback.allowSignup
    none none

theorem Provider.parse_eq_ok {s : String} {p : Provider} :
    Provider.parse s = .ok p ↔ s = p.asStr := by
  unfold Provider.parse
  constructor
  · intro h
    split at h
    · cases h
      assumption
    · split at h
      · cases h
        assumption
      · cases h
  · rintro rfl
    cases p <;> rfl

theorem callbackParams_eq_ok {query : OauthCallbackQuery} {code state : String} :
    callbackParams query = .ok (code, state) ↔
      query.error = none ∧ query.code = some code ∧ query.state = some state ∧
        code ≠ "" ∧ state ≠ "" := by
  unfold callbackParams
  cases query.error with
  | some e => simp
  | none =>
    cases query.code with
    | none => simp
    | some c =>
      cases query.state with
      | none => simp
      | some s =>
        by_cases hcs : c ≠ "" ∧ s ≠ ""
        · simp only [if_pos hcs, Except.ok.injEq, Prod.mk.injEq, Option.some.injEq, true_and]
          constructor
          · rintro ⟨rfl, rfl⟩
            exact ⟨rfl, rfl, hcs⟩
          · rintro ⟨rfl, rfl, -⟩
            exact ⟨rfl, rfl⟩
        · simp only [if_neg hcs, reduceCtorEq, Option.some.injEq, true_and, false_iff]
          rintro ⟨rfl, rfl, hne⟩
          exact hcs hne

end Authrs
