import Authrs.Services.Provisioning

/-!
# The OAuth service

Authorization-code flow with PKCE and an OIDC nonce. The redirect stores a single-use state
(tenant, provider, verifier, nonce); the callback consumes it, exchanges the code at the
provider's token endpoint, and verifies the ID token against the provider's published keys.

## Main definitions

* `Provider`, `microsoftAuthority`, `ProviderEndpoints.authUrl`, `tokenUrl`, `jwksUrl`
* `OauthService.authorizationUrl`, `OauthService.complete`: the two steps of a flow
* `OauthService.exchangeCode`, `verifyIdToken`, `findJwk`, `profileFromClaims`
-/

namespace Authrs

open Interaction

def STATE_TTL_MINS : Int := 10
def OIDC_SCOPES : String := "openid email profile"
/-- Signing keys rotate rarely; refresh hourly, or sooner when an unknown `kid` shows up. -/
def JWKS_CACHE_TTL_SECS : Int := 3600
/-- Minimum gap between forced JWKS refetches. -/
def JWKS_MIN_REFRESH_SECS : Int := 60
def GOOGLE_ISSUERS : List String := ["https://accounts.google.com", "accounts.google.com"]
def MICROSOFT_LOGIN_BASE : String := "https://login.microsoftonline.com"
def MICROSOFT_DEFAULT_AUTHORITY : String := "common"
def MICROSOFT_CONSUMERS_TENANT_ID : String := "9188040d-6c67-4c5b-b112-36a304b66dad"

/-- The identity providers. -/
inductive Provider
  | google
  | microsoft
  deriving DecidableEq

namespace Provider

def parse (s : String) : Except AppError Provider :=
  if s = "google" then .ok .google
  else if s = "microsoft" then .ok .microsoft
  else .error (.notFound ("Unsupported OAuth provider '" ++ s ++ "'"))

def asStr : Provider → String
  | google => "google"
  | microsoft => "microsoft"

theorem asStr_injective : Function.Injective asStr := by
  intro p q
  cases p <;> cases q <;> simp [asStr]

end Provider

/-- Microsoft authority segment ("common" | "organizations" | "consumers" | tenant). -/
def microsoftAuthority (cfg : OauthConfig) : String :=
  (nonEmptyTrimmed cfg.tenant).getD MICROSOFT_DEFAULT_AUTHORITY

namespace ProviderEndpoints

def authUrl (e : ProviderEndpoints) (provider : Provider) (cfg : OauthConfig) : String :=
  match provider with
  | .google => e.googleAuthUrl
  | .microsoft => e.microsoftLoginBase ++ "/" ++ microsoftAuthority cfg ++ "/oauth2/v2.0/authorize"

def tokenUrl (e : ProviderEndpoints) (provider : Provider) (cfg : OauthConfig) : String :=
  match provider with
  | .google => e.googleTokenUrl
  | .microsoft => e.microsoftLoginBase ++ "/" ++ microsoftAuthority cfg ++ "/oauth2/v2.0/token"

def jwksUrl (e : ProviderEndpoints) (provider : Provider) (cfg : OauthConfig) : String :=
  match provider with
  | .google => e.googleJwksUrl
  | .microsoft => e.microsoftLoginBase ++ "/" ++ microsoftAuthority cfg ++ "/discovery/v2.0/keys"

end ProviderEndpoints

/-- `str::eq_ignore_ascii_case`. -/
def eqIgnoreAsciiCase (a b : String) : Bool :=
  a.toList.map Char.toLower = b.toList.map Char.toLower

/-- `str::to_ascii_lowercase`. -/
def toAsciiLowercase (s : String) : String := String.ofList (s.toList.map Char.toLower)

/-- Providers emit boolean claims either as JSON booleans or as "true"/"false" strings. -/
def claimIsTrue : Option Json → Bool
  | some (.bool b) => b
  | some (.string s) => eqIgnoreAsciiCase s "true"
  | _ => false

/-- The tenant that started the flow, the verified profile, and whether the tenant allows
OAuth auto-provisioning. -/
structure OauthCallback where
  tenantId : String
  profile : OauthProfile
  allowSignup : Bool

/-- `TokenResponse`: an optional `id_token`. -/
def tokenResponse (w : World) (body : String) : Except String (Option String) := do
  let j ← w.parseJson body
  match j.fields ["id_token"] 1 with
  | some [idToken] =>
    match idToken.asOption Json.asString with
    | some t => .ok t
    | none => .error "invalid type"
  | _ => .error "invalid type"

/-- The `error` of a `TokenErrorResponse`, if the body is one. -/
def tokenError (w : World) (body : String) : Option String := do
  let j ← (w.parseJson body).toOption
  match ← j.fields ["error", "error_description"] 2 with
  | [err, description] =>
    (description.asOption Json.asString).bind fun _ => (err.asOption Json.asString).join
  | _ => none

namespace OauthService

variable (w : World)

def loadConfig (tenantId : String) (provider : Provider) : Service OauthConfig := do
  let cfg ← TenantConfigLoader.getOauth w tenantId provider.asStr
  Service.okOr cfg (.badRequest
    ("OAuth provider '" ++ provider.asStr ++ "' is not configured for this tenant"))

/-- The parameters of the authorize URL. -/
def authorizeParams (cfg : OauthConfig) (state nonce verifier : String) :
    List (String × String) :=
  [("client_id", cfg.clientId), ("response_type", "code"), ("redirect_uri", cfg.redirectUrl),
    ("scope", OIDC_SCOPES), ("state", state), ("nonce", nonce),
    ("code_challenge", w.sha256Base64 verifier), ("code_challenge_method", "S256"),
    ("prompt", "select_account")]

/-- Start a sign-in: persist a single-use state and build the provider authorize URL. -/
def authorizationUrl (tenantId : String) (provider : Provider) : Service (String × String) := do
  let cfg ← loadConfig w tenantId provider
  let state ← randomToken
  let verifier ← randomToken
  let nonce ← randomToken
  let now ← utcNow
  OauthRepo.createState state tenantId provider.asStr verifier nonce
    (now + minutes STATE_TTL_MINS)
  let url ← Service.ofResult ((w.urlWithParams (w.endpoints.authUrl provider cfg)
    (authorizeParams w cfg state nonce verifier)).mapError fun e =>
      .internal ("Invalid OAuth authorize URL: " ++ e))
  pure (url, state)

/-- A request to the network, with its error under a message. -/
def send (r : HttpRequest) (message : String) : Service HttpResponse := do
  let resp : Except String HttpResponse ← Program.request (I := authrs) (Request.http r)
  Service.ofResult (resp.mapError fun e => .internal (message ++ e))

/-- The form sent to the token endpoint. -/
def tokenForm (cfg : OauthConfig) (code pkceVerifier : String) : List (String × String) :=
  [("grant_type", "authorization_code"), ("code", code), ("redirect_uri", cfg.redirectUrl),
    ("client_id", cfg.clientId), ("client_secret", cfg.clientSecret),
    ("code_verifier", pkceVerifier)]

/-- The ID token in the token endpoint's answer. -/
def idTokenOf (resp : HttpResponse) : Except AppError String :=
  if 200 ≤ resp.status ∧ resp.status < 300 then
    match tokenResponse w resp.body with
    | .error e => .error (.internal ("Invalid OAuth token response: " ++ e))
    | .ok none => .error (.unauthorized "Provider did not return an ID token")
    | .ok (some t) => .ok t
  else .error (.unauthorized
    ("OAuth code exchange failed: " ++ (tokenError w resp.body).getD "unknown_error"))

def exchangeCode (provider : Provider) (cfg : OauthConfig) (code pkceVerifier : String) :
    Service String := do
  let resp ← send (.postForm (w.endpoints.tokenUrl provider cfg) (tokenForm cfg code pkceVerifier))
    "OAuth token request failed: "
  Service.ofResult (idTokenOf w resp)

/-- `JwkSet::find`. -/
def findKey (keys : List Jwk) (kid : String) : Option Jwk :=
  keys.find? fun k => k.keyId = some kid

/-- What the cache says about a key: found, to be fetched, or refused because the last fetch was
too recent. -/
def cachedKey (cached : Option CachedJwks) (kid : String) (now : Time) :
    Except AppError (Option Jwk) :=
  match cached with
  | none => .ok none
  | some entry =>
    let age := (now - entry.fetchedAt) / 1000000
    match if age < JWKS_CACHE_TTL_SECS then findKey entry.keys kid else none with
    | some jwk => .ok (some jwk)
    | none =>
      if age < JWKS_MIN_REFRESH_SECS then .error (.unauthorized "Unknown ID token signing key")
      else .ok none

/-- Fetch the JWKS document and cache it. -/
def fetchKeys (url : String) : Service (List Jwk) := do
  let resp ← send (.get url) "Failed to fetch provider signing keys: "
  Service.ensure (¬resp.Failed)
    (.internal ("Failed to fetch provider signing keys: " ++ w.statusError url resp))
  let keys ← Service.ofResult ((w.parseJwks resp.body).mapError fun e =>
    .internal ("Invalid provider signing keys: " ++ e))
  let _ : Unit ← Program.request (I := authrs) (Request.jwksCacheInsert url keys)
  pure keys

/-- Find a signing key by `kid`, using the cache and refetching the JWKS when the key is unknown
(rotation) or the cache is stale. -/
def findJwk (url kid : String) : Service Jwk := do
  let cached : Option CachedJwks ← Program.request (I := authrs) (Request.jwksCacheGet url)
  let now ← utcNow
  let hit ← Service.ofResult (cachedKey cached kid now)
  match hit with
  | some jwk => pure jwk
  | none =>
    let keys ← fetchKeys w url
    Service.okOr (findKey keys kid) (.unauthorized "Unknown ID token signing key")

/-- Both providers sign ID tokens with RS256; the token never picks the algorithm. -/
def keyIdOf (idToken : String) : Except AppError String :=
  match w.decodeHeader idToken with
  | .error e => .error (.unauthorized ("Invalid ID token: " ++ e))
  | .ok header =>
    if header.alg ≠ "RS256" then .error (.unauthorized "Unexpected ID token algorithm")
    else
      match header.kid with
      | none => .error (.unauthorized "ID token has no key id")
      | some kid => .ok kid

/-- The validation of an ID token. -/
def validation (provider : Provider) (cfg : OauthConfig) : Validation where
  algorithm := "RS256"
  audience := [cfg.clientId]
  requiredSpecClaims := ["exp", "iss", "aud", "sub"]
  issuer :=
    match provider with
    | .google => some GOOGLE_ISSUERS
    | .microsoft => none

/-- `jsonwebtoken::decode`: the claims of a token that passes the validation. -/
def decodeIdToken (idToken : String) (jwk : Jwk) (v : Validation) (now : Time) :
    Except AppError IdTokenClaims :=
  (do
    let key ← w.decodingKey jwk
    w.validateToken idToken key v now
    w.tokenClaims idToken : Except String IdTokenClaims).mapError fun e =>
      .unauthorized ("Invalid ID token: " ++ e)

/-- `Uuid::parse_str` accepts a text of hexadecimal digits, hyphenated, simple, braced or as a
URN. -/
def isUuidText (s : String) : Bool :=
  let hex (cs : List Char) : Bool := cs.all fun c =>
    isAsciiDigit c || ('a' ≤ c && c ≤ 'f') || ('A' ≤ c && c ≤ 'F')
  let hyphenated (cs : List Char) : Bool :=
    cs.length = 36 && (cs.splitOn '-').map List.length = [8, 4, 4, 4, 12] &&
      (cs.splitOn '-').all hex
  let simple (cs : List Char) : Bool := cs.length = 32 && hex cs
  let cs := s.toList
  hyphenated cs || simple cs ||
    (cs.head? = some '{' && cs.getLast? = some '}' && hyphenated (cs.drop 1).dropLast) ||
    (cs.take 9 = "urn:uuid:".toList && hyphenated (cs.drop 9))

/-- The issuer embeds the user's directory, which the configured authority has to permit. -/
def checkMicrosoftIssuer (cfg : OauthConfig) (claims : IdTokenClaims) : Except AppError Unit :=
  match claims.tid with
  | none => .error (.unauthorized "ID token has no tenant id")
  | some tid =>
    if claims.iss ≠ MICROSOFT_LOGIN_BASE ++ "/" ++ tid ++ "/v2.0" then
      .error (.unauthorized "Invalid ID token issuer")
    else
      let authority := toAsciiLowercase (microsoftAuthority cfg)
      let allowed :=
        if authority = "common" then true
        else if authority = "organizations" then tid ≠ MICROSOFT_CONSUMERS_TENANT_ID
        else if authority = "consumers" then tid = MICROSOFT_CONSUMERS_TENANT_ID
        -- A domain-name authority cannot be compared to `tid`.
        else if isUuidText authority then eqIgnoreAsciiCase tid authority
        else true
      if allowed then .ok ()
      else .error (.forbidden "This Microsoft account is not permitted for this tenant")

/-- The provider's own check of the issuer. -/
def checkIssuer (provider : Provider) (cfg : OauthConfig) (claims : IdTokenClaims) :
    Except AppError Unit :=
  match provider with
  | .google => .ok ()
  | .microsoft => checkMicrosoftIssuer cfg claims

def verifyIdToken (provider : Provider) (cfg : OauthConfig) (idToken : String) :
    Service IdTokenClaims := do
  let kid ← Service.ofResult (keyIdOf w idToken)
  let jwk ← findJwk w (w.endpoints.jwksUrl provider cfg) kid
  let now ← utcNow
  let claims ← Service.ofResult (decodeIdToken w idToken jwk (validation provider cfg) now)
  Service.ofResult (checkIssuer provider cfg claims)
  pure claims

/-- `full.split_once(char::is_whitespace)`. -/
def splitName : List Char → Option (List Char × List Char)
  | [] => none
  | c :: cs =>
    if isWhitespace c then some ([], cs) else (splitName cs).map fun p => (c :: p.1, p.2)

/-- First and last name: the separate claims, or the full name split at its first blank. -/
def profileNames (claims : IdTokenClaims) : Option String × Option String :=
  match nonEmptyTrimmed claims.givenName, nonEmptyTrimmed claims.familyName with
  | none, none =>
    match nonEmptyTrimmed claims.name with
    | none => (none, none)
    | some full =>
      match splitName full.toList with
      | some (f, l) => (some (String.ofList f), nonEmptyTrimmed (some (String.ofList l)))
      | none => (some full, none)
  | first, last => (first, last)

/-- The account key and whether the provider vouches for the email. -/
def accountKey (provider : Provider) (claims : IdTokenClaims) :
    Except AppError (String × Bool) :=
  match provider with
  -- Google `sub` is globally stable across client IDs.
  | .google => .ok (claims.sub, claimIsTrue claims.emailVerified)
  -- `sub` is pairwise per app registration; `tid` + `oid` is stable across apps.
  | .microsoft =>
    let tid := claims.tid.getD ""
    match nonEmptyTrimmed claims.oid with
    | none => .error (.unauthorized "ID token has no object id")
    | some oid =>
      .ok (tid ++ ":" ++ oid,
        claimIsTrue claims.xmsEdov || tid = MICROSOFT_CONSUMERS_TENANT_ID)

def profileFromClaims (provider : Provider) (claims : IdTokenClaims) :
    Except AppError OauthProfile := do
  let email := (nonEmptyTrimmed claims.email).map w.toLowercase
  let (providerUserId, emailVerified) ← accountKey provider claims
  let (firstName, lastName) := profileNames claims
  pure ⟨providerUserId, email, emailVerified && email.isSome, firstName, lastName⟩

/-- Finish a sign-in: consume the state, exchange the code, verify the ID token and return the
normalized provider profile together with the originating tenant. -/
def complete (provider : Provider) (code state : String) : Service OauthCallback := do
  let pending ← OauthRepo.takeState state
  let pending ← Service.okOr pending (.unauthorized "Invalid or expired OAuth state")
  Service.ensure (pending.provider = provider.asStr)
    (.unauthorized "OAuth state does not match provider")
  let cfg ← loadConfig w pending.tenantId provider
  let idToken ← exchangeCode w provider cfg code pending.pkceVerifier
  let claims ← verifyIdToken w provider cfg idToken
  Service.ensure (claims.nonce = some pending.nonce) (.unauthorized "ID token nonce mismatch")
  let profile ← Service.ofResult (profileFromClaims w provider claims)
  pure ⟨pending.tenantId, profile, cfg.allowSignup.getD true⟩

end OauthService

end Authrs
