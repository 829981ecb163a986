import Authrs.Store.Schema

/-!
# The world around the program

What the program uses and does not define itself: the randomness of the operating system, the
cryptographic libraries, the text functions of Unicode and of the database's locale, the JSON and
JWT libraries, the network, and the settings of the deployment. They are the fields of `World`;
results about the program quantify over them. Everything that changes is in `State`.

A random value is the value of a stream at the number of draws made so far. The network answers
by a function of the draw and the request, so that its answers may depend on anything.

## Main definitions

* `IdTokenClaims`, `Jwk`, `JwtHeader`, `Validation`, `HttpResponse`: values of the libraries
* `World`: what is fixed, and `State`: what changes
* `World.offline`: a deployment without a network, to run the model on, and `acmeAndGlobex`
* `State.tick`: time passes
-/

namespace Authrs

/-! ### Tokens of the identity providers -/

/-- The claims of an ID token that the program reads. -/
structure IdTokenClaims where
  iss : String
  sub : String
  nonce : Option String
  email : Option String
  emailVerified : Option Json
  givenName : Option String
  familyName : Option String
  name : Option String
  oid : Option String
  tid : Option String
  xmsEdov : Option Json

/-- A published signing key. -/
structure Jwk where
  keyId : Option String
  material : String
  deriving DecidableEq

/-- The unverified header of a JWT. -/
structure JwtHeader where
  alg : String
  kid : Option String
  deriving DecidableEq

/-- What `jsonwebtoken` checks of a token besides its signature and expiry. -/
structure Validation where
  algorithm : String
  audience : List String
  requiredSpecClaims : List String
  issuer : Option (List String)
  deriving DecidableEq

/-- A response, with its body as text. -/
structure HttpResponse where
  status : Nat
  body : String
  deriving DecidableEq

/-- `Response::error_for_status` fails: the status is that of a client or a server error. -/
def HttpResponse.Failed (resp : HttpResponse) : Prop := 400 ≤ resp.status ∧ resp.status < 600

instance (resp : HttpResponse) : Decidable resp.Failed := inferInstanceAs (Decidable (_ ∧ _))

/-- A request to an identity provider. -/
inductive HttpRequest
  | postForm (url : String) (form : List (String × String))
  | get (url : String)
  deriving DecidableEq

/-- Where each provider's authorize, token and JWKS endpoints live. -/
structure ProviderEndpoints where
  googleAuthUrl : String
  googleTokenUrl : String
  googleJwksUrl : String
  microsoftLoginBase : String
  deriving DecidableEq

/-- Which implementation of `SessionStore` the deployment uses. -/
inductive SessionBackend
  | postgres
  | redis
  deriving DecidableEq

/-- What is fixed while the program runs. -/
structure World where
  /-- 256 random bits, base64url-encoded without padding. -/
  token : Nat → String
  /-- `Uuid::new_v4` and `gen_random_uuid()`. -/
  uuid : Nat → Uuid
  /-- The Argon2 hash of a password under the salt of a draw. -/
  hashPassword : Nat → String → Except String String
  /-- `Argon2::verify_password`, or why the stored hash does not parse. -/
  verifyPassword : (hash password : String) → Except String Bool
  /-- A fresh base32 TOTP secret. -/
  totpSecret : Nat → String
  /-- The bytes of a base32 secret. -/
  decodeSecret : String → Except String (List UInt8)
  /-- The code of a secret at a time step. -/
  totp : List UInt8 → Nat → String
  /-- `otpauth://` URL of a secret, an issuer and an account. -/
  otpauthUrl : (secret issuer account : String) → String
  /-- The backup codes of a draw. -/
  backupCodes : Nat → List String
  /-- Six random digits. -/
  otpCode : Nat → String
  /-- Lower-case hexadecimal SHA-256. -/
  sha256Hex : String → String
  /-- base64url of SHA-256. -/
  sha256Base64 : String → String
  /-- `SecretCipher::encrypt` and `decrypt`. -/
  encrypt : Nat → String → Except AppError String
  decrypt : String → Except AppError String
  /-- `LOWER` of the database's locale. -/
  lower : String → String
  /-- `str::to_lowercase`, `char::is_uppercase` and `char::is_alphanumeric`. -/
  toLowercase : String → String
  isUppercase : Char → Bool
  isAlphanumeric : Char → Bool
  /-- `serde_json::from_str`. -/
  parseJson : String → Except String Json
  /-- `Url::parse_with_params`. -/
  urlWithParams : (base : String) → List (String × String) → Except String String
  /-- The network's answer to a request. -/
  network : Nat → HttpRequest → Except String HttpResponse
  /-- The text of the error that `error_for_status` makes of an answer to an URL. -/
  statusError : (url : String) → HttpResponse → String
  /-- Whether `SMTP_HOST` and `SMTP_FROM` are set. -/
  smtpConfigured : Bool
  /-- What becomes of an OTP mail. -/
  sendOtpEmail : Nat → (email code : String) → Except String Unit
  /-- The keys of a JWKS document. -/
  parseJwks : String → Except String (List Jwk)
  decodeHeader : String → Except String JwtHeader
  /-- `DecodingKey::from_jwk`. -/
  decodingKey : Jwk → Except String String
  /-- Signature, expiry and the checks of a validation. -/
  validateToken : (idToken key : String) → Validation → Time → Except String Unit
  /-- The claims in a token's payload. -/
  tokenClaims : String → Except String IdTokenClaims
  endpoints : ProviderEndpoints
  mfaIssuer : String
  sessionStore : SessionBackend
  /-- `DEFAULT_SESSION_TTL_SECS` of the environment. -/
  defaultSessionTtlSecs : Nat
  /-- Whether arithmetic overflow panics (debug builds) or wraps. -/
  overflowChecks : Bool

/-- A deployment without a network: salted hashes and codes that can be read off, and the text
functions of ASCII. -/
def World.offline : World where
  token n := String.ofList (List.replicate (n + 1) 'x')
  uuid n := BitVec.ofNat 128 (n + 1000)
  hashPassword n password := .ok (String.ofList (List.replicate n '$') ++ ":" ++ password)
  verifyPassword hash password :=
    match splitOnce hash ':' with
    | some (_, p) => .ok (p = password)
    | none => .error "password hash string invalid"
  totpSecret n := String.ofList (List.replicate (n + 1) 'A')
  decodeSecret encoded := .ok (encoded.toList.map fun c => c.toNat.toUInt8)
  totp _ step := String.ofList (List.replicate 6 (Char.ofNat ('0'.toNat + step % 10)))
  otpauthUrl secret issuer account := "otpauth://totp/" ++ issuer ++ ":" ++ account ++ secret
  backupCodes n := [String.ofList (List.replicate 10 (Char.ofNat ('a'.toNat + n % 26)))]
  otpCode n := String.ofList (List.replicate 6 (Char.ofNat ('0'.toNat + n % 10)))
  sha256Hex s := "#" ++ s
  sha256Base64 s := "#" ++ s
  encrypt _ plain := .ok ("!" ++ plain)
  decrypt cipher := .ok (String.ofList (cipher.toList.drop 1))
  lower s := String.ofList (s.toList.map Char.toLower)
  toLowercase s := String.ofList (s.toList.map Char.toLower)
  isUppercase := Char.isUpper
  isAlphanumeric := Char.isAlphanum
  parseJson _ := .error "expected value at line 1 column 1"
  urlWithParams base _ := .ok base
  network _ _ := .error "connection refused"
  statusError url resp :=
    (if resp.status < 500 then "HTTP status client error (" else "HTTP status server error (") ++
      toString resp.status ++ ") for url (" ++ url ++ ")"
  smtpConfigured := true
  sendOtpEmail _ _ _ := .ok ()
  parseJwks _ := .error "expected value at line 1 column 1"
  decodeHeader _ := .error "InvalidToken"
  decodingKey jwk := .ok jwk.material
  validateToken _ _ _ _ := .error "InvalidToken"
  tokenClaims _ := .error "InvalidToken"
  endpoints := {
    googleAuthUrl := "https://accounts.google.com/o/oauth2/v2/auth"
    googleTokenUrl := "https://oauth2.googleapis.com/token"
    googleJwksUrl := "https://www.googleapis.com/oauth2/v3/certs"
    microsoftLoginBase := "https://login.microsoftonline.com" }
  mfaIssuer := "authrs"
  sessionStore := .postgres
  defaultSessionTtlSecs := 3600
  overflowChecks := false

/-- A tenant of such a deployment. -/
def acme : TenantId := ⟨"acme", by decide⟩

/-- A value under a Redis key. -/
inductive RedisValue
  | payload (p : SessionPayload)
  | set (members : List String)

/-- A Redis key with its value and expiry. -/
structure RedisEntry where
  key : String
  value : RedisValue
  expiresAt : Option Time

/-- The Redis server. -/
structure Redis where
  reachable : Bool
  entries : List RedisEntry

/-- A cached JWKS document. -/
structure CachedJwks where
  url : String
  keys : List Jwk
  fetchedAt : Time

/-- What changes while the program runs. -/
structure State where
  db : Db
  redis : Redis
  jwksCache : List CachedJwks
  now : Time
  /-- The number of random draws made so far. -/
  draws : Nat

/-- A database at an instant, before any draw, with an empty Redis server. -/
def State.ofDb (db : Db) (now : Time) : State :=
  ⟨db, ⟨true, []⟩, [], now, 0⟩

@[simp] theorem State.ofDb_db (db : Db) (now : Time) : (State.ofDb db now).db = db := rfl

/-- Two tenants, to run the model on. -/
def acmeAndGlobex : Relational.Table TenantRow.id :=
  ⟨[⟨"acme", "Acme", "active", 0⟩, ⟨"globex", "Globex", "active", 0⟩], by decide⟩

/-- Time passes. -/
def State.tick (d : Nat) (s : State) : State :=
  { s with now := s.now + d }

@[simp] theorem State.tick_db (d : Nat) (s : State) : (s.tick d).db = s.db := rfl

@[simp] theorem State.tick_now (d : Nat) (s : State) : (s.tick d).now = s.now + d := rfl

@[simp] theorem State.tick_draws (d : Nat) (s : State) : (s.tick d).draws = s.draws := rfl

end Authrs
