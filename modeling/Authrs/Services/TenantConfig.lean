import Authrs.Repo.Access

/-!
# Tenant configuration

`KvStoreRepo::get` and the typed getters of `TenantConfigLoader`. A value that does not have the
type of its getter counts as absent. The loader's cache is left out here: as long as it agrees with
`kv_store`, a program does the same without it (`CachedConfig.exec_cached`).

## Main definitions

* `Db.config`: the decrypted and parsed value under a key
* `OauthConfig`, `PasswordPolicy`, `SessionPolicy`: the typed values
* `TenantConfigLoader.*`: the getters

## Main results

* `TenantConfigLoader.exec_getTyped`: a getter run alone reads `Db.config`
-/

namespace Authrs

open Interaction

/-- The value of a row: decrypted if it is sensitive, and parsed. -/
def KvStoreRow.decode (w : World) (row : KvStoreRow) : Except AppError Json := do
  let text ← if row.sensitive then w.decrypt row.value else .ok row.value
  (w.parseJson text).mapError fun e => .internal ("Invalid JSON in kv_store: " ++ e)

/-- The value of a row that may be absent. -/
def decodeKv (w : World) : Option KvStoreRow → Except AppError (Option Json)
  | none => .ok none
  | some row => (row.decode w).map some

/-- The value under a key, or why it cannot be read. -/
def Db.config (w : World) (db : Db) (tenantId groupKey key : String) :
    Except AppError (Option Json) :=
  decodeKv w (db.kv tenantId groupKey key)

/-- Per-tenant OAuth provider config. -/
structure OauthConfig where
  clientId : String
  clientSecret : String
  redirectUrl : String
  tenant : Option String
  allowSignup : Option Bool
  deriving DecidableEq

def OauthConfig.fromValue (j : Json) : Option OauthConfig := do
  match ← j.fields ["clientId", "clientSecret", "redirectUrl", "tenant", "allowSignup"] 3 with
  | [clientId, clientSecret, redirectUrl, tenant, allowSignup] =>
    pure {
      clientId := ← clientId.asString
      clientSecret := ← clientSecret.asString
      redirectUrl := ← redirectUrl.asString
      tenant := ← tenant.asOption Json.asString
      allowSignup := ← allowSignup.asOption Json.asBool }
  | _ => none

structure PasswordPolicy where
  minLength : Option Nat
  requireUppercase : Option Bool
  requireDigit : Option Bool
  maxAgeDays : Option Nat
  deriving DecidableEq

def PasswordPolicy.fromValue (j : Json) : Option PasswordPolicy := do
  match ← j.fields ["minLength", "requireUppercase", "requireDigit", "maxAgeDays"] 4 with
  | [minLength, requireUppercase, requireDigit, maxAgeDays] =>
    pure {
      minLength := ← minLength.asOption Json.asU32
      requireUppercase := ← requireUppercase.asOption Json.asBool
      requireDigit := ← requireDigit.asOption Json.asBool
      maxAgeDays := ← maxAgeDays.asOption Json.asU32 }
  | _ => none

structure SessionPolicy where
  idleTimeoutMins : Option Nat
  absoluteTimeoutMins : Option Nat
  deriving DecidableEq

def SessionPolicy.fromValue (j : Json) : Option SessionPolicy := do
  match ← j.fields ["idleTimeoutMins", "absoluteTimeoutMins"] 2 with
  | [idleTimeoutMins, absoluteTimeoutMins] =>
    pure {
      idleTimeoutMins := ← idleTimeoutMins.asOption Json.asU64
      absoluteTimeoutMins := ← absoluteTimeoutMins.asOption Json.asU64 }
  | _ => none

/-- `Vec<i32>`. -/
def loginMethodsFromValue (j : Json) : Option (List Int) := j.asList Json.asI32

/-- `Vec<String>`. -/
def domainsFromValue (j : Json) : Option (List String) := j.asList Json.asString

namespace TenantConfigLoader

variable (w : World)

/-- `TenantConfigLoader::get`. -/
def get (tenantId groupKey key : String) : Service (Option Json) := do
  let row : Option KvStoreRow ← query (.kv (.get tenantId groupKey key))
  Service.ofResult (decodeKv w row)

/-- A typed getter: `v.and_then(|j| serde_json::from_value(j).ok())`. -/
def getTyped {α : Type} (tenantId groupKey key : String) (fromValue : Json → Option α) :
    Service (Option α) := do
  let v ← get w tenantId groupKey key
  pure (v.bind fromValue)

def getOauth (tenantId provider : String) : Service (Option OauthConfig) :=
  getTyped w tenantId "oauth" provider OauthConfig.fromValue

def getPasswordPolicy (tenantId : String) : Service (Option PasswordPolicy) :=
  getTyped w tenantId "password_policy" "default" PasswordPolicy.fromValue

def getSessionPolicy (tenantId : String) : Service (Option SessionPolicy) :=
  getTyped w tenantId "session_policy" "default" SessionPolicy.fromValue

def getLoginMethods (tenantId : String) : Service (Option (List Int)) :=
  getTyped w tenantId "login_methods" "allowed" loginMethodsFromValue

/-- `None` or an empty list means all domains are permitted. -/
def getAllowedEmailDomains (tenantId : String) : Service (Option (List String)) :=
  getTyped w tenantId "email_policy" "allowed_domains" domainsFromValue

theorem exec_getTyped {α : Type} (s : State) (tenantId groupKey key : String)
    (fromValue : Json → Option α) :
    (getTyped w tenantId groupKey key fromValue).exec (handle w) s =
      (((s.db.config w tenantId groupKey key).map (·.bind fromValue)).mapError .error, s) := by
  have hget : (get w tenantId groupKey key).exec (handle w) s =
      ((s.db.config w tenantId groupKey key).mapError .error, s) :=
    Service.exec_ofResult w s _
  unfold getTyped
  rw [Program.bind_eq, Program.exec_bind, hget]
  cases s.db.config w tenantId groupKey key <;> rfl

end TenantConfigLoader

end Authrs
