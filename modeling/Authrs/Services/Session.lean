import Authrs.Services.TenantConfig

/-!
# The session store

The two implementations of `SessionStore`, and the audit row that the caller writes when the store
does not. Redis holds the payload under the token and remembers the token in an index set per user,
with an expiry of its own; its commands are separate.

## Main definitions

* `PostgresSessionStore`, `RedisSessionStore`: `get`, `set`, `delete`, `deleteAllForUser`
* `SessionStore`: the same for the store of the deployment
* `SessionStore.writesAuditRow`
-/

namespace Authrs

open Interaction

namespace PostgresSessionStore

/-- Insert the audit row, with the payload. -/
def createAudit (sessionToken tenantId : String) (userId : Uuid)
    (ipAddress userAgent : Option String) (expiresAt : Time) (payload : SessionPayload) :
    Service Unit :=
  execute (.sessions (.insert tenantId userId sessionToken ipAddress userAgent expiresAt
    (some payload)))

def revokeBySessionToken (sessionToken : String) : Service Bool := do
  let touched : Nat ← query (.sessions (.revokeByToken sessionToken))
  pure (decide (0 < touched))

def revokeAllForUser (tenantId : String) (userId : Uuid) : Service Nat :=
  query (.sessions (.revokeAllForUser tenantId userId))

def get (sessionToken : String) : Service (Option SessionPayload) := do
  let row : Option (Option SessionPayload) ← query (.sessions (.get sessionToken))
  pure row.join

def delete (sessionToken : String) : Service Bool := revokeBySessionToken sessionToken

def deleteAllForUser (tenantId : String) (userId : Uuid) : Service Nat :=
  revokeAllForUser tenantId userId

end PostgresSessionStore

namespace RedisSessionStore

def key (sessionToken : String) : String := "session:" ++ sessionToken

def userSetKey (tenantId : String) (userId : Uuid) : String :=
  "user_sessions:" ++ tenantId ++ ":" ++ userId.hyphenated

/-- `as i64` of a `u64`. -/
def asI64 (n : Nat) : Int := (BitVec.ofNat 64 n).toInt

/-- `ttl_secs + 86400` in `u64`. -/
@[irreducible] def addDay (w : World) (ttlSecs : Nat) : Service Nat :=
  if ttlSecs + 86400 < 2 ^ 64 then pure (ttlSecs + 86400)
  else if w.overflowChecks then Program.throw (.panic "attempt to add with overflow")
  else pure ((ttlSecs + 86400) % 2 ^ 64)

def set (w : World) (sessionToken : String) (payload : SessionPayload) (ttlSecs : Nat) :
    Service Unit := do
  redis .connect
  redis (.setEx (key sessionToken) payload ttlSecs)
  let userKey := userSetKey payload.tenantId payload.userId
  redis (.sadd userKey sessionToken)
  let expiry ← addDay w ttlSecs
  redis (.expire userKey (asI64 expiry))

def get (sessionToken : String) : Service (Option SessionPayload) := do
  redis .connect
  redis (.get (key sessionToken))

def delete (sessionToken : String) : Service Bool := do
  redis .connect
  let n : Nat ← redis (.del (key sessionToken))
  pure (decide (0 < n))

/-- `for token in &session_tokens`: delete each session, and count. -/
def deleteEach : List String → Service Nat
  | [] => pure 0
  | token :: sessionTokens => do
    let _ ← redis (.del (key token))
    let deleted ← deleteEach sessionTokens
    pure (deleted + 1)

/-- Delete the sessions that the index set lists, then the set. -/
def deleteAllForUser (tenantId : String) (userId : Uuid) : Service Nat := do
  redis .connect
  let userKey := userSetKey tenantId userId
  let sessionTokens : List String ← redis (.smembers userKey)
  let deleted ← deleteEach sessionTokens
  let _ ← redis (.del userKey)
  pure deleted

end RedisSessionStore

namespace SessionStore

def set (w : World) (sessionToken : String) (payload : SessionPayload) (ttlSecs : Nat) :
    Service Unit :=
  match w.sessionStore with
  | .postgres =>
    PostgresSessionStore.createAudit sessionToken payload.tenantId payload.userId payload.ip
      payload.userAgent payload.expiresAt payload
  | .redis => RedisSessionStore.set w sessionToken payload ttlSecs

def get (w : World) (sessionToken : String) : Service (Option SessionPayload) :=
  match w.sessionStore with
  | .postgres => PostgresSessionStore.get sessionToken
  | .redis => RedisSessionStore.get sessionToken

def delete (w : World) (sessionToken : String) : Service Bool :=
  match w.sessionStore with
  | .postgres => PostgresSessionStore.delete sessionToken
  | .redis => RedisSessionStore.delete sessionToken

def deleteAllForUser (w : World) (tenantId : String) (userId : Uuid) : Service Nat :=
  match w.sessionStore with
  | .postgres => PostgresSessionStore.deleteAllForUser tenantId userId
  | .redis => RedisSessionStore.deleteAllForUser tenantId userId

/-- Whether `set` already wrote the audit row. -/
def writesAuditRow (w : World) : Bool :=
  match w.sessionStore with
  | .postgres => true
  | .redis => false

end SessionStore

end Authrs
