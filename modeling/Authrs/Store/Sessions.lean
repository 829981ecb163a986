import Authrs.Store.Access

/-!
# Statements on sessions and configuration, and Redis commands

The SQL statements about `sessions` and `kv_store`, and the commands `RedisSessionStore` sends. A
Redis key past its expiry does not exist; a command fails when the server cannot be reached or
rejects its argument.

## Main definitions

* `SessionStmt`, `KvStmt`: the statements, with their `exec`
* `RedisCommand`, with its `Result`, and `RedisCommand.exec`: the commands

## Main results

* `SessionStmt.exec_frame`, `KvStmt.exec_eq`: what a statement leaves alone
-/

namespace Authrs

open Relational

/-! ### Sessions and configuration -/

/-- The statements on `sessions`. -/
inductive SessionStmt
  | insert (tenantId : String) (userId : Uuid) (sessionToken : String)
      (ipAddress userAgent : Option String) (expiresAt : Time) (payload : Option SessionPayload)
  | revokeByToken (sessionToken : String)
  | revokeAllForUser (tenantId : String) (userId : Uuid)
  | get (sessionToken : String)

/-- What the statement returns: rows, or the number of rows it touched. -/
@[reducible] def SessionStmt.Rows : SessionStmt → Type
  | .get _ => Option (Option SessionPayload)
  | _ => Nat

/-- `SET revoked = true`. -/
def SessionRow.asRevoked (r : SessionRow) : SessionRow :=
  { r with revoked := true }

@[simp] theorem SessionRow.asRevoked_sessionToken (r : SessionRow) :
    r.asRevoked.sessionToken = r.sessionToken := rfl

/-- The earliest instant of a `TIMESTAMPTZ`. -/
def minTimestamp : Time := seconds (-210866803200)

/-- `INSERT INTO sessions`. -/
def insertSession (db : Db) (tenantId : String) (userId : Uuid) (sessionToken : String)
    (ipAddress userAgent : Option String) (expiresAt : Time) (payload : Option SessionPayload) :
    Except SqlError (Nat × Db) := do
  let tenantId ← varcharReq 255 tenantId
  let sessionToken ← varcharReq 255 sessionToken
  if expiresAt < minTimestamp then .error .timestampOutOfRange
  else
    match db.sessions.insert?
        ⟨tenantId, userId, sessionToken, ipAddress, userAgent, expiresAt, false, payload⟩ with
    | none => .error (.uniqueViolation "sessions_session_token_key")
    | some sessions =>
      if !db.hasTenant tenantId then
        .error (.foreignKeyViolation "sessions" "sessions_tenant_id_fkey")
      else if !db.hasUser userId then
        .error (.foreignKeyViolation "sessions" "sessions_user_id_fkey")
      else .ok (1, { db with sessions := sessions })

theorem insertSession_ok {db db' : Db} {tenantId sessionToken : String} {userId : Uuid}
    {ipAddress userAgent : Option String} {expiresAt : Time} {payload : Option SessionPayload}
    {n : Nat} (h : insertSession db tenantId userId sessionToken ipAddress userAgent expiresAt
      payload = .ok (n, db')) : db' = { db with sessions := db'.sessions } := by
  unfold insertSession at h
  simp only [bind_eq_ok] at h
  obtain ⟨_, -, _, -, h⟩ := h
  repeat' split at h
  all_goals cases h
  rfl

/-- A statement on sessions: its result and the tables after it. -/
def SessionStmt.exec (env : SqlEnv) (db : Db) :
    (q : SessionStmt) → Except SqlError (q.Rows × Db)
  | .insert tenantId userId sessionToken ipAddress userAgent expiresAt payload =>
    insertSession db tenantId userId sessionToken ipAddress userAgent expiresAt payload
  | .revokeByToken sessionToken =>
    .ok (db.sessions.affected fun r => r.sessionToken = sessionToken,
      { db with
        sessions :=
          db.sessions.update (fun r => r.sessionToken = sessionToken) SessionRow.asRevoked
            SessionRow.asRevoked_sessionToken })
  | .revokeAllForUser tenantId userId =>
    let chosen : SessionRow → Bool := fun r => r.tenantId = tenantId && r.userId = userId
    .ok (db.sessions.affected chosen,
      { db with
        sessions :=
          db.sessions.update chosen SessionRow.asRevoked SessionRow.asRevoked_sessionToken })
  | .get sessionToken =>
    .ok ((db.sessions.selectOne fun r =>
      r.sessionToken = sessionToken && !r.revoked && env.now < r.expiresAt).map (·.payload), db)

/-- **A statement on sessions** changes at most the sessions. -/
theorem SessionStmt.exec_frame {env : SqlEnv} {db db' : Db} {q : SessionStmt} {r : q.Rows}
    (h : q.exec env db = .ok (r, db')) : db' = { db with sessions := db'.sessions } := by
  cases q with
  | insert => rw [insertSession_ok h]
  | _ =>
    cases h
    rfl

/-- The statements on `kv_store`. -/
inductive KvStmt
  | get (tenantId groupKey key : String)

/-- What the statement returns. -/
@[reducible] def KvStmt.Rows : KvStmt → Type
  | .get .. => Option KvStoreRow

/-- The row under a key. -/
def Db.kv (db : Db) (tenantId groupKey key : String) : Option KvStoreRow :=
  db.kvStore.selectOne fun r => r.tenantId = tenantId && r.groupKey = groupKey && r.key = key

/-- A statement on the configuration: its result and the tables after it. -/
def KvStmt.exec (db : Db) : (q : KvStmt) → Except SqlError (q.Rows × Db)
  | .get tenantId groupKey key => .ok (db.kv tenantId groupKey key, db)

/-- **A statement on the configuration** changes nothing. -/
theorem KvStmt.exec_eq {db db' : Db} {q : KvStmt} {r : q.Rows}
    (h : q.exec db = .ok (r, db')) : db' = db := by
  cases q
  cases h
  rfl

/-! ### Redis -/

/-- The commands of `RedisSessionStore`. -/
inductive RedisCommand
  | connect
  | setEx (key : String) (payload : SessionPayload) (ttlSecs : Nat)
  | sadd (key member : String)
  | expire (key : String) (secs : Int)
  | get (key : String)
  | del (key : String)
  | smembers (key : String)

/-- What the command returns: a value, the number of keys it removed, or the members of a set. -/
@[reducible] def RedisCommand.Result : RedisCommand → Type
  | .get _ => Option SessionPayload
  | .del _ => Nat
  | .smembers _ => List String
  | _ => Unit

/-- The largest expiry, in seconds, that Redis accepts: in milliseconds it fits 64 bits. -/
def maxExpireSecs : Nat := 9223372036854775

namespace Redis

/-- The entry under a key that has not expired. -/
def entry (r : Redis) (now : Time) (key : String) : Option RedisEntry :=
  r.entries.find? fun e => e.key = key && e.expiresAt.all (now < ·)

/-- Put a value under a key. -/
def put (r : Redis) (e : RedisEntry) : Redis :=
  { r with entries := e :: r.entries.filter fun x => x.key ≠ e.key }

/-- Remove a key. -/
def remove (r : Redis) (key : String) : Redis :=
  { r with entries := r.entries.filter fun x => x.key ≠ key }

end Redis

/-- A command on a key of another type. -/
def wrongType : String := "WRONGTYPE Operation against a key holding the wrong kind of value"

/-- A command: its result and the server after it. -/
def RedisCommand.exec (now : Time) (r : Redis) :
    (c : RedisCommand) → Except String c.Result × Redis
  | .connect => if r.reachable then (.ok (), r) else (.error "Connection refused", r)
  | .setEx key payload ttlSecs =>
    if !r.reachable then (.error "Connection refused", r)
    else if 0 < ttlSecs ∧ ttlSecs ≤ maxExpireSecs then
      (.ok (), r.put ⟨key, .payload payload, some (now + seconds ttlSecs)⟩)
    else (.error "invalid expire time in 'setex' command", r)
  | .sadd key member =>
    if !r.reachable then (.error "Connection refused", r)
    else
      match r.entry now key with
      | none => (.ok (), r.put ⟨key, .set [member], none⟩)
      | some ⟨_, .set members, expiresAt⟩ =>
        (.ok (), r.put ⟨key, .set (if member ∈ members then members else member :: members),
          expiresAt⟩)
      | some ⟨_, .payload _, _⟩ => (.error wrongType, r)
  | .expire key secs =>
    if !r.reachable then (.error "Connection refused", r)
    else if maxExpireSecs < secs then (.error "invalid expire time in 'expire' command", r)
    else
      match r.entry now key with
      | none => (.ok (), r)
      | some e =>
        if secs ≤ 0 then (.ok (), r.remove key)
        else (.ok (), r.put { e with expiresAt := some (now + seconds secs) })
  | .get key =>
    if !r.reachable then (.error "Connection refused", r)
    else
      match r.entry now key with
      | none => (.ok none, r)
      | some ⟨_, .payload payload, _⟩ => (.ok (some payload), r)
      | some ⟨_, .set _, _⟩ => (.error wrongType, r)
  | .del key =>
    if !r.reachable then (.error "Connection refused", r)
    else (.ok (if (r.entry now key).isSome then 1 else 0), r.remove key)
  | .smembers key =>
    if !r.reachable then (.error "Connection refused", r)
    else
      match r.entry now key with
      | none => (.ok [], r)
      | some ⟨_, .set members, _⟩ => (.ok members, r)
      | some ⟨_, .payload _, _⟩ => (.error wrongType, r)

end Authrs
