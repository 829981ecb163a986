import Authrs.Store.Otp
import Authrs.Interaction.Contract

/-!
# The interface of the program

Everything the services do to their surroundings is a request: an SQL statement, a Redis command,
a reading of the clock, a random draw, a request to an identity provider, or an access to the
in-memory JWKS cache. The handler answers a request on the state at once; a program of the
services is a `Service`.

## Main definitions

* `Sql`, `Request`, `Reply`, `authrs`: the interface
* `handle`: the meaning of the requests on the state
* `Service`: the programs of the services
* `query`, `utcNow`, `randomToken`, `newUuid`, …: the requests as programs

## Main results

* `exec_query_ok`, `exec_query_error`: a statement run alone
* `handle_db`: only a statement that succeeds changes the tables
* `keeps_query`: a statement in a program that keeps a contract
-/

namespace Authrs

open Interaction

/-- An SQL statement. -/
inductive Sql
  | identities (q : IdentityStmt)
  | users (q : MembershipStmt)
  | challenges (q : ChallengeStmt)
  | oauth (q : OauthStmt)
  | tokens (q : TokenStmt)
  | roles (q : RoleStmt)
  | groups (q : GroupStmt)
  | permissions (q : PermissionStmt)
  | sessions (q : SessionStmt)
  | kv (q : KvStmt)
  | otps (q : OtpStmt)

/-- What a statement returns. -/
@[reducible] def Sql.Rows : Sql → Type
  | .identities q => q.Rows
  | .users q => q.Rows
  | .challenges q => q.Rows
  | .oauth q => q.Rows
  | .tokens q => q.Rows
  | .roles q => q.Rows
  | .groups q => q.Rows
  | .permissions q => q.Rows
  | .sessions q => q.Rows
  | .kv q => q.Rows
  | .otps q => q.Rows

/-- A statement: its result and the tables after it. -/
def Sql.exec (env : SqlEnv) (db : Db) : (q : Sql) → Except SqlError (q.Rows × Db)
  | .identities q => q.exec env db
  | .users q => q.exec env db
  | .challenges q => q.exec env db
  | .oauth q => q.exec env db
  | .tokens q => q.exec env db
  | .roles q => q.exec db
  | .groups q => q.exec env db
  | .permissions q => q.exec db
  | .sessions q => q.exec env db
  | .kv q => q.exec db
  | .otps q => q.exec env db

/-- How many ids a statement draws. -/
def Sql.drawn : Sql → Nat
  | .identities q => q.drawn
  | _ => 0

/-- A request of the services. -/
inductive Request
  | sql (q : Sql)
  | redis (c : RedisCommand)
  | clock
  | randomToken
  | newUuid
  | hashPassword (password : String)
  | newTotpSecret
  | newBackupCodes
  | newOtpCode
  | sendOtpEmail (email code : String)
  | encrypt (plain : String)
  | http (r : HttpRequest)
  | jwksCacheGet (url : String)
  | jwksCacheInsert (url : String) (keys : List Jwk)

/-- The reply to a request. -/
@[reducible] def Reply : Request → Type
  | .sql q => Except SqlError q.Rows
  | .redis c => Except String c.Result
  | .clock => Time
  | .randomToken => String
  | .newUuid => Uuid
  | .hashPassword _ => Except String String
  | .newTotpSecret => String
  | .newBackupCodes => List String
  | .newOtpCode => String
  | .sendOtpEmail .. => Except String Unit
  | .encrypt _ => Except AppError String
  | .http _ => Except String HttpResponse
  | .jwksCacheGet _ => Option CachedJwks
  | .jwksCacheInsert .. => Unit

/-- The interface of the services. -/
abbrev authrs : Interface := ⟨Request, Reply⟩

/-- What the statements read of the world and the state. -/
def State.sqlEnv (w : World) (s : State) : SqlEnv :=
  ⟨s.now, w.lower, fun k => w.uuid (s.draws + k)⟩

/-- The state after a statement: new tables if it succeeded, and its draws. -/
def State.afterSql (s : State) (q : Sql) (r : Except SqlError (q.Rows × Db)) : State :=
  match r with
  | .ok (_, db) => { s with db := db, draws := s.draws + q.drawn }
  | .error _ => { s with draws := s.draws + q.drawn }

/-- The state after one draw. -/
def State.drawn (s : State) : State :=
  { s with draws := s.draws + 1 }

/-- **The meaning of the requests.** -/
def handle (w : World) : Handler authrs State
  | .sql q, s =>
    ((q.exec (s.sqlEnv w) s.db).map Prod.fst, s.afterSql q (q.exec (s.sqlEnv w) s.db))
  | .redis c, s => ((c.exec s.now s.redis).1, { s with redis := (c.exec s.now s.redis).2 })
  | .clock, s => (s.now, s)
  | .randomToken, s => (w.token s.draws, s.drawn)
  | .newUuid, s => (w.uuid s.draws, s.drawn)
  | .hashPassword password, s => (w.hashPassword s.draws password, s.drawn)
  | .newTotpSecret, s => (w.totpSecret s.draws, s.drawn)
  | .newBackupCodes, s => (w.backupCodes s.draws, s.drawn)
  | .newOtpCode, s => (w.otpCode s.draws, s.drawn)
  | .sendOtpEmail email code, s => (w.sendOtpEmail s.draws email code, s.drawn)
  | .encrypt plain, s => (w.encrypt s.draws plain, s.drawn)
  | .http r, s => (w.network s.draws r, s.drawn)
  | .jwksCacheGet url, s => (s.jwksCache.find? fun c => c.url = url, s)
  | .jwksCacheInsert url keys, s =>
    ((), { s with
      jwksCache := ⟨url, keys, s.now⟩ :: s.jwksCache.filter fun c => c.url ≠ url })

/-- The programs of the services. -/
abbrev Service (α : Type) : Type := Program authrs Failure α

namespace Service

/-- Fail with an application error. -/
def throw {α : Type} (e : AppError) : Service α :=
  Program.throw (.error e)

/-- `ok_or_else(|| e)?`. -/
def okOr {α : Type} (o : Option α) (e : AppError) : Service α :=
  Program.okOr o (.error e)

/-- Fail with `e` unless `c`. -/
def ensure (c : Prop) [Decidable c] (e : AppError) : Service Unit :=
  Program.ensure c (.error e)

/-- `?` on a result of the application. -/
def ofResult {α : Type} (r : Except AppError α) : Service α :=
  Program.ofExcept (r.mapError .error)

/-- `.await.unwrap_or_default()`. -/
def unwrapOrDefault {α : Type} (p : Service (List α)) : Service (List α) := do
  match ← p.toExcept Failure.recoverable with
  | .ok a => pure a
  | .error _ => pure []

end Service

/-- A statement, with `?` on its result. -/
def query (q : Sql) : Service q.Rows := do
  let r : Except SqlError q.Rows ← Program.request (I := authrs) (Request.sql q)
  Service.ofResult (r.mapError AppError.ofSqlError)

/-- A Redis command, with its error as an internal one. -/
def redis (c : RedisCommand) : Service c.Result := do
  let r : Except String c.Result ← Program.request (I := authrs) (Request.redis c)
  Service.ofResult (r.mapError AppError.internal)

/-- `Utc::now()`. -/
def utcNow : Service Time := Program.request (I := authrs) Request.clock

/-- `generate_session_token()` and `random_token()`. -/
def randomToken : Service String := Program.request (I := authrs) Request.randomToken

/-- `Uuid::new_v4()`. -/
def newUuid : Service Uuid := Program.request (I := authrs) Request.newUuid

/-- `AuthService::hash_password`. -/
def hashPassword (password : String) : Service String := do
  let r : Except String String ← Program.request (I := authrs) (Request.hashPassword password)
  Service.ofResult (r.mapError AppError.internal)

/-! ### Requests run alone -/

section Alone

variable (w : World) (s : State)

theorem Service.exec_ofResult {α : Type} (r : Except AppError α) :
    (Service.ofResult r).exec (handle w) s = (r.mapError .error, s) := by
  cases r <;> rfl

theorem exec_query (q : Sql) :
    (query q).exec (handle w) s =
      (((q.exec (s.sqlEnv w) s.db).map Prod.fst).mapError fun e => .error (.ofSqlError e),
        s.afterSql q (q.exec (s.sqlEnv w) s.db)) := by
  change (Service.ofResult (((q.exec (s.sqlEnv w) s.db).map Prod.fst).mapError
    AppError.ofSqlError)).exec (handle w) (s.afterSql q (q.exec (s.sqlEnv w) s.db)) = _
  rw [Service.exec_ofResult]
  cases q.exec (s.sqlEnv w) s.db <;> rfl

variable {w s}

/-- A statement that succeeds. -/
theorem exec_query_ok {q : Sql} {r : q.Rows} {db : Db}
    (h : q.exec (s.sqlEnv w) s.db = .ok (r, db)) :
    (query q).exec (handle w) s = (.ok r, { s with db := db, draws := s.draws + q.drawn }) := by
  rw [exec_query, h]
  rfl

/-- A statement that reads, and draws nothing, leaves the state as it is. -/
theorem exec_query_read {q : Sql} {rows : q.Rows} (h : q.exec (s.sqlEnv w) s.db = .ok (rows, s.db))
    (hdrawn : q.drawn = 0) : (query q).exec (handle w) s = (.ok rows, s) := by
  rw [exec_query_ok h, hdrawn]
  rfl

/-- A statement that fails leaves the tables alone. -/
theorem exec_query_error {q : Sql} {e : SqlError}
    (h : q.exec (s.sqlEnv w) s.db = .error e) :
    (query q).exec (handle w) s =
      (.error (.error (.ofSqlError e)), { s with draws := s.draws + q.drawn }) := by
  rw [exec_query, h]
  rfl

variable (w s)

@[simp] theorem exec_utcNow : utcNow.exec (handle w) s = (.ok s.now, s) := rfl

@[simp] theorem exec_randomToken :
    randomToken.exec (handle w) s = (.ok (w.token s.draws), s.drawn) := rfl

@[simp] theorem exec_newUuid : newUuid.exec (handle w) s = (.ok (w.uuid s.draws), s.drawn) := rfl

@[simp] theorem exec_hashPassword (password : String) :
    (hashPassword password).exec (handle w) s =
      ((w.hashPassword s.draws password).mapError fun e => .error (.internal e), s.drawn) := by
  change (Service.ofResult ((w.hashPassword s.draws password).mapError
    AppError.internal)).exec (handle w) s.drawn = _
  rw [Service.exec_ofResult]
  cases w.hashPassword s.draws password <;> rfl

variable {α : Type}

@[simp] theorem Service.exec_throw (e : AppError) :
    (Service.throw e : Service α).exec (handle w) s = (.error (.error e), s) := rfl

@[simp] theorem Service.exec_okOr_some (a : α) (e : AppError) :
    (Service.okOr (some a) e).exec (handle w) s = (.ok a, s) := rfl

@[simp] theorem Service.exec_okOr_none (e : AppError) :
    (Service.okOr (none : Option α) e).exec (handle w) s = (.error (.error e), s) := rfl

theorem Service.exec_ensure (c : Prop) [Decidable c] (e : AppError) :
    (Service.ensure c e).exec (handle w) s = (if c then .ok () else .error (.error e), s) := by
  unfold Service.ensure Program.ensure
  split <;> rfl

variable {w s} {s' : State}

theorem Service.exec_okOr_eq_ok {o : Option α} {e : AppError} {a : α} :
    (Service.okOr o e).exec (handle w) s = (.ok a, s') ↔ o = some a ∧ s = s' := by
  cases o with
  | none => simp
  | some b => simp

theorem Service.exec_ensure_eq_ok {c : Prop} [Decidable c] {e : AppError} :
    (Service.ensure c e).exec (handle w) s = (.ok (), s') ↔ c ∧ s = s' := by
  rw [Service.exec_ensure]
  by_cases hc : c
  · simp [hc]
  · simp [hc]

theorem exec_hashPassword_eq_ok {password passwordHash : String} :
    (hashPassword password).exec (handle w) s = (.ok passwordHash, s') ↔
      w.hashPassword s.draws password = .ok passwordHash ∧ s.drawn = s' := by
  rw [exec_hashPassword]
  cases w.hashPassword s.draws password with
  | error e => simp [Except.mapError]
  | ok h => simp [Except.mapError]

end Alone

/-! ### What a request leaves alone -/

section Frame

variable (w : World) (s : State)

/-- Only the surroundings move the clock. -/
@[simp] theorem handle_now (q : Request) : (handle w q s).2.now = s.now := by
  cases q with
  | sql q =>
    simp only [handle, State.afterSql]
    split <;> rfl
  | _ => rfl

/-- A request that leaves the tables alone, in every state. -/
def KeepsDb (q : Request) : Prop :=
  ∀ s, (handle w q s).2.db = s.db

variable {w s} {α β : Type}

theorem exec_db_of_keepsDb {p : Service α} (hp : p.Asks (KeepsDb w)) :
    (p.exec (handle w) s).2.db = s.db := by
  induction p generalizing s with
  | pure a => rfl
  | throw e => rfl
  | ask q k ih =>
    rw [Program.exec_ask, ih _ (hp.2 _)]
    exact hp.1 s

/-- Lookups, then the rest: what holds of the tables when a lookup fails, and after the rest. -/
theorem exec_bind_db {R : Db → Prop} {db : Db} {p : Service α} {f : α → Service β}
    (hp : p.Asks (KeepsDb w)) (h0 : R db) (hs : s.db = db)
    (hf : ∀ a s', s'.db = db → R ((f a).exec (handle w) s').2.db) :
    R ((p.bind f).exec (handle w) s).2.db := by
  have hdb := exec_db_of_keepsDb (s := s) hp
  rw [Program.exec_bind]
  rcases he : p.exec (handle w) s with ⟨a | a, s'⟩ <;> rw [he] at hdb
  · rwa [hdb, hs]
  · exact hf a s' (hdb.trans hs)

/-- A write, then what leaves the tables alone. -/
theorem exec_bind_keepsDb {p : Service α} {f : α → Service β}
    (hf : ∀ a, (f a).Asks (KeepsDb w)) :
    ((p.bind f).exec (handle w) s).2.db = (p.exec (handle w) s).2.db := by
  rw [Program.exec_bind]
  rcases p.exec (handle w) s with ⟨a | a, s'⟩
  · rfl
  · exact exec_db_of_keepsDb (hf a)

/-- The tables after a statement: unchanged, or those of its success. -/
theorem exec_query_db {R : Db → Prop} {db : Db} {q : Sql} (h0 : R db) (hs : s.db = db)
    (h : ∀ r db', q.exec (s.sqlEnv w) db = .ok (r, db') → R db') :
    R ((query q).exec (handle w) s).2.db := by
  subst hs
  cases he : q.exec (s.sqlEnv w) s.db with
  | ok r => exact (exec_query_ok he) ▸ h r.1 r.2 he
  | error e => exact (exec_query_error he) ▸ h0

/-- A value computed at the end leaves the tables alone. -/
theorem exec_bind_pure_db (p : Service α) (g : α → β) :
    ((p.bind fun a => .pure (g a)).exec (handle w) s).2.db = (p.exec (handle w) s).2.db :=
  exec_bind_keepsDb fun a => Program.asks_pure (g a)

theorem asks_query {S : Request → Prop} {q : Sql} (h : S (.sql q)) :
    (query q).Asks S :=
  ⟨h, fun r => by cases r <;> trivial⟩

/-- A statement that changes nothing when it succeeds. -/
theorem keepsDb_sql {q : Sql} (h : ∀ env db r db', q.exec env db = .ok (r, db') → db' = db) :
    KeepsDb w (.sql q) := by
  intro s
  simp only [handle, State.afterSql]
  cases he : q.exec (s.sqlEnv w) s.db with
  | ok r => exact h _ _ r.1 r.2 he
  | error e => rfl

theorem keepsDb_newUuid : newUuid.Asks (KeepsDb w) := ⟨fun _ => rfl, fun _ => trivial⟩

@[simp] theorem asks_ensure {S : Request → Prop} (c : Prop) [Decidable c] (e : AppError) :
    (Service.ensure c e).Asks S :=
  Program.asks_ensure c _

/-- Only a statement that succeeds changes the tables. -/
theorem handle_db (q : Request) :
    (handle w q s).2.db = s.db ∨
      ∃ x r, q = .sql x ∧ x.exec (s.sqlEnv w) s.db = .ok (r, (handle w q s).2.db) := by
  cases q with
  | sql x =>
    cases h : x.exec (s.sqlEnv w) s.db with
    | error e =>
      refine .inl ?_
      simp only [handle, State.afterSql, h]
    | ok r =>
      refine .inr ⟨x, r.1, rfl, ?_⟩
      simp only [handle, State.afterSql, h]
  | _ => exact .inl rfl

end Frame

/-! ### Requests under a contract -/

section Keeps

variable {C : Contract authrs} {h : List (Event authrs)}

theorem keeps_query (q : Sql) {Q : List (Event authrs) → Except Failure q.Rows → Prop} :
    (query q).Keeps C Q h ↔
      ∀ r : Except SqlError q.Rows, C.rely h ⟨.sql q, r⟩ → C.guarantee h ⟨.sql q, r⟩ ∧
        Q (⟨.sql q, r⟩ :: h) (r.mapError fun e => .error (.ofSqlError e)) := by
  refine forall_congr' fun r => imp_congr_right fun _ => and_congr_right fun _ => ?_
  cases r <;> exact Iff.rfl

theorem Service.keeps_okOr {α : Type} {Q : List (Event authrs) → Except Failure α → Prop}
    (o : Option α) (e : AppError) :
    (Service.okOr o e).Keeps C Q h ↔
      (∀ a, o = some a → Q h (.ok a)) ∧ (o = none → Q h (.error (.error e))) :=
  Program.keeps_okOr o _

theorem Service.keeps_ensure {Q : List (Event authrs) → Except Failure Unit → Prop}
    (c : Prop) [Decidable c] (e : AppError) :
    (Service.ensure c e).Keeps C Q h ↔
      (c → Q h (.ok ())) ∧ (¬c → Q h (.error (.error e))) :=
  Program.keeps_ensure c _

/-- The exchange of a statement that succeeded. -/
abbrev did (q : Sql) (r : q.Rows) : Event authrs := ⟨.sql q, .ok r⟩

/-- A statement whose result is used: the exchange is the newest one. -/
theorem keeps_query_ok {q : Sql} (hq : ∀ e : Event authrs, e.request = .sql q → C.guarantee h e) :
    (query q).Keeps C (Program.OnOk fun r h' => h' = did q r :: h) h := by
  rw [keeps_query]
  rintro (e | r) -
  · exact ⟨hq _ rfl, trivial⟩
  · exact ⟨hq _ rfl, rfl⟩

theorem keeps_utcNow_ok (hq : ∀ e : Event authrs, e.request = .clock → C.guarantee h e) :
    utcNow.Keeps C (Program.OnOk fun t h' => h' = ⟨.clock, t⟩ :: h) h :=
  fun _ _ => ⟨hq _ rfl, rfl⟩

theorem keeps_newUuid_ok (hq : ∀ e : Event authrs, e.request = .newUuid → C.guarantee h e) :
    newUuid.Keeps C (Program.OnOk fun id h' => h' = ⟨.newUuid, id⟩ :: h) h :=
  fun _ _ => ⟨hq _ rfl, rfl⟩

end Keeps

/-! ### Runs of a statement -/

theorem ran_query_ok {q : Sql} {es : List (Event authrs)} {a : q.Rows} :
    (query q).Ran es (.ok a) ↔ es = [did q a] := by
  constructor
  · intro h
    cases es with
    | nil => cases h
    | cons e es =>
      obtain ⟨r, rfl, h⟩ := h
      cases r with
      | error err => cases es <;> cases h
      | ok b =>
        cases es with
        | nil =>
          cases h
          rfl
        | cons => cases h
  · rintro rfl
    exact ⟨.ok a, rfl, rfl⟩

theorem ran_utcNow_ok {es : List (Event authrs)} {t : Time} :
    utcNow.Ran es (.ok t) ↔ es = [⟨.clock, t⟩] := by
  constructor
  · intro h
    cases es with
    | nil => cases h
    | cons e es =>
      obtain ⟨r, rfl, h⟩ := h
      obtain ⟨rfl, rfl⟩ := Program.ran_pure_ok.mp h
      rfl
  · rintro rfl
    exact ⟨t, rfl, rfl⟩

end Authrs
