import Authrs.Access.Effective
import Authrs.Interaction.Serial
import Authrs.Login.Requests
import Authrs.Store.Redis

/-!
# The roles and permissions of a session

A session is minted with what eight lookups find for the user: the roles, their ids and their
permissions, each directly and through the groups of the user, and the groups. Each lookup swallows
its own failure: what it would have found is left out. The rest of the call stores a session with
what was found, whatever it is.

## Main definitions

* `Lookup`: the eight lookups; `faulty w failing e`: the meaning of the requests when some of them fail
* `grantsFound`: what the lookups find
* `storeSession`: what is left of `do_create_session` after the lookups
* `Mints`: a program stores a session
* `Storable`: a session of the user can be stored

## Main results

* `exec_loadGrants`: what the lookups find, the failing ones nothing
* `exists_mints`: a call stores a session exactly when one can be stored
* `grants_of_mints`: a stored session carries what the lookups have found
-/

namespace Authrs

open Interaction Relational

/-! ### Lookups that fail -/

/-- The lookups of `do_create_session`. -/
inductive Lookup
  | userRoles
  | userRoleIds
  | userPermissions
  | groupUids
  | groupIds
  | groupRoleUids
  | groupRoleIds
  | groupPermissions
  deriving DecidableEq

/-- The lookup that a statement makes. -/
def Sql.lookup : Sql → Option Lookup
  | .roles (.getUserRoles ..) => some .userRoles
  | .roles (.getUserRoleIds ..) => some .userRoleIds
  | .roles (.getUserPermissions ..) => some .userPermissions
  | .groups (.getUserGroupUids ..) => some .groupUids
  | .groups (.getUserGroupIds ..) => some .groupIds
  | .groups (.getUserGroupRoleUids ..) => some .groupRoleUids
  | .groups (.getUserGroupRoleIds ..) => some .groupRoleIds
  | .groups (.getUserGroupPermissions ..) => some .groupPermissions
  | _ => none

/-- **The meaning of the requests when some lookups fail.** -/
def faulty (w : World) (failing : Lookup → Bool) (e : SqlError) : Handler authrs State
  | .sql q, s => if q.lookup.any failing then (.error e, s) else handle w (.sql q) s
  | q, s => handle w q s

/-- Requests that are none of the lookups. -/
def NoLookup (q : Request) : Prop := ∀ x, q = .sql x → x.lookup = none

theorem faulty_of_noLookup (w : World) (failing : Lookup → Bool) (e : SqlError) {q : Request}
    (hq : NoLookup q) (s : State) : faulty w failing e q s = handle w q s := by
  cases q with
  | sql x =>
    change (if x.lookup.any failing then _ else _) = _
    rw [hq x rfl]
    rfl
  | _ => rfl

/-- When no lookup fails, the requests have their meaning. -/
theorem faulty_none (w : World) (e : SqlError) : faulty w (fun _ => false) e = handle w := by
  funext q s
  cases q with
  | sql x =>
    change (if x.lookup.any (fun _ => false) then _ else _) = _
    rw [if_neg (by cases x.lookup <;> simp)]
  | _ => rfl

namespace AuthService

variable {w : World} {failing : Lookup → Bool} {e : SqlError} {s : State}

/-- What a lookup contributes. -/
def foundBy {α : Type} (failing : Lookup → Bool) (l : Lookup) (found : List α) : List α :=
  if failing l then [] else found

/-- The roles, permissions and groups of a user, without what the failing lookups would find. -/
def grantsFound (failing : Lookup → Bool) (db : Db) (tenantId : String) (userId : Uuid) :
    Grants where
  roles := dedupChain
    (foundBy failing .userRoles (((db.ancestors tenantId (db.directRoles tenantId userId)).map
      (·.uid)).dedup.insertionSort (· ≤ ·)))
    (foundBy failing .groupRoleUids (((db.ancestors tenantId (db.groupRolesOf tenantId userId)).map
      (·.uid)).dedup.insertionSort (· ≤ ·)))
  roleIds := dedupChain
    (foundBy failing .userRoleIds ((db.ancestors tenantId (db.directRoles tenantId userId)).map
      (·.id)).dedup)
    (foundBy failing .groupRoleIds ((db.ancestors tenantId (db.groupRolesOf tenantId userId)).map
      (·.id)).dedup)
  permissions := dedupChain
    (foundBy failing .userPermissions (db.permissionNames tenantId
      (db.ancestors tenantId (db.directRoles tenantId userId))))
    (foundBy failing .groupPermissions (db.permissionNames tenantId
      (db.ancestors tenantId (db.groupRolesOf tenantId userId))))
  groups := foundBy failing .groupUids
    (((db.groupsOf tenantId userId).map (·.uid)).insertionSort (· ≤ ·))
  groupIds := foundBy failing .groupIds ((db.groupsOf tenantId userId).map (·.id))

/-- A lookup fails, or finds what the statement finds. -/
theorem exec_lookup {l : Lookup} {x : Sql} {rows : x.Rows} (hl : x.lookup = some l)
    (hx : x.exec (s.sqlEnv w) s.db = .ok (rows, s.db)) (hdrawn : x.drawn = 0) :
    (query x).exec (faulty w failing e) s =
      (if failing l then .error (.error (.ofSqlError e)) else .ok rows, s) := by
  have hfault : faulty w failing e (.sql x) s =
      if failing l then (.error e, s) else handle w (.sql x) s := by
    change (if x.lookup.any failing then _ else _) = _
    rw [hl]
    rfl
  change (Service.ofResult ((faulty w failing e (.sql x) s).1.mapError AppError.ofSqlError)).exec
    (faulty w failing e) (faulty w failing e (.sql x) s).2 = _
  rw [hfault]
  cases failing l with
  | true => rfl
  | false =>
    simp only [Bool.false_eq_true, if_false, handle, hx, State.afterSql, hdrawn]
    rfl

/-- A lookup whose failure is swallowed. -/
theorem exec_unwrapOrDefault {α : Type} {H : Handler authrs State} {p : Service (List α)}
    {rows : List α} {l : Lookup}
    (h : p.exec H s = (if failing l then .error (.error (.ofSqlError e)) else .ok rows, s)) :
    p.unwrapOrDefault.exec H s = (.ok (foundBy failing l rows), s) := by
  unfold Service.unwrapOrDefault foundBy
  rw [Program.bind_eq, Program.exec_bind, Program.exec_toExcept, h]
  cases failing l <;> rfl

/-- **What the lookups find**: the failing ones nothing. -/
theorem exec_loadGrants (tenantId : String) (userId : Uuid) :
    (loadGrants tenantId userId).exec (faulty w failing e) s =
      (.ok (grantsFound failing s.db tenantId userId), s) := by
  unfold loadGrants
  simp only [Program.bind_eq]
  rw [Program.exec_bind_ok _ (exec_unwrapOrDefault (l := .userRoles) (exec_lookup rfl rfl rfl))]
  rw [Program.exec_bind_ok _ (exec_unwrapOrDefault (l := .userRoleIds) (exec_lookup rfl rfl rfl))]
  rw [Program.exec_bind_ok _ (exec_unwrapOrDefault (l := .userPermissions) (exec_lookup rfl rfl rfl))]
  rw [Program.exec_bind_ok _ (exec_unwrapOrDefault (l := .groupUids) (exec_lookup rfl rfl rfl))]
  rw [Program.exec_bind_ok _ (exec_unwrapOrDefault (l := .groupIds) (exec_lookup rfl rfl rfl))]
  rw [Program.exec_bind_ok _ (exec_unwrapOrDefault (l := .groupRoleUids) (exec_lookup rfl rfl rfl))]
  rw [Program.exec_bind_ok _ (exec_unwrapOrDefault (l := .groupRoleIds) (exec_lookup rfl rfl rfl))]
  rw [Program.exec_bind_ok _ (exec_unwrapOrDefault (l := .groupPermissions) (exec_lookup rfl rfl rfl))]
  rfl

/-! ### The session that is stored -/

/-- What is left of `do_create_session` after the lookups. -/
def storeSession (w : World) (tenantId : String) (user : User) (ip userAgent : Option String)
    (grants : Grants) : Service LoginResult := do
  let ttlSecs ← sessionTtl w tenantId
  let expiresAt ← nowPlusSeconds (RedisSessionStore.asI64 ttlSecs)
  let sessionToken ← randomToken
  let payload : SessionPayload := {
    tenantId := tenantId
    userId := user.id
    identityId := user.identityId
    roles := grants.roles
    roleIds := grants.roleIds
    permissions := grants.permissions
    groups := grants.groups
    groupIds := grants.groupIds
    ip := ip
    userAgent := userAgent
    expiresAt := expiresAt }
  SessionStore.set w sessionToken payload ttlSecs
  auditSession w sessionToken payload
  pure (.success sessionToken expiresAt)

theorem doCreateSession_eq (w : World) (tenantId : String) (user : User)
    (ip userAgent : Option String) :
    doCreateSession w tenantId user ip userAgent =
      (loadGrants tenantId user.id).bind (storeSession w tenantId user ip userAgent) := rfl

end AuthService

/-- The roles, permissions and groups that a session carries. -/
def SessionPayload.grants (p : SessionPayload) : AuthService.Grants :=
  ⟨p.roles, p.roleIds, p.permissions, p.groups, p.groupIds⟩

/-- The session that a request presents to the store. -/
def presented : Request → Option SessionPayload
  | .redis (.setEx _ p _) => some p
  | .sql (.sessions (.insert _ _ _ _ _ _ p)) => p
  | _ => none

/-- The session that an exchange has stored. -/
def storedPayload : Event authrs → Option SessionPayload
  | ⟨.redis (.setEx _ p _), .ok _⟩ => some p
  | ⟨.sql (.sessions (.insert _ _ _ _ _ _ p)), .ok _⟩ => p
  | _ => none

theorem presented_of_storedPayload {e : Event authrs} {p : SessionPayload}
    (h : storedPayload e = some p) : presented e.request = some p := by
  unfold storedPayload at h
  split at h
  · exact h
  · exact h
  · cases h

/-- **A program stores a session.** -/
def Mints {α : Type} (H : Handler authrs State) (s : State) (prog : Service α)
    (p : SessionPayload) : Prop :=
  ∃ m ∈ prog.trace H s, storedPayload m.1 = some p

namespace AuthService

variable {w : World} {s : State} {tenantId : String} {user : User} {ip userAgent : Option String}
  {grants : Grants} {p : SessionPayload}

/-- The rest of the call presents no session but one with these grants, and makes no lookup. -/
theorem storeSession_asks (w : World) (tenantId : String) (user : User)
    (ip userAgent : Option String) (grants : Grants) :
    (storeSession w tenantId user ip userAgent grants).Asks fun q =>
      NoLookup q ∧ ∀ p, presented q = some p → p.grants = grants := by
  have hsql : ∀ {x : Sql}, x.lookup = none → NoLookup (.sql x) := by
    rintro x hx _ ⟨⟩
    exact hx
  have hother : ∀ {q : Request}, (∀ x, q ≠ .sql x) → NoLookup q :=
    fun hq x hx => absurd hx (hq x)
  refine (sessionTtl_asks fun q => ⟨hsql rfl, by rintro p ⟨⟩⟩).bind fun ttlSecs => ?_
  refine (nowPlusSeconds_asks ⟨hother (by rintro x ⟨⟩), by rintro p ⟨⟩⟩ _).bind fun expiresAt => ?_
  refine Program.Asks.bind (p := randomToken)
    ⟨⟨hother (by rintro x ⟨⟩), by rintro p ⟨⟩⟩, fun _ => trivial⟩ fun sessionToken => ?_
  have hinsert : ∀ {p : SessionPayload}, p.grants = grants →
      (PostgresSessionStore.createAudit sessionToken p.tenantId p.userId p.ip p.userAgent
        p.expiresAt p).Asks fun q => NoLookup q ∧ ∀ p, presented q = some p → p.grants = grants := by
    intro p hp
    refine asks_execute ⟨hsql rfl, ?_⟩
    rintro p' ⟨⟩
    exact hp
  refine Program.Asks.bind ?_ fun _ => Program.Asks.bind ?_ fun _ => trivial
  · unfold SessionStore.set
    split
    · exact hinsert rfl
    · refine (asks_redis ⟨hother (by rintro x ⟨⟩), by rintro p ⟨⟩⟩).bind fun _ => ?_
      refine (asks_redis ⟨hother (by rintro x ⟨⟩), by rintro p ⟨⟩; rfl⟩).bind fun _ => ?_
      refine (asks_redis ⟨hother (by rintro x ⟨⟩), by rintro p ⟨⟩⟩).bind fun _ => ?_
      refine (addDay_asks ttlSecs).bind fun _ => ?_
      exact asks_redis ⟨hother (by rintro x ⟨⟩), by rintro p ⟨⟩⟩
  · unfold auditSession
    split
    · trivial
    · exact hinsert rfl

end AuthService

section Mints

variable {α β : Type} {H : Handler authrs State} {s : State} {p : SessionPayload}

/-- A composed program stores a session in its first part, or in the rest. -/
theorem mints_bind {prog : Service α} {f : α → Service β} :
    Mints H s (prog.bind f) p ↔
      Mints H s prog p ∨ ∃ a s', prog.exec H s = (.ok a, s') ∧ Mints H s' (f a) p := by
  unfold Mints
  rw [Program.trace_bind]
  rcases prog.exec H s with ⟨e | a, s'⟩
  · simp
  · constructor
    · rintro ⟨m, hm, hp⟩
      rcases List.mem_append.mp hm with hm | hm
      · exact .inl ⟨m, hm, hp⟩
      · exact .inr ⟨a, s', rfl, m, hm, hp⟩
    · rintro (⟨m, hm, hp⟩ | ⟨_, _, ⟨⟩, m, hm, hp⟩)
      · exact ⟨m, List.mem_append_left _ hm, hp⟩
      · exact ⟨m, List.mem_append_right _ hm, hp⟩

/-- A program that presents no session stores none. -/
theorem not_mints_of_asks {prog : Service α} (h : prog.Asks fun q => presented q = none) :
    ¬ Mints H s prog p := by
  rintro ⟨m, hm, hp⟩
  have hnone := h.trace H s m hm
  rw [presented_of_storedPayload hp] at hnone
  cases hnone

theorem mints_grants {prog : Service α} {grants : AuthService.Grants}
    (h : prog.Asks fun q => NoLookup q ∧ ∀ p, presented q = some p → p.grants = grants)
    (hp : Mints H s prog p) : p.grants = grants := by
  obtain ⟨m, hm, hp⟩ := hp
  exact (h.trace H s m hm).2 p (presented_of_storedPayload hp)

end Mints

namespace AuthService

variable {w : World} {s : State} {tenantId : String} {user : User} {ip userAgent : Option String}
  {grants : Grants} {p : SessionPayload}

/-- The row of a session has a place in the database. -/
def HasPlace (db : Db) (tenantId : String) (userId : Uuid) (sessionToken : String)
    (expiresAt : Time) : Prop :=
  ∃ tenant token, varcharReq 255 tenantId = .ok tenant ∧ varcharReq 255 sessionToken = .ok token ∧
    minTimestamp ≤ expiresAt ∧ (∀ r ∈ db.sessions, r.sessionToken ≠ token) ∧
    db.hasTenant tenant = true ∧ db.hasUser userId = true

theorem insertSession_isOk {db : Db} {tenantId sessionToken : String} {userId : Uuid}
    {expiresAt : Time} (ipAddress userAgent : Option String) (payload : Option SessionPayload) :
    (∃ r, insertSession db tenantId userId sessionToken ipAddress userAgent expiresAt payload =
      .ok r) ↔ HasPlace db tenantId userId sessionToken expiresAt := by
  constructor
  · rintro ⟨r, h⟩
    unfold insertSession at h
    obtain ⟨tenant, htenant, h⟩ := bind_eq_ok.mp h
    obtain ⟨token, htoken, h⟩ := bind_eq_ok.mp h
    split at h
    · cases h
    · rename_i hdate
      split at h
      · cases h
      · rename_i sessions hrow
        split at h
        · cases h
        · rename_i hten
          split at h
          · cases h
          · rename_i huser
            exact ⟨tenant, token, htenant, htoken, not_lt.mp hdate,
              fun r hr => Table.insert?_fresh hrow hr, by simpa using hten, by simpa using huser⟩
  · rintro ⟨tenant, token, htenant, htoken, hdate, hnew, hten, huser⟩
    unfold insertSession
    rw [htenant, htoken]
    cases hrow : db.sessions.insert?
        ⟨tenant, userId, token, ipAddress, userAgent, expiresAt, false, payload⟩ with
    | none =>
      obtain ⟨r, hr, hkey⟩ := Table.insert?_eq_none.mp hrow
      exact absurd hkey (hnew r hr)
    | some sessions =>
      refine ⟨(1, { db with sessions := sessions }), ?_⟩
      simp only [bind, Except.bind, if_neg (not_lt.mpr hdate), hrow, hten, huser, Bool.not_true,
        Bool.false_eq_true, if_false]

/-- The store accepts a session of the user: the database has a place for the row, or Redis takes
the key. -/
def Accepts (w : World) (s : State) (tenantId : String) (userId : Uuid) (sessionToken : String)
    (expiresAt : Time) (ttlSecs : Nat) : Prop :=
  match w.sessionStore with
  | .postgres => HasPlace s.db tenantId userId sessionToken expiresAt
  | .redis => s.redis.reachable = true ∧ 0 < ttlSecs ∧ ttlSecs ≤ maxExpireSecs

/-- **A session of the user can be stored**: the tenant's session policy gives a lifetime, the expiry
is a date, and the store accepts the session. -/
def Storable (w : World) (s : State) (tenantId : String) (user : User) : Prop :=
  ∃ ttlSecs expiresAt, (sessionTtl w tenantId).exec (handle w) s = (.ok ttlSecs, s) ∧
    (nowPlusSeconds (RedisSessionStore.asI64 ttlSecs)).exec (handle w) s = (.ok expiresAt, s) ∧
    Accepts w s tenantId user.id (w.token s.draws) expiresAt ttlSecs

theorem exec_sessionTtl_state (w : World) (s : State) (tenantId : String) :
    ((sessionTtl w tenantId).exec (handle w) s).2 = s := by
  unfold sessionTtl TenantConfigLoader.getSessionPolicy
  rw [Program.bind_eq, Program.exec_bind, TenantConfigLoader.exec_getTyped]
  cases (s.db.config w tenantId "session_policy" "default").map
      (·.bind SessionPolicy.fromValue) with
  | error e => rfl
  | ok policy =>
    dsimp only [Except.mapError]
    cases policy.bind (·.absoluteTimeoutMins) with
    | none => rfl
    | some m =>
      dsimp only
      unfold mulU64
      split
      · rfl
      · split <;> rfl

theorem exec_nowPlusSeconds_state (w : World) (s : State) (secs : Int) :
    ((nowPlusSeconds secs).exec (handle w) s).2 = s := by
  unfold nowPlusSeconds
  rw [Program.bind_eq, Program.exec_bind, exec_utcNow]
  dsimp only
  split
  · rfl
  · split <;> rfl

/-- A statement stores a session when it succeeds. -/
theorem mints_execute {q : Sql} :
    Mints (handle w) s (execute q) p ↔
      storedPayload ⟨.sql q, (handle w (.sql q) s).1⟩ = some p := by
  have htrace : (execute q).trace (handle w) s = [(⟨.sql q, (handle w (.sql q) s).1⟩, s)] := by
    unfold execute query
    simp only [Program.bind_eq, Program.request, Program.ask_bind, Program.pure_bind, Program.trace]
    cases (handle w (.sql q) s).1 <;> rfl
  unfold Mints
  rw [htrace]
  simp

/-- A command stores a session when it succeeds. -/
theorem mints_redis {c : RedisCommand} :
    Mints (handle w) s (redis c) p ↔ storedPayload ⟨.redis c, (handle w (.redis c) s).1⟩ = some p := by
  have htrace : (redis c).trace (handle w) s = [(⟨.redis c, (handle w (.redis c) s).1⟩, s)] := by
    unfold redis
    simp only [Program.bind_eq, Program.request, Program.ask_bind, Program.pure_bind, Program.trace]
    cases (handle w (.redis c) s).1 <;> rfl
  unfold Mints
  rw [htrace]
  simp

/-- A statement that stores the row of a session. -/
theorem mints_createAudit {sessionToken : String} {q : SessionPayload} :
    Mints (handle w) s (PostgresSessionStore.createAudit sessionToken q.tenantId q.userId q.ip
        q.userAgent q.expiresAt q) p ↔
      HasPlace s.db q.tenantId q.userId sessionToken q.expiresAt ∧ q = p := by
  rw [← insertSession_isOk q.ip q.userAgent (some q)]
  unfold PostgresSessionStore.createAudit
  rw [mints_execute]
  have hreply : (handle w (.sql (.sessions (.insert q.tenantId q.userId sessionToken q.ip q.userAgent
      q.expiresAt (some q)))) s).1 = (insertSession s.db q.tenantId q.userId sessionToken q.ip
        q.userAgent q.expiresAt (some q)).map Prod.fst := rfl
  rw [hreply]
  cases insertSession s.db q.tenantId q.userId sessionToken q.ip q.userAgent q.expiresAt (some q) with
  | error e => simp [Except.map, storedPayload]
  | ok r => simp [Except.map, storedPayload]

/-- A session is stored when the store accepts it. -/
theorem set_mints {sessionToken : String} {q : SessionPayload} {ttlSecs : Nat} :
    (∃ p, Mints (handle w) s (SessionStore.set w sessionToken q ttlSecs) p) ↔
      Accepts w s q.tenantId q.userId sessionToken q.expiresAt ttlSecs := by
  unfold SessionStore.set Accepts
  cases w.sessionStore with
  | postgres =>
    simp only [mints_createAudit]
    exact ⟨fun ⟨_, h, _⟩ => h, fun h => ⟨q, h, rfl⟩⟩
  | redis =>
    have hconnect : (redis .connect).Asks fun q => presented q = none := asks_redis rfl
    unfold RedisSessionStore.set
    constructor
    · rintro ⟨p, hp⟩
      rcases mints_bind.mp hp with hp | ⟨_, s', hok, hp⟩
      · exact absurd hp (not_mints_of_asks hconnect)
      · rw [exec_redis] at hok
        by_cases hr : s.redis.reachable = true
        · refine ⟨hr, ?_⟩
          simp only [RedisCommand.exec, hr, if_true, Except.mapError, State.withRedis_self,
            Prod.mk.injEq, true_and] at hok
          obtain rfl := hok
          by_contra httl
          have hrefused : (RedisCommand.exec s.now s.redis (.setEx (RedisSessionStore.key sessionToken)
              q ttlSecs)).1 = .error "invalid expire time in 'setex' command" := by
            simp only [RedisCommand.exec, hr, Bool.not_true, Bool.false_eq_true, if_false,
              if_neg httl]
          rcases mints_bind.mp hp with hp | ⟨_, _, hok, -⟩
          · rw [mints_redis] at hp
            simp only [handle, hrefused, storedPayload] at hp
            cases hp
          · rw [exec_redis, hrefused] at hok
            cases hok
        · simp [RedisCommand.exec, hr, Except.mapError] at hok
    · rintro ⟨hr, httl⟩
      refine ⟨q, mints_bind.mpr (.inr ⟨(), s, ?_, mints_bind.mpr (.inl (mints_redis.mpr ?_))⟩)⟩
      · rw [exec_redis]
        simp [RedisCommand.exec, hr, Except.mapError]
      · simp [handle, RedisCommand.exec, hr, httl, storedPayload]

/-- A store that succeeds has stored the session. -/
theorem mints_of_set {sessionToken : String} {q : SessionPayload} {ttlSecs : Nat} {s' : State}
    (h : (SessionStore.set w sessionToken q ttlSecs).exec (handle w) s = (.ok (), s')) :
    ∃ p, Mints (handle w) s (SessionStore.set w sessionToken q ttlSecs) p := by
  unfold SessionStore.set at h ⊢
  cases hstore : w.sessionStore with
  | postgres =>
    simp only [hstore] at h ⊢
    unfold PostgresSessionStore.createAudit execute at h
    obtain ⟨n, s₁, hquery, -⟩ := (Program.exec_bind_eq_ok (handle w)).mp h
    rw [exec_query] at hquery
    refine ⟨q, mints_createAudit.mpr ⟨?_, rfl⟩⟩
    rw [← insertSession_isOk q.ip q.userAgent (some q)]
    cases hrow : insertSession s.db q.tenantId q.userId sessionToken q.ip q.userAgent q.expiresAt
        (some q) with
    | ok r => exact ⟨r, rfl⟩
    | error e =>
      have hexec : (Sql.sessions (.insert q.tenantId q.userId sessionToken q.ip q.userAgent q.expiresAt
          (some q))).exec (s.sqlEnv w) s.db = .error e := hrow
      rw [hexec] at hquery
      cases hquery
  | redis =>
    simp only [hstore] at h ⊢
    unfold RedisSessionStore.set at h ⊢
    obtain ⟨_, s₁, hconnect, h⟩ := (Program.exec_bind_eq_ok (handle w)).mp h
    obtain ⟨_, s₂, hset, -⟩ := (Program.exec_bind_eq_ok (handle w)).mp h
    refine ⟨q, mints_bind.mpr (.inr ⟨_, s₁, hconnect, mints_bind.mpr (.inl (mints_redis.mpr ?_))⟩)⟩
    rw [exec_redis] at hset
    cases hreply : (RedisCommand.exec s₁.now s₁.redis (.setEx (RedisSessionStore.key sessionToken) q
        ttlSecs)).1 with
    | ok r => simp only [handle, hreply, storedPayload]
    | error e =>
      rw [hreply] at hset
      cases hset

/-- **The rest of the call stores a session exactly when one can be stored**, whatever it carries. -/
theorem storeSession_mints :
    (∃ p, Mints (handle w) s (storeSession w tenantId user ip userAgent grants) p) ↔
      Storable w s tenantId user := by
  have hkv : ∀ {secs : Int}, (nowPlusSeconds secs).Asks fun q => presented q = none :=
    nowPlusSeconds_asks (S := fun q => presented q = none) rfl _
  have httl : (sessionTtl w tenantId).Asks fun q => presented q = none := sessionTtl_asks fun _ => rfl
  have htoken : randomToken.Asks fun q => presented q = none := ⟨rfl, fun _ => trivial⟩
  unfold storeSession
  constructor
  · rintro ⟨p, hp⟩
    rcases mints_bind.mp hp with hp | ⟨ttlSecs, s₁, hsecs, hp⟩
    · exact absurd hp (not_mints_of_asks httl)
    obtain rfl : s = s₁ := by
      rw [← exec_sessionTtl_state w s tenantId, hsecs]
    rcases mints_bind.mp hp with hp | ⟨expiresAt, s₁, hexpires, hp⟩
    · exact absurd hp (not_mints_of_asks hkv)
    obtain rfl : s = s₁ := by
      rw [← exec_nowPlusSeconds_state w s (RedisSessionStore.asI64 ttlSecs), hexpires]
    rcases mints_bind.mp hp with hp | ⟨token, s₁, hdrawn, hp⟩
    · exact absurd hp (not_mints_of_asks htoken)
    rw [exec_randomToken] at hdrawn
    cases hdrawn
    refine ⟨ttlSecs, expiresAt, hsecs, hexpires, ?_⟩
    rcases mints_bind.mp hp with hp | ⟨_, s₁, hset, -⟩
    · have haccepts := set_mints.mp ⟨p, hp⟩
      exact haccepts
    · have haccepts := set_mints.mp (mints_of_set hset)
      exact haccepts
  · rintro ⟨ttlSecs, expiresAt, hsecs, hexpires, haccepts⟩
    have hset : ∃ p, Mints (handle w) s.drawn (SessionStore.set w (w.token s.draws)
        ⟨tenantId, user.id, user.identityId, grants.roles, grants.roleIds, grants.permissions,
          grants.groups, grants.groupIds, ip, userAgent, expiresAt⟩ ttlSecs) p :=
      set_mints.mpr haccepts
    obtain ⟨p, hp⟩ := hset
    refine ⟨p, mints_bind.mpr (.inr ⟨_, _, hsecs, ?_⟩)⟩
    refine mints_bind.mpr (.inr ⟨_, _, hexpires, ?_⟩)
    refine mints_bind.mpr (.inr ⟨_, _, exec_randomToken w s, ?_⟩)
    exact mints_bind.mpr (.inl hp)

/-- A call that returns has stored a session. -/
theorem mints_of_storeSession {result : LoginResult} {s' : State}
    (h : (storeSession w tenantId user ip userAgent grants).exec (handle w) s = (.ok result, s')) :
    Storable w s tenantId user := by
  have hiff : (∃ p, Mints (handle w) s (storeSession w tenantId user ip userAgent grants) p) ↔
      Storable w s tenantId user := storeSession_mints
  rw [← hiff]
  unfold storeSession at h ⊢
  obtain ⟨ttlSecs, s₁, hsecs, h⟩ := (Program.exec_bind_eq_ok (handle w)).mp h
  obtain ⟨expiresAt, s₂, hexpires, h⟩ := (Program.exec_bind_eq_ok (handle w)).mp h
  obtain ⟨token, s₃, hdrawn, h⟩ := (Program.exec_bind_eq_ok (handle w)).mp h
  obtain ⟨_, s₄, hset, -⟩ := (Program.exec_bind_eq_ok (handle w)).mp h
  obtain ⟨p, hp⟩ := mints_of_set hset
  refine ⟨p, mints_bind.mpr (.inr ⟨_, _, hsecs, mints_bind.mpr (.inr ⟨_, _, hexpires, ?_⟩)⟩)⟩
  exact mints_bind.mpr (.inr ⟨_, _, hdrawn, mints_bind.mpr (.inl hp)⟩)

variable {failing : Lookup → Bool} {e : SqlError}

/-- The lookups are what the name says. -/
theorem loadGrants_asks_lookups {S : Request → Prop} (hS : ∀ x, x.lookup ≠ none → S (.sql x))
    (tenantId : String) (userId : Uuid) : (loadGrants tenantId userId).Asks S := by
  have hone : ∀ {x : Sql}, x.lookup ≠ none → (query x).Asks S := fun hx => asks_query (hS _ hx)
  unfold loadGrants
  refine (asks_unwrapOrDefault (hone (by rintro ⟨⟩))).bind fun _ => ?_
  refine (asks_unwrapOrDefault (hone (by rintro ⟨⟩))).bind fun _ => ?_
  refine (asks_unwrapOrDefault (hone (by rintro ⟨⟩))).bind fun _ => ?_
  refine (asks_unwrapOrDefault (hone (by rintro ⟨⟩))).bind fun _ => ?_
  refine (asks_unwrapOrDefault (hone (by rintro ⟨⟩))).bind fun _ => ?_
  refine (asks_unwrapOrDefault (hone (by rintro ⟨⟩))).bind fun _ => ?_
  refine (asks_unwrapOrDefault (hone (by rintro ⟨⟩))).bind fun _ => ?_
  exact (asks_unwrapOrDefault (hone (by rintro ⟨⟩))).bind fun _ => trivial

/-- The lookups store no session. -/
theorem loadGrants_not_mints {H : Handler authrs State} {userId : Uuid} :
    ¬ Mints H s (loadGrants tenantId userId) p := by
  refine not_mints_of_asks (loadGrants_asks_lookups (S := fun q => presented q = none) ?_ _ _)
  intro x hx
  cases x with
  | sessions q => exact absurd rfl hx
  | _ => rfl

/-- **A call stores what the lookups have found**, when a session can be stored. -/
theorem doCreateSession_mints :
    Mints (faulty w failing e) s (doCreateSession w tenantId user ip userAgent) p ↔
      Mints (handle w) s (storeSession w tenantId user ip userAgent
        (grantsFound failing s.db tenantId user.id)) p := by
  rw [doCreateSession_eq, mints_bind]
  constructor
  · rintro (h | ⟨g, s', hload, h⟩)
    · exact absurd h loadGrants_not_mints
    · rw [exec_loadGrants] at hload
      cases hload
      unfold Mints at h ⊢
      rwa [(storeSession_asks w tenantId user ip userAgent _).trace_congr (faulty w failing e)
        (fun q hq => faulty_of_noLookup w failing e hq.1)] at h
  · intro h
    refine .inr ⟨_, _, exec_loadGrants tenantId user.id, ?_⟩
    unfold Mints at h ⊢
    rwa [(storeSession_asks w tenantId user ip userAgent _).trace_congr (faulty w failing e)
      (fun q hq => faulty_of_noLookup w failing e hq.1)]

/-- **A call stores a session exactly when one can be stored.** -/
theorem exists_mints :
    (∃ p, Mints (faulty w failing e) s (doCreateSession w tenantId user ip userAgent) p) ↔
      Storable w s tenantId user := by
  simp only [doCreateSession_mints]
  exact storeSession_mints

/-- A session that a call has stored carries what the lookups have found. -/
theorem grants_of_mints
    (h : Mints (faulty w failing e) s (doCreateSession w tenantId user ip userAgent) p) :
    p.grants = grantsFound failing s.db tenantId user.id :=
  mints_grants (storeSession_asks w tenantId user ip userAgent _) (doCreateSession_mints.mp h)

/-- A call that returns has stored a session. -/
theorem storable_of_exec {result : LoginResult} {s' : State}
    (h : (doCreateSession w tenantId user ip userAgent).exec (faulty w failing e) s =
      (.ok result, s')) : Storable w s tenantId user := by
  rw [doCreateSession_eq, Program.exec_bind_ok _ (exec_loadGrants tenantId user.id),
    (storeSession_asks w tenantId user ip userAgent _).exec_congr (faulty w failing e)
      (fun q hq => faulty_of_noLookup w failing e hq.1)] at h
  exact mints_of_storeSession h

end AuthService

end Authrs
