import Authrs.Interaction.Raises
import Authrs.Login.Grants
import Authrs.Sessions.Index

/-!
# The lifetime of a session

The session policy of a tenant gives the lifetime of its sessions in minutes, as any `u64`. It is
turned into seconds, cast to `i64`, added to the clock, given to the store, and once more extended by
a day for the index set. Each step has a domain of its own. The narrowest is that of the clock: as
long as the expiry is a date, the other steps are exact.

## Main definitions

* `Db.AbsoluteTimeout`: the session policy gives a lifetime in minutes
* `ExactSteps`: no step of the arithmetic overflows, wraps or panics
* `StoresUntil`: what a request that stores a session stores
* `ExactLifetime`: a call stores a session with exactly the lifetime of the policy, or none

## Main results

* `exec_nowPlusSeconds_eq_ok`: the domain of the addition to the clock
* `exactSteps_iff`: the steps are exact when the expiry is a date
* `session_lifetime_iff`: and so is the session
-/

namespace Authrs

open Interaction Relational

/-- The session policy of the tenant gives an absolute timeout of `m` minutes. -/
def Db.AbsoluteTimeout (w : World) (db : Db) (tenantId : String) (m : Nat) : Prop :=
  ∃ j policy, db.config w tenantId "session_policy" "default" = .ok (some j) ∧
    SessionPolicy.fromValue j = some policy ∧ policy.absoluteTimeoutMins = some m

/-- A request that stores a session stores it until `expiresAt`, with this time to live. -/
def StoresUntil (expiresAt : Time) (ttlSecs : Nat) : Request → Prop
  | .redis (.setEx _ p ttl) => p.expiresAt = expiresAt ∧ ttl = ttlSecs
  | .sql (.sessions (.insert _ _ _ _ _ t p)) => t = expiresAt ∧ ∀ q, p = some q → q.expiresAt = t
  | _ => True

namespace AuthService

variable {w : World} {s s' : State} {tenantId : String} {user : User}
  {ip userAgent : Option String} {grants : Grants} {m : Nat}

/-! ### The steps -/

/-- **No step of the arithmetic overflows, wraps or panics**: the product in `u64`, the cast to
`i64`, the addition to the clock, and the day that is added for the index set. -/
structure ExactSteps (w : World) (s : State) (tenantId : String) (m : Nat) : Prop where
  ttl : (sessionTtl w tenantId).exec (handle w) s = (.ok (60 * m), s)
  cast : RedisSessionStore.asI64 (60 * m) = 60 * m
  expiry : (nowPlusSeconds (RedisSessionStore.asI64 (60 * m))).exec (handle w) s =
    (.ok (s.now + minutes m), s)
  day : (RedisSessionStore.addDay w (60 * m)).exec (handle w) s = (.ok (60 * m + 86400), s)
  castDay : RedisSessionStore.asI64 (60 * m + 86400) = 60 * m + 86400

/-- The lifetime is the product in `u64`. -/
theorem exec_sessionTtl (h : s.db.AbsoluteTimeout w tenantId m) :
    (sessionTtl w tenantId).exec (handle w) s = (mulU64 w m 60).exec (handle w) s := by
  obtain ⟨j, policy, hj, hpolicy, hm⟩ := h
  unfold sessionTtl TenantConfigLoader.getSessionPolicy
  rw [Program.bind_eq, Program.exec_bind, TenantConfigLoader.exec_getTyped, hj]
  simp only [Except.map, Except.mapError, Option.bind_some, hpolicy, hm]

/-- **The domain of the addition to the clock.** -/
theorem exec_nowPlusSeconds_eq_ok {secs : Int} {t : Time} :
    (nowPlusSeconds secs).exec (handle w) s = (.ok t, s') ↔
      -9223372036854775 ≤ secs ∧ secs ≤ 9223372036854775 ∧ minUtc ≤ t ∧ t ≤ maxUtc ∧
        t = s.now + seconds secs ∧ s' = s := by
  unfold nowPlusSeconds
  rw [Program.bind_eq, Program.exec_bind, exec_utcNow]
  dsimp only
  generalize hsum : s.now + seconds secs = sum
  by_cases hdelta : secs < -9223372036854775 ∨ 9223372036854775 < secs
  · rw [if_pos hdelta]
    constructor
    · rintro ⟨⟩
    · omega
  · rw [if_neg hdelta]
    by_cases hdate : sum < minUtc ∨ maxUtc < sum
    · rw [if_pos hdate]
      constructor
      · rintro ⟨⟩
      · rintro ⟨-, -, hmin, hmax, rfl, -⟩
        exact absurd hdate (not_or.mpr ⟨not_lt.mpr hmin, not_lt.mpr hmax⟩)
    · rw [if_neg hdate]
      constructor
      · rintro ⟨⟩
        obtain ⟨hmin, hmax⟩ := not_or.mp hdate
        exact ⟨by omega, by omega, not_lt.mp hmin, not_lt.mp hmax, rfl, rfl⟩
      · rintro ⟨-, -, -, -, rfl, rfl⟩
        rfl

/-- A lifetime that ends on a date has few enough seconds for every other step. -/
theorem secs_le_of_date {now : Int} (hnow : minUtc ≤ now) (hdate : now + minutes m ≤ maxUtc) :
    60 * m ≤ 16544868105599 := by
  have hfirst : -8334601228800 * 1000000 ≤ now := hnow
  have hlast : now + m * 60 * 1000000 ≤ 8210266876799 * 1000000 + 999999 := hdate
  omega

/-- **The steps are exact when the expiry is a date**, and only then. -/
theorem exactSteps_iff (h : s.db.AbsoluteTimeout w tenantId m) (hnow : minUtc ≤ s.now) :
    ExactSteps w s tenantId m ↔ s.now + minutes m ≤ maxUtc := by
  constructor
  · intro hsteps
    exact (exec_nowPlusSeconds_eq_ok.mp hsteps.expiry).2.2.2.1
  · intro hdate
    have hsecs := secs_le_of_date hnow hdate
    have hmin : minUtc ≤ s.now + minutes m := by
      refine le_trans hnow (le_add_of_nonneg_right ?_)
      show (0 : Int) ≤ (m * 60 : Int) * 1000000
      omega
    have hcast : RedisSessionStore.asI64 (60 * m) = 60 * m :=
      RedisSessionStore.asI64_of_lt (by omega)
    have hday : RedisSessionStore.asI64 (60 * m + 86400) = 60 * m + 86400 :=
      RedisSessionStore.asI64_of_lt (by omega)
    refine ⟨?_, hcast, ?_, ?_, hday⟩
    · rw [exec_sessionTtl h]
      unfold mulU64
      rw [if_pos (by omega), Nat.mul_comm]
      rfl
    · rw [hcast, exec_nowPlusSeconds_eq_ok]
      refine ⟨by omega, by omega, hmin, hdate, ?_, rfl⟩
      unfold minutes
      rw [Int.mul_comm]
    · have hadd : RedisSessionStore.addDay w (60 * m) = Program.pure (60 * m + 86400) := by
        unfold RedisSessionStore.addDay
        rw [if_pos (by omega)]
        rfl
      rw [hadd]
      rfl

/-! ### The session that is stored -/

/-- What is left of `do_create_session` after the steps. -/
def keepSession (w : World) (sessionToken : String) (payload : SessionPayload) (ttlSecs : Nat) :
    Service LoginResult := do
  SessionStore.set w sessionToken payload ttlSecs
  auditSession w sessionToken payload
  pure (.success sessionToken payload.expiresAt)

/-- The session of a user. -/
def payloadOf (tenantId : String) (user : User) (ip userAgent : Option String) (grants : Grants)
    (expiresAt : Time) : SessionPayload where
  tenantId := tenantId
  userId := user.id
  identityId := user.identityId
  roles := grants.roles
  roleIds := grants.roleIds
  permissions := grants.permissions
  groups := grants.groups
  groupIds := grants.groupIds
  ip := ip
  userAgent := userAgent
  expiresAt := expiresAt

theorem storeSession_eq (w : World) (tenantId : String) (user : User)
    (ip userAgent : Option String) (grants : Grants) :
    storeSession w tenantId user ip userAgent grants =
      (sessionTtl w tenantId).bind fun ttlSecs =>
        (nowPlusSeconds (RedisSessionStore.asI64 ttlSecs)).bind fun expiresAt =>
          randomToken.bind fun token =>
            keepSession w token (payloadOf tenantId user ip userAgent grants expiresAt) ttlSecs :=
  rfl

/-- The session is stored until its expiry. -/
theorem keepSession_asks (w : World) (sessionToken : String) (payload : SessionPayload)
    (ttlSecs : Nat) :
    (keepSession w sessionToken payload ttlSecs).Asks (StoresUntil payload.expiresAt ttlSecs) := by
  have haudit : (PostgresSessionStore.createAudit sessionToken payload.tenantId payload.userId
      payload.ip payload.userAgent payload.expiresAt payload).Asks
        (StoresUntil payload.expiresAt ttlSecs) := by
    refine asks_execute ⟨rfl, ?_⟩
    rintro q ⟨⟩
    rfl
  refine Program.Asks.bind ?_ fun _ => Program.Asks.bind ?_ fun _ => trivial
  · unfold SessionStore.set
    split
    · exact haudit
    · refine (asks_redis trivial).bind fun _ => (asks_redis ⟨rfl, rfl⟩).bind fun _ => ?_
      refine (asks_redis trivial).bind fun _ => (addDay_asks ttlSecs).bind fun _ => ?_
      exact asks_redis trivial
  · unfold auditSession
    split
    · trivial
    · exact haudit

/-- What happens after exact steps. -/
theorem exec_storeSession (h : ExactSteps w s tenantId m) :
    (storeSession w tenantId user ip userAgent grants).exec (handle w) s =
      (keepSession w (w.token s.draws)
        (payloadOf tenantId user ip userAgent grants (s.now + minutes m)) (60 * m)).exec (handle w)
          s.drawn := by
  rw [storeSession_eq, Program.exec_bind_ok _ h.ttl, Program.exec_bind_ok _ h.expiry,
    Program.exec_bind_ok _ (exec_randomToken w s)]

/-- What the steps store, they store until the expiry. -/
theorem storeSession_stores (h : ExactSteps w s tenantId m) :
    ∀ x ∈ (storeSession w tenantId user ip userAgent grants).trace (handle w) s,
      (storedPayload x.1).isSome = true → StoresUntil (s.now + minutes m) (60 * m) x.1.request := by
  have hnone : ∀ {α : Type} {p : Service α}, (p.Asks fun q => presented q = none) →
      ∀ x ∈ p.trace (handle w) s,
        (storedPayload x.1).isSome = true →
          StoresUntil (s.now + minutes m) (60 * m) x.1.request := by
    intro α p hp x hx hsome
    obtain ⟨q, hq⟩ := Option.isSome_iff_exists.mp hsome
    have hpresented := hp.trace (handle w) s x hx
    rw [presented_of_storedPayload hq] at hpresented
    cases hpresented
  intro x hx
  rw [storeSession_eq, Program.trace_bind, h.ttl] at hx
  dsimp only at hx
  rw [Program.trace_bind, h.expiry] at hx
  dsimp only at hx
  rw [Program.trace_bind, exec_randomToken] at hx
  rcases List.mem_append.mp hx with hx | hx
  · exact hnone (sessionTtl_asks fun _ => rfl) x hx
  rcases List.mem_append.mp hx with hx | hx
  · exact hnone (nowPlusSeconds_asks (S := fun q => presented q = none) rfl _) x hx
  rcases List.mem_append.mp hx with hx | hx
  · exact hnone (p := randomToken) ⟨rfl, fun _ => trivial⟩ x hx
  · intro _
    exact (keepSession_asks w _ (payloadOf tenantId user ip userAgent grants (s.now + minutes m))
      (60 * m)).trace (handle w) s.drawn x hx

/-! ### Failures -/

section Failures

open Program

variable {α : Type}

/-- A failure that is not a panic. -/
def NoPanic : Failure → Prop
  | .error _ => True
  | .panic _ => False

theorem noPanic_ofResult (r : Except AppError α) : (Service.ofResult r).Raises NoPanic := by
  refine raises_ofExcept fun e he => ?_
  cases r with
  | ok a => cases he
  | error e' =>
    cases he
    trivial

theorem noPanic_execute (q : Sql) : (execute q).Raises NoPanic :=
  ((raises_request _).bind fun _ => noPanic_ofResult _).bind fun _ => trivial

theorem noPanic_redis (c : RedisCommand) : (redis c).Raises NoPanic :=
  (raises_request _).bind fun _ => noPanic_ofResult _

/-- Nothing panics once the day can be added. -/
theorem noPanic_keepSession {sessionToken : String} {payload : SessionPayload} {ttlSecs : Nat}
    (hday : ttlSecs + 86400 < 2 ^ 64) :
    (keepSession w sessionToken payload ttlSecs).Raises NoPanic := by
  have hadd : (RedisSessionStore.addDay w ttlSecs).Raises NoPanic := by
    unfold RedisSessionStore.addDay
    rw [if_pos hday]
    exact raises_pure _
  have haudit : (PostgresSessionStore.createAudit sessionToken payload.tenantId payload.userId
      payload.ip payload.userAgent payload.expiresAt payload).Raises NoPanic := noPanic_execute _
  refine Raises.bind ?_ fun _ => Raises.bind ?_ fun _ => trivial
  · unfold SessionStore.set
    split
    · exact haudit
    · exact (noPanic_redis _).bind fun _ => (noPanic_redis _).bind fun _ =>
        (noPanic_redis _).bind fun _ => hadd.bind fun _ => noPanic_redis _
  · unfold auditSession
    split
    · trivial
    · exact haudit

end Failures

/-! ### The lifetime of a session -/

/-- **A call stores a session with exactly the lifetime of the policy, or none**: no step of the
arithmetic overflows, the call does not panic, it fails without storing a session or stores one,
and what it stores expires `m` minutes from now, with a time to live of as many seconds. -/
structure ExactLifetime (w : World) (s : State) (tenantId : String) (user : User)
    (ip userAgent : Option String) (m : Nat) : Prop where
  steps : ExactSteps w s tenantId m
  no_panic : ∀ message s',
    (doCreateSession w tenantId user ip userAgent).exec (handle w) s ≠ (.error (.panic message), s')
  stores_or_fails :
    (∃ p, Mints (handle w) s (doCreateSession w tenantId user ip userAgent) p) ∨
      ∃ e s', (doCreateSession w tenantId user ip userAgent).exec (handle w) s = (.error e, s')
  exact : ∀ x ∈ (doCreateSession w tenantId user ip userAgent).trace (handle w) s,
    (storedPayload x.1).isSome = true → StoresUntil (s.now + minutes m) (60 * m) x.1.request

/-- The call is what is left of it after the lookups, with what they find. -/
theorem exec_doCreateSession (w : World) (s : State) (tenantId : String) (user : User)
    (ip userAgent : Option String) :
    (doCreateSession w tenantId user ip userAgent).exec (handle w) s =
      (storeSession w tenantId user ip userAgent
        (grantsFound (fun _ => false) s.db tenantId user.id)).exec (handle w) s := by
  rw [doCreateSession_eq, ← faulty_none w .rowNotFound,
    Program.exec_bind_ok _ (exec_loadGrants tenantId user.id)]

/-- An exchange of the call that stores a session is one of those after the lookups. -/
theorem mem_trace_doCreateSession {x : Event authrs × State}
    (hx : x ∈ (doCreateSession w tenantId user ip userAgent).trace (handle w) s)
    (hstored : (storedPayload x.1).isSome = true) :
    x ∈ (storeSession w tenantId user ip userAgent
      (grantsFound (fun _ => false) s.db tenantId user.id)).trace (handle w) s := by
  rw [doCreateSession_eq, Program.trace_bind] at hx
  have hload : (loadGrants tenantId user.id).exec (handle w) s =
      (.ok (grantsFound (fun _ => false) s.db tenantId user.id), s) := by
    rw [← faulty_none w .rowNotFound]
    exact exec_loadGrants tenantId user.id
  rw [hload] at hx
  rcases List.mem_append.mp hx with hx | hx
  · obtain ⟨p, hp⟩ := Option.isSome_iff_exists.mp hstored
    exact absurd ⟨x, hx, hp⟩ loadGrants_not_mints
  · exact hx

/-- **The lifetime of a session is exact when its expiry is a date**, and only then. -/
theorem session_lifetime_iff (h : s.db.AbsoluteTimeout w tenantId m) (hnow : minUtc ≤ s.now) :
    ExactLifetime w s tenantId user ip userAgent m ↔ s.now + minutes m ≤ maxUtc := by
  constructor
  · intro hexact
    exact (exactSteps_iff h hnow).mp hexact.steps
  · intro hdate
    have hsteps : ExactSteps w s tenantId m := (exactSteps_iff h hnow).mpr hdate
    have hsecs := secs_le_of_date hnow hdate
    refine ⟨hsteps, ?_, ?_, ?_⟩
    · intro message s' hpanic
      rw [exec_doCreateSession, exec_storeSession hsteps] at hpanic
      exact (noPanic_keepSession (by omega)).exec hpanic
    · rcases hexec : (doCreateSession w tenantId user ip userAgent).exec (handle w) s with ⟨e | r, s'⟩
      · exact .inr ⟨e, s', rfl⟩
      · -- a call that returns has stored a session
        rw [← faulty_none w .rowNotFound] at hexec ⊢
        exact .inl (exists_mints.mpr (storable_of_exec hexec))
    · intro x hx hstored
      exact storeSession_stores hsteps x (mem_trace_doCreateSession hx hstored) hstored

end AuthService

/-! ### A policy that wraps -/

/-- A deployment in which every stored value is a session policy of `m` minutes. -/
def World.withTimeout (m : Nat) : World :=
  { World.offline with parseJson := fun _ => .ok (.object [("absoluteTimeoutMins", .int m)]) }

/-- The identity of a member. -/
def annIdentity : IdentityRow :=
  .ofHandles ⟨0, id, fun _ => 7⟩ (some "ann@acme.example") none none none none none

/-- A tenant with a session policy, and a member. -/
def withPolicy (policy : String) : State :=
  .ofDb { Db.empty with
    tenants := acmeAndGlobex
    kvStore := .single ⟨"acme", "session_policy", "default", policy, false, 0⟩
    identities := .single annIdentity
    users := .single ⟨1, "acme", 7, none, "active", none, 0, 0⟩ } 0

/-- That member. -/
def annOfAcme : User := .ofRows ⟨1, "acme", 7, none, "active", none, 0, 0⟩ annIdentity.toIdentity

theorem session_lifetime_iff_hour :
    AuthService.ExactLifetime (.withTimeout 60) (withPolicy "\x7b\"absoluteTimeoutMins\":60\x7d") "acme"
      annOfAcme none none 60 := by
  refine (AuthService.session_lifetime_iff ⟨_, _, rfl, rfl, rfl⟩ ?_).mpr ?_
  · decide
  · decide

/-- **A lifetime of half a trillion years is one of 44 seconds**: the product wraps around `u64`, and
the session is stored. -/
theorem long_timeout_wraps :
    ((AuthService.doCreateSession (.withTimeout 307445734561825861) "acme" annOfAcme none none).exec
        (handle (.withTimeout 307445734561825861))
        (withPolicy "\x7b\"absoluteTimeoutMins\":307445734561825861\x7d")).2.db.sessions.rows.map
          (·.expiresAt) = [seconds 44] ∧
      ¬ ∀ (w : World) (s : State) (tenantId : String) (user : User) (ip userAgent : Option String)
          (m : Nat), s.db.AbsoluteTimeout w tenantId m → minUtc ≤ s.now →
        AuthService.ExactLifetime w s tenantId user ip userAgent m := by
  constructor
  · decide +kernel
  · intro h
    have hexact := h (.withTimeout 307445734561825861)
      (withPolicy "\x7b\"absoluteTimeoutMins\":307445734561825861\x7d") "acme" annOfAcme none none
      307445734561825861 ⟨_, _, rfl, rfl, rfl⟩ (by decide)
    have httl := congrArg Prod.fst hexact.steps.ttl
    rw [AuthService.exec_sessionTtl ⟨_, _, rfl, rfl, rfl⟩] at httl
    cases httl

end Authrs
