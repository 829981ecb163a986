import Authrs.Login.Clients

/-!
# Requests by kind

The parts that the login calls share ask ordinary requests: they read the configuration and the
memberships, look at the clock and store sessions, but read no identity and touch no password, no
second factor, no challenge and no token. A steady request may do more, as long as it leaves the
call's picture of its identity and the credentials alone.

## Main definitions

* `ordinary`: the requests of the shared parts
* `reveals`, `weighty`, `steady`: requests that show an identity, that bear on its lock or its
  second factor, and that do neither

## Main results

* `AuthService.checkGates_asks`, `doCreateSession_asks`, …: the shared parts ask ordinary requests
* `AuthService.finalizeLogin_asks`: the tail asks steady requests
-/

namespace Authrs

open Interaction Program

/-- A request that reads no identity and touches no password, second factor, challenge, token or
one-time code. -/
def ordinary : Request → Bool
  | .sql (.identities (.clearFailedAttempts _)) => true
  | .sql (.identities (.existsByEmail _)) => true
  | .sql (.identities _) => false
  | .sql (.challenges .deleteExpired) => true
  | .sql (.challenges _) => false
  | .sql (.tokens _) => false
  | .sql (.otps _) => false
  | _ => true

/-- A request whose reply can be an identity. -/
def reveals : Request → Bool
  | .sql (.identities (.getById _)) => true
  | .sql (.identities (.getByEmail _)) => true
  | .sql (.identities (.create ..)) => true
  | _ => false

/-- A request that bears on the lock or the second factor of an identity, counts an attempt on a
challenge, or is about a one-time code. -/
def weighty : Request → Bool
  | .sql (.identities (.setPendingSecret ..)) => true
  | .sql (.identities (.enable ..)) => true
  | .sql (.identities (.disable _)) => true
  | .sql (.identities (.markStepUsed ..)) => true
  | .sql (.identities (.incrementFailedAttempts ..)) => true
  | .sql (.challenges (.incrementAttempts _)) => true
  | .sql (.otps _) => true
  | _ => false

/-- A request that shows no identity and bears on none. -/
def steady (q : Request) : Bool := !reveals q && !weighty q

theorem identityOf_of_not_reveals {e : Event authrs} (h : reveals e.request = false) :
    identityOf e = none := by
  obtain ⟨q, r⟩ := e
  unfold identityOf
  split
  · rename_i he
    obtain ⟨rfl, -⟩ := Event.mk.inj he
    cases h
  · rename_i he
    obtain ⟨rfl, -⟩ := Event.mk.inj he
    cases h
  · rename_i he
    obtain ⟨rfl, -⟩ := Event.mk.inj he
    cases h
  · rfl

theorem steady_of_ordinary {q : Request} (h : ordinary q = true) : steady q = true := by
  cases q with
  | sql x =>
    cases x with
    | identities x => cases x <;> first | rfl | cases h
    | challenges x => cases x <;> first | rfl | cases h
    | otps => cases h
    | _ => rfl
  | _ => rfl

section Parts

variable {S : Request → Prop} (hS : ∀ q, ordinary q = true → S q)

include hS

theorem TenantConfigLoader.getTyped_asks {α : Type} (w : World)
    (tenantId groupKey key : String) (fromValue : Json → Option α) :
    (TenantConfigLoader.getTyped w tenantId groupKey key fromValue).Asks S := by
  have hget : (TenantConfigLoader.get w tenantId groupKey key).Asks S :=
    (asks_query (hS _ rfl)).bind fun _ => asks_ofExcept _
  exact hget.bind fun _ => trivial

theorem hashPassword_asks (password : String) : (hashPassword password).Asks S :=
  ⟨hS _ rfl, fun r => by cases r <;> trivial⟩

namespace AuthService

theorem checkLock_asks (identity : Identity) : (checkLock identity).Asks S := by
  unfold checkLock
  cases identity.lockedUntil with
  | none => trivial
  | some l => exact ⟨hS _ rfl, fun t => asks_ensure _ _⟩

theorem checkAccess_asks (user : User) : (checkAccess user).Asks S := by
  unfold checkAccess
  cases user.accessValidUntil with
  | none => trivial
  | some v => exact ⟨hS _ rfl, fun t => asks_ensure _ _⟩

theorem checkGates_asks (user : User) (identity : Identity) : (checkGates user identity).Asks S := by
  refine (asks_ensure _ _).bind fun _ => ?_
  exact (checkLock_asks hS identity).bind fun _ => checkAccess_asks hS user

theorem effectiveLoginMethods_asks (w : World) (tenantId : String) (user : User) :
    (effectiveLoginMethods w tenantId user).Asks S :=
  (TenantConfigLoader.getTyped_asks hS w tenantId _ _ _).bind fun _ => trivial

theorem ensureEmailDomainAllowed_asks (w : World) (tenantId email : String) :
    (ensureEmailDomainAllowed w tenantId email).Asks S :=
  (TenantConfigLoader.getTyped_asks hS w tenantId _ _ _).bind fun _ => asks_ensure _ _

theorem checkOauthDomain_asks (w : World) (tenantId : String) (verifiedEmail : Option String) :
    (checkOauthDomain w tenantId verifiedEmail).Asks S := by
  cases verifiedEmail with
  | some e => exact ensureEmailDomainAllowed_asks hS w tenantId e
  | none => exact (TenantConfigLoader.getTyped_asks hS w tenantId _ _ _).bind fun _ => asks_ensure _ _

theorem validatePassword_asks (w : World) (tenantId password : String) :
    (validatePassword w tenantId password).Asks S := by
  refine (TenantConfigLoader.getTyped_asks hS w tenantId _ _ _).bind fun policy => ?_
  cases passwordPolicyError w password policy <;> trivial

theorem clearFailedAttempts_asks (id : Uuid) : (IdentitiesRepo.clearFailedAttempts id).Asks S :=
  asks_execute (hS _ rfl)

theorem loadGrants_asks_ordinary (tenantId : String) (userId : Uuid) :
    (loadGrants tenantId userId).Asks S := by
  unfold loadGrants
  refine (asks_unwrapOrDefault (asks_query (hS _ rfl))).bind fun _ => ?_
  refine (asks_unwrapOrDefault (asks_query (hS _ rfl))).bind fun _ => ?_
  refine (asks_unwrapOrDefault (asks_query (hS _ rfl))).bind fun _ => ?_
  refine (asks_unwrapOrDefault (asks_query (hS _ rfl))).bind fun _ => ?_
  refine (asks_unwrapOrDefault (asks_query (hS _ rfl))).bind fun _ => ?_
  refine (asks_unwrapOrDefault (asks_query (hS _ rfl))).bind fun _ => ?_
  refine (asks_unwrapOrDefault (asks_query (hS _ rfl))).bind fun _ => ?_
  exact (asks_unwrapOrDefault (asks_query (hS _ rfl))).bind fun _ => trivial

theorem setSession_asks (w : World) (sessionToken : String) (payload : SessionPayload)
    (ttlSecs : Nat) : (SessionStore.set w sessionToken payload ttlSecs).Asks S := by
  unfold SessionStore.set
  cases w.sessionStore with
  | postgres => exact asks_execute (hS _ rfl)
  | redis =>
    refine (asks_redis (hS _ rfl)).bind fun _ => (asks_redis (hS _ rfl)).bind fun _ => ?_
    refine (asks_redis (hS _ rfl)).bind fun _ => ?_
    exact (addDay_asks ttlSecs).bind fun _ => asks_redis (hS _ rfl)

/-- **`do_create_session` asks ordinary requests.** -/
theorem doCreateSession_asks (w : World) (tenantId : String) (user : User)
    (ip userAgent : Option String) : (doCreateSession w tenantId user ip userAgent).Asks S := by
  refine (loadGrants_asks_ordinary hS tenantId user.id).bind fun grants => ?_
  refine (sessionTtl_asks fun q => hS _ rfl).bind fun ttlSecs => ?_
  refine (nowPlusSeconds_asks (hS _ rfl) _).bind fun expiresAt => ?_
  refine Asks.bind (p := randomToken) ⟨hS _ rfl, fun _ => trivial⟩ fun sessionToken => ?_
  refine (setSession_asks hS w _ _ _).bind fun _ => ?_
  have haudit : ∀ payload, (auditSession w sessionToken payload).Asks S := by
    intro payload
    unfold auditSession
    split
    · trivial
    · exact asks_execute (hS _ rfl)
  exact (haudit _).bind fun _ => trivial

/-- A change token replaces the others of its membership. -/
theorem issueForceChangeToken_asks
    (hdelete : ∀ tenantId userId, S (.sql (.tokens (.deleteForceChangeTokensFor tenantId userId))))
    (hcreate : ∀ tenantId userId token expiresAt,
      S (.sql (.tokens (.createForceChangeToken tenantId userId token expiresAt))))
    (tenantId : String) (userId : Uuid) : (issueForceChangeToken tenantId userId).Asks S := by
  refine ⟨hS _ rfl, fun changeToken => ⟨hS _ rfl, fun now => ?_⟩⟩
  have hstore : (ForceChangeTokensRepo.create tenantId userId changeToken
      (now + minutes FORCE_CHANGE_TOKEN_TTL_MINS)).Asks S :=
    (asks_execute (hdelete _ _)).bind fun _ => asks_execute (hcreate _ _ _ _)
  exact hstore.bind fun _ => trivial

theorem issueChallenge_asks
    (hinsert : ∀ token tenantId userId expiresAt,
      S (.sql (.challenges (.insert token tenantId userId expiresAt))))
    (tenantId : String) (userId : Uuid) : (issueChallenge tenantId userId).Asks S := by
  refine ⟨hS _ rfl, fun mfaToken => ⟨hS _ rfl, fun now => ?_⟩⟩
  have hstore : (MfaRepo.createChallenge mfaToken tenantId userId
      (now + minutes MFA_CHALLENGE_TTL_MINS)).Asks S :=
    (asks_execute (hS _ rfl)).bind fun _ => asks_execute (hinsert _ _ _ _)
  exact hstore.bind fun _ => trivial

/-- The tail, where tokens and challenges may be issued. -/
theorem finalizeLogin_asks
    (hdelete : ∀ tenantId userId, S (.sql (.tokens (.deleteForceChangeTokensFor tenantId userId))))
    (hcreate : ∀ tenantId userId token expiresAt,
      S (.sql (.tokens (.createForceChangeToken tenantId userId token expiresAt))))
    (hinsert : ∀ token tenantId userId expiresAt,
      S (.sql (.challenges (.insert token tenantId userId expiresAt))))
    (w : World) (tenantId : String) (user : User) (identity : Identity)
    (ip userAgent : Option String) :
    (finalizeLogin w tenantId user identity ip userAgent).Asks S := by
  unfold finalizeLogin
  split
  · exact issueForceChangeToken_asks hS hdelete hcreate tenantId user.id
  · split
    · exact issueChallenge_asks hS hinsert tenantId user.id
    · exact doCreateSession_asks hS w tenantId user ip userAgent

theorem createMembership_asks (identity : Identity) (tenantId : String)
    (username : Option String) : (UsersRepo.create identity tenantId username).Asks S := by
  refine Asks.bind (p := newUuid) ⟨hS _ rfl, fun _ => trivial⟩ fun id => ?_
  refine Asks.bind (p := utcNow) ⟨hS _ rfl, fun _ => trivial⟩ fun now => ?_
  exact (asks_execute (hS _ rfl)).bind fun _ => trivial

end AuthService

end Parts

end Authrs
