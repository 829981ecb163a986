import Authrs.Caches.CachedRows
import Authrs.Login.Requests

/-!
# What a sign-in asks for

The requests that a sign-in with an identity provider can make, and the tail that it shares with the
other logins. All of them are about the one tenant that the sign-in is for; the statements on
identities and on account links are about the one profile that it was given.

## Main definitions

* `TailRequest tenantId`: a request of the shared tail
* `SignInRequest tenantId provider profile`: a request of a sign-in with a provider

## Main results

* `AuthService.finalizeLogin_tail`: the tail makes such requests and no others
* `AuthService.loginOauth_asks`: so does a sign-in
* `SignInRequest.issued_tenant`: what it issues is for its tenant
-/

namespace Authrs

open Interaction Program

/-- A request of the tail that the logins share. -/
inductive TailRequest (tenantId : String) : Request → Prop
  | clock : TailRequest tenantId .clock
  | randomToken : TailRequest tenantId .randomToken
  | config {groupKey key : String} : CachedConfig.NamesPlain groupKey key →
    TailRequest tenantId (.sql (.kv (.get tenantId groupKey key)))
  | userRoles (userId : Uuid) : TailRequest tenantId (.sql (.roles (.getUserRoles tenantId userId)))
  | userRoleIds (userId : Uuid) :
    TailRequest tenantId (.sql (.roles (.getUserRoleIds tenantId userId)))
  | userPermissions (userId : Uuid) :
    TailRequest tenantId (.sql (.roles (.getUserPermissions tenantId userId)))
  | groupUids (userId : Uuid) :
    TailRequest tenantId (.sql (.groups (.getUserGroupUids tenantId userId)))
  | groupIds (userId : Uuid) :
    TailRequest tenantId (.sql (.groups (.getUserGroupIds tenantId userId)))
  | groupRoleUids (userId : Uuid) :
    TailRequest tenantId (.sql (.groups (.getUserGroupRoleUids tenantId userId)))
  | groupRoleIds (userId : Uuid) :
    TailRequest tenantId (.sql (.groups (.getUserGroupRoleIds tenantId userId)))
  | groupPermissions (userId : Uuid) :
    TailRequest tenantId (.sql (.groups (.getUserGroupPermissions tenantId userId)))
  | dropChangeTokens (userId : Uuid) :
    TailRequest tenantId (.sql (.tokens (.deleteForceChangeTokensFor tenantId userId)))
  | changeToken (userId : Uuid) (token : String) (expiresAt : Time) :
    TailRequest tenantId (.sql (.tokens (.createForceChangeToken tenantId userId token expiresAt)))
  | dropChallenges : TailRequest tenantId (.sql (.challenges .deleteExpired))
  | challenge (token : String) (userId : Uuid) (expiresAt : Time) :
    TailRequest tenantId (.sql (.challenges (.insert token tenantId userId expiresAt)))
  | session (userId : Uuid) (sessionToken : String) (ipAddress userAgent : Option String)
    (expiresAt : Time) (payload : Option SessionPayload) :
    TailRequest tenantId (.sql (.sessions (.insert tenantId userId sessionToken ipAddress userAgent
      expiresAt payload)))
  | redisConnect : TailRequest tenantId (.redis .connect)
  | redisSession (key : String) (payload : SessionPayload) (ttlSecs : Nat) :
    payload.tenantId = tenantId → TailRequest tenantId (.redis (.setEx key payload ttlSecs))
  | redisIndex (key member : String) : TailRequest tenantId (.redis (.sadd key member))
  | redisExpire (key : String) (secs : Int) : TailRequest tenantId (.redis (.expire key secs))

/-- A request of a sign-in with an identity provider. -/
inductive SignInRequest (tenantId provider : String) (profile : OauthProfile) : Request → Prop
  | tail {q : Request} : TailRequest tenantId q → SignInRequest tenantId provider profile q
  | newUuid : SignInRequest tenantId provider profile .newUuid
  | linkedIdentity : SignInRequest tenantId provider profile
      (.sql (.oauth (.getLinkedIdentity provider profile.providerUserId)))
  | identityById (id : Uuid) :
    SignInRequest tenantId provider profile (.sql (.identities (.getById id)))
  | identityByEmail (e : String) : profile.verifiedEmail = some e →
    SignInRequest tenantId provider profile (.sql (.identities (.getByEmail e)))
  | emailTaken (e : String) : profile.unverifiedEmail = some e →
    SignInRequest tenantId provider profile (.sql (.identities (.existsByEmail e)))
  | createIdentity : SignInRequest tenantId provider profile
      (.sql (.identities (.create profile.verifiedEmail none none profile.firstName
        profile.lastName none)))
  | link (identityId : Uuid) : SignInRequest tenantId provider profile
      (.sql (.oauth (.link identityId provider profile.providerUserId profile.email)))
  | membership (identityId : Uuid) :
    SignInRequest tenantId provider profile (.sql (.users (.getMembership identityId tenantId)))
  | join (id identityId : Uuid) (now : Time) :
    SignInRequest tenantId provider profile (.sql (.users (.create id tenantId identityId none now)))

namespace AuthService

variable (w : World) (tenantId : String)

/-! ### The tail -/

theorem getTyped_tail {α : Type} {groupKey key : String}
    (hname : CachedConfig.NamesPlain groupKey key) (fromValue : Json → Option α) :
    (TenantConfigLoader.getTyped w tenantId groupKey key fromValue).Asks (TailRequest tenantId) := by
  have hget : (TenantConfigLoader.get w tenantId groupKey key).Asks (TailRequest tenantId) :=
    (asks_query (.config hname)).bind fun _ => asks_ofExcept _
  exact hget.bind fun _ => trivial

theorem checkGates_tail (user : User) (identity : Identity) :
    (checkGates user identity).Asks (TailRequest tenantId) := by
  have hlock : (checkLock identity).Asks (TailRequest tenantId) := by
    unfold checkLock
    cases identity.lockedUntil with
    | none => trivial
    | some l => exact ⟨.clock, fun t => asks_ensure _ _⟩
  have haccess : (checkAccess user).Asks (TailRequest tenantId) := by
    unfold checkAccess
    cases user.accessValidUntil with
    | none => trivial
    | some v => exact ⟨.clock, fun t => asks_ensure _ _⟩
  exact (asks_ensure _ _).bind fun _ => hlock.bind fun _ => haccess

theorem effectiveLoginMethods_tail (user : User) :
    (effectiveLoginMethods w tenantId user).Asks (TailRequest tenantId) :=
  (getTyped_tail w tenantId ⟨by decide, by decide⟩ _).bind fun _ => trivial

theorem loadGrants_tail (userId : Uuid) :
    (loadGrants tenantId userId).Asks (TailRequest tenantId) := by
  unfold loadGrants
  refine (asks_unwrapOrDefault (asks_query (.userRoles userId))).bind fun _ => ?_
  refine (asks_unwrapOrDefault (asks_query (.userRoleIds userId))).bind fun _ => ?_
  refine (asks_unwrapOrDefault (asks_query (.userPermissions userId))).bind fun _ => ?_
  refine (asks_unwrapOrDefault (asks_query (.groupUids userId))).bind fun _ => ?_
  refine (asks_unwrapOrDefault (asks_query (.groupIds userId))).bind fun _ => ?_
  refine (asks_unwrapOrDefault (asks_query (.groupRoleUids userId))).bind fun _ => ?_
  refine (asks_unwrapOrDefault (asks_query (.groupRoleIds userId))).bind fun _ => ?_
  exact (asks_unwrapOrDefault (asks_query (.groupPermissions userId))).bind fun _ => trivial

theorem setSession_tail (sessionToken : String) {payload : SessionPayload}
    (hp : payload.tenantId = tenantId) (ttlSecs : Nat) :
    (SessionStore.set w sessionToken payload ttlSecs).Asks (TailRequest tenantId) := by
  subst hp
  unfold SessionStore.set
  cases w.sessionStore with
  | postgres => exact asks_execute (.session _ _ _ _ _ _)
  | redis =>
    refine (asks_redis .redisConnect).bind fun _ => ?_
    refine (asks_redis (.redisSession _ _ _ rfl)).bind fun _ => ?_
    refine (asks_redis (.redisIndex _ _)).bind fun _ => ?_
    exact (addDay_asks ttlSecs).bind fun _ => asks_redis (.redisExpire _ _)

theorem sessionTtl_tail : (sessionTtl w tenantId).Asks (TailRequest tenantId) := by
  refine (getTyped_tail w tenantId ⟨by decide, by decide⟩ _).bind fun policy => ?_
  cases policy.bind (·.absoluteTimeoutMins) with
  | none => trivial
  | some m =>
    simp only [mulU64]
    repeat' split
    all_goals trivial

theorem doCreateSession_tail (user : User) (ip userAgent : Option String) :
    (doCreateSession w tenantId user ip userAgent).Asks (TailRequest tenantId) := by
  refine (loadGrants_tail tenantId user.id).bind fun grants => ?_
  refine (sessionTtl_tail w tenantId).bind fun ttlSecs => ?_
  refine (nowPlusSeconds_asks .clock _).bind fun expiresAt => ?_
  refine Asks.bind (p := randomToken) ⟨.randomToken, fun _ => trivial⟩ fun sessionToken => ?_
  refine (setSession_tail w tenantId sessionToken rfl ttlSecs).bind fun _ => ?_
  have haudit : ∀ payload : SessionPayload, payload.tenantId = tenantId →
      (auditSession w sessionToken payload).Asks (TailRequest tenantId) := by
    rintro payload rfl
    unfold auditSession
    split
    · trivial
    · exact asks_execute (.session _ _ _ _ _ _)
  exact (haudit _ rfl).bind fun _ => trivial

/-- **The tail of a login asks for nothing outside its tenant.** -/
theorem finalizeLogin_tail (user : User) (identity : Identity) (ip userAgent : Option String) :
    (finalizeLogin w tenantId user identity ip userAgent).Asks (TailRequest tenantId) := by
  unfold finalizeLogin
  split
  · refine ⟨.randomToken, fun changeToken => ⟨.clock, fun now => ?_⟩⟩
    have hstore : (ForceChangeTokensRepo.create tenantId user.id changeToken
        (now + minutes FORCE_CHANGE_TOKEN_TTL_MINS)).Asks (TailRequest tenantId) :=
      (asks_execute (.dropChangeTokens _)).bind fun _ => asks_execute (.changeToken _ _ _)
    exact hstore.bind fun _ => trivial
  · split
    · refine ⟨.randomToken, fun mfaToken => ⟨.clock, fun now => ?_⟩⟩
      have hstore : (MfaRepo.createChallenge mfaToken tenantId user.id
          (now + minutes MFA_CHALLENGE_TTL_MINS)).Asks (TailRequest tenantId) :=
        (asks_execute .dropChallenges).bind fun _ => asks_execute (.challenge _ _ _)
      exact hstore.bind fun _ => trivial
    · exact doCreateSession_tail w tenantId user ip userAgent

/-! ### Sign-in with an identity provider -/

variable (provider : String) (profile : OauthProfile)

/-- A part of the tail, in a sign-in. -/
theorem asks_of_tail {α : Type} {p : Service α} (hp : p.Asks (TailRequest tenantId)) :
    p.Asks (SignInRequest tenantId provider profile) :=
  hp.mono fun _ => .tail

theorem checkOauthDomain_tail :
    (checkOauthDomain w tenantId profile.verifiedEmail).Asks (TailRequest tenantId) := by
  have hdomains : (TenantConfigLoader.getAllowedEmailDomains w tenantId).Asks
      (TailRequest tenantId) := getTyped_tail w tenantId ⟨by decide, by decide⟩ domainsFromValue
  cases profile.verifiedEmail with
  | some e => exact hdomains.bind fun _ => asks_ensure _ _
  | none => exact hdomains.bind fun _ => asks_ensure _ _

theorem createOauthIdentity_signIn (allowSignup : Bool) :
    (createOauthIdentity profile allowSignup).Asks (SignInRequest tenantId provider profile) := by
  have hcollision : (refuseUnverifiedCollision profile.unverifiedEmail).Asks
      (SignInRequest tenantId provider profile) := by
    cases he : profile.unverifiedEmail with
    | none => trivial
    | some e => exact (asks_query (.emailTaken e he)).bind fun _ => asks_ensure _ _
  exact hcollision.bind fun _ => (asks_ensure _ _).bind fun _ => asks_query .createIdentity

theorem identityToLink_signIn (allowSignup : Bool) :
    (identityToLink profile allowSignup).Asks (SignInRequest tenantId provider profile) := by
  have hexisting : (identityOfVerifiedEmail profile.verifiedEmail).Asks
      (SignInRequest tenantId provider profile) := by
    cases he : profile.verifiedEmail with
    | none => trivial
    | some e => exact asks_query (.identityByEmail e he)
  refine hexisting.bind fun existing => ?_
  cases existing with
  | some i => trivial
  | none => exact createOauthIdentity_signIn tenantId provider profile allowSignup

theorem resolveOauthIdentity_signIn (allowSignup : Bool) :
    (resolveOauthIdentity provider profile allowSignup).Asks
      (SignInRequest tenantId provider profile) := by
  refine (asks_query .linkedIdentity).bind fun linked => ?_
  cases linked with
  | some identityId => exact (asks_query (.identityById identityId)).bind fun _ => asks_okOr _ _
  | none =>
    refine (identityToLink_signIn tenantId provider profile allowSignup).bind fun identity => ?_
    exact (asks_execute (.link identity.id)).bind fun _ => trivial

theorem ensureMembership_signIn (identity : Identity) (allowSignup : Bool) :
    (ensureMembership identity tenantId allowSignup).Asks
      (SignInRequest tenantId provider profile) := by
  refine (asks_query (.membership identity.id)).bind fun membership => ?_
  cases membership with
  | some u => trivial
  | none =>
    cases allowSignup with
    | false => trivial
    | true =>
      refine Asks.bind (p := newUuid) ⟨.newUuid, fun _ => trivial⟩ fun id => ?_
      refine Asks.bind (p := utcNow) ⟨.tail .clock, fun _ => trivial⟩ fun now => ?_
      exact (asks_execute (.join id identity.id now)).bind fun _ => trivial

/-- **A sign-in asks for nothing outside its tenant**, and about no other account than its own. -/
theorem loginOauth_asks (allowSignup : Bool) (ip userAgent : Option String) :
    (loginOauth w tenantId provider profile allowSignup ip userAgent).Asks
      (SignInRequest tenantId provider profile) := by
  refine (asks_of_tail tenantId provider profile (checkOauthDomain_tail w tenantId profile)).bind
    fun _ => ?_
  refine (resolveOauthIdentity_signIn tenantId provider profile allowSignup).bind fun identity => ?_
  refine (asks_ensure _ _).bind fun _ => ?_
  refine (ensureMembership_signIn tenantId provider profile identity allowSignup).bind fun user => ?_
  refine (asks_of_tail tenantId provider profile (checkGates_tail tenantId user identity)).bind
    fun _ => ?_
  refine (asks_of_tail tenantId provider profile (effectiveLoginMethods_tail w tenantId user)).bind
    fun _ => (asks_ensure _ _).bind fun _ => ?_
  exact asks_of_tail tenantId provider profile
    (finalizeLogin_tail w tenantId user identity ip userAgent)

end AuthService

/-- **What a sign-in issues is for its tenant.** -/
theorem SignInRequest.issued_tenant {tenantId provider tenantId' : String} {profile : OauthProfile}
    {q : Request} {issue : Issue} {userId : Uuid} (hq : SignInRequest tenantId provider profile q)
    (h : issued q = some (issue, tenantId', userId)) : tenantId' = tenantId := by
  cases hq with
  | tail ht =>
    cases ht with
    | redisSession key payload ttlSecs hp =>
      cases h
      exact hp
    | _ => cases h <;> rfl
  | _ => cases h

end Authrs
