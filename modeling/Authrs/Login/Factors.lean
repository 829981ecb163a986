import Authrs.Login.Entries
import Authrs.Login.FlowCalls
import Authrs.Login.Grants
import Authrs.Routes.Calls
import Authrs.Routes.SignIn

/-!
# What a sign-in rests on

A call that hands out a credential has shown before whose it is: it has checked a first factor of the
identity itself, or it has been presented with a credential that somebody got before. The credential
it hands out is for a membership of that identity.

## Main definitions

* `Factor`: a first factor that a call has checked
* `Presents`: a credential that a call has been presented with
* `Belongs`: a membership is one of the identity, as far as a call has read
* `SignInStep`: a request that hands out a credential rests on one of the two

## Main results

* `SignInCall.run_shown`: every route hands out credentials on these grounds
-/

namespace Authrs

open Interaction Program

/-! ### Grounds -/

/-- The password that a call has been given. -/
def SignInCall.password : SignInCall → Option String
  | emailPassword _ _ password => some password
  | usernamePassword _ _ password => some password
  | _ => none

/-- The identity is linked to the provider's account: the call has read the link, or has stored it. -/
def LinkedTo (provider providerUserId : String) (id : Uuid) (h : List (Event authrs)) : Prop :=
  did (.oauth (.getLinkedIdentity provider providerUserId)) (some id) ∈ h ∨
    ∃ email n, did (.oauth (.link id provider providerUserId email)) n ∈ h

/-- **A first factor of an identity**, that a call has checked: its password, a code that was sent to
the address of a membership of it, or a provider's account that is linked to it. -/
inductive Factor (w : World) (h : List (Event authrs)) : SignInCall → Uuid → Prop
  | password {c : SignInCall} {password passwordHash : String} {id : Uuid} {i : Identity} :
    c.password = some password → did (.identities (.getById id)) (some i) ∈ h →
    i.passwordHash = some passwordHash → w.verifyPassword passwordHash password = .ok true →
    Factor w h c id
  | identityPassword {email password passwordHash : String} {i : Identity} :
    did (.identities (.getByEmail (trim email))) (some i) ∈ h →
    i.passwordHash = some passwordHash → w.verifyPassword passwordHash password = .ok true →
    Factor w h (.identityLogin email password) i.id
  | code {tenantId : TenantId} {identifier code channel : String} {otp : OtpRow} {user : User} :
    otpRead w tenantId.val identifier otp ∈ h →
    otp.attemptCount < MAX_OTP_ATTEMPTS → otp.code = trim code →
    did (.users (.getByEmailInsensitive tenantId.val (w.toLowercase (trim identifier))))
      (some user) ∈ h →
    Factor w h (.otpVerify tenantId identifier code channel) user.identityId
  | account {tenantId : Option TenantId} {provider code state idToken : String}
    {query : OauthCallbackQuery} {p : Provider} {pending : OauthState} {cfg : OauthConfig}
    {claims : IdTokenClaims} {profile : OauthProfile} {id : Uuid} :
    Provider.parse provider = .ok p → callbackParams query = .ok (code, state) →
    Proved w p code state pending cfg idToken claims h →
    OauthService.profileFromClaims w p claims = .ok profile →
    LinkedTo p.asStr profile.providerUserId id h →
    Factor w h (.oauthCallback tenantId provider query) id

/-- **A credential of an identity**, that a call has been presented with. -/
inductive Presents (h : List (Event authrs)) : SignInCall → Uuid → Prop
  | challenge {mfaToken code : String} {challenge : MfaChallenge} {user : User} :
    did (.challenges (.get (trim mfaToken))) (some challenge) ∈ h →
    did (.users (.getById challenge.tenantId challenge.userId)) (some user) ∈ h →
    Presents h (.mfaValidate mfaToken code) user.identityId
  | changeToken {changeToken newPassword retypePassword tenantId : String} {userId : Uuid}
    {user : User} :
    did (.tokens (.getForceChangeToken changeToken)) (some (tenantId, userId)) ∈ h →
    did (.users (.getById tenantId userId)) (some user) ∈ h →
    Presents h (.forceChange changeToken newPassword retypePassword) user.identityId
  | identityToken {authorization : Option String} {tenantId identityToken : String} {id : Uuid} :
    did (.tokens (.getIdentityToken identityToken)) (some id) ∈ h →
    Presents h (.selectTenant authorization tenantId) id
  | session {authorization : Option String} {tenantId sessionToken : String} {p : SessionPayload} :
    did (.sessions (.get sessionToken)) (some (some p)) ∈ h →
    Presents h (.switchTenant authorization tenantId) p.identityId
  | redisSession {authorization : Option String} {tenantId key : String} {p : SessionPayload} :
    (⟨.redis (.get key), .ok (some p)⟩ : Event authrs) ∈ h →
    Presents h (.switchTenant authorization tenantId) p.identityId

/-- A call has a ground for acting for an identity. -/
inductive Shown (w : World) (h : List (Event authrs)) (c : SignInCall) (id : Uuid) : Prop
  | factor : Factor w h c id → Shown w h c id
  | credential : Presents h c id → Shown w h c id

/-- **A membership is one of an identity**, as far as a call has read. -/
inductive Belongs (h : List (Event authrs)) (user : User) : Uuid → Prop
  | own : Belongs h user user.identityId
  | found {id : Uuid} {tenantId : String} :
    did (.users (.getMembership id tenantId)) (some user) ∈ h → Belongs h user id
  | loaded {id : Uuid} {i : Identity} :
    did (.identities (.getById id)) (some i) ∈ h → Belongs h user i.id → Belongs h user id

section Mono

variable {w : World} {h h' : List (Event authrs)} {c : SignInCall} {id : Uuid} {user : User}

theorem LinkedTo.mono {provider providerUserId : String} (hl : LinkedTo provider providerUserId id h)
    (hsub : h ⊆ h') : LinkedTo provider providerUserId id h' := by
  rcases hl with hread | ⟨email, n, hstored⟩
  · exact .inl (hsub hread)
  · exact .inr ⟨email, n, hsub hstored⟩

theorem Factor.mono (hf : Factor w h c id) (hsub : h ⊆ h') : Factor w h' c id := by
  cases hf with
  | password hc hread hhash hright => exact .password hc (hsub hread) hhash hright
  | identityPassword hread hhash hright => exact .identityPassword (hsub hread) hhash hright
  | code hotp hattempts hcode huser => exact .code (hsub hotp) hattempts hcode (hsub huser)
  | account hp hquery hproved hprofile hlinked =>
    exact .account hp hquery (hproved.mono hsub) hprofile (hlinked.mono hsub)

theorem Presents.mono (hp : Presents h c id) (hsub : h ⊆ h') : Presents h' c id := by
  cases hp with
  | challenge hc hu => exact .challenge (hsub hc) (hsub hu)
  | changeToken ht hu => exact .changeToken (hsub ht) (hsub hu)
  | identityToken ht => exact .identityToken (hsub ht)
  | session hs => exact .session (hsub hs)
  | redisSession hs => exact .redisSession (hsub hs)

theorem Shown.mono (hs : Shown w h c id) (hsub : h ⊆ h') : Shown w h' c id := by
  cases hs with
  | factor hf => exact .factor (hf.mono hsub)
  | credential hp => exact .credential (hp.mono hsub)

theorem Belongs.mono (hb : Belongs h user id) (hsub : h ⊆ h') : Belongs h' user id := by
  induction hb with
  | own => exact .own
  | found hread => exact .found (hsub hread)
  | loaded hread _ ih => exact .loaded (hsub hread) ih

end Mono

/-! ### Requests -/

/-- The identity for which a request stores an identity token. -/
def tokenFor : Request → Option Uuid
  | .sql (.tokens (.createIdentityToken identityId ..)) => some identityId
  | _ => none

/-- A request that hands out nothing. -/
structure Plain (q : Request) : Prop where
  unissued : issued q = none
  noToken : tokenFor q = none

/-- A request that hands out nothing but credentials of a membership. -/
structure ForMember (user : User) (q : Request) : Prop where
  member : ∀ k tenantId userId, issued q = some (k, tenantId, userId) → userId = user.id
  payload : ∀ p, presented q = some p → p.identityId = user.identityId
  noToken : tokenFor q = none

/-- **A request that hands out a credential** is for a membership that has been read, of an identity
that the call acts for. -/
structure SignInStep (w : World) (c : SignInCall) (h : List (Event authrs)) (e : Event authrs) :
    Prop where
  issue : ∀ k tenantId userId, issued e.request = some (k, tenantId, userId) →
    ∃ user id, user.id = userId ∧ user.toRow ∈ h.filterMap membershipOf ∧ Belongs h user id ∧
      Shown w h c id ∧ ∀ p, presented e.request = some p → p.identityId = user.identityId
  token : ∀ id, tokenFor e.request = some id → Shown w h c id

/-- The contract of a call. -/
abbrev SignInCall.contract (w : World) (c : SignInCall) : Contract authrs :=
  .ofGuarantee (SignInStep w c)

/-- A request that presents a session issues it. -/
theorem issued_of_presented {q : Request} {p : SessionPayload} (h : presented q = some p) :
    ∃ tenantId userId, issued q = some (.session, tenantId, userId) := by
  unfold presented at h
  split at h
  · exact ⟨_, _, rfl⟩
  · exact ⟨_, _, rfl⟩
  · cases h

theorem Plain.forMember {q : Request} (hq : Plain q) (user : User) : ForMember user q where
  member k tenantId userId hi := by
    rw [hq.unissued] at hi
    cases hi
  payload p hp := by
    obtain ⟨_, _, hi⟩ := issued_of_presented hp
    rw [hq.unissued] at hi
    cases hi
  noToken := hq.noToken

theorem plain_sql {x : Sql} (hi : issued (.sql x) = none) (ht : tokenFor (.sql x) = none) :
    Plain (.sql x) := ⟨hi, ht⟩

theorem plain_clock : Plain .clock := ⟨rfl, rfl⟩

theorem plain_kv (q : KvStmt) : Plain (.sql (.kv q)) := ⟨rfl, rfl⟩

theorem plain_identities (q : IdentityStmt) : Plain (.sql (.identities q)) := ⟨rfl, rfl⟩

theorem plain_users (q : MembershipStmt) : Plain (.sql (.users q)) := ⟨rfl, rfl⟩

theorem plain_oauth (q : OauthStmt) : Plain (.sql (.oauth q)) := ⟨rfl, rfl⟩

theorem plain_otps (q : OtpStmt) : Plain (.sql (.otps q)) := ⟨rfl, rfl⟩

theorem plain_of_looks {q : Request} (hq : looks q = true) : Plain q := by
  cases q with
  | sql x =>
    cases x with
    | kv => exact ⟨rfl, rfl⟩
    | _ => cases hq
  | _ => first | exact ⟨rfl, rfl⟩ | cases hq

section Steps

variable {w : World} {c : SignInCall} {h : List (Event authrs)} {user : User} {id : Uuid}

theorem signInStep_of_plain {e : Event authrs} (he : Plain e.request) : SignInStep w c h e where
  issue k tenantId userId hi := by
    rw [he.unissued] at hi
    cases hi
  token id hid := by
    rw [he.noToken] at hid
    cases hid

/-- A part that hands out nothing. -/
theorem keeps_plain {α : Type} {p : Service α} (hp : p.Asks Plain) :
    p.Keeps (c.contract w) (OnOk fun _ h' => h ⊆ h') h := by
  refine (hp.keeps_inv (M := fun h' => h ⊆ h') ?_ (List.Subset.refl h)).onOk
  intro h' e hsub he
  exact ⟨signInStep_of_plain he, List.subset_cons_of_subset e hsub⟩

theorem keeps_plain_query {q : Sql} (hq : Plain (.sql q)) :
    (query q).Keeps (c.contract w) (OnOk fun r h' => h' = did q r :: h) h :=
  keeps_query_ok fun _ he => signInStep_of_plain (he ▸ hq)

/-- **The rest of a call**, once it has its ground: it hands out credentials of one membership. -/
theorem keeps_forMember {α : Type} {p : Service α} (hp : p.Asks (ForMember user))
    (huser : user.toRow ∈ h.filterMap membershipOf) (hbelongs : Belongs h user id)
    (hshown : Shown w h c id) : p.Keeps (c.contract w) (OnOk fun _ _ => True) h := by
  refine (hp.keeps_inv (M := fun h' => h ⊆ h') ?_ (List.Subset.refl h)).onOk.weaken_ok
    fun _ _ _ _ => trivial
  intro h' e hsub he
  refine ⟨⟨?_, ?_⟩, List.subset_cons_of_subset e hsub⟩
  · intro k tenantId userId hi
    have huser' : user.toRow ∈ h'.filterMap membershipOf := by
      obtain ⟨e', he', hrow⟩ := List.mem_filterMap.mp huser
      exact List.mem_filterMap.mpr ⟨e', hsub he', hrow⟩
    exact ⟨user, id, (he.member k tenantId userId hi).symm, huser', hbelongs.mono hsub,
      hshown.mono hsub, he.payload⟩
  · intro id' hid
    rw [he.noToken] at hid
    cases hid

end Steps

/-! ### Parts of the calls -/

namespace AuthService

variable {w : World} {tenantId : String} {user : User} {identity : Identity}

theorem ensureEmailDomainAllowed_plain (tenantId email : String) :
    (ensureEmailDomainAllowed w tenantId email).Asks Plain := by
  have hget : (TenantConfigLoader.getAllowedEmailDomains w tenantId).Asks Plain :=
    ((asks_query (plain_kv _)).bind fun _ => asks_ofExcept _).bind fun _ => trivial
  exact hget.bind fun _ => asks_ensure _ _

theorem checkLock_plain (identity : Identity) : (checkLock identity).Asks Plain := by
  unfold checkLock
  cases identity.lockedUntil with
  | none => trivial
  | some l => exact ⟨plain_clock, fun t => asks_ensure _ _⟩

theorem checkAccess_plain (user : User) : (checkAccess user).Asks Plain := by
  unfold checkAccess
  cases user.accessValidUntil with
  | none => trivial
  | some v => exact ⟨plain_clock, fun t => asks_ensure _ _⟩

theorem checkGates_plain (user : User) (identity : Identity) :
    (checkGates user identity).Asks Plain :=
  (asks_ensure _ _).bind fun _ => (checkLock_plain identity).bind fun _ => checkAccess_plain user

theorem effectiveLoginMethods_plain (tenantId : String) (user : User) :
    (effectiveLoginMethods w tenantId user).Asks Plain := by
  have hget : (TenantConfigLoader.getLoginMethods w tenantId).Asks Plain :=
    ((asks_query (plain_kv _)).bind fun _ => asks_ofExcept _).bind fun _ => trivial
  exact hget.bind fun _ => trivial

theorem registerFailedAttempt_plain (identity : Identity) :
    (registerFailedAttempt w identity).Asks Plain :=
  registerFailedAttempt_asks plain_clock (fun _ _ => plain_identities _) identity

theorem loadIdentity_plain (identityId : Uuid) : (loadIdentity identityId).Asks Plain :=
  (asks_query (plain_identities _)).bind fun _ => asks_okOr _ _

/-! ### The tail -/

theorem loadGrants_forMember : (loadGrants tenantId user.id).Asks (ForMember user) := by
  -- Reaching the first lookup counts as issuing a session, for the member.
  have hfirst : ForMember user (.sql (.roles (.getUserRoles tenantId user.id))) :=
    ⟨fun _ _ _ hi => by cases hi; rfl, nofun, rfl⟩
  have hroles : ∀ q : RoleStmt, issued (.sql (.roles q)) = none →
      ForMember user (.sql (.roles q)) := fun q hq => Plain.forMember ⟨hq, rfl⟩ user
  have hgroups : ∀ q : GroupStmt, ForMember user (.sql (.groups q)) :=
    fun q => Plain.forMember ⟨rfl, rfl⟩ user
  unfold loadGrants
  refine (asks_unwrapOrDefault (asks_query hfirst)).bind fun _ => ?_
  refine (asks_unwrapOrDefault (asks_query (hroles _ rfl))).bind fun _ => ?_
  refine (asks_unwrapOrDefault (asks_query (hroles _ rfl))).bind fun _ => ?_
  refine (asks_unwrapOrDefault (asks_query (hgroups _))).bind fun _ => ?_
  refine (asks_unwrapOrDefault (asks_query (hgroups _))).bind fun _ => ?_
  refine (asks_unwrapOrDefault (asks_query (hgroups _))).bind fun _ => ?_
  refine (asks_unwrapOrDefault (asks_query (hgroups _))).bind fun _ => ?_
  exact (asks_unwrapOrDefault (asks_query (hgroups _))).bind fun _ => trivial

/-- A session of the member is stored, and recorded. -/
theorem storePayload_forMember {payload : SessionPayload} (huser : payload.userId = user.id)
    (hidentity : payload.identityId = user.identityId) (sessionToken : String) (ttlSecs : Nat) :
    (SessionStore.set w sessionToken payload ttlSecs).Asks (ForMember user) ∧
      (auditSession w sessionToken payload).Asks (ForMember user) := by
  have hinsert : (PostgresSessionStore.createAudit sessionToken payload.tenantId payload.userId
      payload.ip payload.userAgent payload.expiresAt payload).Asks (ForMember user) := by
    refine asks_execute ⟨fun _ _ _ hi => ?_, fun p hp => ?_, rfl⟩
    · cases hi
      exact huser
    · cases hp
      exact hidentity
  have hsetEx : ∀ key, ForMember user (.redis (.setEx key payload ttlSecs)) := by
    refine fun key => ⟨fun _ _ _ hi => ?_, fun p hp => ?_, rfl⟩
    · cases hi
      exact huser
    · cases hp
      exact hidentity
  have hredis : ∀ c, issued (.redis c) = none → ForMember user (.redis c) :=
    fun c hc => Plain.forMember ⟨hc, rfl⟩ user
  constructor
  · unfold SessionStore.set
    cases w.sessionStore with
    | postgres => exact hinsert
    | redis =>
      refine (asks_redis (hredis _ rfl)).bind fun _ => ?_
      refine (asks_redis (hsetEx _)).bind fun _ => ?_
      refine (asks_redis (hredis _ rfl)).bind fun _ => ?_
      exact (addDay_asks ttlSecs).bind fun _ => asks_redis (hredis _ rfl)
  · unfold auditSession
    split
    · trivial
    · exact hinsert

theorem doCreateSession_forMember (user : User) (ip userAgent : Option String) :
    (doCreateSession w tenantId user ip userAgent).Asks (ForMember user) := by
  refine loadGrants_forMember.bind fun grants => ?_
  refine (sessionTtl_asks fun q => (plain_kv q).forMember user).bind fun ttlSecs => ?_
  refine (nowPlusSeconds_asks (plain_clock.forMember user) _).bind fun expiresAt => ?_
  refine Asks.bind (p := randomToken) ⟨Plain.forMember ⟨rfl, rfl⟩ user, fun _ => trivial⟩
    fun sessionToken => ?_
  refine Asks.bind (storePayload_forMember rfl rfl sessionToken ttlSecs).1 fun _ => ?_
  exact Asks.bind (storePayload_forMember rfl rfl sessionToken ttlSecs).2 fun _ => trivial

/-- **The shared tail hands out credentials of the member.** -/
theorem finalizeLogin_forMember (user : User) (identity : Identity) (ip userAgent : Option String) :
    (finalizeLogin w tenantId user identity ip userAgent).Asks (ForMember user) := by
  have hdraw : ForMember user .randomToken := Plain.forMember ⟨rfl, rfl⟩ user
  unfold finalizeLogin
  split
  · -- A change token.
    refine ⟨hdraw, fun changeToken => ⟨plain_clock.forMember user, fun now => ?_⟩⟩
    have hstore : (ForceChangeTokensRepo.create tenantId user.id changeToken
        (now + minutes FORCE_CHANGE_TOKEN_TTL_MINS)).Asks (ForMember user) := by
      refine (asks_execute ((plain_sql rfl rfl).forMember user)).bind fun _ => asks_execute ?_
      exact ⟨fun _ _ _ hi => by cases hi; rfl, nofun, rfl⟩
    exact hstore.bind fun _ => trivial
  · split
    · -- A challenge.
      refine ⟨hdraw, fun mfaToken => ⟨plain_clock.forMember user, fun now => ?_⟩⟩
      have hstore : (MfaRepo.createChallenge mfaToken tenantId user.id
          (now + minutes MFA_CHALLENGE_TTL_MINS)).Asks (ForMember user) := by
        refine (asks_execute ((plain_sql rfl rfl).forMember user)).bind fun _ => asks_execute ?_
        exact ⟨fun _ _ _ hi => by cases hi; rfl, nofun, rfl⟩
      exact hstore.bind fun _ => trivial
    · exact doCreateSession_forMember user ip userAgent

/-! ### First factors -/

variable {c : SignInCall} {h : List (Event authrs)} {id : Uuid} {ip userAgent : Option String}

theorem loadIdentity_read (identityId : Uuid) :
    (loadIdentity identityId).Keeps (c.contract w)
      (OnOk fun i h' => h' = did (.identities (.getById identityId)) (some i) :: h) h := by
  refine (keeps_plain_query (plain_identities _)).bind_ok ?_
  rintro found h₁ - rfl
  refine (keeps_okOr_ok _ _).weaken_ok ?_
  rintro i h₂ - ⟨rfl, rfl⟩
  rfl

/-- The password is the right one. -/
theorem checkPassword_shown (identity : Identity) (password message : String) :
    (checkPassword w identity password message).Keeps (c.contract w)
      (OnOk fun _ h' => h ⊆ h' ∧ ∃ passwordHash, identity.passwordHash = some passwordHash ∧
        w.verifyPassword passwordHash password = .ok true) h := by
  refine (keeps_okOr_ok _ _).bind_ok ?_
  rintro passwordHash h₁ - ⟨hhash, rfl⟩
  refine (keeps_ofResult_ok _).bind_ok ?_
  rintro right h₂ - ⟨hright, rfl⟩
  cases right with
  | true =>
    refine ⟨List.Subset.refl _, passwordHash, hhash, ?_⟩
    cases hverify : w.verifyPassword passwordHash password with
    | error e => simp [hverify, Except.mapError] at hright
    | ok b => simpa [hverify, Except.mapError] using hright
  | false => exact (keeps_plain (registerFailedAttempt_plain identity)).bind_ok fun _ _ _ _ => trivial

/-- The tail, after the gates and whatever else hands out nothing. -/
theorem finalizeLogin_shown (huser : user.toRow ∈ h.filterMap membershipOf)
    (hbelongs : Belongs h user id) (hshown : Shown w h c id) :
    (finalizeLogin w tenantId user identity ip userAgent).Keeps (c.contract w)
      (OnOk fun _ _ => True) h :=
  keeps_forMember (finalizeLogin_forMember user identity ip userAgent) huser hbelongs hshown

theorem mem_membershipOf_mono {m : MembershipRow} {h h' : List (Event authrs)} (hsub : h ⊆ h')
    (hm : m ∈ h.filterMap membershipOf) : m ∈ h'.filterMap membershipOf := by
  obtain ⟨e, he, hrow⟩ := List.mem_filterMap.mp hm
  exact List.mem_filterMap.mpr ⟨e, hsub he, hrow⟩

theorem doPasswordLogin_shown {password : String} {method : Int} (hc : c.password = some password)
    (huser : user.toRow ∈ h.filterMap membershipOf) :
    (doPasswordLogin w tenantId user password ip userAgent method).Keeps (c.contract w)
      (OnOk fun _ _ => True) h := by
  refine (loadIdentity_read user.identityId).bind_ok ?_
  rintro identity h₁ hsub₁ rfl
  refine (keeps_plain (checkGates_plain user identity)).bind_ok ?_
  rintro - h₂ - hsub₂
  refine (keeps_plain (effectiveLoginMethods_plain tenantId user)).bind_ok ?_
  rintro effective h₃ - hsub₃
  refine (keeps_ensure_ok _ _).bind_ok ?_
  rintro - h₄ - ⟨-, rfl⟩
  refine (checkPassword_shown identity password _).bind_ok ?_
  rintro - h₅ - ⟨hsub₅, passwordHash, hhash, hright⟩
  refine (keeps_plain (asks_execute (plain_identities _))).bind_ok ?_
  rintro - h₆ - hsub₆
  have hsub : _ ⊆ h₆ := List.Subset.trans (List.Subset.trans hsub₂ hsub₃) (List.Subset.trans hsub₅ hsub₆)
  have huser₆ := mem_membershipOf_mono (List.Subset.trans hsub₁ hsub) huser
  refine finalizeLogin_shown huser₆ .own (.factor ?_)
  exact .password hc (hsub List.mem_cons_self) hhash hright

/-- A membership lookup that found a row. -/
theorem mem_membershipOf_read {q : MembershipStmt} {r : (Sql.users q).Rows} {m : MembershipRow}
    (hm : membershipOf (did (.users q) r) = some m) :
    m ∈ (did (.users q) r :: h).filterMap membershipOf :=
  List.mem_filterMap.mpr ⟨_, List.mem_cons_self, hm⟩

theorem loginEmailPassword_shown {password : String} (hc : c.password = some password)
    (email : String) :
    (loginEmailPassword w tenantId email password ip userAgent).Keeps (c.contract w)
      (OnOk fun _ _ => True) h := by
  refine (keeps_plain (ensureEmailDomainAllowed_plain tenantId email)).bind_ok ?_
  rintro - h₁ - -
  refine (keeps_plain_query (plain_users _)).bind_ok ?_
  rintro found h₂ - rfl
  refine (keeps_okOr_ok _ _).bind_ok ?_
  rintro user h₃ - ⟨rfl, rfl⟩
  exact doPasswordLogin_shown hc (mem_membershipOf_read rfl)

theorem loginUsernamePassword_shown {password : String} (hc : c.password = some password)
    (username : String) :
    (loginUsernamePassword w tenantId username password ip userAgent).Keeps (c.contract w)
      (OnOk fun _ _ => True) h := by
  refine (keeps_plain_query (plain_users _)).bind_ok ?_
  rintro found h₁ - rfl
  refine (keeps_okOr_ok _ _).bind_ok ?_
  rintro user h₂ - ⟨rfl, rfl⟩
  exact doPasswordLogin_shown hc (mem_membershipOf_read rfl)

/-- The tenant-less login: an identity token for the identity whose password is right. -/
theorem loginIdentity_shown (email password : String) :
    (loginIdentity w email password).Keeps ((SignInCall.identityLogin email password).contract w)
      (OnOk fun _ _ => True) h := by
  refine (keeps_plain_query (plain_identities _)).bind_ok ?_
  rintro found h₁ - rfl
  refine (keeps_okOr_ok _ _).bind_ok ?_
  rintro identity h₂ - ⟨rfl, rfl⟩
  refine (keeps_ensure_ok _ _).bind_ok ?_
  rintro - h₃ - ⟨-, rfl⟩
  refine (keeps_plain (checkLock_plain identity)).bind_ok ?_
  rintro - h₄ - hsub₄
  refine (checkPassword_shown identity password _).bind_ok ?_
  rintro - h₅ - ⟨hsub₅, passwordHash, hhash, hright⟩
  refine (keeps_plain (asks_execute (plain_identities _))).bind_ok ?_
  rintro - h₆ - hsub₆
  refine (keeps_plain (p := randomToken) ⟨⟨rfl, rfl⟩, fun _ => trivial⟩).bind_ok ?_
  rintro identityToken h₇ - hsub₇
  refine (keeps_plain (p := utcNow) ⟨plain_clock, fun _ => trivial⟩).bind_ok ?_
  rintro now h₈ - hsub₈
  have hsub₅₈ : h₅ ⊆ h₈ := List.Subset.trans hsub₆ (List.Subset.trans hsub₇ hsub₈)
  have hsub : _ ⊆ h₈ := List.Subset.trans (List.Subset.trans hsub₄ hsub₅) hsub₅₈
  have hstore : (IdentityTokensRepo.create identity.id identityToken
      (now + minutes IDENTITY_TOKEN_TTL_MINS)).Keeps
        ((SignInCall.identityLogin email password).contract w) (OnOk fun _ _ => True) h₈ := by
    refine (keeps_execute_ok fun e he => ?_).weaken_ok fun _ _ _ _ => trivial
    refine ⟨fun _ _ _ hi => ?_, fun id hid => ?_⟩
    · rw [he] at hi
      cases hi
    · rw [he] at hid
      cases hid
      exact .factor (.identityPassword (hsub List.mem_cons_self) hhash hright)
  refine hstore.bind_ok ?_
  rintro - h₉ - -
  have htenants : (tenantsForIdentity identity.id).Asks Plain :=
    (asks_query (plain_users _)).bind fun _ => trivial
  exact (keeps_plain htenants).bind_ok fun _ _ _ _ => trivial

/-- A login with a verified code, once the code has been compared. -/
theorem loginWithVerifiedOtp_shown {email : String}
    (hshown : ∀ user h', h ⊆ h' →
      did (.users (.getByEmailInsensitive tenantId email)) (some user) ∈ h' →
        Shown w h' c user.identityId) :
    (loginWithVerifiedOtp w tenantId email ip userAgent).Keeps (c.contract w)
      (OnOk fun _ _ => True) h := by
  refine (keeps_plain_query (plain_users _)).bind_ok ?_
  rintro found h₁ hsub₁ rfl
  refine (keeps_okOr_ok _ _).bind_ok ?_
  rintro user h₂ - ⟨rfl, rfl⟩
  refine (keeps_plain (loadIdentity_plain user.identityId)).bind_ok ?_
  rintro identity h₃ - hsub₃
  refine (keeps_plain (checkGates_plain user identity)).bind_ok ?_
  rintro - h₄ - hsub₄
  refine (keeps_plain (effectiveLoginMethods_plain tenantId user)).bind_ok ?_
  rintro effective h₅ - hsub₅
  refine (keeps_ensure_ok _ _).bind_ok ?_
  rintro - h₆ - ⟨-, rfl⟩
  have hsub := List.Subset.trans (List.Subset.trans hsub₃ hsub₄) hsub₅
  refine finalizeLogin_shown (mem_membershipOf_mono hsub (mem_membershipOf_read rfl)) .own ?_
  exact hshown user _ (List.Subset.trans hsub₁ hsub) (hsub List.mem_cons_self)

/-! ### Sign-in with an identity provider -/

/-- The identity of a provider's account is linked to it, and is the one that is returned. -/
theorem resolveOauthIdentity_shown (provider : String) (profile : OauthProfile) (allowSignup : Bool) :
    (resolveOauthIdentity provider profile allowSignup).Keeps (c.contract w)
      (OnOk fun identity h' => ∃ id, LinkedTo provider profile.providerUserId id h' ∧
        (id = identity.id ∨ did (.identities (.getById id)) (some identity) ∈ h')) h := by
  refine (keeps_plain_query (plain_oauth _)).bind_ok ?_
  rintro linked h₁ - rfl
  cases linked with
  | some identityId =>
    refine (loadIdentity_read identityId).weaken_ok ?_
    rintro identity h₂ - rfl
    exact ⟨identityId, .inl (List.mem_cons_of_mem _ List.mem_cons_self), .inr List.mem_cons_self⟩
  | none =>
    have hexisting : (identityOfVerifiedEmail profile.verifiedEmail).Asks Plain := by
      cases profile.verifiedEmail with
      | none => trivial
      | some e => exact asks_query (plain_identities _)
    have hcreate : (createOauthIdentity profile allowSignup).Asks Plain := by
      have hcollision : (refuseUnverifiedCollision profile.unverifiedEmail).Asks Plain := by
        cases profile.unverifiedEmail with
        | none => trivial
        | some e => exact (asks_query (plain_identities _)).bind fun taken => asks_ensure _ _
      refine hcollision.bind fun _ => (asks_ensure _ _).bind fun _ => ?_
      exact asks_query (plain_identities _)
    have hidentity : (identityToLink profile allowSignup).Asks Plain := by
      refine hexisting.bind fun existing => ?_
      cases existing with
      | some i => trivial
      | none => exact hcreate
    refine (keeps_plain hidentity).bind_ok ?_
    rintro identity h₂ - -
    refine Keeps.bind_ok (N := fun _ h' => ∃ n, h' = did (.oauth (.link identity.id provider
      profile.providerUserId profile.email)) n :: h₂) ?_ ?_
    · exact keeps_execute_ok fun e he => signInStep_of_plain (he ▸ plain_oauth _)
    · rintro - h₃ - ⟨n, rfl⟩
      exact ⟨identity.id, .inr ⟨_, n, List.mem_cons_self⟩, .inl rfl⟩

/-- The membership in the tenant is one of the identity, found or created. -/
theorem ensureMembership_shown (identity : Identity) (tenantId : String) (allowSignup : Bool) :
    (ensureMembership identity tenantId allowSignup).Keeps (c.contract w)
      (OnOk fun user h' => h ⊆ h' ∧ user.toRow ∈ h'.filterMap membershipOf ∧
        Belongs h' user identity.id) h := by
  refine (keeps_plain_query (plain_users _)).bind_ok ?_
  rintro membership h₁ hsub₁ rfl
  cases membership with
  | some u => exact ⟨hsub₁, mem_membershipOf_read rfl, .found List.mem_cons_self⟩
  | none =>
    cases allowSignup with
    | false => trivial
    | true =>
      refine (keeps_newUuid_ok fun e he => signInStep_of_plain (he ▸ ⟨rfl, rfl⟩)).bind_ok ?_
      rintro id h₂ hsub₂ rfl
      refine (keeps_utcNow_ok fun e he => signInStep_of_plain (he ▸ plain_clock)).bind_ok ?_
      rintro now h₃ hsub₃ rfl
      refine (keeps_execute_ok fun e he => signInStep_of_plain (he ▸ plain_users _)).bind_ok ?_
      rintro - h₄ hsub₄ ⟨n, rfl⟩
      refine ⟨List.Subset.trans hsub₁ (List.Subset.trans hsub₂ (List.Subset.trans hsub₃ hsub₄)), ?_, .own⟩
      exact List.mem_filterMap.mpr ⟨_, List.mem_cons_self, rfl⟩

theorem loginOauth_shown {provider : String} {profile : OauthProfile} {allowSignup : Bool}
    (hshown : ∀ id h', h ⊆ h' → LinkedTo provider profile.providerUserId id h' → Shown w h' c id) :
    (loginOauth w tenantId provider profile allowSignup ip userAgent).Keeps (c.contract w)
      (OnOk fun _ _ => True) h := by
  have hdomain : (checkOauthDomain w tenantId profile.verifiedEmail).Asks Plain := by
    cases profile.verifiedEmail with
    | some e => exact ensureEmailDomainAllowed_plain tenantId e
    | none =>
      have hget : (TenantConfigLoader.getAllowedEmailDomains w tenantId).Asks Plain :=
        ((asks_query (plain_kv _)).bind fun _ => asks_ofExcept _).bind fun _ => trivial
      exact hget.bind fun _ => asks_ensure _ _
  refine (keeps_plain hdomain).bind_ok ?_
  rintro - h₁ - hsub₁
  refine (resolveOauthIdentity_shown provider profile allowSignup).bind_ok ?_
  rintro identity h₂ hsub₂ ⟨id, hlinked, hsame⟩
  refine (keeps_ensure_ok _ _).bind_ok ?_
  rintro - h₃ - ⟨-, rfl⟩
  refine (ensureMembership_shown identity tenantId allowSignup).bind_ok ?_
  rintro user h₄ - ⟨hsub₄, huser, hbelongs⟩
  refine (keeps_plain (checkGates_plain user identity)).bind_ok ?_
  rintro - h₅ - hsub₅
  refine (keeps_plain (effectiveLoginMethods_plain tenantId user)).bind_ok ?_
  rintro effective h₆ - hsub₆
  refine (keeps_ensure_ok _ _).bind_ok ?_
  rintro - h₇ - ⟨-, rfl⟩
  have hsub : h₄ ⊆ _ := List.Subset.trans hsub₅ hsub₆
  have hsub' := List.Subset.trans hsub₄ hsub
  have hrow := mem_membershipOf_mono hsub huser
  have hground := hshown id _ (List.Subset.trans hsub₁ (List.Subset.trans hsub₂ hsub'))
    (hlinked.mono hsub')
  rcases hsame with rfl | hloaded
  · exact finalizeLogin_shown hrow (hbelongs.mono hsub) hground
  · exact finalizeLogin_shown hrow (.loaded (hsub' hloaded) (hbelongs.mono hsub)) hground

/-! ### Credentials that are presented -/

theorem completeMfaLogin_shown (mfaToken code : String) :
    (completeMfaLogin w (trim mfaToken) code ip userAgent).Keeps
      ((SignInCall.mfaValidate mfaToken code).contract w) (OnOk fun _ _ => True) h := by
  refine (keeps_plain_query ⟨rfl, rfl⟩).bind_ok ?_
  rintro found h₁ - rfl
  refine (keeps_okOr_ok _ _).bind_ok ?_
  rintro challenge h₂ - ⟨rfl, rfl⟩
  -- A challenge with too many attempts ends the call; nothing is issued up to the session.
  have hrefuse : (refuseExhausted (trim mfaToken) challenge).Asks Plain := by
    unfold refuseExhausted
    split
    · have hdelete : (MfaRepo.deleteChallenge (trim mfaToken)).Asks Plain :=
        (asks_query ⟨rfl, rfl⟩).bind fun _ => trivial
      exact hdelete.bind fun _ => trivial
    · trivial
  refine (keeps_plain hrefuse).bind_ok ?_
  rintro - h₃ - hsub₃
  refine (keeps_plain_query (plain_users _)).bind_ok ?_
  rintro found h₄ hsub₄ rfl
  refine (keeps_okOr_ok _ _).bind_ok ?_
  rintro user h₅ - ⟨rfl, rfl⟩
  refine (keeps_plain (loadIdentity_plain user.identityId)).bind_ok ?_
  rintro identity h₆ - hsub₆
  refine (keeps_plain (checkGates_plain user identity)).bind_ok ?_
  rintro - h₇ - hsub₇
  have hcheck : (checkSecondFactor w (trim mfaToken) identity code).Asks Plain := by
    have hverify : (MfaService.verify w identity code).Asks Plain :=
      verify_asks plain_clock (fun _ _ => plain_identities _) (fun _ _ => plain_identities _)
        identity code
    refine hverify.bind fun valid => ?_
    cases valid with
    | true => trivial
    | false =>
      refine (asks_execute ⟨rfl, rfl⟩).bind fun _ => ?_
      exact (registerFailedAttempt_plain identity).bind fun _ => trivial
  refine (keeps_plain hcheck).bind_ok ?_
  rintro - h₈ - hsub₈
  have hdelete : (MfaRepo.deleteChallenge (trim mfaToken)).Asks Plain :=
    (asks_query ⟨rfl, rfl⟩).bind fun _ => trivial
  refine (keeps_plain hdelete).bind_ok ?_
  rintro redeemed h₉ - hsub₉
  refine (keeps_ensure_ok _ _).bind_ok ?_
  rintro - h₁₀ - ⟨-, rfl⟩
  refine (keeps_plain (asks_execute (plain_identities _))).bind_ok ?_
  rintro - h₁₁ - hsub₁₁
  -- The challenge was read for the membership that the session is stored for.
  have hsub : _ ⊆ h₁₁ := List.Subset.trans (List.Subset.trans hsub₆ hsub₇)
    (List.Subset.trans hsub₈ (List.Subset.trans hsub₉ hsub₁₁))
  refine keeps_forMember (doCreateSession_forMember user ip userAgent)
    (mem_membershipOf_mono hsub (mem_membershipOf_read rfl)) .own (.credential ?_)
  refine .challenge ?_ (hsub List.mem_cons_self)
  exact hsub (hsub₄ (hsub₃ List.mem_cons_self))

theorem forceChangePassword_shown (changeToken newPassword retypePassword : String) :
    (forceChangePassword w changeToken newPassword retypePassword ip userAgent).Keeps
      ((SignInCall.forceChange changeToken newPassword retypePassword).contract w)
      (OnOk fun _ _ => True) h := by
  refine (keeps_plain_query ⟨rfl, rfl⟩).bind_ok ?_
  rintro found h₁ - rfl
  refine (keeps_okOr_ok _ _).bind_ok ?_
  rintro ⟨tenantId, userId⟩ h₂ - ⟨rfl, rfl⟩
  refine (keeps_ensure_ok _ _).bind_ok ?_
  rintro - h₃ - ⟨-, rfl⟩
  have hpolicy : (validatePassword w tenantId newPassword).Asks Plain := by
    have hget : (TenantConfigLoader.getPasswordPolicy w tenantId).Asks Plain :=
      ((asks_query (plain_kv _)).bind fun _ => asks_ofExcept _).bind fun _ => trivial
    refine hget.bind fun policy => ?_
    cases passwordPolicyError w newPassword policy <;> trivial
  refine (keeps_plain hpolicy).bind_ok ?_
  rintro - h₄ - hsub₄
  refine (keeps_plain_query (plain_users _)).bind_ok ?_
  rintro found h₅ hsub₅ rfl
  refine (keeps_okOr_ok _ _).bind_ok ?_
  rintro user h₆ - ⟨rfl, rfl⟩
  refine (keeps_plain (checkAccess_plain user)).bind_ok ?_
  rintro - h₇ - hsub₇
  have hhash : (hashPassword newPassword).Asks Plain :=
    ⟨⟨rfl, rfl⟩, fun r => by cases r <;> trivial⟩
  refine (keeps_plain hhash).bind_ok ?_
  rintro passwordHash h₈ - hsub₈
  refine (keeps_plain (asks_execute (plain_identities _))).bind_ok ?_
  rintro - h₉ - hsub₉
  refine (keeps_plain (asks_execute ⟨rfl, rfl⟩)).bind_ok ?_
  rintro - h₁₀ - hsub₁₀
  refine (keeps_plain (loadIdentity_plain user.identityId)).bind_ok ?_
  rintro identity h₁₁ - hsub₁₁
  have hsub : _ ⊆ h₁₁ := List.Subset.trans (List.Subset.trans hsub₇ hsub₈)
    (List.Subset.trans hsub₉ (List.Subset.trans hsub₁₀ hsub₁₁))
  refine finalizeLogin_shown (mem_membershipOf_mono hsub (mem_membershipOf_read rfl)) .own
    (.credential ?_)
  refine .changeToken ?_ (hsub List.mem_cons_self)
  exact hsub (hsub₅ (hsub₄ List.mem_cons_self))

theorem selectTenant_shown {identityId : Uuid} {tenantId : String} (hshown : Shown w h c identityId) :
    (selectTenant w identityId tenantId ip userAgent).Keeps (c.contract w) (OnOk fun _ _ => True)
      h := by
  refine (keeps_plain_query (plain_users _)).bind_ok ?_
  rintro found h₁ hsub₁ rfl
  refine (keeps_okOr_ok _ _).bind_ok ?_
  rintro user h₂ - ⟨rfl, rfl⟩
  refine (keeps_plain (loadIdentity_plain identityId)).bind_ok ?_
  rintro identity h₃ - hsub₃
  refine (keeps_plain (checkGates_plain user identity)).bind_ok ?_
  rintro - h₄ - hsub₄
  have hsub := List.Subset.trans hsub₃ hsub₄
  refine finalizeLogin_shown (mem_membershipOf_mono hsub (mem_membershipOf_read rfl))
    (.found (hsub List.mem_cons_self)) ?_
  exact hshown.mono (List.Subset.trans hsub₁ hsub)

end AuthService

/-! ### The routes -/

section Routes

variable {w : World}

theorem otpVerify_shown (tenantId : TenantId) (identifier code channel : String) :
    (otpVerify w tenantId.val identifier code channel).Keeps
      ((SignInCall.otpVerify tenantId identifier code channel).contract w) (OnOk fun _ _ => True)
      [] := by
  refine (keeps_ensure_ok _ _).bind_ok ?_
  rintro - h₁ - ⟨-, rfl⟩
  refine (keeps_ensure_ok _ _).bind_ok ?_
  rintro - h₂ - ⟨-, rfl⟩
  refine (OtpRepo.keeps_run_ok fun e he => signInStep_of_plain (he ▸ plain_otps _)).bind_ok ?_
  rintro found h₃ - rfl
  refine (keeps_okOr_ok _ _).bind_ok ?_
  rintro otp h₄ - ⟨rfl, rfl⟩
  have hrun : ∀ q h, ((OtpRepo.run q).bind fun _ => (Program.pure () : Service Unit)).Keeps
      ((SignInCall.otpVerify tenantId identifier code channel).contract w) (OnOk fun _ _ => True) h :=
    fun q h => (OtpRepo.keeps_run_ok fun e he => signInStep_of_plain (he ▸ plain_otps _)).bind_ok
      fun _ _ _ _ => trivial
  have hcheck : (checkOtp otp (trim code)).Keeps
      ((SignInCall.otpVerify tenantId identifier code channel).contract w)
      (OnOk fun _ h' => h' = [otpRead w tenantId.val identifier otp] ∧
        otp.attemptCount < MAX_OTP_ATTEMPTS ∧ otp.code = trim code)
      [otpRead w tenantId.val identifier otp] := by
    refine (keeps_ensure_ok _ _).bind_ok ?_
    rintro - h₅ - ⟨hattempts, rfl⟩
    split
    · refine (hrun (.incrementAttempts otp.id) _).bind_ok ?_
      rintro - h₆ - -
      trivial
    · rename_i hcode
      exact ⟨rfl, hattempts, not_not.mp hcode⟩
  refine hcheck.bind_ok ?_
  rintro - h₅ - ⟨rfl, hattempts, hcode⟩
  refine Keeps.bind_ok (N := fun _ _ => True) ?_ ?_
  · refine AuthService.loginWithVerifiedOtp_shown fun user h' hsub huser => .factor ?_
    exact .code (hsub List.mem_cons_self) hattempts hcode huser
  · rintro result h₆ - -
    exact (hrun (.delete otp.id) _).bind_ok fun _ _ _ _ => trivial

/-- A bearer token comes from the header. -/
theorem bearerToken_plain (authorization : Option String) : (bearerToken authorization).Asks Plain :=
  (asks_okOr _ _).bind fun _ => asks_okOr _ _

theorem selectTenant_shown (authorization : Option String) (tenantId : String) :
    (Routes.selectTenant w authorization tenantId).Keeps
      ((SignInCall.selectTenant authorization tenantId).contract w) (OnOk fun _ _ => True) [] := by
  refine (keeps_plain (bearerToken_plain authorization)).bind_ok ?_
  rintro identityToken h₁ - -
  refine (keeps_plain_query ⟨rfl, rfl⟩).bind_ok ?_
  rintro found h₂ - rfl
  refine (keeps_okOr_ok _ _).bind_ok ?_
  rintro identityId h₃ - ⟨rfl, rfl⟩
  exact AuthService.selectTenant_shown (.credential (.identityToken List.mem_cons_self))

theorem switchTenant_shown (authorization : Option String) (tenantId : String) :
    (Routes.switchTenant w authorization tenantId).Keeps
      ((SignInCall.switchTenant authorization tenantId).contract w) (OnOk fun _ _ => True) [] := by
  have hget : ∀ sessionToken h, (SessionStore.get w sessionToken).Keeps
      ((SignInCall.switchTenant authorization tenantId).contract w) (OnOk fun found h' =>
        ∀ p, found = some p → Presents h' (.switchTenant authorization tenantId) p.identityId) h := by
    intro sessionToken h
    unfold SessionStore.get
    cases w.sessionStore with
    | postgres =>
      refine (keeps_plain_query ⟨rfl, rfl⟩).bind_ok ?_
      rintro row h₁ - rfl
      rintro p hp
      obtain rfl : row = some (some p) := Option.join_eq_some_iff.mp hp
      exact .session List.mem_cons_self
    | redis =>
      refine (keeps_plain (asks_redis ⟨rfl, rfl⟩)).bind_ok ?_
      rintro - h₁ - -
      refine Keeps.weaken_ok (N := fun found h' =>
        h' = ⟨.redis (.get (RedisSessionStore.key sessionToken)), .ok found⟩ :: h₁) ?_ ?_
      · refine fun r _ => ⟨signInStep_of_plain ⟨rfl, rfl⟩, ?_⟩
        cases r with
        | error e => trivial
        | ok found => rfl
      · rintro found h₂ - rfl
        rintro p rfl
        exact .redisSession List.mem_cons_self
  have hbearer : (bearerSession w authorization).Keeps
      ((SignInCall.switchTenant authorization tenantId).contract w) (OnOk fun payload h' =>
        Presents h' (.switchTenant authorization tenantId) payload.identityId) [] := by
    refine (keeps_plain (bearerToken_plain authorization)).bind_ok ?_
    rintro sessionToken h₁ - -
    refine (hget sessionToken h₁).bind_ok ?_
    rintro found h₂ - hfound
    refine (keeps_okOr_ok _ _).weaken_ok ?_
    rintro payload h₃ - ⟨hpayload, rfl⟩
    exact hfound payload hpayload
  refine hbearer.bind_ok ?_
  rintro payload h₁ - hpresents
  exact AuthService.selectTenant_shown (.credential hpresents)

/-- **Every route hands out credentials on these grounds.** -/
theorem SignInCall.run_shown (w : World) (c : SignInCall) :
    (c.run w).Keeps (c.contract w) (fun _ _ => True) [] := by
  suffices hok : (c.run w).Keeps (c.contract w) (OnOk fun _ _ => True) [] from
    hok.weaken fun _ _ _ => trivial
  cases c with
  | emailPassword tenantId email password =>
    exact (AuthService.loginEmailPassword_shown rfl email).bind_ok fun _ _ _ _ => trivial
  | usernamePassword tenantId username password =>
    exact (AuthService.loginUsernamePassword_shown rfl username).bind_ok fun _ _ _ _ => trivial
  | otpVerify tenantId identifier code channel =>
    exact (otpVerify_shown tenantId identifier code channel).bind_ok fun _ _ _ _ => trivial
  | oauthCallback tenantId provider query =>
    refine Keeps.bind_ok (oauthCallback_shown (fun _ _ hq => signInStep_of_plain (plain_of_looks hq))
      (fun _ _ _ _ he => signInStep_of_plain (he ▸ plain_oauth _))
      (fun _ _ _ _ _ _ _ _ _ _ he => signInStep_of_plain (he ▸ ⟨rfl, rfl⟩)) tenantId ?_)
      fun _ _ _ _ => trivial
    rintro p code state pending cfg idToken claims profile allowSignup h hp hquery hproved hprofile -
    refine AuthService.loginOauth_shown fun id h' hsub hlinked => .factor ?_
    exact .account hp hquery (hproved.mono hsub) hprofile hlinked
  | identityLogin email password =>
    exact (AuthService.loginIdentity_shown email password).bind_ok fun _ _ _ _ => trivial
  | mfaValidate mfaToken code =>
    exact (AuthService.completeMfaLogin_shown mfaToken code).bind_ok fun _ _ _ _ => trivial
  | forceChange changeToken newPassword retypePassword =>
    refine Keeps.bind_ok (N := fun _ _ => True) ?_ fun _ _ _ _ => trivial
    refine (AuthService.forceChangePassword_shown changeToken newPassword retypePassword).bind_ok ?_
    rintro result h₁ - -
    cases result <;> trivial
  | selectTenant authorization tenantId =>
    exact (selectTenant_shown authorization tenantId).bind_ok fun _ _ _ _ => trivial
  | switchTenant authorization tenantId =>
    exact (switchTenant_shown authorization tenantId).bind_ok fun _ _ _ _ => trivial

end Routes

end Authrs
