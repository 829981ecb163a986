import Authrs.Interaction.Serial
import Authrs.Login.Clients
import Authrs.Login.Footprint

/-!
# Login methods that a tenant excludes

A tenant can list the login methods it allows. The tenant-scoped logins read the list and refuse
any other method. The tenant-less login verifies an email and a password, and the selection of a
tenant that follows it does not read the list; so a tenant that excludes passwords is left by the
selections that would succeed. The calls of a run share the loader's cache, which agrees with the stored
configuration as long as nothing else changes that.

## Main definitions

* `PublicLogin`, `PublicLogin.firstFactor`: the public logins and the kind of their first factor
* `Excludes`: a tenant's configured list excludes a method
* `IssuesNothing`: a call issues nothing for a tenant
* `SelectPasses`: a tenant selection gets as far as the shared tail
* `PublicStep`, `PublicStep.KeepsConfig`: the steps of a run over the cache, and those that leave it in
  agreement with the table

## Main results

* `PublicLogin.upheld_of_method`: a login that asks for its method respects the list
* `selectTenant_issuesNothing_iff`: the tenant selections that issue something
* `PublicStep.methodUpheld_iff`: the calls over a cache that agrees with the table that respect the list
* `run_methodUpheld_iff`: the runs that respect the list
* `select_bypasses_methods`: a password login to a tenant that allows one-time codes only
-/

namespace Authrs

open Interaction Program

/-- A public login. -/
inductive PublicLogin
  | emailPassword (tenantId email password : String)
  | usernamePassword (tenantId username password : String)
  | verifiedOtp (tenantId email : String)
  | oauth (tenantId provider : String) (profile : OauthProfile) (allowSignup : Bool)
  | identityLogin (email password : String)
  | selectTenant (identityToken tenantId : String)

namespace PublicLogin

/-- The kind of the first factor behind a login. An identity token stands for the email and the
password of the identity login that created it. -/
def firstFactor : PublicLogin → Int
  | emailPassword .. => LOGIN_METHOD_EMAIL_PASSWORD
  | usernamePassword .. => LOGIN_METHOD_USERNAME_PASSWORD
  | verifiedOtp .. => LOGIN_METHOD_EMAIL_OTP
  | oauth .. => LOGIN_METHOD_OAUTH
  | identityLogin .. => LOGIN_METHOD_EMAIL_PASSWORD
  | selectTenant .. => LOGIN_METHOD_EMAIL_PASSWORD

/-- The call behind a login, from an address with a user agent. -/
def toClient (ip userAgent : Option String) : PublicLogin → ClientCall
  | emailPassword tenantId email password =>
    .login ip userAgent (.emailPassword tenantId email password)
  | usernamePassword tenantId username password =>
    .login ip userAgent (.usernamePassword tenantId username password)
  | verifiedOtp tenantId email => .login ip userAgent (.verifiedOtp tenantId email)
  | oauth tenantId provider profile allowSignup =>
    .login ip userAgent (.oauth tenantId provider profile allowSignup)
  | identityLogin email password => .identityLogin email password
  | selectTenant identityToken tenantId =>
    .login ip userAgent (.selectTenantWithToken identityToken tenantId)

end PublicLogin

/-- The tenant's configured list of login methods excludes a method. -/
def Excludes (w : World) (db : Db) (tenantId : String) (method : Int) : Prop :=
  ∃ j methods, db.config w tenantId "login_methods" "allowed" = .ok (some j) ∧
    loginMethodsFromValue j = some methods ∧ method ∉ methods

/-- **A call issues nothing for a tenant**: no session, no challenge and no change token. -/
def IssuesNothing (w : World) (tenantId : String) (s : State) (c : ClientCall) : Prop :=
  ∀ x ∈ (c.run w).trace (handle w) s,
    ∀ k userId, issued x.1.request ≠ some (k, tenantId, userId)

/-! ### What a call reads of the configuration -/

section Config

variable {w : World} {s : State}

/-- A program run alone reads the configuration as it was at the start. -/
theorem trace_config {α : Type} (p : Service α) (s : State) :
    AllAlong (fun h _ _ => ∀ tenantId groupKey key row,
      did (.kv (.get tenantId groupKey key)) row ∈ h → row = s.db.kv tenantId groupKey key)
      [] (p.trace (handle w) s) := by
  have hinv := Program.allAlong_invariant (handle w) (p := p) (h := []) (s := s)
    (J := fun h s' => s'.db.kvStore = s.db.kvStore ∧ ∀ tenantId groupKey key row,
      did (.kv (.get tenantId groupKey key)) row ∈ h → row = s.db.kv tenantId groupKey key) ?_ ?_
  · exact hinv.imp fun _ _ _ hJ => hJ.2
  · rintro h s' q ⟨hkv, hread⟩
    refine ⟨(handle_kvStore w s' q).trans hkv, fun tenantId groupKey key row hrow => ?_⟩
    rcases List.mem_cons.mp hrow with he | hrow
    · cases he
      exact congrArg (fun t => ({ s'.db with kvStore := t } : Db).kv tenantId groupKey key) hkv
    · exact hread _ _ _ _ hrow
  · exact ⟨rfl, fun _ _ _ _ hrow => absurd hrow List.not_mem_nil⟩

/-- A method that was found allowed is not excluded. -/
theorem MethodAllowed.not_excludes {tenantId : String} {method : Int} {h : List (Event authrs)}
    (hm : MethodAllowed w tenantId method h)
    (hread : ∀ tenantId groupKey key row,
      did (.kv (.get tenantId groupKey key)) row ∈ h → row = s.db.kv tenantId groupKey key) :
    ¬ Excludes w s.db tenantId method := by
  rintro ⟨j, methods, hj, hmethods, hnot⟩
  obtain ⟨row, j', hrow, hj', hmem⟩ := hm
  obtain rfl := hread _ _ _ _ hrow
  have hjj : some j = j' := Except.ok.inj (hj.symm.trans hj')
  subst hjj
  rw [Option.bind_some, hmethods] at hmem
  exact hnot hmem

end Config

namespace PublicLogin

variable {w : World} {ip userAgent : Option String} {s : State} {tenantId : String} {m : Int}

/-- **A login that asks for its method respects the list.** -/
theorem upheld_of_method {c : LoginCall} (hc : c.method = some m)
    (hbasis : ∀ k i h row, Basis w k tenantId row i h c →
      ∀ method ∈ c.method, MethodAllowed w tenantId method h)
    (hex : Excludes w s.db tenantId m) :
    IssuesNothing w tenantId s (.login ip userAgent c) := by
  have hv := ((ClientCall.login ip userAgent c).run_keeps w).along (handle w) (fun _ _ => trivial) s
  have hread := trace_config (w := w) ((ClientCall.login ip userAgent c).run w) s
  refine (allAlong_iff_forall (P := fun (e : Event authrs) _ => ∀ k userId,
    issued e.request ≠ some (k, tenantId, userId))).mp ((hv.1.and hread).imp ?_)
  rintro h e - ⟨hvetted, hread⟩ k userId hi
  obtain ⟨-, row, i, ds, -, -, hb⟩ := hvetted k tenantId userId hi
  exact (hbasis k i h row hb m hc).not_excludes hread hex

theorem identityLogin_issuesNothing (email password : String) :
    IssuesNothing w tenantId s (.identityLogin email password) := by
  have hv := ((ClientCall.identityLogin email password).run_keeps w).along (handle w)
    (fun _ _ => trivial) s
  refine (allAlong_iff_forall (P := fun (e : Event authrs) _ => ∀ k userId,
    issued e.request ≠ some (k, tenantId, userId))).mp (hv.1.imp ?_)
  rintro h e - hun k userId hi
  have hnone : issued e.request = none := hun
  rw [hnone] at hi
  cases hi

end PublicLogin

/-! ### Selecting a tenant -/

/-- **A tenant selection gets as far as the shared tail**: the token is valid, its identity has a
membership in the tenant, and both pass the gates. -/
def SelectPasses (s : State) (identityToken tenantId : String) (user : User)
    (identity : IdentityRow) : Prop :=
  ∃ token, s.db.identityToken s.now identityToken = some token ∧
    (s.db.memberships.find? fun u => u.identityId = token.identityId && u.tenantId = tenantId) =
      some user ∧
    s.db.identity token.identityId = some identity ∧
    Gates {s.now} user.toRow identity.toIdentity

namespace AuthService

variable {w : World} {s : State}

/-- A tenant selection up to the shared tail. -/
def selectTenantPrologue (identityToken tenantId : String) : Service (User × Identity) := do
  let identityId ← IdentityTokensRepo.getValid identityToken
  let identityId ← Service.okOr identityId (.unauthorized "Invalid or expired identity token")
  let user ← UsersRepo.getMembership identityId tenantId
  let user ← Service.okOr user (.forbidden "No membership in this tenant")
  let identity ← loadIdentity identityId
  checkGates user identity
  Program.pure (user, identity)

theorem selectTenantWithToken_eq (identityToken tenantId : String) (ip userAgent : Option String) :
    selectTenantWithToken w identityToken tenantId ip userAgent =
      (selectTenantPrologue identityToken tenantId).bind
        fun x => finalizeLogin w tenantId x.1 x.2 ip userAgent := by
  unfold selectTenantWithToken selectTenant selectTenantPrologue
  simp only [Program.bind_eq, Program.bind_assoc, Program.pure_bind]

theorem selectTenantPrologue_asks (identityToken tenantId : String) :
    (selectTenantPrologue identityToken tenantId).Asks Unissuing := by
  refine (unissuing_query rfl).bind fun found => (asks_okOr _ _).bind fun identityId => ?_
  refine (unissuing_query rfl).bind fun found => (asks_okOr _ _).bind fun user => ?_
  have hload : (loadIdentity identityId).Asks Unissuing :=
    (unissuing_query rfl).bind fun found => asks_okOr _ _
  refine hload.bind fun identity => ?_
  have hgates : (checkGates user identity).Asks Unissuing := by
    refine (asks_ensure _ _).bind fun _ => Asks.bind (p := checkLock identity) ?_ fun _ => ?_
    · unfold checkLock
      cases identity.lockedUntil with
      | none => trivial
      | some l => exact ⟨rfl, fun t => asks_ensure _ _⟩
    · unfold checkAccess
      cases user.accessValidUntil with
      | none => trivial
      | some v => exact ⟨rfl, fun t => asks_ensure _ _⟩
  exact hgates.bind fun _ => trivial

/-- **The prologue, run alone**, returns exactly the rows that pass. -/
theorem exec_selectTenantPrologue (identityToken tenantId : String) {user : User} {i : Identity} :
    (∃ s₁, (selectTenantPrologue identityToken tenantId).exec (handle w) s =
      (.ok (user, i), s₁)) ↔
    ∃ row, SelectPasses s identityToken tenantId user row ∧ i = row.toIdentity := by
  unfold selectTenantPrologue
  simp only [Program.bind_eq, exec_bind_eq_ok]
  constructor
  · rintro ⟨s₁, _, _, ⟨⟩, identityId, _, h₁, _, _, ⟨⟩, u, _, h₂, i', _, h₃, _, _, h₄, ⟨⟩⟩
    obtain ⟨hfound, rfl⟩ := Service.exec_okOr_eq_ok.mp h₁
    obtain ⟨huser, rfl⟩ := Service.exec_okOr_eq_ok.mp h₂
    obtain ⟨⟨row, hrow, rfl⟩, rfl⟩ := exec_loadIdentity_eq_ok.mp h₃
    obtain ⟨hgates, rfl⟩ := exec_checkGates_eq_ok.mp h₄
    obtain ⟨token, htoken, rfl⟩ := Option.map_eq_some_iff.mp hfound
    exact ⟨row, ⟨token, htoken, huser, hrow, hgates⟩, rfl⟩
  · rintro ⟨row, ⟨token, htoken, huser, hrow, hgates⟩, rfl⟩
    have hfound : (s.db.identityToken s.now identityToken).map (·.identityId) =
        some token.identityId := by
      rw [htoken]
      rfl
    exact ⟨_, _, _, rfl, _, _, Service.exec_okOr_eq_ok.mpr ⟨hfound, rfl⟩, _, _, rfl, user, _,
      Service.exec_okOr_eq_ok.mpr ⟨huser, rfl⟩, _, _,
      exec_loadIdentity_eq_ok.mpr ⟨⟨row, hrow, rfl⟩, rfl⟩, (), _,
      exec_checkGates_eq_ok.mpr ⟨hgates, rfl⟩, rfl⟩

/-- **`finalize_login` always goes on to issue something.** -/
theorem finalizeLogin_issues (tenantId : String) (user : User) (identity : Identity)
    (ip userAgent : Option String) :
    ∃ m ∈ (finalizeLogin w tenantId user identity ip userAgent).trace (handle w) s,
      ∃ k, issued m.1.request = some (k, tenantId, user.id) := by
  unfold finalizeLogin
  split
  · refine ⟨(⟨.sql (.tokens (.createForceChangeToken tenantId user.id _ _)), _⟩, _),
      .tail _ (.tail _ (.tail _ (.head _))), .changeToken, rfl⟩
  · split
    · refine ⟨(⟨.sql (.challenges (.insert _ tenantId user.id _)), _⟩, _),
        .tail _ (.tail _ (.tail _ (.head _))), .challenge, rfl⟩
    · refine ⟨(⟨.sql (.roles (.getUserRoles tenantId user.id)), _⟩, _), .head _, .session, rfl⟩

/-- What `finalize_login` issues is for its tenant. -/
theorem finalizeLogin_issuesFor (tenantId : String) (user : User) (identity : Identity)
    (ip userAgent : Option String) :
    ∀ x ∈ (finalizeLogin w tenantId user identity ip userAgent).trace (handle w) s,
      ∀ k tenantId' userId, issued x.1.request = some (k, tenantId', userId) →
        tenantId' = tenantId := by
  have hkeeps : (finalizeLogin w tenantId user identity ip userAgent).Keeps
      (.ofGuarantee fun _ e => ∀ k tenantId' userId,
        issued e.request = some (k, tenantId', userId) → tenantId' = tenantId)
      (fun _ _ => True) [] := by
    refine finalizeLogin_keeps (M := fun _ => True) ?_ (fun _ _ _ _ => trivial) user identity ip
      userAgent ?_ trivial (by simp)
    · intro h e hun k tenantId' userId hi
      rw [hun] at hi
      cases hi
    · intro h e k _ hi _ _ k' tenantId' userId hi'
      rw [hi] at hi'
      cases hi'
      rfl
  exact allAlong_iff_forall.mp (hkeeps.along (handle w) (fun _ _ => trivial) s).1

end AuthService

/-- **The tenant selections that issue something** for a tenant: those into the tenant that pass. -/
theorem selectTenant_issuesNothing_iff {w : World} {ip userAgent : Option String} {s : State}
    {identityToken tenantId T : String} :
    IssuesNothing w T s (.login ip userAgent (.selectTenantWithToken identityToken tenantId)) ↔
      (tenantId = T → ∀ user identity, ¬ SelectPasses s identityToken T user identity) := by
  have hrun : (ClientCall.run w
      (.login ip userAgent (.selectTenantWithToken identityToken tenantId))).trace (handle w) s =
      (AuthService.selectTenantWithToken w identityToken tenantId ip userAgent).trace (handle w)
        s := by
    simp only [ClientCall.run, LoginCall.run, Program.bind_eq, trace_bind]
    split <;> exact List.append_nil _
  have hprologue : ∀ x ∈ (AuthService.selectTenantPrologue identityToken tenantId).trace (handle w)
      s, issued x.1.request = none :=
    (AuthService.selectTenantPrologue_asks identityToken tenantId).trace (handle w) s
  unfold IssuesNothing
  rw [hrun, AuthService.selectTenantWithToken_eq, trace_bind]
  constructor
  · rintro hnothing rfl user identity hpasses
    obtain ⟨s₁, hs₁⟩ := (AuthService.exec_selectTenantPrologue (w := w) identityToken tenantId).mpr
      ⟨identity, hpasses, rfl⟩
    obtain ⟨x, hx, k, hk⟩ := AuthService.finalizeLogin_issues (w := w) (s := s₁) tenantId user
      identity.toIdentity ip userAgent
    rw [hs₁] at hnothing
    exact hnothing x (List.mem_append_right _ hx) k user.id hk
  · intro hfails x hx k userId hi
    rcases List.mem_append.mp hx with hx | hx
    · rw [hprologue x hx] at hi
      cases hi
    · rcases hexec : (AuthService.selectTenantPrologue identityToken tenantId).exec (handle w) s
        with ⟨e | ⟨user, i⟩, s₁⟩
      · rw [hexec] at hx
        cases hx
      · rw [hexec] at hx
        obtain ⟨row, hpasses, rfl⟩ :=
          (AuthService.exec_selectTenantPrologue identityToken tenantId).mp ⟨s₁, hexec⟩
        obtain rfl := AuthService.finalizeLogin_issuesFor tenantId user _ ip userAgent x hx k T
          userId hi
        exact hfails rfl user row hpasses

/-! ### What a login looks up -/

section Looks

open CachedConfig

/-- A request that looks at the configuration. -/
def readsConfig : Request → Bool
  | .sql (.kv _) => true
  | _ => false

theorem looksPlainly_of_not {q : Request} (h : readsConfig q = false) : LooksPlainly q := by
  rintro t g k rfl
  cases h

theorem looksPlainly_of_tail {tenantId : String} {q : Request} (h : TailRequest tenantId q) :
    LooksPlainly q := by
  cases h with
  | config hname =>
    rintro t g k hq
    injection hq with hq
    injection hq with hq
    injection hq with _ hg hk
    exact hg ▸ hk ▸ hname
  | _ => exact looksPlainly_of_not rfl

theorem looksPlainly_of_signIn {tenantId provider : String} {profile : OauthProfile} {q : Request}
    (h : SignInRequest tenantId provider profile q) : LooksPlainly q := by
  cases h with
  | tail h => exact looksPlainly_of_tail h
  | _ => exact looksPlainly_of_not rfl

namespace AuthService

variable (w : World) (tenantId : String)

theorem looksPlainly_tail {α : Type} {p : Service α} (hp : p.Asks (TailRequest tenantId)) :
    p.Asks LooksPlainly :=
  hp.mono fun _ => looksPlainly_of_tail

theorem loadIdentity_looks (identityId : Uuid) : (loadIdentity identityId).Asks LooksPlainly :=
  (asks_query (looksPlainly_of_not rfl)).bind fun _ => asks_okOr _ _

theorem checkPassword_looks (identity : Identity) (password message : String) :
    (checkPassword w identity password message).Asks LooksPlainly := by
  refine (asks_okOr _ _).bind fun passwordHash => (asks_ofExcept _).bind fun correct => ?_
  cases correct with
  | true => trivial
  | false =>
    exact (registerFailedAttempt_asks (looksPlainly_of_not rfl)
      (fun _ _ => looksPlainly_of_not rfl) identity).bind fun _ => trivial

theorem clearFailedAttempts_looks (id : Uuid) :
    (IdentitiesRepo.clearFailedAttempts id).Asks LooksPlainly :=
  asks_execute (looksPlainly_of_not rfl)

theorem doPasswordLogin_looks (user : User) (password : String) (ip userAgent : Option String)
    (method : Int) :
    (doPasswordLogin w tenantId user password ip userAgent method).Asks LooksPlainly := by
  refine (loadIdentity_looks user.identityId).bind fun identity => ?_
  refine (looksPlainly_tail tenantId (checkGates_tail tenantId user identity)).bind fun _ => ?_
  refine (looksPlainly_tail tenantId (effectiveLoginMethods_tail w tenantId user)).bind
    fun effective => (asks_ensure _ _).bind fun _ => ?_
  refine (checkPassword_looks w identity password _).bind fun _ => ?_
  refine (clearFailedAttempts_looks identity.id).bind fun _ => ?_
  exact looksPlainly_tail tenantId (finalizeLogin_tail w tenantId user identity ip userAgent)

theorem loginEmailPassword_looks (email password : String) (ip userAgent : Option String) :
    (loginEmailPassword w tenantId email password ip userAgent).Asks LooksPlainly := by
  have hdomain : (ensureEmailDomainAllowed w tenantId email).Asks (TailRequest tenantId) :=
    (getTyped_tail w tenantId ⟨by decide, by decide⟩ _).bind fun _ => asks_ensure _ _
  refine (looksPlainly_tail tenantId hdomain).bind fun _ => ?_
  refine (asks_query (looksPlainly_of_not rfl)).bind fun found => ?_
  exact (asks_okOr _ _).bind fun user => doPasswordLogin_looks w tenantId user password ip userAgent _

theorem loginUsernamePassword_looks (username password : String) (ip userAgent : Option String) :
    (loginUsernamePassword w tenantId username password ip userAgent).Asks LooksPlainly := by
  refine (asks_query (looksPlainly_of_not rfl)).bind fun found => ?_
  exact (asks_okOr _ _).bind fun user => doPasswordLogin_looks w tenantId user password ip userAgent _

theorem loginWithVerifiedOtp_looks (email : String) (ip userAgent : Option String) :
    (loginWithVerifiedOtp w tenantId email ip userAgent).Asks LooksPlainly := by
  refine (asks_query (looksPlainly_of_not rfl)).bind fun found => ?_
  refine (asks_okOr _ _).bind fun user => ?_
  refine (loadIdentity_looks user.identityId).bind fun identity => ?_
  refine (looksPlainly_tail tenantId (checkGates_tail tenantId user identity)).bind fun _ => ?_
  refine (looksPlainly_tail tenantId (effectiveLoginMethods_tail w tenantId user)).bind
    fun effective => (asks_ensure _ _).bind fun _ => ?_
  exact looksPlainly_tail tenantId (finalizeLogin_tail w tenantId user identity ip userAgent)

theorem selectTenantWithToken_looks (identityToken : String) (ip userAgent : Option String) :
    (selectTenantWithToken w identityToken tenantId ip userAgent).Asks LooksPlainly := by
  refine (asks_query (looksPlainly_of_not rfl)).bind fun found => ?_
  refine (asks_okOr _ _).bind fun identityId => ?_
  refine (asks_query (looksPlainly_of_not rfl)).bind fun found => ?_
  refine (asks_okOr _ _).bind fun user => ?_
  refine (loadIdentity_looks identityId).bind fun identity => ?_
  refine (looksPlainly_tail tenantId (checkGates_tail tenantId user identity)).bind fun _ => ?_
  exact looksPlainly_tail tenantId (finalizeLogin_tail w tenantId user identity ip userAgent)

theorem loginIdentity_looks (email password : String) :
    (loginIdentity w email password).Asks LooksPlainly := by
  refine (asks_query (looksPlainly_of_not rfl)).bind fun found => ?_
  refine (asks_okOr _ _).bind fun identity => (asks_ensure _ _).bind fun _ => ?_
  have hlock : (checkLock identity).Asks LooksPlainly := by
    unfold checkLock
    cases identity.lockedUntil with
    | none => trivial
    | some l => exact ⟨looksPlainly_of_not rfl, fun t => asks_ensure _ _⟩
  refine hlock.bind fun _ => (checkPassword_looks w identity password _).bind fun _ => ?_
  refine (clearFailedAttempts_looks identity.id).bind fun _ => ?_
  refine Asks.bind (p := randomToken) ⟨looksPlainly_of_not rfl, fun _ => trivial⟩ fun token => ?_
  refine Asks.bind (p := utcNow) ⟨looksPlainly_of_not rfl, fun _ => trivial⟩ fun now => ?_
  have hcreate : (IdentityTokensRepo.create identity.id token
      (now + minutes IDENTITY_TOKEN_TTL_MINS)).Asks LooksPlainly :=
    asks_execute (looksPlainly_of_not rfl)
  have htenants : (tenantsForIdentity identity.id).Asks LooksPlainly :=
    (asks_query (looksPlainly_of_not rfl)).bind fun _ => trivial
  exact hcreate.bind fun _ => htenants.bind fun _ => trivial

end AuthService

/-- **A public login looks up plain names only.** -/
theorem PublicLogin.run_looks (w : World) (ip userAgent : Option String) (c : PublicLogin) :
    ((c.toClient ip userAgent).run w).Asks LooksPlainly := by
  cases c with
  | emailPassword tenantId email password =>
    exact (AuthService.loginEmailPassword_looks w tenantId email password ip userAgent).bind
      fun _ => trivial
  | usernamePassword tenantId username password =>
    exact (AuthService.loginUsernamePassword_looks w tenantId username password ip userAgent).bind
      fun _ => trivial
  | verifiedOtp tenantId email =>
    exact (AuthService.loginWithVerifiedOtp_looks w tenantId email ip userAgent).bind fun _ => trivial
  | oauth tenantId provider profile allowSignup =>
    exact ((AuthService.loginOauth_asks w tenantId provider profile allowSignup ip userAgent).mono
      fun _ => looksPlainly_of_signIn).bind fun _ => trivial
  | identityLogin email password =>
    exact (AuthService.loginIdentity_looks w email password).bind fun _ => trivial
  | selectTenant identityToken tenantId =>
    exact (AuthService.selectTenantWithToken_looks w tenantId identityToken ip userAgent).bind
      fun _ => trivial

end Looks

/-! ### Runs -/

section Cached

open CachedConfig

variable {w : World} {ip userAgent : Option String} {tenantId : String} {m : Int}

/-- **A call over the cache issues nothing for a tenant**: no session, no challenge and no change
token. -/
def IssuesNothingCached (w : World) (tenantId : String) (s : CachedState w) (c : ClientCall) : Prop :=
  ∀ x ∈ (c.run w).trace (handleCached w) s,
    ∀ k userId, issued x.1.request ≠ some (k, tenantId, userId)

/-- A cache that agrees with the table makes no difference. -/
theorem issuesNothingCached_iff {s : CachedState w} (hs : s.Agrees) (c : PublicLogin) :
    IssuesNothingCached w tenantId s (c.toClient ip userAgent) ↔
      IssuesNothing w tenantId s.state (c.toClient ip userAgent) := by
  have htrace := (exec_cached (c.run_looks w ip userAgent) hs).2.2
  have hevents : ∀ {σ : Type} (tr : List (Event authrs × σ)),
      (∀ x ∈ tr, ∀ k userId, issued x.1.request ≠ some (k, tenantId, userId)) ↔
        ∀ e ∈ tr.map Prod.fst, ∀ k userId, issued e.request ≠ some (k, tenantId, userId) := by
    intro σ tr
    simp only [List.forall_mem_map]
  rw [IssuesNothingCached, IssuesNothing, hevents, hevents, htrace]

/-- The login is no successful selection of the tenant on an excluded password. -/
def PublicLogin.NoBypass (w : World) (tenantId : String) (m : Int) (s : State) : PublicLogin → Prop
  | .selectTenant identityToken tenantId' =>
    Excludes w s.db tenantId m → m = LOGIN_METHOD_EMAIL_PASSWORD → tenantId' = tenantId →
      ∀ user identity, ¬ SelectPasses s identityToken tenantId user identity
  | _ => True

/-- **A login respects the list** unless it is such a selection. -/
theorem PublicLogin.upheld_iff (w : World) (ip userAgent : Option String) (tenantId : String)
    (m : Int) (s : State) (c : PublicLogin) :
    (Excludes w s.db tenantId m → c.firstFactor = m →
      IssuesNothing w tenantId s (c.toClient ip userAgent)) ↔ c.NoBypass w tenantId m s := by
  cases c with
  | selectTenant identityToken tenantId' =>
    refine imp_congr_right fun _ => ?_
    refine imp_congr eq_comm ?_
    exact selectTenant_issuesNothing_iff
  | identityLogin email password =>
    exact iff_of_true (fun _ _ => PublicLogin.identityLogin_issuesNothing email password) trivial
  | emailPassword =>
    refine iff_of_true ?_ trivial
    rintro hex rfl
    exact PublicLogin.upheld_of_method rfl (fun _ _ _ _ hb => hb.2.2) hex
  | usernamePassword =>
    refine iff_of_true ?_ trivial
    rintro hex rfl
    exact PublicLogin.upheld_of_method rfl (fun _ _ _ _ hb => hb.2.2) hex
  | verifiedOtp =>
    refine iff_of_true ?_ trivial
    rintro hex rfl
    exact PublicLogin.upheld_of_method rfl (fun _ _ _ _ hb => hb.2.2) hex
  | oauth =>
    refine iff_of_true ?_ trivial
    rintro hex rfl
    exact PublicLogin.upheld_of_method rfl (fun _ _ _ _ hb => hb.2.2) hex

/-- A step of a run: a public login, over the cache of the configuration, or anything that the
surroundings do to the state. -/
inductive PublicStep (w : World)
  | call (ip userAgent : Option String) (c : PublicLogin)
  | surroundings (f : CachedState w → CachedState w)

namespace PublicStep

/-- The state after a step. -/
def next (w : World) (s : CachedState w) : PublicStep w → CachedState w
  | call ip userAgent c => (((c.toClient ip userAgent).run w).exec (handleCached w) s).2
  | surroundings f => f s

/-- The surroundings leave a cache that agrees with the table of the configuration so. -/
def KeepsConfig : PublicStep w → Prop
  | call .. => True
  | surroundings f => ∀ s : CachedState w, s.Agrees → (f s).Agrees

/-- The step respects the tenant's list: if the list excludes the kind of its first factor, it
issues nothing for the tenant. -/
def MethodUpheld (w : World) (tenantId : String) (m : Int) (s : CachedState w) : PublicStep w → Prop
  | call ip userAgent c => Excludes w s.state.db tenantId m → c.firstFactor = m →
    IssuesNothingCached w tenantId s (c.toClient ip userAgent)
  | surroundings _ => True

/-- The step does not select the tenant, on an excluded password, with success. -/
def NoBypass (w : World) (tenantId : String) (m : Int) (s : CachedState w) : PublicStep w → Prop
  | call _ _ c => c.NoBypass w tenantId m s.state
  | surroundings _ => True

theorem methodUpheld_iff {s : CachedState w} (hs : s.Agrees) (x : PublicStep w) :
    x.MethodUpheld w tenantId m s ↔ x.NoBypass w tenantId m s := by
  cases x with
  | surroundings f => exact Iff.rfl
  | call ip userAgent c =>
    refine Iff.trans ?_ (c.upheld_iff w ip userAgent tenantId m s.state)
    exact imp_congr_right fun _ => imp_congr_right fun _ => issuesNothingCached_iff hs c

/-- **A step keeps the agreement** of the cache and the table. -/
theorem next_agrees {s : CachedState w} (hs : s.Agrees) {x : PublicStep w} (hx : x.KeepsConfig) :
    (next w s x).Agrees := by
  cases x with
  | surroundings f => exact hx s hs
  | call ip userAgent c => exact (exec_cached (c.run_looks w ip userAgent) hs).2.1.1

end PublicStep

/-- **The runs that respect a tenant's list**, from a cache that agrees with the table: those in which
no tenant selection gets around the list. -/
theorem run_methodUpheld_iff (w : World) (tenantId : String) (m : Int) {s : CachedState w}
    (hs : s.Agrees) {l : List (PublicStep w)} (hl : ∀ x ∈ l, x.KeepsConfig) :
    EachCall (PublicStep.next w) (fun s x => x.MethodUpheld w tenantId m s) s l ↔
      EachCall (PublicStep.next w) (fun s x => x.NoBypass w tenantId m s) s l := by
  induction l generalizing s with
  | nil => exact Iff.rfl
  | cons x l ih =>
    rw [List.forall_mem_cons] at hl
    exact and_congr (x.methodUpheld_iff hs) (ih (PublicStep.next_agrees hs hl.1) hl.2)

/-- A deployment whose stored values are lists of the one-time codes alone. -/
def codesOnly : World :=
  { World.offline with parseJson := fun _ => .ok (.array [.int LOGIN_METHOD_EMAIL_OTP]) }

/-- A tenant that allows one-time codes only, with a member who has a password. -/
def codesOnlyTenant : State :=
  .ofDb { Db.empty with
    tenants := .single ⟨"acme", "Acme", "active", 0⟩
    kvStore := .single ⟨"acme", "login_methods", "allowed", "[2]", false, 0⟩
    identities := .single (.ofHandles ⟨0, id, fun _ => 7⟩ (some "ann@acme.example") none none
      none none (some ":correct horse"))
    users := .single ⟨1, "acme", 7, none, "active", none, 0, 0⟩ } 0

/-- An identity login with the password, and the selection of the tenant with its token. -/
def passwordThenSelect : List (PublicStep codesOnly) :=
  [.call none none (.identityLogin "ann@acme.example" "correct horse"),
    .call none none (.selectTenant "x" "acme")]

/-- A login with the password, half a minute, and the same login again, over the list in the cache. -/
def passwordTwice : List (PublicStep codesOnly) :=
  [.call none none (.emailPassword "acme" "ann@acme.example" "correct horse"),
    .surroundings fun s => { s with state := { s.state with now := s.state.now + seconds 30 } },
    .call none none (.emailPassword "acme" "ann@acme.example" "correct horse")]

theorem run_methodUpheld_iff_passwordTwice :
    EachCall (PublicStep.next codesOnly)
        (fun s x => x.MethodUpheld codesOnly "acme" LOGIN_METHOD_EMAIL_PASSWORD s)
        (.fresh codesOnly codesOnlyTenant) passwordTwice ∧
      ((finalState (PublicStep.next codesOnly) (.fresh codesOnly codesOnlyTenant)
        passwordTwice).served "acme:login_methods:allowed").isSome = true := by
  have hl : ∀ x ∈ passwordTwice, x.KeepsConfig := by
    refine List.forall_mem_cons.mpr ⟨trivial, List.forall_mem_cons.mpr ⟨?_, ?_⟩⟩
    · exact fun s hs => hs.of_kvStore rfl
    · exact List.forall_mem_singleton.mpr trivial
  refine ⟨?_, by decide +kernel⟩
  exact (run_methodUpheld_iff codesOnly "acme" LOGIN_METHOD_EMAIL_PASSWORD
    (agrees_fresh codesOnly codesOnlyTenant) hl).mpr ⟨trivial, trivial, trivial, trivial⟩

/-- The member gets a session for the tenant on the password that the tenant excludes. -/
theorem select_bypasses_methods :
    Excludes codesOnly codesOnlyTenant.db "acme" LOGIN_METHOD_EMAIL_PASSWORD ∧
      ¬ EachCall (PublicStep.next codesOnly)
        (fun s x => x.MethodUpheld codesOnly "acme" LOGIN_METHOD_EMAIL_PASSWORD s)
        (.fresh codesOnly codesOnlyTenant) passwordThenSelect ∧
      (finalState (PublicStep.next codesOnly) (.fresh codesOnly codesOnlyTenant)
        passwordThenSelect).state.db.sessions.rows.map (·.tenantId) = ["acme"] := by
  have hexcludes : ∀ s : State, s.db.kvStore = codesOnlyTenant.db.kvStore →
      Excludes codesOnly s.db "acme" LOGIN_METHOD_EMAIL_PASSWORD := by
    intro s hs
    refine ⟨.array [.int 2], [2], ?_, rfl, by decide⟩
    unfold Db.config Db.kv
    rw [hs]
    rfl
  refine ⟨hexcludes _ rfl, fun hupheld => ?_, by decide +kernel⟩
  have hlogin := exec_cached (PublicLogin.run_looks codesOnly none none
    (.identityLogin "ann@acme.example" "correct horse")) (agrees_fresh codesOnly codesOnlyTenant)
  have hselect := ((PublicStep.methodUpheld_iff hlogin.2.1.1 _).mp hupheld.2.1)
  have hpasses : ∃ user identity, SelectPasses
      (PublicStep.next codesOnly (.fresh codesOnly codesOnlyTenant) (.call none none
        (.identityLogin "ann@acme.example" "correct horse"))).state "x" "acme" user identity := by
    with_unfolding_all
      exact ⟨_, _, _, rfl, rfl, rfl, rfl, rfl, by rintro _ ⟨⟩, by rintro _ ⟨⟩⟩
  obtain ⟨user, identity, hp⟩ := hpasses
  refine hselect (hexcludes _ ?_) rfl rfl user identity hp
  rw [hlogin.2.1.2]
  exact exec_kvStore _ _ _

end Cached

end Authrs
