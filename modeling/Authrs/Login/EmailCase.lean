import Authrs.Base.AsciiCase
import Authrs.Interaction.Raises
import Authrs.Login.Invites

/-!
# Email logins and letter case

A password login looks its member up by the email exactly as it is stored, while identities are
looked up, and are unique, up to case. So two spellings of an email are two logins: the one that is
stored is checked, and any other is refused without counting an attempt.

## Main definitions

* `Db.EmailsUnique`: no two identities have the same email up to case
* `Db.permitsEmail`, `Db.member`: the tenant's allowlist, and the member with an email
* `SameLogin`: two logins end alike and leave the same counters and locks
* `emailMember`: a login up to its lookup

## Main results

* `doPasswordLogin_counts`: a refused password is counted
* `sameLogin_iff`: when two spellings are the same login
* `login_email_case_iff`: with it, when the login finds the member that `login_identity` would
-/

namespace Authrs

open Interaction AuthService Relational

/-- `uq_identities_email`: no two identities have the same email up to case. -/
def Db.EmailsUnique (lower : String → String) (db : Db) : Prop :=
  ∀ r ∈ db.identities, ∀ r' ∈ db.identities, ∀ e ∈ r.email, ∀ e' ∈ r'.email,
    lower e = lower e' → r = r'

/-- The tenant's allowlist can be read, and permits the email. -/
def Db.permitsEmail (w : World) (db : Db) (tenantId email : String) : Prop :=
  ∃ v, db.config w tenantId "email_policy" "allowed_domains" = .ok v ∧
    ((v.bind domainsFromValue).getD [] = [] ∨
      domainPermitted w ((v.bind domainsFromValue).getD []) email = true)

/-- The member of a tenant with an email, exactly as it is stored. -/
def Db.member (db : Db) (tenantId email : String) : Option User :=
  db.memberships.find? fun u => u.tenantId = tenantId && u.email = some email

/-- The counter and the lock of an identity. -/
def Db.lockout (db : Db) (id : Uuid) : Option (Nat × Option Time) :=
  (db.identity id).map fun r => (r.failedAttempts, r.lockedUntil)

/-- The cipher fails with an internal error only. -/
def World.DecryptsOrInternal (w : World) : Prop :=
  ∀ cipher e, w.decrypt cipher = .error e → ∃ m, e = .internal m

section Logins

variable (w : World) (s : State) (tenantId : String) (ip userAgent : Option String)

/-- **Two logins end alike**, and leave the counters and locks of all identities alike. -/
def SameLogin (email email' password : String) : Prop :=
  let x := (loginEmailPassword w tenantId email password ip userAgent).exec (handle w) s
  let x' := (loginEmailPassword w tenantId email' password ip userAgent).exec (handle w) s
  x.1 = x'.1 ∧ ∀ id, x.2.db.lockout id = x'.2.db.lockout id

/-- **A login up to its lookup.** -/
def emailMember (email : String) : Service User := do
  ensureEmailDomainAllowed w tenantId email
  let user ← UsersRepo.getByEmail tenantId email
  Service.okOr user (.unauthorized "Invalid email or password")

theorem loginEmailPassword_eq (email password : String) :
    loginEmailPassword w tenantId email password ip userAgent =
      (emailMember w tenantId email).bind fun user =>
        doPasswordLogin w tenantId user password ip userAgent LOGIN_METHOD_EMAIL_PASSWORD := by
  simp only [loginEmailPassword, emailMember, Program.bind_eq, Program.bind_assoc]

end Logins

/-! ### What refuses a credential -/

/-- A failure that does not refuse a credential. -/
def NoRefusal : Failure → Prop
  | .error (.unauthorized _) => False
  | _ => True

section Refusals

open Program

variable {w : World} {α : Type}

theorem raises_ofResult {r : Except AppError α} (hr : ∀ e, r = .error e → NoRefusal (.error e)) :
    (Service.ofResult r).Raises NoRefusal := by
  refine raises_ofExcept fun e he => ?_
  cases r with
  | ok a => cases he
  | error e' =>
    cases he
    exact hr e' rfl

theorem raises_internal (r : Except String α) :
    (Service.ofResult (r.mapError AppError.internal)).Raises NoRefusal := by
  refine raises_ofResult fun e he => ?_
  cases r with
  | ok a => cases he
  | error m =>
    cases he
    trivial

theorem raises_query (q : Sql) : (query q).Raises NoRefusal := by
  refine (raises_request _).bind fun r => raises_ofResult fun e he => ?_
  rcases r with err | rows
  · cases he
    cases err <;> trivial
  · cases he

theorem raises_execute (q : Sql) : (execute q).Raises NoRefusal :=
  (raises_query q).bind fun _ => trivial

theorem raises_redis (c : RedisCommand) : (redis c).Raises NoRefusal :=
  (raises_request _).bind fun r => raises_internal r

theorem raises_unwrapOrDefault {p : Service (List α)} (hp : p.Raises NoRefusal) :
    p.unwrapOrDefault.Raises NoRefusal := by
  refine ((hp.toExcept Failure.recoverable).mono fun _ he => he.1).bind fun r => ?_
  cases r <;> trivial

theorem raises_getTyped (hdecrypt : w.DecryptsOrInternal) (tenantId groupKey key : String)
    (fromValue : Json → Option α) :
    (TenantConfigLoader.getTyped w tenantId groupKey key fromValue).Raises NoRefusal := by
  refine ((raises_query _).bind fun row => raises_ofResult fun e he => ?_).bind fun _ => trivial
  -- A stored text that is no JSON is an internal error, not a refusal.
  have hparse : ∀ text : String, ∀ e,
      (w.parseJson text).mapError (fun m => AppError.internal ("Invalid JSON in kv_store: " ++ m)) =
        .error e → NoRefusal (.error e) := by
    intro text e he
    cases hp : w.parseJson text with
    | ok j =>
      rw [hp] at he
      cases he
    | error m =>
      rw [hp] at he
      cases he
      trivial
  rcases row with _ | row
  · cases he
  · have hrow : row.decode w = .error e := by
      change (row.decode w).map some = .error e at he
      cases hd : row.decode w with
      | ok j =>
        rw [hd] at he
        cases he
      | error e' =>
        rw [hd] at he
        cases he
        rfl
    unfold KvStoreRow.decode at hrow
    cases hs : row.sensitive with
    | false =>
      rw [hs] at hrow
      exact hparse _ _ hrow
    | true =>
      rw [hs, if_pos rfl] at hrow
      cases hd : w.decrypt row.value with
      | ok text =>
        rw [hd] at hrow
        exact hparse _ _ hrow
      | error e' =>
        rw [hd] at hrow
        cases hrow
        obtain ⟨m, rfl⟩ := hdecrypt _ _ hd
        trivial

theorem raises_loadIdentity (identityId : Uuid) : (loadIdentity identityId).Raises NoRefusal :=
  (raises_query _).bind fun _ => raises_okOr _ trivial

theorem raises_checkGates (user : User) (identity : Identity) :
    (checkGates user identity).Raises NoRefusal := by
  refine (raises_ensure _ trivial).bind fun _ => Raises.bind ?_ fun _ => ?_
  · unfold checkLock
    cases identity.lockedUntil with
    | none => trivial
    | some l => exact (raises_request _).bind fun _ => raises_ensure _ trivial
  · unfold checkAccess
    cases user.accessValidUntil with
    | none => trivial
    | some v => exact (raises_request _).bind fun _ => raises_ensure _ trivial

theorem raises_effectiveLoginMethods (hdecrypt : w.DecryptsOrInternal) (tenantId : String)
    (user : User) : (effectiveLoginMethods w tenantId user).Raises NoRefusal :=
  (raises_getTyped hdecrypt _ _ _ _).bind fun _ => trivial

theorem raises_registerFailedAttempt (identity : Identity) :
    (registerFailedAttempt w identity).Raises NoRefusal := by
  refine Raises.bind ?_ fun reached => ?_
  · unfold lockReached
    split
    · trivial
    · split <;> trivial
  · cases reached with
    | true => exact (raises_request _).bind fun _ => raises_execute _
    | false => exact raises_execute _

theorem raises_loadGrants (tenantId : String) (userId : Uuid) :
    (loadGrants tenantId userId).Raises NoRefusal := by
  iterate 8 refine (raises_unwrapOrDefault (raises_query _)).bind fun _ => ?_
  trivial

theorem raises_mulU64 (a b : Nat) : (mulU64 w a b).Raises NoRefusal := by
  unfold mulU64
  split
  · trivial
  · split <;> trivial

theorem raises_sessionTtl (hdecrypt : w.DecryptsOrInternal) (tenantId : String) :
    (sessionTtl w tenantId).Raises NoRefusal := by
  refine (raises_getTyped hdecrypt _ _ _ _).bind fun policy => ?_
  cases policy.bind (·.absoluteTimeoutMins) with
  | none => trivial
  | some m => exact raises_mulU64 m 60

theorem raises_nowPlusSeconds (secs : Int) : (nowPlusSeconds secs).Raises NoRefusal := by
  refine (raises_request _).bind fun now => ?_
  split
  · trivial
  · split <;> trivial

theorem raises_addDay (ttlSecs : Nat) :
    (RedisSessionStore.addDay w ttlSecs).Raises NoRefusal := by
  unfold RedisSessionStore.addDay
  generalize ttlSecs + 86400 = n
  split
  · exact raises_pure _
  · split
    · exact (raises_throw _).mpr trivial
    · exact raises_pure _

theorem raises_set (sessionToken : String) (payload : SessionPayload) (ttlSecs : Nat) :
    (SessionStore.set w sessionToken payload ttlSecs).Raises NoRefusal := by
  unfold SessionStore.set
  cases w.sessionStore with
  | postgres => exact raises_execute _
  | redis =>
    unfold RedisSessionStore.set
    refine (raises_redis _).bind fun _ => (raises_redis _).bind fun _ =>
      (raises_redis _).bind fun _ => (raises_addDay ttlSecs).bind fun _ => raises_redis _

theorem raises_doCreateSession (hdecrypt : w.DecryptsOrInternal) (tenantId : String) (user : User)
    (ip userAgent : Option String) :
    (doCreateSession w tenantId user ip userAgent).Raises NoRefusal := by
  refine (raises_loadGrants _ _).bind fun grants => (raises_sessionTtl hdecrypt _).bind fun ttl =>
    (raises_nowPlusSeconds _).bind fun expiresAt => (raises_request _).bind fun token =>
      (raises_set _ _ _).bind fun _ => Raises.bind ?_ fun _ => trivial
  unfold auditSession
  split
  · trivial
  · exact raises_execute _

/-- **What follows a right credential does not refuse it.** -/
theorem raises_finalizeLogin (hdecrypt : w.DecryptsOrInternal) (tenantId : String) (user : User)
    (identity : Identity) (ip userAgent : Option String) :
    (finalizeLogin w tenantId user identity ip userAgent).Raises NoRefusal := by
  unfold finalizeLogin
  split
  · exact (raises_request _).bind fun _ => (raises_request _).bind fun _ =>
      ((raises_execute _).bind fun _ => raises_execute _).bind fun _ => trivial
  · split
    · exact (raises_request _).bind fun _ => (raises_request _).bind fun _ =>
        ((raises_execute _).bind fun _ => raises_execute _).bind fun _ => trivial
    · exact raises_doCreateSession hdecrypt tenantId user ip userAgent

end Refusals

/-! ### A login up to its lookup -/

section Lookup

open Program

variable {w : World} {s s' : State} {tenantId email email' : String}

theorem emailDomain_congr (hfold : FoldsAsciiCase w.toLowercase) (h : EqIgnoreAsciiCase email email') :
    emailDomain w email = emailDomain w email' := by
  have hsplit := h.trim.rsplitOnce (d := '@') (by decide)
  unfold emailDomain
  generalize rsplitOnce (trim email) '@' = a, rsplitOnce (trim email') '@' = b at hsplit ⊢
  cases hsplit with
  | none => rfl
  | @some p q hdomain =>
    have hempty : p.2 = "" ↔ q.2 = "" := by
      rw [← String.toList_eq_nil_iff, ← String.toList_eq_nil_iff, ← List.map_eq_nil_iff (f := Char.toLower),
        hdomain, List.map_eq_nil_iff]
    simp only [ne_eq, hempty, hfold _ _ hdomain]

theorem domainPermitted_congr (hfold : FoldsAsciiCase w.toLowercase)
    (h : EqIgnoreAsciiCase email email') (allowed : List String) :
    domainPermitted w allowed email = domainPermitted w allowed email' := by
  unfold domainPermitted
  rw [emailDomain_congr hfold h]

/-- The allowlist does not tell spellings apart. -/
theorem ensureEmailDomainAllowed_congr (hfold : FoldsAsciiCase w.toLowercase)
    (h : EqIgnoreAsciiCase email email') :
    ensureEmailDomainAllowed w tenantId email = ensureEmailDomainAllowed w tenantId email' := by
  unfold ensureEmailDomainAllowed
  simp only [domainPermitted_congr hfold h]

theorem exec_ensureEmailDomainAllowed_eq_ok :
    (ensureEmailDomainAllowed w tenantId email).exec (handle w) s = (.ok (), s') ↔
      s.db.permitsEmail w tenantId email ∧ s = s' := by
  unfold ensureEmailDomainAllowed TenantConfigLoader.getAllowedEmailDomains Db.permitsEmail
  rw [Program.bind_eq, exec_bind, TenantConfigLoader.exec_getTyped]
  cases s.db.config w tenantId "email_policy" "allowed_domains" with
  | error e => simp [Except.map, Except.mapError]
  | ok v =>
    change (Service.ensure _ _).exec (handle w) s = _ ↔ _
    rw [Service.exec_ensure_eq_ok]
    simp

/-- **The login finds the member with the email as it is stored**, if the allowlist permits it. -/
theorem exec_emailMember_eq_ok {u : User} :
    (emailMember w tenantId email).exec (handle w) s = (.ok u, s') ↔
      s.db.permitsEmail w tenantId email ∧ s.db.member tenantId email = some u ∧ s = s' := by
  unfold emailMember
  rw [Program.bind_eq, exec_bind_eq_ok]
  constructor
  · rintro ⟨_, s₁, hdomain, h⟩
    obtain ⟨hpermits, rfl⟩ := exec_ensureEmailDomainAllowed_eq_ok.mp hdomain
    obtain ⟨hfound, rfl⟩ := Service.exec_okOr_eq_ok.mp (h : (Service.okOr (s.db.member tenantId email)
      _).exec (handle w) s = _)
    exact ⟨hpermits, hfound, rfl⟩
  · rintro ⟨hpermits, hfound, rfl⟩
    refine ⟨(), s, exec_ensureEmailDomainAllowed_eq_ok.mpr ⟨hpermits, rfl⟩, ?_⟩
    exact (Service.exec_okOr_eq_ok.mpr ⟨hfound, rfl⟩ : (Service.okOr (s.db.member tenantId email)
      _).exec (handle w) s = _)

end Lookup

/-! ### A refused password is counted -/

section Counted

open Program

variable {w : World} {s s' : State}

theorem exec_incrementFailedAttempts_ok {id : Uuid} {lockUntil : Option Time} {r : IdentityRow}
    (hr : s.db.identity id = some r)
    (h : (IdentitiesRepo.incrementFailedAttempts id lockUntil).exec (handle w) s = (.ok (), s')) :
    ∃ r', s'.db.identity id = some r' ∧ r'.failedAttempts = r.failedAttempts + 1 := by
  obtain ⟨n, hexec⟩ := exec_execute_eq_ok h
  simp only [Sql.exec, IdentityStmt.exec] at hexec
  split at hexec
  · cases hexec
  · rw [← (Prod.mk.inj (Except.ok.inj hexec)).2]
    exact ⟨_, Db.identity_updateIdentity hr, rfl⟩

theorem exec_registerFailedAttempt_ok {identity : Identity} {r : IdentityRow}
    (hr : s.db.identity identity.id = some r)
    (h : (registerFailedAttempt w identity).exec (handle w) s = (.ok (), s')) :
    ∃ r', s'.db.identity identity.id = some r' ∧ r'.failedAttempts = r.failedAttempts + 1 := by
  obtain ⟨reached, s₁, hreached, h⟩ := (exec_bind_eq_ok _).mp h
  have hs₁ : s = s₁ := by
    unfold lockReached at hreached
    split at hreached
    · exact (Prod.mk.inj hreached).2
    · split at hreached
      · cases (Prod.mk.inj hreached).1
      · exact (Prod.mk.inj hreached).2
  subst hs₁
  cases reached with
  | true =>
    obtain ⟨now, s₂, hclock, h⟩ := (exec_bind_eq_ok _).mp h
    obtain ⟨-, rfl⟩ := Prod.mk.inj hclock
    exact exec_incrementFailedAttempts_ok hr h
  | false => exact exec_incrementFailedAttempts_ok hr h

/-- How a login with an unknown email or a wrong password ends. -/
def refused : Failure := .error (.unauthorized "Invalid email or password")

theorem not_noRefusal_refused : ¬NoRefusal refused := id

/-- The password check refuses after counting. -/
theorem exec_checkPassword_refused {identity : Identity} {password : String} {r : IdentityRow}
    (hr : s.db.identity identity.id = some r)
    (h : (checkPassword w identity password "Invalid email or password").exec (handle w) s =
      (.error refused, s')) :
    ∃ r', s'.db.identity identity.id = some r' ∧ r'.failedAttempts = r.failedAttempts + 1 := by
  have hhash : (Service.okOr identity.passwordHash (.unauthorized "Invalid credentials")).Raises
      (· = .error (.unauthorized "Invalid credentials")) := raises_okOr _ rfl
  obtain ⟨hash, s₁, hsome, h⟩ := hhash.exec_bind (by simp [refused]) h
  obtain ⟨-, rfl⟩ := Service.exec_okOr_eq_ok.mp hsome
  obtain ⟨right, s₂, hverify, h⟩ := (raises_internal _).exec_bind not_noRefusal_refused h
  obtain rfl : s = s₂ := by
    rw [Service.exec_ofResult] at hverify
    exact (Prod.mk.inj hverify).2
  cases right with
  | true => cases (Prod.mk.inj h).1
  | false =>
    obtain ⟨_, s₃, hcounted, h⟩ :=
      (raises_registerFailedAttempt identity).exec_bind not_noRefusal_refused h
    obtain ⟨-, rfl⟩ := Prod.mk.inj h
    exact exec_registerFailedAttempt_ok hr hcounted

/-- **A login that finds its member and is refused counts an attempt.** -/
theorem doPasswordLogin_counts (hdecrypt : w.DecryptsOrInternal) {tenantId password : String}
    {user : User} {ip userAgent : Option String} {method : Int}
    (h : (doPasswordLogin w tenantId user password ip userAgent method).exec (handle w) s =
      (.error refused, s')) :
    ∃ id, s'.db.lockout id ≠ s.db.lockout id := by
  obtain ⟨identity, s₁, hload, h⟩ := (raises_loadIdentity _).exec_bind not_noRefusal_refused h
  obtain ⟨⟨r, hr, hidentity⟩, rfl⟩ := exec_loadIdentity_eq_ok.mp hload
  obtain ⟨_, s₂, hgates, h⟩ := (raises_checkGates _ _).exec_bind not_noRefusal_refused h
  obtain ⟨-, rfl⟩ := exec_checkGates_eq_ok.mp hgates
  obtain ⟨effective, s₃, hmethods, h⟩ :=
    (raises_effectiveLoginMethods hdecrypt _ _).exec_bind not_noRefusal_refused h
  obtain rfl : s = s₃ := by
    obtain ⟨allowed, s₄, hallowed, hpure⟩ := (exec_bind_eq_ok _).mp hmethods
    unfold TenantConfigLoader.getLoginMethods at hallowed
    rw [TenantConfigLoader.exec_getTyped] at hallowed
    exact (Prod.mk.inj hallowed).2.trans (Prod.mk.inj hpure).2
  obtain ⟨_, s₅, hmethod, h⟩ := (raises_ensure _ trivial).exec_bind not_noRefusal_refused h
  obtain ⟨-, rfl⟩ := Service.exec_ensure_eq_ok.mp hmethod
  have hid : r.id = user.identityId := (Table.selectOne_key.mp hr).2
  have hr' : s.db.identity identity.id = some r := by
    rw [← hidentity]
    exact hid ▸ hr
  rcases exec_bind_eq_error.mp h with hcheck | ⟨_, s₆, -, h⟩
  · obtain ⟨r', hr'', hcounted⟩ := exec_checkPassword_refused hr' hcheck
    refine ⟨identity.id, ?_⟩
    unfold Db.lockout
    rw [hr', hr'']
    intro heq
    have hattempts := (Prod.mk.inj (Option.some.inj heq)).1
    omega
  · have hrest : ((IdentitiesRepo.clearFailedAttempts identity.id).bind fun _ =>
        finalizeLogin w tenantId user identity ip userAgent).Raises NoRefusal :=
      (raises_execute _).bind fun _ => raises_finalizeLogin hdecrypt _ _ _ _ _
    exact absurd (hrest.exec h) not_noRefusal_refused

end Counted

/-! ### Two spellings -/

section Spellings

open Program

variable {w : World} {s : State} {tenantId password : String} {ip userAgent : Option String}
  {email email' : String}

theorem Db.member_identity {db : Db} {u : User} (h : db.member tenantId email = some u) :
    ∃ r ∈ db.identities, r.id = u.identityId ∧ r.email = some email := by
  obtain ⟨row, -, i, hi, rfl⟩ := Db.mem_memberships.mp (List.mem_of_find?_eq_some h)
  have hp := List.find?_some h
  simp only [User.ofRows_email, Bool.and_eq_true, decide_eq_true_eq] at hp
  obtain ⟨hmem, hid⟩ := Table.selectOne_key.mp hi
  exact ⟨i, hmem, hid, hp.2⟩

/-- At most one spelling is the stored one. -/
theorem Db.EmailsUnique.member_none (hunique : s.db.EmailsUnique w.lower)
    (hlower : FoldsAsciiCase w.lower) (h : EqIgnoreAsciiCase email email') (hne : email ≠ email')
    {u : User} (hu : s.db.member tenantId email = some u) : s.db.member tenantId email' = none := by
  cases hu' : s.db.member tenantId email' with
  | none => rfl
  | some u' =>
    obtain ⟨r, hr, -, he⟩ := Db.member_identity hu
    obtain ⟨r', hr', -, he'⟩ := Db.member_identity hu'
    obtain rfl := hunique r hr r' hr' email he email' he' (hlower _ _ h)
    exact absurd (Option.some.inj (he.symm.trans he')) hne

theorem permitsEmail_congr (hfold : FoldsAsciiCase w.toLowercase)
    (h : EqIgnoreAsciiCase email email') :
    s.db.permitsEmail w tenantId email ↔ s.db.permitsEmail w tenantId email' := by
  simp only [Db.permitsEmail, domainPermitted_congr hfold h]

/-- An unknown email is refused, and nothing is changed. -/
theorem exec_loginEmailPassword_unknown (hpermits : s.db.permitsEmail w tenantId email)
    (hnone : s.db.member tenantId email = none) :
    (loginEmailPassword w tenantId email password ip userAgent).exec (handle w) s =
      (.error refused, s) := by
  rw [loginEmailPassword, Program.bind_eq,
    exec_bind_ok _ (exec_ensureEmailDomainAllowed_eq_ok.mpr ⟨hpermits, rfl⟩)]
  change ((Service.okOr (s.db.member tenantId email) _).bind _).exec (handle w) s = _
  rw [hnone]
  rfl

theorem exec_loginEmailPassword_member {u : User} (hpermits : s.db.permitsEmail w tenantId email)
    (hu : s.db.member tenantId email = some u) :
    (loginEmailPassword w tenantId email password ip userAgent).exec (handle w) s =
      (doPasswordLogin w tenantId u password ip userAgent LOGIN_METHOD_EMAIL_PASSWORD).exec
        (handle w) s := by
  rw [loginEmailPassword_eq, exec_bind_ok _ (exec_emailMember_eq_ok.mpr ⟨hpermits, hu, rfl⟩)]

/-- The stored spelling is checked, another one is not. -/
theorem not_sameLogin (hdecrypt : w.DecryptsOrInternal) {u : User}
    (hpermits : s.db.permitsEmail w tenantId email) (hu : s.db.member tenantId email = some u)
    (hpermits' : s.db.permitsEmail w tenantId email') (hnone : s.db.member tenantId email' = none) :
    ¬SameLogin w s tenantId ip userAgent email email' password := by
  rintro ⟨houtcome, hlockouts⟩
  rw [exec_loginEmailPassword_unknown hpermits' hnone] at houtcome hlockouts
  rw [exec_loginEmailPassword_member hpermits hu] at houtcome hlockouts
  rcases hlogin : (doPasswordLogin w tenantId u password ip userAgent
    LOGIN_METHOD_EMAIL_PASSWORD).exec (handle w) s with ⟨o, s'⟩
  rw [hlogin] at houtcome hlockouts
  subst houtcome
  obtain ⟨id, hne⟩ := doPasswordLogin_counts hdecrypt hlogin
  exact hne (hlockouts id)

theorem SameLogin.symm (h : SameLogin w s tenantId ip userAgent email email' password) :
    SameLogin w s tenantId ip userAgent email' email password :=
  ⟨h.1.symm, fun id => (h.2 id).symm⟩

/-- The allowlist refuses all spellings in the same way. -/
theorem exec_loginEmailPassword_refused (hfold : FoldsAsciiCase w.toLowercase)
    (h : EqIgnoreAsciiCase email email') (hrefused : ¬s.db.permitsEmail w tenantId email) :
    (loginEmailPassword w tenantId email password ip userAgent).exec (handle w) s =
      (loginEmailPassword w tenantId email' password ip userAgent).exec (handle w) s := by
  unfold loginEmailPassword
  rw [ensureEmailDomainAllowed_congr hfold h] at *
  rcases hgate : (ensureEmailDomainAllowed w tenantId email').exec (handle w) s with ⟨e | _, s₁⟩
  · exact (exec_bind_error _ hgate _).trans (exec_bind_error _ hgate _).symm
  · rw [permitsEmail_congr hfold h] at hrefused
    exact absurd (exec_ensureEmailDomainAllowed_eq_ok.mp hgate).1 hrefused

/-- **When two spellings of an email are the same login.** -/
theorem sameLogin_iff (hlower : FoldsAsciiCase w.lower) (hfold : FoldsAsciiCase w.toLowercase)
    (hdecrypt : w.DecryptsOrInternal) (hunique : s.db.EmailsUnique w.lower)
    (h : EqIgnoreAsciiCase email email') :
    SameLogin w s tenantId ip userAgent email email' password ↔
      email = email' ∨ ¬s.db.permitsEmail w tenantId email ∨
        (s.db.member tenantId email = none ∧ s.db.member tenantId email' = none) := by
  constructor
  · intro hsame
    by_contra hneither
    simp only [not_or, not_and_or, not_not] at hneither
    obtain ⟨hne, hpermits, hmember⟩ := hneither
    have hpermits' := (permitsEmail_congr hfold h).mp hpermits
    rcases hmember with hmember | hmember
    · obtain ⟨u, hu⟩ := Option.ne_none_iff_exists'.mp hmember
      exact not_sameLogin hdecrypt hpermits hu hpermits' (hunique.member_none hlower h hne hu) hsame
    · obtain ⟨u, hu⟩ := Option.ne_none_iff_exists'.mp hmember
      exact not_sameLogin hdecrypt hpermits' hu hpermits
        (hunique.member_none hlower h.symm (Ne.symm hne) hu) hsame.symm
  · intro hcases
    by_cases hpermits : s.db.permitsEmail w tenantId email
    · rcases hcases with rfl | hrefused | ⟨hnone, hnone'⟩
      · exact ⟨rfl, fun _ => rfl⟩
      · exact absurd hpermits hrefused
      · unfold SameLogin
        rw [exec_loginEmailPassword_unknown hpermits hnone,
          exec_loginEmailPassword_unknown ((permitsEmail_congr hfold h).mp hpermits) hnone']
        exact ⟨rfl, fun _ => rfl⟩
    · unfold SameLogin
      rw [exec_loginEmailPassword_refused hfold h hpermits]
      exact ⟨rfl, fun _ => rfl⟩

/-- **The identity's member is found** by the spelling that is stored. -/
theorem emailMember_finds_iff (hunique : s.db.EmailsUnique w.lower) {i : Identity} {s₁ : State}
    (hi : (IdentitiesRepo.getByEmail (trim email)).exec (handle w) s = (.ok (some i), s₁))
    (hmember : ∃ m ∈ s.db.users, m.tenantId = tenantId ∧ m.identityId = i.id) :
    (∃ u s₂, (emailMember w tenantId email).exec (handle w) s = (.ok u, s₂) ∧
        u.identityId = i.id) ↔ i.email = some email ∧ s.db.permitsEmail w tenantId email := by
  have hread : some i = (s.db.identities.selectOne
      (Db.emailIs (s.sqlEnv w) (trim email))).map IdentityRow.toIdentity :=
    (exec_lookup_alone (fun _ _ => rfl) hi).1
  obtain ⟨r, hfound, rfl⟩ := Option.map_eq_some_iff.mp hread.symm
  have hr := Table.selectOne_mem hfound
  simp only [exec_emailMember_eq_ok]
  constructor
  · rintro ⟨u, s₂, ⟨hpermits, hu, rfl⟩, hid⟩
    obtain ⟨r', hr', hid', he⟩ := Db.member_identity hu
    obtain rfl := Table.eq_of_key_eq hr' hr (hid'.trans hid)
    exact ⟨he, hpermits⟩
  · rintro ⟨he, hpermits⟩
    obtain ⟨m, hm, rfl, hid⟩ := hmember
    have hjoined : User.ofRows m r.toIdentity ∈ s.db.memberships :=
      Db.mem_memberships.mpr ⟨m, hm, r, Table.selectOne_key.mpr ⟨hr, hid.symm⟩, rfl⟩
    have hsome : (s.db.member m.tenantId email).isSome = true :=
      List.find?_isSome.mpr ⟨_, hjoined, by simp [he]⟩
    obtain ⟨u, hu⟩ := Option.isSome_iff_exists.mp hsome
    obtain ⟨r', hr', hid', he'⟩ := Db.member_identity hu
    obtain rfl := hunique r hr r' hr' email he email he' rfl
    exact ⟨u, s, ⟨hpermits, hu, rfl⟩, hid'.symm⟩

/-- **Email logins and letter case**: two spellings are the same login exactly when they are one
text, or the allowlist does not permit them, or neither is stored for a member; and the member whose
identity `login_identity` finds is found exactly by the stored spelling. -/
theorem login_email_case_iff (hlower : FoldsAsciiCase w.lower) (hfold : FoldsAsciiCase w.toLowercase)
    (hdecrypt : w.DecryptsOrInternal) (hunique : s.db.EmailsUnique w.lower)
    (h : EqIgnoreAsciiCase email email') :
    (SameLogin w s tenantId ip userAgent email email' password ↔
      email = email' ∨ ¬s.db.permitsEmail w tenantId email ∨
        (s.db.member tenantId email = none ∧ s.db.member tenantId email' = none)) ∧
    ∀ i s₁, (IdentitiesRepo.getByEmail (trim email)).exec (handle w) s = (.ok (some i), s₁) →
      (∃ m ∈ s.db.users, m.tenantId = tenantId ∧ m.identityId = i.id) →
        ((∃ u s₂, (emailMember w tenantId email).exec (handle w) s = (.ok u, s₂) ∧
            u.identityId = i.id) ↔
          i.email = some email ∧ s.db.permitsEmail w tenantId email) :=
  ⟨sameLogin_iff hlower hfold hdecrypt hunique h, fun _ _ => emailMember_finds_iff hunique⟩

end Spellings

/-! ### A member who signed up with a capital -/

/-- A member of the tenant, with a password. -/
def annWithCapital : State :=
  .ofDb { Db.empty with
    tenants := acmeAndGlobex
    identities := .single (IdentityRow.ofHandles ⟨0, id, fun _ => 7⟩ (some "Ann@acme.example") none
      none none none (some ":correct horse"))
    users := .single ⟨1, "acme", 7, none, "active", none, 0, 0⟩ } 0

theorem World.offline_foldsAsciiCase :
    FoldsAsciiCase World.offline.lower ∧ FoldsAsciiCase World.offline.toLowercase :=
  ⟨fun _ _ h => congrArg String.ofList h, fun _ _ h => congrArg String.ofList h⟩

theorem World.offline_decryptsOrInternal : World.offline.DecryptsOrInternal := by
  intro cipher e h
  cases h

theorem annWithCapital_emailsUnique : annWithCapital.db.EmailsUnique World.offline.lower := by
  intro r hr r' hr' _ _ _ _ _
  obtain rfl := List.mem_singleton.mp hr
  exact (List.mem_singleton.mp hr').symm

theorem annWithCapital_permits (email : String) :
    annWithCapital.db.permitsEmail .offline "acme" email :=
  ⟨none, rfl, .inl rfl⟩

/-- What the lookups find, and which spellings are those of one address. -/
theorem annWithCapital_facts :
    (annWithCapital.db.member "acme" "Ann@acme.example").isSome = true ∧
      annWithCapital.db.member "acme" "bob@acme.example" = none ∧
      annWithCapital.db.member "acme" "Bob@acme.example" = none ∧
      (annWithCapital.db.identities.selectOne (Db.emailIs (annWithCapital.sqlEnv .offline)
        (trim "Ann@acme.example"))).map IdentityRow.toIdentity =
          annWithCapital.db.identities.rows.head?.map IdentityRow.toIdentity ∧
      EqIgnoreAsciiCase "bob@acme.example" "Bob@acme.example" ∧
      EqIgnoreAsciiCase "Ann@acme.example" "ann@acme.example" ∧
      "Ann@acme.example" ≠ "ann@acme.example" := by
  decide +kernel

theorem annWithCapital_byEmail :
    (IdentitiesRepo.getByEmail (trim "Ann@acme.example")).exec (handle .offline) annWithCapital =
      (.ok (annWithCapital.db.identities.rows.head?.map IdentityRow.toIdentity), annWithCapital) := by
  obtain ⟨-, -, -, hfound, -⟩ := annWithCapital_facts
  refine exec_query_read ?_ rfl
  exact congrArg (fun x => Except.ok (x, annWithCapital.db)) hfound

theorem login_email_case_iff_annWithCapital :
    SameLogin .offline annWithCapital "acme" none none "bob@acme.example" "Bob@acme.example" "secret" ∧
      ∃ u s₂, (emailMember .offline "acme" "Ann@acme.example").exec (handle .offline)
        annWithCapital = (.ok u, s₂) ∧ u.identityId = 7 := by
  obtain ⟨hlower, hfold⟩ := World.offline_foldsAsciiCase
  obtain ⟨-, hbob, hBob, -, hcase, -⟩ := annWithCapital_facts
  have hunknown := @login_email_case_iff .offline annWithCapital "acme" "secret" none none
    "bob@acme.example" "Bob@acme.example" hlower hfold World.offline_decryptsOrInternal
    annWithCapital_emailsUnique hcase
  have hknown := @login_email_case_iff .offline annWithCapital "acme" "secret" none none
    "Ann@acme.example" "Ann@acme.example" hlower hfold World.offline_decryptsOrInternal
    annWithCapital_emailsUnique rfl
  constructor
  · exact hunknown.1.mpr (.inr (.inr ⟨hbob, hBob⟩))
  · refine (hknown.2 _ _ annWithCapital_byEmail ⟨_, List.mem_singleton_self _, rfl, rfl⟩).mpr ?_
    exact ⟨rfl, annWithCapital_permits _⟩

/-- **A member who signed up with a capital is refused without it**, though her identity is found. -/
theorem capital_refused :
    ¬ ∀ (w : World) (s : State) (tenantId email email' password : String)
        (ip userAgent : Option String),
      FoldsAsciiCase w.lower → FoldsAsciiCase w.toLowercase → w.DecryptsOrInternal →
      s.db.EmailsUnique w.lower → EqIgnoreAsciiCase email email' →
      SameLogin w s tenantId ip userAgent email email' password ∧
        ∀ i s₁, (IdentitiesRepo.getByEmail (trim email)).exec (handle w) s = (.ok (some i), s₁) →
          (∃ m ∈ s.db.users, m.tenantId = tenantId ∧ m.identityId = i.id) →
            ∃ u s₂, (emailMember w tenantId email).exec (handle w) s = (.ok u, s₂) ∧
              u.identityId = i.id := by
  intro h
  obtain ⟨hlower, hfold⟩ := World.offline_foldsAsciiCase
  obtain ⟨hsome, -, -, -, -, hcase, hne⟩ := annWithCapital_facts
  have hsame := (h .offline annWithCapital "acme" _ _ "secret" none none hlower hfold
    World.offline_decryptsOrInternal annWithCapital_emailsUnique hcase).1
  rcases (sameLogin_iff hlower hfold World.offline_decryptsOrInternal annWithCapital_emailsUnique
    hcase).mp hsame with heq | hrefused | ⟨hnone, -⟩
  · exact absurd heq hne
  · exact hrefused (annWithCapital_permits _)
  · rw [hnone] at hsome
    cases hsome

end Authrs
