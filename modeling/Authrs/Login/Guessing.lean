import Authrs.Interaction.Paced
import Authrs.Login.Clients
import Authrs.Store.IdentityRow

/-!
# Guessing is limited per identity

Four calls check a credential: the two password logins of a tenant, the login by identity, and the
second step of an MFA login. Each first has its gates, the lock of the identity among them, and a
wrong credential counts against the identity, whichever call presented it. So wrong guesses, one
call after the other, are all counted, and from the fifth on they are as far apart as a lock lasts.

## Main definitions

* `Guess`, `Guess.call`: the calls
* `Guess.reach`, `Guess.check`, `Guess.refuse`: a call up to its check, the check, and what follows a
  wrong credential
* `GuessRun w id`: a run of wrong guesses, with the times of the checks

## Main results

* `Guess.run_eq`: a call is its parts
* `guesses_limited`: the counter, the lock and the distance of the checks
-/

namespace Authrs

open Interaction AuthService

/-! ### Calls that check a credential -/

inductive Guess
  | emailPassword (tenantId email password : String)
  | usernamePassword (tenantId username password : String)
  | identityPassword (email password : String)
  | secondFactor (mfaToken code : String)

section Parts

variable (w : World) (ip userAgent : Option String)

/-- The call. -/
def Guess.call : Guess → ClientCall
  | emailPassword tenantId email password =>
    .login ip userAgent (.emailPassword tenantId email password)
  | usernamePassword tenantId username password =>
    .login ip userAgent (.usernamePassword tenantId username password)
  | identityPassword email password => .identityLogin email password
  | secondFactor mfaToken code => .login ip userAgent (.completeMfa mfaToken code)

/-- A call at its check: the identity, and what follows when the credential is right. -/
structure Reached where
  identity : Identity
  proceed : Service Unit

/-- A password login up to its check. -/
def reachPassword (tenantId : String) (user : User) (method : Int) : Service Reached := do
  let identity ← loadIdentity user.identityId
  checkGates user identity
  let effective ← effectiveLoginMethods w tenantId user
  Service.ensure (method ∈ effective)
    (.forbidden "This login method is not allowed for your account")
  pure {
    identity := identity
    proceed := do
      IdentitiesRepo.clearFailedAttempts identity.id
      let _ ← finalizeLogin w tenantId user identity ip userAgent
      pure () }

/-- **The call up to its check.** -/
def Guess.reach : Guess → Service Reached
  | emailPassword tenantId email _ => do
    ensureEmailDomainAllowed w tenantId email
    let user ← UsersRepo.getByEmail tenantId email
    let user ← Service.okOr user (.unauthorized "Invalid email or password")
    reachPassword w ip userAgent tenantId user LOGIN_METHOD_EMAIL_PASSWORD
  | usernamePassword tenantId username _ => do
    let user ← UsersRepo.getByUsername tenantId username
    let user ← Service.okOr user (.unauthorized "Invalid username or password")
    reachPassword w ip userAgent tenantId user LOGIN_METHOD_USERNAME_PASSWORD
  | identityPassword email _ => do
    let identity ← IdentitiesRepo.getByEmail (trim email)
    let identity ← Service.okOr identity (.unauthorized "Invalid credentials")
    Service.ensure (identity.status = "active") (.forbidden "Account is not active")
    checkLock identity
    pure {
      identity := identity
      proceed := do
        IdentitiesRepo.clearFailedAttempts identity.id
        let identityToken ← randomToken
        let now ← utcNow
        IdentityTokensRepo.create identity.id identityToken
          (now + minutes IDENTITY_TOKEN_TTL_MINS)
        let _ ← tenantsForIdentity identity.id
        pure () }
  | secondFactor mfaToken _ => do
    let challenge ← MfaRepo.getChallenge mfaToken
    let challenge ← Service.okOr challenge (.unauthorized "Invalid or expired MFA token")
    refuseExhausted mfaToken challenge
    let user ← UsersRepo.getById challenge.tenantId challenge.userId
    let user ← Service.okOr user (.unauthorized "Invalid or expired MFA token")
    let identity ← loadIdentity user.identityId
    checkGates user identity
    pure {
      identity := identity
      proceed := do
        let redeemed ← MfaRepo.deleteChallenge mfaToken
        Service.ensure (redeemed = true) (.unauthorized "Invalid or expired MFA token")
        IdentitiesRepo.clearFailedAttempts identity.id
        let _ ← doCreateSession w challenge.tenantId user ip userAgent
        pure () }

/-- The check of a password. -/
def checkSecret (password : String) (identity : Identity) : Service Bool := do
  let passwordHash ← Service.okOr identity.passwordHash (.unauthorized "Invalid credentials")
  verifyPassword w passwordHash password

/-- **The check.** -/
def Guess.check : Guess → Identity → Service Bool
  | emailPassword _ _ password, identity => checkSecret w password identity
  | usernamePassword _ _ password, identity => checkSecret w password identity
  | identityPassword _ password, identity => checkSecret w password identity
  | secondFactor _ code, identity => MfaService.verify w identity code

/-- The attempt is counted, and the call refused. -/
def refuseWith (message : String) (identity : Identity) : Service Unit := do
  registerFailedAttempt w identity
  Service.throw (.unauthorized message)

/-- **What follows a wrong credential.** -/
def Guess.refuse : Guess → Identity → Service Unit
  | emailPassword .., identity => refuseWith w "Invalid email or password" identity
  | usernamePassword .., identity => refuseWith w "Invalid email or password" identity
  | identityPassword .., identity => refuseWith w "Invalid credentials" identity
  | secondFactor mfaToken _, identity => do
    MfaRepo.incrementChallengeAttempts mfaToken
    refuseWith w "Invalid MFA code" identity

open Program

/-- **A call is its parts.** -/
theorem Guess.run_eq (g : Guess) :
    (g.call ip userAgent).run w = (g.reach w ip userAgent).bind fun r =>
      (g.check w r.identity).bind fun right =>
        if right = true then r.proceed else g.refuse w r.identity := by
  -- Both checks compare first and refuse afterwards.
  have hpassword : ∀ (password message : String) (identity : Identity) (p : Service Unit),
      (checkPassword w identity password message).bind (fun _ => p) =
        (checkSecret w password identity).bind fun right =>
          if right = true then p else refuseWith w message identity := by
    intro password message identity p
    simp only [checkPassword, checkSecret, refuseWith, bind_eq, bind_assoc]
    congr
    funext passwordHash
    congr
    funext right
    cases right with
    | true => rfl
    | false => simp [bind_assoc, Service.throw]
  have hfactor : ∀ (mfaToken code : String) (identity : Identity) (p : Service Unit),
      (checkSecondFactor w mfaToken identity code).bind (fun _ => p) =
        (MfaService.verify w identity code).bind fun right =>
          if right = true then p
          else (MfaRepo.incrementChallengeAttempts mfaToken).bind fun _ =>
            refuseWith w "Invalid MFA code" identity := by
    intro mfaToken code identity p
    simp only [checkSecondFactor, refuseWith, bind_eq, bind_assoc]
    congr
    funext right
    cases right with
    | true => rfl
    | false => simp [bind_assoc, Service.throw]
  cases g with
  | emailPassword tenantId email password =>
    simp only [Guess.call, ClientCall.run, LoginCall.run, Guess.reach, Guess.check, Guess.refuse,
      reachPassword, loginEmailPassword, doPasswordLogin, bind_eq, bind_assoc, pure_bind, pure_eq,
      hpassword]
  | usernamePassword tenantId username password =>
    simp only [Guess.call, ClientCall.run, LoginCall.run, Guess.reach, Guess.check, Guess.refuse,
      reachPassword, loginUsernamePassword, doPasswordLogin, bind_eq, bind_assoc, pure_bind, pure_eq,
      hpassword]
  | identityPassword email password =>
    simp only [Guess.call, ClientCall.run, Guess.reach, Guess.check, Guess.refuse,
      loginIdentity, bind_eq, bind_assoc, pure_bind, pure_eq, hpassword]
  | secondFactor mfaToken code =>
    simp only [Guess.call, ClientCall.run, LoginCall.run, Guess.reach, Guess.check, Guess.refuse,
      completeMfaLogin, bind_eq, bind_assoc, pure_bind, pure_eq, hfactor]

end Parts

/-! ### Runs of wrong guesses -/

section Runs

variable (w : World)

/-- The requests of a call, with time passing between them. -/
abbrev timed : Handler authrs (State × List Nat) := Handler.paced (handle w) State.tick

variable (ip userAgent : Option String)

/-- The state after a call, with the time that passed before its requests. -/
def Guess.after (g : Guess) (s : State) (ds : List Nat) : State :=
  (((g.call ip userAgent).run w).exec (timed w) (s, ds)).2.1

/-- The instants at which a call checks a credential of the identity `id`: none or one. -/
def Guess.checks (id : Uuid) (g : Guess) (s : State) (ds : List Nat) : List Time :=
  match (g.reach w ip userAgent).exec (timed w) (s, ds) with
  | (.error _, _) => []
  | (.ok r, x) =>
    match (g.check w r.identity).exec (timed w) x with
    | (.error _, _) => []
    | (.ok _, _) => if r.identity.id = id then [x.1.now] else []

/-- The credential of a call is not right. -/
def Guess.Wrong (g : Guess) (s : State) (ds : List Nat) : Prop :=
  ∀ r x y, (g.reach w ip userAgent).exec (timed w) (s, ds) = (.ok r, x) →
    (g.check w r.identity).exec (timed w) x ≠ (.ok true, y)

/-- **A run of wrong guesses**, one call after the other, with the times at which credentials of the
identity `id` were checked. Between the calls anything may happen that does not touch its row. -/
inductive GuessRun (id : Uuid) : State → List Time → State → Prop
  | start (s : State) : GuessRun id s [] s
  | other {s s' s'' : State} {ts : List Time} (h : GuessRun id s ts s')
    (hrow : s''.db.identity id = s'.db.identity id) (hnow : s'.now ≤ s''.now) : GuessRun id s ts s''
  | call {s s' : State} {ts : List Time} (h : GuessRun id s ts s') (g : Guess)
    (ip userAgent : Option String) (ds : List Nat) (hwrong : g.Wrong w ip userAgent s' ds) :
    GuessRun id s (ts ++ g.checks w ip userAgent id s' ds) (g.after w ip userAgent s' ds)

/-- From the fifth on, checks are as far apart as a lock lasts. -/
def FarApart (ts : List Time) : Prop :=
  ∀ i a b, DEFAULT_LOCK_AFTER_ATTEMPTS ≤ i + 1 → ts[i]? = some a → ts[i + 1]? = some b →
    a + minutes DEFAULT_LOCK_DURATION_MINS ≤ b

end Runs

/-! ### What the parts do -/

section Exchanges

open Program

variable {w : World} {id : Uuid} {x x' x'' : State × List Nat} {α : Type}

theorem now_le_tick (d : Nat) (s : State) : s.now ≤ (s.tick d).now :=
  Int.le_add_of_nonneg_right (Int.natCast_nonneg d)

/-- The tables stay, and the clock does not go back. -/
def Idle (x x' : State × List Nat) : Prop := x'.1.db = x.1.db ∧ x.1.now ≤ x'.1.now

theorem Idle.refl (x : State × List Nat) : Idle x x := ⟨rfl, le_refl _⟩

theorem Idle.trans (h : Idle x x') (h' : Idle x' x'') : Idle x x'' :=
  ⟨h'.1.trans h.1, le_trans h.2 h'.2⟩

/-- What only reads is idle. -/
theorem idle_exec {p : Service α} (hp : p.Asks (KeepsDb w)) : Idle x (p.exec (timed w) x).2 := by
  refine hp.paced_invariant (J := fun s : State => s.db = x.1.db ∧ x.1.now ≤ s.now) ?_ ?_ (Idle.refl x)
  · rintro q hq s ⟨hdb, hnow⟩
    refine ⟨(hq s).trans hdb, ?_⟩
    rw [handle_now]
    exact hnow
  · rintro d s ⟨hdb, hnow⟩
    exact ⟨hdb, le_trans hnow (now_le_tick d s)⟩

theorem idle_of_exec {p : Service α} (hp : p.Asks (KeepsDb w)) {o : Except Failure α}
    (h : p.exec (timed w) x = (o, x')) : Idle x x' := by
  have hidle := idle_exec (x := x) hp
  rw [h] at hidle
  exact hidle

/-- A request is made in an idle state, at once or after some time. -/
theorem timed_cases (q : Request) (x : State × List Nat) :
    ∃ s ds, s.db = x.1.db ∧ x.1.now ≤ s.now ∧
      timed w q x = ((handle w q s).1, ((handle w q s).2, ds)) := by
  obtain ⟨s, ds, hs, heq⟩ := @paced_cases _ _ _ (handle w) State.tick q x
  refine ⟨s, ds, ?_, ?_, heq⟩
  · rcases hs with rfl | ⟨d, rfl⟩
    · rfl
    · rfl
  · rcases hs with rfl | ⟨d, rfl⟩
    · exact le_refl _
    · exact now_le_tick d _

/-- A statement that only reads, with what it finds. -/
theorem exec_lookup {q : Sql} {rows : SqlEnv → Db → q.Rows}
    (hread : ∀ env db, q.exec env db = .ok (rows env db, db)) {r : q.Rows}
    (h : (query q).exec (timed w) x = (.ok r, x')) :
    Idle x x' ∧ ∃ env, r = rows env x.1.db := by
  have hkeeps : KeepsDb w (.sql q) := by
    refine keepsDb_sql fun env db r' db' he => ?_
    rw [hread] at he
    exact (Prod.mk.inj (Except.ok.inj he)).2.symm
  refine ⟨idle_of_exec (asks_query hkeeps) h, ?_⟩
  obtain ⟨s, ds, hdb, -, heq⟩ := timed_cases (w := w) (.sql q) x
  have hreply : (handle w (.sql q) s).1 = .ok (rows (s.sqlEnv w) s.db) := by
    simp only [handle, hread]
    rfl
  have hexec : (query q).exec (timed w) x =
      (.ok (rows (s.sqlEnv w) s.db), (handle w (.sql q) s).2, ds) := by
    change ((Service.ofResult (((timed w (.sql q) x).1 : Except SqlError q.Rows).mapError
      AppError.ofSqlError)).exec (timed w) (timed w (.sql q) x).2) = _
    rw [heq, hreply]
    rfl
  rw [hexec] at h
  refine ⟨s.sqlEnv w, ?_⟩
  rw [← hdb]
  exact (Except.ok.inj (Prod.mk.inj h).1).symm

/-- A statement that reads. -/
theorem reads_query {q : Sql} (hread : ∀ env db, ∃ rows, q.exec env db = .ok (rows, db)) :
    (query q).Asks (KeepsDb w) := by
  refine asks_query (keepsDb_sql fun env db r db' he => ?_)
  obtain ⟨rows, hrows⟩ := hread env db
  rw [hrows] at he
  exact (Prod.mk.inj (Except.ok.inj he)).2.symm

theorem reads_clock : utcNow.Asks (KeepsDb w) := ⟨fun _ => rfl, fun _ => trivial⟩

theorem reads_getTyped {β : Type} (tenantId groupKey key : String) (fromValue : Json → Option β) :
    (TenantConfigLoader.getTyped w tenantId groupKey key fromValue).Asks (KeepsDb w) := by
  refine Asks.bind (p := TenantConfigLoader.get w tenantId groupKey key) ?_ fun _ => trivial
  exact (reads_query fun _ _ => ⟨_, rfl⟩).bind fun _ => asks_ofExcept _

theorem reads_checkAccess (user : User) : (checkAccess user).Asks (KeepsDb w) := by
  unfold checkAccess
  cases user.accessValidUntil with
  | none => trivial
  | some t => exact reads_clock.bind fun _ => asks_ensure _ _

theorem reads_checkLock (identity : Identity) : (checkLock identity).Asks (KeepsDb w) := by
  unfold checkLock
  cases identity.lockedUntil with
  | none => trivial
  | some l => exact reads_clock.bind fun _ => asks_ensure _ _

theorem reads_checkGates (user : User) (identity : Identity) :
    (checkGates user identity).Asks (KeepsDb w) :=
  (asks_ensure _ _).bind fun _ => (reads_checkLock identity).bind fun _ => reads_checkAccess user

theorem reads_loadIdentity (identityId : Uuid) : (loadIdentity identityId).Asks (KeepsDb w) :=
  (reads_query fun _ _ => ⟨_, rfl⟩).bind fun _ => asks_okOr _ _

theorem reads_effectiveLoginMethods (tenantId : String) (user : User) :
    (effectiveLoginMethods w tenantId user).Asks (KeepsDb w) :=
  (reads_getTyped _ _ _ _).bind fun _ => trivial

theorem reads_ensureEmailDomainAllowed (tenantId email : String) :
    (ensureEmailDomainAllowed w tenantId email).Asks (KeepsDb w) :=
  (reads_getTyped _ _ _ _).bind fun _ => asks_ensure _ _

/-- An identity that is not locked at present. -/
theorem exec_checkLock {identity : Identity} (h : (checkLock identity).exec (timed w) x = (.ok (), x')) :
    ∀ l ∈ identity.lockedUntil, l ≤ x'.1.now := by
  intro l hl
  unfold checkLock at h
  rw [hl] at h
  obtain ⟨t, y, hclock, hensure⟩ := (exec_bind_eq_ok _).mp h
  obtain ⟨hlt, rfl⟩ := exec_ensure_eq_ok.mp hensure
  obtain ⟨s, ds, -, -, heq⟩ := timed_cases (w := w) .clock x
  have hexec : utcNow.exec (timed w) x = (.ok s.now, s, ds) := by
    change ((.ok (timed w .clock x).1 : Except Failure Time), (timed w .clock x).2) = _
    rw [heq]
    rfl
  rw [hexec] at hclock
  obtain ⟨ht, hy⟩ := Prod.mk.inj hclock
  rw [← Except.ok.inj ht] at hlt
  rw [← hy]
  exact not_lt.mp hlt

/-- **The identity of a call at its check**: as its row was read, and not locked by then. -/
structure AtCheck (x x' : State × List Nat) (identity : Identity) : Prop where
  idle : Idle x x'
  row : ∃ row, x.1.db.identity identity.id = some row ∧ row.toIdentity = identity
  unlocked : ∀ l ∈ identity.lockedUntil, l ≤ x'.1.now

theorem exec_loadIdentity {identityId : Uuid} {identity : Identity}
    (h : (loadIdentity identityId).exec (timed w) x = (.ok identity, x')) :
    Idle x x' ∧ ∃ row, x.1.db.identity identity.id = some row ∧ row.toIdentity = identity := by
  obtain ⟨found, y, hget, hsome⟩ := (exec_bind_eq_ok _).mp h
  obtain ⟨rfl, rfl⟩ := exec_okOr_eq_ok.mp hsome
  obtain ⟨hidle, env, hrow⟩ := exec_lookup (fun _ _ => rfl) hget
  obtain ⟨row, hfound, rfl⟩ := Option.map_eq_some_iff.mp hrow.symm
  have hid : row.id = identityId := (Relational.Table.selectOne_key.mp hfound).2
  exact ⟨hidle, row, hid ▸ hfound, rfl⟩

/-- The gates, after the identity was read. -/
theorem atCheck_checkGates {identity : Identity} {user : User} (hidle : Idle x x')
    (hrow : ∃ row, x.1.db.identity identity.id = some row ∧ row.toIdentity = identity)
    (h : (checkGates user identity).exec (timed w) x' = (.ok (), x'')) : AtCheck x x'' identity := by
  refine ⟨hidle.trans (idle_of_exec (reads_checkGates user identity) h), hrow, fun l hl => ?_⟩
  obtain ⟨_, y, hensure, h⟩ := (exec_bind_eq_ok _).mp h
  obtain ⟨_, z, hlock, haccess⟩ := (exec_bind_eq_ok _).mp h
  exact le_trans (exec_checkLock hlock l hl) (idle_of_exec (reads_checkAccess user) haccess).2

/-- Reading on keeps the call at its check. -/
theorem AtCheck.trans {identity : Identity} (h : AtCheck x x' identity) (h' : Idle x' x'') :
    AtCheck x x'' identity :=
  ⟨h.idle.trans h', h.row, fun l hl => le_trans (h.unlocked l hl) h'.2⟩

theorem AtCheck.of_idle {identity : Identity} (h : Idle x x') (h' : AtCheck x' x'' identity) :
    AtCheck x x'' identity := by
  obtain ⟨row, hrow, hidentity⟩ := h'.row
  rw [h.1] at hrow
  exact ⟨h.trans h'.idle, ⟨row, hrow, hidentity⟩, h'.unlocked⟩

theorem exec_reachPassword {ip userAgent : Option String} {tenantId : String} {user : User}
    {method : Int} {r : Reached}
    (h : (reachPassword w ip userAgent tenantId user method).exec (timed w) x = (.ok r, x')) :
    AtCheck x x' r.identity := by
  obtain ⟨identity, y, hload, h⟩ := (exec_bind_eq_ok _).mp h
  obtain ⟨_, z, hgates, h⟩ := (exec_bind_eq_ok _).mp h
  obtain ⟨effective, u, hmethods, h⟩ := (exec_bind_eq_ok _).mp h
  obtain ⟨_, v, hensure, h⟩ := (exec_bind_eq_ok _).mp h
  obtain ⟨-, rfl⟩ := exec_ensure_eq_ok.mp hensure
  obtain ⟨rfl, rfl⟩ := Prod.mk.inj h |>.imp_left Except.ok.inj
  obtain ⟨hidle, hrow⟩ := exec_loadIdentity hload
  exact (atCheck_checkGates hidle hrow hgates).trans
    (idle_of_exec (reads_effectiveLoginMethods tenantId user) hmethods)

/-- The challenge of a call can be counted up. -/
def Guess.Countable (g : Guess) (db : Db) : Prop :=
  match g with
  | secondFactor mfaToken _ => ∀ c ∈ db.mfaChallenges, c.token = mfaToken → c.attemptCount < maxInt
  | _ => True

/-- **A call that reaches its check.** -/
theorem Guess.exec_reach {g : Guess} {ip userAgent : Option String} {r : Reached}
    (h : (g.reach w ip userAgent).exec (timed w) x = (.ok r, x')) :
    AtCheck x x' r.identity ∧ g.Countable x.1.db := by
  cases g with
  | emailPassword tenantId email password =>
    obtain ⟨_, y, hdomain, h⟩ := (exec_bind_eq_ok _).mp h
    obtain ⟨found, z, huser, h⟩ := (exec_bind_eq_ok _).mp h
    obtain ⟨user, u, hsome, h⟩ := (exec_bind_eq_ok _).mp h
    obtain ⟨-, rfl⟩ := exec_okOr_eq_ok.mp hsome
    have hidle := (idle_of_exec (reads_ensureEmailDomainAllowed tenantId email) hdomain).trans
      (idle_of_exec (reads_query fun _ _ => ⟨_, rfl⟩) huser)
    exact ⟨(exec_reachPassword h).of_idle hidle, trivial⟩
  | usernamePassword tenantId username password =>
    obtain ⟨found, z, huser, h⟩ := (exec_bind_eq_ok _).mp h
    obtain ⟨user, u, hsome, h⟩ := (exec_bind_eq_ok _).mp h
    obtain ⟨-, rfl⟩ := exec_okOr_eq_ok.mp hsome
    exact ⟨(exec_reachPassword h).of_idle (idle_of_exec (reads_query fun _ _ => ⟨_, rfl⟩) huser),
      trivial⟩
  | identityPassword email password =>
    obtain ⟨found, y, hget, h⟩ := (exec_bind_eq_ok _).mp h
    obtain ⟨identity, z, hsome, h⟩ := (exec_bind_eq_ok _).mp h
    obtain ⟨rfl, rfl⟩ := exec_okOr_eq_ok.mp hsome
    obtain ⟨_, u, hactive, h⟩ := (exec_bind_eq_ok _).mp h
    obtain ⟨-, rfl⟩ := exec_ensure_eq_ok.mp hactive
    obtain ⟨_, v, hlock, h⟩ := (exec_bind_eq_ok _).mp h
    obtain ⟨rfl, rfl⟩ := Prod.mk.inj h |>.imp_left Except.ok.inj
    obtain ⟨hidle, env, hrow⟩ := exec_lookup (fun _ _ => rfl) hget
    obtain ⟨row, hfound, rfl⟩ := Option.map_eq_some_iff.mp hrow.symm
    have hown : x.1.db.identity row.id = some row :=
      Relational.Table.selectOne_key.mpr ⟨Relational.Table.selectOne_mem hfound, rfl⟩
    have hlocked := idle_of_exec (reads_checkLock row.toIdentity) hlock
    exact ⟨⟨hidle.trans hlocked, ⟨row, hown, rfl⟩, exec_checkLock hlock⟩, trivial⟩
  | secondFactor mfaToken code =>
    obtain ⟨found, y, hget, h⟩ := (exec_bind_eq_ok _).mp h
    obtain ⟨challenge, z, hsome, h⟩ := (exec_bind_eq_ok _).mp h
    obtain ⟨rfl, rfl⟩ := exec_okOr_eq_ok.mp hsome
    obtain ⟨_, u, hrefuse, h⟩ := (exec_bind_eq_ok _).mp h
    obtain ⟨user, v, huser, h⟩ := (exec_bind_eq_ok _).mp h
    obtain ⟨_, a, hsome, h⟩ := (exec_bind_eq_ok _).mp h
    obtain ⟨rfl, rfl⟩ := exec_okOr_eq_ok.mp hsome
    obtain ⟨identity, b, hload, h⟩ := (exec_bind_eq_ok _).mp h
    obtain ⟨_, c, hgates, h⟩ := (exec_bind_eq_ok _).mp h
    obtain ⟨rfl, rfl⟩ := Prod.mk.inj h |>.imp_left Except.ok.inj
    obtain ⟨hidle, env, hrow⟩ := exec_lookup (fun _ _ => rfl) hget
    obtain ⟨row, hfound, rfl⟩ := Option.map_eq_some_iff.mp hrow.symm
    -- an exhausted challenge ends the call, so that this one has attempts left
    have hleft : row.attemptCount < MAX_MFA_ATTEMPTS ∧ y = u := by
      unfold refuseExhausted at hrefuse
      split at hrefuse
      · obtain ⟨_, d, -, hthrow⟩ := (exec_bind_eq_ok _).mp hrefuse
        cases hthrow
      · rename_i hcount
        exact ⟨not_le.mp hcount, (Prod.mk.inj hrefuse).2⟩
    obtain ⟨hcount, rfl⟩ := hleft
    obtain ⟨hidle', hidentity⟩ := exec_loadIdentity hload
    refine ⟨(atCheck_checkGates hidle' hidentity hgates).of_idle
      (hidle.trans (idle_of_exec (reads_query fun _ _ => ⟨_, rfl⟩) huser)), ?_⟩
    intro c hc htoken
    have hsame : c = row := by
      refine Relational.Table.eq_of_key_eq hc (Relational.Table.selectOne_mem hfound) ?_
      have hpos := Relational.Table.selectOne_pos hfound
      simp only [Bool.and_eq_true, decide_eq_true_eq] at hpos
      exact htoken.trans hpos.1.symm
    rw [hsame]
    exact lt_trans hcount (by decide)

end Exchanges

/-! ### The row of the identity -/

section Rows

open Program

variable {w : World} {id id' : Uuid} {x x' : State × List Nat} {α : Type} {n : Nat}
  {l : Option Time}

/-- The counter and the lock of an identity. -/
def Counts (n : Nat) (l : Option Time) (id : Uuid) (db : Db) : Prop :=
  ∃ r, db.identity id = some r ∧ r.failedAttempts = n ∧ r.lockedUntil = l

/-- A request that keeps the row of the identity `id`. -/
def KeepsIdentity (w : World) (id : Uuid) (q : Request) : Prop :=
  ∀ s r, s.db.identity id = some r → (handle w q s).2.db.identity id = some r

/-- A request that keeps the counter and the lock of the identity, and the challenges. -/
structure KeepsCounts (w : World) (id : Uuid) (q : Request) : Prop where
  counts : ∀ s n l, Counts n l id s.db → Counts n l id (handle w q s).2.db
  challenges : ∀ s, (handle w q s).2.db.mfaChallenges = s.db.mfaChallenges

theorem keepsIdentity_of_keepsDb {q : Request} (h : KeepsDb w q) : KeepsIdentity w id q := by
  intro s r hr
  rw [h s]
  exact hr

/-- Statements of other kinds. -/
theorem keepsIdentity_sql {q : Sql} (hq : ∀ y, q ≠ .identities y) : KeepsIdentity w id (.sql q) := by
  intro s r hr
  rcases handle_db (w := w) (s := s) (.sql q) with hdb | ⟨y, n, hy, hexec⟩
  · rw [hdb]
    exact hr
  · cases hy
    rw [Sql.exec_identity hexec hq]
    exact hr

theorem keepsIdentity_markStepUsed {step : Nat} (h : id' ≠ id) :
    KeepsIdentity w id (.sql (.identities (.markStepUsed id' step))) := by
  intro s r hr
  obtain ⟨r', hr', hchange⟩ := handle_identity (w := w) (.sql (.identities (.markStepUsed id' step))) hr
  cases hchange with
  | same => exact hr'
  | usedStep => exact absurd rfl h

theorem keepsIdentity_consumeBackupCode {codeHash : String} :
    KeepsIdentity w id (.sql (.identities (.consumeBackupCode id' codeHash))) := by
  intro s r hr
  obtain ⟨r', hr', hchange⟩ :=
    handle_identity (w := w) (.sql (.identities (.consumeBackupCode id' codeHash))) hr
  cases hchange with
  | same => exact hr'

theorem keepsIdentity_incrementFailedAttempts {lockUntil : Option Time} (h : id' ≠ id) :
    KeepsIdentity w id (.sql (.identities (.incrementFailedAttempts id' lockUntil))) := by
  intro s r hr
  obtain ⟨r', hr', hchange⟩ :=
    handle_identity (w := w) (.sql (.identities (.incrementFailedAttempts id' lockUntil))) hr
  cases hchange with
  | same => exact hr'
  | failedAttempt => exact absurd rfl h

theorem keepsCounts_clock : KeepsCounts w id .clock := ⟨fun _ _ _ h => h, fun _ => rfl⟩

theorem keepsCounts_identities {y : IdentityStmt}
    (hy : ∀ now r r', IdentityRow.Change now id (.sql (.identities y)) r r' →
      r'.failedAttempts = r.failedAttempts ∧ r'.lockedUntil = r.lockedUntil) :
    KeepsCounts w id (.sql (.identities y)) := by
  constructor
  · rintro s n l ⟨r, hr, hn, hl⟩
    obtain ⟨r', hr', hchange⟩ := handle_identity (w := w) (.sql (.identities y)) hr
    obtain ⟨hn', hl'⟩ := hy _ _ _ hchange
    exact ⟨r', hr', hn'.trans hn, hl'.trans hl⟩
  · intro s
    exact handle_mfaChallenges w s (by simp)

theorem keepsCounts_markStepUsed {step : Nat} :
    KeepsCounts w id (.sql (.identities (.markStepUsed id' step))) := by
  refine keepsCounts_identities fun now r r' h => ?_
  cases h with
  | same => exact ⟨rfl, rfl⟩
  | usedStep => exact ⟨rfl, rfl⟩

theorem keepsCounts_consumeBackupCode {codeHash : String} :
    KeepsCounts w id (.sql (.identities (.consumeBackupCode id' codeHash))) := by
  refine keepsCounts_identities fun now r r' h => ?_
  cases h with
  | same => exact ⟨rfl, rfl⟩

theorem verify_asks {S : Request → Prop} {identity : Identity} (hclock : S .clock)
    (hstep : ∀ step, S (.sql (.identities (.markStepUsed identity.id step))))
    (hcode : ∀ codeHash, S (.sql (.identities (.consumeBackupCode identity.id codeHash))))
    (code : String) : (MfaService.verify w identity code).Asks S := by
  have hnow : MfaService.now.Asks S := Asks.bind (p := utcNow) ⟨hclock, fun _ => trivial⟩ fun _ => trivial
  unfold MfaService.verify
  split
  · dsimp only
    split
    · refine Asks.bind (p := MfaService.decryptSecret w identity) (decryptSecret_asks w identity)
        fun secret => ?_
      cases secret with
      | none => trivial
      | some secret =>
        refine hnow.bind fun now => ?_
        split
        · exact (asks_query (hstep _)).bind fun _ => trivial
        · trivial
    · split
      · trivial
      · exact (asks_query (hcode _)).bind fun _ => trivial
  · trivial

theorem check_asks {S : Request → Prop} {identity : Identity} (hclock : S .clock)
    (hstep : ∀ step, S (.sql (.identities (.markStepUsed identity.id step))))
    (hcode : ∀ codeHash, S (.sql (.identities (.consumeBackupCode identity.id codeHash))))
    (g : Guess) : (g.check w identity).Asks S := by
  have hsecret : ∀ password, (checkSecret w password identity).Asks S :=
    fun password => (asks_okOr _ _).bind fun _ => asks_ofExcept _
  cases g with
  | emailPassword tenantId email password => exact hsecret password
  | usernamePassword tenantId username password => exact hsecret password
  | identityPassword email password => exact hsecret password
  | secondFactor mfaToken code => exact verify_asks hclock hstep hcode code

theorem reach_asks (g : Guess) (ip userAgent : Option String) :
    (g.reach w ip userAgent).Asks (KeepsIdentity w id) := by
  have hreads : ∀ {β : Type} {p : Service β}, p.Asks (KeepsDb w) → p.Asks (KeepsIdentity w id) :=
    fun hp => hp.mono fun _ => keepsIdentity_of_keepsDb
  have hpassword : ∀ tenantId user method,
      (reachPassword w ip userAgent tenantId user method).Asks (KeepsIdentity w id) := by
    intro tenantId user method
    refine (hreads (reads_loadIdentity _)).bind fun identity => ?_
    refine (hreads (reads_checkGates user identity)).bind fun _ => ?_
    refine (hreads (reads_effectiveLoginMethods tenantId user)).bind fun _ => ?_
    exact (asks_ensure _ _).bind fun _ => trivial
  cases g with
  | emailPassword tenantId email password =>
    refine (hreads (reads_ensureEmailDomainAllowed tenantId email)).bind fun _ => ?_
    refine (hreads (reads_query fun _ _ => ⟨_, rfl⟩)).bind fun _ => ?_
    exact (asks_okOr _ _).bind fun user => hpassword tenantId user _
  | usernamePassword tenantId username password =>
    refine (hreads (reads_query fun _ _ => ⟨_, rfl⟩)).bind fun _ => ?_
    exact (asks_okOr _ _).bind fun user => hpassword tenantId user _
  | identityPassword email password =>
    refine (hreads (reads_query fun _ _ => ⟨_, rfl⟩)).bind fun _ => ?_
    refine (asks_okOr _ _).bind fun identity => (asks_ensure _ _).bind fun _ => ?_
    exact (hreads (reads_checkLock identity)).bind fun _ => trivial
  | secondFactor mfaToken code =>
    refine (hreads (reads_query fun _ _ => ⟨_, rfl⟩)).bind fun _ => ?_
    refine (asks_okOr _ _).bind fun challenge => ?_
    have hrefuse : (refuseExhausted mfaToken challenge).Asks (KeepsIdentity w id) := by
      unfold refuseExhausted
      split
      · refine Asks.bind (p := MfaRepo.deleteChallenge mfaToken) ?_ fun _ => trivial
        exact (asks_query (keepsIdentity_sql (by simp))).bind fun _ => trivial
      · trivial
    refine hrefuse.bind fun _ => ?_
    refine (hreads (reads_query fun _ _ => ⟨_, rfl⟩)).bind fun _ => ?_
    refine (asks_okOr _ _).bind fun user => ?_
    refine (hreads (reads_loadIdentity _)).bind fun identity => ?_
    exact (hreads (reads_checkGates user identity)).bind fun _ => trivial

/-- What keeps the row keeps it while time passes. -/
theorem exec_keepsIdentity {p : Service α} (hp : p.Asks (KeepsIdentity w id)) {r : IdentityRow}
    (hr : x.1.db.identity id = some r) :
    (p.exec (timed w) x).2.1.db.identity id = some r ∧ x.1.now ≤ (p.exec (timed w) x).2.1.now := by
  refine hp.paced_invariant (J := fun s : State => s.db.identity id = some r ∧ x.1.now ≤ s.now)
    ?_ ?_ ⟨hr, le_refl _⟩
  · rintro q hq s ⟨hs, hnow⟩
    refine ⟨hq s r hs, ?_⟩
    rw [handle_now]
    exact hnow
  · rintro d s ⟨hs, hnow⟩
    exact ⟨hs, le_trans hnow (now_le_tick d s)⟩

theorem exec_keepsCounts {p : Service α} (hp : p.Asks (KeepsCounts w id))
    (hx : Counts n l id x.1.db) :
    Counts n l id (p.exec (timed w) x).2.1.db ∧
      (p.exec (timed w) x).2.1.db.mfaChallenges = x.1.db.mfaChallenges ∧
        x.1.now ≤ (p.exec (timed w) x).2.1.now := by
  refine hp.paced_invariant (J := fun s : State => Counts n l id s.db ∧
    s.db.mfaChallenges = x.1.db.mfaChallenges ∧ x.1.now ≤ s.now) ?_ ?_ ⟨hx, rfl, le_refl _⟩
  · rintro q hq s ⟨hs, hchallenges, hnow⟩
    refine ⟨hq.counts s n l hs, (hq.challenges s).trans hchallenges, ?_⟩
    rw [handle_now]
    exact hnow
  · rintro d s ⟨hs, hchallenges, hnow⟩
    exact ⟨hs, hchallenges, le_trans hnow (now_le_tick d s)⟩

/-- A statement without rows to return. -/
theorem exec_execute_timed (q : Sql) (x : State × List Nat) :
    ∃ s ds, s.db = x.1.db ∧ x.1.now ≤ s.now ∧
      (execute q).exec (timed w) x = (((execute q).exec (handle w) s).1, (handle w (.sql q) s).2, ds) := by
  obtain ⟨s, ds, hdb, hnow, heq⟩ := timed_cases (w := w) (.sql q) x
  refine ⟨s, ds, hdb, hnow, ?_⟩
  have hgeneral : ∀ (y : Except SqlError q.Rows × (State × List Nat)),
      timed w (.sql q) x = y → (execute q).exec (timed w) x =
        ((y.1.mapError fun e => (.error (.ofSqlError e) : Failure)).map fun _ => (), y.2) := by
    rintro ⟨o, z⟩ hy
    change (((Service.ofResult (((timed w (.sql q) x).1 : Except SqlError q.Rows).mapError
      AppError.ofSqlError)).bind fun _ => .pure ()).exec (timed w) (timed w (.sql q) x).2) = _
    rw [hy]
    cases o <;> rfl
  have hplain : ((execute q).exec (handle w) s).1 =
      ((((handle w (.sql q) s).1 : Except SqlError q.Rows).mapError
        fun e => (.error (.ofSqlError e) : Failure)).map fun _ => ()) := by
    change (((Service.ofResult (((handle w (.sql q) s).1 : Except SqlError q.Rows).mapError
      AppError.ofSqlError)).bind fun _ => .pure ()).exec (handle w) (handle w (.sql q) s).2).1 = _
    cases (handle w (.sql q) s).1 <;> rfl
  rw [hgeneral _ heq, hplain]

/-- **A failed attempt is counted**, as long as the counter is not at its end. -/
theorem exec_incrementFailedAttempts (hx : Counts n l id x.1.db) (hn : n < maxInt)
    (lockUntil : Option Time) :
    Counts (n + 1) (lockUntil.orElse fun _ => l) id
        ((IdentitiesRepo.incrementFailedAttempts id lockUntil).exec (timed w) x).2.1.db ∧
      x.1.now ≤ ((IdentitiesRepo.incrementFailedAttempts id lockUntil).exec (timed w) x).2.1.now := by
  obtain ⟨r, hr, rfl, rfl⟩ := hx
  obtain ⟨s, ds, hdb, hnow, hexec⟩ :=
    exec_execute_timed (w := w) (.identities (.incrementFailedAttempts id lockUntil)) x
  rw [← hdb] at hr
  unfold IdentitiesRepo.incrementFailedAttempts
  rw [hexec]
  refine ⟨⟨_, handle_incrementFailedAttempts lockUntil hr hn, rfl, rfl⟩, ?_⟩
  rw [handle_now]
  exact hnow

/-- Where the counter is after a failed attempt, and the lock: one is set when five are reached. -/
def CountedOnce (n : Nat) (l : Option Time) (t : Time) (id : Uuid) (db : Db) : Prop :=
  ∃ l', Counts (n + 1) l' id db ∧
    if DEFAULT_LOCK_AFTER_ATTEMPTS ≤ n + 1 then
      ∃ u, t ≤ u ∧ l' = some (u + minutes DEFAULT_LOCK_DURATION_MINS)
    else l' = l

theorem CountedOnce.mono {t t' : Time} {db : Db} (h : CountedOnce n l t' id db) (ht : t ≤ t') :
    CountedOnce n l t id db := by
  obtain ⟨l', hcounts, hlock⟩ := h
  refine ⟨l', hcounts, ?_⟩
  by_cases hfive : DEFAULT_LOCK_AFTER_ATTEMPTS ≤ n + 1
  · rw [if_pos hfive] at hlock ⊢
    obtain ⟨u, hu, hl'⟩ := hlock
    exact ⟨u, le_trans ht hu, hl'⟩
  · rw [if_neg hfive] at hlock ⊢
    exact hlock

/-- The attempt is registered for the identity as it was read. -/
theorem exec_registerFailedAttempt {identity : Identity} (hx : Counts n l identity.id x.1.db)
    (hread : identity.failedAttempts = n) (hn : n < maxInt) :
    CountedOnce n l x.1.now identity.id
        ((registerFailedAttempt w identity).exec (timed w) x).2.1.db ∧
      x.1.now ≤ ((registerFailedAttempt w identity).exec (timed w) x).2.1.now := by
  have hreached : lockReached w identity.failedAttempts =
      .pure (decide (DEFAULT_LOCK_AFTER_ATTEMPTS ≤ n + 1)) := by
    unfold lockReached
    rw [hread, if_pos hn]
    rfl
  unfold registerFailedAttempt
  rw [hreached]
  by_cases hlock : DEFAULT_LOCK_AFTER_ATTEMPTS ≤ n + 1
  · obtain ⟨s, ds, hdb, hnow, heq⟩ := timed_cases (w := w) .clock x
    have hclock : utcNow.exec (timed w) x = (.ok s.now, s, ds) := by
      change ((.ok (timed w .clock x).1 : Except Failure Time), (timed w .clock x).2) = _
      rw [heq]
      rfl
    have hcounts : Counts n l identity.id s.db := by
      rw [hdb]
      exact hx
    obtain ⟨hcounted, hlater⟩ := exec_incrementFailedAttempts (w := w) (x := (s, ds)) hcounts hn
      (some (s.now + minutes DEFAULT_LOCK_DURATION_MINS))
    rw [decide_eq_true hlock]
    change CountedOnce n l x.1.now identity.id ((utcNow.bind fun now =>
      IdentitiesRepo.incrementFailedAttempts identity.id
        (some (now + minutes DEFAULT_LOCK_DURATION_MINS))).exec (timed w) x).2.1.db ∧
      x.1.now ≤ ((utcNow.bind fun now => IdentitiesRepo.incrementFailedAttempts identity.id
        (some (now + minutes DEFAULT_LOCK_DURATION_MINS))).exec (timed w) x).2.1.now
    rw [exec_bind_ok _ hclock]
    refine ⟨⟨_, hcounted, ?_⟩, le_trans hnow hlater⟩
    rw [if_pos hlock]
    exact ⟨s.now, hnow, rfl⟩
  · obtain ⟨hcounted, hlater⟩ := exec_incrementFailedAttempts (w := w) hx hn none
    rw [decide_eq_false hlock]
    refine ⟨⟨_, hcounted, ?_⟩, hlater⟩
    rw [if_neg hlock]
    rfl

/-- The refusal leaves what the registered attempt leaves. -/
theorem exec_refuseWith_state {σ : Type} (w : World) (message : String) (identity : Identity)
    (H : Handler authrs σ) (x : σ) :
    ((refuseWith w message identity).exec H x).2 = ((registerFailedAttempt w identity).exec H x).2 := by
  change (((registerFailedAttempt w identity).bind fun _ => _).exec H x).2 = _
  rw [exec_bind]
  rcases (registerFailedAttempt w identity).exec H x with ⟨o, y⟩
  cases o <;> rfl

theorem exec_refuseWith {identity : Identity} (message : String)
    (hx : Counts n l identity.id x.1.db) (hread : identity.failedAttempts = n) (hn : n < maxInt) :
    CountedOnce n l x.1.now identity.id
        ((refuseWith w message identity).exec (timed w) x).2.1.db ∧
      x.1.now ≤ ((refuseWith w message identity).exec (timed w) x).2.1.now := by
  have hcounted := exec_registerFailedAttempt (w := w) hx hread hn
  rw [exec_refuseWith_state]
  exact hcounted

/-- The attempt on a challenge with attempts left. -/
theorem exec_incrementChallengeAttempts {mfaToken : String} (hx : Counts n l id x.1.db)
    (hleft : ∀ c ∈ x.1.db.mfaChallenges, c.token = mfaToken → c.attemptCount < maxInt) :
    ∃ y, (MfaRepo.incrementChallengeAttempts mfaToken).exec (timed w) x = (.ok (), y) ∧
      Counts n l id y.1.db ∧ x.1.now ≤ y.1.now := by
  obtain ⟨s, ds, hdb, hnow, hexec⟩ :=
    exec_execute_timed (w := w) (.challenges (.incrementAttempts mfaToken)) x
  rw [← hdb] at hx hleft
  have hany : (s.db.mfaChallenges.rows.any fun r => r.token = mfaToken && maxInt ≤ r.attemptCount) =
      false := by
    refine List.any_eq_false.mpr fun c hc hboth => ?_
    simp only [Bool.and_eq_true, decide_eq_true_eq] at hboth
    exact absurd (hleft c hc hboth.1) (not_lt.mpr hboth.2)
  have hok : ((execute (.challenges (.incrementAttempts mfaToken))).exec (handle w) s).1 = .ok () := by
    change (((query (.challenges (.incrementAttempts mfaToken))).bind fun _ => .pure ()).exec
      (handle w) s).1 = _
    obtain ⟨db, hstatement⟩ : ∃ db, Sql.exec (s.sqlEnv w) s.db
        (.challenges (.incrementAttempts mfaToken)) =
          .ok (s.db.mfaChallenges.affected fun r => r.token = mfaToken, db) := by
      change ∃ db, ChallengeStmt.exec (s.sqlEnv w) s.db (.incrementAttempts mfaToken) = .ok (_, db)
      rw [ChallengeStmt.exec, hany]
      exact ⟨_, rfl⟩
    rw [exec_bind_ok _ (exec_query_ok hstatement)]
    rfl
  refine ⟨_, hexec.trans (by rw [hok]), ?_, ?_⟩
  · obtain ⟨r, hr, hn, hl⟩ := hx
    exact ⟨r, keepsIdentity_sql (by simp) s r hr, hn, hl⟩
  · rw [handle_now]
    exact hnow

/-- **What follows a wrong credential of the identity.** -/
theorem exec_refuse {g : Guess} {identity : Identity} (hx : Counts n l identity.id x.1.db)
    (hcountable : g.Countable x.1.db) (hread : identity.failedAttempts = n) (hn : n < maxInt) :
    CountedOnce n l x.1.now identity.id ((g.refuse w identity).exec (timed w) x).2.1.db ∧
      x.1.now ≤ ((g.refuse w identity).exec (timed w) x).2.1.now := by
  cases g with
  | emailPassword => exact exec_refuseWith _ hx hread hn
  | usernamePassword => exact exec_refuseWith _ hx hread hn
  | identityPassword => exact exec_refuseWith _ hx hread hn
  | secondFactor mfaToken code =>
    obtain ⟨y, hexec, hy, hnow⟩ := exec_incrementChallengeAttempts (w := w) hx hcountable
    obtain ⟨hcounted, hlater⟩ :=
      exec_refuseWith (w := w) (x := y) "Invalid MFA code" hy hread hn
    change CountedOnce n l x.1.now identity.id
      (((MfaRepo.incrementChallengeAttempts mfaToken).bind fun _ =>
        refuseWith w "Invalid MFA code" identity).exec (timed w) x).2.1.db ∧ x.1.now ≤
      (((MfaRepo.incrementChallengeAttempts mfaToken).bind fun _ =>
        refuseWith w "Invalid MFA code" identity).exec (timed w) x).2.1.now
    rw [exec_bind_ok _ hexec]
    exact ⟨hcounted.mono hnow, le_trans hnow hlater⟩

/-- What follows a wrong credential of another identity. -/
theorem refuse_asks {identity : Identity} (hid : identity.id ≠ id) (g : Guess) :
    (g.refuse w identity).Asks (KeepsIdentity w id) := by
  have hincrement : ∀ lockUntil, (IdentitiesRepo.incrementFailedAttempts identity.id lockUntil).Asks
      (KeepsIdentity w id) :=
    fun _ => asks_execute (keepsIdentity_incrementFailedAttempts hid)
  have hregister : (registerFailedAttempt w identity).Asks (KeepsIdentity w id) := by
    have hreached : (lockReached w identity.failedAttempts).Asks (KeepsIdentity w id) := by
      unfold lockReached
      split
      · trivial
      · split
        · trivial
        · trivial
    refine hreached.bind fun reached => ?_
    cases reached with
    | true => exact ⟨fun _ _ h => h, fun now => hincrement _⟩
    | false => exact hincrement none
  have hrefuse : ∀ message, (refuseWith w message identity).Asks (KeepsIdentity w id) :=
    fun message => hregister.bind fun _ => trivial
  cases g with
  | emailPassword => exact hrefuse _
  | usernamePassword => exact hrefuse _
  | identityPassword => exact hrefuse _
  | secondFactor mfaToken code =>
    exact Asks.bind (p := MfaRepo.incrementChallengeAttempts mfaToken)
      (asks_execute (keepsIdentity_sql (by simp))) fun _ => hrefuse _

end Rows

/-! ### Calls -/

section Calls

open Program

variable {w : World} {id : Uuid} {g : Guess} {ip userAgent : Option String} {s : State}
  {ds : List Nat} {n : Nat} {l : Option Time}

/-- A call of which the check was not reached, or failed. -/
theorem Guess.after_of_reach_error (id : Uuid) {e : Failure} {x : State × List Nat}
    (h : (g.reach w ip userAgent).exec (timed w) (s, ds) = (.error e, x)) :
    g.after w ip userAgent s ds = x.1 ∧ g.checks w ip userAgent id s ds = [] := by
  unfold Guess.after Guess.checks
  rw [Guess.run_eq, exec_bind_error _ h, h]
  exact ⟨rfl, rfl⟩

theorem Guess.after_of_check_error (id : Uuid) {r : Reached} {e : Failure} {x y : State × List Nat}
    (h : (g.reach w ip userAgent).exec (timed w) (s, ds) = (.ok r, x))
    (hcheck : (g.check w r.identity).exec (timed w) x = (.error e, y)) :
    g.after w ip userAgent s ds = y.1 ∧ g.checks w ip userAgent id s ds = [] := by
  unfold Guess.after Guess.checks
  rw [Guess.run_eq, exec_bind_ok _ h, exec_bind_error _ hcheck, h]
  dsimp only
  rw [hcheck]
  exact ⟨rfl, rfl⟩

/-- A call whose credential was wrong. -/
theorem Guess.after_of_check (id : Uuid) {r : Reached} {x y : State × List Nat}
    (h : (g.reach w ip userAgent).exec (timed w) (s, ds) = (.ok r, x))
    (hcheck : (g.check w r.identity).exec (timed w) x = (.ok false, y)) :
    g.after w ip userAgent s ds = ((g.refuse w r.identity).exec (timed w) y).2.1 ∧
      g.checks w ip userAgent id s ds = if r.identity.id = id then [x.1.now] else [] := by
  unfold Guess.after Guess.checks
  rw [Guess.run_eq, exec_bind_ok _ h, exec_bind_ok _ hcheck, h]
  dsimp only
  rw [hcheck]
  exact ⟨rfl, rfl⟩

/-- **A wrong guess** checks nothing and keeps the counter and the lock, or it checks a credential
once no lock is in force, and counts. -/
theorem Guess.after_wrong (hwrong : g.Wrong w ip userAgent s ds) (hs : Counts n l id s.db) :
    (g.checks w ip userAgent id s ds = [] ∧ Counts n l id (g.after w ip userAgent s ds).db) ∨
      ∃ t, g.checks w ip userAgent id s ds = [t] ∧ (∀ u ∈ l, u ≤ t) ∧
        (n < maxInt → CountedOnce n l t id (g.after w ip userAgent s ds).db) := by
  have hkeep : ∀ {α : Type} {p : Service α} {x y : State × List Nat} {o : Except Failure α},
      p.Asks (KeepsIdentity w id) → p.exec (timed w) x = (o, y) → Counts n l id x.1.db →
        Counts n l id y.1.db := by
    rintro α p x y o hp hexec ⟨r, hr, hn, hl⟩
    have hkept := (exec_keepsIdentity (x := x) hp hr).1
    rw [hexec] at hkept
    exact ⟨r, hkept, hn, hl⟩
  rcases hreach : (g.reach w ip userAgent).exec (timed w) (s, ds) with ⟨e | r, x⟩
  · obtain ⟨hafter, hchecks⟩ := Guess.after_of_reach_error id hreach
    rw [hafter]
    exact .inl ⟨hchecks, hkeep (reach_asks g ip userAgent) hreach hs⟩
  -- The guess reaches the check, and has changed nothing up to there.
  obtain ⟨hat, hcountable⟩ := Guess.exec_reach hreach
  have hx : Counts n l id x.1.db := by
    rw [hat.idle.1]
    exact hs
  have hasks : (g.check w r.identity).Asks (KeepsCounts w id) := check_asks keepsCounts_clock
    (fun _ => keepsCounts_markStepUsed) (fun _ => keepsCounts_consumeBackupCode) g
  have hkept := exec_keepsCounts hasks hx
  rcases hcheck : (g.check w r.identity).exec (timed w) x with ⟨e | right, y⟩
  · obtain ⟨hafter, hchecks⟩ := Guess.after_of_check_error id hreach hcheck
    rw [hcheck] at hkept
    rw [hafter]
    exact .inl ⟨hchecks, hkept.1⟩
  cases right with
  | true => exact absurd hcheck (hwrong r x y hreach)
  | false =>
    -- The code is wrong, and the refusal counts it.
    obtain ⟨hafter, hchecks⟩ := Guess.after_of_check id hreach hcheck
    rw [hcheck] at hkept
    obtain ⟨hy, hchallenges, hlater⟩ := hkept
    rw [hafter, hchecks]
    by_cases hid : r.identity.id = id
    · -- the identity was read from its row, so that its lock is over
      subst hid
      obtain ⟨row, hrow, hidentity⟩ := hat.row
      obtain ⟨row', hrow', hn, hl⟩ := hs
      obtain rfl : row = row' := Option.some.inj (hrow.symm.trans hrow')
      have hread : r.identity.failedAttempts = n := by
        rw [← hidentity]
        exact hn
      have hlock : r.identity.lockedUntil = l := by
        rw [← hidentity]
        exact hl
      refine .inr ⟨x.1.now, if_pos rfl, fun u hu => hat.unlocked u (hlock ▸ hu), fun hmax => ?_⟩
      have hcountable' : g.Countable y.1.db := by
        unfold Guess.Countable at hcountable ⊢
        rw [hchallenges, hat.idle.1]
        exact hcountable
      exact (exec_refuse hy hcountable' hread hmax).1.mono hlater
    · rw [if_neg hid]
      exact .inl ⟨rfl, hkeep (refuse_asks hid g) rfl hy⟩

/-- The clock does not go back. -/
theorem now_le_exec {α : Type} (p : Service α) (x : State × List Nat) :
    x.1.now ≤ (p.exec (timed w) x).2.1.now := by
  refine (Asks.all p).paced_invariant (J := fun s : State => x.1.now ≤ s.now) ?_ ?_ (le_refl _)
  · intro q _ s hnow
    rw [handle_now]
    exact hnow
  · intro d s hnow
    exact le_trans hnow (now_le_tick d s)

/-- **A wrong guess on a locked identity** leaves its row as it is. -/
theorem Guess.after_locked (hwrong : g.Wrong w ip userAgent s ds) {row : IdentityRow} {u : Time}
    (hrow : s.db.identity id = some row) (hlock : row.lockedUntil = some u)
    (hnow : (g.after w ip userAgent s ds).now < u) :
    (g.after w ip userAgent s ds).db.identity id = some row := by
  rcases hreach : (g.reach w ip userAgent).exec (timed w) (s, ds) with ⟨e | r, x⟩
  · have hkept := (exec_keepsIdentity (x := (s, ds)) (reach_asks (w := w) g ip userAgent) hrow).1
    rw [hreach] at hkept
    rw [(Guess.after_of_reach_error id hreach).1]
    exact hkept
  obtain ⟨hat, -⟩ := Guess.exec_reach hreach
  have hx : x.1.db.identity id = some row := by
    rw [hat.idle.1]
    exact hrow
  have hlater := now_le_exec (w := w) (g.check w r.identity) x
  by_cases hid : r.identity.id = id
  · -- the gates were passed, so that the lock was over before the call was
    subst hid
    obtain ⟨row', hrow', hidentity⟩ := hat.row
    obtain rfl : row = row' := Option.some.inj (hrow.symm.trans hrow')
    have hover : u ≤ x.1.now := by
      refine hat.unlocked u ?_
      rw [← hidentity]
      exact hlock
    rcases hcheck : (g.check w r.identity).exec (timed w) x with ⟨e | right, y⟩
    · rw [hcheck] at hlater
      rw [(Guess.after_of_check_error r.identity.id hreach hcheck).1] at hnow
      exact absurd hnow (not_lt.mpr (le_trans hover hlater))
    · rw [hcheck] at hlater
      cases right with
      | true => exact absurd hcheck (hwrong r x y hreach)
      | false =>
        have hend := now_le_exec (w := w) (g.refuse w r.identity) y
        rw [(Guess.after_of_check r.identity.id hreach hcheck).1] at hnow
        exact absurd hnow (not_lt.mpr (le_trans hover (le_trans hlater hend)))
  · have hasks : (g.check w r.identity).Asks (KeepsIdentity w id) := check_asks (fun _ _ h => h)
      (fun _ => keepsIdentity_markStepUsed hid) (fun _ => keepsIdentity_consumeBackupCode) g
    have hkept := (exec_keepsIdentity hasks hx).1
    rcases hcheck : (g.check w r.identity).exec (timed w) x with ⟨e | right, y⟩
    · rw [hcheck] at hkept
      rw [(Guess.after_of_check_error id hreach hcheck).1]
      exact hkept
    · rw [hcheck] at hkept
      cases right with
      | true => exact absurd hcheck (hwrong r x y hreach)
      | false =>
        rw [(Guess.after_of_check id hreach hcheck).1]
        exact (exec_keepsIdentity (refuse_asks hid g) hkept).1

/-! ### Runs -/

/-- The counter is the number of checks, the last of which has left a lock from the fifth on. -/
structure Limited (id : Uuid) (ts : List Time) (db : Db) : Prop where
  counts : ∃ l, Counts ts.length l id db ∧
    (DEFAULT_LOCK_AFTER_ATTEMPTS ≤ ts.length →
      ∀ t ∈ ts.getLast?, ∃ u ∈ l, t + minutes DEFAULT_LOCK_DURATION_MINS ≤ u)
  farApart : FarApart ts

theorem FarApart.concat {ts : List Time} {t : Time} (h : FarApart ts)
    (hlast : DEFAULT_LOCK_AFTER_ATTEMPTS ≤ ts.length →
      ∀ a ∈ ts.getLast?, a + minutes DEFAULT_LOCK_DURATION_MINS ≤ t) : FarApart (ts ++ [t]) := by
  intro i a b hfive ha hb
  have hi : i + 1 < ts.length + 1 := by
    have hlen := (List.getElem?_eq_some_iff.mp hb).1
    rwa [List.length_append] at hlen
  rw [List.getElem?_append_left (by omega)] at ha
  by_cases hmore : i + 1 < ts.length
  · rw [List.getElem?_append_left hmore] at hb
    exact h i a b hfive ha hb
  · obtain rfl : i = ts.length - 1 := by omega
    have hlen : ts.length - 1 + 1 = ts.length := by omega
    rw [hlen, List.getElem?_concat_length] at hb
    obtain rfl : t = b := Option.some.inj hb
    refine hlast (by omega) a ?_
    rw [List.getLast?_eq_getElem?]
    exact ha

/-- **One guess more.** -/
theorem Limited.call {ts : List Time} (h : Limited id ts s.db)
    (hwrong : g.Wrong w ip userAgent s ds)
    (hmax : (ts ++ g.checks w ip userAgent id s ds).length ≤ maxInt) :
    Limited id (ts ++ g.checks w ip userAgent id s ds) (g.after w ip userAgent s ds).db := by
  obtain ⟨l, hcounts, hlock⟩ := h.counts
  rcases Guess.after_wrong hwrong hcounts with ⟨hnone, hsame⟩ | ⟨t, hone, hover, hcounted⟩
  · rw [hnone, List.append_nil]
    exact ⟨⟨l, hsame, hlock⟩, h.farApart⟩
  · rw [hone, List.length_append, List.length_singleton] at hmax
    obtain ⟨l', hcounts', hlock'⟩ := hcounted (by omega)
    rw [hone]
    refine ⟨⟨l', ?_, fun hfive a ha => ?_⟩, h.farApart.concat fun hfive a ha => ?_⟩
    · rw [List.length_append, List.length_singleton]
      exact hcounts'
    · rw [List.length_append, List.length_singleton] at hfive
      rw [if_pos hfive] at hlock'
      obtain ⟨u, hu, rfl⟩ := hlock'
      rw [List.getLast?_concat] at ha
      obtain rfl : t = a := Option.some.inj ha
      exact ⟨_, rfl, Int.add_le_add_right hu _⟩
    · obtain ⟨u, hu, hle⟩ := hlock hfive a ha
      exact le_trans hle (hover u hu)

theorem GuessRun.limited {s s' : State} {ts : List Time} (hrun : GuessRun w id s ts s')
    (hstart : Counts 0 none id s.db) (hmax : ts.length ≤ maxInt) : Limited id ts s'.db := by
  induction hrun with
  | start =>
    refine ⟨⟨none, hstart, fun hfive => absurd hfive (by decide)⟩, ?_⟩
    intro i a b _ ha
    cases ha
  | other h hrow hnow ih =>
    obtain ⟨⟨l, ⟨r, hr, hn, hl⟩, hlock⟩, hfar⟩ := ih hmax
    exact ⟨⟨l, ⟨r, hrow.trans hr, hn, hl⟩, hlock⟩, hfar⟩
  | call h g ip userAgent ds hwrong ih =>
    have hbefore := hmax
    rw [List.length_append] at hbefore
    exact (ih (by omega)).call hwrong hmax

/-- **Guessing is limited per identity.** -/
theorem guesses_limited (w : World) (id : Uuid) (s s' : State) (ts : List Time)
    (hstart : ∃ r, s.db.identity id = some r ∧ r.failedAttempts = 0 ∧ r.lockedUntil = none)
    (hrun : GuessRun w id s ts s') (hmax : ts.length ≤ maxInt) :
    (∃ r, s'.db.identity id = some r ∧ r.failedAttempts = ts.length) ∧ FarApart ts ∧
      ∀ g ip userAgent ds row u, Guess.Wrong w ip userAgent g s' ds →
        s'.db.identity id = some row → row.lockedUntil = some u →
        (g.after w ip userAgent s' ds).now < u →
          (g.after w ip userAgent s' ds).db.identity id = some row := by
  obtain ⟨⟨l, ⟨r, hr, hn, -⟩, -⟩, hfar⟩ := hrun.limited hstart hmax
  refine ⟨⟨r, hr, hn⟩, hfar, ?_⟩
  intro g ip userAgent ds row u hwrong hrow hlock hnow
  exact Guess.after_locked hwrong hrow hlock hnow

end Calls

/-! ### The end of the counter -/

section Overflow

open Program

/-- An identity with a password, after some failed attempts. -/
def guessedRow (n : Nat) (l : Option Time) (t : Time) : IdentityRow :=
  { IdentityRow.ofHandles ⟨0, id, fun _ => 7⟩ (some "ann@acme.example") none none none none
      (some ":correct horse") with
    failedAttempts := n
    lockedUntil := l
    updatedAt := t }

def guessedState (n : Nat) (l : Option Time) (t now : Time) : State :=
  .ofDb { Db.empty with identities := .single (guessedRow n l t) } now

/-- A wrong password. -/
def wrongGuess : Guess := .identityPassword "ann@acme.example" "wrong"

variable {n : Nat} {l : Option Time} {t now : Time}

theorem guessedState_byEmail :
    (IdentitiesRepo.getByEmail (trim "ann@acme.example")).exec (handle .offline)
      (guessedState n l t now) = (.ok (some (guessedRow n l t).toIdentity), guessedState n l t now) := by
  have hfound : (guessedState n l t now).db.identities.selectOne
      (Db.emailIs ((guessedState n l t now).sqlEnv .offline) (trim "ann@acme.example")) =
        some (guessedRow n l t) := by
    have hmatch : World.offline.lower "ann@acme.example" =
        World.offline.lower (trim "ann@acme.example") := by decide +kernel
    have hemail : Db.emailIs ((guessedState n l t now).sqlEnv .offline) (trim "ann@acme.example")
        (guessedRow n l t) = true := decide_eq_true hmatch
    unfold Relational.Table.selectOne
    exact List.find?_cons_of_pos hemail
  refine exec_query_read ?_ rfl
  change Except.ok (((guessedState n l t now).db.identities.selectOne
    (Db.emailIs ((guessedState n l t now).sqlEnv .offline) (trim "ann@acme.example"))).map
      IdentityRow.toIdentity, _) = _
  rw [hfound]
  rfl

/-- The guess reaches its check once no lock is in force. -/
theorem wrongGuess_reach (hl : ∀ u ∈ l, u ≤ now) :
    ∃ r, (wrongGuess.reach .offline none none).exec (handle .offline) (guessedState n l t now) =
        (.ok r, guessedState n l t now) ∧ r.identity = (guessedRow n l t).toIdentity := by
  have hlock : (checkLock (guessedRow n l t).toIdentity).exec (handle .offline)
      (guessedState n l t now) = (.ok (), guessedState n l t now) := by
    cases l with
    | none => rfl
    | some u =>
      exact exec_ensure_eq_ok.mpr ⟨not_lt.mpr (hl u rfl), rfl⟩
  change ∃ r, ((IdentitiesRepo.getByEmail (trim "ann@acme.example")).bind _).exec _ _ = _ ∧ _
  rw [exec_bind_ok _ guessedState_byEmail]
  change ∃ r, ((checkLock (guessedRow n l t).toIdentity).bind _).exec _ _ = _ ∧ _
  rw [exec_bind_ok _ hlock]
  exact ⟨_, rfl, rfl⟩

/-- The password is wrong. -/
theorem wrongGuess_check :
    (wrongGuess.check .offline (guessedRow n l t).toIdentity).exec (handle .offline)
      (guessedState n l t now) = (.ok false, guessedState n l t now) := by
  have hverify : World.offline.verifyPassword ":correct horse" "wrong" = .ok false := by
    decide +kernel
  change (verifyPassword .offline ":correct horse" "wrong").exec (handle .offline)
    (guessedState n l t now) = _
  unfold verifyPassword
  rw [hverify]
  rfl

/-- The attempt is counted, until the counter is at its end. -/
theorem guessedState_increment (lockUntil : Option Time) :
    (handle .offline (.sql (.identities (.incrementFailedAttempts 7 lockUntil)))
        (guessedState n l t now)).2 =
      if n < maxInt then guessedState (n + 1) (lockUntil.orElse fun _ => l) now now
      else guessedState n l t now := by
  by_cases hn : n < maxInt
  · have hany : ((guessedState n l t now).db.identities.rows.any fun r =>
        decide (r.id = 7) && decide (maxInt ≤ r.failedAttempts)) = false := by
      change (decide _ && decide (maxInt ≤ n) || false) = false
      rw [decide_eq_false (not_le.mpr hn), Bool.and_false, Bool.false_or]
    rw [if_pos hn]
    simp only [handle, State.afterSql, Sql.exec, IdentityStmt.exec, hany]
    rfl
  · have hany : ((guessedState n l t now).db.identities.rows.any fun r =>
        decide (r.id = 7) && decide (maxInt ≤ r.failedAttempts)) = true := by
      change (decide _ && decide (maxInt ≤ n) || false) = true
      rw [decide_eq_true (not_lt.mp hn)]
      rfl
    rw [if_neg hn]
    simp only [handle, State.afterSql, Sql.exec, IdentityStmt.exec, hany]
    rfl

/-- The lock after an attempt. -/
def lockAfter (n : Nat) (l : Option Time) (now : Time) : Option Time :=
  if DEFAULT_LOCK_AFTER_ATTEMPTS ≤ n + 1 then some (now + minutes DEFAULT_LOCK_DURATION_MINS)
  else l

theorem exec_execute_state (w : World) (q : Sql) (s : State) :
    ((execute q).exec (handle w) s).2 = (handle w (.sql q) s).2 := by
  change (((Service.ofResult (((handle w (.sql q) s).1 : Except SqlError q.Rows).mapError
      AppError.ofSqlError)).bind fun _ => .pure ()).exec (handle w) (handle w (.sql q) s).2).2 = _
  cases (handle w (.sql q) s).1 <;> rfl

theorem guessedState_refuse :
    ((wrongGuess.refuse .offline (guessedRow n l t).toIdentity).exec (handle .offline)
        (guessedState n l t now)).2 =
      if n < maxInt then guessedState (n + 1) (lockAfter n l now) now now
      else guessedState n l t now := by
  change ((refuseWith .offline _ _).exec _ _).2 = _
  rw [exec_refuseWith_state]
  have hincrement : ∀ lockUntil, ((IdentitiesRepo.incrementFailedAttempts 7 lockUntil).exec
      (handle .offline) (guessedState n l t now)).2 = _ := fun lockUntil =>
    (exec_execute_state .offline (.identities (.incrementFailedAttempts 7 lockUntil)) _).trans
      (guessedState_increment lockUntil)
  by_cases hn : n < maxInt
  · have hreached : lockReached .offline (guessedRow n l t).toIdentity.failedAttempts =
        .pure (decide (DEFAULT_LOCK_AFTER_ATTEMPTS ≤ n + 1)) := if_pos hn
    simp only [if_pos hn] at hincrement
    unfold registerFailedAttempt lockAfter
    rw [if_pos hn, hreached]
    by_cases hlock : DEFAULT_LOCK_AFTER_ATTEMPTS ≤ n + 1
    · rw [decide_eq_true hlock, if_pos hlock]
      exact hincrement (some _)
    · rw [decide_eq_false hlock, if_neg hlock]
      exact hincrement none
  · have hreached : lockReached .offline (guessedRow n l t).toIdentity.failedAttempts = .pure false :=
      if_neg hn
    simp only [if_neg hn] at hincrement
    unfold registerFailedAttempt
    rw [if_neg hn, hreached]
    exact hincrement none

/-- **A wrong guess** on the identity. -/
theorem wrongGuess_after (hl : ∀ u ∈ l, u ≤ now) :
    wrongGuess.Wrong .offline none none (guessedState n l t now) [] ∧
      wrongGuess.checks .offline none none 7 (guessedState n l t now) [] = [now] ∧
      wrongGuess.after .offline none none (guessedState n l t now) [] =
        if n < maxInt then guessedState (n + 1) (lockAfter n l now) now now
        else guessedState n l t now := by
  obtain ⟨r, hreach, hr⟩ := wrongGuess_reach (n := n) (t := t) hl
  have hcheck := @wrongGuess_check n l t now
  rw [← hr] at hcheck
  have hreach' : (wrongGuess.reach .offline none none).exec (timed .offline)
      (guessedState n l t now, []) = (.ok r, (guessedState n l t now, [])) := by
    rw [exec_paced_nil, hreach]
  have hcheck' : (wrongGuess.check .offline r.identity).exec (timed .offline)
      (guessedState n l t now, []) = (.ok false, (guessedState n l t now, [])) := by
    rw [exec_paced_nil, hcheck]
  obtain ⟨hafter, hchecks⟩ := Guess.after_of_check 7 hreach' hcheck'
  refine ⟨?_, ?_, ?_⟩
  · intro r' x y hr' hright
    obtain ⟨hr', hx⟩ := Prod.mk.inj (hreach'.symm.trans hr')
    rw [← Except.ok.inj hr', ← hx, hcheck'] at hright
    cases (Prod.mk.inj hright).1
  · rw [hchecks, hr]
    rfl
  · rw [hafter, exec_paced_nil, hr]
    exact guessedState_refuse

/-- Guesses, each made when the lock of the one before is over. -/
theorem guessRun_guessedState (k : ℕ) (hk : k ≤ maxInt) :
    ∃ l t now ts, GuessRun .offline 7 (guessedState 0 none 0 0) ts (guessedState k l t now) ∧
      ts.length = k ∧ ∀ u ∈ l, u ≤ now := by
  induction k with
  | zero => exact ⟨none, 0, 0, [], .start _, rfl, fun _ h => nomatch h⟩
  | succ k ih =>
    obtain ⟨l, t, now, ts, hrun, hlen, hl⟩ := ih (by omega)
    obtain ⟨hwrong, hchecks, hafter⟩ := wrongGuess_after (n := k) (t := t) hl
    have hmore := hrun.call wrongGuess none none [] hwrong
    rw [hchecks, hafter, if_pos (by omega)] at hmore
    have hwait : now ≤ now + minutes DEFAULT_LOCK_DURATION_MINS :=
      Int.le_add_of_nonneg_right (by decide)
    refine ⟨lockAfter k l now, now, now + minutes DEFAULT_LOCK_DURATION_MINS, ts ++ [now],
      hmore.other rfl hwait, ?_, ?_⟩
    · rw [List.length_append, hlen, List.length_singleton]
    · intro u hu
      unfold lockAfter at hu
      split at hu
      · exact le_of_eq (Option.some.inj hu).symm
      · exact le_trans (hl u hu) hwait

/-- Six guesses. -/
theorem guesses_limited_six :
    ∃ ts s', GuessRun .offline 7 (guessedState 0 none 0 0) ts s' ∧ ts.length = 6 ∧ FarApart ts ∧
      ∃ r, s'.db.identity 7 = some r ∧ r.failedAttempts = ts.length := by
  obtain ⟨l, t, now, ts, hrun, hlen, -⟩ := guessRun_guessedState 6 (by decide)
  obtain ⟨hcount, hfar, -⟩ := guesses_limited .offline 7 _ _ ts ⟨_, rfl, rfl, rfl⟩ hrun
    (hlen ▸ by decide)
  exact ⟨ts, _, hrun, hlen, hfar, hcount⟩

/-- At the end of the counter a guess is checked and not counted. -/
theorem guesses_not_counted :
    ¬ ∀ (w : World) (id : Uuid) (s s' : State) (ts : List Time),
      (∃ r, s.db.identity id = some r ∧ r.failedAttempts = 0 ∧ r.lockedUntil = none) →
        GuessRun w id s ts s' → ∃ r, s'.db.identity id = some r ∧ r.failedAttempts = ts.length := by
  intro h
  obtain ⟨l, t, now, ts, hrun, hlen, hl⟩ := guessRun_guessedState maxInt (le_refl _)
  obtain ⟨hwrong, hchecks, hafter⟩ := wrongGuess_after (n := maxInt) (t := t) hl
  have hmore := hrun.call wrongGuess none none [] hwrong
  rw [hchecks, hafter, if_neg (lt_irrefl _)] at hmore
  obtain ⟨r, hr, hn⟩ := h _ _ _ _ _ ⟨_, rfl, rfl, rfl⟩ hmore
  obtain rfl : guessedRow maxInt l t = r := Option.some.inj hr
  rw [List.length_append, hlen] at hn
  exact absurd hn (Nat.ne_of_lt (Nat.lt_succ_self maxInt))

end Overflow

end Authrs
