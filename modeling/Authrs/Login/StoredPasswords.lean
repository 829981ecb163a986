import Authrs.Admin.PasswordReset
import Authrs.Login.Grants
import Authrs.Login.MobilePair

/-!
# The passwords that are stored

Six operations store the hash of a password. Each one first checks the password against the policy of
its tenant, so what is hashed has passed the check. The check counts the bytes of the password, and
the policy its characters.

## Main definitions

* `PasswordPolicy.Meets`: a password meets a policy
* `PasswordPolicy.LongInBytes`: it passes the check, and has too few characters
* `HashingCall`: the six operations
* `HashesWhen w s p x c`: run from `s`, the program hashes `x` exactly when `c`
* `HashingCall.Proceeds`: apart from the policy, the operation hashes the password

## Main results

* `meets_iff`: when a password that passes the check meets the policy
* `HashingCall.hashesWhen`: when an operation hashes its password
* `password_policy_iff`: when the policy holds of what is hashed
-/

namespace Authrs

open Interaction Relational

/-! ### Policies -/

/-- **A password meets a policy**: it has enough characters, and the kinds of them that are
required. -/
structure PasswordPolicy.Meets (w : World) (p : PasswordPolicy) (password : String) : Prop where
  length : ∀ n, p.minLength = some n → n ≤ password.length
  uppercase : p.requireUppercase = some true → ∃ c ∈ password.toList, w.isUppercase c = true
  digit : p.requireDigit = some true → ∃ c ∈ password.toList, isAsciiDigit c = true

/-- **A password passes the check with too few characters**: they are enough in bytes. -/
structure PasswordPolicy.LongInBytes (w : World) (p : PasswordPolicy) (password : String) :
    Prop where
  length : ∃ n, p.minLength = some n ∧ password.length < n ∧ n ≤ password.utf8ByteSize
  uppercase : p.requireUppercase = some true → ∃ c ∈ password.toList, w.isUppercase c = true
  digit : p.requireDigit = some true → ∃ c ∈ password.toList, isAsciiDigit c = true

/-- The password policy of a tenant. -/
def Db.HasPasswordPolicy (w : World) (db : Db) (tenantId : String) (p : PasswordPolicy) : Prop :=
  ∃ j, db.config w tenantId "password_policy" "default" = .ok (some j) ∧
    PasswordPolicy.fromValue j = some p

namespace AuthService

variable {w : World} {p : PasswordPolicy} {password : String}

/-- What passes the check. -/
theorem passwordPolicyError_eq_none :
    passwordPolicyError w password (some p) = none ↔
      (∀ n, p.minLength = some n → n ≤ password.utf8ByteSize) ∧
        (p.requireUppercase = some true → ∃ c ∈ password.toList, w.isUppercase c = true) ∧
          (p.requireDigit = some true → ∃ c ∈ password.toList, isAsciiDigit c = true) := by
  have hlength : ¬(p.minLength.any (password.utf8ByteSize < ·) = true) ↔
      ∀ n, p.minLength = some n → n ≤ password.utf8ByteSize := by
    cases p.minLength <;> simp
  have hkind : ∀ (required : Prop) (test : Char → Bool),
      ¬(required ∧ ¬(password.toList.any test = true)) ↔
        (required → ∃ c ∈ password.toList, test c = true) := by
    intro required test
    rw [not_and_not_right, List.any_eq_true]
  rw [← hlength, ← hkind, ← hkind]
  unfold passwordPolicyError
  dsimp only
  split
  · rename_i hshort
    exact iff_of_false (by rintro ⟨⟩) fun h => h.1 hshort
  · rename_i hlong
    split
    · rename_i hupper
      exact iff_of_false (by rintro ⟨⟩) fun h => h.2.1 hupper
    · rename_i hupper
      split
      · rename_i hdigit
        exact iff_of_false (by rintro ⟨⟩) fun h => h.2.2 hdigit
      · rename_i hdigit
        exact iff_of_true rfl ⟨hlong, hupper, hdigit⟩

/-- **A password that passes the check meets the policy** unless it has too few characters. -/
theorem meets_iff :
    passwordPolicyError w password (some p) = none →
      (p.Meets w password ↔ ¬p.LongInBytes w password) := by
  intro hpasses
  obtain ⟨hlength, hupper, hdigit⟩ := passwordPolicyError_eq_none.mp hpasses
  constructor
  · rintro hmeets ⟨⟨n, hn, hlt, -⟩, -, -⟩
    exact absurd (hmeets.length n hn) (not_le.mpr hlt)
  · intro hlong
    refine ⟨fun n hn => ?_, hupper, hdigit⟩
    by_contra hlt
    exact hlong ⟨⟨n, hn, not_le.mp hlt, hlength n hn⟩, hupper, hdigit⟩

theorem passes_of_longInBytes (h : p.LongInBytes w password) :
    passwordPolicyError w password (some p) = none := by
  obtain ⟨⟨n, hn, -, hle⟩, hupper, hdigit⟩ := h
  refine passwordPolicyError_eq_none.mpr ⟨fun n' hn' => ?_, hupper, hdigit⟩
  rw [hn] at hn'
  cases hn'
  exact hle

end AuthService

/-! ### Hashing a password -/

/-- A request to hash the password. -/
def Hashes (password : String) : Request → Prop
  | .hashPassword p => p = password
  | _ => False

/-- A request to store the password hash. -/
def StoresHash (passwordHash : String) : Request → Prop
  | .sql (.identities (.updatePassword _ h)) => h = passwordHash
  | .sql (.identities (.create _ _ _ _ _ h)) => h = some passwordHash
  | _ => False

/-- A request that neither hashes a password nor stores a hash. -/
def passive : Request → Bool
  | .hashPassword _ => false
  | .sql (.identities (.updatePassword ..)) => false
  | .sql (.identities (.create ..)) => false
  | _ => true

/-- A request that hashes nothing, and stores no hash but this one, if there is one. -/
def StoresOnly (passwordHash : Option String) (q : Request) : Prop :=
  (∀ x, ¬Hashes x q) ∧ ∀ h, StoresHash h q → passwordHash = some h

theorem not_hashes_of_passive {q : Request} (hq : passive q = true) (x : String) : ¬Hashes x q := by
  intro h
  unfold Hashes at h
  split at h
  · cases hq
  · exact h

theorem not_storesHash_of_passive {q : Request} (hq : passive q = true) (h : String) :
    ¬StoresHash h q := by
  intro hstores
  unfold StoresHash at hstores
  split at hstores
  · cases hq
  · cases hq
  · exact hstores

theorem storesOnly_of_passive {passwordHash : Option String} {q : Request} (hq : passive q = true) :
    StoresOnly passwordHash q :=
  ⟨not_hashes_of_passive hq, fun h hh => absurd hh (not_storesHash_of_passive hq h)⟩

/-- **Run from `s`, the program hashes `x` exactly when `c`**, and no other password; and what it
stores is the hash of `x`. -/
structure HashesWhen {α : Type} (w : World) (s : State) (p : Service α) (x : String) (c : Prop) :
    Prop where
  hashes : ∀ y, p.Reaches (handle w) (Hashes y) s ↔ c ∧ x = y
  stores : ∀ h, p.Reaches (handle w) (StoresHash h) s → c ∧ w.hashPassword s.draws x = .ok h

namespace HashesWhen

open Program

variable {w : World} {s : State} {α β : Type} {p : Service α} {f : α → Service β} {x : String}
  {c d : Prop}

theorem congr {p : Service α} (h : HashesWhen w s p x c) (hc : c ↔ d) : HashesWhen w s p x d :=
  propext hc ▸ h

/-- A program that neither hashes nor stores. -/
theorem nothing (hp : p.Asks (StoresOnly none)) : HashesWhen w s p x False where
  hashes y := iff_of_false (hp.not_reaches (fun _ hq => hq.1 y) s) (·.1)
  stores h hh := by
    refine absurd hh (hp.not_reaches (fun q hq hstores => ?_) s)
    cases hq.2 h hstores

/-- **The password is hashed**, and its hash is all that is stored. -/
theorem hash {f : String → Service β} (hf : ∀ h, (f h).Asks (StoresOnly (some h))) :
    HashesWhen w s ((hashPassword x).bind f) x True where
  hashes y := by
    rw [reaches_bind, true_and]
    constructor
    · rintro (h | ⟨passwordHash, s₁, -, h⟩)
      · rcases (reaches_ask _ _ s).mp h with h | h
        · exact h
        · exact absurd h ((asks_ofExcept _).not_reaches (S := fun _ => False) (fun _ h => h.elim) _)
      · exact absurd h ((hf passwordHash).not_reaches (fun _ hq => hq.1 y) s₁)
    · rintro rfl
      exact .inl ((reaches_ask _ _ s).mpr (.inl rfl))
  stores h := by
    rw [reaches_bind, true_and]
    rintro (hh | ⟨passwordHash, s₁, hexec, hh⟩)
    · rcases (reaches_ask _ _ s).mp hh with hh | hh
      · exact hh.elim
      · exact absurd hh ((asks_ofExcept _).not_reaches (S := fun _ => False) (fun _ h => h.elim) _)
    · obtain ⟨hhash, rfl⟩ := exec_hashPassword_eq_ok.mp hexec
      by_contra hne
      refine (hf passwordHash).not_reaches (fun q hq hstores => hne ?_) _ hh
      cases hq.2 h hstores
      exact hhash

/-- After a part that neither hashes nor stores, and leaves the state as it is. -/
theorem read {a : α} (hp : p.Asks fun q => passive q = true)
    (hexec : p.exec (handle w) s = (.ok a, s)) (h : HashesWhen w s (f a) x c) :
    HashesWhen w s (p.bind f) x c where
  hashes y := by
    rw [hp.reaches_bind_ok (fun _ hq => not_hashes_of_passive hq y) hexec]
    exact h.hashes y
  stores y := by
    rw [hp.reaches_bind_ok (fun _ hq => not_storesHash_of_passive hq y) hexec]
    exact h.stores y

/-- After a check. -/
theorem check {p : Service Unit} {f : Unit → Service β} (hp : p.Asks fun q => passive q = true)
    (hexec : ∀ {s'}, p.exec (handle w) s = (.ok (), s') ↔ d ∧ s = s')
    (h : HashesWhen w s (f ()) x c) : HashesWhen w s (p.bind f) x (d ∧ c) where
  hashes y := by
    rw [hp.reaches_bind_check (fun _ hq => not_hashes_of_passive hq y) hexec, h.hashes, and_assoc]
  stores y := by
    rw [hp.reaches_bind_check (fun _ hq => not_storesHash_of_passive hq y) hexec, and_assoc]
    exact And.imp_right (h.stores y)

theorem ensure [Decidable d] {e : AppError} {f : Unit → Service β}
    (h : HashesWhen w s (f ()) x c) : HashesWhen w s ((Service.ensure d e).bind f) x (d ∧ c) :=
  check (asks_ensure d e) Service.exec_ensure_eq_ok h

theorem okOr {o : Option α} {e : AppError} {f : α → Service β} {c : α → Prop}
    (h : ∀ a, HashesWhen w s (f a) x (c a)) :
    HashesWhen w s ((Service.okOr o e).bind f) x (∃ a, o = some a ∧ c a) := by
  cases o with
  | none => exact (nothing (p := (Service.okOr none e).bind f) trivial).congr (by simp)
  | some a => exact (h a).congr (by simp)

end HashesWhen

/-! ### The operations -/

/-- The operations that store the hash of a password. -/
inductive HashingCall
  | signup (tenantId firstName lastName email : String) (mobile countryCode : Option String)
      (password retypePassword : String)
  | resetPassword (tenantId token newPassword retypePassword : String)
  | changePassword (tenantId : String) (userId : Uuid)
      (currentPassword newPassword retypePassword : String)
  | forceChangePassword (changeToken newPassword retypePassword : String)
      (ip userAgent : Option String)
  | adminCreateUser (tenantId : String)
      (firstName lastName email username mobile countryCode password retypePassword : Option String)
  | adminResetPassword (tenantId : String) (userId : Uuid) (newPassword retypePassword : String)
      (forcePasswordChange : Bool)

namespace HashingCall

/-- The operation, with its result dropped. -/
def run (w : World) : HashingCall → Service Unit
  | signup tenantId firstName lastName email mobile countryCode password retypePassword => do
    let _ ← AuthService.signup w tenantId firstName lastName email mobile countryCode password
      retypePassword
    pure ()
  | resetPassword tenantId token newPassword retypePassword =>
    AuthService.resetPassword w tenantId token newPassword retypePassword
  | changePassword tenantId userId currentPassword newPassword retypePassword =>
    AuthService.changePassword w tenantId userId currentPassword newPassword retypePassword
  | forceChangePassword changeToken newPassword retypePassword ip userAgent => do
    let _ ← AuthService.forceChangePassword w changeToken newPassword retypePassword ip userAgent
    pure ()
  | adminCreateUser tenantId firstName lastName email username mobile countryCode password
      retypePassword => do
    let _ ← AuthService.adminCreateUser w tenantId firstName lastName email username mobile
      countryCode password retypePassword
    pure ()
  | adminResetPassword tenantId userId newPassword retypePassword forcePasswordChange =>
    AuthService.adminResetPassword w tenantId userId newPassword retypePassword forcePasswordChange

/-- The tenant that the operation runs in: a forced change runs in that of its token. -/
def tenant (s : State) : HashingCall → Option String
  | signup tenantId .. => some tenantId
  | resetPassword tenantId .. => some tenantId
  | changePassword tenantId .. => some tenantId
  | forceChangePassword changeToken .. =>
    (s.db.forceChangeToken s.now changeToken).map (·.tenantId)
  | adminCreateUser tenantId .. => some tenantId
  | adminResetPassword tenantId .. => some tenantId

/-- The password that the operation is given. -/
def password : HashingCall → Option String
  | signup _ _ _ _ _ _ password _ => some password
  | resetPassword _ _ newPassword _ => some newPassword
  | changePassword _ _ _ newPassword _ => some newPassword
  | forceChangePassword _ newPassword .. => some newPassword
  | adminCreateUser _ _ _ _ _ _ _ password _ => password
  | adminResetPassword _ _ newPassword .. => some newPassword

/-- **Apart from the policy, the operation hashes the password**: its other checks pass. -/
def Proceeds (w : World) (s : State) : HashingCall → Prop
  | signup tenantId _ _ email mobile countryCode password retypePassword =>
    password = retypePassword ∧ trim email ≠ "" ∧ s.db.permitsEmail w tenantId (trim email) ∧
      AuthService.mobileWithoutCode mobile countryCode = false ∧
      s.db.member tenantId (trim email) = none ∧
        s.db.resolved w.lower (some (trim email)) (nonEmptyTrimmed mobile)
          (nonEmptyTrimmed countryCode) = none
  | resetPassword _ token newPassword retypePassword =>
    newPassword = retypePassword ∧ trim token ≠ "" ∧
      (s.db.passwordResetTokens.selectOne fun r =>
        r.token = trim token && s.now < r.expiresAt).isSome = true
  | changePassword tenantId userId currentPassword newPassword retypePassword =>
    newPassword = retypePassword ∧
      ∃ user, (s.db.memberships.find? fun u => u.tenantId = tenantId && u.id = userId) = some user ∧
        ∃ i passwordHash, s.db.identity user.identityId = some i ∧
          i.passwordHash = some passwordHash ∧
            w.verifyPassword passwordHash currentPassword = .ok true
  | forceChangePassword changeToken newPassword retypePassword _ _ =>
    newPassword = retypePassword ∧ ∃ row, s.db.forceChangeToken s.now changeToken = some row ∧
      ∃ user, (s.db.memberships.find? fun u =>
          u.tenantId = row.tenantId && u.id = row.userId) = some user ∧
        ∀ v, user.accessValidUntil = some v → ¬v < s.now
  | adminCreateUser tenantId _ _ email username mobile countryCode password retypePassword =>
    password = retypePassword ∧ hasValidIdentity (nonEmptyTrimmed email) (nonEmptyTrimmed mobile)
        (nonEmptyTrimmed countryCode) (nonEmptyTrimmed username) = true ∧
      (∀ e ∈ nonEmptyTrimmed email, s.db.member tenantId e = none) ∧
        ∀ u ∈ nonEmptyTrimmed username, (s.db.memberships.find? fun m =>
          m.tenantId = tenantId && m.username = some u) = none
  | adminResetPassword tenantId userId newPassword retypePassword _ =>
    newPassword = retypePassword ∧
      ∃ user, (s.db.memberships.find? fun u => u.tenantId = tenantId && u.id = userId) = some user ∧
        (s.db.memberships.filter fun u =>
          u.identityId = user.identityId && u.status ≠ "archived").length ≤ 1

end HashingCall

section Parts

open AuthService Program

variable {w : World} {s : State} {x : String} {c : Prop} {β : Type}

theorem query_passive {q : Sql} (hq : passive (.sql q) = true) :
    (query q).Asks fun q => passive q = true := asks_query hq

theorem execute_passive {q : Sql} (hq : passive (.sql q) = true) :
    (execute q).Asks fun q => passive q = true := asks_execute hq

theorem redis_passive (c : RedisCommand) : (redis c).Asks fun q => passive q = true :=
  asks_redis rfl

theorem getTyped_passive {α : Type} (tenantId groupKey key : String) (fromValue : Json → Option α) :
    (TenantConfigLoader.getTyped w tenantId groupKey key fromValue).Asks fun q =>
      passive q = true := by
  have hget : (TenantConfigLoader.get w tenantId groupKey key).Asks fun q => passive q = true :=
    (query_passive rfl).bind fun _ => asks_ofExcept _
  exact hget.bind fun _ => trivial

theorem validatePassword_passive (tenantId password : String) :
    (validatePassword w tenantId password).Asks fun q => passive q = true := by
  refine (getTyped_passive tenantId _ _ _).bind fun policy => ?_
  cases passwordPolicyError w password policy <;> trivial

theorem ensureEmailDomainAllowed_passive (tenantId email : String) :
    (ensureEmailDomainAllowed w tenantId email).Asks fun q => passive q = true :=
  (getTyped_passive tenantId _ _ _).bind fun _ => asks_ensure _ _

theorem checkAccess_passive (user : User) :
    (checkAccess user).Asks fun q => passive q = true := by
  unfold checkAccess
  cases user.accessValidUntil with
  | none => trivial
  | some v => exact ⟨rfl, fun t => asks_ensure _ _⟩

theorem identityOfEmail_passive (email : Option String) :
    (identityOfEmail email).Asks fun q => passive q = true := by
  cases email with
  | none => trivial
  | some e => exact query_passive rfl

theorem identityOfMobile_passive (mobile countryCode : Option String) :
    (identityOfMobile mobile countryCode).Asks fun q => passive q = true := by
  cases mobile with
  | none => trivial
  | some m =>
    cases countryCode with
    | none => trivial
    | some c => exact query_passive rfl

theorem signupCollision_passive (email : String) (mobile countryCode : Option String) :
    (signupCollision email mobile countryCode).Asks fun q => passive q = true := by
  refine (identityOfEmail_passive (some email)).bind fun byEmail => ?_
  cases byEmail with
  | some i => trivial
  | none => exact identityOfMobile_passive mobile countryCode

theorem inviteExisting_passive (identity : Identity) (tenantId email : String)
    (firstName lastName : Option String) :
    (inviteExisting identity tenantId email firstName lastName).Asks fun q => passive q = true :=
  ⟨rfl, fun _ => ⟨rfl, fun _ => ((execute_passive rfl).bind fun _ =>
    execute_passive rfl).bind fun _ => trivial⟩⟩

theorem createMembership_passive (identity : Identity) (tenantId : String)
    (username : Option String) :
    (UsersRepo.create identity tenantId username).Asks fun q => passive q = true :=
  ⟨rfl, fun _ => ⟨rfl, fun _ =>
    (execute_passive rfl).bind fun _ => trivial⟩⟩

theorem setSession_passive (sessionToken : String) (payload : SessionPayload) (ttlSecs : Nat) :
    (SessionStore.set w sessionToken payload ttlSecs).Asks fun q => passive q = true := by
  unfold SessionStore.set
  split
  · exact execute_passive rfl
  · exact (redis_passive _).bind fun _ => (redis_passive _).bind fun _ =>
      (redis_passive _).bind fun _ => (addDay_asks ttlSecs).bind fun _ => redis_passive _

theorem doCreateSession_passive (tenantId : String) (user : User) (ip userAgent : Option String) :
    (doCreateSession w tenantId user ip userAgent).Asks fun q => passive q = true := by
  have hload : (loadGrants tenantId user.id).Asks fun q => passive q = true :=
    loadGrants_asks_lookups (fun q hq => by cases q <;> first | rfl | exact absurd rfl hq) _ _
  have htoken : randomToken.Asks fun q => passive q = true := ⟨rfl, fun _ => trivial⟩
  refine hload.bind fun grants => (sessionTtl_asks fun _ => rfl).bind fun ttlSecs => ?_
  refine (nowPlusSeconds_asks (S := fun q => passive q = true) rfl _).bind fun expiresAt => ?_
  refine htoken.bind fun token => (setSession_passive _ _ _).bind fun _ => ?_
  refine Program.Asks.bind ?_ fun _ => trivial
  unfold auditSession
  split
  · trivial
  · exact execute_passive rfl

theorem finalizeLogin_passive (tenantId : String) (user : User) (identity : Identity)
    (ip userAgent : Option String) :
    (finalizeLogin w tenantId user identity ip userAgent).Asks fun q => passive q = true := by
  unfold finalizeLogin
  split
  · exact ⟨rfl, fun _ => ⟨rfl, fun _ => ((execute_passive rfl).bind
      fun _ => execute_passive rfl).bind fun _ => trivial⟩⟩
  · split
    · exact ⟨rfl, fun _ => ⟨rfl, fun _ => ((execute_passive rfl).bind
        fun _ => execute_passive rfl).bind fun _ => trivial⟩⟩
    · exact doCreateSession_passive tenantId user ip userAgent

/-- The hash is stored with a statement of its own. -/
theorem updatePassword_storesOnly (identityId : Uuid) (passwordHash : String) :
    (IdentitiesRepo.updatePassword identityId passwordHash).Asks
      (StoresOnly (some passwordHash)) :=
  asks_execute ⟨fun _ => id, fun _ h => congrArg some h⟩

end Parts

section Operations

open AuthService Program

variable {w : World} {s : State}

theorem signup_hashesWhen {tenantId firstName lastName email password retypePassword : String}
    {mobile countryCode : Option String} :
    HashesWhen w s (signup w tenantId firstName lastName email mobile countryCode password
        retypePassword) password
      (trim email ≠ "" ∧ s.db.permitsEmail w tenantId (trim email) ∧ password = retypePassword ∧
        policyOutcome w s.db tenantId password = .ok () ∧ mobileWithoutCode mobile countryCode = false ∧
          s.db.member tenantId (trim email) = none ∧
            s.db.resolved w.lower (some (trim email)) (nonEmptyTrimmed mobile)
              (nonEmptyTrimmed countryCode) = none) := by
  unfold signup ensureRetyped
  refine .ensure (.check (ensureEmailDomainAllowed_passive _ _) exec_ensureEmailDomainAllowed_eq_ok
    (.ensure (.check (validatePassword_passive _ _) exec_validatePassword_eq_ok (.ensure (.read
      (query_passive rfl) (exec_query_read rfl rfl) (.ensure (.read (signupCollision_passive _ _ _)
        (exec_signupCollision_eq _ _ _) ?_)))))))
  generalize s.db.resolved w.lower (some (trim email)) (nonEmptyTrimmed mobile)
    (nonEmptyTrimmed countryCode) = found
  cases found with
  | some r =>
    have hinvite : (inviteExisting r.toIdentity tenantId (trim email)
        (nonEmptyTrimmed (some firstName)) (nonEmptyTrimmed (some lastName))).Asks
          (StoresOnly none) :=
      (inviteExisting_passive _ _ _ _ _).mono fun _ => storesOnly_of_passive
    exact (HashesWhen.nothing hinvite).congr (by simp)
  | none =>
    refine (HashesWhen.hash fun h => ?_).congr (by simp)
    have hcreate : (IdentitiesRepo.create (some (trim email)) (nonEmptyTrimmed mobile)
        (nonEmptyTrimmed countryCode) (nonEmptyTrimmed (some firstName))
          (nonEmptyTrimmed (some lastName)) (some h)).Asks (StoresOnly (some h)) :=
      asks_query ⟨fun _ => id, fun _ h => h⟩
    refine hcreate.bind fun identity => Program.Asks.bind ?_ fun _ => trivial
    exact (createMembership_passive identity tenantId none).mono fun _ => storesOnly_of_passive

theorem resetPassword_hashesWhen {tenantId token newPassword retypePassword : String} :
    HashesWhen w s (resetPassword w tenantId token newPassword retypePassword) newPassword
      (trim token ≠ "" ∧ newPassword = retypePassword ∧
        policyOutcome w s.db tenantId newPassword = .ok () ∧
          ∃ identityId, (s.db.passwordResetTokens.selectOne fun r =>
            r.token = trim token && s.now < r.expiresAt).map (·.identityId) = some identityId ∧
              True) := by
  have hvalid : (PasswordResetTokensRepo.getValid (trim token)).Asks fun q => passive q = true :=
    ⟨rfl, fun _ => query_passive rfl⟩
  unfold resetPassword ensureRetyped
  refine .ensure (.ensure (.check (validatePassword_passive _ _) exec_validatePassword_eq_ok
    (.read hvalid rfl (.okOr fun identityId => .hash fun h => ?_))))
  exact (updatePassword_storesOnly identityId h).bind fun _ =>
    (execute_passive rfl).mono fun _ => storesOnly_of_passive

theorem HashesWhen.loadIdentity {β : Type} {identityId : Uuid} {f : Identity → Service β} {x : String}
    {c : Identity → Prop} (h : ∀ i, HashesWhen w s (f i) x (c i)) :
    HashesWhen w s ((loadIdentity identityId).bind f) x
      (∃ i, (s.db.identity identityId).map IdentityRow.toIdentity = some i ∧ c i) := by
  unfold AuthService.loadIdentity
  rw [Program.bind_eq, Program.bind_assoc]
  exact .read (query_passive rfl) (IdentitiesRepo.exec_getById w s identityId) (.okOr h)

/-- After the current password has been verified. -/
theorem HashesWhen.verify {β : Type} {passwordHash password x : String} {f : Bool → Service β}
    {c : Bool → Prop} (h : ∀ b, HashesWhen w s (f b) x (c b)) :
    HashesWhen w s ((verifyPassword w passwordHash password).bind f) x
      (∃ b, w.verifyPassword passwordHash password = .ok b ∧ c b) := by
  unfold AuthService.verifyPassword
  cases w.verifyPassword passwordHash password with
  | error e => exact (HashesWhen.nothing (p := (Service.ofResult (.error _)).bind f) trivial).congr (by simp)
  | ok b => exact (h b).congr (by simp)

theorem changePassword_hashesWhen {tenantId currentPassword newPassword retypePassword : String}
    {userId : Uuid} :
    HashesWhen w s (changePassword w tenantId userId currentPassword newPassword retypePassword)
      newPassword
      (newPassword = retypePassword ∧ policyOutcome w s.db tenantId newPassword = .ok () ∧
        ∃ user, (s.db.memberships.find? fun u => u.tenantId = tenantId && u.id = userId) = some user ∧
          ∃ i, (s.db.identity user.identityId).map IdentityRow.toIdentity = some i ∧
            ∃ passwordHash, i.passwordHash = some passwordHash ∧
              ∃ correct, w.verifyPassword passwordHash currentPassword = .ok correct ∧
                correct = true ∧ True) := by
  unfold changePassword ensureRetyped
  refine .ensure (.check (validatePassword_passive _ _) exec_validatePassword_eq_ok
    (.read (query_passive rfl) (UsersRepo.exec_getById w s tenantId userId) (.okOr fun user => ?_)))
  refine .loadIdentity fun i => .okOr fun passwordHash => .verify fun correct => .ensure ?_
  exact .hash fun h => updatePassword_storesOnly i.id h

theorem forceChangePassword_hashesWhen {changeToken newPassword retypePassword : String}
    {ip userAgent : Option String} :
    HashesWhen w s (forceChangePassword w changeToken newPassword retypePassword ip userAgent)
      newPassword
      (∃ found : String × Uuid, (s.db.forceChangeToken s.now changeToken).map
          (fun r => (r.tenantId, r.userId)) = some found ∧
        newPassword = retypePassword ∧ policyOutcome w s.db found.1 newPassword = .ok () ∧
          ∃ user, (s.db.memberships.find? fun u => u.tenantId = found.1 && u.id = found.2) =
              some user ∧
            (∀ v, user.accessValidUntil = some v → ¬v < s.now) ∧ True) := by
  unfold forceChangePassword ensureRetyped
  refine .read (query_passive rfl) rfl (.okOr fun found => ?_)
  refine .ensure (.check (validatePassword_passive _ _) exec_validatePassword_eq_ok
    (.read (query_passive rfl) (UsersRepo.exec_getById w s found.1 found.2) (.okOr fun user => ?_)))
  refine .check (checkAccess_passive user) exec_checkAccess_eq_ok (.hash fun h => ?_)
  have htail : (ForceChangeTokensRepo.deleteByToken changeToken).Asks fun q => passive q = true :=
    execute_passive rfl
  have hload : (AuthService.loadIdentity user.identityId).Asks fun q => passive q = true :=
    (query_passive rfl).bind fun _ => asks_okOr _ _
  exact (updatePassword_storesOnly _ h).bind fun _ => (htail.bind fun _ => hload.bind fun identity =>
    finalizeLogin_passive found.1 user identity ip userAgent).mono fun _ => storesOnly_of_passive

theorem adminResetPassword_hashesWhen {tenantId newPassword retypePassword : String} {userId : Uuid}
    {forcePasswordChange : Bool} :
    HashesWhen w s (adminResetPassword w tenantId userId newPassword retypePassword
        forcePasswordChange) newPassword
      (newPassword = retypePassword ∧ policyOutcome w s.db tenantId newPassword = .ok () ∧
        ∃ user, (s.db.memberships.find? fun u => u.tenantId = tenantId && u.id = userId) = some user ∧
          (s.db.memberships.filter fun u =>
            u.identityId = user.identityId && u.status ≠ "archived").length ≤ 1) := by
  unfold adminResetPassword ensureRetyped
  refine .ensure (.check (validatePassword_passive _ _) exec_validatePassword_eq_ok
    (.read (query_passive rfl) (UsersRepo.exec_getById w s tenantId userId) (.okOr fun user => ?_)))
  refine .read (query_passive rfl) (UsersRepo.exec_getMembershipsForIdentity w s user.identityId) ?_
  rw [List.length_insertionSort]
  by_cases hmany : 1 < (s.db.memberships.filter fun u =>
      u.identityId = user.identityId && u.status ≠ "archived").length
  · rw [if_pos hmany]
    have hforce : (forceSharedChange user.identityId forcePasswordChange).Asks fun q =>
        passive q = true := (asks_ensure _ _).bind fun _ => execute_passive rfl
    exact (HashesWhen.nothing (hforce.mono fun _ => storesOnly_of_passive)).congr (iff_of_false id (not_le.mpr hmany))
  · rw [if_neg hmany]
    refine (HashesWhen.hash fun h => ?_).congr (iff_of_true trivial (not_lt.mp hmany))
    exact (updatePassword_storesOnly _ h).bind fun _ =>
      (execute_passive rfl).mono fun _ => storesOnly_of_passive

theorem HashesWhen.emailFree {β : Type} {tenantId x : String} {email : Option String}
    {f : Unit → Service β} {c : Prop} (h : HashesWhen w s (f ()) x c) :
    HashesWhen w s ((ensureEmailFree tenantId email).bind f) x
      ((∀ e ∈ email, s.db.member tenantId e = none) ∧ c) := by
  cases email with
  | none => exact h.congr (by simp)
  | some e =>
    unfold ensureEmailFree
    simp only [Program.bind_eq, Program.bind_assoc]
    exact (HashesWhen.read (query_passive rfl) (exec_query_read rfl rfl)
      (.ensure (d := s.db.member tenantId e = none) h)).congr (by simp)

theorem HashesWhen.usernameFree {β : Type} {tenantId x : String} {username : Option String}
    {f : Unit → Service β} {c : Prop} (h : HashesWhen w s (f ()) x c) :
    HashesWhen w s ((ensureUsernameFree tenantId username).bind f) x
      ((∀ u ∈ username,
        (s.db.memberships.find? fun m => m.tenantId = tenantId && m.username = some u) = none) ∧
          c) := by
  cases username with
  | none => exact h.congr (by simp)
  | some u =>
    unfold ensureUsernameFree
    simp only [Program.bind_eq, Program.bind_assoc]
    exact (HashesWhen.read (query_passive rfl) (exec_query_read rfl rfl) (.ensure h)).congr (by simp)

/-- What follows the hash in an administrator's user creation. -/
theorem resolveOrCreate_storesOnly
    {email mobile countryCode firstName lastName username : Option String} {tenantId : String}
    (passwordHash : Option String) :
    ((resolveOrCreateIdentity email mobile countryCode firstName lastName passwordHash).bind
      fun identity => UsersRepo.create identity tenantId username).Asks
        (StoresOnly passwordHash) := by
  have hpassive : ∀ {α : Type} {p : Service α}, (p.Asks fun q => passive q = true) →
      p.Asks (StoresOnly passwordHash) := fun hp => hp.mono fun _ => storesOnly_of_passive
  refine Program.Asks.bind ?_ fun identity => hpassive (createMembership_passive _ _ _)
  refine (hpassive (identityOfEmail_passive email)).bind fun byEmail => ?_
  cases byEmail with
  | some i => trivial
  | none =>
    refine (hpassive (identityOfMobile_passive mobile countryCode)).bind fun byMobile => ?_
    cases byMobile with
    | some i => trivial
    | none => exact asks_query ⟨fun _ => id, fun _ h => h⟩

theorem adminCreateUser_hashesWhen {tenantId p retypePassword : String}
    {firstName lastName email username mobile countryCode : Option String} :
    HashesWhen w s (adminCreateUser w tenantId firstName lastName email username mobile countryCode
        (some p) (some retypePassword)) p
      (hasValidIdentity (nonEmptyTrimmed email) (nonEmptyTrimmed mobile)
          (nonEmptyTrimmed countryCode) (nonEmptyTrimmed username) = true ∧
        (∀ e ∈ nonEmptyTrimmed email, s.db.member tenantId e = none) ∧
        (∀ u ∈ nonEmptyTrimmed username, (s.db.memberships.find? fun m =>
          m.tenantId = tenantId && m.username = some u) = none) ∧
        p = retypePassword ∧ policyOutcome w s.db tenantId p = .ok () ∧ True) := by
  unfold adminCreateUser hashOptionalPassword ensureRetyped
  refine .ensure (.emailFree (.usernameFree ?_))
  simp only [Program.bind_eq, Program.bind_assoc]
  refine .ensure (.check (validatePassword_passive _ _) exec_validatePassword_eq_ok (.hash fun h => ?_))
  exact resolveOrCreate_storesOnly (some h)

/-- Without both, an administrator's user creation hashes nothing. -/
theorem adminCreateUser_hashesNone {tenantId x : String}
    {firstName lastName email username mobile countryCode password retypePassword : Option String}
    (h : password = none ∨ retypePassword = none) :
    HashesWhen w s (adminCreateUser w tenantId firstName lastName email username mobile countryCode
        password retypePassword) x False := by
  have hrest : ∀ {β : Type} (f : Option String → Service β),
      (∀ o, o = none → (f o).Asks (StoresOnly none)) →
        ((hashOptionalPassword w tenantId password retypePassword).bind f).Asks (StoresOnly none) := by
    intro β f hf
    rcases password with - | p
    · rcases retypePassword with - | r
      · exact hf none rfl
      · trivial
    · rcases retypePassword with - | r
      · trivial
      · rcases h with h | h <;> cases h
  unfold adminCreateUser
  refine (HashesWhen.ensure (.emailFree (.usernameFree (.nothing (hrest _ ?_))))).congr (by simp)
  rintro o rfl
  exact resolveOrCreate_storesOnly none

end Operations

namespace HashingCall

open AuthService

variable {w : World} {s : State} {x : String}

/-- The result is dropped. -/
theorem hashesWhen_drop {α : Type} {p : Service α} {c : Prop} (h : HashesWhen w s p x c) :
    HashesWhen w s (p.bind fun _ => (.pure () : Service Unit)) x c where
  hashes y := by
    rw [Program.reaches_bind]
    simp [h.hashes y]
  stores y := by
    rw [Program.reaches_bind]
    simpa using h.stores y

/-- **When an operation hashes its password**: its other checks pass, and the password passes that of
the tenant's policy. -/
theorem hashesWhen {c : HashingCall} (hx : c.password = some x) :
    HashesWhen w s (c.run w) x
      (c.Proceeds w s ∧ ∃ T, c.tenant s = some T ∧ policyOutcome w s.db T x = .ok ()) := by
  -- Each call hashes after its checks and the policy of its tenant, which the statement orders differently.
  cases c with
  | signup =>
    cases hx
    refine (hashesWhen_drop signup_hashesWhen).congr ?_
    simp only [Proceeds, tenant, Option.some.injEq, exists_eq_left']
    tauto
  | resetPassword =>
    cases hx
    refine resetPassword_hashesWhen.congr ?_
    simp only [Proceeds, tenant, Option.some.injEq, exists_eq_left', and_true,
      ← Option.isSome_iff_exists, Option.isSome_map]
    tauto
  | changePassword tenantId userId currentPassword newPassword retypePassword =>
    cases hx
    refine changePassword_hashesWhen.congr ?_
    simp only [Proceeds, tenant, Option.some.injEq, exists_eq_left', Option.map_eq_some_iff]
    constructor
    · rintro ⟨hretype, hpolicy, user, huser, _, ⟨i, hi, rfl⟩, hash, hhash, correct, hverify, rfl, -⟩
      exact ⟨⟨hretype, user, huser, i, hash, hi, hhash, hverify⟩, hpolicy⟩
    · rintro ⟨⟨hretype, user, huser, i, hash, hi, hhash, hverify⟩, hpolicy⟩
      exact ⟨hretype, hpolicy, user, huser, _, ⟨i, hi, rfl⟩, hash, hhash, true, hverify, rfl, trivial⟩
  | forceChangePassword changeToken newPassword retypePassword ip userAgent =>
    cases hx
    refine (hashesWhen_drop forceChangePassword_hashesWhen).congr ?_
    simp only [Proceeds, tenant, Option.map_eq_some_iff]
    constructor
    · rintro ⟨_, ⟨row, hrow, rfl⟩, hretype, hpolicy, user, huser, haccess, -⟩
      exact ⟨⟨hretype, row, hrow, user, huser, haccess⟩, row.tenantId, ⟨row, hrow, rfl⟩, hpolicy⟩
    · rintro ⟨⟨hretype, row, hrow, user, huser, haccess⟩, _, ⟨row', hrow', rfl⟩, hpolicy⟩
      rw [hrow] at hrow'
      cases hrow'
      exact ⟨_, ⟨row, hrow, rfl⟩, hretype, hpolicy, user, huser, haccess, trivial⟩
  | adminCreateUser tenantId firstName lastName email username mobile countryCode password
      retypePassword =>
    cases hx
    cases retypePassword with
    | none =>
      refine (hashesWhen_drop (adminCreateUser_hashesNone (.inr rfl))).congr (iff_of_false id ?_)
      rintro ⟨⟨hretype, -⟩, -⟩
      cases hretype
    | some r =>
      refine (hashesWhen_drop adminCreateUser_hashesWhen).congr ?_
      simp only [Proceeds, tenant, Option.some.injEq, exists_eq_left', and_true]
      tauto
  | adminResetPassword =>
    cases hx
    refine adminResetPassword_hashesWhen.congr ?_
    simp only [Proceeds, tenant, Option.some.injEq, exists_eq_left']
    tauto

/-- An operation that is given no password hashes none. -/
theorem hashesNone {c : HashingCall} (hx : c.password = none) : HashesWhen w s (c.run w) x False := by
  cases c with
  | adminCreateUser => exact hashesWhen_drop (adminCreateUser_hashesNone (.inl hx))
  | _ => cases hx

/-- **What an operation hashes.** -/
theorem reaches_hashes_iff {c : HashingCall} :
    (c.run w).Reaches (handle w) (Hashes x) s ↔
      c.password = some x ∧ c.Proceeds w s ∧
        ∃ T, c.tenant s = some T ∧ policyOutcome w s.db T x = .ok () := by
  cases hx : c.password with
  | none => simpa using (hashesNone (x := x) hx).hashes x
  | some y =>
    rw [(hashesWhen hx).hashes, Option.some.injEq]
    constructor
    · rintro ⟨hc, rfl⟩
      exact ⟨rfl, hc⟩
    · rintro ⟨rfl, hc⟩
      exact ⟨hc, rfl⟩

/-- **What an operation stores** is the hash of what it hashes. -/
theorem hashes_of_stores {c : HashingCall} {h : String}
    (hstores : (c.run w).Reaches (handle w) (StoresHash h) s) :
    ∃ x, (c.run w).Reaches (handle w) (Hashes x) s ∧ w.hashPassword s.draws x = .ok h := by
  cases hx : c.password with
  | none => exact absurd ((hashesNone (x := h) hx).stores h hstores).1 id
  | some x =>
    obtain ⟨hc, hhash⟩ := (hashesWhen hx).stores h hstores
    exact ⟨x, ((hashesWhen hx).hashes x).mpr ⟨hc, rfl⟩, hhash⟩

/-- **The policy of its tenant holds of every password that the operation hashes.** -/
def PolicyHolds (w : World) (s : State) (c : HashingCall) : Prop :=
  ∀ T p x, c.tenant s = some T → s.db.HasPasswordPolicy w T p →
    (c.run w).Reaches (handle w) (Hashes x) s → p.Meets w x

/-- The password is hashed although it has too few characters: it has enough bytes, and passes every
other check. -/
def StoresShort (w : World) (s : State) (c : HashingCall) : Prop :=
  ∃ T p x, c.tenant s = some T ∧ s.db.HasPasswordPolicy w T p ∧ c.password = some x ∧
    c.Proceeds w s ∧ p.LongInBytes w x

theorem policyOutcome_eq_ok {db : Db} {T : String} {p : PasswordPolicy}
    (h : db.HasPasswordPolicy w T p) :
    policyOutcome w db T x = .ok () ↔ passwordPolicyError w x (some p) = none := by
  obtain ⟨j, hj, hp⟩ := h
  unfold policyOutcome
  simp only [hj, bind, Except.bind, Option.bind, hp]
  cases passwordPolicyError w x (some p) <;> simp

theorem policyHolds_iff {c : HashingCall} : c.PolicyHolds w s ↔ ¬c.StoresShort w s := by
  constructor
  · rintro hholds ⟨T, p, x, hT, hp, hx, hproceeds, hlong⟩
    have hpasses := passes_of_longInBytes hlong
    have hreaches := reaches_hashes_iff.mpr
      ⟨hx, hproceeds, T, hT, (policyOutcome_eq_ok hp).mpr hpasses⟩
    exact (meets_iff hpasses).mp (hholds T p x hT hp hreaches) hlong
  · intro hshort T p x hT hp hreaches
    obtain ⟨hx, hproceeds, T', hT', hpolicy⟩ := reaches_hashes_iff.mp hreaches
    rw [hT] at hT'
    cases hT'
    have hpasses := (policyOutcome_eq_ok hp).mp hpolicy
    exact (meets_iff hpasses).mpr fun hlong => hshort ⟨T, p, x, hT, hp, hx, hproceeds, hlong⟩

end HashingCall

/-- **When the password policy holds of what is stored**: what an operation stores is the hash of what
it hashes, and that meets the policy of the tenant unless its bytes are enough where its characters
are not. -/
theorem password_policy_iff (w : World) (s : State) (c : HashingCall) :
    (∀ h, (c.run w).Reaches (handle w) (StoresHash h) s →
      ∃ x, (c.run w).Reaches (handle w) (Hashes x) s ∧ w.hashPassword s.draws x = .ok h) ∧
    (c.PolicyHolds w s ↔ ¬c.StoresShort w s) :=
  ⟨fun _ => HashingCall.hashes_of_stores, HashingCall.policyHolds_iff⟩

/-! ### A password of five letters -/

/-- A deployment in which every stored value is a password policy of eight characters. -/
def eightCharacters : World :=
  { World.offline with parseJson := fun _ => .ok (.object [("minLength", .int 8)]) }

/-- A tenant with that policy, and without users. -/
def withPasswordPolicy : State :=
  .ofDb { Db.empty with
    tenants := .single ⟨"globex", "Globex", "active", 0⟩
    kvStore := .single ⟨"globex", "password_policy", "default", "\x7b\"minLength\":8\x7d", false, 0⟩ } 0

/-- A signup with five letters of two bytes each. -/
def accented : HashingCall :=
  .signup "globex" "Ann" "" "ann@acme.example" none none "ééééé" "ééééé"

/-- **Five letters are stored as a password of eight.** -/
theorem five_letters_stored :
    ¬ ∀ (w : World) (s : State) (c : HashingCall), c.PolicyHolds w s := by
  intro h
  have hfacts : "ééééé".length = 5 ∧ "ééééé".utf8ByteSize = 10 ∧ trim "ann@acme.example" ≠ "" := by
    decide +kernel
  obtain ⟨hlength, hbytes, hgiven⟩ := hfacts
  refine HashingCall.policyHolds_iff.mp (h eightCharacters withPasswordPolicy accented) ?_
  refine ⟨"globex", ⟨some 8, none, none, none⟩, "ééééé", rfl, ⟨_, rfl, rfl⟩, rfl, ?_, ?_⟩
  · exact ⟨rfl, hgiven, ⟨none, rfl, .inl rfl⟩, rfl, rfl, rfl⟩
  · refine ⟨⟨8, rfl, ?_, ?_⟩, ?_, ?_⟩
    · rw [hlength]
      decide
    · rw [hbytes]
      decide
    · rintro ⟨⟩
    · rintro ⟨⟩

end Authrs
