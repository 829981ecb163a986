import Authrs.Admin.CreateUser
import Authrs.Interaction.Reaches
import Authrs.Login.EmailCase

/-!
# Half a mobile number

A mobile number and its country code are stored both or neither. Signup refuses a number whose
country code is given but blank, and neither call refuses any other half: it goes on to the insert of
the identity, which the database refuses with a violated check.

## Main definitions

* `HalfPair`: exactly one of the two is present
* `InsertsHalf`: an insert of an identity with half a pair
* `SignupCreates`, `AdminCreates`: apart from the pair, the call creates an identity
* `PairValidated`: half a pair is refused before the insert

## Main results

* `signup_reaches_iff`, `adminCreateUser_reaches_iff`: when half a pair reaches the insert
* `mobile_pair_validated_iff`: when it is refused
-/

namespace Authrs

open Interaction AuthService Relational

/-- Exactly one of the trimmed values is present. -/
def HalfPair (mobile countryCode : Option String) : Prop :=
  (nonEmptyTrimmed mobile).isNone ≠ (nonEmptyTrimmed countryCode).isNone

/-- The insert of an identity that violates `identities_mobile_pair`. -/
def InsertsHalf : Request → Prop
  | .sql (.identities (.create _ mobile countryCode ..)) => mobile.isNone ≠ countryCode.isNone
  | _ => False

section Calls

variable (w : World) (s : State)

/-- **Apart from the pair, the signup creates an identity.** -/
structure SignupCreates (tenantId email password retypePassword : String) : Prop where
  given : trim email ≠ ""
  permitted : s.db.permitsEmail w tenantId (trim email)
  retyped : password = retypePassword
  policy : policyOutcome w s.db tenantId password = .ok ()
  free : s.db.member tenantId (trim email) = none
  unknown : s.db.byEmail w.lower (some (trim email)) = none
  hashed : ∃ passwordHash, w.hashPassword s.draws password = .ok passwordHash

/-- **Apart from the pair, the administrator creates an identity.** -/
structure AdminCreates (tenantId : String)
    (email username password retypePassword : Option String) : Prop where
  handle : nonEmptyTrimmed email ≠ none ∨ nonEmptyTrimmed username ≠ none
  emailFree : ∀ e ∈ nonEmptyTrimmed email, s.db.member tenantId e = none
  usernameFree : ∀ u ∈ nonEmptyTrimmed username,
    (s.db.memberships.find? fun m => m.tenantId = tenantId && m.username = some u) = none
  hashed : (password = none ∧ retypePassword = none) ∨
    ∃ p passwordHash, password = some p ∧ retypePassword = some p ∧
      policyOutcome w s.db tenantId p = .ok () ∧ w.hashPassword s.draws p = .ok passwordHash
  unknown : s.db.byEmail w.lower (nonEmptyTrimmed email) = none

/-- **Half a pair is refused before the insert**: the call makes no insert that violates the check,
and where an identity would be created it is a bad request that changes nothing. -/
structure PairValidated {α : Type} (p : Service α) (mobile countryCode : Option String)
    (creates : Prop) : Prop where
  inserts : ¬p.Reaches (handle w) InsertsHalf s
  refused : HalfPair mobile countryCode → creates →
    ∃ message s', p.exec (handle w) s = (.error (.error (.badRequest message)), s') ∧ s'.db = s.db

end Calls

/-! ### Parts that insert no identity -/

section Parts

open Program

variable {w : World} {s : State}

theorem not_insertsHalf_of_ordinary {q : Request} (hq : ordinary q = true) : ¬InsertsHalf q := by
  intro h
  unfold InsertsHalf at h
  split at h
  · cases hq
  · exact h

variable {α β : Type} {p : Service α} {f : α → Service β}

/-- After a part of ordinary requests. -/
theorem reaches_after (hp : p.Asks fun q => ordinary q = true) :
    (p.bind f).Reaches (handle w) InsertsHalf s ↔
      ∃ a s₁, p.exec (handle w) s = (.ok a, s₁) ∧ (f a).Reaches (handle w) InsertsHalf s₁ :=
  hp.reaches_bind (fun _ => not_insertsHalf_of_ordinary) s

/-- After a test. -/
theorem reaches_after_ensure {c : Prop} [Decidable c] {e : AppError} {f : Unit → Service β} :
    ((Service.ensure c e).bind f).Reaches (handle w) InsertsHalf s ↔
      c ∧ (f ()).Reaches (handle w) InsertsHalf s := by
  rw [reaches_after (asks_ensure c e)]
  constructor
  · rintro ⟨_, s₁, hexec, h⟩
    obtain ⟨hc, rfl⟩ := Service.exec_ensure_eq_ok.mp hexec
    exact ⟨hc, h⟩
  · rintro ⟨hc, h⟩
    exact ⟨(), s, Service.exec_ensure_eq_ok.mpr ⟨hc, rfl⟩, h⟩

theorem reaches_after_domain {tenantId email : String} {f : Unit → Service β} :
    ((ensureEmailDomainAllowed w tenantId email).bind f).Reaches (handle w) InsertsHalf s ↔
      s.db.permitsEmail w tenantId email ∧ (f ()).Reaches (handle w) InsertsHalf s := by
  rw [reaches_after (ensureEmailDomainAllowed_asks (fun _ h => h) w tenantId email)]
  constructor
  · rintro ⟨_, s₁, hexec, h⟩
    obtain ⟨hpermits, rfl⟩ := exec_ensureEmailDomainAllowed_eq_ok.mp hexec
    exact ⟨hpermits, h⟩
  · rintro ⟨hpermits, h⟩
    exact ⟨(), s, exec_ensureEmailDomainAllowed_eq_ok.mpr ⟨hpermits, rfl⟩, h⟩

theorem reaches_after_policy {tenantId password : String} {f : Unit → Service β} :
    ((validatePassword w tenantId password).bind f).Reaches (handle w) InsertsHalf s ↔
      policyOutcome w s.db tenantId password = .ok () ∧
        (f ()).Reaches (handle w) InsertsHalf s := by
  rw [reaches_after (validatePassword_asks (fun _ h => h) w tenantId password)]
  constructor
  · rintro ⟨_, s₁, hexec, h⟩
    obtain ⟨hpolicy, rfl⟩ := exec_validatePassword_eq_ok.mp hexec
    exact ⟨hpolicy, h⟩
  · rintro ⟨hpolicy, h⟩
    exact ⟨(), s, exec_validatePassword_eq_ok.mpr ⟨hpolicy, rfl⟩, h⟩

theorem reaches_after_hash {password : String} {f : String → Service β} :
    ((hashPassword password).bind f).Reaches (handle w) InsertsHalf s ↔
      ∃ passwordHash, w.hashPassword s.draws password = .ok passwordHash ∧
        (f passwordHash).Reaches (handle w) InsertsHalf s.drawn := by
  rw [reaches_after (hashPassword_asks (fun _ h => h) password)]
  constructor
  · rintro ⟨hash, s₁, hexec, h⟩
    obtain ⟨hhash, rfl⟩ := exec_hashPassword_eq_ok.mp hexec
    exact ⟨hash, hhash, h⟩
  · rintro ⟨hash, hhash, h⟩
    exact ⟨hash, _, exec_hashPassword_eq_ok.mpr ⟨hhash, rfl⟩, h⟩

/-- After a part without the insert that returns in the state it started from. -/
theorem reaches_after_exec {a : α} (hp : p.Asks fun q => ¬InsertsHalf q)
    (hexec : p.exec (handle w) s = (.ok a, s)) :
    (p.bind f).Reaches (handle w) InsertsHalf s ↔ (f a).Reaches (handle w) InsertsHalf s := by
  rw [hp.reaches_bind (fun _ h => h) s, hexec]
  constructor
  · rintro ⟨_, _, heq, h⟩
    cases heq
    exact h
  · exact fun h => ⟨a, s, rfl, h⟩

theorem reaches_after_member {tenantId email : String} {f : Option User → Service β} :
    ((UsersRepo.getByEmail tenantId email).bind f).Reaches (handle w) InsertsHalf s ↔
      (f (s.db.member tenantId email)).Reaches (handle w) InsertsHalf s :=
  reaches_after_exec (asks_query id) (exec_query_read rfl rfl)

theorem reaches_after_username {tenantId username : String} {f : Option User → Service β} :
    ((UsersRepo.getByUsername tenantId username).bind f).Reaches (handle w) InsertsHalf s ↔
      (f (s.db.memberships.find? fun m => m.tenantId = tenantId && m.username = some username)).Reaches
        (handle w) InsertsHalf s :=
  reaches_after_exec (asks_query id) (exec_query_read rfl rfl)

theorem identityOfEmail_asks (email : Option String) :
    (identityOfEmail email).Asks fun q => ¬InsertsHalf q := by
  cases email with
  | none => trivial
  | some e => exact asks_query id

theorem identityOfMobile_asks (mobile countryCode : Option String) :
    (identityOfMobile mobile countryCode).Asks fun q => ¬InsertsHalf q := by
  cases mobile with
  | none => trivial
  | some m =>
    cases countryCode with
    | none => trivial
    | some c => exact asks_query id

/-- **The insert itself**, and what follows it. -/
theorem reaches_create {email mobile countryCode firstName lastName passwordHash : Option String}
    {f : Identity → Service β} (hf : ∀ i, (f i).Asks fun q => ¬InsertsHalf q) :
    ((IdentitiesRepo.create email mobile countryCode firstName lastName passwordHash).bind f).Reaches
      (handle w) InsertsHalf s ↔ mobile.isNone ≠ countryCode.isNone := by
  rw [reaches_bind]
  constructor
  · rintro (h | ⟨i, s₁, -, h⟩)
    · rcases (reaches_ask _ _ s).mp h with hinsert | h
      · exact hinsert
      · exact absurd h ((asks_ofExcept _).not_reaches (fun _ h => h) _)
    · exact absurd h ((hf i).not_reaches (fun _ h => h) s₁)
  · exact fun hhalf => .inl ((reaches_ask _ _ s).mpr (.inl hhalf))

theorem createMembership_asks (identity : Identity) (tenantId : String) (username : Option String) :
    (UsersRepo.create identity tenantId username).Asks fun q => ¬InsertsHalf q :=
  ⟨id, fun _ => ⟨id, fun _ => (asks_execute (S := fun q => ¬InsertsHalf q) id).bind fun _ => trivial⟩⟩

/-- An identity that is not looked up by its number. -/
theorem byMobile_of_halfPair {db : Db} {mobile countryCode : Option String}
    (h : mobile.isNone ≠ countryCode.isNone) : db.byMobile mobile countryCode = none := by
  unfold Db.byMobile
  split
  · exact absurd rfl h
  · rfl

end Parts

/-! ### Signup -/

section Signup

open Program

variable {w : World} {s : State}
  {tenantId firstName lastName email password retypePassword : String}
  {mobile countryCode : Option String}

theorem exec_signupCollision_eq (email : String) (mobile countryCode : Option String) :
    (signupCollision email mobile countryCode).exec (handle w) s =
      (.ok ((s.db.resolved w.lower (some email) mobile countryCode).map IdentityRow.toIdentity), s) := by
  unfold Db.resolved
  change ((identityOfEmail (some email)).bind _).exec (handle w) s = _
  rw [exec_bind_ok _ (exec_identityOfEmail (some email))]
  cases s.db.byEmail w.lower (some email) with
  | some r => rfl
  | none => exact exec_identityOfMobile mobile countryCode

theorem signupCollision_asks (email : String) (mobile countryCode : Option String) :
    (signupCollision email mobile countryCode).Asks fun q => ¬InsertsHalf q := by
  refine (identityOfEmail_asks (some email)).bind fun byEmail => ?_
  cases byEmail with
  | some i => trivial
  | none => exact identityOfMobile_asks mobile countryCode

theorem inviteExisting_asks (identity : Identity) (tenantId email : String)
    (firstName lastName : Option String) :
    (inviteExisting identity tenantId email firstName lastName).Asks fun q => ¬InsertsHalf q :=
  ⟨id, fun _ => ⟨id, fun _ => ((asks_execute (S := fun q => ¬InsertsHalf q) id).bind fun _ =>
    asks_execute (S := fun q => ¬InsertsHalf q) id).bind fun _ => trivial⟩⟩

/-- **When a signup comes to the insert with half a pair.** -/
theorem signup_reaches_iff :
    (signup w tenantId firstName lastName email mobile countryCode password
        retypePassword).Reaches (handle w) InsertsHalf s ↔
      HalfPair mobile countryCode ∧ mobileWithoutCode mobile countryCode = false ∧
        SignupCreates w s tenantId email password retypePassword := by
  have hcreate : ∀ passwordHash : String,
      ((IdentitiesRepo.create (some (trim email)) (nonEmptyTrimmed mobile)
        (nonEmptyTrimmed countryCode) (nonEmptyTrimmed (some firstName))
          (nonEmptyTrimmed (some lastName)) (some passwordHash)).bind fun identity =>
        (UsersRepo.create identity tenantId none).bind fun user =>
          (.pure (.created user) : Service SignupOutcome)).Reaches (handle w) InsertsHalf s.drawn ↔
        HalfPair mobile countryCode := fun passwordHash =>
    reaches_create fun i => (createMembership_asks i tenantId none).bind fun _ => trivial
  unfold signup ensureRetyped
  simp only [Program.bind_eq, reaches_after_ensure, reaches_after_domain, reaches_after_policy,
    reaches_after_member, reaches_after_exec (signupCollision_asks _ _ _)
      (exec_signupCollision_eq _ _ _)]
  constructor
  · rintro ⟨hgiven, hpermitted, hretyped, hpolicy, hguard, hfree, h⟩
    cases hresolved : s.db.resolved w.lower (some (trim email)) (nonEmptyTrimmed mobile)
        (nonEmptyTrimmed countryCode) with
    | some r =>
      rw [hresolved] at h
      exact absurd h ((inviteExisting_asks _ _ _ _ _).not_reaches (fun _ h => h) s)
    | none =>
      rw [hresolved] at h
      obtain ⟨passwordHash, hhash, h⟩ := reaches_after_hash.mp h
      have hhalf := (hcreate passwordHash).mp h
      obtain ⟨hemail, -⟩ := Option.or_eq_none_iff.mp hresolved
      exact ⟨hhalf, hguard, hgiven, hpermitted, hretyped, hpolicy, hfree, hemail, _, hhash⟩
  · rintro ⟨hhalf, hguard, hgiven, hpermitted, hretyped, hpolicy, hfree, hemail, passwordHash, hhash⟩
    refine ⟨hgiven, hpermitted, hretyped, hpolicy, hguard, hfree, ?_⟩
    have hresolved : s.db.resolved w.lower (some (trim email)) (nonEmptyTrimmed mobile)
        (nonEmptyTrimmed countryCode) = none :=
      Option.or_eq_none_iff.mpr ⟨hemail, byMobile_of_halfPair hhalf⟩
    rw [hresolved]
    exact reaches_after_hash.mpr ⟨passwordHash, hhash, (hcreate passwordHash).mpr hhalf⟩

/-- The number whose country code is blank is refused, and nothing is changed. -/
theorem exec_signup_blankCode (hguard : mobileWithoutCode mobile countryCode = true)
    (h : SignupCreates w s tenantId email password retypePassword) :
    (signup w tenantId firstName lastName email mobile countryCode password retypePassword).exec
        (handle w) s =
      (.error (.error (.badRequest "Country code is required when mobile is provided")), s) := by
  unfold signup ensureRetyped
  simp only [Program.bind_eq]
  rw [exec_bind_ok _ (Service.exec_ensure_eq_ok.mpr ⟨h.given, rfl⟩),
    exec_bind_ok _ (exec_ensureEmailDomainAllowed_eq_ok.mpr ⟨h.permitted, rfl⟩),
    exec_bind_ok _ (Service.exec_ensure_eq_ok.mpr ⟨h.retyped, rfl⟩),
    exec_bind_ok _ (exec_validatePassword_eq_ok.mpr ⟨h.policy, rfl⟩)]
  refine exec_bind_error _ ?_ _
  rw [Service.exec_ensure, hguard]
  rfl

/-- **When a signup validates the pair.** -/
theorem signup_validates_iff :
    PairValidated w s (signup w tenantId firstName lastName email mobile countryCode password
        retypePassword) mobile countryCode (SignupCreates w s tenantId email password retypePassword) ↔
      (HalfPair mobile countryCode → SignupCreates w s tenantId email password retypePassword →
        mobileWithoutCode mobile countryCode = true) := by
  constructor
  · intro hvalidated hhalf hcreates
    by_contra hguard
    rw [Bool.not_eq_true] at hguard
    exact hvalidated.inserts (signup_reaches_iff.mpr ⟨hhalf, hguard, hcreates⟩)
  · intro hcondition
    constructor
    · intro hreaches
      obtain ⟨hhalf, hguard, hcreates⟩ := signup_reaches_iff.mp hreaches
      rw [hcondition hhalf hcreates] at hguard
      cases hguard
    · intro hhalf hcreates
      exact ⟨_, s, exec_signup_blankCode (hcondition hhalf hcreates) hcreates, rfl⟩

end Signup

/-! ### An administrator's user creation -/

section AdminCreate

open Program

variable {w : World} {s : State} {β : Type} {tenantId : String}
  {firstName lastName email username mobile countryCode password retypePassword : Option String}

theorem reaches_after_emailFree {f : Unit → Service β} :
    ((ensureEmailFree tenantId email).bind f).Reaches (handle w) InsertsHalf s ↔
      (∀ e ∈ email, s.db.member tenantId e = none) ∧ (f ()).Reaches (handle w) InsertsHalf s := by
  cases email with
  | none => simp [ensureEmailFree]
  | some e =>
    unfold ensureEmailFree
    simp only [Program.bind_eq, Program.bind_assoc, reaches_after_member, reaches_after_ensure,
      Option.mem_some_iff, forall_eq']

theorem reaches_after_usernameFree {f : Unit → Service β} :
    ((ensureUsernameFree tenantId username).bind f).Reaches (handle w) InsertsHalf s ↔
      (∀ u ∈ username,
        (s.db.memberships.find? fun m => m.tenantId = tenantId && m.username = some u) = none) ∧
      (f ()).Reaches (handle w) InsertsHalf s := by
  cases username with
  | none => simp [ensureUsernameFree]
  | some u =>
    unfold ensureUsernameFree
    simp only [Program.bind_eq, Program.bind_assoc, reaches_after_username, reaches_after_ensure,
      Option.mem_some_iff, forall_eq']

theorem reaches_after_optionalPassword {f : Option String → Service β} :
    ((hashOptionalPassword w tenantId password retypePassword).bind f).Reaches (handle w)
        InsertsHalf s ↔
      (password = none ∧ retypePassword = none ∧ (f none).Reaches (handle w) InsertsHalf s) ∨
        ∃ p passwordHash, password = some p ∧ retypePassword = some p ∧
          policyOutcome w s.db tenantId p = .ok () ∧
            w.hashPassword s.draws p = .ok passwordHash ∧
              (f (some passwordHash)).Reaches (handle w) InsertsHalf s.drawn := by
  cases password with
  | none =>
    cases retypePassword with
    | none => simp [hashOptionalPassword]
    | some r => simp [hashOptionalPassword, Service.throw]
  | some p =>
    cases retypePassword with
    | none => simp [hashOptionalPassword, Service.throw]
    | some r =>
      unfold hashOptionalPassword ensureRetyped
      simp only [Program.bind_eq, Program.bind_assoc, Program.pure_eq, Program.pure_bind,
        reaches_after_ensure, reaches_after_policy, reaches_after_hash]
      constructor
      · rintro ⟨rfl, hpolicy, passwordHash, hhash, h⟩
        exact .inr ⟨p, passwordHash, rfl, rfl, hpolicy, hhash, h⟩
      · rintro (⟨hnone, -⟩ | ⟨_, passwordHash, ⟨⟩, ⟨⟩, hpolicy, hhash, h⟩)
        · cases hnone
        · exact ⟨rfl, hpolicy, passwordHash, hhash, h⟩

/-- Half a pair is inserted when no identity is found by the email. -/
theorem reaches_resolve {passwordHash : Option String} {f : Identity → Service β}
    (hf : ∀ i, (f i).Asks fun q => ¬InsertsHalf q) :
    ((resolveOrCreateIdentity email mobile countryCode firstName lastName passwordHash).bind
        f).Reaches (handle w) InsertsHalf s ↔
      s.db.byEmail w.lower email = none ∧ mobile.isNone ≠ countryCode.isNone := by
  unfold resolveOrCreateIdentity
  simp only [Program.bind_eq, Program.bind_assoc]
  rw [reaches_after_exec (identityOfEmail_asks email) (exec_identityOfEmail email)]
  cases s.db.byEmail w.lower email with
  | some r =>
    have hnot := (hf r.toIdentity).not_reaches (H := handle w) (fun _ h => h) s
    simpa using hnot
  | none =>
    simp only [Option.map_none, Program.bind_assoc, true_and]
    rw [reaches_after_exec (identityOfMobile_asks mobile countryCode)
      (exec_identityOfMobile mobile countryCode)]
    cases hmobile : s.db.byMobile mobile countryCode with
    | some r =>
      have hnot := (hf r.toIdentity).not_reaches (H := handle w) (fun _ h => h) s
      have hpair : mobile.isNone = countryCode.isNone := by
        by_contra hne
        rw [byMobile_of_halfPair hne] at hmobile
        cases hmobile
      simpa [hpair] using hnot
    | none => exact reaches_create hf

/-- What is left after trimming is not empty. -/
theorem isPresent_nonEmptyTrimmed (x : Option String) :
    isPresent (nonEmptyTrimmed x) = (nonEmptyTrimmed x).isSome := by
  cases hx : nonEmptyTrimmed x with
  | none => rfl
  | some y => exact (Option.filter_eq_some_iff.mp hx).2

/-- With half a pair the user needs another handle. -/
theorem hasValidIdentity_of_halfPair (h : HalfPair mobile countryCode) :
    hasValidIdentity (nonEmptyTrimmed email) (nonEmptyTrimmed mobile) (nonEmptyTrimmed countryCode)
        (nonEmptyTrimmed username) = true ↔
      nonEmptyTrimmed email ≠ none ∨ nonEmptyTrimmed username ≠ none := by
  have hpair : ((nonEmptyTrimmed mobile).isSome && (nonEmptyTrimmed countryCode).isSome) = false := by
    unfold HalfPair at h
    revert h
    cases nonEmptyTrimmed mobile <;> cases nonEmptyTrimmed countryCode <;> simp
  unfold hasValidIdentity
  rw [isPresent_nonEmptyTrimmed, isPresent_nonEmptyTrimmed, isPresent_nonEmptyTrimmed,
    isPresent_nonEmptyTrimmed, hpair, Bool.or_false, Bool.or_eq_true, Option.isSome_iff_ne_none,
    Option.isSome_iff_ne_none]

/-- **When an administrator's user creation comes to the insert with half a pair.** -/
theorem adminCreateUser_reaches_iff :
    (adminCreateUser w tenantId firstName lastName email username mobile countryCode password
        retypePassword).Reaches (handle w) InsertsHalf s ↔
      HalfPair mobile countryCode ∧
        AdminCreates w s tenantId email username password retypePassword := by
  have hresolve : ∀ (t : State) (passwordHash : Option String),
      ((resolveOrCreateIdentity (nonEmptyTrimmed email) (nonEmptyTrimmed mobile)
        (nonEmptyTrimmed countryCode) (nonEmptyTrimmed firstName) (nonEmptyTrimmed lastName)
          passwordHash).bind fun identity => UsersRepo.create identity tenantId
            (nonEmptyTrimmed username)).Reaches (handle w) InsertsHalf t ↔
        t.db.byEmail w.lower (nonEmptyTrimmed email) = none ∧ HalfPair mobile countryCode :=
    fun _ _ => reaches_resolve fun i => createMembership_asks i tenantId (nonEmptyTrimmed username)
  unfold adminCreateUser
  simp only [Program.bind_eq, reaches_after_ensure, reaches_after_emailFree,
    reaches_after_usernameFree, reaches_after_optionalPassword, hresolve]
  constructor
  · rintro ⟨hvalid, hemail, husername, ⟨hp, hr, hunknown, hhalf⟩ |
      ⟨p, passwordHash, hp, hr, hpolicy, hhash, hunknown, hhalf⟩⟩
    · exact ⟨hhalf, (hasValidIdentity_of_halfPair hhalf).mp hvalid, hemail, husername,
        .inl ⟨hp, hr⟩, hunknown⟩
    · exact ⟨hhalf, (hasValidIdentity_of_halfPair hhalf).mp hvalid, hemail, husername,
        .inr ⟨p, passwordHash, hp, hr, hpolicy, hhash⟩, hunknown⟩
  · rintro ⟨hhalf, hhandle, hemail, husername, hhashed, hunknown⟩
    refine ⟨(hasValidIdentity_of_halfPair hhalf).mpr hhandle, hemail, husername, ?_⟩
    rcases hhashed with ⟨hp, hr⟩ | ⟨p, passwordHash, hp, hr, hpolicy, hhash⟩
    · exact .inl ⟨hp, hr, hunknown, hhalf⟩
    · exact .inr ⟨p, passwordHash, hp, hr, hpolicy, hhash, hunknown, hhalf⟩

/-- **When an administrator's user creation validates the pair.** -/
theorem adminCreateUser_validates_iff :
    PairValidated w s (adminCreateUser w tenantId firstName lastName email username mobile
        countryCode password retypePassword) mobile countryCode
        (AdminCreates w s tenantId email username password retypePassword) ↔
      ¬(HalfPair mobile countryCode ∧
        AdminCreates w s tenantId email username password retypePassword) := by
  rw [← adminCreateUser_reaches_iff]
  constructor
  · exact PairValidated.inserts
  · intro hnot
    exact ⟨hnot, fun hhalf hcreates => absurd (adminCreateUser_reaches_iff.mpr ⟨hhalf, hcreates⟩) hnot⟩

end AdminCreate

/-- **When half a pair is refused before the insert**: by signup when no identity would be created, or
the number is given with a blank country code; by an administrator's user creation only when no
identity would be created. -/
theorem mobile_pair_validated_iff (w : World) (s : State) :
    (∀ (tenantId firstName lastName email password retypePassword : String)
        (mobile countryCode : Option String),
      PairValidated w s (signup w tenantId firstName lastName email mobile countryCode password
          retypePassword) mobile countryCode
          (SignupCreates w s tenantId email password retypePassword) ↔
        (HalfPair mobile countryCode → SignupCreates w s tenantId email password retypePassword →
          mobileWithoutCode mobile countryCode = true)) ∧
    ∀ (tenantId : String) (firstName lastName email username mobile countryCode password
        retypePassword : Option String),
      PairValidated w s (adminCreateUser w tenantId firstName lastName email username mobile
          countryCode password retypePassword) mobile countryCode
          (AdminCreates w s tenantId email username password retypePassword) ↔
        ¬(HalfPair mobile countryCode ∧
          AdminCreates w s tenantId email username password retypePassword) :=
  ⟨fun _ _ _ _ _ _ _ _ => signup_validates_iff, fun _ _ _ _ _ _ _ _ _ => adminCreateUser_validates_iff⟩

/-! ### A number without its country code -/

/-- A tenant without users. -/
def globexAlone : State :=
  .ofDb { Db.empty with tenants := .single ⟨"globex", "Globex", "active", 0⟩ } 0

theorem ann_given : trim "ann@acme.example" ≠ "" ∧ HalfPair (some "5550100") none := by
  unfold HalfPair
  decide +kernel

theorem signup_of_ann_creates :
    SignupCreates .offline globexAlone "globex" "ann@acme.example" "correct horse"
      "correct horse" where
  given := ann_given.1
  permitted := ⟨none, rfl, .inl rfl⟩
  retyped := rfl
  policy := rfl
  free := rfl
  unknown := rfl
  hashed := ⟨_, rfl⟩

/-- **A number alone reaches the insert**, for signup and for an administrator. -/
theorem number_alone_inserted :
    ¬ ∀ (w : World) (s : State),
      (∀ (tenantId firstName lastName email password retypePassword : String)
          (mobile countryCode : Option String),
        PairValidated w s (signup w tenantId firstName lastName email mobile countryCode password
          retypePassword) mobile countryCode
          (SignupCreates w s tenantId email password retypePassword)) ∧
      ∀ (tenantId : String) (firstName lastName email username mobile countryCode password
          retypePassword : Option String),
        PairValidated w s (adminCreateUser w tenantId firstName lastName email username mobile
          countryCode password retypePassword) mobile countryCode
          (AdminCreates w s tenantId email username password retypePassword) := by
  intro h
  have hguard := signup_validates_iff.mp ((h .offline globexAlone).1 "globex" "Ann" ""
    "ann@acme.example" "correct horse" "correct horse" (some "5550100") none) ann_given.2
    signup_of_ann_creates
  cases hguard

end Authrs
