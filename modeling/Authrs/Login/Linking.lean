import Authrs.Interaction.Since
import Authrs.Login.Footprint
import Authrs.Store.IdentityRow

/-!
# Links to provider accounts

Signups, users that an administrator creates, accepted invites and sign-ins with identity providers
run side by side. A sign-in links an identity to the provider's account when it has created the
identity itself, or has found it by an email that the provider vouches for. Emails of identities
never change, so this can still be read off the tables at the end.

## Main definitions

* `ProvisionCall`, `ProvisionCall.run`: the calls
* `Elsewhere`: what goes on besides the calls
* `Entitled`: what a sign-in has seen of the identity that it links
* `LinkVouched`: a link rests on a sign-in
* `LinksVouched`: every link that is new rests on one, and so does every email

## Main results

* `handle_account`: a link appears as a statement stores it
* `loginOauth_entitled`: a sign-in links only what it is entitled to
* `run_linksVouched`: no unverified email attaches to an account that was there before
-/

namespace Authrs

open Interaction Relational

/-- A call that provides accounts. -/
inductive ProvisionCall
  | oauth (tenantId provider : String) (profile : OauthProfile) (allowSignup : Bool)
    (ip userAgent : Option String)
  | signup (tenantId firstName lastName email : String) (mobile countryCode : Option String)
    (password retypePassword : String)
  | adminCreateUser (tenantId : String)
    (firstName lastName email username mobile countryCode password retypePassword : Option String)
  | acceptInvite (token : String)

/-- **The call**, with its result dropped. -/
def ProvisionCall.run (w : World) : ProvisionCall → Service Unit
  | oauth tenantId provider profile allowSignup ip userAgent => do
    let _ ← AuthService.loginOauth w tenantId provider profile allowSignup ip userAgent
    pure ()
  | signup tenantId firstName lastName email mobile countryCode password retypePassword => do
    let _ ← AuthService.signup w tenantId firstName lastName email mobile countryCode password
      retypePassword
    pure ()
  | adminCreateUser tenantId firstName lastName email username mobile countryCode password
      retypePassword => do
    let _ ← AuthService.adminCreateUser w tenantId firstName lastName email username mobile
      countryCode password retypePassword
    pure ()
  | acceptInvite token => do
    let _ ← AuthService.verifyMembershipInvite token
    pure ()

/-- What goes on besides the calls: it adds no link, and keeps every identity and its email. -/
structure Elsewhere where
  act : State → State
  links : ∀ s, ∀ a ∈ (act s).db.identityOauthAccounts, a ∈ s.db.identityOauthAccounts
  emails : ∀ s id r, s.db.identity id = some r →
    ∃ r', (act s).db.identity id = some r' ∧ r'.email = r.email

/-! ### The tables -/

/-- The identity has an email that satisfies `p`. -/
def Db.EmailOf (p : Option String → Prop) (id : Uuid) (db : Db) : Prop :=
  ∃ r, db.identity id = some r ∧ p r.email

/-- The identity has the email, up to case. -/
def Db.OwnsEmail (w : World) (db : Db) (id : Uuid) (email : String) : Prop :=
  db.EmailOf (fun e => e.any (fun e => w.lower e = w.lower email) = true) id

section Tables

variable {w : World} {s : State} {q : Request} {a : OauthAccountRow}

/-- **A link appears as a statement stores it.** -/
theorem handle_account (ha : a ∈ (handle w q s).2.db.identityOauthAccounts) :
    a ∈ s.db.identityOauthAccounts ∨ ∃ provider subject email,
      q = .sql (.oauth (.link a.identityId provider subject email)) ∧
      varcharReq 50 provider = .ok a.provider ∧ varcharReq 255 subject = .ok a.providerUserId := by
  rcases handle_db (w := w) (s := s) q with hdb | ⟨x, n, rfl, hx⟩
  · exact .inl (hdb ▸ ha)
  · by_cases hother : ∀ y, x ≠ .oauth y
    · rw [(Sql.exec_frame hx).identityOauthAccounts hother] at ha
      exact .inl ha
    · obtain ⟨y, hy⟩ := not_forall_not.mp hother
      subst hy
      cases y with
      | link identityId provider subject email =>
        obtain ⟨row, t, hid, hp, hs, htable, -, hdb⟩ := insertOauthAccount_ok hx
        rw [hdb] at ha
        rcases (Table.mem_insert? htable).mp ha with rfl | hold
        · exact .inr ⟨provider, subject, email, by rw [hid], hp, hs⟩
        · exact .inl hold
      | insertState =>
        obtain ⟨_, _, -, -, -, -, -, -, -, hdb⟩ := insertOauthState_ok hx
        rw [hdb] at ha
        exact .inl ha
      | deleteExpired => exact .inl ha
      | takeState => exact .inl ha
      | getLinkedIdentity => exact .inl ha

/-- A change of an identity keeps its email. -/
theorem IdentityRow.Change.email_eq {now : Time} {id : Uuid} {r r' : IdentityRow}
    (h : IdentityRow.Change now id q r r') : r'.email = r.email := by
  cases h <;> rfl

/-- Every request keeps the emails of identities. -/
theorem handle_emailOf {p : Option String → Prop} {id : Uuid} (q : Request) (s : State)
    (h : s.db.EmailOf p id) : (handle w q s).2.db.EmailOf p id := by
  obtain ⟨r, hr, hp⟩ := h
  obtain ⟨r', hr', hchange⟩ := handle_identity (w := w) q hr
  exact ⟨r', hr', hchange.email_eq ▸ hp⟩

/-- So does everything else. -/
theorem Elsewhere.emailOf {p : Option String → Prop} {id : Uuid} (t : Elsewhere) (s : State)
    (h : s.db.EmailOf p id) : (t.act s).db.EmailOf p id := by
  obtain ⟨r, hr, hp⟩ := h
  obtain ⟨r', hr', hemail⟩ := t.emails s id r hr
  exact ⟨r', hr', hemail ▸ hp⟩

/-- An identity that is found by an email has it, up to case. -/
theorem handle_getByEmail {email : String} {i : Identity}
    (h : (handle w (.sql (.identities (.getByEmail email))) s).1 = .ok (some i)) :
    s.db.OwnsEmail w i.id email := by
  change Except.ok ((s.db.identities.selectOne (Db.emailIs (s.sqlEnv w) email)).map (·.toIdentity)) =
    Except.ok (some i) at h
  obtain ⟨r, hr, rfl⟩ := Option.map_eq_some_iff.mp (Except.ok.inj h)
  have hpos : Db.emailIs (s.sqlEnv w) email r = true := Table.selectOne_pos hr
  exact ⟨r, Table.selectOne_key.mpr ⟨Table.selectOne_mem hr, rfl⟩, hpos⟩

/-- A new identity has the email that it is created with. -/
theorem handle_createIdentity {email mobile countryCode firstName lastName passwordHash : Option String}
    {i : Identity}
    (h : (handle w (.sql (.identities (.create email mobile countryCode firstName lastName
      passwordHash))) s).1 = .ok i) :
    (handle w (.sql (.identities (.create email mobile countryCode firstName lastName
      passwordHash))) s).2.db.EmailOf (fun e => varcharOpt 255 email = .ok e) i.id := by
  change (insertIdentity (s.sqlEnv w) s.db email mobile countryCode firstName lastName
    passwordHash).map Prod.fst = .ok i at h
  cases hins : insertIdentity (s.sqlEnv w) s.db email mobile countryCode firstName lastName
      passwordHash with
  | error e =>
    rw [hins] at h
    cases h
  | ok res =>
    obtain ⟨i', db⟩ := res
    rw [hins] at h
    cases h
    obtain ⟨row, t, hemail, -, -, rfl, htable, rfl⟩ := insertIdentity_ok hins
    have hafter : (handle w (.sql (.identities (.create email mobile countryCode firstName lastName
        passwordHash))) s).2.db = { s.db with identities := t } := by
      simp only [handle, State.afterSql, Sql.exec, IdentityStmt.exec, hins]
    rw [hafter]
    exact ⟨row, Table.selectOne_key.mpr ⟨(Table.mem_insert? htable).mpr (.inl rfl), rfl⟩, hemail⟩

end Tables

/-! ### What a sign-in has seen -/

/-- **A sign-in is entitled to link an identity**: it has created the identity, with the email that
the provider vouches for, or has found it by that email. -/
inductive Entitled (profile : OauthProfile) (id : Uuid) (h : List (Event authrs)) : Prop
  | created {i : Identity} : i.id = id →
    did (.identities (.create profile.verifiedEmail none none profile.firstName profile.lastName
      none)) i ∈ h → Entitled profile id h
  | verified {email : String} {i : Identity} : i.id = id → profile.verifiedEmail = some email →
    did (.identities (.getByEmail email)) (some i) ∈ h → Entitled profile id h

/-- A request that stores a link. -/
def links : Request → Bool
  | .sql (.oauth (.link ..)) => true
  | _ => false

/-- **What a call has seen before it stores a link**, and whose link it is. -/
def LinkStep (profile : OauthProfile) (provider : String) (h : List (Event authrs))
    (e : Event authrs) : Prop :=
  ∀ id p subject email, e.request = .sql (.oauth (.link id p subject email)) →
    p = provider ∧ subject = profile.providerUserId ∧ Entitled profile id h

/-- The steps of a call: a sign-in links what it is entitled to, and the other calls link nothing. -/
def ProvisionCall.Step : ProvisionCall → List (Event authrs) → Event authrs → Prop
  | oauth tenantId provider profile _ _ _, h, e =>
    SignInRequest tenantId provider profile e.request ∧ LinkStep profile provider h e
  | _, _, e => links e.request = false

/-- The contract of a call. -/
abbrev ProvisionCall.contract (c : ProvisionCall) : Contract authrs := .ofGuarantee c.Step

section Steps

open Program

variable {w : World} {profile : OauthProfile} {provider : String} {h : List (Event authrs)}

theorem linkStep_of_not_links {e : Event authrs} (he : links e.request = false) :
    LinkStep profile provider h e := by
  intro id p subject email heq
  rw [heq] at he
  cases he

/-- A part that links nothing. -/
theorem keeps_unlinked {α : Type} {p : Service α} (hp : p.Asks fun q => links q = false) :
    p.Keeps (.ofGuarantee (LinkStep profile provider)) (OnOk fun _ _ => True) h :=
  (hp.keeps fun _ _ he => linkStep_of_not_links he).weaken fun _ o _ => by cases o <;> trivial

theorem query_unlinked {q : Sql} (hq : links (.sql q) = false) :
    (query q).Asks fun q => links q = false := asks_query hq

theorem execute_unlinked {q : Sql} (hq : links (.sql q) = false) :
    (execute q).Asks fun q => links q = false := asks_execute hq

theorem TailRequest.not_links {tenantId : String} {q : Request} (hq : TailRequest tenantId q) :
    links q = false := by
  cases hq <;> rfl

namespace AuthService

theorem asks_of_not_links {α : Type} (tenantId : String) {p : Service α}
    (hp : p.Asks (TailRequest tenantId)) : p.Asks fun q => links q = false :=
  hp.mono fun _ => TailRequest.not_links

theorem createMembership_unlinked (identity : Identity) (tenantId : String)
    (username : Option String) :
    (UsersRepo.create identity tenantId username).Asks fun q => links q = false :=
  ⟨rfl, fun _ => ⟨rfl, fun _ => (execute_unlinked rfl).bind fun _ => trivial⟩⟩

theorem ensureMembership_unlinked (identity : Identity) (tenantId : String) (allowSignup : Bool) :
    (ensureMembership identity tenantId allowSignup).Asks fun q => links q = false := by
  refine (query_unlinked rfl).bind fun membership => ?_
  cases membership with
  | some u => trivial
  | none =>
    cases allowSignup with
    | false => trivial
    | true => exact createMembership_unlinked identity tenantId none

/-- The identity that a sign-in is about to link is one it is entitled to. -/
theorem identityToLink_entitled (allowSignup : Bool) :
    (identityToLink profile allowSignup).Keeps (.ofGuarantee (LinkStep profile provider))
      (OnOk fun i h' => Entitled profile i.id h') h := by
  have hcreate : ∀ h₁, (createOauthIdentity profile allowSignup).Keeps
      (.ofGuarantee (LinkStep profile provider)) (OnOk fun i h' => Entitled profile i.id h') h₁ := by
    intro h₁
    have hcollision : (refuseUnverifiedCollision profile.unverifiedEmail).Asks
        fun q => links q = false := by
      cases profile.unverifiedEmail with
      | none => trivial
      | some e => exact (query_unlinked rfl).bind fun _ => asks_ensure _ _
    refine (keeps_unlinked hcollision).bind_ok ?_
    rintro - h₂ - -
    refine (keeps_ensure_ok _ _).bind_ok ?_
    rintro - h₃ - ⟨-, rfl⟩
    refine (keeps_query_ok fun e he => linkStep_of_not_links (he ▸ rfl)).weaken_ok ?_
    rintro i h₄ - rfl
    exact .created rfl List.mem_cons_self
  cases hverified : profile.verifiedEmail with
  | none =>
    unfold identityToLink identityOfVerifiedEmail
    rw [hverified]
    exact hcreate h
  | some email =>
    unfold identityToLink identityOfVerifiedEmail
    rw [hverified]
    refine (keeps_query_ok fun e he => linkStep_of_not_links (he ▸ rfl)).bind_ok ?_
    rintro existing h₁ - rfl
    cases existing with
    | some i => exact .verified rfl hverified List.mem_cons_self
    | none => exact hcreate _

/-- **A sign-in links only what it is entitled to.** -/
theorem loginOauth_entitled (tenantId : String) (allowSignup : Bool) (ip userAgent : Option String) :
    (loginOauth w tenantId provider profile allowSignup ip userAgent).Keeps
      (.ofGuarantee (LinkStep profile provider)) (OnOk fun _ _ => True) h := by
  have hdomain : (checkOauthDomain w tenantId profile.verifiedEmail).Asks fun q => links q = false :=
    asks_of_not_links tenantId (checkOauthDomain_tail w tenantId profile)
  refine (keeps_unlinked hdomain).bind_ok ?_
  rintro - h₁ - -
  have hresolve : (resolveOauthIdentity provider profile allowSignup).Keeps
      (.ofGuarantee (LinkStep profile provider)) (OnOk fun _ _ => True) h₁ := by
    refine (keeps_query_ok fun e he => linkStep_of_not_links (he ▸ rfl)).bind_ok ?_
    rintro linked h₂ - -
    cases linked with
    | some id => exact keeps_unlinked ((query_unlinked rfl).bind fun _ => asks_okOr _ _)
    | none =>
      refine (identityToLink_entitled allowSignup).bind_ok ?_
      rintro identity h₃ - hentitled
      refine (keeps_execute_ok fun e he => ?_).bind_ok fun _ _ _ _ => trivial
      -- The link is stored for the identity that was found or created.
      intro id p subject email heq
      rw [he] at heq
      cases heq
      exact ⟨rfl, rfl, hentitled⟩
  refine hresolve.bind_ok ?_
  rintro identity h₂ - -
  refine keeps_unlinked ((asks_ensure _ _).bind fun _ => ?_)
  refine (ensureMembership_unlinked identity tenantId allowSignup).bind fun user => ?_
  refine asks_of_not_links tenantId ?_
  refine (checkGates_tail tenantId user identity).bind fun _ => ?_
  refine (effectiveLoginMethods_tail w tenantId user).bind fun _ => (asks_ensure _ _).bind fun _ => ?_
  exact finalizeLogin_tail w tenantId user identity ip userAgent

/-! ### The other calls -/

theorem ensureEmailDomainAllowed_unlinked (tenantId email : String) :
    (ensureEmailDomainAllowed w tenantId email).Asks fun q => links q = false :=
  (asks_of_not_links tenantId (getTyped_tail w tenantId ⟨by decide, by decide⟩ _)).bind fun _ => asks_ensure _ _

theorem validatePassword_unlinked (tenantId password : String) :
    (validatePassword w tenantId password).Asks fun q => links q = false := by
  refine (asks_of_not_links tenantId (getTyped_tail w tenantId ⟨by decide, by decide⟩ _)).bind fun policy => ?_
  cases passwordPolicyError w password policy <;> trivial

theorem hashPassword_unlinked (password : String) :
    (hashPassword password).Asks fun q => links q = false :=
  ⟨rfl, fun r => by cases r <;> trivial⟩

theorem identityOfMobile_unlinked (mobile countryCode : Option String) :
    (identityOfMobile mobile countryCode).Asks fun q => links q = false := by
  cases mobile with
  | none => trivial
  | some m =>
    cases countryCode with
    | none => trivial
    | some c => exact query_unlinked rfl

/-- A signup links nothing. -/
theorem signup_unlinked (tenantId firstName lastName email : String)
    (mobile countryCode : Option String) (password retypePassword : String) :
    (signup w tenantId firstName lastName email mobile countryCode password retypePassword).Asks
      fun q => links q = false := by
  refine (asks_ensure _ _).bind fun _ => ?_
  refine (ensureEmailDomainAllowed_unlinked tenantId _).bind fun _ => ?_
  refine (asks_ensure _ _).bind fun _ => (validatePassword_unlinked tenantId _).bind fun _ => ?_
  refine (asks_ensure _ _).bind fun _ => (query_unlinked rfl).bind fun member => ?_
  refine (asks_ensure _ _).bind fun _ => ?_
  have hcollision : (signupCollision (trim email) (nonEmptyTrimmed mobile)
      (nonEmptyTrimmed countryCode)).Asks fun q => links q = false := by
    refine (query_unlinked rfl).bind fun byEmail => ?_
    cases byEmail with
    | some i => trivial
    | none => exact identityOfMobile_unlinked _ _
  refine hcollision.bind fun existing => ?_
  cases existing with
  | some identity =>
    exact ⟨rfl, fun _ => ⟨rfl, fun _ => Asks.bind (p := MembershipInvitesRepo.create _ _ _ _ _ _ _)
      ((execute_unlinked rfl).bind fun _ => asks_execute rfl) fun _ => trivial⟩⟩
  | none =>
    refine (hashPassword_unlinked _).bind fun passwordHash => ?_
    exact (query_unlinked rfl).bind fun identity =>
      (createMembership_unlinked identity tenantId none).bind fun _ => trivial

/-- The creation of a user by an administrator links nothing. -/
theorem adminCreateUser_unlinked (tenantId : String)
    (firstName lastName email username mobile countryCode password retypePassword : Option String) :
    (adminCreateUser w tenantId firstName lastName email username mobile countryCode password
      retypePassword).Asks fun q => links q = false := by
  have hemail : (ensureEmailFree tenantId (nonEmptyTrimmed email)).Asks fun q => links q = false := by
    cases nonEmptyTrimmed email with
    | none => trivial
    | some e => exact (query_unlinked rfl).bind fun _ => asks_ensure _ _
  have husername : (ensureUsernameFree tenantId (nonEmptyTrimmed username)).Asks
      fun q => links q = false := by
    cases nonEmptyTrimmed username with
    | none => trivial
    | some u => exact (query_unlinked rfl).bind fun _ => asks_ensure _ _
  have hhash : (hashOptionalPassword w tenantId password retypePassword).Asks
      fun q => links q = false := by
    unfold hashOptionalPassword
    split
    · exact (asks_ensure _ _).bind fun _ => (validatePassword_unlinked tenantId _).bind fun _ =>
        (hashPassword_unlinked _).bind fun _ => trivial
    · trivial
    · trivial
  have hfound : (identityOfEmail (nonEmptyTrimmed email)).Asks fun q => links q = false := by
    cases nonEmptyTrimmed email with
    | none => trivial
    | some e => exact query_unlinked rfl
  refine (asks_ensure _ _).bind fun _ => hemail.bind fun _ => husername.bind fun _ => ?_
  refine hhash.bind fun passwordHash => ?_
  refine Asks.bind (p := resolveOrCreateIdentity _ _ _ _ _ _) ?_ fun identity =>
    createMembership_unlinked identity tenantId _
  refine hfound.bind fun byEmail => ?_
  cases byEmail with
  | some i => trivial
  | none =>
    refine (identityOfMobile_unlinked _ _).bind fun byMobile => ?_
    cases byMobile with
    | some i => trivial
    | none => exact query_unlinked rfl

/-- The acceptance of an invite links nothing. -/
theorem verifyMembershipInvite_unlinked (token : String) :
    (verifyMembershipInvite token).Asks fun q => links q = false := by
  refine (query_unlinked rfl).bind fun found => (asks_okOr _ _).bind fun invite => ?_
  refine (query_unlinked rfl).bind fun membership => ?_
  cases membership with
  | some user => exact (execute_unlinked rfl).bind fun _ => trivial
  | none =>
    refine Asks.bind (p := loadIdentity invite.identityId)
      ((query_unlinked rfl).bind fun _ => asks_okOr _ _) fun identity => ?_
    exact (createMembership_unlinked identity _ _).bind fun _ =>
      (execute_unlinked rfl).bind fun _ => trivial

end AuthService

/-- **Every call goes through its steps.** -/
theorem ProvisionCall.run_keeps (w : World) (c : ProvisionCall) :
    (c.run w).Keeps c.contract (fun _ _ => True) [] := by
  cases c with
  | oauth tenantId provider profile allowSignup ip userAgent =>
    have hsignIn := AuthService.loginOauth_asks w tenantId provider profile allowSignup ip userAgent
    have hasks : (ProvisionCall.run w (.oauth tenantId provider profile allowSignup ip
        userAgent)).Asks (SignInRequest tenantId provider profile) :=
      hsignIn.bind fun _ => trivial
    have hkeeps := hasks.keeps (C := .ofGuarantee fun _ (e : Event authrs) =>
      SignInRequest tenantId provider profile e.request) (h := []) fun _ _ he => he
    have hlinks : (ProvisionCall.run w (.oauth tenantId provider profile allowSignup ip
        userAgent)).Keeps (.ofGuarantee (LinkStep profile provider)) (OnOk fun _ _ => True) [] :=
      (AuthService.loginOauth_entitled tenantId allowSignup ip userAgent).bind_ok
        fun _ _ _ _ => trivial
    exact (hkeeps.both hlinks).mono (fun _ _ _ => ⟨trivial, trivial⟩) (fun _ _ _ he => he)
      fun _ _ _ => trivial
  | signup tenantId firstName lastName email mobile countryCode password retypePassword =>
    have hasks := AuthService.signup_unlinked (w := w) tenantId firstName lastName email mobile
      countryCode password retypePassword
    refine Keeps.weaken (Asks.keeps (hasks.bind fun _ => ?_) fun _ _ he => he) fun _ _ _ => trivial
    exact trivial
  | adminCreateUser tenantId firstName lastName email username mobile countryCode password
      retypePassword =>
    have hasks := AuthService.adminCreateUser_unlinked (w := w) tenantId firstName lastName email
      username mobile countryCode password retypePassword
    refine Keeps.weaken (Asks.keeps (hasks.bind fun _ => ?_) fun _ _ he => he) fun _ _ _ => trivial
    exact trivial
  | acceptInvite token =>
    have hasks := AuthService.verifyMembershipInvite_unlinked token
    refine Keeps.weaken (Asks.keeps (hasks.bind fun _ => ?_) fun _ _ he => he) fun _ _ _ => trivial
    exact trivial

end Steps

/-! ### Runs -/

section Runs

variable {ι : Type} [DecidableEq ι]

/-- The calls, side by side. -/
abbrev provisionRun (w : World) (s : State) (call : ι → ProvisionCall) (l : List (ι ⊕ Elsewhere)) :
    Config authrs Failure Unit ι State :=
  (Config.start s fun i => (call i).run w).run (handle w) Elsewhere.act l

/-- **A link rests on a sign-in**: one for that account of the provider stored it. Either the same
sign-in had created the identity before, or its profile's email is vouched for by the provider and
is the email that the identity has in the end, up to case. -/
def LinkVouched (w : World) (call : ι → ProvisionCall) (log : List (Move authrs ι State)) (db : Db)
    (a : OauthAccountRow) : Prop :=
  ∃ newer m older tenantId provider profile allowSignup ip userAgent email,
    log = newer ++ m :: older ∧
    call m.who = .oauth tenantId provider profile allowSignup ip userAgent ∧
    m.event.request = .sql (.oauth (.link a.identityId provider profile.providerUserId email)) ∧
    varcharReq 50 provider = .ok a.provider ∧
    varcharReq 255 profile.providerUserId = .ok a.providerUserId ∧
    ((∃ x ∈ older, x.who = m.who ∧ ∃ i : Identity, i.id = a.identityId ∧
        x.event = did (.identities (.create profile.verifiedEmail none none profile.firstName
          profile.lastName none)) i) ∨
      ∃ e, profile.emailVerified = true ∧ profile.email = some e ∧ db.OwnsEmail w a.identityId e)

/-- **No unverified email attaches to an account.** Every link that was not there at the start rests
on a sign-in, and an identity that a sign-in has created has the email that its provider vouches
for, if there is one, and no other. -/
structure LinksVouched (w : World) (call : ι → ProvisionCall) (before after : Db)
    (log : List (Move authrs ι State)) : Prop where
  links : ∀ a ∈ after.identityOauthAccounts, a ∈ before.identityOauthAccounts ∨
    LinkVouched w call log after a
  emails : ∀ m ∈ log, ∀ tenantId provider profile allowSignup ip userAgent,
    call m.who = .oauth tenantId provider profile allowSignup ip userAgent →
    ∀ email mobile countryCode firstName lastName passwordHash (i : Identity),
      m.event = did (.identities (.create email mobile countryCode firstName lastName
        passwordHash)) i →
      after.EmailOf (fun e => varcharOpt 255 profile.verifiedEmail = .ok e) i.id

variable {w : World} {s : State} {call : ι → ProvisionCall} {l : List (ι ⊕ Elsewhere)}
  {newer older : List (Move authrs ι State)} {m : Move authrs ι State}

/-- Every move is a step of its call. -/
theorem provisionRun_step (hlog : (provisionRun w s call l).log = newer ++ m :: older) :
    (call m.who).Step (own m.who older) m.event :=
  Config.run_guaranteed (C := fun i => (call i).contract) (Q := fun _ _ _ => True)
    (fun i => (call i).run_keeps w) (fun _ _ _ => trivial) l newer m older hlog

/-- Every reply is the handler's. -/
theorem provisionRun_reply (hlog : (provisionRun w s call l).log = newer ++ m :: older) :
    m.event.reply = (handle w m.event.request m.before).1 := by
  obtain ⟨_, _, -, -, -, -, hreply⟩ := Config.run_log_split l hlog
  exact hreply

/-- What a move has made of an email is still so at the end. -/
theorem emailOf_since {p : Option String → Prop} {id : Uuid}
    (hlog : (provisionRun w s call l).log = newer ++ m :: older)
    (hm : (handle w m.event.request m.before).2.db.EmailOf p id) :
    (provisionRun w s call l).state.db.EmailOf p id :=
  Config.run_state_since (P := fun s => s.db.EmailOf p id) handle_emailOf Elsewhere.emailOf l hlog hm

/-- Every link was there at the start, or a move has stored it. -/
theorem provisionRun_link (w : World) (s : State) (call : ι → ProvisionCall)
    (l : List (ι ⊕ Elsewhere)) :
    ∀ a ∈ (provisionRun w s call l).state.db.identityOauthAccounts,
      a ∈ s.db.identityOauthAccounts ∨ ∃ m ∈ (provisionRun w s call l).log,
        ∃ provider subject email,
          m.event.request = .sql (.oauth (.link a.identityId provider subject email)) ∧
          varcharReq 50 provider = .ok a.provider ∧
          varcharReq 255 subject = .ok a.providerUserId := by
  refine Config.run_invariant (C := fun i => (call i).contract) (Q := fun _ _ _ => True)
    (J := fun (s' : State) log => ∀ a ∈ s'.db.identityOauthAccounts, a ∈ s.db.identityOauthAccounts ∨
      ∃ m ∈ log, ∃ provider subject email,
        m.event.request = .sql (.oauth (.link a.identityId provider subject email)) ∧
        varcharReq 50 provider = .ok a.provider ∧ varcharReq 255 subject = .ok a.providerUserId)
    (fun i => (call i).run_keeps w) (fun _ _ _ => trivial) (fun a ha => .inl ha) ?_ ?_ l
  · intro s' log i q ih _ a ha
    rcases handle_account ha with hold | hnew
    · refine (ih a hold).imp id ?_
      rintro ⟨m, hm, hstored⟩
      exact ⟨m, List.mem_cons_of_mem _ hm, hstored⟩
    · exact .inr ⟨_, List.mem_cons_self, hnew⟩
  · intro s' log t ih a ha
    exact ih a (t.links s' a ha)

/-- What a sign-in was entitled to when it linked an identity shows at the end. -/
theorem entitled_since {profile : OauthProfile} {id : Uuid}
    (hlog : (provisionRun w s call l).log = newer ++ m :: older)
    (h : Entitled profile id (own m.who older)) :
    (∃ x ∈ older, x.who = m.who ∧ ∃ i : Identity, i.id = id ∧
        x.event = did (.identities (.create profile.verifiedEmail none none profile.firstName
          profile.lastName none)) i) ∨
      ∃ e, profile.emailVerified = true ∧ profile.email = some e ∧
        (provisionRun w s call l).state.db.OwnsEmail w id e := by
  cases h with
  | created hid hmem =>
    obtain ⟨x, hx, hwho, hevent⟩ := mem_own.mp hmem
    exact .inl ⟨x, hx, hwho, _, hid, hevent⟩
  | verified hid hemail hmem =>
    rename_i email i
    subst hid
    obtain ⟨x, hx, hwho, hevent⟩ := mem_own.mp hmem
    obtain ⟨newer', older', rfl⟩ := List.append_of_mem hx
    have hlog' : (provisionRun w s call l).log = (newer ++ m :: newer') ++ x :: older' := by
      rw [hlog, List.append_assoc, List.cons_append]
    have hreply := provisionRun_reply hlog'
    obtain ⟨who, event, before⟩ := x
    obtain rfl : event = did (.identities (.getByEmail email)) (some i) := hevent
    have howns : before.db.OwnsEmail w i.id email := handle_getByEmail hreply.symm
    unfold OauthProfile.verifiedEmail at hemail
    split at hemail
    · rename_i hverified
      exact .inr ⟨email, hverified, hemail, emailOf_since hlog' (handle_emailOf _ _ howns)⟩
    · cases hemail

/-- **No unverified email attaches to an account**, in any interleaving of the calls. -/
theorem run_linksVouched (w : World) (s : State) (call : ι → ProvisionCall)
    (l : List (ι ⊕ Elsewhere)) :
    LinksVouched w call s.db (provisionRun w s call l).state.db (provisionRun w s call l).log where
  links := by
    intro a ha
    rcases provisionRun_link w s call l a ha with hold | ⟨m, hm, p, subject, email, hq, hp, hs⟩
    · exact .inl hold
    · obtain ⟨newer, older, hlog⟩ := List.append_of_mem hm
      have hstep := provisionRun_step hlog
      cases hc : call m.who with
      | oauth tenantId provider profile allowSignup ip userAgent =>
        rw [hc] at hstep
        obtain ⟨rfl, rfl, hentitled⟩ := hstep.2 _ _ _ _ hq
        exact .inr ⟨newer, m, older, tenantId, p, profile, allowSignup, ip, userAgent, email, hlog, hc,
          hq, hp, hs, entitled_since hlog hentitled⟩
      | _ =>
        -- The other calls store no link.
        rw [hc] at hstep
        change links m.event.request = false at hstep
        rw [hq] at hstep
        cases hstep
  emails := by
    intro m hm tenantId provider profile allowSignup ip userAgent hc email mobile countryCode
      firstName lastName passwordHash i hevent
    obtain ⟨newer, older, hlog⟩ := List.append_of_mem hm
    have hstep := provisionRun_step hlog
    rw [hc] at hstep
    have hreply := provisionRun_reply hlog
    obtain ⟨who, event, before⟩ := m
    obtain rfl := hevent
    have hafter := emailOf_since hlog (handle_createIdentity hreply.symm)
    cases hstep.1 with
    | createIdentity => exact hafter
    | tail ht => cases ht

end Runs

end Authrs
