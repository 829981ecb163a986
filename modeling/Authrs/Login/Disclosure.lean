import Authrs.Login.MobilePair
import Authrs.Routes.Signup

/-!
# What a signup tells about other accounts

A signup with an email that nobody has is answered with the new account, and one with the email of an
identity that exists elsewhere with the generic response. So whoever sends a valid request learns
which of the two is the case, unless the mobile number of the request is an identity's: then both
are answered with the generic response.

## Main definitions

* `DifferInOwner`: two states differ in whether the email belongs to an identity that is not a member
* `SameResponse`: the same status and the same body, up to the id of the user
* `SignupPasses`: the checks of a signup pass

## Main results

* `exec_signup_invites`, `exec_signup_creates`: a signup after its checks
* `signup_discloses_iff`: when the responses are the same
* `account_elsewhere_disclosed`: an account in another tenant, told by the status code
-/

namespace Authrs

open Interaction AuthService Relational

/-! ### The responses -/

/-- A JSON object without a key. -/
def Json.without (key : String) : Json → Json
  | .object entries => .object (entries.filter fun e => e.1 ≠ key)
  | j => j

/-- A response without the id of the user. -/
def Response.withoutId (r : Response) : Response :=
  ⟨r.status, r.body.without "id"⟩

/-- **The same status and the same body**, up to the id of the user. -/
def SameResponse (a b : Option Response) : Prop :=
  a.map Response.withoutId = b.map Response.withoutId

/-- The request is accepted. -/
def Accepted (a : Option Response) : Prop :=
  ∃ r ∈ a, 200 ≤ r.status ∧ r.status < 300

theorem SameResponse.status_eq {a b : Response} (h : SameResponse (some a) (some b)) :
    a.status = b.status := by
  have hsame : a.withoutId = b.withoutId := Option.some.inj h
  have hstatus : a.withoutId.status = b.withoutId.status := congrArg Response.status hsame
  exact hstatus

/-- **The states differ only in whether the email belongs to an identity that is not a member of the
tenant.** In the second state it belongs to `r`, which may have memberships elsewhere. -/
structure DifferInOwner (w : World) (tenantId email : String) (r : IdentityRow) (s s' : State) :
    Prop where
  rest : s' = { s with db :=
    { s.db with identities := s'.db.identities, users := s'.db.users } }
  others : ∀ q : IdentityRow, q.id ≠ r.id → (q ∈ s'.db.identities ↔ q ∈ s.db.identities)
  members : ∀ m : MembershipRow, m.tenantId = tenantId → (m ∈ s'.db.users ↔ m ∈ s.db.users)
  owner : r ∈ s'.db.identities
  hasEmail : r.HasEmail w.lower email
  unknown : ∀ q ∈ s.db.identities, ¬q.HasEmail w.lower email
  stranger : ∀ m ∈ s'.db.users, m.tenantId = tenantId → m.identityId ≠ r.id

/-! ### A signup after its checks -/

/-- A signup from the identity on that it finds. -/
def signupWith (tenantId email : String) (mobile countryCode first last : Option String)
    (password : String) : Option Identity → Service SignupOutcome
  | some identity => inviteExisting identity tenantId email first last
  | none => do
    let passwordHash ← hashPassword password
    let identity ← IdentitiesRepo.create (some email) mobile countryCode first last
      (some passwordHash)
    let user ← UsersRepo.create identity tenantId none
    pure (.created user)

section Signup

open Program

variable {w : World} {s s' : State}
  {tenantId firstName lastName email password retypePassword : String}
  {mobile countryCode : Option String}

/-- **The checks of a signup pass.** -/
structure SignupPasses (w : World) (s : State)
    (tenantId email password retypePassword : String) (mobile countryCode : Option String) :
    Prop where
  given : trim email ≠ ""
  permitted : s.db.permitsEmail w tenantId (trim email)
  retyped : password = retypePassword
  policy : policyOutcome w s.db tenantId password = .ok ()
  codeGiven : mobileWithoutCode mobile countryCode = false
  free : s.db.member tenantId (trim email) = none

theorem exec_getMember (tenantId email : String) :
    (UsersRepo.getByEmail tenantId email).exec (handle w) s =
      (.ok (s.db.member tenantId email), s) :=
  exec_query_read rfl rfl

/-- A signup whose checks pass goes on with the identity that it finds. -/
theorem exec_signup_of_passes
    (h : SignupPasses w s tenantId email password retypePassword mobile countryCode) :
    (signup w tenantId firstName lastName email mobile countryCode password retypePassword).exec
        (handle w) s =
      (signupWith tenantId (trim email) (nonEmptyTrimmed mobile) (nonEmptyTrimmed countryCode)
        (nonEmptyTrimmed (some firstName)) (nonEmptyTrimmed (some lastName)) password
          ((s.db.resolved w.lower (some (trim email)) (nonEmptyTrimmed mobile)
            (nonEmptyTrimmed countryCode)).map IdentityRow.toIdentity)).exec (handle w) s := by
  unfold signup ensureRetyped
  simp only [Program.bind_eq]
  rw [exec_bind_ok _ (Service.exec_ensure_eq_ok.mpr ⟨h.given, rfl⟩),
    exec_bind_ok _ (exec_ensureEmailDomainAllowed_eq_ok.mpr ⟨h.permitted, rfl⟩),
    exec_bind_ok _ (Service.exec_ensure_eq_ok.mpr ⟨h.retyped, rfl⟩),
    exec_bind_ok _ (exec_validatePassword_eq_ok.mpr ⟨h.policy, rfl⟩),
    exec_bind_ok _ (Service.exec_ensure_eq_ok.mpr ⟨h.codeGiven, rfl⟩),
    exec_bind_ok _ (exec_getMember tenantId (trim email)),
    exec_bind_ok _ (Service.exec_ensure_eq_ok.mpr ⟨h.free, rfl⟩),
    exec_bind_ok _ (exec_signupCollision_eq _ _ _)]
  cases s.db.resolved w.lower (some (trim email)) (nonEmptyTrimmed mobile)
      (nonEmptyTrimmed countryCode) with
  | none => rfl
  | some r => rfl

/-- A signup that returns has passed its checks. -/
theorem signupPasses_of_ok {outcome : SignupOutcome}
    (h : (signup w tenantId firstName lastName email mobile countryCode password
      retypePassword).exec (handle w) s = (.ok outcome, s')) :
    SignupPasses w s tenantId email password retypePassword mobile countryCode := by
  obtain ⟨_, s₁, hempty, h⟩ := (exec_bind_eq_ok _).mp h
  obtain ⟨hgiven, rfl⟩ := Service.exec_ensure_eq_ok.mp hempty
  obtain ⟨_, s₂, hdomain, h⟩ := (exec_bind_eq_ok _).mp h
  obtain ⟨hpermitted, rfl⟩ := exec_ensureEmailDomainAllowed_eq_ok.mp hdomain
  obtain ⟨_, s₃, hsame, h⟩ := (exec_bind_eq_ok _).mp h
  obtain ⟨hretyped, rfl⟩ := Service.exec_ensure_eq_ok.mp hsame
  obtain ⟨_, s₄, hvalid, h⟩ := (exec_bind_eq_ok _).mp h
  obtain ⟨hpolicy, rfl⟩ := exec_validatePassword_eq_ok.mp hvalid
  obtain ⟨_, s₅, hguard, h⟩ := (exec_bind_eq_ok _).mp h
  obtain ⟨hcode, rfl⟩ := Service.exec_ensure_eq_ok.mp hguard
  obtain ⟨member, s₆, hmember, h⟩ := (exec_bind_eq_ok _).mp h
  rw [exec_getMember] at hmember
  obtain ⟨hread, rfl⟩ := Prod.mk.inj hmember
  obtain rfl := Except.ok.inj hread
  obtain ⟨_, s₇, hnew, h⟩ := (exec_bind_eq_ok _).mp h
  obtain ⟨hfree, rfl⟩ := Service.exec_ensure_eq_ok.mp hnew
  exact ⟨hgiven, hpermitted, hretyped, hpolicy, hcode, hfree⟩

/-- A signup that finds no identity and returns has created an account. -/
theorem exec_signupWith_none {email password : String} {first last : Option String}
    {outcome : SignupOutcome}
    (h : (signupWith tenantId email mobile countryCode first last password none).exec (handle w) s =
      (.ok outcome, s')) : ∃ user, outcome = .created user := by
  obtain ⟨passwordHash, x, -, h⟩ := (exec_bind_eq_ok _).mp h
  obtain ⟨identity, y, -, h⟩ := (exec_bind_eq_ok _).mp h
  obtain ⟨user, z, -, h⟩ := (exec_bind_eq_ok _).mp h
  exact ⟨user, (Except.ok.inj (Prod.mk.inj h).1).symm⟩

end Signup

/-! ### An invite that can be stored -/

/-- The columns of an invite, whoever it is for. -/
structure InviteFits (db : Db) (tenantId token : String) (first last : Option String) : Prop where
  tenant : ∃ t, varcharReq 255 tenantId = .ok t ∧ db.hasTenant t = true
  first : ∃ t, varcharOpt 255 first = .ok t
  last : ∃ t, varcharOpt 255 last = .ok t
  token : ∃ t, varcharReq 255 token = .ok t

theorem inviteFits_of_insert {db db' : Db} {identityId : Uuid} {tenantId token : String}
    {first last username : Option String} {expiresAt : Time} {n : Nat}
    (h : insertInvite db identityId tenantId first last username token expiresAt = .ok (n, db')) :
    InviteFits db tenantId token first last := by
  unfold insertInvite at h
  simp only [bind_eq_ok] at h
  obtain ⟨t, ht, f, hf, l, hl, u, -, k, hk, h⟩ := h
  repeat' split at h
  all_goals cases h
  rename_i hnot
  exact ⟨⟨t, ht, by simpa using hnot⟩, ⟨f, hf⟩, ⟨l, hl⟩, ⟨k, hk⟩⟩

theorem InviteFits.insert {db : Db} {identityId : Uuid} {tenantId token : String}
    {first last : Option String} (h : InviteFits db tenantId token first last)
    (hidentity : db.identity identityId ≠ none)
    (hunused : ∀ i ∈ db.membershipInvites, varcharReq 255 token ≠ .ok i.token)
    (expiresAt : Time) :
    ∃ t, insertInvite db identityId tenantId first last none token expiresAt =
      .ok ((1 : Nat), { db with membershipInvites := t }) := by
  obtain ⟨tenant, ht, hknown⟩ := h.tenant
  obtain ⟨f, hf⟩ := h.first
  obtain ⟨l, hl⟩ := h.last
  obtain ⟨k, hk⟩ := h.token
  obtain ⟨t, hins⟩ := Table.insert?_isSome (t := db.membershipInvites)
    (x := ⟨identityId, tenant, f, l, none, k, expiresAt⟩) fun i hi heq =>
      hunused i hi (hk.trans (congrArg Except.ok heq.symm))
  have hsome : (db.identity identityId).isNone = false := by
    cases hrow : db.identity identityId with
    | none => exact absurd hrow hidentity
    | some r => rfl
  refine ⟨t, ?_⟩
  unfold insertInvite
  rw [ht, hf, hl, hk]
  simp [varcharOpt, hins, hsome, hknown, bind, Except.bind]

section Invites

open Program

variable {w : World} {s s' : State} {identity : Identity} {tenantId email : String}
  {first last : Option String}

theorem inviteFits_of_exec {outcome : SignupOutcome}
    (h : (inviteExisting identity tenantId email first last).exec (handle w) s =
      (.ok outcome, s')) :
    InviteFits s.db tenantId (w.token s.draws) first last ∧
      ∃ toEmail token, outcome = .verificationSent toEmail token := by
  obtain ⟨token, x, htoken, h⟩ := (exec_bind_eq_ok _).mp h
  obtain ⟨now, y, hclock, h⟩ := (exec_bind_eq_ok _).mp h
  obtain ⟨_, z, hcreate, h⟩ := (exec_bind_eq_ok _).mp h
  obtain ⟨rfl, -⟩ := Prod.mk.inj h |>.imp_left Except.ok.inj
  obtain ⟨rfl, rfl⟩ := Prod.mk.inj htoken |>.imp_left Except.ok.inj
  obtain ⟨rfl, rfl⟩ := Prod.mk.inj hclock |>.imp_left Except.ok.inj
  obtain ⟨_, u, hdelete, hinsert⟩ := (exec_bind_eq_ok _).mp hcreate
  obtain ⟨_, hdeleted⟩ := exec_execute_eq_ok hdelete
  obtain ⟨n, hinserted⟩ := exec_execute_eq_ok hinsert
  have hfits := inviteFits_of_insert (n := n) hinserted
  have hu : u.db.tenants = s.db.tenants := by
    rw [← (Prod.mk.inj (Except.ok.inj hdeleted)).2]
    rfl
  refine ⟨⟨?_, hfits.first, hfits.last, hfits.token⟩, _, _, rfl⟩
  obtain ⟨t, ht, hknown⟩ := hfits.tenant
  refine ⟨t, ht, ?_⟩
  unfold Db.hasTenant at hknown ⊢
  rwa [hu] at hknown

/-- **An invite that fits is stored**, under a token that is not in use. -/
theorem exec_inviteExisting_fits (hfits : InviteFits s.db tenantId (w.token s.draws) first last)
    (hidentity : s.db.identity identity.id ≠ none)
    (hunused : ∀ i ∈ s.db.membershipInvites, varcharReq 255 (w.token s.draws) ≠ .ok i.token) :
    ∃ s', (inviteExisting identity tenantId email first last).exec (handle w) s =
      (.ok (.verificationSent (identity.email.getD email) (w.token s.draws)), s') := by
  let chosen : InviteRow → Bool := fun r => r.identityId = identity.id && r.tenantId = tenantId
  let db := { s.db with membershipInvites := s.db.membershipInvites.delete chosen }
  have hfits' : InviteFits db tenantId (w.token s.draws) first last :=
    ⟨hfits.tenant, hfits.first, hfits.last, hfits.token⟩
  obtain ⟨t, hins⟩ := @InviteFits.insert db identity.id _ _ _ _ hfits' hidentity
    (fun i hi => hunused i (Table.mem_delete.mp hi).1) (s.now + minutes PASSWORD_RESET_TOKEN_TTL_MINS)
  let q : Sql := .tokens (.createInvite identity.id tenantId first last none (w.token s.draws)
    (s.now + minutes PASSWORD_RESET_TOKEN_TTL_MINS))
  have hdelete : (query (.tokens (.deleteInvitesFor identity.id tenantId))).exec (handle w) s.drawn =
      (.ok (s.db.membershipInvites.affected chosen), { s.drawn with db := db }) :=
    exec_query_ok rfl
  have hcreate : (query q).exec (handle w) { s.drawn with db := db } =
      (.ok (1 : Nat), { s.drawn with db := { db with membershipInvites := t } }) := by
    rw [exec_query_ok (q := q) (s := { s.drawn with db := db }) hins]
    rfl
  refine ⟨{ s.drawn with db := { db with membershipInvites := t } }, ?_⟩
  unfold inviteExisting MembershipInvitesRepo.create execute
  simp only [Program.bind_eq, Program.bind_assoc, Program.pure_eq, Program.pure_bind]
  rw [exec_bind_ok _ (exec_randomToken w s), exec_bind_ok _ (exec_utcNow w _),
    exec_bind_ok _ hdelete]
  exact exec_bind_ok _ hcreate _

end Invites

/-! ### The route -/

/-- The base URL for the link of an invite mail can be read, if one is to be sent. -/
def Mailable (w : World) (db : Db) (tenantId : String) : Prop :=
  w.smtpConfigured = true → ∃ v, db.config w tenantId "frontend_config" "base_url" = .ok v

section Route

open Program

variable {w : World} {mails : Mails} {s s' : State} {tenantId : TenantId} {body : SignupBody}

theorem exec_respond_sent {tenantId email token : String} {a : Response} :
    (Routes.respond w mails tenantId (.verificationSent email token)).exec (handle w) s =
        (.ok a, s') ↔ Mailable w s.db tenantId ∧ a = Routes.acceptedResponse ∧ s = s' := by
  unfold Routes.respond Routes.mailInvite Mailable TenantConfigLoader.getFrontendBaseUrl
  by_cases hsmtp : w.smtpConfigured = true
  · simp only [hsmtp, if_true, Program.bind_eq, Program.bind_assoc, Program.pure_eq,
      Program.pure_bind, exec_bind, TenantConfigLoader.exec_getTyped]
    cases s.db.config w tenantId "frontend_config" "base_url" with
    | error e => simp [Except.map, Except.mapError]
    | ok v => simp [Except.map, Except.mapError, eq_comm]
  · simp [hsmtp, eq_comm]

/-- A request that is answered without an error: the outcome of the service, and its answer. -/
theorem exec_of_answered {a : Response}
    (h : (Routes.signup w mails tenantId body).response w s = some a) (hstatus : a.status < 400) :
    ∃ outcome s₁ s₂, (AuthService.signup w tenantId.val body.firstName body.lastName body.email
        body.mobile body.countryCode body.password body.retypePassword).exec (handle w) s =
          (.ok outcome, s₁) ∧
      (Routes.respond w mails tenantId.val outcome).exec (handle w) s₁ = (.ok a, s₂) := by
  obtain ⟨s₂, hexec⟩ := Service.exec_of_response h hstatus
  obtain ⟨outcome, s₁, hsignup, hrespond⟩ := (exec_bind_eq_ok _).mp hexec
  exact ⟨outcome, s₁, s₂, hsignup, hrespond⟩

theorem answered_of_exec {outcome : SignupOutcome} {a : Response} {s₁ s₂ : State}
    (hsignup : (AuthService.signup w tenantId.val body.firstName body.lastName body.email
      body.mobile body.countryCode body.password body.retypePassword).exec (handle w) s =
        (.ok outcome, s₁))
    (hrespond : (Routes.respond w mails tenantId.val outcome).exec (handle w) s₁ = (.ok a, s₂)) :
    (Routes.signup w mails tenantId body).response w s = some a :=
  Service.response_ok ((exec_bind_eq_ok _).mpr ⟨outcome, s₁, hsignup, hrespond⟩)

theorem kvStore_of_exec {α : Type} {p : Service α} {a : Except Failure α}
    (h : p.exec (handle w) s = (a, s')) : s'.db.kvStore = s.db.kvStore := by
  rw [← exec_kvStore w s p, h]

/-- The base URL is read from the configuration, which nobody changes. -/
theorem Mailable.of_kvStore {db db' : Db} {tenantId : String} (h : Mailable w db tenantId)
    (hkv : db'.kvStore = db.kvStore) : Mailable w db' tenantId := by
  unfold Mailable Db.config Db.kv at h ⊢
  rwa [hkv]

end Route

/-! ### Two states -/

section Two

open Program

variable {w : World} {mails : Mails} {s s' : State} {tenantId : TenantId} {body : SignupBody}
  {r : IdentityRow}

/-! The rest of the two states is the same. -/

theorem DifferInOwner.draws {T email : String} (h : DifferInOwner w T email r s s') :
    s'.draws = s.draws :=
  (congrArg State.draws h.rest :)

theorem DifferInOwner.kvStore {T email : String} (h : DifferInOwner w T email r s s') :
    s'.db.kvStore = s.db.kvStore :=
  (congrArg (fun t : State => t.db.kvStore) h.rest :)

theorem DifferInOwner.invites {T email : String} (h : DifferInOwner w T email r s s') :
    s'.db.membershipInvites = s.db.membershipInvites :=
  (congrArg (fun t : State => t.db.membershipInvites) h.rest :)

theorem DifferInOwner.inviteFits {T email : String} {first last : Option String}
    (h : DifferInOwner w T email r s s') (hfits : InviteFits s.db T (w.token s.draws) first last) :
    InviteFits s'.db T (w.token s'.draws) first last := by
  have htenants : s'.db.tenants = s.db.tenants :=
    (congrArg (fun t : State => t.db.tenants) h.rest :)
  obtain ⟨t, ht, hknown⟩ := hfits.tenant
  refine ⟨⟨t, ht, ?_⟩, hfits.first, hfits.last, h.draws ▸ hfits.token⟩
  unfold Db.hasTenant at hknown ⊢
  rwa [htenants]

/-- In the second state the email finds its owner. -/
theorem DifferInOwner.byEmail {T email : String} (h : DifferInOwner w T email r s s') :
    s'.db.byEmail w.lower (some email) = some r := by
  obtain ⟨e, he, hlower⟩ := h.hasEmail
  obtain ⟨q, hq⟩ := Table.selectOne_isSome (p := fun r : IdentityRow =>
    r.email.any fun x => decide (w.lower x = w.lower email)) h.owner
      ((Option.any_eq_true _ _).mpr ⟨e, he, decide_eq_true hlower⟩)
  have hfound : s'.db.byEmail w.lower (some email) = some q := hq
  obtain ⟨hmem, hhas⟩ := Db.byEmail_eq_some hfound
  by_cases hid : q.id = r.id
  · rw [hfound, Table.eq_of_key_eq hmem h.owner hid]
  · exact absurd (hhas email rfl) (h.unknown q ((h.others q hid).mp hmem))

theorem DifferInOwner.byEmail_none {T email : String} (h : DifferInOwner w T email r s s') :
    s.db.byEmail w.lower (some email) = none := by
  cases hfound : s.db.byEmail w.lower (some email) with
  | none => rfl
  | some q =>
    obtain ⟨hmem, hhas⟩ := Db.byEmail_eq_some hfound
    exact absurd (hhas email rfl) (h.unknown q hmem)

/-- In the second state the tenant has no member with the email. -/
theorem DifferInOwner.member_none {T email : String} (h : DifferInOwner w T email r s s') :
    s'.db.member T email = none := by
  refine List.find?_eq_none.mpr fun u hu hp => ?_
  obtain ⟨m, hm, i, hi, rfl⟩ := Db.mem_memberships.mp hu
  simp only [User.ofRows_tenantId, User.ofRows_email, Bool.and_eq_true, decide_eq_true_eq] at hp
  obtain ⟨hmem, hid⟩ := Table.selectOne_key.mp hi
  by_cases hr : i.id = r.id
  · exact h.stranger m hm hp.1 (hid.symm.trans hr)
  · exact h.unknown i ((h.others i hr).mp hmem) ⟨email, hp.2, rfl⟩

/-- The checks pass in the second state as in the first. -/
theorem DifferInOwner.passes {T email password retypePassword : String}
    {mobile countryCode : Option String} (h : DifferInOwner w T (trim email) r s s')
    (hpasses : SignupPasses w s T email password retypePassword mobile countryCode) :
    SignupPasses w s' T email password retypePassword mobile countryCode := by
  have hfree := h.member_none
  obtain ⟨identities, users, rfl⟩ : ∃ identities users,
      s' = { s with db := { s.db with identities := identities, users := users } } :=
    ⟨_, _, h.rest⟩
  exact ⟨hpasses.given, hpasses.permitted, hpasses.retyped, hpasses.policy, hpasses.codeGiven, hfree⟩

/-- **A number that is an identity's** has both requests answered with the generic response. -/
theorem sameResponse_of_number (hw : FreshTokens w)
    (hdiffer : DifferInOwner w tenantId.val (trim body.email) r s s')
    (hunused : ∀ i ∈ s.db.membershipInvites, i.token ≠ w.token s.draws)
    (hvalid : Accepted ((Routes.signup w mails tenantId body).response w s))
    (hnumber : s.db.byMobile (nonEmptyTrimmed body.mobile) (nonEmptyTrimmed body.countryCode) ≠
      none) :
    SameResponse ((Routes.signup w mails tenantId body).response w s)
      ((Routes.signup w mails tenantId body).response w s') := by
  obtain ⟨a, ha, -, hstatus⟩ := hvalid
  obtain ⟨outcome, s₁, s₂, hsignup, hrespond⟩ := exec_of_answered ha (by omega)
  have hpasses := signupPasses_of_ok hsignup
  obtain ⟨q, hq⟩ := Option.ne_none_iff_exists'.mp hnumber
  -- in the first state the number finds its identity, which is invited
  rw [exec_signup_of_passes hpasses, Db.resolved, hdiffer.byEmail_none, hq] at hsignup
  obtain ⟨hfits, toEmail, token, rfl⟩ := inviteFits_of_exec hsignup
  obtain ⟨hmail, rfl, -⟩ := exec_respond_sent.mp hrespond
  have hmail₀ : Mailable w s.db tenantId.val :=
    hmail.of_kvStore (kvStore_of_exec hsignup).symm
  -- in the second state the email finds its owner
  have hpasses' := hdiffer.passes hpasses
  have hresolved : s'.db.resolved w.lower (some (trim body.email)) (nonEmptyTrimmed body.mobile)
      (nonEmptyTrimmed body.countryCode) = some r := by
    rw [Db.resolved, hdiffer.byEmail, Option.some_or]
  have hknown : s'.db.identity r.id ≠ none := by
    rw [show s'.db.identity r.id = some r from Table.selectOne_key.mpr ⟨hdiffer.owner, rfl⟩]
    exact Option.some_ne_none r
  obtain ⟨u, hinvited⟩ := @exec_inviteExisting_fits _ _ r.toIdentity _ (trim body.email) _ _
    (hdiffer.inviteFits hfits) hknown fun i hi heq =>
      hunused i (hdiffer.invites ▸ hi) (hdiffer.draws ▸ hw.varcharReq_token heq)
  have hsignup' := @exec_signup_of_passes _ _ _ body.firstName body.lastName _ _ _ _ _ hpasses'
  rw [hresolved] at hsignup'
  have hmail' : Mailable w u.db tenantId.val :=
    hmail₀.of_kvStore ((kvStore_of_exec hinvited).trans hdiffer.kvStore)
  have hanswer := @answered_of_exec _ mails _ _ _ _ _ _ _ (hsignup'.trans hinvited)
    (exec_respond_sent.mpr ⟨hmail', rfl, rfl⟩)
  rw [ha, hanswer]
  rfl

/-- **Otherwise the status codes differ**: a new account is created in the first state only. -/
theorem not_sameResponse_of_new
    (hdiffer : DifferInOwner w tenantId.val (trim body.email) r s s')
    (hvalid : Accepted ((Routes.signup w mails tenantId body).response w s))
    (hnew : s.db.byMobile (nonEmptyTrimmed body.mobile) (nonEmptyTrimmed body.countryCode) = none) :
    ¬SameResponse ((Routes.signup w mails tenantId body).response w s)
      ((Routes.signup w mails tenantId body).response w s') := by
  obtain ⟨a, ha, -, hstatus⟩ := hvalid
  obtain ⟨outcome, s₁, s₂, hsignup, hrespond⟩ := exec_of_answered ha (by omega)
  have hpasses := signupPasses_of_ok hsignup
  rw [exec_signup_of_passes hpasses, Db.resolved, hdiffer.byEmail_none, hnew] at hsignup
  obtain ⟨user, rfl⟩ := exec_signupWith_none hsignup
  obtain rfl : Routes.createdResponse user = a := Except.ok.inj (Prod.mk.inj hrespond).1
  intro hsame
  rw [ha] at hsame
  cases hb : (Routes.signup w mails tenantId body).response w s' with
  | none =>
    rw [hb] at hsame
    cases hsame
  | some b =>
    rw [hb] at hsame
    have hcreated : 201 = b.status := hsame.status_eq
    obtain ⟨outcome', s₃, s₄, hsignup', hrespond'⟩ := exec_of_answered hb (by omega)
    rw [exec_signup_of_passes (hdiffer.passes hpasses), Db.resolved, hdiffer.byEmail,
      Option.some_or] at hsignup'
    obtain ⟨-, toEmail, token, rfl⟩ := inviteFits_of_exec hsignup'
    obtain ⟨-, rfl, -⟩ := exec_respond_sent.mp hrespond'
    cases hcreated

end Two

/-- **When a signup does not tell whether the email is an identity's elsewhere**: exactly when the
mobile number of the request is an identity's. -/
theorem signup_discloses_iff (w : World) (hw : FreshTokens w) (mails : Mails) (s s' : State)
    (tenantId : TenantId) (body : SignupBody) (r : IdentityRow)
    (hdiffer : DifferInOwner w tenantId.val (trim body.email) r s s')
    (hunused : ∀ i ∈ s.db.membershipInvites, i.token ≠ w.token s.draws)
    (hvalid : Accepted ((Routes.signup w mails tenantId body).response w s)) :
    SameResponse ((Routes.signup w mails tenantId body).response w s)
        ((Routes.signup w mails tenantId body).response w s') ↔
      s.db.byMobile (nonEmptyTrimmed body.mobile) (nonEmptyTrimmed body.countryCode) ≠ none :=
  ⟨fun hsame hnew => not_sameResponse_of_new hdiffer hvalid hnew hsame,
    sameResponse_of_number hw hdiffer hunused hvalid⟩

/-! ### An account in another tenant -/

/-- The identity of a member of another tenant. -/
def bob : IdentityRow :=
  .ofHandles ⟨0, id, fun _ => 7⟩ (some "bob@globex.example") none none (some "Bob") none none

/-- Nobody has an account. -/
def nobodyKnown : State :=
  .ofDb { Db.empty with tenants := acmeAndGlobex } 0

/-- Bob is a member of the other tenant. -/
def bobElsewhere : State :=
  .ofDb { Db.empty with
    tenants := acmeAndGlobex
    identities := .single bob
    users := .single ⟨1, "globex", 7, none, "active", none, 0, 0⟩ } 0

/-- A signup with Bob's email. -/
def bobsSignup : SignupBody :=
  ⟨"Bob", "", "bob@globex.example", none, none, "correct horse", "correct horse"⟩

/-- Mails go nowhere. -/
def noMails : Mails := ⟨none, fun _ _ _ => .ok ()⟩

theorem differ_in_bob :
    DifferInOwner .offline acme.val (trim bobsSignup.email) bob nobodyKnown bobElsewhere where
  rest := rfl
  others q hq := by
    constructor
    · intro h
      exact absurd (congrArg (fun r : IdentityRow => r.id) (List.mem_singleton.mp h)) hq
    · intro h
      exact absurd h (Table.not_mem_empty q)
  members m hm := by
    constructor
    · intro h
      obtain rfl := List.mem_singleton.mp h
      exact absurd hm (by decide)
    · intro h
      exact absurd h (Table.not_mem_empty m)
  owner := List.mem_singleton.mpr rfl
  hasEmail := ⟨"bob@globex.example", rfl, by decide +kernel⟩
  unknown q hq := absurd hq (Table.not_mem_empty q)
  stranger m hm hT := by
    obtain rfl := List.mem_singleton.mp hm
    exact absurd hT (by decide)

theorem bobsSignup_accepted :
    Accepted ((Routes.signup .offline noMails acme bobsSignup).response .offline nobodyKnown) := by
  have hstatus : ((Routes.signup .offline noMails acme bobsSignup).response .offline
      nobodyKnown).map Response.status = some 201 := by decide +kernel
  obtain ⟨a, ha, ha201⟩ := Option.map_eq_some_iff.mp hstatus
  exact ⟨a, ha, by omega, by omega⟩

theorem signup_discloses_iff_bob :
    SameResponse ((Routes.signup .offline noMails acme bobsSignup).response .offline nobodyKnown)
        ((Routes.signup .offline noMails acme bobsSignup).response .offline bobElsewhere) ↔
      nobodyKnown.db.byMobile (nonEmptyTrimmed bobsSignup.mobile)
        (nonEmptyTrimmed bobsSignup.countryCode) ≠ none :=
  signup_discloses_iff .offline World.offline_freshTokens noMails nobodyKnown bobElsewhere acme
    bobsSignup bob differ_in_bob (fun i hi => absurd hi (Table.not_mem_empty i)) bobsSignup_accepted

/-- **The status code tells an account in another tenant.** -/
theorem account_elsewhere_disclosed :
    ¬ ∀ (w : World) (_ : FreshTokens w) (mails : Mails) (s s' : State) (tenantId : TenantId)
      (body : SignupBody) (r : IdentityRow),
      DifferInOwner w tenantId.val (trim body.email) r s s' →
      (∀ i ∈ s.db.membershipInvites, i.token ≠ w.token s.draws) →
      Accepted ((Routes.signup w mails tenantId body).response w s) →
      SameResponse ((Routes.signup w mails tenantId body).response w s)
        ((Routes.signup w mails tenantId body).response w s') := by
  intro h
  exact not_sameResponse_of_new differ_in_bob bobsSignup_accepted rfl
    (h .offline World.offline_freshTokens noMails nobodyKnown bobElsewhere acme bobsSignup bob
      differ_in_bob (fun i hi => absurd hi (Table.not_mem_empty i)) bobsSignup_accepted)

end Authrs
