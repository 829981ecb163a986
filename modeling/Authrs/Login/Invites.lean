import Authrs.Interaction.Condition
import Authrs.Login.Requests
import Authrs.Store.IdentityRow

/-!
# Where invite tokens go

A public signup that collides with an identity invites it: the token is for the identity that was
found, by email or by mobile number, and goes to the identity's own address, or to the address of
the signup when the identity has none. Whoever presents the token makes the identity a member.

## Main definitions

* `Db.collision`: the identity that a signup collides with
* `Db.OwnAddress`: the token is for an identity with that address
* `InviteCall`: signups, acceptances, and everything else

## Main results

* `ownAddress_iff`: a signup sends its token to the identity's own address exactly when it has one
* `inviteRun_received`: an acceptance in a run follows a signup that sent the token to the identity
* `invites_reach`: both
* `stranger_invited`: the token of an identity without an email
-/

namespace Authrs

open Interaction AuthService Relational

/-- **The identity that a signup collides with**: by its email, else by its mobile number. -/
def Db.collision (lower : String → String) (db : Db) (email : String)
    (mobile countryCode : Option String) : Option IdentityRow :=
  match db.identities.selectOne fun r => r.email.any fun e => lower e = lower email with
  | some r => some r
  | none =>
    match mobile, countryCode with
    | some m, some c => db.identities.selectOne (mobileIs c m)
    | _, _ => none

theorem Db.collision_mem {lower : String → String} {db : Db} {email : String}
    {mobile countryCode : Option String} {r : IdentityRow}
    (h : db.collision lower email mobile countryCode = some r) : r ∈ db.identities := by
  unfold Db.collision at h
  split at h
  · rename_i hr
    exact Option.some.inj h ▸ Table.selectOne_mem hr
  · split at h
    · exact Table.selectOne_mem h
    · cases h

/-- **The invite of the token is for an identity with this address**, up to case. -/
def Db.OwnAddress (lower : String → String) (db : Db) (token address : String) : Prop :=
  ∃ row ∈ db.membershipInvites, row.token = token ∧
    ∃ r e, db.identity row.identityId = some r ∧ r.email = some e ∧ lower e = lower address

/-! ### One signup -/

section Alone

open Program

variable {w : World} {s s' : State} {α : Type}

/-- A lookup run alone: what it finds, in the same tables. -/
theorem exec_lookup_alone {q : Sql} {rows : SqlEnv → Db → q.Rows}
    (hread : ∀ env db, q.exec env db = .ok (rows env db, db)) {r : q.Rows}
    (h : (query q).exec (handle w) s = (.ok r, s')) :
    r = rows (s.sqlEnv w) s.db ∧ s'.db = s.db ∧ s'.now = s.now := by
  rw [exec_query_ok (hread _ _)] at h
  obtain ⟨hr, rfl⟩ := Prod.mk.inj h
  exact ⟨(Except.ok.inj hr).symm, rfl, rfl⟩

/-- The lookup of the collision. -/
theorem exec_signupCollision {email : String} {mobile countryCode : Option String}
    {existing : Option Identity}
    (h : (signupCollision email mobile countryCode).exec (handle w) s = (.ok existing, s')) :
    existing = (s.db.collision w.lower email mobile countryCode).map IdentityRow.toIdentity ∧
      s'.db = s.db ∧ s'.now = s.now := by
  obtain ⟨byEmail, x, hemail, h⟩ := (exec_bind_eq_ok _).mp h
  obtain ⟨hread, hdb, hnow⟩ := exec_lookup_alone (fun _ _ => rfl) hemail
  have hfound : byEmail = (s.db.identities.selectOne fun r => r.email.any fun e =>
    w.lower e = w.lower email).map IdentityRow.toIdentity := hread
  unfold Db.collision
  cases hrow : s.db.identities.selectOne fun r => r.email.any fun e =>
    w.lower e = w.lower email with
  | some r =>
    rw [hrow] at hfound
    rw [hfound] at h
    obtain ⟨hsome, rfl⟩ := Prod.mk.inj h
    exact ⟨(Except.ok.inj hsome).symm, hdb, hnow⟩
  | none =>
    rw [hrow] at hfound
    rw [hfound] at h
    cases mobile with
    | none =>
      obtain ⟨hnone, rfl⟩ := Prod.mk.inj h
      exact ⟨(Except.ok.inj hnone).symm, hdb, hnow⟩
    | some m =>
      cases countryCode with
      | none =>
        obtain ⟨hnone, rfl⟩ := Prod.mk.inj h
        exact ⟨(Except.ok.inj hnone).symm, hdb, hnow⟩
      | some c =>
        obtain ⟨hmobile, hdb', hnow'⟩ := exec_lookup_alone (fun _ _ => rfl) h
        rw [hdb] at hmobile
        exact ⟨hmobile, hdb'.trans hdb, hnow'.trans hnow⟩

/-- A statement that has succeeded, run alone. -/
theorem exec_execute_eq_ok {q : Sql} (h : (execute q).exec (handle w) s = (.ok (), s')) :
    ∃ n, q.exec (s.sqlEnv w) s.db = .ok (n, s'.db) := by
  obtain ⟨n, x, hquery, h⟩ := (exec_bind_eq_ok _).mp h
  obtain ⟨-, rfl⟩ := Prod.mk.inj h
  cases he : q.exec (s.sqlEnv w) s.db with
  | error e =>
    rw [exec_query_error he] at hquery
    cases (Prod.mk.inj hquery).1
  | ok r =>
    rw [exec_query_ok (show q.exec (s.sqlEnv w) s.db = .ok (r.1, r.2) from he)] at hquery
    obtain ⟨-, rfl⟩ := Prod.mk.inj hquery
    exact ⟨r.1, rfl⟩

/-- The row of an invite. -/
theorem insertInvite_row {db db' : Db} {identityId : Uuid} {tenantId token : String}
    {firstName lastName username : Option String} {expiresAt : Time} {n : Nat}
    (h : insertInvite db identityId tenantId firstName lastName username token expiresAt =
      .ok (n, db')) :
    ∃ row t, varcharReq 255 token = .ok row.token ∧ row.identityId = identityId ∧
      db.membershipInvites.insert? row = some t ∧ db' = { db with membershipInvites := t } := by
  unfold insertInvite at h
  simp only [bind_eq_ok] at h
  obtain ⟨tenant, -, first, -, last, -, user, -, token', htoken, h⟩ := h
  split at h
  · cases h
  · rename_i t hins
    repeat' split at h
    all_goals cases h
    exact ⟨⟨identityId, tenant, first, last, user, token', expiresAt⟩, t, htoken, rfl, hins, rfl⟩

/-- The token of an invite is drawn, and its row inserted. -/
theorem exec_inviteExisting (hw : FreshTokens w) {identity : Identity} {tenantId email : String}
    {first last : Option String} {outcome : SignupOutcome}
    (h : (inviteExisting identity tenantId email first last).exec (handle w) s = (.ok outcome, s')) :
    ∃ token, outcome = .verificationSent (identity.email.getD email) token ∧
      s'.db.identities = s.db.identities ∧
        ∃ row ∈ s'.db.membershipInvites, row.token = token ∧ row.identityId = identity.id := by
  obtain ⟨token, x, htoken, h⟩ := (exec_bind_eq_ok _).mp h
  obtain ⟨now, y, hclock, h⟩ := (exec_bind_eq_ok _).mp h
  obtain ⟨_, z, hcreate, h⟩ := (exec_bind_eq_ok _).mp h
  obtain ⟨rfl, rfl⟩ := Prod.mk.inj h |>.imp_left Except.ok.inj
  obtain ⟨rfl, rfl⟩ := Prod.mk.inj htoken |>.imp_left Except.ok.inj
  obtain ⟨rfl, rfl⟩ := Prod.mk.inj hclock |>.imp_left Except.ok.inj
  obtain ⟨_, u, hdelete, hinsert⟩ := (exec_bind_eq_ok _).mp hcreate
  obtain ⟨_, hdeleted⟩ := exec_execute_eq_ok hdelete
  have hu : u.db.identities = s.db.identities := by
    rw [← (Prod.mk.inj (Except.ok.inj hdeleted)).2]
    rfl
  obtain ⟨n, hinserted⟩ := exec_execute_eq_ok hinsert
  obtain ⟨row, t, htoken, hid, hins, hdb⟩ := insertInvite_row (n := n) hinserted
  rw [hdb]
  refine ⟨_, rfl, hu, row, (Table.mem_insert? hins).mpr (.inl rfl), ?_, hid⟩
  exact hw.varcharReq_token htoken

theorem exec_ensureEmailDomainAllowed_ok {tenantId email : String}
    (h : (ensureEmailDomainAllowed w tenantId email).exec (handle w) s = (.ok (), s')) : s = s' := by
  obtain ⟨allowed, x, hget, hensure⟩ := (exec_bind_eq_ok _).mp h
  obtain ⟨-, rfl⟩ := Service.exec_ensure_eq_ok.mp hensure
  unfold TenantConfigLoader.getAllowedEmailDomains at hget
  rw [TenantConfigLoader.exec_getTyped] at hget
  exact (Prod.mk.inj hget).2

/-- **A signup sends its token to the identity's own address** exactly when the identity it collides
with has one. -/
theorem ownAddress_iff (hw : FreshTokens w)
    {tenantId firstName lastName email password retypePassword : String}
    {mobile countryCode : Option String} {address token : String}
    (h : (signup w tenantId firstName lastName email mobile countryCode password
      retypePassword).exec (handle w) s = (.ok (.verificationSent address token), s')) :
    s'.db.OwnAddress w.lower token address ↔
      ∀ r ∈ s.db.collision w.lower (trim email) (nonEmptyTrimmed mobile)
        (nonEmptyTrimmed countryCode), r.email ≠ none := by
  obtain ⟨_, s₁, hempty, h⟩ := (exec_bind_eq_ok _).mp h
  obtain ⟨-, rfl⟩ := Service.exec_ensure_eq_ok.mp hempty
  obtain ⟨_, s₂, hdomain, h⟩ := (exec_bind_eq_ok _).mp h
  obtain rfl := exec_ensureEmailDomainAllowed_ok hdomain
  obtain ⟨_, s₃, hretyped, h⟩ := (exec_bind_eq_ok _).mp h
  obtain ⟨-, rfl⟩ := Service.exec_ensure_eq_ok.mp hretyped
  obtain ⟨_, s₄, hpolicy, h⟩ := (exec_bind_eq_ok _).mp h
  obtain ⟨-, rfl⟩ := exec_validatePassword_eq_ok.mp hpolicy
  obtain ⟨_, s₅, hcode, h⟩ := (exec_bind_eq_ok _).mp h
  obtain ⟨-, rfl⟩ := Service.exec_ensure_eq_ok.mp hcode
  obtain ⟨member, s₆, hmember, h⟩ := (exec_bind_eq_ok _).mp h
  obtain ⟨-, hdb₆, -⟩ := exec_lookup_alone (fun _ _ => rfl) hmember
  obtain ⟨_, s₇, hfree, h⟩ := (exec_bind_eq_ok _).mp h
  obtain ⟨-, rfl⟩ := Service.exec_ensure_eq_ok.mp hfree
  obtain ⟨existing, s₈, hcollision, h⟩ := (exec_bind_eq_ok _).mp h
  obtain ⟨hfound, hdb₈, -⟩ := exec_signupCollision hcollision
  rw [hdb₆] at hfound hdb₈
  cases hr : s.db.collision w.lower (trim email) (nonEmptyTrimmed mobile)
      (nonEmptyTrimmed countryCode) with
  | none =>
    -- the signup creates an identity
    rw [hr] at hfound
    rw [hfound] at h
    obtain ⟨passwordHash, x, -, h⟩ := (exec_bind_eq_ok _).mp h
    obtain ⟨identity, y, -, h⟩ := (exec_bind_eq_ok _).mp h
    obtain ⟨user, z, -, h⟩ := (exec_bind_eq_ok _).mp h
    cases (Prod.mk.inj h).1
  | some r =>
    rw [hr] at hfound
    rw [hfound] at h
    obtain ⟨token', houtcome, hidentities, row, hrow, htoken, hid⟩ := exec_inviteExisting hw h
    obtain ⟨rfl, rfl⟩ := SignupOutcome.verificationSent.inj houtcome
    have hown : s'.db.identity row.identityId = some r := by
      refine Table.selectOne_key.mpr ⟨?_, hid.symm⟩
      rw [hidentities, hdb₈]
      exact Db.collision_mem hr
    constructor
    · rintro ⟨row', hrow', htoken', r', e, hr', he, -⟩ r'' hr''
      obtain rfl := Table.eq_of_key_eq hrow' hrow (htoken'.trans htoken.symm)
      obtain rfl : r = r' := Option.some.inj (hown.symm.trans hr')
      obtain rfl : r = r'' := Option.some.inj hr''
      rw [he]
      exact Option.some_ne_none e
    · intro hemail
      obtain ⟨e, he⟩ := Option.ne_none_iff_exists'.mp (hemail r rfl)
      refine ⟨row, hrow, htoken, r, e, hown, he, ?_⟩
      rw [he]
      rfl

end Alone

/-! ### Signups and acceptances side by side -/

/-- A request that creates no invite. -/
def Uninviting (q : Request) : Prop :=
  ∀ id tenantId firstName lastName username token expiresAt,
    q ≠ .sql (.tokens (.createInvite id tenantId firstName lastName username token expiresAt))

/-- A signup, the acceptance of an invite, or anything else that creates no invite. -/
inductive InviteCall
  | signup (tenantId firstName lastName email : String) (mobile countryCode : Option String)
      (password retypePassword : String)
  | verify (token : String)
  | other (p : Service Unit) (h : p.Asks Uninviting)

/-- **The call**, with the outcome of a signup. -/
def InviteCall.run (w : World) : InviteCall → Service (Option SignupOutcome)
  | signup tenantId firstName lastName email mobile countryCode password retypePassword => do
    let outcome ← AuthService.signup w tenantId firstName lastName email mobile countryCode password
      retypePassword
    pure (some outcome)
  | verify token => do
    let _ ← verifyMembershipInvite token
    pure none
  | other p _ => do
    p
    pure none

/-- The identity that a signup looks up. -/
def lookedUp : Event authrs → Option Identity
  | ⟨.sql (.identities (.getByEmail _)), .ok i⟩ => i
  | ⟨.sql (.identities (.getByMobile ..)), .ok i⟩ => i
  | _ => none

/-- The invite that an exchange creates: its identity and its token. -/
def invited : Event authrs → Option (Uuid × String)
  | ⟨.sql (.tokens (.createInvite id _ _ _ _ token _)), .ok _⟩ => some (id, token)
  | _ => none

/-- No invite was created. -/
def NoneInvited (h : List (Event authrs)) : Prop := ∀ e ∈ h, invited e = none

theorem invited_of_uninviting {e : Event authrs} (h : Uninviting e.request) : invited e = none := by
  obtain ⟨q, r⟩ := e
  unfold invited
  split
  · rename_i he
    obtain ⟨rfl, -⟩ := Event.mk.inj he
    exact absurd rfl (h _ _ _ _ _ _ _)
  · rfl

/-- An invite is for an identity that was looked up, with a token that was drawn. -/
def InvitesFound (h : List (Event authrs)) (q : Request) : Prop :=
  ∀ id tenantId firstName lastName username token expiresAt,
    q = .sql (.tokens (.createInvite id tenantId firstName lastName username token expiresAt)) →
      (∃ i ∈ h.filterMap lookedUp, i.id = id) ∧ (⟨.randomToken, token⟩ : Event authrs) ∈ h

/-- A membership is created for the identity of the invite. -/
def AddsInvited (token : String) (h : List (Event authrs)) (q : Request) : Prop :=
  ∀ userId tenantId identityId username now,
    q = .sql (.users (.create userId tenantId identityId username now)) →
      ∃ invite i, did (.tokens (.getInvite token)) (some invite) ∈ h ∧
        did (.identities (.getById invite.identityId)) (some i) ∈ h ∧ i.id = identityId

/-- What the requests of a call are. -/
def InviteCall.Guarantee : InviteCall → List (Event authrs) → Event authrs → Prop
  | signup .., h, e => NoneInvited h ∧ InvitesFound h e.request
  | verify token, h, e => Uninviting e.request ∧ AddsInvited token h e.request
  | other .., _, e => Uninviting e.request

/-- An invite that was created went out with the outcome. -/
def SentOwn (email : String) (outcome : SignupOutcome) (h : List (Event authrs)) : Prop :=
  ∀ e ∈ h, ∀ id token, invited e = some (id, token) →
    ∃ i ∈ h.filterMap lookedUp, i.id = id ∧
      outcome = .verificationSent (i.email.getD (trim email)) token

/-- What has happened at the end of a call. -/
def InviteCall.Ends : InviteCall → List (Event authrs) → Except Failure (Option SignupOutcome) → Prop
  | signup _ _ _ email .., h, .ok (some outcome) => SentOwn email outcome h
  | _, h, _ => NoneInvited h

section Contracts

open Program

variable {w : World} {α : Type} {h : List (Event authrs)}

theorem uninviting_of_ordinary {q : Request} (hq : ordinary q = true) : Uninviting q := by
  rintro id tenantId firstName lastName username token expiresAt rfl
  cases hq

theorem noneInvited_cons {e : Event authrs} (hh : NoneInvited h) (he : Uninviting e.request) :
    NoneInvited (e :: h) :=
  List.forall_mem_cons.mpr ⟨invited_of_uninviting he, hh⟩

theorem invitesFound_of_uninviting {q : Request} (hq : Uninviting q) : InvitesFound h q :=
  fun _ _ _ _ _ _ _ heq => absurd heq (hq _ _ _ _ _ _ _)

/-- The contract of a signup. -/
abbrev signupContract : Contract authrs :=
  .ofGuarantee fun h e => NoneInvited h ∧ InvitesFound h e.request

/-- A part of a signup that creates no invite. -/
theorem keeps_uninviting {p : Service α} (hp : p.Asks Uninviting) (hh : NoneInvited h) :
    p.Keeps signupContract (OnEnd NoneInvited fun _ => NoneInvited) h := by
  refine (hp.keeps_inv (M := NoneInvited) (fun h e hh he => ?_) hh).weaken fun h' o hh' => ?_
  · exact ⟨⟨hh, invitesFound_of_uninviting he⟩, noneInvited_cons hh he⟩
  · cases o <;> exact hh'

/-- A lookup of an identity. -/
theorem keeps_lookup {q : Sql} {toIdentity : q.Rows → Option Identity} (hq : Uninviting (.sql q))
    (hread : ∀ r : q.Rows, lookedUp (did q r) = toIdentity r) (hh : NoneInvited h) :
    (query q).Keeps signupContract (OnEnd NoneInvited fun r h' => NoneInvited h' ∧
      ∀ i ∈ toIdentity r, i ∈ h'.filterMap lookedUp) h := by
  rw [keeps_query]
  rintro (e | r) -
  · exact ⟨⟨hh, invitesFound_of_uninviting hq⟩, noneInvited_cons hh hq⟩
  · refine ⟨⟨hh, invitesFound_of_uninviting hq⟩, noneInvited_cons hh hq, fun i hi => ?_⟩
    exact List.mem_filterMap.mpr ⟨_, List.mem_cons_self, (hread r).trans hi⟩

theorem keeps_signupCollision {email : String} {mobile countryCode : Option String}
    (hh : NoneInvited h) :
    (signupCollision email mobile countryCode).Keeps signupContract
      (OnEnd NoneInvited fun existing h' => NoneInvited h' ∧
        ∀ i ∈ existing, i ∈ h'.filterMap lookedUp) h := by
  refine (keeps_lookup (q := .identities (.getByEmail email)) (by simp [Uninviting])
    (fun _ => rfl) hh).bind_end ?_
  rintro byEmail h' ⟨hh', hfound⟩
  cases byEmail with
  | some i => exact ⟨hh', hfound⟩
  | none =>
    cases mobile with
    | none => exact ⟨hh', fun _ hi => nomatch hi⟩
    | some m =>
      cases countryCode with
      | none => exact ⟨hh', fun _ hi => nomatch hi⟩
      | some c =>
        exact keeps_lookup (q := .identities (.getByMobile c m)) (by simp [Uninviting])
          (fun _ => rfl) hh'

/-- **An invite goes out** to the address of its identity, or to the one given. -/
theorem keeps_inviteExisting {identity : Identity} {tenantId email : String}
    {first last : Option String} (hh : NoneInvited h) (hfound : identity ∈ h.filterMap lookedUp) :
    (inviteExisting identity tenantId (trim email) first last).Keeps signupContract
      (OnEnd NoneInvited (SentOwn email)) h := by
  intro token _
  refine ⟨⟨hh, invitesFound_of_uninviting (by simp [Uninviting])⟩, ?_⟩
  have hdrawn := noneInvited_cons (e := ⟨.randomToken, token⟩) hh (by simp [Uninviting])
  intro now _
  refine ⟨⟨hdrawn, invitesFound_of_uninviting (by simp [Uninviting])⟩, ?_⟩
  have hclock := noneInvited_cons (e := ⟨.clock, now⟩) hdrawn (by simp [Uninviting])
  rintro (e | n) -
  · exact ⟨⟨hclock, invitesFound_of_uninviting (by simp [Uninviting])⟩,
      noneInvited_cons hclock (by simp [Uninviting])⟩
  refine ⟨⟨hclock, invitesFound_of_uninviting (by simp [Uninviting])⟩, ?_⟩
  have hdeleted := noneInvited_cons
    (e := did (.tokens (.deleteInvitesFor identity.id tenantId)) n) hclock (by simp [Uninviting])
  have hlater : ∀ {i : Identity}, i ∈ h.filterMap lookedUp → ∀ es : List (Event authrs),
      i ∈ (es ++ h).filterMap lookedUp := by
    intro i hi es
    rw [List.filterMap_append]
    exact List.mem_append_right _ hi
  have hmine : InvitesFound (did (.tokens (.deleteInvitesFor identity.id tenantId)) n ::
      ⟨.clock, now⟩ :: ⟨.randomToken, token⟩ :: h)
      (.sql (.tokens (.createInvite identity.id tenantId first last none token
        (now + minutes PASSWORD_RESET_TOKEN_TTL_MINS)))) := by
    rintro id tenantId' first' last' username token' expiresAt heq
    cases heq
    refine ⟨⟨identity, hlater hfound [_, _, _], rfl⟩, by simp⟩
  rintro (e | k) -
  · refine ⟨⟨hdeleted, hmine⟩, ?_⟩
    exact List.forall_mem_cons.mpr ⟨rfl, hdeleted⟩
  · refine ⟨⟨hdeleted, hmine⟩, ?_⟩
    intro e he id token' hinvited
    rcases List.mem_cons.mp he with rfl | hold
    · cases hinvited
      exact ⟨identity, hlater hfound [_, _, _, _], rfl, rfl⟩
    · rw [hdeleted e hold] at hinvited
      cases hinvited

theorem NoneInvited.sentOwn {email : String} {outcome : SignupOutcome} (hh : NoneInvited h) :
    SentOwn email outcome h := by
  intro e he id token hinvited
  rw [hh e he] at hinvited
  cases hinvited

theorem keeps_signup {tenantId firstName lastName email password retypePassword : String}
    {mobile countryCode : Option String} :
    (signup w tenantId firstName lastName email mobile countryCode password retypePassword).Keeps
      signupContract (OnEnd NoneInvited (SentOwn email)) [] := by
  have hordinary := fun q => uninviting_of_ordinary (q := q)
  refine (keeps_uninviting (asks_ensure _ _) (by simp [NoneInvited])).bind_end fun _ _ h₁ => ?_
  refine (keeps_uninviting (ensureEmailDomainAllowed_asks hordinary w tenantId _) h₁).bind_end
    fun _ _ h₂ => ?_
  refine (keeps_uninviting (asks_ensure _ _) h₂).bind_end fun _ _ h₃ => ?_
  refine (keeps_uninviting (validatePassword_asks hordinary w tenantId password) h₃).bind_end
    fun _ _ h₄ => ?_
  refine (keeps_uninviting (asks_ensure _ _) h₄).bind_end fun _ _ h₅ => ?_
  refine (keeps_uninviting (asks_query (hordinary _ rfl)) h₅).bind_end fun member _ h₆ => ?_
  refine (keeps_uninviting (asks_ensure _ _) h₆).bind_end fun _ _ h₇ => ?_
  refine (keeps_signupCollision h₇).bind_end ?_
  rintro existing h' ⟨hh', hfound⟩
  cases existing with
  | some identity => exact keeps_inviteExisting hh' (hfound identity rfl)
  | none =>
    refine (keeps_uninviting (hashPassword_asks hordinary password) hh').bind_end fun _ _ h₈ => ?_
    refine (keeps_uninviting (asks_query (by simp [Uninviting])) h₈).bind_end fun identity _ h₉ => ?_
    have hcreate : (UsersRepo.create identity tenantId none).Asks Uninviting :=
      ⟨by simp [Uninviting], fun _ => ⟨by simp [Uninviting], fun _ =>
        (asks_execute (by simp [Uninviting])).bind fun _ => trivial⟩⟩
    exact (keeps_uninviting hcreate h₉).bind_end fun user _ h₁₀ => h₁₀.sentOwn

/-- The contract of an acceptance. -/
abbrev verifyContract (token : String) : Contract authrs :=
  .ofGuarantee fun h e => Uninviting e.request ∧ AddsInvited token h e.request

/-- A request that adds no membership. -/
def Unadding (q : Request) : Prop :=
  Uninviting q ∧ ∀ userId tenantId identityId username now,
    q ≠ .sql (.users (.create userId tenantId identityId username now))

theorem unadding_sql {token : String} {e : Event authrs} (he : Unadding e.request) :
    Uninviting e.request ∧ AddsInvited token h e.request :=
  ⟨he.1, fun _ _ _ _ _ heq => absurd heq (he.2 _ _ _ _ _)⟩

theorem keeps_unadding {token : String} {p : Service α} (hp : p.Asks Unadding)
    (hh : NoneInvited h) :
    p.Keeps (verifyContract token) (OnEnd NoneInvited fun _ h' => NoneInvited h' ∧ h ⊆ h') h := by
  refine (hp.keeps_inv (M := fun h' => NoneInvited h' ∧ h ⊆ h') (fun h' e hh' he => ?_)
    ⟨hh, List.Subset.refl h⟩).weaken fun h' o hh' => ?_
  · exact ⟨unadding_sql he, noneInvited_cons hh'.1 he.1, List.subset_cons_of_subset _ hh'.2⟩
  · cases o with
    | ok a => exact hh'
    | error e => exact hh'.1

/-- A lookup, with its exchange. -/
theorem keeps_noneInvited {token : String} {q : Sql} (hq : Unadding (.sql q)) (hh : NoneInvited h) :
    (query q).Keeps (verifyContract token)
      (OnEnd NoneInvited fun r h' => NoneInvited h' ∧ h' = did q r :: h) h := by
  rw [keeps_query]
  rintro (e | r) -
  · exact ⟨unadding_sql hq, noneInvited_cons hh hq.1⟩
  · exact ⟨unadding_sql hq, noneInvited_cons hh hq.1, rfl⟩

/-- **An acceptance adds a membership for the identity of its invite.** -/
theorem keeps_verify (token : String) :
    (verifyMembershipInvite token).Keeps (verifyContract token)
      (OnEnd NoneInvited fun _ => NoneInvited) [] := by
  refine (keeps_noneInvited (by simp [Unadding, Uninviting]) (by simp [NoneInvited])).bind_end ?_
  rintro found _ ⟨h₁, rfl⟩
  cases found with
  | none => exact h₁
  | some invite =>
    refine (keeps_unadding (asks_query (by simp [Unadding, Uninviting])) h₁).bind_end ?_
    rintro membership h' ⟨h₂, hsub⟩
    have hinvite := hsub List.mem_cons_self
    cases membership with
    | some user =>
      refine (keeps_unadding (asks_execute (by simp [Unadding, Uninviting])) h₂).bind_end ?_
      exact fun _ _ hend => hend.1
    | none =>
      -- The membership is created for the identity that the invite names.
      have hload : (loadIdentity invite.identityId).Keeps (verifyContract token)
          (OnEnd NoneInvited fun i h'' => NoneInvited h'' ∧
            h'' = did (.identities (.getById invite.identityId)) (some i) :: h') h' := by
        refine (keeps_noneInvited (by simp [Unadding, Uninviting]) h₂).bind_end ?_
        rintro row _ ⟨h₃, rfl⟩
        cases row with
        | none => exact h₃
        | some i => exact ⟨h₃, rfl⟩
      refine hload.bind_end ?_
      rintro identity _ ⟨h₃, rfl⟩
      have hcreate : (UsersRepo.create identity invite.tenantId invite.username).Keeps
          (verifyContract token) (OnEnd NoneInvited fun _ => NoneInvited)
          (did (.identities (.getById invite.identityId)) (some identity) :: h') := by
        refine (keeps_unadding (p := newUuid) ⟨by simp [Unadding, Uninviting], fun _ => trivial⟩
          h₃).bind_end ?_
        rintro id h₀ ⟨hid, hsub₁⟩
        refine (keeps_unadding (p := utcNow) ⟨by simp [Unadding, Uninviting], fun _ => trivial⟩
          hid).bind_end ?_
        rintro now h₁ ⟨hnow, hsub₂⟩
        -- The invite was read under the token, and the row that is added has its identity.
        have hadds : AddsInvited token h₁ (.sql (.users (.create id invite.tenantId identity.id
            invite.username now))) := by
          rintro userId tenantId identityId username now' heq
          cases heq
          exact ⟨invite, identity, hsub₂ (hsub₁ (List.mem_cons_of_mem _ hinvite)),
            hsub₂ (hsub₁ List.mem_cons_self), rfl⟩
        rintro (e | n) -
        · exact ⟨⟨by simp [Uninviting], hadds⟩, noneInvited_cons hnow (by simp [Uninviting])⟩
        · exact ⟨⟨by simp [Uninviting], hadds⟩, noneInvited_cons hnow (by simp [Uninviting])⟩
      refine hcreate.bind_end fun user h'' h₄ => ?_
      refine (keeps_unadding (asks_execute (by simp [Unadding, Uninviting])) h₄).bind_end ?_
      exact fun _ _ hend => hend.1

/-- The contract of a call. -/
def InviteCall.contract (c : InviteCall) : Contract authrs := .ofGuarantee c.Guarantee

/-- **Every call keeps its contract.** -/
theorem InviteCall.run_keeps (c : InviteCall) : (c.run w).Keeps c.contract c.Ends [] := by
  cases c with
  | signup tenantId firstName lastName email mobile countryCode password retypePassword =>
    refine (keeps_bind _ _).mpr ((keeps_signup (w := w)).weaken ?_)
    rintro h' (e | outcome) hend
    · exact hend
    · exact hend
  | verify token =>
    refine (keeps_bind _ _).mpr ((keeps_verify token).weaken ?_)
    rintro h' (e | user) hend
    · exact hend
    · exact hend
  | other p hp =>
    refine (keeps_bind _ _).mpr ((hp.keeps_inv (M := NoneInvited) (fun h e hh he => ?_)
      (by simp [NoneInvited])).weaken ?_)
    · exact ⟨he, noneInvited_cons hh he⟩
    · rintro h' (e | u) hend
      · exact hend
      · exact hend

end Contracts

/-! ### Runs -/

section Runs

open Program Config

variable {ι : Type} [DecidableEq ι] {w : World}

/-- Signups, acceptances and other calls on one state. -/
def inviteRun (w : World) (s : State) (call : ι → InviteCall) (l : List (ι ⊕ Nat)) :
    Config authrs Failure (Option SignupOutcome) ι State :=
  (start s fun i => (call i).run w).run (handle w) State.tick l

/-- The invites after a statement: those before it, and the one it creates. -/
theorem Sql.exec_invites {env : SqlEnv} {db db' : Db} {q : Sql} {n : q.Rows} {row : InviteRow}
    (h : q.exec env db = .ok (n, db')) (hrow : row ∈ db'.membershipInvites) :
    row ∈ db.membershipInvites ∨
      ∃ tenantId firstName lastName username token expiresAt,
        q = .tokens (.createInvite row.identityId tenantId firstName lastName username token
          expiresAt) ∧ varcharReq 255 token = .ok row.token := by
  cases q with
  | tokens x =>
    cases x with
    | createInvite =>
      obtain ⟨row', t, htoken, hid, hins, rfl⟩ := insertInvite_row h
      rcases (Table.mem_insert? hins).mp hrow with rfl | hold
      · subst hid
        exact .inr ⟨_, _, _, _, _, _, rfl, htoken⟩
      · exact .inl hold
    -- The other statements on tokens write no invites, or delete some.
    | deleteInvite =>
      cases h
      exact .inl (Table.mem_delete.mp hrow).1
    | deleteInvitesFor =>
      cases h
      exact .inl (Table.mem_delete.mp hrow).1
    | createIdentityToken =>
      obtain ⟨_, -, h⟩ := bind_eq_ok.mp h
      cases h
      exact .inl hrow
    | createResetToken =>
      obtain ⟨_, -, h⟩ := bind_eq_ok.mp h
      cases h
      exact .inl hrow
    | createForceChangeToken =>
      obtain ⟨_, _, _, -, -, -, rfl⟩ := insertForceChangeToken_ok h
      exact .inl hrow
    | _ =>
      cases h
      exact .inl hrow
  -- The statements on other tables leave the invites alone.
  | identities x =>
    rw [IdentityStmt.exec_frame h] at hrow
    exact .inl hrow
  | users x =>
    rw [MembershipStmt.exec_frame h] at hrow
    exact .inl hrow
  | challenges x =>
    rw [ChallengeStmt.exec_frame h] at hrow
    exact .inl hrow
  | oauth x =>
    rw [OauthStmt.exec_frame h] at hrow
    exact .inl hrow
  | roles x =>
    rw [RoleStmt.exec_frame h] at hrow
    exact .inl hrow
  | groups x =>
    rw [GroupStmt.exec_frame h] at hrow
    exact .inl hrow
  | permissions x =>
    rw [PermissionStmt.exec_frame h] at hrow
    exact .inl hrow
  | sessions x =>
    rw [SessionStmt.exec_frame h] at hrow
    exact .inl hrow
  | kv x =>
    rw [KvStmt.exec_eq h] at hrow
    exact .inl hrow
  | otps x =>
    rw [OtpStmt.exec_frame h] at hrow
    exact .inl hrow

/-- **No request changes an email**, or removes an identity. -/
theorem handle_email (s : State) (q : Request) {r : IdentityRow} (hr : r ∈ s.db.identities) :
    ∃ r' ∈ (handle w q s).2.db.identities, r'.id = r.id ∧ r'.email = r.email := by
  obtain ⟨r', hr', hchange⟩ := handle_identity (w := w) q (Table.selectOne_key.mpr ⟨hr, rfl⟩)
  obtain ⟨hmem, hid⟩ := Table.selectOne_key.mp hr'
  refine ⟨r', hmem, hid, ?_⟩
  cases hchange <;> rfl

/-- The emails read in a run are still there, and every invite has been created in it. -/
structure InvitesKnown (w : World) (s : State) (log : List (Move authrs ι State)) : Prop where
  replies : ∀ m ∈ log, m.event.reply = (handle w m.event.request m.before).1
  emails : ∀ m ∈ log, ∀ r ∈ m.before.db.identities,
    ∃ r' ∈ s.db.identities, r'.id = r.id ∧ r'.email = r.email
  created : ∀ row ∈ s.db.membershipInvites,
    ∃ m ∈ log, invited m.event = some (row.identityId, row.token)
  createdBefore : ∀ m ∈ log, ∀ row ∈ m.before.db.membershipInvites,
    ∃ m' ∈ log, invited m'.event = some (row.identityId, row.token)

/-- Only a signup creates an invite, for an identity that it has looked up. -/
theorem InviteCall.invitesFound {c : InviteCall} {h : List (Event authrs)} {e : Event authrs}
    (hg : c.Guarantee h e) : InvitesFound h e.request := by
  cases c with
  | signup => exact hg.2
  | verify => exact invitesFound_of_uninviting hg.1
  | other => exact invitesFound_of_uninviting hg

/-- **Every exchange keeps the invites known.** -/
theorem InvitesKnown.move (hw : FreshTokens w) {s : State} {log : List (Move authrs ι State)}
    (hk : InvitesKnown w s log) (i : ι) (q : Request)
    (hfound : InvitesFound (own i log) q) :
    InvitesKnown w (handle w q s).2 (⟨i, ⟨q, (handle w q s).1⟩, s⟩ :: log) := by
  have hlater : ∀ {p : Uuid × String}, (∃ m ∈ log, invited m.event = some p) →
      ∃ m ∈ ⟨i, ⟨q, (handle w q s).1⟩, s⟩ :: log, invited m.event = some p := by
    rintro p ⟨m, hm, hp⟩
    exact ⟨m, List.mem_cons_of_mem _ hm, hp⟩
  refine ⟨?_, ?_, ?_, ?_⟩
  · exact List.forall_mem_cons.mpr ⟨rfl, hk.replies⟩
  · refine List.forall_mem_cons.mpr ⟨fun r hr => handle_email s q hr, fun m hm r hr => ?_⟩
    obtain ⟨r', hr', hid, hemail⟩ := hk.emails m hm r hr
    obtain ⟨r'', hr'', hid', hemail'⟩ := handle_email (w := w) s q hr'
    exact ⟨r'', hr'', hid'.trans hid, hemail'.trans hemail⟩
  · intro row hrow
    rcases handle_db (w := w) (s := s) q with hdb | ⟨x, n, rfl, hexec⟩
    · rw [hdb] at hrow
      exact hlater (hk.created row hrow)
    rcases Sql.exec_invites hexec hrow with hold | ⟨t, f, l, u, token, at', rfl, htoken⟩
    · exact hlater (hk.created row hold)
    -- the token was drawn, so that it is stored as it is
    obtain ⟨-, hdrawn⟩ := hfound _ _ _ _ _ _ _ rfl
    obtain ⟨m, hm, -, he⟩ := mem_own.mp hdrawn
    have hreply := hk.replies m hm
    rw [he] at hreply
    obtain rfl : token = w.token m.before.draws := hreply
    have hsame := hw.varcharReq_token htoken
    refine ⟨_, List.mem_cons_self, ?_⟩
    have hok : (handle w (.sql (.tokens (.createInvite row.identityId t f l u
        (w.token m.before.draws) at'))) s).1 = .ok n := congrArg (Except.map Prod.fst) hexec
    change invited ⟨_, _⟩ = _
    rw [hok, hsame]
    rfl
  · exact List.forall_mem_cons.mpr ⟨fun row hrow => hlater (hk.created row hrow),
      fun m hm row hrow => hlater (hk.createdBefore m hm row hrow)⟩

theorem inviteRun_known (hw : FreshTokens w) {s : State} (hnone : s.db.membershipInvites.rows = [])
    (call : ι → InviteCall) (l : List (ι ⊕ Nat)) :
    InvitesKnown w (inviteRun w s call l).state (inviteRun w s call l).log := by
  refine run_invariant (C := fun i => (call i).contract) (J := InvitesKnown w)
    (fun i => (call i).run_keeps) (fun _ _ _ => trivial) ?_ ?_ ?_ l
  · refine ⟨by simp, by simp, fun row hrow => ?_, by simp⟩
    rw [Table.mem_def, hnone] at hrow
    cases hrow
  · intro s log i q hk hg
    exact hk.move hw i q (InviteCall.invitesFound hg)
  · intro s log t hk
    exact ⟨hk.replies, hk.emails, hk.created, hk.createdBefore⟩

/-- A signup. -/
def InviteCall.IsSignup : InviteCall → Prop
  | signup .. => True
  | _ => False

/-- **The mobile lookups of signups find only identities with an email.** -/
def MobilesOwned (call : ι → InviteCall) (log : List (Move authrs ι State)) : Prop :=
  ∀ m ∈ log, (call m.who).IsSignup → ∀ countryCode mobile,
    m.event.request = .sql (.identities (.getByMobile countryCode mobile)) →
      ∀ r ∈ m.before.db.identities.selectOne (Db.mobileIs countryCode mobile), r.email ≠ none

/-- **The identity's own mailbox received the token**: a signup has sent it to that address. -/
def Received (w : World) (call : ι → InviteCall)
    (c : Config authrs Failure (Option SignupOutcome) ι State) (token : String) (id : Uuid) : Prop :=
  ∃ j address, (call j).IsSignup ∧ c.threads j = .pure (some (.verificationSent address token)) ∧
    ∃ r e, c.state.db.identity id = some r ∧ r.email = some e ∧ w.lower e = w.lower address

omit [DecidableEq ι] in
/-- An identity that a signup looks up has an email, when the mobile lookups find only such ones. -/
theorem InvitesKnown.email {s : State} {log : List (Move authrs ι State)} {call : ι → InviteCall}
    (hk : InvitesKnown w s log) (howned : MobilesOwned call log) {m : Move authrs ι State}
    (hm : m ∈ log) (hsignup : (call m.who).IsSignup) {i : Identity}
    (hi : lookedUp m.event = some i) :
    ∃ r e, s.db.identity i.id = some r ∧ r.email = some e ∧ i.email = some e := by
  obtain ⟨r, hr, hread, hemail⟩ : ∃ r ∈ m.before.db.identities, r.toIdentity = i ∧ r.email ≠ none := by
    have hreply := hk.replies m hm
    have howned := howned m hm hsignup
    obtain ⟨j, ⟨q, reply⟩, s'⟩ := m
    unfold lookedUp at hi
    split at hi
    · rename_i email found he
      obtain ⟨rfl, hfound⟩ := Event.mk.inj he
      obtain rfl := eq_of_heq hfound
      have hfound : found = (s'.db.identities.selectOne (Db.emailIs (s'.sqlEnv w) email)).map
        IdentityRow.toIdentity := Except.ok.inj hreply
      rw [hi] at hfound
      obtain ⟨r, hr, hread⟩ := Option.map_eq_some_iff.mp hfound.symm
      refine ⟨r, Table.selectOne_mem hr, hread, fun hnone => ?_⟩
      have hpos := Table.selectOne_pos hr
      rw [Db.emailIs, hnone] at hpos
      cases hpos
    · rename_i countryCode mobile found he
      obtain ⟨rfl, hfound⟩ := Event.mk.inj he
      obtain rfl := eq_of_heq hfound
      have hfound : found = (s'.db.identities.selectOne (Db.mobileIs countryCode mobile)).map
        IdentityRow.toIdentity := Except.ok.inj hreply
      rw [hi] at hfound
      obtain ⟨r, hr, hread⟩ := Option.map_eq_some_iff.mp hfound.symm
      exact ⟨r, Table.selectOne_mem hr, hread, howned _ _ rfl r hr⟩
    · cases hi
  obtain ⟨e, he⟩ := Option.ne_none_iff_exists'.mp hemail
  obtain ⟨r', hr', hid, hsame⟩ := hk.emails m hm r hr
  refine ⟨r', e, Table.selectOne_key.mpr ⟨hr', ?_⟩, hsame.trans he, ?_⟩
  · rw [hid, ← hread]
  · rw [← hread]
    exact he

/-- **A call that has created an invite is a signup that has ended**, with the address and the token
of the invite. -/
theorem ended_of_invited {s : State} {call : ι → InviteCall} {l : List (ι ⊕ Nat)}
    {x : Move authrs ι State} (hx : x ∈ (inviteRun w s call l).log) {id : Uuid} {token : String}
    (hinvited : invited x.event = some (id, token)) :
    (call x.who).IsSignup ∧ ∃ given, ∃ m ∈ (inviteRun w s call l).log, m.who = x.who ∧
      ∃ i, lookedUp m.event = some i ∧ i.id = id ∧ (inviteRun w s call l).threads x.who =
        .pure (some (.verificationSent (i.email.getD given) token)) := by
  have hguaranteed : Guaranteed (fun i => (call i).contract) (inviteRun w s call l).log :=
    run_guaranteed (fun i => (call i).run_keeps) (fun _ _ _ => trivial) l
  have hkept : (inviteRun w s call l).Kept (fun i => (call i).contract) fun i => (call i).Ends :=
    Config.run_keeps (fun i => (call i).run_keeps) (fun _ _ _ => trivial) l
  have hmem : x.event ∈ own x.who (inviteRun w s call l).log := mem_own.mpr ⟨x, hx, rfl, rfl⟩
  -- The call has stored an invite, so it is a signup, and one that has ended well.
  have hinviting : ¬ NoneInvited (own x.who (inviteRun w s call l).log) := by
    intro hh
    rw [hh _ hmem] at hinvited
    cases hinvited
  have huninviting : ¬ Uninviting x.event.request := by
    intro hq
    rw [invited_of_uninviting hq] at hinvited
    cases hinvited
  obtain ⟨newer, older, hlog⟩ := List.append_of_mem hx
  have hg : InviteCall.Guarantee (call x.who) (own x.who older) x.event := hguaranteed _ _ _ hlog
  have hend : Keeps (call x.who).contract (call x.who).Ends
    (own x.who (inviteRun w s call l).log) ((inviteRun w s call l).threads x.who) := hkept x.who
  cases hcall : call x.who with
  | verify token =>
    rw [hcall] at hg
    exact absurd hg.1 huninviting
  | other p hp =>
    rw [hcall] at hg
    exact absurd hg huninviting
  | signup tenantId firstName lastName email mobile countryCode password retypePassword =>
    refine ⟨trivial, trim email, ?_⟩
    rw [hcall] at hend
    -- A signup sends nothing after the invite, and does not fail after it.
    cases hthread : (inviteRun w s call l).threads x.who with
    | ask q k =>
      rw [hthread] at hend
      exact absurd (hend (handle w q s).1 trivial).1.1 hinviting
    | throw e =>
      rw [hthread] at hend
      exact absurd hend hinviting
    | pure a =>
      rw [hthread] at hend
      cases a with
      | none => exact absurd hend hinviting
      | some outcome =>
        obtain ⟨i, hi, hid, rfl⟩ := hend _ hmem _ _ hinvited
        obtain ⟨e, he, hread⟩ := List.mem_filterMap.mp hi
        obtain ⟨m, hm, hwho, rfl⟩ := mem_own.mp he
        exact ⟨m, hm, hwho, i, hread, hid, rfl⟩

/-- **The invites of a run reach the mailboxes of their identities.** -/
theorem inviteRun_received (hw : FreshTokens w) {s : State}
    (hnone : s.db.membershipInvites.rows = []) {call : ι → InviteCall} {l : List (ι ⊕ Nat)}
    (howned : MobilesOwned call (inviteRun w s call l).log) {m : Move authrs ι State}
    (hm : m ∈ (inviteRun w s call l).log) {token tenantId : String} {userId id : Uuid}
    {username : Option String} {now : Time} {n : Nat} (hcall : call m.who = .verify token)
    (hadds : m.event = did (.users (.create userId tenantId id username now)) n) :
    Received w call (inviteRun w s call l) token id := by
  have hk := inviteRun_known hw hnone call l
  have hguaranteed : Guaranteed (fun i => (call i).contract) (inviteRun w s call l).log :=
    run_guaranteed (fun i => (call i).run_keeps) (fun _ _ _ => trivial) l
  -- the acceptance has read the invite, and the identity of the invite
  obtain ⟨newer, older, hlog⟩ := List.append_of_mem hm
  have hg : InviteCall.Guarantee (call m.who) (own m.who older) m.event := hguaranteed _ _ _ hlog
  rw [hcall, hadds] at hg
  obtain ⟨invite, i, hinvite, hidentity, rfl⟩ := hg.2 _ _ _ _ _ rfl
  have holder : ∀ x ∈ older, x ∈ (inviteRun w s call l).log := by
    intro x hx
    rw [hlog]
    exact List.mem_append_right _ (List.mem_cons_of_mem _ hx)
  obtain ⟨m₁, hm₁, -, he₁⟩ := mem_own.mp hinvite
  obtain ⟨m₂, hm₂, -, he₂⟩ := mem_own.mp hidentity
  have hreply₁ := hk.replies m₁ (holder m₁ hm₁)
  have hreply₂ := hk.replies m₂ (holder m₂ hm₂)
  rw [he₁] at hreply₁
  rw [he₂] at hreply₂
  have hread₁ : some invite = (m₁.before.db.membershipInvites.selectOne fun r =>
      r.token = token && m₁.before.now < r.expiresAt).map InviteRow.toInvite :=
    Except.ok.inj hreply₁
  have hread₂ : some i = (m₂.before.db.identity invite.identityId).map IdentityRow.toIdentity :=
    Except.ok.inj hreply₂
  obtain ⟨row, hrow, rfl⟩ := Option.map_eq_some_iff.mp hread₁.symm
  obtain ⟨r, hr, rfl⟩ := Option.map_eq_some_iff.mp hread₂.symm
  have htoken : row.token = token := by
    have hpos := Table.selectOne_pos hrow
    rw [Bool.and_eq_true, decide_eq_true_eq] at hpos
    exact hpos.1
  have hid : r.id = row.identityId := (Table.selectOne_key.mp hr).2
  -- the invite was created by a signup, which has ended
  obtain ⟨x, hx, hinvited⟩ := hk.createdBefore m₁ (holder m₁ hm₁) row (Table.selectOne_mem hrow)
  obtain ⟨hsignup, given, m', hm', hwho, i, hi, hidi, hthread⟩ := ended_of_invited hx hinvited
  obtain ⟨r', e, hr', he, hemail⟩ := hk.email howned hm' (hwho ▸ hsignup) hi
  refine ⟨x.who, e, hsignup, ?_, r', e, ?_, he, rfl⟩
  · rw [hthread, hemail, htoken]
    rfl
  · rw [hidi, ← hid] at hr'
    exact hr'

/-- **An invite token goes to the identity's own address**: in one signup exactly when the identity
it collides with has an email, and in a run in which the mobile lookups of the signups find only
identities with one, every acceptance adds a membership for an identity whose mailbox received the
token. -/
theorem invites_reach (w : World) (hw : FreshTokens w) :
    (∀ (s s' : State) (tenantId firstName lastName email password retypePassword : String)
      (mobile countryCode : Option String) (address token : String),
      (AuthService.signup w tenantId firstName lastName email mobile countryCode password
        retypePassword).exec (handle w) s = (.ok (.verificationSent address token), s') →
      (s'.db.OwnAddress w.lower token address ↔
        ∀ r ∈ s.db.collision w.lower (trim email) (nonEmptyTrimmed mobile)
          (nonEmptyTrimmed countryCode), r.email ≠ none)) ∧
    ∀ (ι : Type) [DecidableEq ι] (s : State) (call : ι → InviteCall) (l : List (ι ⊕ Nat)),
      s.db.membershipInvites.rows = [] → MobilesOwned call (inviteRun w s call l).log →
        ∀ m ∈ (inviteRun w s call l).log, ∀ token userId tenantId id username now n,
          call m.who = .verify token →
          m.event = did (.users (.create userId tenantId id username now)) n →
            Received w call (inviteRun w s call l) token id := by
  refine ⟨?_, ?_⟩
  · intro s s' tenantId firstName lastName email password retypePassword mobile countryCode address
      token h
    exact ownAddress_iff hw h
  · intro ι _ s call l hnone howned m hm token userId tenantId id username now n hcall hadds
    exact inviteRun_received hw hnone howned hm hcall hadds

end Runs

/-! ### Two identities -/

section Examples

open Program

/-- A tenant, and an identity with these handles that is no member. -/
def elsewhere (email mobile countryCode : Option String) : State :=
  .ofDb { Db.empty with
    identities := .single (IdentityRow.ofHandles ⟨0, id, fun _ => 7⟩ email mobile countryCode none
      none none)
    tenants := .single ⟨"globex", "Globex", "active", 0⟩ } 0

/-- A signup with the mobile number of an identity, and the acceptance of its invite. -/
def signupThenVerify : Bool → InviteCall
  | false => .signup "globex" "Eve" "" "eve@evil.example" (some "5550100") (some "+1") "correct horse"
      "correct horse"
  | true => .verify "x"

/-- The identity has an email, and joins with the invite that is sent there. -/
def annJoins : Config authrs Failure (Option SignupOutcome) Bool State :=
  inviteRun .offline (elsewhere (some "ann@acme.example") (some "5550100") (some "+1")) signupThenVerify
    (List.replicate 30 (Sum.inl false) ++ List.replicate 30 (Sum.inl true))

/-- The identity for which an exchange adds a membership. -/
def added : Event authrs → Option Uuid
  | ⟨.sql (.users (.create _ _ id _ _)), .ok _⟩ => some id
  | _ => none

theorem added_eq_some {e : Event authrs} {id : Uuid} (h : added e = some id) :
    ∃ userId tenantId username now n,
      e = did (.users (.create userId tenantId id username now)) n := by
  unfold added at h
  split at h
  · cases h
    exact ⟨_, _, _, _, _, rfl⟩
  · cases h

/-- What an exchange finds that looks a mobile number up: whether the identity has an email. -/
def mobileFound (m : Move authrs Bool State) : Option Bool :=
  match m.event.request with
  | .sql (.identities (.getByMobile countryCode mobile)) =>
    (m.before.db.identities.selectOne (Db.mobileIs countryCode mobile)).map fun r => r.email.isSome
  | _ => none

theorem annJoins_facts :
    (annJoins.log.any fun m => m.who && added m.event == some 7) = true ∧
      annJoins.log.filterMap mobileFound = [true] := by
  decide +kernel

theorem invites_reach_annJoins : Received .offline signupThenVerify annJoins "x" 7 := by
  obtain ⟨hany, hfound⟩ := annJoins_facts
  obtain ⟨m, hm, hboth⟩ := List.any_eq_true.mp hany
  rw [Bool.and_eq_true, beq_iff_eq] at hboth
  obtain ⟨userId, tenantId, username, now, n, hadds⟩ := added_eq_some hboth.2
  refine (invites_reach .offline World.offline_freshTokens).2 Bool _ signupThenVerify _ rfl ?_ m hm
    "x" userId tenantId 7 username now n (by rw [hboth.1]; rfl) hadds
  intro x hx _ countryCode mobile hrequest r hr
  have hemail : mobileFound x = some r.email.isSome := by
    unfold mobileFound
    rw [hrequest]
    exact congrArg (Option.map fun r : IdentityRow => r.email.isSome) hr
  have htrue : _ ∈ annJoins.log.filterMap mobileFound := List.mem_filterMap.mpr ⟨x, hx, hemail⟩
  rw [hfound, List.mem_singleton] at htrue
  exact Option.isSome_iff_ne_none.mp htrue

/-- The address and the token that a signup sends. -/
def sentTo : Except Failure SignupOutcome → Option (String × String)
  | .ok (.verificationSent address token) => some (address, token)
  | _ => none

theorem sentTo_eq_some {x : Except Failure SignupOutcome × State} {address token : String}
    (h : sentTo x.1 = some (address, token)) :
    x = (.ok (.verificationSent address token), x.2) := by
  obtain ⟨o, s⟩ := x
  unfold sentTo at h
  split at h
  · rename_i heq
    obtain rfl : o = _ := heq
    cases h
    rfl
  · cases h

/-- An identity with a mobile number alone, and a signup with this number by somebody else. -/
theorem stranger_facts :
    sentTo ((AuthService.signup .offline "globex" "Eve" "" "eve@evil.example" (some "5550100")
      (some "+1") "correct horse" "correct horse").exec (handle .offline)
        (elsewhere none (some "5550100") (some "+1"))).1 = some ("eve@evil.example", "x") ∧
      ((elsewhere none (some "5550100") (some "+1")).db.collision World.offline.lower
        (trim "eve@evil.example") (nonEmptyTrimmed (some "5550100"))
          (nonEmptyTrimmed (some "+1"))).map (fun r => r.email) = some none := by
  decide +kernel

/-- **The token of an identity without an email** goes to whoever signs up with its number. -/
theorem stranger_invited :
    ¬ ∀ (w : World) (_ : FreshTokens w) (s s' : State)
        (tenantId firstName lastName email password retypePassword : String)
        (mobile countryCode : Option String) (address token : String),
      (AuthService.signup w tenantId firstName lastName email mobile countryCode password
        retypePassword).exec (handle w) s = (.ok (.verificationSent address token), s') →
      s'.db.OwnAddress w.lower token address := by
  intro h
  obtain ⟨hsent, hfound⟩ := stranger_facts
  have hexec := sentTo_eq_some hsent
  have hown := (ownAddress_iff World.offline_freshTokens hexec).mp
    (h .offline World.offline_freshTokens _ _ _ _ _ _ _ _ _ _ _ _ hexec)
  obtain ⟨r, hr, hemail⟩ := Option.map_eq_some_iff.mp hfound
  exact hown r hr hemail

end Examples

end Authrs
