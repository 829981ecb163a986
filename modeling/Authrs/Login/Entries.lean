import Authrs.Login.Vetting

/-!
# The login calls, one by one

Each login call, against any replies: when it issues a credential, its history shows one
membership and one identity, and what the credential rests on. For a second factor this is a
redeemed challenge and a completed check; a forced password change rests on less than the others.

## Main definitions

* `LoginCall.method`: the login method a call asks the tenant for
* `Verified`, `Redeemed`: a completed second factor
* `ForceChanged`: what a forced password change has checked
* `Basis`, `Vetted`: what a credential rests on

## Main results

* `LoginCall.run_vetted`: every login call issues its credentials on their basis
-/

namespace Authrs

open Interaction Program

/-- The login method that a call asks the tenant's configuration for. -/
def LoginCall.method : LoginCall → Option Int
  | emailPassword .. => some LOGIN_METHOD_EMAIL_PASSWORD
  | usernamePassword .. => some LOGIN_METHOD_USERNAME_PASSWORD
  | verifiedOtp .. => some LOGIN_METHOD_EMAIL_OTP
  | oauth .. => some LOGIN_METHOD_OAUTH
  | _ => none

/-- `verify` ran for the identity and the code, and returned `true`. -/
def Verified (w : World) (identity : Identity) (code : String) (h : List (Event authrs)) : Prop :=
  ∃ newer es older, h = newer ++ (es.reverse ++ older) ∧
    (MfaService.verify w identity code).Ran es (.ok true)

/-- A second factor: the challenge that was read, the check, and the one row that was deleted. -/
structure Redeemed (w : World) (mfaToken code tenantId : String) (m : MembershipRow)
    (i : Identity) (h : List (Event authrs)) : Prop where
  challenge : ∃ c u, did (.challenges (.get mfaToken)) (some c) ∈ h ∧ c.tenantId = tenantId ∧
    did (.users (.getById c.tenantId c.userId)) (some u) ∈ h ∧ u.toRow = m
  verified : Verified w i code h
  redeemed : h.filterMap redemptionOf = [(mfaToken, 1)]

/-- What a forced password change has read and checked: the membership, and then its identity. -/
structure ForceChanged (m : MembershipRow) (i : Identity) (h : List (Event authrs)) : Prop where
  read : ∃ newer id older, h = newer ++ did (.identities (.getById id)) (some i) :: older ∧
    m ∈ older.filterMap membershipOf
  access : ∀ v, m.accessValidUntil = some v → ∃ t ∈ clocks h, ¬ v < t

/-- What a credential for a membership and its identity rests on. -/
def Basis (w : World) (k : Issue) (tenantId : String) (m : MembershipRow) (i : Identity)
    (h : List (Event authrs)) : LoginCall → Prop
  | .completeMfa mfaToken code =>
    k = .session ∧ Gates (clocks h) m i ∧ Redeemed w mfaToken code tenantId m i h
  | .forceChange .. => CalledFor k i ∧ ForceChanged m i h
  | c =>
    CalledFor k i ∧ Gates (clocks h) m i ∧
      ∀ method ∈ c.method, MethodAllowed w tenantId method h

/-- **A vetted request**: if it issues a credential, it is fresh, and the history before it shows
the membership, its identity, and what the credential rests on. -/
def Vetted (w : World) (c : LoginCall) (h : List (Event authrs)) (e : Event authrs) : Prop :=
  ∀ k tenantId userId, issued e.request = some (k, tenantId, userId) →
    Fresh h e ∧ ∃ m i ds, Rows [m] [i] ds h ∧ m.id = userId ∧ Basis w k tenantId m i h c

theorem vetted_of_unissued {w : World} {c : LoginCall} (h : List (Event authrs))
    (e : Event authrs) (he : issued e.request = none) : Vetted w c h e := by
  intro k tenantId userId hi
  rw [he] at hi
  cases hi

theorem Verified.mono {w : World} {identity : Identity} {code : String}
    {h : List (Event authrs)} (hv : Verified w identity code h) (e : Event authrs) :
    Verified w identity code (e :: h) := by
  obtain ⟨newer, es, older, rfl, hran⟩ := hv
  exact ⟨e :: newer, es, older, rfl, hran⟩

theorem Redeemed.cons {w : World} {mfaToken code tenantId : String} {m : MembershipRow}
    {i : Identity} {h : List (Event authrs)} (hr : Redeemed w mfaToken code tenantId m i h)
    {e : Event authrs} (he : Silent e.request) :
    Redeemed w mfaToken code tenantId m i (e :: h) where
  challenge := by
    obtain ⟨c, u, hc, ht, hu, hm⟩ := hr.challenge
    exact ⟨c, u, List.mem_cons_of_mem _ hc, ht, List.mem_cons_of_mem _ hu, hm⟩
  verified := hr.verified.mono e
  redeemed := by
    rw [List.filterMap_cons_none (he e.reply).2.2]
    exact hr.redeemed

theorem ForceChanged.cons {m : MembershipRow} {i : Identity} {h : List (Event authrs)}
    (hf : ForceChanged m i h) (e : Event authrs) : ForceChanged m i (e :: h) where
  read := by
    obtain ⟨newer, id, older, rfl, hm⟩ := hf.read
    exact ⟨e :: newer, id, older, rfl, hm⟩
  access v hv := by
    obtain ⟨t, ht, hlt⟩ := hf.access v hv
    exact ⟨t, clocks_mono (List.subset_cons_self e h) ht, hlt⟩

namespace AuthService

variable {w : World} {c : LoginCall} {h : List (Event authrs)}

/-- The contract of a login call. -/
abbrev vetted (w : World) (c : LoginCall) : Contract authrs := .ofGuarantee (Vetted w c)

/-- The tail, on passed gates and an allowed method. -/
theorem finalizeLogin_vetted {tenantId : String} {user : User} {identity : Identity}
    {ip userAgent : Option String}
    (hc : ∀ k h, (CalledFor k identity ∧ Gates (clocks h) user.toRow identity ∧
      ∀ method ∈ c.method, MethodAllowed w tenantId method h) →
        Basis w k tenantId user.toRow identity h c)
    (hp : Prologue [user.toRow] [identity] [] h) (hg : Gates (clocks h) user.toRow identity)
    (hm : ∀ method ∈ c.method, MethodAllowed w tenantId method h) :
    (finalizeLogin w tenantId user identity ip userAgent).Keeps (vetted w c)
      (OnOk fun _ _ => True) h := by
  refine (finalizeLogin_keeps (M := fun h => Rows [user.toRow] [identity] [] h ∧
    Gates (clocks h) user.toRow identity ∧ ∀ method ∈ c.method, MethodAllowed w tenantId method h)
    vetted_of_unissued ?_ user identity ip userAgent ?_ ⟨hp.toRows, hg, hm⟩ hp.unissued).weaken
    fun _ o _ => by cases o <;> trivial
  · rintro h' e ⟨hrows, hgates, hmethod⟩ hs
    have hsub : h' ⊆ e :: h' := List.subset_cons_self e h'
    exact ⟨hrows.cons hs, hgates.mono (clocks_mono hsub),
      fun method hmem => (hmethod method hmem).mono hsub⟩
  · rintro h' e k ⟨hrows, hrest⟩ hi hcall hfresh k' tenantId' userId' hi'
    rw [hi] at hi'
    cases hi'
    exact ⟨hfresh, _, _, _, hrows, rfl, hc k h' ⟨hcall, hrest⟩⟩

/-- A statement on identities that shows none is quiet. -/
theorem quiet_identities {q : IdentityStmt}
    (hq : ∀ r, identityOf ⟨.sql (.identities q), r⟩ = none) : Quiet (.sql (.identities q)) :=
  ⟨fun r => ⟨rfl, hq r, rfl⟩, rfl⟩

theorem registerFailedAttempt_asks {S : Request → Prop} (hclock : S .clock)
    (hcount : ∀ id lockUntil, S (.sql (.identities (.incrementFailedAttempts id lockUntil))))
    (identity : Identity) : (registerFailedAttempt w identity).Asks S := by
  have hlock : (lockReached w identity.failedAttempts).Asks S := by
    unfold lockReached
    repeat' split
    all_goals trivial
  refine hlock.bind fun reached => ?_
  cases reached with
  | false => exact asks_execute (hcount _ _)
  | true => exact ⟨hclock, fun now => asks_execute (hcount _ _)⟩

theorem registerFailedAttempt_quiet (identity : Identity) :
    (registerFailedAttempt w identity).Asks Quiet :=
  registerFailedAttempt_asks quiet_clock (fun _ _ => quiet_identities fun _ => rfl) identity

theorem checkPassword_asks (identity : Identity) (password message : String) :
    (checkPassword w identity password message).Asks Quiet := by
  refine (asks_okOr _ _).bind fun passwordHash => ?_
  refine (asks_ofExcept _).bind fun correct => ?_
  cases correct with
  | true => trivial
  | false => exact (registerFailedAttempt_quiet identity).bind fun _ => trivial

theorem quiet_clearFailedAttempts (id : Uuid) :
    (IdentitiesRepo.clearFailedAttempts id).Asks Quiet :=
  asks_execute ⟨fun _ => ⟨rfl, rfl, rfl⟩, rfl⟩

/-- The tail after a membership whose identity has just been loaded. -/
theorem doPasswordLogin_vetted {tenantId : String} {user : User} {password : String}
    {ip userAgent : Option String} {method : Int} (hc : c.method = some method)
    (hbasis : ∀ k identity h, (CalledFor k identity ∧ Gates (clocks h) user.toRow identity ∧
      ∀ method ∈ c.method, MethodAllowed w tenantId method h) →
        Basis w k tenantId user.toRow identity h c)
    (hp : Prologue [user.toRow] [] [] h) :
    (doPasswordLogin w tenantId user password ip userAgent method).Keeps (vetted w c)
      (OnOk fun _ _ => True) h := by
  have hC := vetted_of_unissued (w := w) (c := c)
  refine (loadIdentity_ok hC user.identityId).bind_ok ?_
  rintro identity h₁ - rfl
  have hp₁ : Prologue [user.toRow] [identity] [] _ :=
    hp.push (did (.identities (.getById user.identityId)) (some identity)) rfl
  refine (checkGates_ok hC user identity).bind_ok ?_
  rintro - h₂ - ⟨hq₂, hg⟩
  refine (effectiveLoginMethods_ok hC tenantId user).bind_ok ?_
  rintro effective h₃ hsub₃ ⟨hq₃, hmethods⟩
  refine (keeps_ensure_ok _ _).bind_ok ?_
  rintro - h₄ - ⟨hmem, rfl⟩
  refine (keeps_quietly hC (checkPassword_asks identity password _)).bind_ok ?_
  rintro - h₅ hsub₅ hq₅
  refine (keeps_quietly hC (quiet_clearFailedAttempts identity.id)).bind_ok ?_
  rintro - h₆ hsub₆ hq₆
  have hp₆ := ((hq₂.trans hq₃).trans (hq₅.trans hq₆)).prologue hp₁
  have hsub₄₆ := List.Subset.trans hsub₅ hsub₆
  have hg₆ := hg.mono (clocks_mono (List.Subset.trans hsub₃ hsub₄₆))
  refine finalizeLogin_vetted (fun k h => hbasis k identity h) hp₆ hg₆ ?_
  rw [hc]
  rintro _ ⟨⟩
  exact (hmethods method hmem).mono hsub₄₆

/-- A membership lookup that found a row, at the beginning of a call. -/
theorem lookup_ok {q : MembershipStmt} {user : User} {h : List (Event authrs)}
    (hp : Prologue [] [] [] h) {r : (Sql.users q).Rows}
    (hm : membershipOf (did (.users q) r) = some user.toRow) :
    Prologue [user.toRow] [] [] (did (.users q) r :: h) := by
  have hpush := hp.push (did (.users q) r) rfl
  rwa [hm] at hpush

theorem loginEmailPassword_vetted (tenantId email password : String)
    (ip userAgent : Option String) :
    (loginEmailPassword w tenantId email password ip userAgent).Keeps
      (vetted w (.emailPassword tenantId email password)) (OnOk fun _ _ => True) [] := by
  have hC := vetted_of_unissued (w := w) (c := .emailPassword tenantId email password)
  refine (ensureEmailDomainAllowed_ok hC tenantId email).bind_ok ?_
  rintro - h₁ - hq₁
  refine (keeps_known_query hC rfl).bind_ok ?_
  rintro found h₂ - rfl
  refine (keeps_okOr_ok _ _).bind_ok ?_
  rintro user h₃ - ⟨rfl, rfl⟩
  exact doPasswordLogin_vetted rfl (fun _ _ _ => id) (lookup_ok (hq₁.prologue .nil) rfl)

theorem loginUsernamePassword_vetted (tenantId username password : String)
    (ip userAgent : Option String) :
    (loginUsernamePassword w tenantId username password ip userAgent).Keeps
      (vetted w (.usernamePassword tenantId username password)) (OnOk fun _ _ => True) [] := by
  have hC := vetted_of_unissued (w := w) (c := .usernamePassword tenantId username password)
  refine (keeps_known_query hC rfl).bind_ok ?_
  rintro found h₁ - rfl
  refine (keeps_okOr_ok _ _).bind_ok ?_
  rintro user h₂ - ⟨rfl, rfl⟩
  exact doPasswordLogin_vetted rfl (fun _ _ _ => id) (lookup_ok .nil rfl)

theorem loginWithVerifiedOtp_vetted (tenantId email : String) (ip userAgent : Option String) :
    (loginWithVerifiedOtp w tenantId email ip userAgent).Keeps
      (vetted w (.verifiedOtp tenantId email)) (OnOk fun _ _ => True) [] := by
  have hC := vetted_of_unissued (w := w) (c := .verifiedOtp tenantId email)
  refine (keeps_known_query hC rfl).bind_ok ?_
  rintro found h₁ - rfl
  refine (keeps_okOr_ok _ _).bind_ok ?_
  rintro user h₂ - ⟨rfl, rfl⟩
  refine (loadIdentity_ok hC user.identityId).bind_ok ?_
  rintro identity h₃ - rfl
  have hp₃ := (lookup_ok (q := .getByEmailInsensitive tenantId email) (r := some user) .nil
    rfl).push (did (.identities (.getById user.identityId)) (some identity)) rfl
  refine (checkGates_ok hC user identity).bind_ok ?_
  rintro - h₄ - ⟨hq₄, hg⟩
  refine (effectiveLoginMethods_ok hC tenantId user).bind_ok ?_
  rintro effective h₅ hsub₅ ⟨hq₅, hmethods⟩
  refine (keeps_ensure_ok _ _).bind_ok ?_
  rintro - h₆ - ⟨hmem, rfl⟩
  refine finalizeLogin_vetted (fun _ _ => id) ((hq₄.trans hq₅).prologue hp₃)
    (hg.mono (clocks_mono hsub₅)) ?_
  rintro _ ⟨⟩
  exact hmethods _ hmem

/-- Selecting a tenant, after whatever established the identity. -/
theorem selectTenant_vetted (hc : c.method = none)
    (hbasis : ∀ k tenantId m identity h, CalledFor k identity ∧ Gates (clocks h) m identity →
      Basis w k tenantId m identity h c)
    (hp : Prologue [] [] [] h) (identityId : Uuid) (tenantId : String)
    (ip userAgent : Option String) :
    (selectTenant w identityId tenantId ip userAgent).Keeps (vetted w c) (OnOk fun _ _ => True)
      h := by
  have hC := vetted_of_unissued (w := w) (c := c)
  refine (keeps_known_query hC rfl).bind_ok ?_
  rintro found h₁ - rfl
  refine (keeps_okOr_ok _ _).bind_ok ?_
  rintro user h₂ - ⟨rfl, rfl⟩
  refine (loadIdentity_ok hC identityId).bind_ok ?_
  rintro identity h₃ - rfl
  have hp₃ := (lookup_ok (q := .getMembership identityId tenantId) (r := some user) hp rfl).push
    (e := did (.identities (.getById identityId)) (some identity)) rfl
  refine (checkGates_ok hC user identity).bind_ok ?_
  rintro - h₄ - ⟨hq₄, hg⟩
  refine finalizeLogin_vetted (fun k h hk => hbasis k tenantId _ _ h ⟨hk.1, hk.2.1⟩)
    (hq₄.prologue hp₃) hg ?_
  rw [hc]
  rintro _ ⟨⟩

theorem selectTenantWithToken_vetted (identityToken tenantId : String)
    (ip userAgent : Option String) :
    (selectTenantWithToken w identityToken tenantId ip userAgent).Keeps
      (vetted w (.selectTenantWithToken identityToken tenantId)) (OnOk fun _ _ => True) [] := by
  have hC := vetted_of_unissued (w := w) (c := .selectTenantWithToken identityToken tenantId)
  refine (keeps_known_query hC rfl).bind_ok ?_
  rintro found h₁ - rfl
  refine (keeps_okOr_ok _ _).bind_ok ?_
  rintro identityId h₂ - ⟨rfl, rfl⟩
  have hquiet : Quiet (.sql (.tokens (.getIdentityToken identityToken))) :=
    ⟨fun _ => ⟨rfl, rfl, rfl⟩, rfl⟩
  exact selectTenant_vetted (c := .selectTenantWithToken identityToken tenantId) rfl
    (fun _ _ _ _ _ hk => ⟨hk.1, hk.2, by rintro _ ⟨⟩⟩)
    (Prologue.nil.cons (e := did (.tokens (.getIdentityToken identityToken)) (some identityId))
      hquiet) identityId tenantId ip userAgent

/-! ### Sign-in with an identity provider -/

section Oauth

variable {C : Contract authrs} (hC : ∀ h e, issued e.request = none → C.guarantee h e)

include hC

theorem checkOauthDomain_ok (tenantId : String) (verifiedEmail : Option String) :
    (checkOauthDomain w tenantId verifiedEmail).Keeps C (OnOk fun _ h' => Quietly h h') h := by
  cases verifiedEmail with
  | some e => exact ensureEmailDomainAllowed_ok hC tenantId e
  | none =>
    refine (getTyped_ok hC tenantId "email_policy" "allowed_domains" domainsFromValue).bind_ok ?_
    rintro allowed h₁ - ⟨hq₁, -⟩
    refine (keeps_ensure_ok _ _).weaken_ok ?_
    rintro - h₂ - ⟨-, rfl⟩
    exact hq₁

/-- The fresh identity becomes known. -/
theorem createOauthIdentity_ok (hp : Prologue [] [] [] h) (profile : OauthProfile)
    (allowSignup : Bool) :
    (createOauthIdentity profile allowSignup).Keeps C (OnOk fun i h' => Prologue [] [i] [] h')
      h := by
  have hcollision : (refuseUnverifiedCollision profile.unverifiedEmail).Asks Quiet := by
    cases profile.unverifiedEmail with
    | none => trivial
    | some e =>
      refine (asks_query ⟨fun _ => ⟨rfl, rfl, rfl⟩, rfl⟩).bind fun taken => ?_
      exact asks_ensure _ _
  refine (keeps_quietly hC hcollision).bind_ok ?_
  rintro - h₁ - hq₁
  refine (keeps_ensure_ok _ _).bind_ok ?_
  rintro - h₂ - ⟨-, rfl⟩
  refine (keeps_known_query hC rfl).weaken_ok ?_
  rintro i h₃ - rfl
  exact (hq₁.prologue hp).push (did (.identities (.create ..)) i) rfl

/-- **The identity of a provider account becomes known**, and no other. -/
theorem resolveOauthIdentity_ok (hp : Prologue [] [] [] h) (provider : String)
    (profile : OauthProfile) (allowSignup : Bool) :
    (resolveOauthIdentity provider profile allowSignup).Keeps C
      (OnOk fun i h' => Prologue [] [i] [] h') h := by
  have hlinked : Quiet (.sql (.oauth (.getLinkedIdentity provider profile.providerUserId))) :=
    ⟨fun _ => ⟨rfl, rfl, rfl⟩, rfl⟩
  refine (keeps_quiet_query hC hlinked).bind_ok ?_
  rintro linked h₁ - ⟨hq₁, -⟩
  have hp₁ := hq₁.prologue hp
  cases linked with
  | some identityId =>
    refine (loadIdentity_ok hC identityId).weaken_ok ?_
    rintro i h₂ - rfl
    exact hp₁.push (did (.identities (.getById identityId)) (some i)) rfl
  | none =>
    have hexisting : (identityOfVerifiedEmail profile.verifiedEmail).Keeps C
        (OnOk fun o h' => Prologue [] o.toList [] h') h₁ := by
      cases profile.verifiedEmail with
      | none => exact hp₁
      | some e =>
        refine (keeps_known_query hC rfl).weaken_ok ?_
        rintro o h₂ - rfl
        cases o with
        | none => exact hp₁.push (did (.identities (.getByEmail e)) none) rfl
        | some i => exact hp₁.push (did (.identities (.getByEmail e)) (some i)) rfl
    have hlink : (identityToLink profile allowSignup).Keeps C
        (OnOk fun i h' => Prologue [] [i] [] h') h₁ := by
      refine hexisting.bind_ok ?_
      rintro existing h₂ - hp₂
      cases existing with
      | some i => exact hp₂
      | none => exact createOauthIdentity_ok hC hp₂ profile allowSignup
    refine hlink.bind_ok ?_
    rintro i h₂ - hp₂
    have hinsert : (OauthRepo.link i.id provider profile.providerUserId profile.email).Asks Quiet :=
      asks_execute ⟨fun _ => ⟨rfl, rfl, rfl⟩, rfl⟩
    refine (keeps_quietly hC hinsert).bind_ok ?_
    rintro - h₃ - hq₃
    exact hq₃.prologue hp₂

/-- The membership of the identity becomes known, found or created. -/
theorem ensureMembership_ok {identity : Identity} (hp : Prologue [] [identity] [] h)
    (tenantId : String) (allowSignup : Bool) :
    (ensureMembership identity tenantId allowSignup).Keeps C
      (OnOk fun u h' => Prologue [u.toRow] [identity] [] h') h := by
  refine (keeps_known_query hC rfl).bind_ok ?_
  rintro membership h₁ - rfl
  cases membership with
  | some u => exact hp.push (did (.users (.getMembership identity.id tenantId)) (some u)) rfl
  | none =>
    have hp₁ : Prologue [] [identity] [] _ :=
      hp.push (did (.users (.getMembership identity.id tenantId)) none) rfl
    cases allowSignup with
    | false => trivial
    | true =>
      refine (keeps_newUuid_ok fun _ he => hC _ _ (he ▸ rfl)).bind_ok ?_
      rintro id h₂ - rfl
      refine (keeps_utcNow_ok fun _ he => hC _ _ (he ▸ rfl)).bind_ok ?_
      rintro now h₃ - rfl
      have hp₃ := (hp₁.push ⟨.newUuid, id⟩ rfl).push ⟨.clock, now⟩ rfl
      have hcreate : ∀ {h : List (Event authrs)}, Prologue [] [identity] [] h →
          (execute (.users (.create id tenantId identity.id none now))).Keeps C
            (OnOk fun _ h' =>
              Prologue [⟨id, tenantId, identity.id, none, "active", none, now, now⟩] [identity] []
                h') h := by
        intro h hp
        refine (keeps_known_execute hC rfl).weaken_ok ?_
        rintro - h₄ - ⟨n, rfl⟩
        exact hp.push (did (.users (.create id tenantId identity.id none now)) n) rfl
      refine (hcreate hp₃).bind_ok ?_
      rintro - h₄ - hp₄
      exact hp₄

end Oauth

theorem loginOauth_vetted (tenantId provider : String) (profile : OauthProfile)
    (allowSignup : Bool) (ip userAgent : Option String) :
    (loginOauth w tenantId provider profile allowSignup ip userAgent).Keeps
      (vetted w (.oauth tenantId provider profile allowSignup)) (OnOk fun _ _ => True) [] := by
  have hC := vetted_of_unissued (w := w) (c := .oauth tenantId provider profile allowSignup)
  refine (checkOauthDomain_ok hC tenantId profile.verifiedEmail).bind_ok ?_
  rintro - h₁ - hq₁
  refine (resolveOauthIdentity_ok hC (hq₁.prologue .nil) provider profile allowSignup).bind_ok ?_
  rintro identity h₂ - hp₂
  refine (keeps_ensure_ok _ _).bind_ok ?_
  rintro - h₃ - ⟨-, rfl⟩
  refine (ensureMembership_ok hC hp₂ tenantId allowSignup).bind_ok ?_
  rintro user h₄ - hp₄
  refine (checkGates_ok hC user identity).bind_ok ?_
  rintro - h₅ - ⟨hq₅, hg⟩
  refine (effectiveLoginMethods_ok hC tenantId user).bind_ok ?_
  rintro effective h₆ hsub₆ ⟨hq₆, hmethods⟩
  refine (keeps_ensure_ok _ _).bind_ok ?_
  rintro - h₇ - ⟨hmem, rfl⟩
  refine finalizeLogin_vetted (fun _ _ => id) ((hq₅.trans hq₆).prologue hp₄)
    (hg.mono (clocks_mono hsub₆)) ?_
  rintro _ ⟨⟩
  exact hmethods _ hmem

/-! ### The second factor, and forced password changes -/

/-- An exhausted challenge ends the call; any other is left alone. -/
theorem refuseExhausted_ok {C : Contract authrs}
    (hC : ∀ h e, issued e.request = none → C.guarantee h e) (mfaToken : String)
    (challenge : MfaChallenge) :
    (refuseExhausted mfaToken challenge).Keeps C (OnOk fun _ h' => h' = h) h := by
  unfold refuseExhausted
  split
  · have hdelete : (MfaRepo.deleteChallenge mfaToken).Keeps C (OnOk fun _ _ => True) h := by
      refine (keeps_known_query hC rfl).bind_ok fun n h' _ _ => ?_
      exact trivial
    exact hdelete.bind_ok fun _ _ _ _ => trivial
  · exact rfl

theorem verify_asks {S : Request → Prop} (hclock : S .clock)
    (hmark : ∀ id step, S (.sql (.identities (.markStepUsed id step))))
    (hconsume : ∀ id hash, S (.sql (.identities (.consumeBackupCode id hash))))
    (identity : Identity) (code : String) : (MfaService.verify w identity code).Asks S := by
  have hdecrypt : (MfaService.decryptSecret w identity).Asks S := by
    unfold MfaService.decryptSecret
    cases identity.mfaSecret with
    | none => trivial
    | some enc => exact asks_ofExcept _
  have htotp : ∀ code, (MfaService.verifyTotp w identity code).Asks S := by
    intro code
    refine hdecrypt.bind fun secret => ?_
    cases secret with
    | none => trivial
    | some secret =>
      refine Asks.bind (p := MfaService.now) ⟨hclock, fun _ => trivial⟩ fun now => ?_
      cases matchingStep w secret code now with
      | none => trivial
      | some step => exact (asks_query (hmark _ _)).bind fun _ => trivial
  unfold MfaService.verify
  split
  · simp only
    split
    · exact htotp _
    · split
      · trivial
      · exact (asks_query (hconsume _ _)).bind fun _ => trivial
  · trivial

theorem verify_quiet (identity : Identity) (code : String) :
    (MfaService.verify w identity code).Asks Quiet :=
  verify_asks quiet_clock (fun _ _ => quiet_identities fun _ => rfl)
    (fun _ _ => quiet_identities fun _ => rfl) identity code

/-- **The second-factor check** leaves its run in the history when it succeeds. -/
theorem checkSecondFactor_ok {C : Contract authrs}
    (hC : ∀ h e, issued e.request = none → C.guarantee h e) (mfaToken : String)
    (identity : Identity) (code : String) :
    (checkSecondFactor w mfaToken identity code).Keeps C
      (OnOk fun _ h' => Quietly h h' ∧ Verified w identity code h') h := by
  have hverify : (MfaService.verify w identity code).Keeps C
      (OnOk fun valid h' => Quietly h h' ∧ (valid = true → Verified w identity code h')) h := by
    refine (keeps_quietly hC (verify_quiet identity code)).ran.weaken ?_
    rintro h' (e | valid) ⟨hq, es, rfl, hran⟩
    · trivial
    · refine ⟨hq, fun hv => ⟨[], es, h, rfl, ?_⟩⟩
      rwa [hv] at hran
  refine hverify.bind_ok ?_
  rintro valid h₁ - ⟨hq₁, hv⟩
  cases valid with
  | true => exact ⟨hq₁, hv rfl⟩
  | false =>
    refine (keeps_known_execute hC rfl).bind_ok fun _ h₂ _ _ => ?_
    refine (keeps_quietly hC (registerFailedAttempt_quiet identity)).bind_ok fun _ h₃ _ _ => ?_
    trivial

theorem completeMfaLogin_vetted (mfaToken code : String) (ip userAgent : Option String) :
    (completeMfaLogin w mfaToken code ip userAgent).Keeps
      (vetted w (.completeMfa mfaToken code)) (OnOk fun _ _ => True) [] := by
  have hC := vetted_of_unissued (w := w) (c := .completeMfa mfaToken code)
  refine (keeps_known_query hC rfl).bind_ok ?_
  rintro found h₁ - rfl
  refine (keeps_okOr_ok _ _).bind_ok ?_
  rintro challenge h₂ - ⟨rfl, rfl⟩
  refine (refuseExhausted_ok hC mfaToken challenge).bind_ok ?_
  rintro - h₃ - rfl
  -- The rows that the call has read so far, in the order of the record.
  have hp₃ : Prologue [] [] [] _ :=
    Prologue.nil.push (did (.challenges (.get mfaToken)) (some challenge)) rfl
  refine (keeps_known_query hC rfl).bind_ok ?_
  rintro found h₄ - rfl
  refine (keeps_okOr_ok _ _).bind_ok ?_
  rintro user h₅ - ⟨rfl, rfl⟩
  have hp₅ := lookup_ok (q := .getById challenge.tenantId challenge.userId) (r := some user) hp₃ rfl
  refine (loadIdentity_ok hC user.identityId).bind_ok ?_
  rintro identity h₆ - rfl
  have hp₆ := hp₅.push (did (.identities (.getById user.identityId)) (some identity)) rfl
  refine (checkGates_ok hC user identity).bind_ok ?_
  rintro - h₇ hsub₇ ⟨hq₇, hg⟩
  refine (checkSecondFactor_ok hC mfaToken identity code).bind_ok ?_
  rintro - h₈ hsub₈ ⟨hq₈, hverified⟩
  have hp₈ := (hq₇.trans hq₈).prologue hp₆
  -- The challenge is redeemed by the call whose delete finds the row.
  have hdelete : (MfaRepo.deleteChallenge mfaToken).Keeps (vetted w (.completeMfa mfaToken code))
      (OnOk fun redeemed h' => ∃ n, redeemed = decide (n = 1) ∧
        h' = did (.challenges (.delete mfaToken)) n :: h₈) h₈ := by
    refine (keeps_known_query hC rfl).bind_ok ?_
    rintro n h₉ - rfl
    exact ⟨n, rfl, rfl⟩
  refine hdelete.bind_ok ?_
  rintro redeemed h₉ - ⟨n, rfl, rfl⟩
  refine (keeps_ensure_ok _ _).bind_ok ?_
  rintro - h₁₀ - ⟨hone, rfl⟩
  obtain rfl : n = 1 := by simpa using hone
  have hp₉ := hp₈.push (did (.challenges (.delete mfaToken)) 1) rfl
  refine (keeps_quietly hC (quiet_clearFailedAttempts identity.id)).bind_ok ?_
  rintro - h₁₁ hsub₁₁ hq₁₁
  have hp₁₁ := hq₁₁.prologue hp₉
  have hsub₈₁₁ : h₈ ⊆ h₁₁ := List.Subset.trans (List.subset_cons_self _ _) hsub₁₁
  have hsub₇₁₁ : h₇ ⊆ h₁₁ := List.Subset.trans hsub₈ hsub₈₁₁
  have hsub : _ ⊆ h₁₁ := List.Subset.trans hsub₇ hsub₇₁₁
  have hverified₁₁ : Verified w identity code h₁₁ := by
    obtain ⟨es, rfl, -⟩ := hq₁₁
    exact Lasting.append (M := Verified w identity code) (fun _ e hv => hv.mono e)
      (hverified.mono _) es
  -- What was checked along the way still stands when the session is stored.
  have hredeemed : Redeemed w mfaToken code challenge.tenantId user.toRow identity h₁₁ :=
    ⟨⟨challenge, user, hsub (by simp), rfl, hsub (by simp), rfl⟩, hverified₁₁,
      hp₁₁.redemptions⟩
  refine (doCreateSession_keeps (M := fun h => Rows [user.toRow] [identity] [(mfaToken, 1)] h ∧
    Gates (clocks h) user.toRow identity ∧
    Redeemed w mfaToken code challenge.tenantId user.toRow identity h) hC ?_ user ip userAgent ?_
    ⟨hp₁₁.toRows, hg.mono (clocks_mono hsub₇₁₁), hredeemed⟩ hp₁₁.unissued).weaken
    fun _ o _ => by cases o <;> trivial
  · rintro h' e ⟨hrows, hgates, hred⟩ hs
    exact ⟨hrows.cons hs, hgates.mono (clocks_mono (List.subset_cons_self e h')), hred.cons hs⟩
  · rintro h' e ⟨hrows, hgates, hred⟩ hi hfresh k tenantId userId hi'
    rw [hi] at hi'
    cases hi'
    exact ⟨hfresh, _, _, _, hrows, rfl, rfl, hgates, hred⟩

/-- A forced password change up to the shared tail. -/
def forceChangePrologue (w : World) (changeToken newPassword retypePassword : String) :
    Service (String × User × Identity) := do
  let found ← ForceChangeTokensRepo.getValid changeToken
  let (tenantId, userId) ← Service.okOr found (.unauthorized "Invalid or expired change token")
  ensureRetyped newPassword retypePassword
  validatePassword w tenantId newPassword
  let user ← UsersRepo.getById tenantId userId
  let user ← Service.okOr user (.notFound "User not found")
  checkAccess user
  let passwordHash ← hashPassword newPassword
  IdentitiesRepo.updatePassword user.identityId passwordHash
  ForceChangeTokensRepo.deleteByToken changeToken
  let identity ← loadIdentity user.identityId
  Program.pure (tenantId, user, identity)

theorem forceChangePassword_eq (changeToken newPassword retypePassword : String)
    (ip userAgent : Option String) :
    forceChangePassword w changeToken newPassword retypePassword ip userAgent =
      (forceChangePrologue w changeToken newPassword retypePassword).bind
        fun x => finalizeLogin w x.1 x.2.1 x.2.2 ip userAgent := by
  unfold forceChangePassword forceChangePrologue
  simp only [Program.bind_eq, Program.bind_assoc, Program.pure_bind]

/-- Before the tail, the membership's access has been checked, and nothing more. -/
theorem forceChangePrologue_ok {C : Contract authrs}
    (hC : ∀ h e, issued e.request = none → C.guarantee h e)
    (changeToken newPassword retypePassword : String) :
    (forceChangePrologue w changeToken newPassword retypePassword).Keeps C
      (OnOk fun x h' => Prologue [x.2.1.toRow] [x.2.2] [] h' ∧
        ForceChanged x.2.1.toRow x.2.2 h') [] := by
  refine (keeps_known_query hC rfl).bind_ok ?_
  rintro found h₁ - rfl
  refine (keeps_okOr_ok _ _).bind_ok ?_
  rintro ⟨tenantId, userId⟩ h₂ - ⟨rfl, rfl⟩
  have hp₂ : Prologue [] [] [] _ :=
    Prologue.nil.push (did (.tokens (.getForceChangeToken changeToken)) (some (tenantId, userId)))
      rfl
  refine (keeps_ensure_ok _ _).bind_ok ?_
  rintro - h₃ - ⟨-, rfl⟩
  -- The policy, the hash, the update and the delete change no row that was read, and issue nothing.
  have hpolicy : (validatePassword w tenantId newPassword).Asks Quiet := by
    refine Asks.bind (p := TenantConfigLoader.getPasswordPolicy w tenantId) ?_ fun policy => ?_
    · exact ((asks_query (quiet_kv _)).bind fun _ => asks_ofExcept _).bind fun _ => trivial
    · cases passwordPolicyError w newPassword policy <;> trivial
  refine (keeps_quietly hC hpolicy).bind_ok ?_
  rintro - h₄ - hq₄
  refine (keeps_known_query hC rfl).bind_ok ?_
  rintro found h₅ - rfl
  refine (keeps_okOr_ok _ _).bind_ok ?_
  rintro user h₆ - ⟨rfl, rfl⟩
  have hp₆ := lookup_ok (q := .getById tenantId userId) (r := some user) (hq₄.prologue hp₂) rfl
  refine (checkAccess_ok hC user).bind_ok ?_
  rintro - h₇ - ⟨hq₇, haccess⟩
  have hhash : (hashPassword newPassword).Asks Quiet :=
    ⟨⟨fun _ => ⟨rfl, rfl, rfl⟩, rfl⟩, fun r => by cases r <;> trivial⟩
  refine (keeps_quietly hC hhash).bind_ok ?_
  rintro passwordHash h₈ hsub₈ hq₈
  have hupdate : (IdentitiesRepo.updatePassword user.identityId passwordHash).Asks Quiet :=
    asks_execute ⟨fun _ => ⟨rfl, rfl, rfl⟩, rfl⟩
  refine (keeps_quietly hC hupdate).bind_ok ?_
  rintro - h₉ hsub₉ hq₉
  have hdelete : (ForceChangeTokensRepo.deleteByToken changeToken).Asks Quiet :=
    asks_execute ⟨fun _ => ⟨rfl, rfl, rfl⟩, rfl⟩
  refine (keeps_quietly hC hdelete).bind_ok ?_
  rintro - h₁₀ hsub₁₀ hq₁₀
  have hp₁₀ := ((hq₇.trans hq₈).trans (hq₉.trans hq₁₀)).prologue hp₆
  refine (loadIdentity_ok hC user.identityId).bind_ok ?_
  rintro identity h₁₁ hsub₁₁ rfl
  have hp₁₁ := hp₁₀.push (did (.identities (.getById user.identityId)) (some identity)) rfl
  -- The clock that the access check read is still in the record.
  have hsub : h₇ ⊆ did (.identities (.getById user.identityId)) (some identity) :: h₁₀ :=
    List.Subset.trans (List.Subset.trans hsub₈ hsub₉) (List.Subset.trans hsub₁₀ hsub₁₁)
  refine ⟨hp₁₁, ⟨[], user.identityId, h₁₀, rfl, ?_⟩, fun v hv => ?_⟩
  · rw [hp₁₀.memberships]
    exact List.mem_singleton_self _
  · obtain ⟨t, ht, hlt⟩ := haccess v hv
    exact ⟨t, clocks_mono hsub ht, hlt⟩

/-- A forced password change issues on the access check alone. -/
theorem forceChangePassword_vetted (changeToken newPassword retypePassword : String)
    (ip userAgent : Option String) :
    (forceChangePassword w changeToken newPassword retypePassword ip userAgent).Keeps
      (vetted w (.forceChange changeToken newPassword retypePassword)) (OnOk fun _ _ => True)
      [] := by
  have hC := vetted_of_unissued (w := w) (c := .forceChange changeToken newPassword retypePassword)
  rw [forceChangePassword_eq]
  refine (forceChangePrologue_ok hC changeToken newPassword retypePassword).bind_ok ?_
  rintro ⟨tenantId, user, identity⟩ h - ⟨hp, hchanged⟩
  refine (finalizeLogin_keeps (M := fun h => Rows [user.toRow] [identity] [] h ∧
    ForceChanged user.toRow identity h) hC ?_ user identity ip userAgent ?_
    ⟨hp.toRows, hchanged⟩ hp.unissued).weaken fun _ o _ => by cases o <;> trivial
  · rintro h' e ⟨hrows, hchanged⟩ hs
    exact ⟨hrows.cons hs, hchanged.cons e⟩
  · rintro h' e k ⟨hrows, hchanged⟩ hi hcall hfresh k' tenantId' userId' hi'
    rw [hi] at hi'
    cases hi'
    exact ⟨hfresh, _, _, _, hrows, rfl, hcall, hchanged⟩

end AuthService

/-- **Every login call issues its credentials on their basis**, whatever the replies. -/
theorem LoginCall.run_vetted (w : World) (ip userAgent : Option String) (c : LoginCall) :
    (c.run w ip userAgent).Keeps (AuthService.vetted w c) (fun _ _ => True) [] := by
  suffices hok : (c.run w ip userAgent).Keeps (AuthService.vetted w c) (OnOk fun _ _ => True) []
    from hok.weaken fun _ _ _ => trivial
  cases c with
  | emailPassword tenantId email password =>
    exact AuthService.loginEmailPassword_vetted tenantId email password ip userAgent
  | usernamePassword tenantId username password =>
    exact AuthService.loginUsernamePassword_vetted tenantId username password ip userAgent
  | verifiedOtp tenantId email =>
    exact AuthService.loginWithVerifiedOtp_vetted tenantId email ip userAgent
  | oauth tenantId provider profile allowSignup =>
    exact AuthService.loginOauth_vetted tenantId provider profile allowSignup ip userAgent
  | completeMfa mfaToken code =>
    exact AuthService.completeMfaLogin_vetted mfaToken code ip userAgent
  | forceChange changeToken newPassword retypePassword =>
    exact AuthService.forceChangePassword_vetted changeToken newPassword retypePassword ip
      userAgent
  | selectTenant identityId tenantId =>
    exact AuthService.selectTenant_vetted (c := .selectTenant identityId tenantId) rfl
      (fun _ _ _ _ _ hk => ⟨hk.1, hk.2, by rintro _ ⟨⟩⟩) .nil identityId tenantId ip userAgent
  | selectTenantWithToken identityToken tenantId =>
    exact AuthService.selectTenantWithToken_vetted identityToken tenantId ip userAgent

end Authrs
