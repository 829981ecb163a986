import Authrs.Login.Requests
import Authrs.Login.Challenges
import Authrs.Interaction.Condition

/-!
# Warrants

A client's call reads its identity once and then acts on what it has read, while other calls may
change the row. Each statement that bears on the lock or the second factor is sent on a warrant:
the picture of the identity that the call had, and what the call has checked against it. The
warrant says nothing about the row at the time of the statement.

## Main definitions

* `Snapshot i h`: the identity that the call has read last
* `Matched`, `Confirmed`: a code of the secret in a snapshot
* `Warranted w c h q`: what a call has shown before a weighty request

## Main results

* `ClientCall.run_warranted`: every client's call sends its weighty requests on their warrants
* `clientRun_warranted`, `clientRun_when`: the same for runs, and the invariants that follow
-/

namespace Authrs

open Interaction Program

/-- The identity that a call has read last. -/
def Snapshot (i : Identity) (h : List (Event authrs)) : Prop :=
  (h.filterMap identityOf).head? = some i

/-- `failed_attempts + 1 >= DEFAULT_LOCK_AFTER_ATTEMPTS`, as long as the sum is an `i32`. -/
def lockDue (failedAttempts : Nat) : Bool :=
  failedAttempts < maxInt && DEFAULT_LOCK_AFTER_ATTEMPTS ≤ failedAttempts + 1

/-- The code matches a secret at a step, around an instant that the call has read. -/
def Matched (w : World) (secret : List UInt8) (code : String) (step : Nat)
    (h : List (Event authrs)) : Prop :=
  isTotpCode (normalizeCode w code) = true ∧
    ∃ t ∈ clocks h, matchingStep w secret (normalizeCode w code) (t / 1000000).toNat = some step

/-- A code was found to match the secret of a snapshot. -/
def Confirmed (w : World) (i : Identity) (code : String) (step : Nat) (h : List (Event authrs)) :
    Prop :=
  ∃ enc secret, i.mfaSecret = some enc ∧ MfaService.decodeSecret w enc = .ok secret ∧
    Matched w secret code step h

/-- `verify` ran for the identity and the code, and returned `false`. -/
def Refuted (w : World) (i : Identity) (code : String) (h : List (Event authrs)) : Prop :=
  ∃ newer es older, h = newer ++ (es.reverse ++ older) ∧
    (MfaService.verify w i code).Ran es (.ok false)

/-- The second-factor code that a call has verified. -/
def ClientCall.factor : ClientCall → Option String
  | login _ _ (.completeMfa _ code) => some code
  | mfa _ (.disable code) => some code
  | mfa _ (.backupCodes code) => some code
  | _ => none

/-- **What a call has shown before a weighty request.** -/
def Warranted (w : World) (c : ClientCall) (h : List (Event authrs)) : Request → Prop
  | .sql (.identities (.setPendingSecret id enc)) =>
    ∃ identityId label i encoded older, c = .mfa identityId (.enable label) ∧ Snapshot i h ∧
      i.id = id ∧ i.mfaEnabled = false ∧
      h = ⟨.encrypt encoded, .ok enc⟩ :: ⟨.newTotpSecret, encoded⟩ :: older
  | .sql (.identities (.enable id _)) =>
    ∃ identityId code i step, c = .mfa identityId (.verify code) ∧ Snapshot i h ∧ i.id = id ∧
      i.mfaEnabled = false ∧ Confirmed w i code step h
  | .sql (.identities (.disable id)) =>
    ∃ identityId code i, c = .mfa identityId (.disable code) ∧ Snapshot i h ∧ i.id = id ∧
      i.mfaEnabled = true ∧ Verified w i code h
  | .sql (.identities (.markStepUsed id step)) =>
    ∃ i code, Snapshot i h ∧ i.id = id ∧ Confirmed w i code step h ∧
      (c.factor = some code ∧ i.mfaEnabled = true ∨
        ∃ identityId, c = .mfa identityId (.verify code) ∧ i.mfaEnabled = false)
  | .sql (.identities (.incrementFailedAttempts id lockUntil)) =>
    ∃ i, Snapshot i h ∧ i.id = id ∧ lockUntil.isSome = lockDue i.failedAttempts
  | .sql (.challenges (.incrementAttempts token)) =>
    ∃ ip userAgent code i, c = .login ip userAgent (.completeMfa token code) ∧ Snapshot i h ∧
      Refuted w i code h
  | .sql (.otps _) => False
  | _ => True

/-- The contract of a client's call. -/
def ClientCall.warranted (w : World) (c : ClientCall) : Contract authrs :=
  .ofGuarantee fun h e => Warranted w c h e.request

section

variable {w : World} {c : ClientCall} {h : List (Event authrs)} {i : Identity}

theorem warranted_of_not_weighty {h : List (Event authrs)} {e : Event authrs}
    (he : weighty e.request = false) : (c.warranted w).guarantee h e := by
  obtain ⟨q, r⟩ := e
  change Warranted w c h q
  unfold Warranted
  split <;> trivial

theorem Snapshot.push {e : Event authrs} (hs : Snapshot i h) (he : reveals e.request = false) :
    Snapshot i (e :: h) := by
  unfold Snapshot
  rwa [List.filterMap_cons_none (identityOf_of_not_reveals he)]

theorem Snapshot.read {e : Event authrs} (he : identityOf e = some i) : Snapshot i (e :: h) := by
  unfold Snapshot
  rw [List.filterMap_cons_some he]
  rfl

/-- An identity that a program has read last is one it has read. -/
theorem Snapshot.mem {ι : Type} [DecidableEq ι] {i : Identity} {j : ι} {log : List (Move authrs ι State)}
    (hs : Snapshot i (own j log)) : ∃ m ∈ log, m.who = j ∧ identityOf m.event = some i := by
  obtain ⟨e, he, hi⟩ := List.mem_filterMap.mp (List.mem_of_head? hs)
  obtain ⟨m, hm, hwho, rfl⟩ := mem_own.mp he
  exact ⟨m, hm, hwho, hi⟩

/-- A request that is not weighty. -/
def Light (q : Request) : Prop := weighty q = false

theorem light_query {q : Sql} (hq : weighty (.sql q) = false) : (query q).Asks Light :=
  asks_query hq

theorem light_execute {q : Sql} (hq : weighty (.sql q) = false) : (execute q).Asks Light :=
  asks_execute hq

/-- A part whose requests bear on nothing. -/
theorem keeps_light {α : Type} {p : Service α} (hp : p.Asks Light) :
    p.Keeps (c.warranted w) (OnOk fun _ _ => True) h :=
  (hp.keeps fun _ _ he => warranted_of_not_weighty he).weaken fun _ o _ => by cases o <;> trivial

theorem light_of_steady (q : Request) (hq : steady q = true) : Light q := by
  simp only [steady, Bool.and_eq_true, Bool.not_eq_true'] at hq
  exact hq.2

theorem light_of_ordinary {q : Request} (hq : ordinary q = true) : Light q :=
  light_of_steady q (steady_of_ordinary hq)

theorem Confirmed.push {code : String} {step : Nat} {e : Event authrs}
    (hc : Confirmed w i code step h) : Confirmed w i code step (e :: h) := by
  obtain ⟨enc, secret, henc, hdecode, htotp, t, ht, hstep⟩ := hc
  exact ⟨enc, secret, henc, hdecode, htotp, t, List.mem_cons_of_mem _ ht, hstep⟩

/-- A steady part keeps what the call has read, and what it has shown. -/
theorem keeps_steady {α : Type} {p : Service α} (hp : p.Asks fun q => steady q = true)
    (hs : Snapshot i h) :
    p.Keeps (c.warranted w) (OnOk fun _ h' => Snapshot i h' ∧ h ⊆ h') h := by
  refine (hp.keeps_inv (M := fun h' => Snapshot i h' ∧ h ⊆ h') ?_ ⟨hs, List.Subset.refl _⟩).onOk
  rintro h' e ⟨hs', hsub⟩ hq
  simp only [steady, Bool.and_eq_true, Bool.not_eq_true'] at hq
  exact ⟨warranted_of_not_weighty hq.2, hs'.push hq.1, List.subset_cons_of_subset _ hsub⟩

theorem keeps_ordinary {α : Type} {p : Service α} (hp : p.Asks fun q => ordinary q = true)
    (hs : Snapshot i h) :
    p.Keeps (c.warranted w) (OnOk fun _ h' => Snapshot i h' ∧ h ⊆ h') h :=
  keeps_steady (hp.mono fun _ hq => steady_of_ordinary hq) hs

end

namespace AuthService

variable {w : World} {c : ClientCall} {h : List (Event authrs)} {identity : Identity}

/-- Loading an identity shows it. -/
theorem loadIdentity_shown (identityId : Uuid) :
    (loadIdentity identityId).Keeps (c.warranted w) (OnOk fun i h' => Snapshot i h' ∧
      h' = did (.identities (.getById identityId)) (some i) :: h) h := by
  refine (keeps_query_ok fun e he => warranted_of_not_weighty (he ▸ rfl)).bind_ok ?_
  rintro found h₁ - rfl
  refine (keeps_okOr_ok _ _).weaken_ok ?_
  rintro i h₂ - ⟨rfl, rfl⟩
  exact ⟨.read rfl, rfl⟩

/-- **A failed attempt** carries a lock exactly when the snapshot says that one is due. -/
theorem registerFailedAttempt_warranted (hs : Snapshot identity h) :
    (registerFailedAttempt w identity).Keeps (c.warranted w) (OnOk fun _ _ => True) h := by
  have hincrement : ∀ lockUntil h', Snapshot identity h' →
      lockUntil.isSome = lockDue identity.failedAttempts →
      (IdentitiesRepo.incrementFailedAttempts identity.id lockUntil).Keeps (c.warranted w)
        (OnOk fun _ _ => True) h' := by
    intro lockUntil h' hs' hlock
    refine (keeps_execute_ok fun e he => ?_).weaken_ok fun _ _ _ _ => trivial
    change Warranted w c h' e.request
    rw [he]
    exact ⟨identity, hs', rfl, hlock⟩
  have hreached : (lockReached w identity.failedAttempts).Keeps (c.warranted w)
      (OnOk fun reached h' => h' = h ∧ reached = lockDue identity.failedAttempts) h := by
    unfold lockReached lockDue
    split
    · rename_i hlt
      exact ⟨rfl, by simp [hlt]⟩
    · rename_i hge
      split
      · trivial
      · exact ⟨rfl, by simp [hge]⟩
  refine hreached.bind_ok ?_
  rintro reached h₁ - ⟨rfl, hdue⟩
  cases reached with
  | false => exact hincrement none _ hs hdue
  | true =>
    refine (keeps_utcNow_ok fun e he => warranted_of_not_weighty (he ▸ rfl)).bind_ok ?_
    rintro now h₂ - rfl
    exact hincrement _ _ (hs.push rfl) hdue

theorem checkPassword_warranted (hs : Snapshot identity h) (password message : String) :
    (checkPassword w identity password message).Keeps (c.warranted w)
      (OnOk fun _ h' => Snapshot identity h') h := by
  refine (keeps_okOr_ok _ _).bind_ok ?_
  rintro passwordHash h₁ - ⟨-, rfl⟩
  refine (keeps_ofExcept_ok _).bind_ok ?_
  rintro correct h₂ - ⟨-, rfl⟩
  cases correct with
  | true => exact hs
  | false => exact (registerFailedAttempt_warranted hs).bind_ok fun _ _ _ _ => trivial

theorem finalizeLogin_steady (tenantId : String) (user : User) (identity : Identity)
    (ip userAgent : Option String) :
    (finalizeLogin w tenantId user identity ip userAgent).Asks fun q => steady q = true :=
  finalizeLogin_asks (fun _ => steady_of_ordinary) (fun _ _ => rfl) (fun _ _ _ _ => rfl)
    (fun _ _ _ _ => rfl) w tenantId user identity ip userAgent

theorem doPasswordLogin_warranted (tenantId : String) (user : User) (password : String)
    (ip userAgent : Option String) (method : Int) :
    (doPasswordLogin w tenantId user password ip userAgent method).Keeps (c.warranted w)
      (OnOk fun _ _ => True) h := by
  refine (loadIdentity_shown user.identityId).bind_ok ?_
  rintro identity h₁ - ⟨hs₁, -⟩
  refine (keeps_ordinary (checkGates_asks (fun _ => id) user identity) hs₁).bind_ok ?_
  rintro - h₂ - ⟨hs₂, -⟩
  refine (keeps_ordinary (effectiveLoginMethods_asks (fun _ => id) w tenantId user) hs₂).bind_ok ?_
  rintro effective h₃ - ⟨hs₃, -⟩
  refine (keeps_ensure_ok _ _).bind_ok ?_
  rintro - h₄ - ⟨-, rfl⟩
  refine (checkPassword_warranted hs₃ password _).bind_ok ?_
  rintro - h₅ - hs₅
  refine (keeps_ordinary (clearFailedAttempts_asks (fun _ => id) identity.id) hs₅).bind_ok ?_
  rintro - h₆ - ⟨hs₆, -⟩
  exact (keeps_steady (finalizeLogin_steady tenantId user identity ip userAgent) hs₆).weaken_ok
    fun _ _ _ _ => trivial

/-- The TOTP branch marks the step it has matched. -/
theorem verifyTotp_warranted {code : String} (hs : Snapshot identity h)
    (hc : c.factor = some code) (hmfa : identity.mfaEnabled = true)
    (htotp : isTotpCode (normalizeCode w code) = true) :
    (MfaService.verifyTotp w identity (normalizeCode w code)).Keeps (c.warranted w)
      (OnOk fun _ h' => Snapshot identity h') h := by
  unfold MfaService.verifyTotp MfaService.decryptSecret
  cases henc : identity.mfaSecret with
  | none => exact hs
  | some enc =>
    refine (keeps_ofExcept_ok _).bind_ok ?_
    rintro secret h₁ - ⟨hsecret, rfl⟩
    cases hdecode : MfaService.decodeSecret w enc with
    | error e =>
      rw [hdecode] at hsecret
      cases hsecret
    | ok bytes =>
      rw [hdecode] at hsecret
      cases hsecret
      have hnow : MfaService.now.Keeps (c.warranted w)
          (OnOk fun now h' => ∃ t, now = (t / 1000000).toNat ∧ h' = ⟨.clock, t⟩ :: h₁) h₁ := by
        refine (keeps_utcNow_ok fun e he => warranted_of_not_weighty (he ▸ rfl)).bind_ok ?_
        rintro t h₂ - rfl
        exact ⟨t, rfl, rfl⟩
      refine hnow.bind_ok ?_
      rintro now h₂ - ⟨t, rfl, rfl⟩
      have hs₂ : Snapshot identity (⟨.clock, t⟩ :: h₁) := hs.push rfl
      cases hstep : matchingStep w bytes (normalizeCode w code) (t / 1000000).toNat with
      | none => exact hs₂
      | some step =>
        have hconfirmed : Confirmed w identity code step (⟨.clock, t⟩ :: h₁) :=
          ⟨enc, bytes, henc, hdecode, htotp, t, List.mem_cons_self, hstep⟩
        refine (keeps_query_ok fun e he => ?_).bind_ok ?_
        · change Warranted w c _ e.request
          rw [he]
          exact ⟨identity, code, hs₂, rfl, hconfirmed, .inl ⟨hc, hmfa⟩⟩
        · rintro touched h₃ - rfl
          exact hs₂.push (e := did (.identities (.markStepUsed identity.id step)) touched) rfl

/-- **`verify`** marks steps on a warrant, and leaves its run in the history. -/
theorem verify_warranted {code : String} (hs : Snapshot identity h)
    (hc : c.factor = some code) :
    (MfaService.verify w identity code).Keeps (c.warranted w) (OnOk fun valid h' =>
      Snapshot identity h' ∧ (valid = true → Verified w identity code h') ∧
        (valid = false → Refuted w identity code h')) h := by
  have hkeeps : (MfaService.verify w identity code).Keeps (c.warranted w)
      (OnOk fun _ h' => Snapshot identity h') h := by
    unfold MfaService.verify
    split
    · rename_i hmfa
      simp only
      split
      · rename_i htotp
        exact verifyTotp_warranted hs hc hmfa htotp
      · split
        · exact hs
        · refine (keeps_query_ok fun e he => warranted_of_not_weighty (he ▸ rfl)).bind_ok ?_
          rintro touched h₁ - rfl
          exact hs.push (e := did (.identities (.consumeBackupCode identity.id _)) touched) rfl
    · exact hs
  refine hkeeps.ran.weaken ?_
  rintro h' (e | valid) ⟨hs', es, rfl, hran⟩
  · trivial
  · refine ⟨hs', fun hv => ⟨[], es, h, rfl, ?_⟩, fun hv => ⟨[], es, h, rfl, ?_⟩⟩
    · rwa [hv] at hran
    · rwa [hv] at hran

theorem checkSecondFactor_warranted {ip userAgent : Option String} {mfaToken code : String}
    (hc : c = .login ip userAgent (.completeMfa mfaToken code)) (hs : Snapshot identity h) :
    (checkSecondFactor w mfaToken identity code).Keeps (c.warranted w)
      (OnOk fun _ h' => Snapshot identity h') h := by
  refine (verify_warranted hs (show c.factor = some code by rw [hc]; rfl)).bind_ok ?_
  rintro valid h₁ - ⟨hs₁, -, hrefuted⟩
  cases valid with
  | true => exact hs₁
  | false =>
    refine (keeps_execute_ok fun e he => ?_).bind_ok ?_
    · change Warranted w c _ e.request
      rw [he]
      exact ⟨ip, userAgent, code, identity, hc, hs₁, hrefuted rfl⟩
    · rintro - h₂ - ⟨r, rfl⟩
      refine (registerFailedAttempt_warranted ?_).bind_ok fun _ _ _ _ => trivial
      exact hs₁.push rfl

theorem completeMfaLogin_warranted (mfaToken code : String) (ip userAgent : Option String) :
    (completeMfaLogin w mfaToken code ip userAgent).Keeps
      ((ClientCall.login ip userAgent (.completeMfa mfaToken code)).warranted w)
      (OnOk fun _ _ => True) h := by
  refine (keeps_light (light_query rfl)).bind_ok ?_
  rintro found h₁ - -
  refine (keeps_okOr_ok _ _).bind_ok ?_
  rintro challenge h₂ - ⟨-, rfl⟩
  have hrefuse : (refuseExhausted mfaToken challenge).Asks Light := by
    unfold refuseExhausted
    split
    · refine Asks.bind (p := MfaRepo.deleteChallenge mfaToken) ?_ fun _ => trivial
      exact (light_query rfl).bind fun _ => trivial
    · trivial
  refine (keeps_light hrefuse).bind_ok ?_
  rintro - h₃ - -
  refine (keeps_light (light_query rfl)).bind_ok ?_
  rintro found h₄ - -
  refine (keeps_okOr_ok _ _).bind_ok ?_
  rintro user h₅ - ⟨-, rfl⟩
  refine (loadIdentity_shown user.identityId).bind_ok ?_
  rintro identity h₆ - ⟨hs₆, -⟩
  refine (keeps_ordinary (checkGates_asks (fun _ => id) user identity) hs₆).bind_ok ?_
  rintro - h₇ - ⟨hs₇, -⟩
  refine (checkSecondFactor_warranted rfl hs₇).bind_ok ?_
  rintro - h₈ - hs₈
  have hdelete : (MfaRepo.deleteChallenge mfaToken).Asks Light :=
    (light_query rfl).bind fun _ => trivial
  refine (keeps_light hdelete).bind_ok ?_
  rintro redeemed h₉ - -
  refine (keeps_ensure_ok _ _).bind_ok ?_
  rintro - h₁₀ - ⟨-, rfl⟩
  refine keeps_light ((clearFailedAttempts_asks (fun _ => light_of_ordinary) identity.id).bind
    fun _ => ?_)
  exact doCreateSession_asks (fun _ => light_of_ordinary) w challenge.tenantId user ip userAgent

theorem loginIdentity_warranted (email password : String) :
    (loginIdentity w email password).Keeps (c.warranted w) (OnOk fun _ _ => True) h := by
  refine (keeps_query_ok fun e he => warranted_of_not_weighty (he ▸ rfl)).bind_ok ?_
  rintro found h₁ - rfl
  refine (keeps_okOr_ok _ _).bind_ok ?_
  rintro identity h₂ - ⟨rfl, rfl⟩
  have hs₂ : Snapshot identity (did (.identities (.getByEmail (trim email))) (some identity) :: h) :=
    .read rfl
  refine (keeps_ensure_ok _ _).bind_ok ?_
  rintro - h₃ - ⟨-, rfl⟩
  refine (keeps_ordinary (checkLock_asks (fun _ => id) identity) hs₂).bind_ok ?_
  rintro - h₄ - ⟨hs₄, -⟩
  refine (checkPassword_warranted hs₄ password _).bind_ok ?_
  rintro - h₅ - hs₅
  refine keeps_light ((clearFailedAttempts_asks (fun _ => light_of_ordinary) identity.id).bind
    fun _ => ?_)
  refine ⟨rfl, fun token => ⟨rfl, fun now => ?_⟩⟩
  refine Asks.bind (p := IdentityTokensRepo.create identity.id token _) (light_execute rfl)
    fun _ => ?_
  exact Asks.bind (p := tenantsForIdentity identity.id) ((light_query rfl).bind fun _ => trivial)
    fun _ => trivial

/-- Sign-in with an identity provider bears on no lock and no second factor. -/
theorem loginOauth_light (tenantId provider : String) (profile : OauthProfile)
    (allowSignup : Bool) (ip userAgent : Option String) :
    (loginOauth w tenantId provider profile allowSignup ip userAgent).Asks Light := by
  have hload : ∀ id, (loadIdentity id).Asks Light :=
    fun id => (light_query rfl).bind fun _ => asks_okOr _ _
  have hcreate : (createOauthIdentity profile allowSignup).Asks Light := by
    refine Asks.bind (p := refuseUnverifiedCollision profile.unverifiedEmail) ?_ fun _ => ?_
    · cases profile.unverifiedEmail with
      | none => trivial
      | some e => exact (light_query rfl).bind fun _ => asks_ensure _ _
    · exact (asks_ensure _ _).bind fun _ => light_query rfl
  have hlink : (identityToLink profile allowSignup).Asks Light := by
    refine Asks.bind (p := identityOfVerifiedEmail profile.verifiedEmail) ?_ fun existing => ?_
    · cases profile.verifiedEmail with
      | none => trivial
      | some e => exact light_query rfl
    · cases existing with
      | none => exact hcreate
      | some i => trivial
  have hresolve : (resolveOauthIdentity provider profile allowSignup).Asks Light := by
    refine (light_query rfl).bind fun linked => ?_
    cases linked with
    | some identityId => exact hload identityId
    | none => exact hlink.bind fun identity => (light_execute rfl).bind fun _ => trivial
  have hmember : ∀ identity, (ensureMembership identity tenantId allowSignup).Asks Light := by
    intro identity
    refine (light_query rfl).bind fun membership => ?_
    cases membership with
    | some u => trivial
    | none =>
      cases allowSignup with
      | false => trivial
      | true => exact createMembership_asks (fun _ => light_of_ordinary) identity tenantId none
  refine (checkOauthDomain_asks (fun _ => light_of_ordinary) w tenantId _).bind fun _ => ?_
  refine hresolve.bind fun identity => (asks_ensure _ _).bind fun _ => ?_
  refine (hmember identity).bind fun user => ?_
  refine (checkGates_asks (fun _ => light_of_ordinary) user identity).bind fun _ => ?_
  refine (effectiveLoginMethods_asks (fun _ => light_of_ordinary) w tenantId user).bind fun _ => ?_
  refine (asks_ensure _ _).bind fun _ => ?_
  exact (finalizeLogin_steady tenantId user identity ip userAgent).mono light_of_steady

theorem selectTenant_light (identityId : Uuid) (tenantId : String)
    (ip userAgent : Option String) :
    (selectTenant w identityId tenantId ip userAgent).Asks Light := by
  refine (light_query rfl).bind fun found => (asks_okOr _ _).bind fun user => ?_
  refine Asks.bind (p := loadIdentity identityId) ((light_query rfl).bind fun _ => asks_okOr _ _)
    fun identity => ?_
  refine (checkGates_asks (fun _ => light_of_ordinary) user identity).bind fun _ => ?_
  exact (finalizeLogin_steady tenantId user identity ip userAgent).mono light_of_steady

theorem loginWithVerifiedOtp_light (tenantId email : String) (ip userAgent : Option String) :
    (loginWithVerifiedOtp w tenantId email ip userAgent).Asks Light := by
  refine (light_query rfl).bind fun found => (asks_okOr _ _).bind fun user => ?_
  refine Asks.bind (p := loadIdentity user.identityId)
    ((light_query rfl).bind fun _ => asks_okOr _ _) fun identity => ?_
  refine (checkGates_asks (fun _ => light_of_ordinary) user identity).bind fun _ => ?_
  refine (effectiveLoginMethods_asks (fun _ => light_of_ordinary) w tenantId user).bind fun _ => ?_
  refine (asks_ensure _ _).bind fun _ => ?_
  exact (finalizeLogin_steady tenantId user identity ip userAgent).mono light_of_steady

theorem forceChangePassword_light (changeToken newPassword retypePassword : String)
    (ip userAgent : Option String) :
    (forceChangePassword w changeToken newPassword retypePassword ip userAgent).Asks Light := by
  refine (light_query rfl).bind fun found => (asks_okOr _ _).bind fun ⟨tenantId, userId⟩ => ?_
  refine (asks_ensure _ _).bind fun _ => ?_
  refine (validatePassword_asks (fun _ => light_of_ordinary) w tenantId newPassword).bind
    fun _ => ?_
  refine (light_query rfl).bind fun found => (asks_okOr _ _).bind fun user => ?_
  refine (checkAccess_asks (fun _ => light_of_ordinary) user).bind fun _ => ?_
  refine (hashPassword_asks (fun _ => light_of_ordinary) newPassword).bind fun passwordHash => ?_
  refine Asks.bind (p := IdentitiesRepo.updatePassword user.identityId passwordHash)
    (light_execute rfl) fun _ => ?_
  refine Asks.bind (p := ForceChangeTokensRepo.deleteByToken changeToken) (light_execute rfl)
    fun _ => ?_
  refine Asks.bind (p := loadIdentity user.identityId)
    ((light_query rfl).bind fun _ => asks_okOr _ _) fun identity => ?_
  exact (finalizeLogin_steady tenantId user identity ip userAgent).mono light_of_steady

end AuthService

namespace MfaService

variable {w : World} {c : ClientCall} {h : List (Event authrs)} {identity : Identity}

theorem beginEnrollment_warranted {identityId : Uuid} {label : String}
    (hc : c = .mfa identityId (.enable label)) (hs : Snapshot identity h) :
    (beginEnrollment w identity label).Keeps (c.warranted w) (OnOk fun _ _ => True) h := by
  refine (keeps_ensure_ok _ _).bind_ok ?_
  rintro - h₁ - ⟨hmfa, rfl⟩
  intro encoded _
  refine ⟨warranted_of_not_weighty rfl, fun encrypted _ => ⟨warranted_of_not_weighty rfl, ?_⟩⟩
  refine (keeps_ofExcept_ok _).bind_ok ?_
  rintro enc h₂ - ⟨henc, rfl⟩
  cases encrypted with
  | error e => cases henc
  | ok enc' =>
    cases henc
    refine (keeps_execute_ok fun e he => ?_).bind_ok fun _ _ _ _ => trivial
    change Warranted w c _ e.request
    rw [he]
    exact ⟨identityId, label, identity, encoded, _, hc, (hs.push rfl).push rfl, rfl, hmfa, rfl⟩

theorem confirmEnrollment_warranted {identityId : Uuid} {code : String}
    (hc : c = .mfa identityId (.verify code)) (hs : Snapshot identity h) :
    (confirmEnrollment w identity code).Keeps (c.warranted w) (OnOk fun _ _ => True) h := by
  refine (keeps_ensure_ok _ _).bind_ok ?_
  rintro - h₁ - ⟨hmfa, rfl⟩
  -- The secret comes from the identity that was read, so it is the one that the code is compared with.
  have hdecrypt : (decryptSecret w identity).Keeps (c.warranted w) (OnOk fun o h' => h' = h₁ ∧
      ∀ secret, o = some secret →
        ∃ enc, identity.mfaSecret = some enc ∧ decodeSecret w enc = .ok secret) h₁ := by
    unfold decryptSecret
    cases identity.mfaSecret with
    | none => exact ⟨rfl, by simp⟩
    | some enc =>
      refine (keeps_ofExcept_ok _).weaken_ok ?_
      rintro o h₂ - ⟨ho, rfl⟩
      cases hdecode : decodeSecret w enc with
      | error e =>
        rw [hdecode] at ho
        cases ho
      | ok secret =>
        rw [hdecode] at ho
        cases ho
        refine ⟨rfl, ?_⟩
        rintro _ ⟨⟩
        exact ⟨enc, rfl, hdecode⟩
  refine hdecrypt.bind_ok ?_
  rintro found h₂ - ⟨rfl, hfound⟩
  refine (keeps_okOr_ok _ _).bind_ok ?_
  rintro secret h₃ - ⟨rfl, rfl⟩
  obtain ⟨enc, henc, hdecode⟩ := hfound secret rfl
  -- Only a matching code gives a step.
  have hstep : (confirmedStep w secret (normalizeCode w code)).Keeps (c.warranted w)
      (OnOk fun o h' => Snapshot identity h' ∧
        ∀ step, o = some step → Matched w secret code step h') h₃ := by
    unfold confirmedStep
    split
    · rename_i htotp
      refine Keeps.bind_ok (p := MfaService.now) (N := fun now h' => ∃ t,
        now = (t / 1000000).toNat ∧ h' = ⟨.clock, t⟩ :: h₃) ?_ ?_
      · refine (keeps_utcNow_ok fun e he => warranted_of_not_weighty (he ▸ rfl)).bind_ok ?_
        rintro t h₄ - rfl
        exact ⟨t, rfl, rfl⟩
      · rintro now h₄ - ⟨t, rfl, rfl⟩
        exact ⟨hs.push rfl, fun step ho => ⟨htotp, t, List.mem_cons_self, ho⟩⟩
    · exact ⟨hs, by simp⟩
  refine hstep.bind_ok ?_
  rintro found h₄ - ⟨hs₄, hmatched⟩
  refine (keeps_okOr_ok _ _).bind_ok ?_
  rintro step h₅ - ⟨rfl, rfl⟩
  have hconfirmed : Confirmed w identity code step h₅ :=
    ⟨enc, secret, henc, hdecode, hmatched step rfl⟩
  -- The step is marked before anything is switched on, for the same identity.
  have hmark : (MfaRepo.markStepUsed identity.id step).Keeps (c.warranted w)
      (OnOk fun _ h' => Snapshot identity h' ∧ Confirmed w identity code step h') h₅ := by
    refine (keeps_query_ok fun e he => ?_).bind_ok ?_
    · change Warranted w c _ e.request
      rw [he]
      exact ⟨identity, code, hs₄, rfl, hconfirmed, .inr ⟨identityId, hc, hmfa⟩⟩
    · rintro touched h₆ - rfl
      exact ⟨hs₄.push rfl, hconfirmed.push⟩
  refine hmark.bind_ok ?_
  rintro - h₆ - ⟨hs₆, hconfirmed₆⟩
  -- The backup codes are drawn, and the last statement switches the factor on.
  intro codes _
  refine ⟨warranted_of_not_weighty rfl, ?_⟩
  refine (keeps_execute_ok fun e he => ?_).bind_ok fun _ _ _ _ => trivial
  change Warranted w c _ e.request
  rw [he]
  exact ⟨identityId, code, identity, step, hc, hs₆.push rfl, rfl, hmfa, hconfirmed₆.push⟩

theorem requireValidCode_warranted {code : String} (hc : c.factor = some code)
    (hs : Snapshot identity h) :
    (requireValidCode w identity code).Keeps (c.warranted w)
      (OnOk fun _ h' => Snapshot identity h' ∧ identity.mfaEnabled = true ∧
        Verified w identity code h') h := by
  refine (keeps_ensure_ok _ _).bind_ok ?_
  rintro - h₁ - ⟨hmfa, rfl⟩
  refine (AuthService.verify_warranted hs hc).bind_ok ?_
  rintro valid h₂ - ⟨hs₂, hverified, -⟩
  refine (keeps_ensure_ok _ _).weaken_ok ?_
  rintro - h₃ - ⟨hvalid, rfl⟩
  exact ⟨hs₂, hmfa, hverified hvalid⟩

theorem disable_warranted {identityId : Uuid} {code : String}
    (hc : c = .mfa identityId (.disable code)) (hs : Snapshot identity h) :
    (disable w identity code).Keeps (c.warranted w) (OnOk fun _ _ => True) h := by
  refine (requireValidCode_warranted (by rw [hc]; rfl) hs).bind_ok ?_
  rintro - h₁ - ⟨hs₁, hmfa, hverified⟩
  refine (keeps_execute_ok fun e he => ?_).weaken_ok fun _ _ _ _ => trivial
  change Warranted w c _ e.request
  rw [he]
  exact ⟨identityId, code, identity, hc, hs₁, rfl, hmfa, hverified⟩

theorem regenerateBackupCodes_warranted {identityId : Uuid} {code : String}
    (hc : c = .mfa identityId (.backupCodes code)) (hs : Snapshot identity h) :
    (regenerateBackupCodes w identity code).Keeps (c.warranted w) (OnOk fun _ _ => True) h := by
  refine (requireValidCode_warranted (by rw [hc]; rfl) hs).bind_ok ?_
  rintro - h₁ - -
  refine keeps_light ⟨rfl, fun codes => ?_⟩
  exact (light_execute rfl).bind fun _ => trivial

end MfaService

/-- **Every client's call sends its weighty requests on their warrants**, whatever the replies. -/
theorem ClientCall.run_warranted (w : World) (c : ClientCall) :
    (c.run w).Keeps (c.warranted w) (fun _ _ => True) [] := by
  suffices hok : (c.run w).Keeps (c.warranted w) (OnOk fun _ _ => True) []
    from hok.weaken fun _ _ _ => trivial
  cases c with
  | login ip userAgent c =>
    -- Where the first factor is a password, the call has compared it; the other logins make light requests.
    have hlogin : ∀ {p : Service LoginResult},
        p.Keeps ((ClientCall.login ip userAgent c).warranted w) (OnOk fun _ _ => True) [] →
        (p.bind fun _ => (Program.pure () : Service Unit)).Keeps
          ((ClientCall.login ip userAgent c).warranted w) (OnOk fun _ _ => True) [] :=
      fun hp => hp.bind_ok fun _ _ _ _ => trivial
    refine hlogin ?_
    cases c with
    | emailPassword tenantId email password =>
      refine (keeps_light (AuthService.ensureEmailDomainAllowed_asks
        (fun _ => light_of_ordinary) w tenantId email)).bind_ok ?_
      rintro - h₁ - -
      refine (keeps_light (light_query rfl)).bind_ok ?_
      rintro found h₂ - -
      refine (keeps_okOr_ok _ _).bind_ok ?_
      rintro user h₃ - -
      exact AuthService.doPasswordLogin_warranted tenantId user password ip userAgent _
    | usernamePassword tenantId username password =>
      refine (keeps_light (light_query rfl)).bind_ok ?_
      rintro found h₁ - -
      refine (keeps_okOr_ok _ _).bind_ok ?_
      rintro user h₂ - -
      exact AuthService.doPasswordLogin_warranted tenantId user password ip userAgent _
    | verifiedOtp tenantId email =>
      exact keeps_light (AuthService.loginWithVerifiedOtp_light tenantId email ip userAgent)
    | oauth tenantId provider profile allowSignup =>
      exact keeps_light (AuthService.loginOauth_light tenantId provider profile allowSignup ip
        userAgent)
    | completeMfa mfaToken code =>
      exact AuthService.completeMfaLogin_warranted mfaToken code ip userAgent
    | forceChange changeToken newPassword retypePassword =>
      exact keeps_light (AuthService.forceChangePassword_light changeToken newPassword
        retypePassword ip userAgent)
    | selectTenant identityId tenantId =>
      exact keeps_light (AuthService.selectTenant_light identityId tenantId ip userAgent)
    | selectTenantWithToken identityToken tenantId =>
      refine keeps_light ((light_query rfl).bind fun found => (asks_okOr _ _).bind fun id => ?_)
      exact AuthService.selectTenant_light id tenantId ip userAgent
  | identityLogin email password =>
    exact (AuthService.loginIdentity_warranted email password).bind_ok fun _ _ _ _ => trivial
  | mfa identityId c =>
    refine (keeps_query_ok fun e he => warranted_of_not_weighty (he ▸ rfl)).bind_ok ?_
    rintro found h₁ - rfl
    refine (keeps_okOr_ok _ _).bind_ok ?_
    rintro identity h₂ - ⟨rfl, rfl⟩
    -- The service goes by the identity that the route has read.
    have hs : Snapshot identity [did (.identities (.getById identityId)) (some identity)] :=
      .read rfl
    cases c with
    | status =>
      refine keeps_light (Asks.bind (p := MfaService.backupCodesRemaining identity) ?_
        fun _ => trivial)
      unfold MfaService.backupCodesRemaining
      split
      · exact light_query rfl
      · trivial
    | enable label =>
      exact (MfaService.beginEnrollment_warranted rfl hs).bind_ok fun _ _ _ _ => trivial
    | verify code =>
      exact (MfaService.confirmEnrollment_warranted rfl hs).bind_ok fun _ _ _ _ => trivial
    | disable code => exact MfaService.disable_warranted rfl hs
    | backupCodes code =>
      exact (MfaService.regenerateBackupCodes_warranted rfl hs).bind_ok fun _ _ _ _ => trivial

/-! ### Runs -/

section Runs

variable {ι : Type} [DecidableEq ι] {w : World} {s : State} {call : ι → ClientCall}

/-- Every weighty request of a run is warranted. -/
theorem clientRun_warranted {l : List (ι ⊕ Nat)} {newer older : List (Move authrs ι State)}
    {m : Move authrs ι State} (hlog : (clientRun w s call l).log = newer ++ m :: older) :
    Warranted w (call m.who) (own m.who older) m.event.request :=
  Config.run_guaranteed (C := fun j => (call j).warranted w) (fun j => (call j).run_warranted w)
    (fun _ _ _ => trivial) l newer m older hlog

/-- **Invariants of the runs of clients whose moves meet a condition.** -/
theorem clientRun_when {P : List (Move authrs ι State) → Move authrs ι State → Prop}
    {J : State → List (Move authrs ι State) → Prop} (h0 : J s [])
    (hmove : ∀ s log j q, J s log → Warranted w (call j) (own j log) q →
      P log ⟨j, ⟨q, (handle w q s).1⟩, s⟩ →
      J (handle w q s).2 (⟨j, ⟨q, (handle w q s).1⟩, s⟩ :: log))
    (htick : ∀ s log d, J s log → J (s.tick d) log) (l : List (ι ⊕ Nat))
    (hP : EachMove P (clientRun w s call l).log) :
    J (clientRun w s call l).state (clientRun w s call l).log ∧
      EachMove (fun older m => J (m.after (handle w)) (m :: older)) (clientRun w s call l).log := by
  refine Config.run_when (C := fun j => (call j).warranted w)
    (fun j => (call j).run_warranted w) (fun _ _ _ => trivial) h0 ?_ htick l hP
  intro s log j q hJ hg hm
  exact hmove s log j q hJ (hg [] _ log rfl) hm

end Runs

end Authrs
