import Authrs.Login.PendingChange
import Authrs.Login.SecondFactor

/-!
# Sessions while a password change is pending

The tail of a login gives no session to an identity that has to change its password. The second
step of an MFA login does not pass through it: it reads the identity again and creates the session
whatever the row says by then. So a change that is demanded between the two steps does not keep the
session from being minted. No session is minted under a demand in the runs in which a challenge is
redeemed only by calls that have read none.

## Main definitions

* `mints`: an exchange stores a session
* `UnforcedSession`: a session is minted by a call that has read no demand
* `RedeemsUnforced`: a challenge is redeemed by a call that has read no demand

## Main results

* `CredentialCall.run_issues`: only the login calls issue anything
* `run_sessionsUnforced`: no session under a demand, in the runs that meet the condition
* `demandBetween_minted`: a demand between the two steps of a login
-/

namespace Authrs

open Interaction Program

/-- The exchange stores a session. -/
def mints : Event authrs → Bool
  | ⟨.sql (.sessions (.insert ..)), .ok _⟩ => true
  | ⟨.redis (.setEx ..), .ok _⟩ => true
  | _ => false

theorem issued_of_mints {e : Event authrs} (h : mints e = true) :
    ∃ tenantId userId, issued e.request = some (.session, tenantId, userId) := by
  unfold mints at h
  split at h
  · exact ⟨_, _, rfl⟩
  · exact ⟨_, _, rfl⟩
  · cases h

/-! ### The calls -/

namespace AuthService

variable (w : World)

theorem validatePassword_unissuing (tenantId password : String) :
    (validatePassword w tenantId password).Asks Unissuing := by
  have hget : (TenantConfigLoader.getPasswordPolicy w tenantId).Asks Unissuing :=
    ((unissuing_query rfl).bind fun _ => asks_ofExcept _).bind fun _ => trivial
  refine hget.bind fun policy => ?_
  cases passwordPolicyError w password policy <;> trivial

theorem hashPassword_unissuing (password : String) : (hashPassword password).Asks Unissuing :=
  ⟨rfl, fun _ => asks_ofExcept _⟩

theorem loadIdentity_unissuing (identityId : Uuid) : (loadIdentity identityId).Asks Unissuing :=
  (unissuing_query rfl).bind fun _ => asks_okOr _ _

theorem forgotPassword_unissuing (email : String) : (forgotPassword w email).Asks Unissuing := by
  refine (asks_ensure _ _).bind fun _ => (unissuing_query rfl).bind fun found => ?_
  split
  · trivial
  · refine (unissuing_execute rfl).bind fun _ => ⟨rfl, fun token => ⟨rfl, fun now => ?_⟩⟩
    exact (unissuing_execute rfl).bind fun _ => trivial

theorem resetPassword_unissuing (tenantId token newPassword retypePassword : String) :
    (resetPassword w tenantId token newPassword retypePassword).Asks Unissuing := by
  refine (asks_ensure _ _).bind fun _ => (asks_ensure _ _).bind fun _ => ?_
  refine (validatePassword_unissuing w tenantId newPassword).bind fun _ => ?_
  refine Asks.bind (p := PasswordResetTokensRepo.getValid _) ⟨rfl, fun _ => unissuing_query rfl⟩
    fun _ => (asks_okOr _ _).bind fun identityId => ?_
  refine (hashPassword_unissuing newPassword).bind fun passwordHash => ?_
  exact (unissuing_execute rfl).bind fun _ => unissuing_execute rfl

theorem changePassword_unissuing (tenantId : String) (userId : Uuid)
    (currentPassword newPassword retypePassword : String) :
    (changePassword w tenantId userId currentPassword newPassword retypePassword).Asks
      Unissuing := by
  refine (asks_ensure _ _).bind fun _ => ?_
  refine (validatePassword_unissuing w tenantId newPassword).bind fun _ => ?_
  refine (unissuing_query rfl).bind fun _ => (asks_okOr _ _).bind fun user => ?_
  refine (loadIdentity_unissuing user.identityId).bind fun identity => ?_
  refine (asks_okOr _ _).bind fun passwordHash => (asks_ofExcept _).bind fun correct => ?_
  refine (asks_ensure _ _).bind fun _ => (hashPassword_unissuing newPassword).bind fun newHash => ?_
  exact unissuing_execute rfl

theorem adminResetPassword_unissuing (tenantId : String) (userId : Uuid)
    (newPassword retypePassword : String) (forcePasswordChange : Bool) :
    (adminResetPassword w tenantId userId newPassword retypePassword forcePasswordChange).Asks
      Unissuing := by
  refine (asks_ensure _ _).bind fun _ => ?_
  refine (validatePassword_unissuing w tenantId newPassword).bind fun _ => ?_
  refine (unissuing_query rfl).bind fun _ => (asks_okOr _ _).bind fun user => ?_
  refine (unissuing_query rfl).bind fun memberships => ?_
  split
  · exact (asks_ensure _ _).bind fun _ => unissuing_execute rfl
  · refine (hashPassword_unissuing newPassword).bind fun passwordHash => ?_
    exact (unissuing_execute rfl).bind fun _ => unissuing_execute rfl

end AuthService

/-- A client's call issues on its basis; the other calls issue nothing. -/
def CredentialCall.Issues (w : World) : CredentialCall → List (Event authrs) → Event authrs → Prop
  | client c => c.Guarantee w
  | _ => fun _ e => issued e.request = none

/-- **Only the login calls issue anything.** -/
theorem CredentialCall.run_issues (w : World) (c : CredentialCall) :
    (c.run w).Keeps (.ofGuarantee (c.Issues w)) (fun _ _ => True) [] := by
  have hother : ∀ {p : Service Unit}, p.Asks Unissuing →
      p.Keeps (.ofGuarantee fun _ e => issued e.request = none) (fun _ _ => True) [] :=
    fun hp => (hp.keeps fun _ _ h => h).weaken fun _ _ _ => trivial
  cases c with
  | client c => exact c.run_keeps w
  | forgot email =>
    exact hother ((AuthService.forgotPassword_unissuing w email).bind fun _ => trivial)
  | reset tenantId token newPassword retypePassword =>
    exact hother (AuthService.resetPassword_unissuing w tenantId token newPassword retypePassword)
  | change tenantId userId currentPassword newPassword retypePassword =>
    exact hother (AuthService.changePassword_unissuing w tenantId userId currentPassword
      newPassword retypePassword)
  | adminReset tenantId userId newPassword retypePassword forcePasswordChange =>
    exact hother (AuthService.adminResetPassword_unissuing w tenantId userId newPassword
      retypePassword forcePasswordChange)

/-! ### Runs -/

variable {ι : Type} [DecidableEq ι]

/-- **A session minted under no demand**: the call has read no identity that has to change its
password. -/
def UnforcedSession (older : List (Move authrs ι State)) (m : Move authrs ι State) : Prop :=
  mints m.event = true → ∀ i ∈ (own m.who older).filterMap identityOf, i.forcePasswordChange = false

/-- A second factor that redeems its challenge has read no identity that has to change its
password. -/
def RedeemsUnforced (call : ι → CredentialCall) (log : List (Move authrs ι State)) : Prop :=
  ∀ j ip userAgent mfaToken code,
    call j = .client (.login ip userAgent (.completeMfa mfaToken code)) →
    (mfaToken, 1) ∈ (own j log).filterMap redemptionOf →
    ∀ i ∈ (own j log).filterMap identityOf, i.forcePasswordChange = false

section Runs

variable {w : World} {s : State} {call : ι → CredentialCall} {l : List (ι ⊕ Nat)}
  {newer older : List (Move authrs ι State)} {m : Move authrs ι State}

/-- What is issued in a run is issued by a login call, on its basis. -/
theorem credentialRun_vetted (hlog : (credentialRun w s call l).log = newer ++ m :: older)
    {k : Issue} {tenantId : String} {userId : Uuid}
    (hi : issued m.event.request = some (k, tenantId, userId)) :
    ∃ ip userAgent c, call m.who = .client (.login ip userAgent c) ∧
      Vetted w c (own m.who older) m.event := by
  have hg : (call m.who).Issues w (own m.who older) m.event :=
    Config.run_guaranteed (C := fun j => .ofGuarantee ((call j).Issues w))
      (fun j => (call j).run_issues w) (fun _ _ _ => trivial) l newer m older hlog
  have hsome : issued m.event.request ≠ none := by simp [hi]
  cases hcall : call m.who with
  | client c =>
    rw [hcall] at hg
    cases c with
    | login ip userAgent c => exact ⟨ip, userAgent, c, rfl, hg⟩
    | identityLogin email password => exact absurd hg hsome
    | mfa identityId c => exact absurd hg hsome
  | _ =>
    rw [hcall] at hg
    exact absurd hg hsome

/-- **No session is minted under a demand** in the runs in which a challenge is redeemed only by
calls that have read none. -/
theorem run_sessionsUnforced (w : World) (s : State) (call : ι → CredentialCall)
    (l : List (ι ⊕ Nat)) (hredeems : RedeemsUnforced call (credentialRun w s call l).log) :
    EachMove UnforcedSession (credentialRun w s call l).log := by
  intro newer m older hlog hmints i hi
  obtain ⟨tenantId, userId, hissued⟩ := issued_of_mints hmints
  obtain ⟨ip, userAgent, c, hcall, hvetted⟩ := credentialRun_vetted hlog hissued
  obtain ⟨-, row, identity, ds, hrows, -, hbasis⟩ := hvetted _ _ _ hissued
  have hread : i = identity := by simpa [hrows.identities] using hi
  cases c with
  | completeMfa mfaToken code =>
    -- It does not look at the demand; the condition on the run stands in for it.
    have hsub : ∀ e ∈ own m.who older, e ∈ own m.who (credentialRun w s call l).log := by
      intro e he
      obtain ⟨x, hx, hwho, rfl⟩ := mem_own.mp he
      exact mem_own.mpr ⟨x, hlog ▸ List.mem_append_right _ (List.mem_cons_of_mem _ hx), hwho, rfl⟩
    have hredeemed : (mfaToken, 1) ∈ (own m.who older).filterMap redemptionOf := by
      rw [hbasis.2.2.redeemed]
      exact List.mem_singleton_self _
    exact hredeems m.who ip userAgent mfaToken code hcall
      (List.filterMap_subset _ hsub hredeemed) i (List.filterMap_subset _ hsub hi)
  | _ =>
    -- The tail of every other login sends it to the password change instead.
    rw [hread]
    exact hbasis.1.1

end Runs

/-! ### A demand between the two steps -/

/-- A password login, an administrator's reset that demands a new password, and the second step of
the login. -/
def resetBetween : Fin 3 → CredentialCall
  | 0 => .client (.login none none (.emailPassword "acme" "ann@acme.example" "correct horse"))
  | 1 => .adminReset "acme" 1 "S3cret" "S3cret" true
  | 2 => .client (.login none none (.completeMfa "x" "000000"))

theorem completeMfa_of_resetBetween {j : Fin 3} {ip userAgent : Option String}
    {mfaToken code : String}
    (h : resetBetween j = .client (.login ip userAgent (.completeMfa mfaToken code))) : j = 2 := by
  match j with
  | 0 => cases h
  | 1 => cases h
  | 2 => rfl

/-- The steps of the given calls, one call after the other. -/
def stepsOf (is : List (Fin 3)) : List (Fin 3 ⊕ Nat) := is.flatMap fun i => List.replicate 30 (.inl i)

/-- The login without the reset. -/
theorem loginSteps_facts :
    ∀ i ∈ (own 2 (credentialRun .offline (enrolled none) resetBetween (stepsOf [0, 2])).log).filterMap
      identityOf, i.forcePasswordChange = false := by
  decide +kernel

theorem run_sessionsUnforced_loginSteps :
    EachMove UnforcedSession
      (credentialRun .offline (enrolled none) resetBetween (stepsOf [0, 2])).log := by
  refine run_sessionsUnforced .offline (enrolled none) resetBetween _ ?_
  intro j ip userAgent mfaToken code hcall _ i hi
  obtain rfl := completeMfa_of_resetBetween hcall
  exact loginSteps_facts i hi

/-- The newest move of the run stores the session. -/
theorem demandBetween_facts :
    ∃ m ∈ (credentialRun .offline (enrolled none) resetBetween (stepsOf [0, 1, 2])).log.head?,
      mints m.event = true ∧
        ∃ i ∈ (own m.who (credentialRun .offline (enrolled none) resetBetween
          (stepsOf [0, 1, 2])).log.tail).filterMap identityOf, i.forcePasswordChange = true := by
  decide +kernel

/-- **A demand between the two steps of a login**: the second step reads it and mints a session. -/
theorem demandBetween_minted :
    ¬ EachMove UnforcedSession
      (credentialRun .offline (enrolled none) resetBetween (stepsOf [0, 1, 2])).log := by
  intro hall
  obtain ⟨m, hm, hmints, i, hi, hforced⟩ := demandBetween_facts
  have hunforced := hall [] m _ (List.eq_cons_of_mem_head? hm) hmints i hi
  rw [hforced] at hunforced
  cases hunforced

end Authrs
