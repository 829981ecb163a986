import Authrs.Login.Entries
import Authrs.Store.Runs

/-!
# Clients of the login flows

Everything that clients can send while they log in and manage their second factor: the login
calls, the tenant-less login, and the MFA endpoints, which load the identity of the caller's
session before they act on it. A call that is no login call issues nothing.

## Main definitions

* `MfaCall`, `ClientCall`: the calls
* `ClientCall.Contract`: what a client's requests are guaranteed to be

## Main results

* `ClientCall.run_keeps`: every call keeps its contract
-/

namespace Authrs

open Interaction

/-- A call of the MFA endpoints, for the identity of a session. -/
inductive MfaCall
  | status
  | enable (accountLabel : String)
  | verify (code : String)
  | disable (code : String)
  | backupCodes (code : String)

/-- The endpoint, once the identity is loaded. -/
def MfaCall.act (w : World) (identity : Identity) : MfaCall → Service Unit
  | status => do
    let _ ← MfaService.backupCodesRemaining identity
    pure ()
  | enable accountLabel => do
    let _ ← MfaService.beginEnrollment w identity accountLabel
    pure ()
  | verify code => do
    let _ ← MfaService.confirmEnrollment w identity code
    pure ()
  | disable code => MfaService.disable w identity code
  | backupCodes code => do
    let _ ← MfaService.regenerateBackupCodes w identity code
    pure ()

/-- The endpoint: `session_identity` loads the identity of the session. -/
def MfaCall.run (w : World) (identityId : Uuid) (c : MfaCall) : Service Unit := do
  let identity ← IdentitiesRepo.getById identityId
  let identity ← Service.okOr identity (.unauthorized "Invalid or expired session")
  c.act w identity

/-- A call of a client. -/
inductive ClientCall
  | login (ip userAgent : Option String) (c : LoginCall)
  | identityLogin (email password : String)
  | mfa (identityId : Uuid) (c : MfaCall)

/-- **The call**, with its result dropped. -/
def ClientCall.run (w : World) : ClientCall → Service Unit
  | login ip userAgent c => do
    let _ ← c.run w ip userAgent
    pure ()
  | identityLogin email password => do
    let _ ← AuthService.loginIdentity w email password
    pure ()
  | mfa identityId c => c.run w identityId

/-- A login call issues on its basis; any other call issues nothing. -/
def ClientCall.Guarantee (w : World) : ClientCall → List (Event authrs) → Event authrs → Prop
  | login _ _ c => Vetted w c
  | _ => fun _ e => issued e.request = none

/-- The contract of a client's call. -/
def ClientCall.contract (w : World) (c : ClientCall) : Contract authrs :=
  .ofGuarantee (c.Guarantee w)

open Program

/-- A request that issues nothing. -/
def Unissuing (q : Request) : Prop := issued q = none

theorem unissuing_of_quiet {α : Type} {p : Service α} (hp : p.Asks Quiet) : p.Asks Unissuing :=
  hp.mono fun _ hq => hq.nothing

theorem unissuing_query {q : Sql} (hq : issued (.sql q) = none) : (query q).Asks Unissuing :=
  asks_query hq

theorem unissuing_execute {q : Sql} (hq : issued (.sql q) = none) : (execute q).Asks Unissuing :=
  asks_execute hq

theorem loginIdentity_asks (w : World) (email password : String) :
    (AuthService.loginIdentity w email password).Asks Unissuing := by
  refine (unissuing_query rfl).bind fun found => ?_
  refine (asks_okOr _ _).bind fun identity => ?_
  refine (asks_ensure _ _).bind fun _ => ?_
  have hlock : (AuthService.checkLock identity).Asks Unissuing := by
    unfold AuthService.checkLock
    cases identity.lockedUntil with
    | none => trivial
    | some l => exact ⟨rfl, fun t => asks_ensure _ _⟩
  refine hlock.bind fun _ => ?_
  refine (unissuing_of_quiet (AuthService.checkPassword_asks identity password _)).bind fun _ => ?_
  refine (unissuing_of_quiet (AuthService.quiet_clearFailedAttempts identity.id)).bind fun _ => ?_
  refine ⟨rfl, fun token => ⟨rfl, fun now => ?_⟩⟩
  refine Asks.bind (p := IdentityTokensRepo.create identity.id token _) (unissuing_execute rfl)
    fun _ => ?_
  refine Asks.bind (p := AuthService.tenantsForIdentity identity.id) ?_ fun _ => trivial
  exact (unissuing_query rfl).bind fun _ => trivial

theorem requireValidCode_asks (w : World) (identity : Identity) (code : String) :
    (MfaService.requireValidCode w identity code).Asks Unissuing := by
  refine (asks_ensure _ _).bind fun _ => ?_
  refine (unissuing_of_quiet (AuthService.verify_quiet identity code)).bind fun valid => ?_
  exact asks_ensure _ _

theorem decryptSecret_asks {S : Request → Prop} (w : World) (identity : Identity) :
    (MfaService.decryptSecret w identity).Asks S := by
  unfold MfaService.decryptSecret
  cases identity.mfaSecret with
  | none => trivial
  | some enc => exact asks_ofExcept _

theorem MfaCall.act_asks (w : World) (identity : Identity) (c : MfaCall) :
    (c.act w identity).Asks Unissuing := by
  cases c with
  | status =>
    refine Asks.bind (p := MfaService.backupCodesRemaining identity) ?_ fun _ => trivial
    unfold MfaService.backupCodesRemaining
    split
    · exact unissuing_query rfl
    · trivial
  | enable accountLabel =>
    refine Asks.bind (p := MfaService.beginEnrollment w identity accountLabel) ?_ fun _ => trivial
    refine (asks_ensure _ _).bind fun _ => ⟨rfl, fun encoded => ⟨rfl, fun encrypted => ?_⟩⟩
    exact Asks.bind (p := Service.ofResult encrypted) (asks_ofExcept _)
      fun _ => (unissuing_execute rfl).bind fun _ => trivial
  | verify code =>
    refine Asks.bind (p := MfaService.confirmEnrollment w identity code) ?_ fun _ => trivial
    refine (asks_ensure _ _).bind fun _ => (decryptSecret_asks w identity).bind fun secret => ?_
    refine (asks_okOr _ _).bind fun secret => ?_
    have hstep : (MfaService.confirmedStep w secret (normalizeCode w code)).Asks Unissuing := by
      unfold MfaService.confirmedStep
      split
      · exact ⟨rfl, fun _ => trivial⟩
      · trivial
    refine hstep.bind fun step => (asks_okOr _ _).bind fun step => ?_
    refine Asks.bind (p := MfaRepo.markStepUsed identity.id step) ?_ fun _ => ?_
    · exact (unissuing_query rfl).bind fun _ => trivial
    · exact ⟨rfl, fun codes => (unissuing_execute rfl).bind fun _ => trivial⟩
  | disable code =>
    exact (requireValidCode_asks w identity code).bind fun _ => unissuing_execute rfl
  | backupCodes code =>
    refine Asks.bind (p := MfaService.regenerateBackupCodes w identity code) ?_ fun _ => trivial
    refine (requireValidCode_asks w identity code).bind fun _ => ⟨rfl, fun codes => ?_⟩
    exact (unissuing_execute rfl).bind fun _ => trivial

/-- **Every call keeps its contract.** -/
theorem ClientCall.run_keeps (w : World) (c : ClientCall) :
    (c.run w).Keeps (c.contract w) (fun _ _ => True) [] := by
  cases c with
  | login ip userAgent c =>
    have hrun := c.run_vetted w ip userAgent
    refine (keeps_bind _ _).mpr (hrun.weaken fun h o _ => ?_)
    cases o <;> trivial
  | identityLogin email password =>
    have hasks := (loginIdentity_asks w email password).bind
      (f := fun _ => (Program.pure () : Service Unit)) fun _ => trivial
    exact (hasks.keeps fun _ _ h => h).weaken fun _ _ _ => trivial
  | mfa identityId c =>
    have hasks : (c.run w identityId).Asks Unissuing :=
      (unissuing_query rfl).bind fun found => (asks_okOr _ _).bind fun identity => c.act_asks w identity
    exact (hasks.keeps fun _ _ h => h).weaken fun _ _ _ => trivial

end Authrs
