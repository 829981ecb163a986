import Authrs.Login.Warrants
import Authrs.Routes.Otp

/-!
# Calls of the routes

The clients' calls and the routes of the one-time codes, side by side. A second factor is counted
as an attempt after its call has read the challenge; a code is counted or redeemed after its call
has read the row, and a code is redeemed after the login it led to.

## Main definitions

* `RouteCall`: the calls, with their `run`
* `Attempted`: what a call has done before it counts an attempt on a challenge
* `OtpStep`: the steps of a verification of a code
* `RouteCall.Guarantee`: what a call's requests are guaranteed to be

## Main results

* `ClientCall.run_attempted`: a client's call counts at most one attempt, on a challenge it has read
* `otpVerify_steps`: a verification goes through its steps
* `RouteCall.run_keeps`: every call keeps its contract
-/

namespace Authrs

open Interaction

/-- A call of a client, or of the routes of the one-time codes. -/
inductive RouteCall
  | client (c : ClientCall)
  | emailOtpRequest (tenantId email : String)
  | otpVerify (tenantId identifier code channel : String)

/-- **The call**, with its result dropped. -/
def RouteCall.run (w : World) : RouteCall → Service Unit
  | client c => c.run w
  | emailOtpRequest tenantId email => Authrs.emailOtpRequest w tenantId email
  | otpVerify tenantId identifier code channel => do
    let _ ← Authrs.otpVerify w tenantId identifier code channel
    pure ()

open Program

/-! ### Attempts on challenges -/

/-- A request that counts an attempt on a challenge. -/
def countsAttempt : Request → Bool
  | .sql (.challenges (.incrementAttempts _)) => true
  | _ => false

/-- A challenge has been read, with attempts left, and no attempt has been counted. -/
structure Attempting (mfaToken : String) (h : List (Event authrs)) : Prop where
  read : ∃ c, did (.challenges (.get mfaToken)) (some c) ∈ h ∧ c.attemptCount < MAX_MFA_ATTEMPTS
  uncounted : ∀ e ∈ h, countsAttempt e.request = false

/-- What a call has done before it counts an attempt on a challenge. -/
def Attempted (c : ClientCall) (h : List (Event authrs)) (e : Event authrs) : Prop :=
  ∀ mfaToken, e.request = .sql (.challenges (.incrementAttempts mfaToken)) →
    (∃ ip userAgent code, c = .login ip userAgent (.completeMfa mfaToken code)) ∧
      Attempting mfaToken h

section Attempts

variable {w : World} {c : ClientCall} {mfaToken : String} {h : List (Event authrs)}

/-- The contract of the calls that count attempts. -/
abbrev attempted (c : ClientCall) : Contract authrs := .ofGuarantee (Attempted c)

theorem attempted_of_uncounting {e : Event authrs} (he : countsAttempt e.request = false) :
    Attempted c h e := by
  intro mfaToken hq
  rw [hq] at he
  cases he

/-- A request that counts no attempt. -/
def Uncounting (q : Request) : Prop := countsAttempt q = false

theorem uncounting_of_ordinary (q : Request) (hq : ordinary q = true) : Uncounting q := by
  unfold Uncounting countsAttempt
  split
  · cases hq
  · rfl

theorem uncounting_query {q : Sql} (hq : countsAttempt (.sql q) = false) :
    (query q).Asks Uncounting :=
  asks_query hq

/-- A part that counts no attempt. -/
theorem keeps_uncounting {α : Type} {p : Service α} (hp : p.Asks Uncounting) :
    p.Keeps (attempted c) (OnOk fun _ _ => True) h :=
  (hp.keeps fun _ _ he => attempted_of_uncounting he).weaken fun _ o _ => by cases o <;> trivial

/-- A part that counts no attempt, once the challenge has been read. -/
theorem keeps_attempting {α : Type} {p : Service α} (hp : p.Asks Uncounting)
    (ha : Attempting mfaToken h) :
    p.Keeps (attempted c) (OnOk fun _ h' => Attempting mfaToken h') h := by
  refine (hp.keeps_inv (M := Attempting mfaToken) ?_ ha).onOk
  rintro h' e ⟨⟨r, hr, hlt⟩, hun⟩ he
  exact ⟨attempted_of_uncounting he, ⟨r, List.mem_cons_of_mem _ hr, hlt⟩,
    List.forall_mem_cons.mpr ⟨he, hun⟩⟩

/-- The second step of a login counts at most one attempt, on the challenge it has read. -/
theorem completeMfaLogin_attempted {code : String} {ip userAgent : Option String}
    (hc : c = .login ip userAgent (.completeMfa mfaToken code)) :
    (AuthService.completeMfaLogin w mfaToken code ip userAgent).Keeps (attempted c)
      (OnOk fun _ _ => True) [] := by
  refine (keeps_query_ok fun e he => attempted_of_uncounting (he ▸ rfl)).bind_ok ?_
  rintro found h₁ - rfl
  refine (keeps_okOr_ok _ _).bind_ok ?_
  rintro challenge h₂ - ⟨rfl, rfl⟩
  have hrefuse : (AuthService.refuseExhausted mfaToken challenge).Keeps (attempted c)
      (OnOk fun _ h' => Attempting mfaToken h')
      [did (.challenges (.get mfaToken)) (some challenge)] := by
    unfold AuthService.refuseExhausted
    split
    · have hdelete : (MfaRepo.deleteChallenge mfaToken).Asks Uncounting :=
        (uncounting_query rfl).bind fun _ => trivial
      exact (keeps_uncounting hdelete).bind_ok fun _ _ _ _ => trivial
    · rename_i hlt
      exact ⟨⟨challenge, List.mem_singleton_self _, Nat.lt_of_not_le hlt⟩, by simp [countsAttempt]⟩
  refine hrefuse.bind_ok ?_
  rintro - h₃ - ha₃
  refine (keeps_attempting (uncounting_query rfl) ha₃).bind_ok ?_
  rintro found h₄ - ha₄
  refine (keeps_okOr_ok _ _).bind_ok ?_
  rintro user h₅ - ⟨-, rfl⟩
  have hload : (AuthService.loadIdentity user.identityId).Asks Uncounting :=
    (uncounting_query rfl).bind fun _ => asks_okOr _ _
  refine (keeps_attempting hload ha₄).bind_ok ?_
  rintro identity h₆ - ha₆
  refine (keeps_attempting (AuthService.checkGates_asks uncounting_of_ordinary user identity)
    ha₆).bind_ok ?_
  rintro - h₇ - ha₇
  have hverify : (MfaService.verify w identity code).Asks Uncounting :=
    AuthService.verify_asks (S := Uncounting) rfl (fun _ _ => rfl) (fun _ _ => rfl) identity code
  have hcheck : (AuthService.checkSecondFactor w mfaToken identity code).Keeps (attempted c)
      (OnOk fun _ h' => Attempting mfaToken h') h₇ := by
    refine (keeps_attempting hverify ha₇).bind_ok ?_
    rintro valid h₈ - ha₈
    cases valid with
    | true => exact ha₈
    | false =>
      -- The one attempt is counted here; what follows counts none.
      refine (keeps_execute_ok fun e he => ?_).bind_ok ?_
      · intro t ht
        obtain rfl : mfaToken = t := by
          rw [he] at ht
          cases ht
          rfl
        exact ⟨⟨ip, userAgent, code, hc⟩, ha₈⟩
      · rintro - h₉ - -
        have hregister := AuthService.registerFailedAttempt_asks (w := w) (S := Uncounting) rfl
          (fun _ _ => rfl) identity
        exact (keeps_uncounting hregister).bind_ok fun _ _ _ _ => trivial
  refine hcheck.bind_ok ?_
  rintro - h₈ - -
  have hdelete : (MfaRepo.deleteChallenge mfaToken).Asks Uncounting :=
    (uncounting_query rfl).bind fun _ => trivial
  refine keeps_uncounting (hdelete.bind fun redeemed => (asks_ensure _ _).bind fun _ => ?_)
  refine (AuthService.clearFailedAttempts_asks uncounting_of_ordinary identity.id).bind fun _ => ?_
  exact AuthService.doCreateSession_asks uncounting_of_ordinary w challenge.tenantId user ip
    userAgent

/-- **A client's call counts at most one attempt**, on a challenge that it has read. -/
theorem ClientCall.run_attempted (w : World) (c : ClientCall) :
    (c.run w).Keeps (attempted c) (fun _ _ => True) [] := by
  by_cases hc : ∃ ip userAgent mfaToken code, c = .login ip userAgent (.completeMfa mfaToken code)
  · obtain ⟨ip, userAgent, mfaToken, code, rfl⟩ := hc
    have hok : ((ClientCall.login ip userAgent (.completeMfa mfaToken code)).run w).Keeps
        (attempted (.login ip userAgent (.completeMfa mfaToken code))) (OnOk fun _ _ => True) [] :=
      (completeMfaLogin_attempted rfl).bind_ok fun _ _ _ _ => trivial
    exact hok.weaken fun _ _ _ => trivial
  · -- Nothing else has a warrant for it.
    refine (c.run_warranted w).mono (fun _ _ _ => trivial) ?_ fun _ _ _ => trivial
    intro h e _ hwarrant mfaToken he
    change Warranted w c h e.request at hwarrant
    rw [he] at hwarrant
    obtain ⟨ip, userAgent, code, i, hcall, -⟩ := hwarrant
    exact absurd ⟨ip, userAgent, mfaToken, code, hcall⟩ hc

end Attempts

/-! ### One-time codes -/

/-- The exchange in which a verification reads a row. -/
abbrev otpRead (w : World) (tenantId identifier : String) (otp : OtpRow) : Event authrs :=
  did (.otps (.getLatest tenantId (w.toLowercase (trim identifier)) "email" "login")) (some otp)

/-- **The steps of a verification**: it reads a row with attempts left; it counts a wrong code; or
it logs in, and deletes the row after that. -/
inductive OtpStep (w : World) (tenantId identifier code : String) :
    List (Event authrs) → Event authrs → Prop
  | read {e : Event authrs} :
    e.request = .sql (.otps (.getLatest tenantId (w.toLowercase (trim identifier)) "email"
      "login")) →
    OtpStep w tenantId identifier code [] e
  | count {otp : OtpRow} {e : Event authrs} : otp.attemptCount < MAX_OTP_ATTEMPTS →
    otp.code ≠ trim code → e.request = .sql (.otps (.incrementAttempts otp.id)) →
    OtpStep w tenantId identifier code [otpRead w tenantId identifier otp] e
  | login {otp : OtpRow} {g : List (Event authrs)} {e : Event authrs} :
    otp.attemptCount < MAX_OTP_ATTEMPTS → otp.code = trim code →
    Vetted w (.verifiedOtp tenantId (w.toLowercase (trim identifier))) g e →
    weighty e.request = false →
    OtpStep w tenantId identifier code (g ++ [otpRead w tenantId identifier otp]) e
  | delete {otp : OtpRow} {es : List (Event authrs)} {result : LoginResult} {e : Event authrs} :
    otp.attemptCount < MAX_OTP_ATTEMPTS → otp.code = trim code →
    (AuthService.loginWithVerifiedOtp w tenantId (w.toLowercase (trim identifier)) none none).Ran
      es (.ok result) →
    e.request = .sql (.otps (.delete otp.id)) →
    OtpStep w tenantId identifier code (es.reverse ++ [otpRead w tenantId identifier otp]) e

/-- The steps of a request for a code: ordinary ones, and a row under a new id. -/
def OtpRequestStep (h : List (Event authrs)) (e : Event authrs) : Prop :=
  ordinary e.request = true ∨
    ∃ id tenantId identifier channel code purpose expiresAt rest, h = ⟨.newUuid, id⟩ :: rest ∧
      e.request = .sql (.otps (.create id tenantId identifier channel code purpose expiresAt))

/-- **What a call's requests are guaranteed to be.** -/
def RouteCall.Guarantee (w : World) : RouteCall → List (Event authrs) → Event authrs → Prop
  | client c => fun h e => c.Guarantee w h e ∧ Warranted w c h e.request ∧ Attempted c h e
  | emailOtpRequest _ _ => OtpRequestStep
  | otpVerify tenantId identifier code _ => OtpStep w tenantId identifier code

/-- The contract of a call. -/
def RouteCall.contract (w : World) (c : RouteCall) : Contract authrs := .ofGuarantee (c.Guarantee w)

section Otp

variable {w : World}

/-- **A verification goes through its steps.** -/
theorem otpVerify_steps (tenantId identifier code channel : String) :
    (otpVerify w tenantId identifier code channel).Keeps
      (.ofGuarantee (OtpStep w tenantId identifier code)) (OnOk fun _ _ => True) [] := by
  refine (keeps_ensure_ok _ _).bind_ok ?_
  rintro - h₁ - ⟨-, rfl⟩
  refine (keeps_ensure_ok _ _).bind_ok ?_
  rintro - h₂ - ⟨-, rfl⟩
  refine (OtpRepo.keeps_run_ok fun e he => OtpStep.read he).bind_ok ?_
  rintro found h₃ - rfl
  refine (keeps_okOr_ok _ _).bind_ok ?_
  rintro otp h₄ - ⟨rfl, rfl⟩
  -- The code that was read is compared before anything else, and a wrong one is counted.
  have hcheck : (checkOtp otp (trim code)).Keeps (.ofGuarantee (OtpStep w tenantId identifier code))
      (OnOk fun _ h' => h' = [otpRead w tenantId identifier otp] ∧
        otp.attemptCount < MAX_OTP_ATTEMPTS ∧ otp.code = trim code)
      [otpRead w tenantId identifier otp] := by
    refine (keeps_ensure_ok _ _).bind_ok ?_
    rintro - h₅ - ⟨hlt, rfl⟩
    split
    · rename_i hne
      refine Keeps.bind_ok (p := OtpRepo.incrementAttempts otp.id) (N := fun _ _ => True) ?_
        fun _ _ _ _ => trivial
      exact (OtpRepo.keeps_run_ok fun e he => OtpStep.count hlt hne he).bind_ok fun _ _ _ _ => trivial
    · rename_i heq
      exact ⟨rfl, hlt, not_not.mp heq⟩
  refine hcheck.bind_ok ?_
  rintro - h₅ - ⟨rfl, hlt, heq⟩
  have hvetted := LoginCall.run_vetted w none none
    (.verifiedOtp tenantId (w.toLowercase (trim identifier)))
  have hlight : (AuthService.loginWithVerifiedOtp w tenantId (w.toLowercase (trim identifier)) none
      none).Keeps (.ofGuarantee fun _ e => weighty e.request = false) (fun _ _ => True) [] :=
    ((AuthService.loginWithVerifiedOtp_light tenantId _ none none).keeps fun _ _ he => he).weaken
      fun _ _ _ => trivial
  -- What the login does after a read is what it does by itself.
  have hlogin := ((hvetted.both hlight).after [otpRead w tenantId identifier otp]).ran
  have hsteps : (AuthService.loginWithVerifiedOtp w tenantId (w.toLowercase (trim identifier)) none
      none).Keeps (.ofGuarantee (OtpStep w tenantId identifier code)) (OnOk fun result h' =>
        ∃ es, h' = es.reverse ++ [otpRead w tenantId identifier otp] ∧
          (AuthService.loginWithVerifiedOtp w tenantId (w.toLowercase (trim identifier)) none
            none).Ran es (.ok result)) [otpRead w tenantId identifier otp] := by
    refine hlogin.mono (fun _ _ _ _ _ => ⟨trivial, trivial⟩) ?_ ?_
    · rintro h e - ⟨g, rfl, hv, hw⟩
      exact .login hlt heq hv hw
    · rintro h (e | result) ⟨-, es, hes, hran⟩
      · trivial
      · exact ⟨es, hes, hran⟩
  refine hsteps.bind_ok ?_
  rintro result h₆ - ⟨es, rfl, hran⟩
  refine Keeps.bind_ok (p := OtpRepo.delete otp.id) (N := fun _ _ => True) ?_
    fun _ _ _ _ => trivial
  exact (OtpRepo.keeps_run_ok fun e he => OtpStep.delete hlt heq hran he).bind_ok fun _ _ _ _ => trivial

theorem emailOtpRequest_steps (tenantId email : String) :
    (emailOtpRequest w tenantId email).Keeps (.ofGuarantee OtpRequestStep)
      (OnOk fun _ _ => True) [] := by
  have hquiet : ∀ {α : Type} {p : Service α} {h : List (Event authrs)},
      (p.Asks fun q => ordinary q = true) →
        p.Keeps (.ofGuarantee OtpRequestStep) (OnOk fun _ _ => True) h :=
    fun hp => (hp.keeps fun _ _ he => Or.inl he).weaken fun _ o _ => by cases o <;> trivial
  refine (hquiet (asks_ensure _ _)).bind_ok ?_
  rintro - h₁ - -
  refine (hquiet (asks_ensure _ _)).bind_ok ?_
  rintro - h₂ - -
  refine (hquiet (AuthService.ensureEmailDomainAllowed_asks (fun _ => id) w tenantId _)).bind_ok ?_
  rintro - h₃ - -
  refine fun code _ => ⟨.inl rfl, fun now _ => ⟨.inl rfl, ?_⟩⟩
  have hcreate : ∀ h, (OtpRepo.create tenantId (w.toLowercase (trim email)) "email" code "login"
      (now + minutes 10)).Keeps (.ofGuarantee OtpRequestStep) (OnOk fun _ _ => True) h := by
    intro h
    refine (keeps_newUuid_ok fun e he => Or.inl (by rw [he]; rfl)).bind_ok ?_
    rintro id h₄ - rfl
    refine (OtpRepo.keeps_run_ok fun e he => ?_).bind_ok fun _ _ _ _ => trivial
    exact .inr ⟨_, _, _, _, _, _, _, _, rfl, he⟩
  refine (hcreate _).bind_ok ?_
  rintro - h₅ - -
  exact fun sent _ => ⟨.inl rfl, (keeps_ofExcept_ok _).weaken_ok fun _ _ _ _ => trivial⟩

/-- **Every call keeps its contract.** -/
theorem RouteCall.run_keeps (w : World) (c : RouteCall) :
    (c.run w).Keeps (c.contract w) (fun _ _ => True) [] := by
  cases c with
  | client c =>
    have hall := (c.run_keeps w).both ((c.run_warranted w).both (c.run_attempted w))
    exact hall.mono (fun _ _ _ => ⟨trivial, trivial, trivial⟩) (fun _ _ _ hg => hg)
      fun _ _ _ => trivial
  | emailOtpRequest tenantId email =>
    exact (emailOtpRequest_steps tenantId email).weaken fun _ _ _ => trivial
  | otpVerify tenantId identifier code channel =>
    refine (keeps_bind _ _).mpr ((otpVerify_steps tenantId identifier code channel).weaken ?_)
    rintro h (e | result) - <;> trivial

end Otp

end Authrs
