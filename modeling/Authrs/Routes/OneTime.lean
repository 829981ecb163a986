import Authrs.Interaction.Redemption
import Authrs.Routes.Attempts

/-!
# One-time codes

A code that has been redeemed is deleted, after the login that it led to. Only the newest row of
an identifier is looked at, so an older code that has not expired comes back when the newer one is
deleted; and a second verification that reads the row before it is deleted redeems it again. A
redemption is final in the runs in which no other verification has accepted a code at the time,
and no other code is left when the redeemed one is deleted.

## Main definitions

* `RouteCall.acceptedCode`: the row whose code a verification accepts
* `codeRedemption`: the codes of a tenant and an identifier, with how they are redeemed

## Main results

* `codeRedemption_lawful`: what the statements do to the codes
* `routeRun_loggedIn`: a row is deleted after a successful login
* `run_codesFinal`: redemptions are final in these runs
* `olderCode_accepted`: the older of two codes is accepted after the newer one
-/

namespace Authrs

open Interaction Relational

variable {ι : Type}

/-- A login code of a tenant and an identifier, with attempts left. -/
def OtpRow.isLoginCode (w : World) (tenantId identifier : String) (r : OtpRow) : Bool :=
  r.isFor w.lower tenantId identifier "email" "login" && r.attemptCount < MAX_OTP_ATTEMPTS

/-- **The row whose code a verification accepts** in an exchange, if it is one of the tenant and
the identifier. -/
def RouteCall.acceptedCode (w : World) (c : RouteCall) (tenantId identifier : String)
    (e : Event authrs) : Option Uuid :=
  match c, e with
  | otpVerify _ _ code _, ⟨.sql (.otps (.getLatest ..)), .ok (some otp)⟩ =>
    if otp.isLoginCode w tenantId identifier ∧ otp.code = trim code then some otp.id else none
  | _, _ => none

theorem RouteCall.acceptedCode_eq_some {w : World} {c : RouteCall} {tenantId identifier : String}
    {e : Event authrs} {id : Uuid} (h : c.acceptedCode w tenantId identifier e = some id) :
    ∃ tenantId' identifier' channel purpose otp,
      e = did (.otps (.getLatest tenantId' identifier' channel purpose)) (some otp) ∧
        otp.id = id ∧ otp.isLoginCode w tenantId identifier = true := by
  unfold acceptedCode at h
  split at h
  · rename_i tenantId' identifier' channel purpose otp
    split at h
    · rename_i hotp
      cases h
      exact ⟨tenantId', identifier', channel, purpose, otp, rfl, rfl, hotp.1⟩
    · cases h
  · cases h

/-- The row of `otp_codes` that an exchange creates. -/
def codeIssued : Event authrs → Option Uuid
  | ⟨.sql (.otps (.create id ..)), .ok _⟩ => some id
  | _ => none

/-- The row of `otp_codes` that a request deletes. -/
def codeRemoved : Request → Option Uuid
  | .sql (.otps (.delete id)) => some id
  | _ => none

theorem codeRemoved_eq_some {q : Request} {id : Uuid} (h : codeRemoved q = some id) :
    q = .sql (.otps (.delete id)) := by
  unfold codeRemoved at h
  split at h
  · cases h
    rfl
  · cases h

/-- **The codes of a tenant and an identifier.** -/
def codeRedemption (w : World) (call : ι → RouteCall) (tenantId identifier : String) :
    Redemption authrs ι Uuid State where
  accepts i e := (call i).acceptedCode w tenantId identifier e
  issues := codeIssued
  removes := codeRemoved
  usable s id := ∃ r ∈ s.db.otpCodes, r.id = id ∧ r.isLoginCode w tenantId identifier = true ∧
    s.now < r.expiresAt

theorem OtpRow.isLoginCode_of_withAttempt {w : World} {tenantId identifier : String} {r : OtpRow}
    (h : r.withAttempt.isLoginCode w tenantId identifier = true) :
    r.isLoginCode w tenantId identifier = true := by
  unfold isLoginCode at h ⊢
  rw [Bool.and_eq_true, decide_eq_true_eq] at h ⊢
  exact ⟨h.1, Nat.lt_of_succ_lt h.2⟩

/-- **The statements treat the codes lawfully.** -/
theorem codeRedemption_lawful (w : World) (call : ι → RouteCall) (tenantId identifier : String) :
    (codeRedemption w call tenantId identifier).Lawful (handle w) State.tick where
  accepts i q s id h := by
    obtain ⟨tenantId', identifier', channel, purpose, otp, he, rfl, hcode⟩ :=
      RouteCall.acceptedCode_eq_some h
    obtain ⟨rfl, hreply⟩ := Event.mk.inj he
    have hread : s.db.latestOtp (s.sqlEnv w) tenantId' identifier' channel purpose = some otp :=
      Except.ok.inj (eq_of_heq hreply)
    obtain ⟨hmem, -, hlive⟩ := Db.latestOtp_mem hread
    exact ⟨⟨otp, hmem, rfl, hcode, hlive⟩, rfl⟩
  stays q s id h := by
    obtain ⟨r, hr, rfl, hcode, hlive⟩ := h
    rw [handle_now] at hlive
    -- A code that is usable afterwards was so before, or is the one just created.
    have hsame : (handle w q s).2.db.otpCodes = s.db.otpCodes →
        (codeRedemption w call tenantId identifier).usable s r.id := by
      intro heq
      rw [heq] at hr
      exact ⟨r, hr, rfl, hcode, hlive⟩
    rcases handle_db (w := w) (s := s) q with hdb | ⟨x, n, rfl, hexec⟩
    · exact .inl (hsame (by rw [hdb]))
    · cases x with
      | otps x =>
        cases x with
        | create id' =>
          obtain ⟨row, t, hid, -, hins, hdb⟩ := insertOtp_ok hexec
          rw [hdb] at hr
          rcases (Table.mem_insert? hins).mp hr with rfl | hold
          · refine .inr ?_
            have hreply : (handle w (.sql (.otps (.create id' ..))) s).1 = .ok n :=
              congrArg (Except.map Prod.fst) hexec
            change codeIssued ⟨_, _⟩ = _
            rw [hreply, hid]
            rfl
          · exact .inl ⟨r, hold, rfl, hcode, hlive⟩
        | getLatest => exact .inl (hsame rfl)
        | incrementAttempts id' =>
          rcases handle_countOtp w s id' with hupdate | ⟨hkept, -⟩
          · rw [hupdate] at hr
            obtain ⟨r₀, hr₀, rfl⟩ := Table.mem_update.mp hr
            refine .inl ⟨r₀, hr₀, ?_⟩
            -- Counting an attempt never makes a code usable.
            split at hcode
            · rename_i hid
              rw [if_pos hid] at hlive ⊢
              exact ⟨rfl, OtpRow.isLoginCode_of_withAttempt hcode, hlive⟩
            · rename_i hid
              rw [if_neg hid] at hlive ⊢
              exact ⟨rfl, hcode, hlive⟩
          · exact .inl (hsame hkept)
        | delete id' =>
          have hold := (Table.mem_delete.mp hr).1
          exact .inl ⟨r, hold, rfl, hcode, hlive⟩
      | _ => exact .inl (hsame ((Sql.exec_frame hexec).otpCodes fun _ h => nomatch h))
  passes t s id h := by
    obtain ⟨r, hr, hid, hcode, hlive⟩ := h
    refine ⟨r, hr, hid, hcode, ?_⟩
    have hnow : s.now ≤ (s.tick t).now := Int.le_add_of_nonneg_right (Int.natCast_nonneg t)
    exact lt_of_le_of_lt hnow hlive

variable [DecidableEq ι]

/-- **A row is deleted after a successful login**, for the code that its call has read. -/
theorem routeRun_loggedIn {w : World} {s : State} {call : ι → RouteCall} {l : List (ι ⊕ Nat)}
    {i : ι} {id : Uuid} {tenantId identifier : String}
    (h : (codeRedemption w call tenantId identifier).Removing (routeRun w s call l) i id) :
    ∃ tenantId' identifier' code channel otp es result,
      call i = .otpVerify tenantId' identifier' code channel ∧ otp.id = id ∧
        otp.code = trim code ∧
        own i (routeRun w s call l).log = es.reverse ++ [otpRead w tenantId' identifier' otp] ∧
        (AuthService.loginWithVerifiedOtp w tenantId' (w.toLowercase (trim identifier')) none
          none).Ran es (.ok result) := by
  have hkept : (routeRun w s call l).Kept (fun i => (call i).contract w) (fun _ _ _ => True) :=
    Config.run_keeps (fun i => (call i).run_keeps w) (fun _ _ _ => trivial) l
  unfold Redemption.Removing at h
  cases hi : (routeRun w s call l).threads i with
  | ask q k =>
    rw [hi] at h
    obtain ⟨hg, -⟩ := hkept.advance (H := handle w) (fun _ _ _ => trivial) hi
    obtain rfl := codeRemoved_eq_some h
    have hg : (call i).Guarantee w (own i (routeRun w s call l).log)
      ⟨.sql (.otps (.delete id)), _⟩ := hg
    -- Only a verification deletes a code, and it does so after its login has run.
    cases hc : call i with
    | client c =>
      rw [hc] at hg
      exact False.elim hg.2.1
    | emailOtpRequest =>
      rw [hc] at hg
      rcases hg with hord | ⟨_, _, _, _, _, _, _, _, -, hq⟩
      · cases hord
      · cases hq
    | otpVerify tenantId' identifier' code channel =>
      rw [hc] at hg
      generalize own i (routeRun w s call l).log = h₀ at hg
      cases hg with
      | read hq => cases hq
      | count _ _ hq => cases hq
      | login _ _ _ hw => cases hw
      | delete hlt hcode hran hq =>
        cases hq
        exact ⟨_, _, _, _, _, _, _, rfl, rfl, hcode, rfl, hran⟩
  | pure a =>
    rw [hi] at h
    cases h
  | throw e =>
    rw [hi] at h
    cases h

/-- **Redemptions are final**: in the runs in which no other verification has accepted a code of
the tenant and the identifier when one is accepted, and no other code is left when one is deleted,
nothing issued before a successful login is accepted after it. -/
theorem run_codesFinal (w : World) (s : State) (call : ι → RouteCall) (l : List (ι ⊕ Nat))
    (tenantId identifier : String)
    (hclear : Config.EachTurn (handle w) State.tick
      ((codeRedemption w call tenantId identifier).Clear (handle w))
      (Config.start s fun i => (call i).run w) l)
    (hsole : Config.EachTurn (handle w) State.tick
      ((codeRedemption w call tenantId identifier).Sole (handle w))
      (Config.start s fun i => (call i).run w) l)
    (l₁ l₂ : List (ι ⊕ Nat)) (h₁ : l₁ <+: l₂) (h₂ : l₂ <+: l) :
    (codeRedemption w call tenantId identifier).Final (routeRun w s call l₁)
      (routeRun w s call l₂) :=
  Redemption.run_final (codeRedemption_lawful w call tenantId identifier) hclear hsole h₁ h₂

/-! ### Two codes -/

/-- A member without a second factor. -/
def member : State :=
  .ofDb { Db.empty with
    tenants := .single ⟨"acme", "Acme", "active", 0⟩
    identities := .single (IdentityRow.ofHandles ⟨0, id, fun _ => 7⟩ (some "ann@acme.example") none
      none none none none)
    users := .single ⟨1, "acme", 7, none, "active", none, 0, 0⟩ } 0

/-- Two requests for a code, and a verification of each. -/
def twoCodes : Fin 4 → RouteCall
  | 0 | 1 => .emailOtpRequest "acme" "ann@acme.example"
  | 2 => .otpVerify "acme" "ann@acme.example" "333333" "email"
  | 3 => .otpVerify "acme" "ann@acme.example" "000000" "email"

/-- A code is requested and verified, and a second later another one is; in between the first one
is verified again. -/
def twoLogins : Fin 5 → RouteCall
  | 0 | 1 => .emailOtpRequest "acme" "ann@acme.example"
  | 2 | 3 => .otpVerify "acme" "ann@acme.example" "000000" "email"
  | 4 => .otpVerify "acme" "ann@acme.example" "444444" "email"

/-- The first code is about to be deleted after its login. -/
def firstLogin : List (Fin 5 ⊕ Nat) :=
  List.replicate 6 (Sum.inl ⟨0, by decide⟩) ++ List.replicate 16 (Sum.inl ⟨2, by decide⟩)

/-- The second one is, too. -/
def secondLogin : List (Fin 5 ⊕ Nat) :=
  firstLogin ++ [Sum.inl ⟨2, by decide⟩, Sum.inr 1000000] ++
    List.replicate 6 (Sum.inl ⟨1, by decide⟩) ++ List.replicate 2 (Sum.inl ⟨3, by decide⟩) ++
    List.replicate 16 (Sum.inl ⟨4, by decide⟩)

/-- The two logins after some of the turns. -/
abbrev twoLoginsRun (n : Nat) : Config authrs Failure Unit (Fin 5) State :=
  routeRun .offline member twoLogins (secondLogin.take n)

/-- When a code is accepted, the other calls have ended or not begun; and when one is deleted, none is
left. -/
theorem twoLogins_log :
    ∀ n < secondLogin.length, ∀ i, secondLogin[n]? = some (.inl i) →
      ((∀ m ∈ (twoLoginsRun (n + 1)).log.head?,
          (twoLogins m.who).acceptedCode .offline "acme" "ann@acme.example" m.event = none) ∨
        ∀ j, j ≠ i → ((twoLoginsRun n).threads j).next.isNone = true ∨
          (own j (twoLoginsRun n).log).isEmpty = true) ∧
      (((twoLoginsRun n).threads i).next.bind codeRemoved = none ∨
        (twoLoginsRun (n + 1)).state.db.otpCodes.rows = []) := by
  decide +kernel

theorem run_codesFinal_twoLogins :
    (codeRedemption .offline twoLogins "acme" "ann@acme.example").Final
      (routeRun .offline member twoLogins firstLogin)
      (routeRun .offline member twoLogins secondLogin) := by
  have hfirst : firstLogin <+: secondLogin := by
    rw [secondLogin, List.append_assoc, List.append_assoc, List.append_assoc]
    exact List.prefix_append _ _
  refine run_codesFinal .offline member twoLogins secondLogin "acme" "ann@acme.example" ?_ ?_
    firstLogin secondLogin hfirst (List.prefix_refl secondLogin)
  · intro l' i q k hl' hi id haccepts j id' hne hhold
    obtain ⟨hlt, hturn, hnow, hnext⟩ := Config.take_of_turn hl'
    obtain ⟨hclear, -⟩ := twoLogins_log l'.length hlt i hturn
    rw [twoLoginsRun, twoLoginsRun, hnow, hnext, routeRun, routeRun, Config.run_snoc,
      Config.play_ask hi] at hclear
    rcases hclear with hnone | hothers
    · exact absurd (haccepts.symm.trans (hnone _ rfl)) (by simp)
    · obtain ⟨q', k', hj⟩ := hhold.running
      rcases hothers j hne with h | h
      · rw [hj] at h
        cases h
      · obtain ⟨e, he, -⟩ := hhold.read
        rw [List.isEmpty_iff.mp h] at he
        cases he
  · rintro l' i q k hl' hi id hremoves - id' ⟨r, hr, -⟩
    obtain ⟨hlt, hturn, hnow, hnext⟩ := Config.take_of_turn hl'
    obtain ⟨-, hsole⟩ := twoLogins_log l'.length hlt i hturn
    rw [twoLoginsRun, twoLoginsRun, hnow, hnext, routeRun, routeRun, Config.run_snoc,
      Config.play_ask hi] at hsole
    rcases hsole with h | h
    · rw [hi] at h
      exact absurd (hremoves.symm.trans h) (by simp)
    · exact (List.eq_nil_iff_forall_not_mem.mp h r hr).elim

/-- The second code is requested later than the first, and its verification has logged in. -/
def newerRedeemed : List (Fin 4 ⊕ Nat) :=
  List.replicate 6 (Sum.inl ⟨0, by decide⟩) ++ [Sum.inr 1] ++
    List.replicate 6 (Sum.inl ⟨1, by decide⟩) ++ List.replicate 16 (Sum.inl ⟨2, by decide⟩)

/-- The row is deleted, and the other code is verified. -/
def olderVerified : List (Fin 4 ⊕ Nat) :=
  newerRedeemed ++ [Sum.inl ⟨2, by decide⟩, Sum.inl ⟨3, by decide⟩]

theorem olderVerified_log :
    (1004 : Uuid) ∈ (own 2 (routeRun .offline member twoCodes newerRedeemed).log).filterMap
      ((codeRedemption .offline twoCodes "acme" "ann@acme.example").accepts 2) ∧
    ((own 2 (routeRun .offline member twoCodes newerRedeemed).log).all fun e =>
      (codeRemoved e.request).isNone) ∧
    ((routeRun .offline member twoCodes newerRedeemed).threads 2).next.bind codeRemoved =
      some 1004 ∧
    (routeRun .offline member twoCodes newerRedeemed).log.head?.map Move.who = some 2 ∧
    (((routeRun .offline member twoCodes newerRedeemed).since
      (routeRun .offline member twoCodes olderVerified)).filterMap fun m => codeIssued m.event) = [] ∧
    some 1001 ∈ ((routeRun .offline member twoCodes newerRedeemed).since
      (routeRun .offline member twoCodes olderVerified)).map fun m =>
        (twoCodes m.who).acceptedCode .offline "acme" "ann@acme.example" m.event := by
  decide +kernel

/-- **The older code is accepted after the newer one has been redeemed.** -/
theorem olderCode_accepted :
    ¬ (codeRedemption .offline twoCodes "acme" "ann@acme.example").Final
      (routeRun .offline member twoCodes newerRedeemed)
      (routeRun .offline member twoCodes olderVerified) := by
  obtain ⟨haccepts, hkept, hnext, hlast, hnone, hagain⟩ := olderVerified_log
  intro hfinal
  obtain ⟨m, hm, hwho⟩ := Option.map_eq_some_iff.mp hlast
  obtain ⟨older, hlog⟩ := List.head?_eq_some_iff.mp hm
  obtain ⟨hnew, -⟩ := hfinal 2 1004 (.of_next haccepts hkept hnext hlog hwho)
  obtain ⟨x, hx, haccepted⟩ := List.mem_map.mp hagain
  have hissued := hnew x hx 1001 haccepted
  change (1001 : Uuid) ∈ List.filterMap (fun m : Move authrs (Fin 4) State => codeIssued m.event) _
    at hissued
  rw [hnone] at hissued
  cases hissued

end Authrs
