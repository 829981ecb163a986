import Authrs.Login.Entries
import Authrs.Interaction.Serial

/-!
# The login gates cover the session-minting calls

Whenever one of the eight calls reaches `do_create_session`, the membership and the identity that
it has read should pass every gate. Seven of the calls run `check_gates` themselves. A forced
password change checks only that the membership's access has not expired; it meets the gates
exactly when the rows behind its token do.

## Main definitions

* `GatesCovered`: the gates hold wherever a call reaches `do_create_session`
* `ForceChangePasses`: a forced password change gets as far as the shared tail
* `ForceChangeGated`: the rows behind a change token pass the gates

## Main results

* `LoginCall.gatesCovered_iff`: the calls that meet the gates, in any state
* `run_gatesCovered_iff`: the runs that do
* `locked_forceChange_not_covered`: a locked account that gets a session
-/

namespace Authrs

open Interaction Program

/-- **Wherever a call reaches `do_create_session`**, the one membership and the one identity it has
read are active, not locked, and within their access. -/
def GatesCovered (w : World) (ip userAgent : Option String) (s : State) (c : LoginCall) : Prop :=
  AllAlong (fun h (e : Event authrs) s' => ∀ tenantId userId,
    e.request = .sql (.roles (.getUserRoles tenantId userId)) →
      ∃ m i ds, Rows [m] [i] ds h ∧ m.id = userId ∧ Gates {s'.now} m i)
    [] ((c.run w ip userAgent).trace (handle w) s)

/-- The contract behind `GatesCovered`, at an instant. -/
def covered (now : Time) : Contract authrs :=
  .ofGuarantee fun h e => ∀ tenantId userId,
    e.request = .sql (.roles (.getUserRoles tenantId userId)) →
      ∃ m i ds, Rows [m] [i] ds h ∧ m.id = userId ∧ Gates {now} m i

/-- The clock stands still while a program runs alone, and every reading of it agrees. -/
theorem trace_clock (w : World) {α : Type} (p : Service α) (s : State) :
    AllAlong (fun h _ s' => s'.now = s.now ∧ clocks h ⊆ {s.now}) [] (p.trace (handle w) s) := by
  refine allAlong_invariant (handle w)
    (J := fun h s' => s'.now = s.now ∧ clocks h ⊆ {s.now}) ?_ p ⟨rfl, fun t ht => ?_⟩
  · rintro h s' q ⟨hnow, hclocks⟩
    refine ⟨(handle_now w s' q).trans hnow, fun t ht => ?_⟩
    rcases List.mem_cons.mp ht with he | ht
    · cases he
      exact hnow
    · exact hclocks ht
  · cases ht

theorem gatesCovered_iff_along {w : World} {ip userAgent : Option String} {s : State}
    {c : LoginCall} :
    GatesCovered w ip userAgent s c ↔
      AllAlong (fun h e _ => (covered s.now).guarantee h e) []
        ((c.run w ip userAgent).trace (handle w) s) := by
  have hclock := trace_clock w (c.run w ip userAgent) s
  constructor
  · intro hg
    refine (AllAlong.and hg hclock).imp ?_
    rintro h e s' ⟨hreach, hnow, -⟩
    rwa [hnow] at hreach
  · intro hg
    refine (AllAlong.and hg hclock).imp ?_
    rintro h e s' ⟨hreach, hnow, -⟩
    rw [hnow]
    exact hreach

theorem covered_of_unissued {now : Time} (h : List (Event authrs)) (e : Event authrs)
    (he : issued e.request = none) : (covered now).guarantee h e := by
  intro tenantId userId hq
  rw [hq] at he
  cases he

/-- A call whose basis includes the gates is covered in every state. -/
theorem gatesCovered_of_basis {w : World} {ip userAgent : Option String} {s : State}
    {c : LoginCall} (hb : ∀ k T m i h, Basis w k T m i h c → Gates (clocks h) m i) :
    GatesCovered w ip userAgent s c := by
  rw [gatesCovered_iff_along]
  have hv := ((LoginCall.run_vetted w ip userAgent c).along (handle w) (fun _ _ => trivial) s).1
  refine (AllAlong.and hv (trace_clock w _ s)).imp ?_
  rintro h ⟨q, r⟩ s' ⟨hvetted, -, hclocks⟩ tenantId userId rfl
  obtain ⟨-, m, i, ds, hrows, hid, hbasis⟩ := hvetted _ _ _ rfl
  exact ⟨m, i, ds, hrows, hid, (hb _ _ _ _ _ hbasis).mono hclocks⟩

/-! ### Forced password changes -/

/-- **A forced password change gets as far as the shared tail**: its token names a membership, the
new password is acceptable, and the membership's access has not expired. -/
structure ForceChangePasses (w : World) (s : State)
    (changeToken newPassword retypePassword tenantId : String) (user : User)
    (identity : IdentityRow) (passwordHash : String) : Prop where
  token : ∃ row, s.db.forceChangeToken s.now changeToken = some row ∧ row.tenantId = tenantId ∧
    (s.db.memberships.find? fun u => u.tenantId = tenantId && u.id = row.userId) = some user
  identity : s.db.identity user.identityId = some identity
  retyped : newPassword = retypePassword
  policy : AuthService.policyOutcome w s.db tenantId newPassword = .ok ()
  access : ∀ v, user.accessValidUntil = some v → ¬ v < s.now
  hash : w.hashPassword s.draws newPassword = .ok passwordHash

/-- **The rows behind a change token pass the gates**, if the call would mint a session. -/
def ForceChangeGated (w : World) (s : State) (changeToken newPassword retypePassword : String) :
    Prop :=
  ∀ tenantId user identity passwordHash,
    ForceChangePasses w s changeToken newPassword retypePassword tenantId user identity
      passwordHash →
    identity.mfaEnabled = false →
    user.status = "active" ∧ identity.status = "active" ∧
      ∀ l, identity.lockedUntil = some l → ¬ s.now < l

namespace AuthService

variable {w : World} {s : State}

/-- **The prologue, run alone**, returns exactly what the rows behind the token determine. -/
theorem exec_forceChangePrologue (changeToken newPassword retypePassword : String)
    {tenantId : String} {user : User} {i : Identity} :
    (∃ s₁, (forceChangePrologue w changeToken newPassword retypePassword).exec (handle w) s =
      (.ok (tenantId, user, i), s₁)) ↔
    ∃ row passwordHash, ForceChangePasses w s changeToken newPassword retypePassword tenantId user
      row passwordHash ∧ i = (row.withPassword s.now passwordHash).toIdentity := by
  unfold forceChangePrologue
  simp only [Program.bind_eq, exec_bind_eq_ok]
  constructor
  · rintro ⟨s₁, _, _, ⟨⟩, ⟨T, userId⟩, _, h₁, _, _, h₂, _, _, h₃, _, _, ⟨⟩, u, _, h₄, _, _, h₅, hash,
      _, h₆, _, _, ⟨⟩, _, _, ⟨⟩, i', _, h₇, ⟨⟩⟩
    obtain ⟨htoken, rfl⟩ := Service.exec_okOr_eq_ok.mp h₁
    obtain ⟨hret, rfl⟩ := Service.exec_ensure_eq_ok.mp h₂
    obtain ⟨hpol, rfl⟩ := exec_validatePassword_eq_ok.mp h₃
    obtain ⟨huser, rfl⟩ := Service.exec_okOr_eq_ok.mp h₄
    obtain ⟨hacc, rfl⟩ := exec_checkAccess_eq_ok.mp h₅
    obtain ⟨hhash, rfl⟩ := exec_hashPassword_eq_ok.mp h₆
    obtain ⟨⟨row, hrow, rfl⟩, rfl⟩ := exec_loadIdentity_eq_ok.mp h₇
    obtain ⟨tokenRow, htokenRow, hpair⟩ := Option.map_eq_some_iff.mp htoken
    cases hpair
    -- The identity is read again after the update, so it has the new password.
    have hupdated : (s.db.updateIdentity user.identityId (.withPassword s.now hash) fun r =>
      r.withPassword_id _ _).identity user.identityId = some row := hrow
    cases hid : s.db.identity user.identityId with
    | none =>
      rw [Db.identity_updateIdentity_none hid] at hupdated
      cases hupdated
    | some r =>
      rw [Db.identity_updateIdentity hid] at hupdated
      cases hupdated
      exact ⟨r, hash, ⟨⟨tokenRow, htokenRow, rfl, huser⟩, hid, hret, hpol, hacc, hhash⟩, rfl⟩
  · rintro ⟨row, hash, ⟨⟨tokenRow, htokenRow, rfl, huser⟩, hid, hret, hpol, hacc, hhash⟩, rfl⟩
    have htoken : (s.db.forceChangeToken s.now changeToken).map (fun r => (r.tenantId, r.userId)) =
        some (tokenRow.tenantId, tokenRow.userId) := by
      rw [htokenRow]
      rfl
    have hload : (s.db.updateIdentity user.identityId (.withPassword s.now hash) fun r =>
        r.withPassword_id _ _).identity user.identityId = some (row.withPassword s.now hash) :=
      Db.identity_updateIdentity hid
    refine ⟨_, _, _, rfl, _, _, Service.exec_okOr_eq_ok.mpr ⟨htoken, rfl⟩, (), _,
      Service.exec_ensure_eq_ok.mpr ⟨hret, rfl⟩, (), _,
      exec_validatePassword_eq_ok.mpr ⟨hpol, rfl⟩, _, _, rfl, user, _,
      Service.exec_okOr_eq_ok.mpr ⟨huser, rfl⟩, (), _, exec_checkAccess_eq_ok.mpr ⟨hacc, rfl⟩, hash,
      _, exec_hashPassword_eq_ok.mpr ⟨hhash, rfl⟩, (), _, rfl, (), _, rfl, _, _,
      exec_loadIdentity_eq_ok.mpr ⟨⟨_, hload, rfl⟩, rfl⟩, rfl⟩

/-- `do_create_session` begins with the lookup of the user's roles. -/
theorem trace_doCreateSession (tenantId : String) (user : User) (ip userAgent : Option String) :
    ∃ r tr, (doCreateSession w tenantId user ip userAgent).trace (handle w) s =
      (⟨.sql (.roles (.getUserRoles tenantId user.id)), r⟩, s) :: tr :=
  ⟨_, _, rfl⟩

/-- The tail of a forced password change is covered if the rows pass the gates, or no session is
minted. -/
theorem finalizeLogin_covered {tenantId : String} {user : User} {i : Identity}
    {ip userAgent : Option String} {now : Time} {h : List (Event authrs)}
    (hp : Prologue [user.toRow] [i] [] h) (hg : i.mfaEnabled = false → Gates {now} user.toRow i) :
    (finalizeLogin w tenantId user i ip userAgent).Keeps (covered now) (fun _ _ => True) h := by
  refine finalizeLogin_keeps (M := Rows [user.toRow] [i] []) covered_of_unissued
    (fun h e hrows hs => hrows.cons hs) user i ip userAgent ?_ hp.toRows hp.unissued
  rintro h' ⟨q, r⟩ k hrows hi hcall - tenantId' userId' rfl
  cases hi
  exact ⟨_, i, _, hrows, rfl, hg hcall.2⟩

end AuthService

/-- The calls that meet the gates: every call but a forced password change, and that one exactly
when the rows behind its token pass them. -/
def LoginCall.Gated (w : World) (s : State) : LoginCall → Prop
  | .forceChange changeToken newPassword retypePassword =>
    ForceChangeGated w s changeToken newPassword retypePassword
  | _ => True

theorem forceChange_covered_iff {w : World} {ip userAgent : Option String} {s : State}
    {changeToken newPassword retypePassword : String} :
    GatesCovered w ip userAgent s (.forceChange changeToken newPassword retypePassword) ↔
      ForceChangeGated w s changeToken newPassword retypePassword := by
  have hprologue := (AuthService.forceChangePrologue_ok (w := w) covered_of_unissued changeToken
    newPassword retypePassword).along (handle w) (C := covered s.now) (fun _ _ => trivial) s
  rw [gatesCovered_iff_along]
  simp only [LoginCall.run, AuthService.forceChangePassword_eq]
  rw [trace_bind, allAlong_append]
  constructor
  · rintro ⟨-, htail⟩ tenantId user row hash hpasses hmfa
    obtain ⟨s₁, hs₁⟩ := (AuthService.exec_forceChangePrologue changeToken newPassword
      retypePassword).mpr ⟨row, hash, hpasses, rfl⟩
    rw [hs₁] at htail hprologue
    have hrows := hprologue.2.1.toRows
    have hsession : AuthService.finalizeLogin w tenantId user
        (row.withPassword s.now hash).toIdentity ip userAgent =
          AuthService.doCreateSession w tenantId user ip userAgent := by
      simp [AuthService.finalizeLogin, IdentityRow.withPassword, hmfa]
    obtain ⟨r, tr, htr⟩ := AuthService.trace_doCreateSession (w := w) (s := s₁) tenantId user ip
      userAgent
    simp only [hsession] at htail
    rw [htr] at htail
    obtain ⟨m, i, ds, hrows', -, hgates⟩ := htail.1 _ _ rfl
    -- The rows known at this point are the ones the prologue returned.
    obtain ⟨⟩ := hrows.memberships.symm.trans hrows'.memberships
    obtain ⟨⟩ := hrows.identities.symm.trans hrows'.identities
    refine ⟨hgates.membershipActive, hgates.identityActive, fun l hl => ?_⟩
    obtain ⟨t, rfl, hlt⟩ := hgates.unlocked l hl
    exact hlt
  · intro hgated
    refine ⟨hprologue.1, ?_⟩
    rcases hexec : (AuthService.forceChangePrologue w changeToken newPassword retypePassword).exec
      (handle w) s with ⟨e | ⟨tenantId, user, i⟩, s₁⟩
    · trivial
    · rw [hexec] at hprologue
      obtain ⟨row, hash, hpasses, rfl⟩ := (AuthService.exec_forceChangePrologue changeToken
        newPassword retypePassword).mp ⟨s₁, hexec⟩
      refine ((AuthService.finalizeLogin_covered hprologue.2.1 fun hmfa => ?_).along (handle w)
        (fun _ _ => trivial) s₁).1
      obtain ⟨hm, hi, hlock⟩ := hgated tenantId user row hash hpasses hmfa
      exact ⟨hm, hi, fun l hl => ⟨_, rfl, hlock l hl⟩, fun v hv => ⟨_, rfl, hpasses.access v hv⟩⟩

/-- **The calls that meet the gates**, in any state. -/
theorem LoginCall.gatesCovered_iff (w : World) (ip userAgent : Option String) (s : State)
    (c : LoginCall) : GatesCovered w ip userAgent s c ↔ c.Gated w s := by
  cases c with
  | forceChange changeToken newPassword retypePassword => exact forceChange_covered_iff
  | completeMfa mfaToken code =>
    exact iff_of_true (gatesCovered_of_basis fun _ _ _ _ _ hb => hb.2.1) trivial
  | _ => exact iff_of_true (gatesCovered_of_basis fun _ _ _ _ _ hb => hb.2.1) trivial

/-! ### Runs -/

/-- A step of a run: a login call, or anything that the surroundings do to the state. -/
inductive LoginStep
  | call (ip userAgent : Option String) (c : LoginCall)
  | surroundings (f : State → State)

/-- The state after a step. -/
def LoginStep.next (w : World) (s : State) : LoginStep → State
  | call ip userAgent c => ((c.run w ip userAgent).exec (handle w) s).2
  | surroundings f => f s

/-- The step, if it is a call, is covered by the gates. -/
def LoginStep.Covered (w : World) (s : State) : LoginStep → Prop
  | call ip userAgent c => GatesCovered w ip userAgent s c
  | surroundings _ => True

/-- The step, if it is a forced password change, is for rows that pass the gates. -/
def LoginStep.Gated (w : World) (s : State) : LoginStep → Prop
  | call _ _ c => c.Gated w s
  | surroundings _ => True

/-- **The runs that meet the gates**: those in which the rows behind every change token do. -/
theorem run_gatesCovered_iff (w : World) (s : State) (l : List LoginStep) :
    EachCall (LoginStep.next w) (LoginStep.Covered w) s l ↔
      EachCall (LoginStep.next w) (LoginStep.Gated w) s l := by
  refine eachCall_congr (fun s x => ?_) s l
  cases x with
  | call ip userAgent c => exact LoginCall.gatesCovered_iff w ip userAgent s c
  | surroundings f => exact Iff.rfl

/-- An identity that is locked for another quarter of an hour, with a change token. -/
def lockedIdentity : State :=
  .ofDb { Db.empty with
    tenants := ⟨[⟨"acme", "Acme", "active", 0⟩], by decide⟩
    identities := ⟨[{ IdentityRow.ofHandles ⟨0, id, fun _ => 7⟩ (some "ann@acme.example") none none
      none none (some ":correct horse") with
        forcePasswordChange := true
        failedAttempts := 5
        lockedUntil := some (minutes 15) }], by decide⟩
    users := ⟨[⟨1, "acme", 7, none, "active", none, 0, 0⟩], by decide⟩
    forceChangeTokens := ⟨[⟨"acme", 1, "t", minutes 10⟩], by decide⟩ } 0

/-- The locked identity gets a session for its change token. -/
theorem locked_forceChange_not_covered :
    ¬ EachCall (LoginStep.next .offline) (LoginStep.Covered .offline) lockedIdentity
      [.call none none (.forceChange "t" "S3cret" "S3cret")] := by
  rintro ⟨hcovered, -⟩
  have hgated := (LoginCall.gatesCovered_iff .offline none none lockedIdentity _).mp hcovered
  have hpasses : ∃ user identity passwordHash, ForceChangePasses .offline lockedIdentity "t"
      "S3cret" "S3cret" "acme" user identity passwordHash ∧ identity.mfaEnabled = false ∧
        identity.lockedUntil = some (minutes 15) :=
    ⟨_, _, _, ⟨⟨_, rfl, rfl, rfl⟩, rfl, rfl, rfl, by rintro _ ⟨⟩, rfl⟩, rfl, rfl⟩
  obtain ⟨user, identity, passwordHash, hp, hmfa, hlock⟩ := hpasses
  exact (hgated "acme" user identity passwordHash hp hmfa).2.2 _ hlock (by decide)

end Authrs
