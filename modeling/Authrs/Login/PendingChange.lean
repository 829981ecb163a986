import Authrs.Login.PasswordTokens
import Authrs.Login.Clients
import Mathlib.Data.List.Infix

/-!
# Pending password changes

A change token belongs to a membership, while the password and the demand to change it belong to
the identity. Setting the password meets the demand, but leaves the tokens of the identity's other
memberships: they set the password again, with no change pending. They do not in the runs in which
nothing meets a demand while such a token is live, or has been found by another call.

## Main definitions

* `CredentialCall`: the logins, password changes and resets, with their `run`
* `Pending`: the identity of a membership has to change its password
* `Orderly`: what the steps of a run leave alone
* `SetsPending`: a forced change sets a password only while a change is pending

## Main results

* `Sound.advance`: an orderly step keeps the live tokens pending
* `run_setsPending`: forced changes set pending passwords in the runs of orderly steps
* `otherTenant_sets`: a token of another tenant sets a password that has just been changed
-/

namespace Authrs

open Interaction Relational

/-! ### Memberships -/

/-- The membership is the identity's. -/
def MemberOf (db : Db) (tenantId : String) (userId identityId : Uuid) : Prop :=
  ∃ u ∈ db.users, u.tenantId = tenantId ∧ u.id = userId ∧ u.identityId = identityId

/-- The identity has to change its password. -/
def Demanded (id : Uuid) (s : State) : Prop :=
  ∃ r, s.db.identity id = some r ∧ r.forcePasswordChange = true

/-- **A change is pending** for the membership: its identity has to change its password. -/
def Pending (s : State) (tenantId : String) (userId : Uuid) : Prop :=
  ∃ id, MemberOf s.db tenantId userId id ∧ Demanded id s

/-- A request that meets the demand on an identity, or withdraws it. -/
inductive Clears (id : Uuid) : Request → Prop
  | password (passwordHash : String) : Clears id (.sql (.identities (.updatePassword id passwordHash)))
  | withdrawn : Clears id (.sql (.identities (.setForcePasswordChange id false)))

section Members

variable {w : World} {s : State} {tenantId : String} {userId identityId : Uuid}

theorem MemberOf.unique {db : Db} {identityId' : Uuid}
    (h : MemberOf db tenantId userId identityId) (h' : MemberOf db tenantId userId identityId') :
    identityId = identityId' := by
  obtain ⟨u, hu, -, hid, rfl⟩ := h
  obtain ⟨u', hu', -, hid', rfl⟩ := h'
  rw [Table.eq_of_key_eq hu hu' (hid.trans hid'.symm)]

/-- A membership is still its identity's when other columns are set. -/
theorem MemberOf.update {db : Db} (h : MemberOf db tenantId userId identityId)
    {chosen : MembershipRow → Bool} {f : MembershipRow → MembershipRow} {hf : ∀ u, (f u).id = u.id}
    (htenant : ∀ u, (f u).tenantId = u.tenantId) (hidentity : ∀ u, (f u).identityId = u.identityId) :
    MemberOf { db with users := db.users.update chosen f hf } tenantId userId identityId := by
  obtain ⟨u, hu, rfl, rfl, rfl⟩ := h
  by_cases hchosen : chosen u = true
  · have hset : f u ∈ db.users.update chosen f hf := Table.mem_update_of_pos hu hchosen
    exact ⟨f u, hset, htenant u, hf u, hidentity u⟩
  · have hkept : u ∈ db.users.update chosen f hf :=
      Table.mem_update_of_not hu (Bool.eq_false_iff.mpr hchosen)
    exact ⟨u, hkept, rfl, rfl, rfl⟩

/-- A membership stays its identity's. -/
theorem MemberOf.handle (h : MemberOf s.db tenantId userId identityId) (q : Request) :
    MemberOf (handle w q s).2.db tenantId userId identityId := by
  have hmember := h
  obtain ⟨u, hu, htenant, hid, hidentity⟩ := h
  have hsame : (Authrs.handle w q s).2.db.users = s.db.users →
      MemberOf (Authrs.handle w q s).2.db tenantId userId identityId :=
    fun heq => ⟨u, heq ▸ hu, htenant, hid, hidentity⟩
  rcases handle_db (w := w) (s := s) q with hdb | ⟨x, n, rfl, hexec⟩
  · exact hsame (by rw [hdb])
  · cases x with
    | users x =>
      cases x with
      | create =>
        obtain ⟨_, t, -, -, -, -, hins, hdb⟩ := insertMembership_ok hexec
        rw [hdb]
        exact ⟨u, (Table.mem_insert? hins).mpr (.inr hu), htenant, hid, hidentity⟩
      | setAccessValidUntil => exact hmember.update (fun _ => rfl) fun _ => rfl
      | archive => exact hmember.update (fun _ => rfl) fun _ => rfl
      | _ => exact hsame rfl
    | _ => exact hsame ((Sql.exec_frame hexec).users fun _ h => nomatch h)

/-- A membership that a lookup finds. -/
theorem memberOf_of_getById {user : User}
    (h : (handle w (.sql (.users (.getById tenantId userId))) s).1 = .ok (some user)) :
    MemberOf s.db tenantId userId user.identityId := by
  have hfind : (s.db.memberships.find? fun u => u.tenantId = tenantId && u.id = userId) = some user :=
    Except.ok.inj h
  obtain ⟨u, hu, htenant, hid, i, -, rfl⟩ := Db.find_membership.mp hfind
  exact ⟨u, hu, htenant, hid, rfl⟩

/-- **A change stays pending** until a request meets the demand. -/
theorem Pending.handle (h : Pending s tenantId userId) {q : Request}
    (hq : ∀ id, MemberOf s.db tenantId userId id → ¬ Clears id q) :
    Pending (handle w q s).2 tenantId userId := by
  obtain ⟨id, hmember, r, hr, hforce⟩ := h
  obtain ⟨r', hr', hchange⟩ := handle_identity (w := w) q hr
  refine ⟨id, hmember.handle q, r', hr', ?_⟩
  cases hchange with
  | password => exact absurd (.password _) (hq id hmember)
  | forcePasswordChange b =>
    cases b with
    | true => rfl
    | false => exact absurd .withdrawn (hq id hmember)
  | _ => exact hforce

/-- A demand appears when it is made. -/
theorem demanded_appears {id : Uuid} {q : Request} (hbefore : ¬ Demanded id s)
    (hafter : Demanded id (Authrs.handle w q s).2) :
    q = .sql (.identities (.setForcePasswordChange id true)) := by
  by_contra hne
  obtain ⟨r', hr', hforce⟩ := hafter
  cases hr : s.db.identity id with
  | none =>
    -- A new identity has chosen its password itself.
    rcases handle_identity_none (w := w) q hr with hnone | ⟨_, _, _, _, _, _, _, hsome⟩
    · cases hr'.symm.trans hnone
    · obtain rfl := Option.some.inj (hr'.symm.trans hsome)
      cases hforce
  | some r =>
    obtain ⟨r'', hr'', hchange⟩ := handle_identity (w := w) q hr
    obtain rfl : r' = r'' := Option.some.inj (hr'.symm.trans hr'')
    cases hchange with
    | forcePasswordChange b =>
      obtain rfl : b = true := hforce
      exact hne rfl
    | password => cases hforce
    | _ => exact hbefore ⟨_, hr, hforce⟩

/-- A request that meets a demand leaves the tokens alone. -/
theorem Clears.tokens {id : Uuid} {q : Request} (h : Clears id q) :
    (Authrs.handle w q s).2.db.forceChangeTokens = s.db.forceChangeTokens := by
  cases h <;> rfl

end Members

/-! ### Calls -/

/-- A call that logs in, or changes or resets a password. -/
inductive CredentialCall
  | client (c : ClientCall)
  | forgot (email : String)
  | reset (tenantId token newPassword retypePassword : String)
  | change (tenantId : String) (userId : Uuid)
      (currentPassword newPassword retypePassword : String)
  | adminReset (tenantId : String) (userId : Uuid) (newPassword retypePassword : String)
      (forcePasswordChange : Bool)

/-- **The call**, with its result dropped. -/
def CredentialCall.run (w : World) : CredentialCall → Service Unit
  | client c => c.run w
  | forgot email => do
    let _ ← AuthService.forgotPassword w email
    pure ()
  | reset tenantId token newPassword retypePassword =>
    AuthService.resetPassword w tenantId token newPassword retypePassword
  | change tenantId userId currentPassword newPassword retypePassword =>
    AuthService.changePassword w tenantId userId currentPassword newPassword retypePassword
  | adminReset tenantId userId newPassword retypePassword forcePasswordChange =>
    AuthService.adminResetPassword w tenantId userId newPassword retypePassword forcePasswordChange

/-- The change token that a call presents. -/
def CredentialCall.changeToken : CredentialCall → Option String
  | client (.login _ _ (.forceChange changeToken _ _)) => some changeToken
  | _ => none

/-- The exchange in which a change token is found. -/
abbrev foundToken (changeToken tenantId : String) (userId : Uuid) : Event authrs :=
  did (.tokens (.getForceChangeToken changeToken)) (some (tenantId, userId))

/-- A forced change sets the password of the identity of the membership that its token names. -/
def SetsFor (changeToken : String) (h : List (Event authrs)) (e : Event authrs) : Prop :=
  ∀ id passwordHash, e.request = .sql (.identities (.updatePassword id passwordHash)) →
    ∃ tenantId userId user, foundToken changeToken tenantId userId ∈ h ∧
      did (.users (.getById tenantId userId)) (some user) ∈ h ∧ user.identityId = id

open Program

theorem setsFor_of_idle {changeToken : String} {h : List (Event authrs)} {e : Event authrs}
    (he : aboutPassword e.request = false) : SetsFor changeToken h e := by
  intro id passwordHash hq
  rw [hq] at he
  cases he

theorem forceChangePassword_setsFor {w : World} (changeToken newPassword retypePassword : String)
    (ip userAgent : Option String) :
    (AuthService.forceChangePassword w changeToken newPassword retypePassword ip userAgent).Keeps
      (.ofGuarantee (SetsFor changeToken)) (OnOk fun _ _ => True) [] := by
  have hidle : ∀ {α : Type} {p : Service α} {h : List (Event authrs)},
      (p.Asks fun q => ordinary q = true) →
        p.Keeps (.ofGuarantee (SetsFor changeToken)) (OnOk fun _ _ => True) h :=
    fun hp => ((hp.keeps fun _ _ he =>
      setsFor_of_idle (not_aboutPassword_of_ordinary he)).weaken fun _ o _ => by cases o <;> trivial)
  refine (keeps_query_ok fun e he => setsFor_of_idle (he ▸ rfl)).bind_ok ?_
  rintro found h₁ - rfl
  refine (keeps_okOr_ok _ _).bind_ok ?_
  rintro ⟨tenantId, userId⟩ h₂ - ⟨rfl, rfl⟩
  refine (hidle (asks_ensure _ _)).bind_ok ?_
  rintro - h₃ hsub₃ -
  refine (hidle (AuthService.validatePassword_asks (fun _ => id) w tenantId newPassword)).bind_ok ?_
  rintro - h₄ hsub₄ -
  refine (keeps_query_ok (q := .users (.getById tenantId userId))
    fun e he => setsFor_of_idle (he ▸ rfl)).bind_ok ?_
  rintro found h₅ hsub₅ rfl
  refine (keeps_okOr_ok _ _).bind_ok ?_
  rintro user h₆ - ⟨rfl, rfl⟩
  refine (hidle (AuthService.checkAccess_asks (fun _ => id) user)).bind_ok ?_
  rintro - h₇ hsub₇ -
  refine (hidle (hashPassword_asks (fun _ => id) newPassword)).bind_ok ?_
  rintro passwordHash h₈ hsub₈ -
  have hfound : foundToken changeToken tenantId userId ∈ h₈ :=
    hsub₈ (hsub₇ (hsub₅ (hsub₄ (hsub₃ List.mem_cons_self))))
  have huser : did (.users (.getById tenantId userId)) (some user) ∈ h₈ :=
    hsub₈ (hsub₇ List.mem_cons_self)
  refine Keeps.bind_ok (p := IdentitiesRepo.updatePassword user.identityId passwordHash)
    (keeps_execute_ok fun e he id hash hq => ?_) ?_
  · rw [he] at hq
    cases hq
    exact ⟨tenantId, userId, user, hfound, huser, rfl⟩
  · rintro - h₉ - -
    -- Nothing after this sets a password.
    have hrest : ((ForceChangeTokensRepo.deleteByToken changeToken).bind fun _ =>
        (AuthService.loadIdentity user.identityId).bind fun identity =>
          AuthService.finalizeLogin w tenantId user identity ip userAgent).Asks
            fun q : Request => ∀ id passwordHash,
              q ≠ .sql (.identities (.updatePassword id passwordHash)) := by
      refine Asks.bind (p := ForceChangeTokensRepo.deleteByToken changeToken)
        (asks_execute fun _ _ h => nomatch h) fun _ => ?_
      refine Asks.bind (p := AuthService.loadIdentity user.identityId)
        ((asks_query fun _ _ h => nomatch h).bind fun _ => asks_okOr _ _) fun identity => ?_
      refine (finalizeLogin_reissues w tenantId user identity ip userAgent).mono ?_
      rintro q (hidle | ⟨-, _, _, _, _, hissue⟩) id hash rfl
      · cases hidle
      · cases hissue
    refine (hrest.keeps fun _ _ he id hash hq => ?_).weaken fun _ o _ => by cases o <;> trivial
    exact absurd hq (he id hash)

/-- What a forced change's requests are guaranteed to be. -/
def CredentialCall.Guarantee (c : CredentialCall) (h : List (Event authrs)) (e : Event authrs) :
    Prop :=
  ∀ changeToken, c.changeToken = some changeToken →
    PasswordStep (.change changeToken) h e ∧ SetsFor changeToken h e

/-- The contract of a call. -/
def CredentialCall.contract (c : CredentialCall) : Contract authrs := .ofGuarantee c.Guarantee

/-- A forced change that has set a password has deleted its token. -/
def CredentialCall.Ends (c : CredentialCall) (h : List (Event authrs)) : Prop :=
  ∀ changeToken, c.changeToken = some changeToken → Settled (.change changeToken) h

/-- **Every call keeps its contract.** -/
theorem CredentialCall.run_keeps (w : World) (c : CredentialCall) :
    (c.run w).Keeps c.contract (fun h _ => c.Ends h) [] := by
  have hother : c.changeToken = none → (c.run w).Keeps c.contract (fun h _ => c.Ends h) [] := by
    intro hnone
    have hany : (c.run w).Asks fun _ => True := Asks.all _
    refine (hany.keeps fun h e _ token htoken => ?_).weaken fun h o _ token htoken => ?_
    · rw [hnone] at htoken
      cases htoken
    · rw [hnone] at htoken
      cases htoken
  cases c with
  | client c =>
    cases c with
    | login ip userAgent c =>
      cases c with
      | forceChange changeToken newPassword retypePassword =>
        have hsteps := forceChangePassword_steps (w := w) changeToken newPassword retypePassword ip
          userAgent
        have hsets := forceChangePassword_setsFor (w := w) changeToken newPassword retypePassword ip
          userAgent
        refine (keeps_bind _ _).mpr ((hsteps.both hsets).mono (fun _ _ _ => ⟨trivial, trivial⟩) ?_ ?_)
        · rintro h e - hg token ⟨⟩
          exact hg
        · rintro h (e | result) ⟨hend, -⟩ token ⟨⟩
          · exact hend
          · exact Exchanged.settled hend
      | _ => exact hother rfl
    | _ => exact hother rfl
  | _ => exact hother rfl

/-! ### Steps -/

variable {ι : Type} [DecidableEq ι] {call : ι → CredentialCall} {w : World}
  {c : Config authrs Failure Unit ι State} {i j : ι} {q : Request} {k : Reply q → Service Unit}

/-- A forced change that has found its token, and has not deleted it. -/
def HoldsToken (call : ι → CredentialCall) (c : Config authrs Failure Unit ι State) (j : ι)
    (changeToken : String) : Prop :=
  (call j).changeToken = some changeToken ∧
    Holding (fun e => (PasswordToken.change changeToken).found e = true)
      (fun q => q = (PasswordToken.change changeToken).deletion) c j

/-- A call that has set a password. -/
def HasSet (c : Config authrs Failure Unit ι State) (j : ι) : Prop :=
  ∃ e ∈ own j c.log, passwordSet e = true

/-- **An orderly step.** A change token is stored only while a change is pending. A demand is met or
withdrawn only when every live token of the identity's memberships is the caller's own, or is about
to be deleted by the call that has used it, and no other call is about to use one. A token is found
only when no call that has used it is about to delete it. -/
structure Orderly (w : World) (call : ι → CredentialCall) (c : Config authrs Failure Unit ι State)
    (i : ι) (q : Request) : Prop where
  stored : ∀ t ∈ (handle w q c.state).2.db.forceChangeTokens,
    t ∉ c.state.db.forceChangeTokens → Pending c.state t.tenantId t.userId
  live : ∀ id, Clears id q → ∀ t ∈ c.state.db.forceChangeTokens, c.state.now < t.expiresAt →
    MemberOf c.state.db t.tenantId t.userId id →
      (call i).changeToken = some t.token ∨ ∃ j, HoldsToken call c j t.token ∧ HasSet c j
  held : ∀ id, Clears id q → ∀ j, j ≠ i → ∀ changeToken tenantId userId,
    HoldsToken call c j changeToken → ¬ HasSet c j →
    foundToken changeToken tenantId userId ∈ own j c.log →
      ¬ MemberOf c.state.db tenantId userId id
  found : ∀ changeToken tenantId userId, (call i).changeToken = some changeToken →
    (⟨q, (handle w q c.state).1⟩ : Event authrs) = foundToken changeToken tenantId userId →
      ∀ j, HoldsToken call c j changeToken → ¬ HasSet c j

/-- **What orderly steps keep**: a change is pending for every live token, unless the call that has
used it is about to delete it, and for every token that has been found and not been used. -/
structure Sound (call : ι → CredentialCall) (c : Config authrs Failure Unit ι State) : Prop where
  kept : c.Kept (fun i => (call i).contract) (fun i h _ => (call i).Ends h)
  tokens : ∀ t ∈ c.state.db.forceChangeTokens, c.state.now < t.expiresAt →
    Pending c.state t.tenantId t.userId ∨ ∃ j, HoldsToken call c j t.token ∧ HasSet c j
  held : ∀ j changeToken tenantId userId, HoldsToken call c j changeToken → ¬ HasSet c j →
    foundToken changeToken tenantId userId ∈ own j c.log → Pending c.state tenantId userId
  members : ∀ m ∈ c.log, ∀ tenantId userId user,
    m.event = did (.users (.getById tenantId userId)) (some user) →
      MemberOf c.state.db tenantId userId user.identityId

/-- **A forced change sets a password only while a change is pending.** -/
def SetsPending (call : ι → CredentialCall) (log : List (Move authrs ι State)) : Prop :=
  EachMove (fun _ m => (call m.who).changeToken ≠ none → ∀ id passwordHash,
    m.event.request = Request.sql (.identities (.updatePassword id passwordHash)) →
      (m.before.db.identity id).isSome → Demanded id m.before) log

omit [DecidableEq ι] in
theorem found_foundToken (changeToken tenantId : String) (userId : Uuid) :
    (PasswordToken.change changeToken).found (foundToken changeToken tenantId userId) = true :=
  decide_eq_true rfl

/-- A forced change that has set its password, and not deleted its token, is still running. -/
theorem HoldsToken.of_set {changeToken : String}
    (hkept : c.Kept (fun i => (call i).contract) (fun i h _ => (call i).Ends h))
    (hcall : (call i).changeToken = some changeToken)
    (hread : ∃ e ∈ own i c.log, (PasswordToken.change changeToken).found e = true)
    (hun : ∀ e ∈ own i c.log, e.request ≠ (PasswordToken.change changeToken).deletion)
    (hset : HasSet c i) : HoldsToken call c i changeToken := by
  have hend : ¬ (call i).Ends (own i c.log) := by
    intro hends
    obtain ⟨e, he, hdeleted⟩ := hends changeToken hcall hset
    exact hun e he hdeleted
  have hi := hkept i
  refine ⟨hcall, hread, hun, ?_⟩
  cases hthread : c.threads i with
  | ask q k => exact ⟨q, k, hthread⟩
  | pure a =>
    rw [hthread] at hi
    exact (hend hi).elim
  | throw e =>
    rw [hthread] at hi
    exact (hend hi).elim

theorem holdsToken_advance_ne {changeToken : String} (h : j ≠ i) :
    HoldsToken call (c.advance (handle w) i q k) j changeToken ↔
      HoldsToken call c j changeToken :=
  and_congr_right fun _ => holding_advance_ne h

theorem hasSet_advance_ne (h : j ≠ i) :
    HasSet (c.advance (handle w) i q k) j ↔ HasSet c j := by
  unfold HasSet
  rw [Config.own_advance_ne h]

/-- Who has used its token still holds it, until it deletes it. -/
theorem HoldsToken.advance {changeToken : String}
    (hkept : (c.advance (handle w) i q k).Kept (fun i => (call i).contract)
      (fun i h _ => (call i).Ends h))
    (hhold : HoldsToken call c j changeToken) (hset : HasSet c j)
    (hq : j = i → q ≠ (PasswordToken.change changeToken).deletion) :
    HoldsToken call (c.advance (handle w) i q k) j changeToken ∧
      HasSet (c.advance (handle w) i q k) j := by
  by_cases hji : j = i
  · subst hji
    have hset' : HasSet (c.advance (handle w) j q k) j := by
      obtain ⟨e, he, heset⟩ := hset
      refine ⟨e, ?_, heset⟩
      rw [Config.own_advance_self]
      exact List.mem_cons_of_mem _ he
    refine ⟨.of_set hkept hhold.1 ?_ ?_ hset', hset'⟩
    · obtain ⟨e, he, hread⟩ := hhold.2.read
      refine ⟨e, ?_, hread⟩
      rw [Config.own_advance_self]
      exact List.mem_cons_of_mem _ he
    · rw [Config.own_advance_self]
      exact List.forall_mem_cons.mpr ⟨hq rfl, hhold.2.unreleased⟩
  · exact ⟨(holdsToken_advance_ne hji).mpr hhold, (hasSet_advance_ne hji).mpr hset⟩

omit [DecidableEq ι] in
/-- A forced change that meets a demand sets the password. -/
theorem Clears.updates {h : List (Event authrs)} {r : Reply q} {id : Uuid} {changeToken : String}
    (hclears : Clears id q) (hs : PasswordStep (.change changeToken) h ⟨q, r⟩) :
    ∃ passwordHash, q = .sql (.identities (.updatePassword id passwordHash)) := by
  cases hclears with
  | password passwordHash => exact ⟨passwordHash, rfl⟩
  | withdrawn => exact absurd rfl (hs.request.1 id false)

/-- Before it meets a demand, a forced change has found its token, and set no password. -/
theorem HoldsToken.before {id : Uuid} {changeToken : String}
    (hi : c.threads i = .ask q k) (hcall : (call i).changeToken = some changeToken)
    (hg : (call i).Guarantee (own i c.log) ⟨q, (handle w q c.state).1⟩) (hclears : Clears id q) :
    HoldsToken call c i changeToken ∧ ¬ HasSet c i := by
  obtain ⟨hstep, -⟩ := hg changeToken hcall
  obtain ⟨passwordHash, hq⟩ := hclears.updates hstep
  obtain ⟨hread, hu⟩ := hstep.set_inv hq
  refine ⟨⟨hcall, hread, fun e he => (hu e he).2, q, k, hi⟩, ?_⟩
  rintro ⟨e, he, hset⟩
  rw [(hu e he).1] at hset
  cases hset

/-- After it, the token is still to be deleted. -/
theorem HoldsToken.after {id : Uuid} {changeToken : String}
    (hkept : (c.advance (handle w) i q k).Kept (fun i => (call i).contract)
      (fun i h _ => (call i).Ends h))
    (hhold : HoldsToken call c i changeToken)
    (hg : (call i).Guarantee (own i c.log) ⟨q, (handle w q c.state).1⟩) (hclears : Clears id q) :
    HoldsToken call (c.advance (handle w) i q k) i changeToken ∧
      HasSet (c.advance (handle w) i q k) i := by
  obtain ⟨passwordHash, rfl⟩ := hclears.updates (hg changeToken hhold.1).1
  have hset : ∃ e ∈ own i (c.advance (handle w) i (Request.sql (.identities
      (.updatePassword id passwordHash))) k).log, passwordSet e = true := by
    rw [Config.own_advance_self]
    exact ⟨_, List.mem_cons_self, rfl⟩
  refine ⟨.of_set hkept hhold.1 ?_ ?_ hset, hset⟩
  · obtain ⟨e, he, hread⟩ := hhold.2.read
    refine ⟨e, ?_, hread⟩
    rw [Config.own_advance_self]
    exact List.mem_cons_of_mem _ he
  · rw [Config.own_advance_self]
    refine List.forall_mem_cons.mpr ⟨?_, hhold.2.unreleased⟩
    rintro ⟨⟩

omit [DecidableEq ι] in
/-- The row behind a token that is found. -/
theorem row_of_foundToken {changeToken tenantId : String} {userId : Uuid}
    (h : (⟨q, (handle w q c.state).1⟩ : Event authrs) = foundToken changeToken tenantId userId) :
    ∃ t ∈ c.state.db.forceChangeTokens, c.state.now < t.expiresAt ∧ t.token = changeToken ∧
      t.tenantId = tenantId ∧ t.userId = userId := by
  obtain ⟨rfl, hreply⟩ := Event.mk.inj h
  have hread : (c.state.db.forceChangeToken c.state.now changeToken).map
      (fun r => (r.tenantId, r.userId)) = some (tenantId, userId) := Except.ok.inj (eq_of_heq hreply)
  obtain ⟨t, ht, hpair⟩ := Option.map_eq_some_iff.mp hread
  obtain ⟨rfl, rfl⟩ := Prod.mk.inj hpair
  have hp := Table.selectOne_pos ht
  rw [Bool.and_eq_true, decide_eq_true_eq, decide_eq_true_eq] at hp
  exact ⟨t, Table.selectOne_mem ht, hp.2, hp.1, rfl, rfl⟩

/-- **An orderly step of a forced change sets a pending password.** -/
theorem Sound.demanded (hs : Sound call c) (hi : c.threads i = .ask q k)
    (hforced : (call i).changeToken ≠ none) {id : Uuid} {passwordHash : String}
    (hq : q = .sql (.identities (.updatePassword id passwordHash)))
    (hg : (call i).Guarantee (own i c.log) ⟨q, (handle w q c.state).1⟩) : Demanded id c.state := by
  obtain ⟨changeToken, hcall⟩ := Option.ne_none_iff_exists'.mp hforced
  obtain ⟨hstep, hsets⟩ := hg changeToken hcall
  obtain ⟨tenantId, userId, user, hfound, huser, rfl⟩ := hsets id passwordHash hq
  obtain ⟨hhold, hunset⟩ := HoldsToken.before hi hcall hg
    (hq ▸ Clears.password passwordHash : Clears user.identityId q)
  obtain ⟨id, hmember, hdemanded⟩ := hs.held i changeToken tenantId userId hhold hunset hfound
  obtain ⟨m, hm, -, he⟩ := mem_own.mp huser
  rw [(hs.members m hm tenantId userId user he).unique hmember]
  exact hdemanded

/-- **Every orderly step keeps the live tokens pending.** -/
theorem Sound.advance (hs : Sound call c) (hi : c.threads i = .ask q k)
    (ho : Orderly w call c i q) : Sound call (c.advance (handle w) i q k) := by
  obtain ⟨hg, hkept⟩ := hs.kept.advance (H := handle w) (fun _ _ _ => trivial) hi
  have hpending : ∀ tenantId userId, Pending c.state tenantId userId →
      (∀ id, MemberOf c.state.db tenantId userId id → ¬ Clears id q) →
        Pending (c.advance (handle w) i q k).state tenantId userId :=
    fun tenantId userId hp hq => hp.handle hq
  constructor
  · exact hkept
  · intro t ht hlive
    change t ∈ (handle w q c.state).2.db.forceChangeTokens at ht
    change (handle w q c.state).2.now < t.expiresAt at hlive
    rw [handle_now] at hlive
    -- A call that has used the token still holds it, since the token is still there.
    have hstill : (∃ j, HoldsToken call c j t.token ∧ HasSet c j) →
        ∃ j, HoldsToken call (c.advance (handle w) i q k) j t.token ∧
          HasSet (c.advance (handle w) i q k) j := by
      rintro ⟨j, hhold, hset⟩
      refine ⟨j, hhold.advance hkept hset ?_⟩
      rintro rfl rfl
      exact PasswordToken.not_stored_deletion w c.state (.change t.token) ⟨t, ht, rfl⟩
    by_cases hmem : t ∈ c.state.db.forceChangeTokens
    · rcases hs.tokens t hmem hlive with hp | hused
      · by_cases hclears : ∃ id, MemberOf c.state.db t.tenantId t.userId id ∧ Clears id q
        · obtain ⟨id, hmember, hclears⟩ := hclears
          rcases ho.live id hclears t hmem hlive hmember with hcall | hused
          · obtain ⟨hhold, -⟩ := HoldsToken.before hi hcall hg hclears
            exact .inr ⟨i, hhold.after hkept hg hclears⟩
          · exact .inr (hstill hused)
        · exact .inl (hpending _ _ hp fun id hmember hq => hclears ⟨id, hmember, hq⟩)
      · exact .inr (hstill hused)
    · refine .inl (hpending _ _ (ho.stored t ht hmem) fun id _ hclears => hmem ?_)
      rwa [hclears.tokens] at ht
  · intro j changeToken tenantId userId hhold hunset hfound
    by_cases hji : j = i
    · subst hji
      have hquiet : ∀ id, ¬ Clears id q ∨ HasSet (c.advance (handle w) j q k) j := by
        intro id
        by_cases hclears : Clears id q
        · obtain ⟨hbefore, -⟩ := HoldsToken.before hi hhold.1 hg hclears
          exact .inr (hbefore.after hkept hg hclears).2
        · exact .inl hclears
      have hcalm : ∀ id, MemberOf c.state.db tenantId userId id → ¬ Clears id q :=
        fun id _ => (hquiet id).resolve_right hunset
      have hunset' : ¬ HasSet c j := by
        rintro ⟨e, he, hset⟩
        refine hunset ⟨e, ?_, hset⟩
        rw [Config.own_advance_self]
        exact List.mem_cons_of_mem _ he
      rw [Config.own_advance_self] at hfound
      rcases List.mem_cons.mp hfound with heq | hold
      · -- The token has just been found.
        obtain ⟨t, ht, hlive, rfl, rfl, rfl⟩ := row_of_foundToken heq.symm
        rcases hs.tokens t ht hlive with hp | ⟨j', hhold', hset'⟩
        · exact hpending _ _ hp hcalm
        · exact absurd hset' (ho.found _ _ _ hhold.1 heq.symm j' hhold')
      · have hbefore : HoldsToken call c j changeToken := by
          refine ⟨hhold.1, ⟨_, hold, found_foundToken _ _ _⟩, fun e he => ?_, q, k, hi⟩
          refine hhold.2.unreleased e ?_
          rw [Config.own_advance_self]
          exact List.mem_cons_of_mem _ he
        exact hpending _ _ (hs.held j changeToken tenantId userId hbefore hunset' hold) hcalm
    · rw [holdsToken_advance_ne hji] at hhold
      rw [hasSet_advance_ne hji] at hunset
      rw [Config.own_advance_ne hji] at hfound
      refine hpending _ _ (hs.held j changeToken tenantId userId hhold hunset hfound) ?_
      intro id hmember hclears
      exact ho.held id hclears j hji changeToken tenantId userId hhold hunset hfound hmember
  · intro m hm tenantId userId user he
    rcases List.mem_cons.mp hm with rfl | hm
    · obtain ⟨rfl, hreply⟩ := Event.mk.inj he
      exact (memberOf_of_getById (eq_of_heq hreply)).handle _
    · exact (hs.members m hm tenantId userId user he).handle q

/-- **A run of the calls**, interleaved by a schedule, while time passes. -/
def credentialRun (w : World) (s : State) (call : ι → CredentialCall) (l : List (ι ⊕ Nat)) :
    Config authrs Failure Unit ι State :=
  (Config.start s fun i => (call i).run w).run (handle w) State.tick l

/-- **Forced changes set pending passwords** in the runs of orderly steps that begin with a change
pending for every live token; and once a password has been set, no forced change sets it again before
a new demand is made. -/
theorem run_setsPending (w : World) (s : State) (call : ι → CredentialCall) (l : List (ι ⊕ Nat))
    (hstart : ∀ t ∈ s.db.forceChangeTokens, s.now < t.expiresAt → Pending s t.tenantId t.userId)
    (horderly : Config.EachTurn (handle w) State.tick (Orderly w call)
      (Config.start s fun i => (call i).run w) l) :
    SetsPending call (credentialRun w s call l).log ∧
      ∀ newer (m' : Move authrs ι State) since (m : Move authrs ι State) older id passwordHash
          passwordHash', (credentialRun w s call l).log = newer ++ m' :: (since ++ m :: older) →
        m.event.request = .sql (.identities (.updatePassword id passwordHash)) →
        (call m'.who).changeToken ≠ none →
        m'.event.request = .sql (.identities (.updatePassword id passwordHash')) →
        (m'.before.db.identity id).isSome →
          ∃ x ∈ since, x.event.request = .sql (.identities (.setForcePasswordChange id true)) := by
  have hkept : (Config.start s fun i => (call i).run w).Kept (fun i => (call i).contract)
      (fun i h _ => (call i).Ends h) := fun i => (call i).run_keeps w
  have hsound : Sound call (Config.start s fun i => (call i).run w) := by
    refine ⟨hkept, fun t ht hlive => .inl (hstart t ht hlive), ?_, ?_⟩
    · intro j changeToken tenantId userId hhold
      exact (not_holding_start (i := j) s _ hhold.2).elim
    · intro m hm
      cases hm
  have hsets : SetsPending call (credentialRun w s call l).log := by
    refine (Config.run_turns (J := fun c => Sound call c ∧ SetsPending call c.log)
      ⟨hsound, EachMove.nil⟩ ?_ ?_ horderly).2
    · rintro c i q k ⟨hs, hsets⟩ hi ho
      obtain ⟨hg, -⟩ := hs.kept.advance (H := handle w) (fun _ _ _ => trivial) hi
      refine ⟨hs.advance hi ho, eachMove_cons.mpr ⟨?_, hsets⟩⟩
      intro hforced id passwordHash hq _
      exact hs.demanded (w := w) hi hforced hq hg
    · rintro c d ⟨hs, hsets⟩
      refine ⟨⟨hs.kept, fun t ht hlive => ?_, ?_, hs.members⟩, hsets⟩
      · have hnow : c.state.now ≤ (c.state.tick d).now :=
          Int.le_add_of_nonneg_right (Int.natCast_nonneg d)
        rcases hs.tokens t ht (lt_of_le_of_lt hnow hlive) with hp | ⟨j, ⟨hcall, hhold⟩, hset⟩
        · exact .inl hp
        · exact .inr ⟨j, ⟨hcall, hhold.read, hhold.unreleased, hhold.running⟩, hset⟩
      · rintro j changeToken tenantId userId ⟨hcall, hhold⟩ hunset hfound
        exact hs.held j changeToken tenantId userId
          ⟨hcall, hhold.read, hhold.unreleased, hhold.running⟩ hunset hfound
  refine ⟨hsets, ?_⟩
  intro newer m' since m older id passwordHash passwordHash' hlog hm hforced hm' hsome
  have hdemanded := hsets newer m' (since ++ m :: older) hlog hforced id passwordHash' hm' hsome
  -- The demand has been made since the password was set.
  obtain ⟨l', -, -, hlog', hstate, -, -⟩ := Config.run_log_split l hlog
  rw [← hstate] at hdemanded
  have hmet : ¬ Demanded id (handle w m.event.request m.before).2 := by
    rintro ⟨r, hr, hforce⟩
    rw [hm] at hr
    rw [undemanded_updatePassword w m.before id passwordHash r hr] at hforce
    cases hforce
  obtain ⟨n, x, o, rfl, hbefore, hafter⟩ :=
    Config.run_flip (fun t s (h : Demanded id (State.tick t s)) => h) l' hlog' hmet hdemanded
  exact ⟨x, List.mem_append_right _ List.mem_cons_self, demanded_appears hbefore hafter⟩

/-! ### Two tenants -/

/-- A member of two tenants who has to change the password. -/
def sharedMember : State :=
  .ofDb { Db.empty with
    tenants := acmeAndGlobex
    identities := .single { IdentityRow.ofHandles ⟨0, id, fun _ => 7⟩ (some "ann@acme.example") none
      none none none (some ":old") with
        forcePasswordChange := true }
    users := ⟨[⟨1, "acme", 7, none, "active", none, 0, 0⟩,
      ⟨2, "globex", 7, none, "active", none, 0, 0⟩], by decide⟩ } 0

/-- A login in the first tenant, and the change with the token that it issues. -/
def loginThenChange : Bool → CredentialCall
  | false => .client (.login none none (.emailPassword "acme" "ann@acme.example" "old"))
  | true => .client (.login none none (.forceChange "x" "new-1" "new-1"))

def loginThenChangeSchedule : List (Bool ⊕ Nat) :=
  List.replicate 9 (Sum.inl false) ++ List.replicate 19 (Sum.inl true)

/-- A request that looks a change token up. -/
def looksUpToken : Request → Bool
  | .sql (.tokens (.getForceChangeToken _)) => true
  | _ => false

/-- The calls after some of the turns. -/
abbrev loginThenChangeRun (n : Nat) : Config authrs Failure Unit Bool State :=
  credentialRun .offline sharedMember loginThenChange (loginThenChangeSchedule.take n)

set_option synthInstance.maxSize 1000 in
/-- The login stores the token while the change is pending, and the change looks it up before it
sets the password. -/
theorem loginThenChange_log :
    ∀ n < loginThenChangeSchedule.length, ∀ i, loginThenChangeSchedule[n]? = some (.inl i) →
      (∀ t ∈ (loginThenChangeRun (n + 1)).state.db.forceChangeTokens.rows,
        t ∈ (loginThenChangeRun n).state.db.forceChangeTokens.rows ∨
          t.tenantId = "acme" ∧ t.userId = 1 ∧
          ((loginThenChangeRun n).state.db.identity 7).map (·.forcePasswordChange) = some true ∧
          ⟨1, "acme", 7, none, "active", none, 0, 0⟩ ∈ (loginThenChangeRun n).state.db.users.rows) ∧
      (∀ t ∈ (loginThenChangeRun n).state.db.forceChangeTokens.rows, t.token = "x") ∧
      (i = false → (loginThenChangeRun n).state.db.forceChangeTokens.rows = [] ∧
        ∀ m ∈ (loginThenChangeRun n).log, m.who = false) ∧
      ((((loginThenChangeRun n).threads i).next.map looksUpToken) = some true →
        ((loginThenChangeRun n).log.all fun m => !passwordSet m.event) = true) := by
  decide +kernel

theorem run_setsPending_loginThenChange :
    SetsPending loginThenChange
      (credentialRun .offline sharedMember loginThenChange loginThenChangeSchedule).log := by
  refine (run_setsPending .offline sharedMember loginThenChange loginThenChangeSchedule ?_ ?_).1
  · intro t ht
    cases ht
  · intro l' i q k hl' hi
    obtain ⟨hlt, hturn, hnow, hnext⟩ := Config.take_of_turn hl'
    obtain ⟨hnew, htokens, hlogin, hlookup⟩ := loginThenChange_log l'.length hlt i hturn
    rw [loginThenChangeRun, loginThenChangeRun, hnow, hnext, credentialRun, credentialRun,
      Config.run_snoc, Config.play_ask hi] at hnew
    rw [loginThenChangeRun, hnow] at htokens hlogin hlookup
    constructor
    · intro t ht hold
      rcases hnew t ht with h | ⟨htenant, huser, hforce, hmember⟩
      · exact absurd h hold
      · rw [htenant, huser]
        obtain ⟨r, hr, hdemanded⟩ := Option.map_eq_some_iff.mp hforce
        exact ⟨7, ⟨_, hmember, rfl, rfl, rfl⟩, r, hr, hdemanded⟩
    · intro id _ t ht _ _
      cases i with
      | false =>
        exact (List.eq_nil_iff_forall_not_mem.mp (hlogin rfl).1 t ht).elim
      | true =>
        rw [htokens t ht]
        exact .inl rfl
    · rintro id - j hj changeToken tenantId userId ⟨hcall, hhold⟩ - -
      cases j with
      | false => cases hcall
      | true =>
        -- The change has not begun.
        obtain ⟨e, he, -⟩ := hhold.read
        obtain ⟨m, hm, hwho, -⟩ := mem_own.mp he
        have hfalse := (hlogin (by simpa using hj)).2 m hm
        rw [hwho] at hfalse
        cases hfalse
    · rintro changeToken tenantId userId - hfound j - ⟨e, he, hset⟩
      -- The token is looked up before anything else.
      obtain ⟨rfl, -⟩ := Event.mk.inj hfound
      obtain ⟨m, hm, -, rfl⟩ := mem_own.mp he
      have hlooks := congrArg (fun p => (Program.next p).map looksUpToken) hi
      have hunset := List.all_eq_true.mp (hlookup hlooks) m hm
      rw [hset] at hunset
      cases hunset

/-- A login in each tenant, and the tokens that they issue. -/
def twoTenants : Fin 4 → CredentialCall
  | 0 => .client (.login none none (.emailPassword "acme" "ann@acme.example" "old"))
  | 1 => .client (.login none none (.emailPassword "globex" "ann@acme.example" "old"))
  | 2 => .client (.login none none (.forceChange "x" "new-1" "new-1"))
  | 3 => .client (.login none none (.forceChange "xx" "new-2" "new-2"))

/-- One call after the other. -/
def tenantsInTurn : List (Fin 4 ⊕ Nat) := (List.finRange 4).flatMap fun i => List.replicate 30 (.inl i)

theorem otherTenant_log :
    ((credentialRun .offline sharedMember twoTenants tenantsInTurn).log.any fun m =>
      m.who = 3 && passwordSet m.event &&
        ((m.before.db.identity 7).map fun r => r.forcePasswordChange) = some false) = true ∧
    ((credentialRun .offline sharedMember twoTenants tenantsInTurn).log.all fun m =>
      !passwordSet m.event || (match m.event.request with
        | .sql (.identities (.updatePassword id _)) => id = 7
        | _ => false)) = true := by
  decide +kernel

/-- **A token of another tenant sets a password that has just been changed**: no change is pending
any more. -/
theorem otherTenant_sets :
    ¬ SetsPending twoTenants (credentialRun .offline sharedMember twoTenants tenantsInTurn).log := by
  obtain ⟨hany, hall⟩ := otherTenant_log
  intro hsets
  obtain ⟨m, hm, hprop⟩ := List.any_eq_true.mp hany
  rw [Bool.and_eq_true, Bool.and_eq_true, decide_eq_true_eq, decide_eq_true_eq] at hprop
  obtain ⟨⟨hwho, hset⟩, hforce⟩ := hprop
  obtain ⟨id, passwordHash, hq⟩ := request_of_passwordSet hset
  obtain rfl : id = 7 := by
    have hid := List.all_eq_true.mp hall m hm
    rw [hset, hq] at hid
    simpa using hid
  obtain ⟨r, hr, hfalse⟩ := Option.map_eq_some_iff.mp hforce
  obtain ⟨newer, older, hlog⟩ := List.append_of_mem hm
  obtain ⟨r', hr', htrue⟩ := hsets newer m older hlog (by rw [hwho]; simp [twoTenants,
    CredentialCall.changeToken]) 7 passwordHash hq (by rw [hr]; rfl)
  obtain rfl := Option.some.inj (hr.symm.trans hr')
  rw [hfalse] at htrue
  cases htrue

end Authrs
