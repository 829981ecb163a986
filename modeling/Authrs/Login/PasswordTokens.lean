import Authrs.Interaction.Holding
import Authrs.Login.Requests
import Authrs.Store.IdentityRow

/-!
# Password tokens

A reset token and a change token are looked up, then the password is set, and then the token is
deleted: three statements with nothing that holds them together. Two calls that have both looked
the token up both set the password. A token sets one password in the runs in which it is looked up
only while no other call is between its lookup and its deletion.

## Main definitions

* `PasswordToken`: a token of either kind, with its lookup and its deletion
* `PasswordCall`: the calls that redeem one, with their `run`
* `PasswordStep`: what a call's requests are guaranteed to be
* `passwordLease`: a token is held from its lookup to its deletion

## Main results

* `PasswordCall.run_steps`: every call goes through its steps
* `run_tokenSingleUse`: a token sets one password, and leads to one result, in these runs
* `twoAtOnce_redeem`: two calls redeem one token
-/

namespace Authrs

open Interaction Relational

/-- A token that allows to set a password. -/
inductive PasswordToken
  | reset (token : String)
  | change (token : String)
  deriving DecidableEq

/-- An exchange in which the token is found. -/
def PasswordToken.found (k : PasswordToken) (e : Event authrs) : Bool :=
  match k, e with
  | reset token, ⟨.sql (.tokens (.getResetToken t _)), .ok (some _)⟩ => t = token
  | change token, ⟨.sql (.tokens (.getForceChangeToken t)), .ok (some _)⟩ => t = token
  | _, _ => false

/-- The statement that deletes the token. -/
def PasswordToken.deletion : PasswordToken → Request
  | reset token => .sql (.tokens (.deleteResetToken token))
  | change token => .sql (.tokens (.deleteForceChangeToken token))

/-- A row of the token is there. -/
def PasswordToken.Stored (k : PasswordToken) (db : Db) : Prop :=
  match k with
  | reset token => ∃ r ∈ db.passwordResetTokens, r.token = token
  | change token => ∃ r ∈ db.forceChangeTokens, r.token = token

/-- A call that redeems a password token. -/
inductive PasswordCall
  | reset (tenantId token newPassword retypePassword : String)
  | forceChange (ip userAgent : Option String) (changeToken newPassword retypePassword : String)

/-- **The call**, with its result dropped. -/
def PasswordCall.run (w : World) : PasswordCall → Service Unit
  | reset tenantId token newPassword retypePassword =>
    AuthService.resetPassword w tenantId token newPassword retypePassword
  | forceChange ip userAgent changeToken newPassword retypePassword => do
    let _ ← AuthService.forceChangePassword w changeToken newPassword retypePassword ip userAgent
    pure ()

/-- The token that a call presents. -/
def PasswordCall.token : PasswordCall → PasswordToken
  | reset _ token _ _ => .reset (trim token)
  | forceChange _ _ changeToken _ _ => .change changeToken

/-- An exchange that sets a password. -/
def passwordSet : Event authrs → Bool
  | ⟨.sql (.identities (.updatePassword ..)), .ok _⟩ => true
  | _ => false

/-- A request that sets a password or demands a new one, or stores or deletes a password token. -/
def aboutPassword : Request → Bool
  | .sql (.identities (.updatePassword ..)) => true
  | .sql (.identities (.setForcePasswordChange ..)) => true
  | .sql (.tokens (.createResetToken ..)) => true
  | .sql (.tokens (.deleteResetToken _)) => true
  | .sql (.tokens (.createForceChangeToken ..)) => true
  | .sql (.tokens (.deleteForceChangeToken _)) => true
  | _ => false

/-- No password has been set, and the token has not been deleted. -/
def Untouched (k : PasswordToken) (h : List (Event authrs)) : Prop :=
  ∀ e ∈ h, passwordSet e = false ∧ e.request ≠ k.deletion

/-- **The steps of a call**: it sets a password once it has found the token, and deletes the token
after that; a new change token is issued if the identity, loaded after that, has to change its
password again. -/
inductive PasswordStep (k : PasswordToken) : List (Event authrs) → Event authrs → Prop
  | idle {h : List (Event authrs)} {e : Event authrs} :
    aboutPassword e.request = false → PasswordStep k h e
  | set {h : List (Event authrs)} {e : Event authrs} {id : Uuid} {passwordHash : String} :
    e.request = .sql (.identities (.updatePassword id passwordHash)) →
    (∃ e' ∈ h, k.found e' = true) → Untouched k h → PasswordStep k h e
  | delete {h : List (Event authrs)} {e : Event authrs} :
    e.request = k.deletion → PasswordStep k h e
  | issue {a b : List (Event authrs)} {e : Event authrs} {id : Uuid} {i : Identity}
    {passwordHash tenantId token : String} {userId : Uuid} {expiresAt : Time} {n : Nat} :
    e.request = .sql (.tokens (.createForceChangeToken tenantId userId token expiresAt)) →
    i.forcePasswordChange = true → did (.identities (.updatePassword id passwordHash)) n ∈ b →
    PasswordStep k (a ++ did (.identities (.getById id)) (some i) :: b) e

/-- A password has been set, and the token has been deleted. -/
structure Exchanged (k : PasswordToken) (h : List (Event authrs)) : Prop where
  set : ∃ e ∈ h, passwordSet e = true
  deleted : ∃ e ∈ h, e.request = k.deletion

/-- Who has set a password has deleted the token. -/
def Settled (k : PasswordToken) (h : List (Event authrs)) : Prop :=
  (∃ e ∈ h, passwordSet e = true) → ∃ e ∈ h, e.request = k.deletion

open Program

section Steps

variable {w : World} {k : PasswordToken} {h : List (Event authrs)}

/-- The contract of a call with the token. -/
abbrev redeeming (k : PasswordToken) : Contract authrs := .ofGuarantee (PasswordStep k)

theorem Untouched.settled (hu : Untouched k h) : Settled k h := by
  rintro ⟨e, he, hset⟩
  rw [(hu e he).1] at hset
  cases hset

theorem Exchanged.settled (hr : Exchanged k h) : Settled k h := fun _ => hr.deleted

theorem Exchanged.cons (hr : Exchanged k h) (e : Event authrs) : Exchanged k (e :: h) where
  set := lasting_mem (fun e => passwordSet e = true) h e hr.set
  deleted := lasting_mem (fun e => e.request = k.deletion) h e hr.deleted

theorem request_of_passwordSet {e : Event authrs} (h : passwordSet e = true) :
    ∃ id passwordHash, e.request = .sql (.identities (.updatePassword id passwordHash)) := by
  obtain ⟨q, r⟩ := e
  unfold passwordSet at h
  split at h
  · rename_i heq
    obtain ⟨rfl, -⟩ := Event.mk.inj heq
    exact ⟨_, _, rfl⟩
  · cases h

theorem Untouched.cons (hu : Untouched k h) {e : Event authrs}
    (he : aboutPassword e.request = false) : Untouched k (e :: h) := by
  refine List.forall_mem_cons.mpr ⟨⟨?_, fun hq => ?_⟩, hu⟩
  · by_contra hset
    rw [Bool.not_eq_false] at hset
    obtain ⟨id, passwordHash, hq⟩ := request_of_passwordSet hset
    rw [hq] at he
    cases he
  · rw [hq] at he
    cases k <;> cases he

theorem not_aboutPassword_of_ordinary {q : Request} (hq : ordinary q = true) :
    aboutPassword q = false := by
  unfold aboutPassword
  split <;> first | rfl | cases hq

/-- A part that has nothing to do with passwords. -/
theorem keeps_idle {α : Type} {p : Service α} (hp : p.Asks fun q => aboutPassword q = false)
    (hu : Untouched k h) :
    p.Keeps (redeeming k) (OnEnd (Settled k) fun _ h' => h ⊆ h' ∧ Untouched k h') h := by
  refine (hp.keeps_inv (M := fun h' => h ⊆ h' ∧ Untouched k h') ?_
    ⟨List.Subset.refl h, hu⟩).weaken ?_
  · rintro h' e ⟨hsub, hu'⟩ he
    exact ⟨.idle he, List.subset_cons_of_subset _ hsub, hu'.cons he⟩
  · rintro h' (e | a) hM
    · exact hM.2.settled
    · exact hM

/-- The lookup of the token: if it returns a row, the token has been found. -/
theorem keeps_found {q : Sql} (hq : aboutPassword (.sql q) = false) (hu : Untouched k h) :
    (query q).Keeps (redeeming k) (OnEnd (Settled k) fun r h' => h' = did q r :: h ∧
      Untouched k h') h := by
  rw [keeps_query]
  rintro (e | r) -
  · exact ⟨.idle hq, (hu.cons (e := ⟨.sql q, .error e⟩) hq).settled⟩
  · exact ⟨.idle hq, rfl, hu.cons hq⟩

theorem keeps_okOr_settled {α : Type} (o : Option α) (e : AppError) (hu : Settled k h) :
    (Service.okOr o e).Keeps (redeeming k) (OnEnd (Settled k) fun a h' => o = some a ∧ h' = h)
      h := by
  cases o with
  | none => exact hu
  | some a => exact ⟨rfl, rfl⟩

/-- The password is set, after the token has been found. -/
theorem keeps_updatePassword (hfound : ∃ e ∈ h, k.found e = true) (hu : Untouched k h)
    (id : Uuid) (passwordHash : String) :
    (IdentitiesRepo.updatePassword id passwordHash).Keeps (redeeming k)
      (OnEnd (Settled k) fun _ h' => ∃ n, h' =
        did (.identities (.updatePassword id passwordHash)) n :: h) h := by
  refine Keeps.bind_end (N := fun n h' => h' =
    did (.identities (.updatePassword id passwordHash)) n :: h) ?_ fun n _ hh => ⟨n, hh⟩
  rw [keeps_query]
  rintro (e | n) -
  · -- The statement failed, and no password is set.
    refine ⟨.set rfl hfound hu, fun ⟨x, hx, hset⟩ => ?_⟩
    rcases List.mem_cons.mp hx with rfl | hx
    · cases hset
    · rw [(hu x hx).1] at hset
      cases hset
  · exact ⟨.set rfl hfound hu, rfl⟩

/-- The token is deleted, after the password has been set. -/
theorem keeps_deletion {q : Sql} (hq : .sql q = k.deletion) (hset : ∃ e ∈ h, passwordSet e = true) :
    (execute q).Keeps (redeeming k) (OnEnd (Settled k) fun _ h' => Exchanged k h' ∧
      ∃ n, h' = did q n :: h) h := by
  refine Keeps.bind_end (N := fun n h' => Exchanged k h' ∧ h' = did q n :: h) ?_
    fun n _ hh => ⟨hh.1, n, hh.2⟩
  have hset' := fun e => lasting_mem (fun e => passwordSet e = true) h e hset
  rw [keeps_query]
  rintro (e | n) -
  · exact ⟨.delete hq, fun _ => ⟨_, List.mem_cons_self, hq⟩⟩
  · exact ⟨.delete hq, ⟨hset' _, _, List.mem_cons_self, hq⟩, rfl⟩

/-- **A reset goes through its steps.** -/
theorem resetPassword_steps (tenantId token newPassword retypePassword : String) :
    (AuthService.resetPassword w tenantId token newPassword retypePassword).Keeps
      (redeeming (.reset (trim token)))
      (OnEnd (Settled (.reset (trim token))) fun _ h' => Exchanged (.reset (trim token)) h') [] := by
  have hstart : Untouched (.reset (trim token)) [] := by simp [Untouched]
  refine (keeps_idle (asks_ensure _ _) hstart).bind_end ?_
  rintro - h₁ ⟨-, hu₁⟩
  refine (keeps_idle (asks_ensure _ _) hu₁).bind_end ?_
  rintro - h₂ ⟨-, hu₂⟩
  refine (keeps_idle (AuthService.validatePassword_asks (fun _ => not_aboutPassword_of_ordinary) w
    tenantId newPassword) hu₂).bind_end ?_
  rintro - h₃ ⟨-, hu₃⟩
  have hlookup : (PasswordResetTokensRepo.getValid (trim token)).Keeps
      (redeeming (.reset (trim token))) (OnEnd (Settled (.reset (trim token))) fun found h' =>
        Untouched (.reset (trim token)) h' ∧ ∀ identityId, found = some identityId →
          ∃ e ∈ h', PasswordToken.found (.reset (trim token)) e = true) h₃ := by
    refine (keeps_idle (p := utcNow) ⟨rfl, fun _ => trivial⟩ hu₃).bind_end ?_
    rintro now h₄ ⟨-, hu₄⟩
    refine (keeps_found rfl hu₄).weaken ?_
    rintro h' (e | found) hend
    · exact hend
    · obtain ⟨rfl, hu'⟩ := hend
      refine ⟨hu', ?_⟩
      rintro identityId rfl
      exact ⟨_, List.mem_cons_self, decide_eq_true rfl⟩
  refine hlookup.bind_end ?_
  rintro found h₄ ⟨hu₄, hfound₄⟩
  refine (keeps_okOr_settled _ _ hu₄.settled).bind_end ?_
  rintro identityId h₅ ⟨rfl, rfl⟩
  refine (keeps_idle (hashPassword_asks (fun _ => not_aboutPassword_of_ordinary) newPassword)
    hu₄).bind_end ?_
  rintro passwordHash h₆ ⟨hsub₆, hu₆⟩
  obtain ⟨e, he, hfound⟩ := hfound₄ identityId rfl
  refine (keeps_updatePassword ⟨e, hsub₆ he, hfound⟩ hu₆ identityId passwordHash).bind_end ?_
  rintro - h₇ ⟨n, rfl⟩
  refine (keeps_deletion rfl ⟨_, List.mem_cons_self, rfl⟩).weaken ?_
  rintro h' (e | x) hend
  · exact hend
  · exact hend.1

/-- A request of the tail of a login: a change token is issued only if the identity demands it. -/
def Reissues (identity : Identity) (q : Request) : Prop :=
  aboutPassword q = false ∨ identity.forcePasswordChange = true ∧
    ∃ tenantId userId token expiresAt,
      q = .sql (.tokens (.createForceChangeToken tenantId userId token expiresAt))

theorem finalizeLogin_reissues (w : World) (tenantId : String) (user : User) (identity : Identity)
    (ip userAgent : Option String) :
    (AuthService.finalizeLogin w tenantId user identity ip userAgent).Asks (Reissues identity) := by
  have hidle : ∀ q, ordinary q = true → Reissues identity q :=
    fun q hq => .inl (not_aboutPassword_of_ordinary hq)
  unfold AuthService.finalizeLogin
  split
  · rename_i hforce
    exact AuthService.issueForceChangeToken_asks hidle (fun _ _ => .inl rfl)
      (fun _ _ _ _ => .inr ⟨hforce, _, _, _, _, rfl⟩) tenantId user.id
  · split
    · exact AuthService.issueChallenge_asks hidle (fun _ _ _ _ => .inl rfl) tenantId user.id
    · exact AuthService.doCreateSession_asks hidle w tenantId user ip userAgent

/-- **A forced change goes through its steps.** -/
theorem forceChangePassword_steps (changeToken newPassword retypePassword : String)
    (ip userAgent : Option String) :
    (AuthService.forceChangePassword w changeToken newPassword retypePassword ip userAgent).Keeps
      (redeeming (.change changeToken))
      (OnEnd (Settled (.change changeToken)) fun _ h' => Exchanged (.change changeToken) h') [] := by
  -- Up to the look-up of the token nothing has happened.
  have hstart : Untouched (.change changeToken) [] := by simp [Untouched]
  refine (keeps_found rfl hstart).bind_end ?_
  rintro found h₁ ⟨rfl, hu₁⟩
  refine (keeps_okOr_settled _ _ hu₁.settled).bind_end ?_
  rintro ⟨tenantId, userId⟩ h₂ ⟨rfl, rfl⟩
  refine (keeps_idle (asks_ensure _ _) hu₁).bind_end ?_
  rintro - h₃ ⟨hsub₃, hu₃⟩
  refine (keeps_idle (AuthService.validatePassword_asks (fun _ => not_aboutPassword_of_ordinary) w
    tenantId newPassword) hu₃).bind_end ?_
  rintro - h₄ ⟨hsub₄, hu₄⟩
  refine (keeps_idle (p := UsersRepo.getById tenantId userId) (asks_query rfl) hu₄).bind_end ?_
  rintro found h₅ ⟨hsub₅, hu₅⟩
  refine (keeps_okOr_settled _ _ hu₅.settled).bind_end ?_
  rintro user h₆ ⟨-, rfl⟩
  refine (keeps_idle (AuthService.checkAccess_asks (fun _ => not_aboutPassword_of_ordinary) user)
    hu₅).bind_end ?_
  rintro - h₇ ⟨hsub₇, hu₇⟩
  refine (keeps_idle (hashPassword_asks (fun _ => not_aboutPassword_of_ordinary) newPassword)
    hu₇).bind_end ?_
  rintro passwordHash h₈ ⟨hsub₈, hu₈⟩
  -- The token was found before the password is set, and it is deleted after that.
  have hfound : ∃ e ∈ h₈, PasswordToken.found (.change changeToken) e = true :=
    ⟨_, hsub₈ (hsub₇ (hsub₅ (hsub₄ (hsub₃ List.mem_cons_self)))), decide_eq_true rfl⟩
  refine (keeps_updatePassword hfound hu₈ user.identityId passwordHash).bind_end ?_
  rintro - h₉ ⟨n, rfl⟩
  refine (keeps_deletion rfl ⟨_, List.mem_cons_self, rfl⟩).bind_end ?_
  rintro - h₁₀ ⟨hex₁₀, m, rfl⟩
  generalize hb : did (.tokens (.deleteForceChangeToken changeToken)) m ::
    did (.identities (.updatePassword user.identityId passwordHash)) n :: h₈ = b at hex₁₀
  have hset : did (.identities (.updatePassword user.identityId passwordHash)) n ∈ b :=
    hb ▸ List.mem_cons_of_mem _ List.mem_cons_self
  -- The login tail goes by the identity as it is read again.
  have hload : (AuthService.loadIdentity user.identityId).Keeps (redeeming (.change changeToken))
      (OnEnd (Settled (.change changeToken)) fun i h' =>
        h' = did (.identities (.getById user.identityId)) (some i) :: b) b := by
    refine Keeps.bind_end (N := fun found h' =>
      h' = did (.identities (.getById user.identityId)) found :: b) ?_ ?_
    · change (query _).Keeps _ _ _
      rw [keeps_query]
      rintro (e | found) -
      · exact ⟨.idle rfl, (hex₁₀.cons _).settled⟩
      · exact ⟨.idle rfl, rfl⟩
    · rintro found h' rfl
      cases found with
      | none => exact (hex₁₀.cons _).settled
      | some i => exact rfl
  refine hload.bind_end ?_
  rintro identity h₁₁ rfl
  have hasks := finalizeLogin_reissues w tenantId user identity ip userAgent
  refine (hasks.keeps_inv (M := fun h => Exchanged (.change changeToken) h ∧
    ∃ a, h = a ++ did (.identities (.getById user.identityId)) (some identity) :: b) ?_
    ⟨hex₁₀.cons _, [], rfl⟩).weaken ?_
  · rintro h e ⟨hex, a, rfl⟩ he
    refine ⟨?_, hex.cons e, e :: a, rfl⟩
    rcases he with hidle | ⟨hforce, _, _, _, _, hq⟩
    · exact .idle hidle
    · exact .issue hq hforce hset
  · rintro h (e | result) ⟨hex, -⟩
    · exact hex.settled
    · exact hex

/-- **Every call goes through its steps**: it has deleted the token before it ends, if it has set a
password, and has done both if it succeeds. -/
theorem PasswordCall.run_steps (w : World) (c : PasswordCall) :
    (c.run w).Keeps (redeeming c.token)
      (OnEnd (Settled c.token) fun _ h' => Exchanged c.token h') [] := by
  cases c with
  | reset tenantId token newPassword retypePassword =>
    exact resetPassword_steps tenantId token newPassword retypePassword
  | forceChange ip userAgent changeToken newPassword retypePassword =>
    refine (forceChangePassword_steps changeToken newPassword retypePassword ip
      userAgent).bind_end ?_
    rintro - h hex
    exact hex

end Steps

/-! ### Runs -/

/-- **A token is held** from its lookup to its deletion. -/
def passwordLease {ι : Type} (call : ι → PasswordCall) (k : PasswordToken) :
    Lease authrs ι State where
  reads i e := (call i).token = k ∧ k.found e = true
  acts i e := (call i).token = k ∧ passwordSet e = true
  releases q := q = k.deletion
  present s := k.Stored s.db

section Lease

variable {ι : Type} {w : World} {s : State}

theorem PasswordToken.found_stored {k : PasswordToken} {q : Request}
    (h : k.found ⟨q, (handle w q s).1⟩ = true) : k.Stored s.db := by
  unfold found at h
  split at h
  · rename_i token t now identityId hreply
    obtain ⟨rfl, hreply⟩ := Event.mk.inj hreply
    have hread : (s.db.passwordResetTokens.selectOne fun r => r.token = t && now < r.expiresAt).map
        (·.identityId) = some identityId := Except.ok.inj (eq_of_heq hreply)
    obtain ⟨r, hr, -⟩ := Option.map_eq_some_iff.mp hread
    have hp := Table.selectOne_pos hr
    rw [Bool.and_eq_true, decide_eq_true_eq] at hp
    exact ⟨r, Table.selectOne_mem hr, hp.1.trans (of_decide_eq_true h)⟩
  · rename_i token t x hreply
    obtain ⟨rfl, hreply⟩ := Event.mk.inj hreply
    have hread : (s.db.forceChangeToken s.now t).map (fun r => (r.tenantId, r.userId)) = some x :=
      Except.ok.inj (eq_of_heq hreply)
    obtain ⟨r, hr, -⟩ := Option.map_eq_some_iff.mp hread
    have hp := Table.selectOne_pos hr
    rw [Bool.and_eq_true, decide_eq_true_eq] at hp
    exact ⟨r, Table.selectOne_mem hr, hp.1.trans (of_decide_eq_true h)⟩
  · cases h

theorem PasswordToken.not_stored_deletion (w : World) (s : State) (k : PasswordToken) :
    ¬ k.Stored (handle w k.deletion s).2.db := by
  cases k with
  | reset token =>
    rintro ⟨r, hr, htoken⟩
    have hdeleted := (Table.mem_delete.mp hr).2
    rw [htoken] at hdeleted
    simp at hdeleted
  | change token =>
    rintro ⟨r, hr, htoken⟩
    have hdeleted := (Table.mem_delete.mp hr).2
    rw [htoken] at hdeleted
    simp at hdeleted

/-- Only a statement that creates tokens of its kind makes a token appear. -/
theorem PasswordToken.stored_of_handle {k : PasswordToken} {q : Request}
    (hreset : ∀ identityId token expiresAt,
      q ≠ .sql (.tokens (.createResetToken identityId token expiresAt)))
    (hchange : ∀ tenantId userId token expiresAt,
      q ≠ .sql (.tokens (.createForceChangeToken tenantId userId token expiresAt)))
    (h : k.Stored (handle w q s).2.db) : k.Stored s.db := by
  have hsame : (handle w q s).2.db.passwordResetTokens = s.db.passwordResetTokens →
      (handle w q s).2.db.forceChangeTokens = s.db.forceChangeTokens → k.Stored s.db := by
    intro hr hc
    unfold Stored at h ⊢
    rwa [hr, hc] at h
  rcases handle_db (w := w) (s := s) q with hdb | ⟨x, n, rfl, hexec⟩
  · exact hsame (by rw [hdb]) (by rw [hdb])
  · cases x with
    | tokens x =>
      cases x with
      | createResetToken => exact absurd rfl (hreset _ _ _)
      | createForceChangeToken => exact absurd rfl (hchange _ _ _ _)
      | createIdentityToken =>
        obtain ⟨_, -, heq⟩ := bind_eq_ok.mp hexec
        obtain ⟨-, hdb⟩ := Prod.mk.inj (Except.ok.inj heq)
        exact hsame (by rw [← hdb]) (by rw [← hdb])
      | createInvite =>
        have hdb := insertInvite_ok hexec
        exact hsame (by rw [hdb]) (by rw [hdb])
      | deleteResetToken | deleteResetTokensFor =>
        cases k with
        | reset token =>
          obtain ⟨r, hr, htoken⟩ := h
          exact ⟨r, (Table.mem_delete.mp hr).1, htoken⟩
        | change token => exact h
      | deleteForceChangeToken | deleteForceChangeTokensFor =>
        cases k with
        | reset token => exact h
        | change token =>
          obtain ⟨r, hr, htoken⟩ := h
          exact ⟨r, (Table.mem_delete.mp hr).1, htoken⟩
      | _ => exact hsame rfl rfl
    | _ =>
      exact hsame ((Sql.exec_frame hexec).passwordResetTokens fun _ h => nomatch h)
        ((Sql.exec_frame hexec).forceChangeTokens fun _ h => nomatch h)

theorem passwordLease_lawful (w : World) (call : ι → PasswordCall) (k : PasswordToken) :
    (passwordLease call k).Lawful (handle w) State.tick where
  reads i q s h := PasswordToken.found_stored h.2
  released q s h := by
    obtain rfl : q = k.deletion := h
    exact PasswordToken.not_stored_deletion w s k
  passes t s h := h

/-! ### Demands for a new password -/

/-- The identity, if it is there, need not change its password. -/
def Undemanded (id : Uuid) (s : State) : Prop :=
  ∀ r, s.db.identity id = some r → r.forcePasswordChange = false

theorem undemanded_updatePassword (w : World) (s : State) (id : Uuid) (passwordHash : String) :
    Undemanded id (handle w (.sql (.identities (.updatePassword id passwordHash))) s).2 := by
  intro r hr
  cases hr₀ : s.db.identity id with
  | none =>
    have hnone : (handle w (.sql (.identities (.updatePassword id passwordHash))) s).2.db.identity id =
        none := Db.identity_updateIdentity_none hr₀
    cases hr.symm.trans hnone
  | some r₀ =>
    have hsome : (handle w (.sql (.identities (.updatePassword id passwordHash))) s).2.db.identity id =
        some (r₀.withPassword s.now passwordHash) := Db.identity_updateIdentity hr₀
    obtain rfl := Option.some.inj (hr.symm.trans hsome)
    rfl

/-- Only a statement that demands a new password makes a demand appear. -/
theorem Undemanded.handle {id : Uuid} (h : Undemanded id s) {q : Request}
    (hq : ∀ id b, q ≠ .sql (.identities (.setForcePasswordChange id b))) :
    Undemanded id (handle w q s).2 := by
  intro r' hr'
  cases hr : s.db.identity id with
  | none =>
    -- A new identity has chosen its password itself.
    rcases handle_identity_none (w := w) q hr with hnone | ⟨_, _, _, _, _, _, _, hsome⟩
    · cases hr'.symm.trans hnone
    · obtain rfl := Option.some.inj (hr'.symm.trans hsome)
      rfl
  | some r =>
    obtain ⟨r'', hr'', hchange⟩ := handle_identity (w := w) q hr
    obtain rfl : r' = r'' := Option.some.inj (hr'.symm.trans hr'')
    have hold := h r hr
    cases hchange with
    | forcePasswordChange => exact absurd rfl (hq _ _)
    | password => rfl
    | _ => exact hold

variable [DecidableEq ι]

/-- **A run of calls that redeem password tokens**, interleaved by a schedule, while time passes. -/
def passwordRun (w : World) (s : State) (call : ι → PasswordCall) (l : List (ι ⊕ Nat)) :
    Config authrs Failure Unit ι State :=
  (Config.start s fun i => (call i).run w).run (handle w) State.tick l

/-- What the password updates of a record have cleared: nobody whose password has been set has to
change it, or has been loaded with such a demand since. -/
structure DemandsMet (s : State) (log : List (Move authrs ι State)) : Prop where
  now : ∀ m ∈ log, ∀ id passwordHash n,
    m.event = did (.identities (.updatePassword id passwordHash)) n → Undemanded id s
  loaded : ∀ newer m older id i, log = newer ++ m :: older →
    m.event = did (.identities (.getById id)) (some i) →
    (∃ x ∈ older, ∃ passwordHash n,
      x.event = did (.identities (.updatePassword id passwordHash)) n) →
    i.forcePasswordChange = false

omit [DecidableEq ι] in
theorem DemandsMet.move {log : List (Move authrs ι State)} (hd : DemandsMet s log) (i : ι)
    {q : Request} (hq : ∀ id b, q ≠ .sql (.identities (.setForcePasswordChange id b))) :
    DemandsMet (handle w q s).2 (⟨i, ⟨q, (handle w q s).1⟩, s⟩ :: log) where
  now m hm id passwordHash n he := by
    rcases List.mem_cons.mp hm with rfl | hm
    · obtain ⟨rfl, -⟩ := Event.mk.inj he
      exact undemanded_updatePassword w s id passwordHash
    · exact (hd.now m hm id passwordHash n he).handle hq
  loaded newer m older id identity hlog he hset := by
    cases newer with
    | nil =>
      obtain ⟨rfl, rfl⟩ := List.cons.inj hlog
      obtain ⟨x, hx, passwordHash, n, hxe⟩ := hset
      obtain ⟨rfl, hreply⟩ := Event.mk.inj he
      have hread : (s.db.identity id).map IdentityRow.toIdentity = some identity :=
        Except.ok.inj (eq_of_heq hreply)
      obtain ⟨r, hr, rfl⟩ := Option.map_eq_some_iff.mp hread
      exact hd.now x hx id passwordHash n hxe r hr
    | cons y newer => exact hd.loaded newer m older id identity (List.cons.inj hlog).2 he hset

theorem passwordRun_keeps (w : World) (s : State) (call : ι → PasswordCall) (l : List (ι ⊕ Nat)) :
    (passwordRun w s call l).Kept (fun i => redeeming (call i).token)
      (fun i h o => OnEnd (Settled (call i).token) (fun _ h' => Exchanged (call i).token h') h o) :=
  Config.run_keeps (fun i => (call i).run_steps w) (fun _ _ _ => trivial) l

/-- No call demands a new password, or creates a reset token. -/
theorem PasswordStep.request {k : PasswordToken} {h : List (Event authrs)} {e : Event authrs}
    (hs : PasswordStep k h e) :
    (∀ id b, e.request ≠ .sql (.identities (.setForcePasswordChange id b))) ∧
      ∀ identityId token expiresAt,
        e.request ≠ .sql (.tokens (.createResetToken identityId token expiresAt)) := by
  constructor
  · intro id b hq
    cases hs with
    | idle hidle =>
      rw [hq] at hidle
      cases hidle
    | set hset => cases hq.symm.trans hset
    | delete hdelete =>
      rw [hq] at hdelete
      cases k <;> cases hdelete
    | issue hissue => cases hq.symm.trans hissue
  · intro identityId token expiresAt hq
    cases hs with
    | idle hidle =>
      rw [hq] at hidle
      cases hidle
    | set hset => cases hq.symm.trans hset
    | delete hdelete =>
      rw [hq] at hdelete
      cases k <;> cases hdelete
    | issue hissue => cases hq.symm.trans hissue

/-- A password is set after the token has been found, and before it is deleted. -/
theorem PasswordStep.set_inv {k : PasswordToken} {h : List (Event authrs)} {e : Event authrs}
    {id : Uuid} {passwordHash : String} (hs : PasswordStep k h e)
    (hq : e.request = .sql (.identities (.updatePassword id passwordHash))) :
    (∃ e' ∈ h, k.found e' = true) ∧ Untouched k h := by
  cases hs with
  | set _ hfound hu => exact ⟨hfound, hu⟩
  | idle hidle =>
    rw [hq] at hidle
    cases hidle
  | delete hdelete =>
    rw [hq] at hdelete
    cases k <;> cases hdelete
  | issue hissue => cases hq.symm.trans hissue

/-- Demands are met in every run. -/
theorem passwordRun_demandsMet (w : World) (s : State) (call : ι → PasswordCall)
    (l : List (ι ⊕ Nat)) :
    DemandsMet (passwordRun w s call l).state (passwordRun w s call l).log := by
  refine Config.run_invariant (J := fun s log => DemandsMet s log)
    (C := fun i => redeeming (call i).token) (fun i => (call i).run_steps w) (fun _ _ _ => trivial)
    ⟨?_, ?_⟩ (fun _ _ i q hd hg => hd.move i (PasswordStep.request hg).1) ?_ l
  · intro m hm
    cases hm
  · intro newer m older id i hlog
    simp at hlog
  · rintro s log t ⟨hnow, hloaded⟩
    exact ⟨hnow, hloaded⟩

/-- **No token is created** in these runs, so a token that has been deleted stays away. -/
theorem eachTurn_stays (w : World) (s : State) (call : ι → PasswordCall) (k : PasswordToken)
    (l : List (ι ⊕ Nat)) :
    Config.EachTurn (handle w) State.tick
      (fun c _ q => (passwordLease call k).Stays (handle w) c q)
      (Config.start s fun i => (call i).run w) l := by
  intro l' i q f hl' hi
  obtain ⟨hg, -⟩ := (passwordRun_keeps w s call l').advance (H := handle w) (fun _ _ _ => trivial) hi
  have hmet := passwordRun_demandsMet w s call l'
  refine PasswordToken.stored_of_handle (PasswordStep.request hg).2 ?_
  rintro tenantId userId token expiresAt rfl
  change PasswordStep (call i).token (own i (passwordRun w s call l').log) _ at hg
  generalize hown : own i (passwordRun w s call l').log = h at hg
  cases hg with
  | idle hidle => cases hidle
  | set hset => cases hset
  | delete hdelete => cases hk : (call i).token <;> rw [hk] at hdelete <;> cases hdelete
  | issue _ hforce hset =>
    -- The identity was loaded after its password had been set.
    obtain ⟨n, m, o, hlog, -, he, ho⟩ := own_split hown
    rw [← ho] at hset
    obtain ⟨x, hx, -, hxe⟩ := mem_own.mp hset
    rw [hmet.loaded n m o _ _ hlog he ⟨x, hx, _, _, hxe⟩] at hforce
    cases hforce

omit [DecidableEq ι] in
theorem passwordLease_follows {call : ι → PasswordCall} {k : PasswordToken} {i : ι}
    {h : List (Event authrs)} {e : Event authrs} (hs : PasswordStep (call i).token h e) :
    (passwordLease call k).Follows i h e := by
  rintro ⟨rfl, hset⟩
  obtain ⟨id, passwordHash, hq⟩ := request_of_passwordSet hset
  obtain ⟨⟨x, hx, hxf⟩, hu⟩ := hs.set_inv hq
  refine ⟨⟨x, hx, rfl, hxf⟩, fun y hy => (hu y hy).2, ?_⟩
  rintro y hy ⟨-, hyset⟩
  rw [(hu y hy).1] at hyset
  cases hyset

/-- **A token is used once**: it sets one password, and one of the calls that present it succeeds, in
the runs in which it is found only while no other call is between its lookup and its deletion. -/
theorem run_tokenSingleUse (w : World) (s : State) (call : ι → PasswordCall) (l : List (ι ⊕ Nat))
    (k : PasswordToken)
    (halone : Config.EachTurn (handle w) State.tick ((passwordLease call k).Alone (handle w))
      (Config.start s fun i => (call i).run w) l) :
    (passwordLease call k).ActsOnce (passwordRun w s call l).log ∧
      ∀ i j, (call i).token = k → (call j).token = k →
        (passwordRun w s call l).threads i = .pure () →
        (passwordRun w s call l).threads j = .pure () → i = j := by
  have honce := Lease.run_actsOnce (L := passwordLease call k) (C := fun i => redeeming (call i).token)
    (passwordLease_lawful w call k) (fun i => (call i).run_steps w) (fun _ _ _ => trivial)
    (fun _ _ _ hg => passwordLease_follows hg) ?_ (eachTurn_stays w s call k l) halone
  · refine ⟨honce, fun i j hik hjk hi hj => ?_⟩
    have hset : ∀ i, (passwordRun w s call l).threads i = .pure () →
        ∃ m ∈ (passwordRun w s call l).log, m.who = i ∧ passwordSet m.event = true := by
      intro i hi
      have hend := passwordRun_keeps w s call l i
      rw [hi] at hend
      obtain ⟨e, he, hset⟩ := Exchanged.set hend
      obtain ⟨m, hm, hwho, rfl⟩ := mem_own.mp he
      exact ⟨m, hm, hwho, hset⟩
    obtain ⟨m, hm, rfl, hmset⟩ := hset i hi
    obtain ⟨m', hm', rfl, hmset'⟩ := hset j hj
    exact honce.who_eq hm hm' ⟨hik, hmset⟩ ⟨hjk, hmset'⟩
  · rintro i h o hend ⟨e, he, rfl, hset⟩
    cases o with
    | error e' => exact hend ⟨e, he, hset⟩
    | ok a => exact Exchanged.deleted hend

end Lease

/-! ### Two calls at once -/

/-- A member with a reset token and a change token. -/
def forgetful : State :=
  .ofDb { Db.empty with
    tenants := .single ⟨"acme", "Acme", "active", 0⟩
    identities := .single (IdentityRow.ofHandles ⟨0, id, fun _ => 7⟩ (some "ann@acme.example") none
      none none none (some ":old"))
    users := .single ⟨1, "acme", 7, none, "active", none, 0, 0⟩
    passwordResetTokens := .single ⟨7, "r", minutes 60⟩
    forceChangeTokens := .single ⟨"acme", 1, "c", minutes 15⟩ } 0

/-- Two resets and two forced changes. -/
def newPasswords : Fin 4 → PasswordCall
  | 0 => .reset "acme" "r" "new-0" "new-0"
  | 1 => .reset "acme" "r" "new-1" "new-1"
  | 2 => .forceChange none none "c" "new-2" "new-2"
  | 3 => .forceChange none none "c" "new-3" "new-3"

/-- A reset and a forced change to their ends, and then the others. -/
def oneByOne : List (Fin 4 ⊕ Nat) :=
  List.replicate 6 (Sum.inl 0) ++ List.replicate 30 (Sum.inl 2) ++ List.replicate 6 (Sum.inl 1) ++
    List.replicate 30 (Sum.inl 3)

theorem oneByOne_found :
    (∀ m ∈ (passwordRun .offline forgetful newPasswords oneByOne).log,
      PasswordToken.found (.reset "r") m.event = true → m.who = 0) ∧
    ∀ m ∈ (passwordRun .offline forgetful newPasswords oneByOne).log,
      PasswordToken.found (.change "c") m.event = true → m.who = 2 := by
  decide +kernel

theorem run_tokenSingleUse_oneByOne :
    (passwordLease newPasswords (.reset "r")).ActsOnce
        (passwordRun .offline forgetful newPasswords oneByOne).log ∧
      (passwordLease newPasswords (.change "c")).ActsOnce
        (passwordRun .offline forgetful newPasswords oneByOne).log := by
  obtain ⟨hreset, hchange⟩ := oneByOne_found
  constructor
  · exact (run_tokenSingleUse .offline forgetful newPasswords oneByOne (.reset "r")
      (Lease.eachTurn_alone 0 fun m hm hread => hreset m hm hread.2)).1
  · exact (run_tokenSingleUse .offline forgetful newPasswords oneByOne (.change "c")
      (Lease.eachTurn_alone 2 fun m hm hread => hchange m hm hread.2)).1

/-- Both resets find the token before either sets a password, and so do both forced changes. -/
def twoAtOnce : List (Fin 4 ⊕ Nat) :=
  [Sum.inl 0, Sum.inl 0, Sum.inl 0, Sum.inl 1, Sum.inl 1, Sum.inl 1, Sum.inl 2, Sum.inl 3] ++
    List.replicate 3 (Sum.inl 0) ++ List.replicate 3 (Sum.inl 1) ++ List.replicate 30 (Sum.inl 2) ++
    List.replicate 30 (Sum.inl 3)

theorem twoAtOnce_set :
    (newPasswords 0).token = .reset "r" ∧ (newPasswords 1).token = .reset "r" ∧
    (∀ i : Fin 4, i ∈ ((passwordRun .offline forgetful newPasswords twoAtOnce).log.filter fun m =>
      passwordSet m.event).map Move.who) ∧
    ∀ i : Fin 4, ((passwordRun .offline forgetful newPasswords twoAtOnce).threads i).value =
      some () := by
  decide +kernel

/-- **Two calls redeem one token**, of either kind, and both forced changes end in a login. -/
theorem twoAtOnce_redeem :
    ¬ (passwordLease newPasswords (.reset "r")).ActsOnce
        (passwordRun .offline forgetful newPasswords twoAtOnce).log ∧
      ¬ (passwordLease newPasswords (.change "c")).ActsOnce
        (passwordRun .offline forgetful newPasswords twoAtOnce).log ∧
      (passwordRun .offline forgetful newPasswords twoAtOnce).threads 2 = .pure () ∧
      (passwordRun .offline forgetful newPasswords twoAtOnce).threads 3 = .pure () := by
  obtain ⟨htoken₀, htoken₁, hset, hended⟩ := twoAtOnce_set
  have hmove : ∀ i, ∃ m ∈ (passwordRun .offline forgetful newPasswords twoAtOnce).log,
      m.who = i ∧ passwordSet m.event = true := by
    intro i
    obtain ⟨m, hm, hwho⟩ := List.mem_map.mp (hset i)
    obtain ⟨hmem, hmset⟩ := List.mem_filter.mp hm
    exact ⟨m, hmem, hwho, hmset⟩
  refine ⟨fun honce => ?_, fun honce => ?_, Program.value_eq_some.mp (hended 2),
    Program.value_eq_some.mp (hended 3)⟩
  · obtain ⟨m, hm, hwho, hmset⟩ := hmove 0
    obtain ⟨m', hm', hwho', hmset'⟩ := hmove 1
    have heq := honce.who_eq hm hm' ⟨by rw [hwho, htoken₀], hmset⟩
      ⟨by rw [hwho', htoken₁], hmset'⟩
    rw [hwho, hwho'] at heq
    cases heq
  · obtain ⟨m, hm, hwho, hmset⟩ := hmove 2
    obtain ⟨m', hm', hwho', hmset'⟩ := hmove 3
    have heq := honce.who_eq hm hm' ⟨by rw [hwho]; rfl, hmset⟩ ⟨by rw [hwho']; rfl, hmset'⟩
    rw [hwho, hwho'] at heq
    cases heq

end Authrs
