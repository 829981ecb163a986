import Authrs.Services.Passwords

/-!
# Administrative password resets

An administrator of one tenant resets the password of a member. The password is shared by all
memberships of the identity, so the reset sets it only when the identity counts at most one
membership; otherwise the member can merely be required to change it. The count leaves archived
memberships out, while the member is found whatever its status: an archived member whose identity
lives on in exactly one other tenant counts one, and the password of that other tenant is set.

## Main definitions

* `Db.memberElsewhere`: a membership of the identity in another tenant that is not archived
* `SharedPasswordKept`: the reset leaves a shared password alone
* `Exposed`: the archived member whose only other membership is counted in its place

## Main results

* `exec_adminResetPassword`: the reset run alone, once its checks have passed
* `sharedPasswordKept_iff`: the reset leaves a shared password alone exactly when the member is
  not exposed, or a check fails first
* `archived_member_reset`: a reset by the tenant that archived its member
-/

namespace Authrs

open Interaction Relational

namespace Db

/-- A membership of the identity in another tenant that is not archived. -/
def memberElsewhere (db : Db) (tenantId : String) (identityId : Uuid) : Prop :=
  ∃ m ∈ db.users, m.identityId = identityId ∧ m.tenantId ≠ tenantId ∧ m.status ≠ "archived"

/-- The number of memberships of an identity, the archived ones apart. -/
def membershipCount (db : Db) (identityId : Uuid) : Nat :=
  db.users.affected fun m => m.identityId = identityId && m.status ≠ "archived"

theorem length_memberships {db : Db} {identityId : Uuid} {i : IdentityRow}
    (hi : db.identity identityId = some i) :
    ((db.memberships.filter fun u =>
      u.identityId = identityId && u.status ≠ "archived").insertionSort
        fun a b => a.createdAt ≤ b.createdAt).length = db.membershipCount identityId := by
  rw [List.length_insertionSort]
  exact length_filter_memberships hi fun status => status ≠ "archived"

end Db

namespace AuthService

section Reset

variable (w : World) (s : State) (tenantId : String) (userId : Uuid)
  (newPassword retypePassword : String) (forcePasswordChange : Bool)

@[simp] theorem exec_forceSharedChange (identityId : Uuid) :
    (forceSharedChange identityId forcePasswordChange).exec (handle w) s =
      if forcePasswordChange = true then
        (.ok (), { s with
          db := s.db.updateIdentity identityId (.withForcePasswordChange s.now true) fun r =>
            r.withForcePasswordChange_id _ _ })
      else (.error (.error (.forbidden
        ("This account belongs to multiple tenants; you cannot set its shared password." ++
          " Pass forcePasswordChange=true to require the user to reset it themselves."))), s) := by
  cases forcePasswordChange <;> rfl

/-- The tables once the shared password is set. -/
def withSharedPassword (identityId : Uuid) (passwordHash : String) : Db :=
  (s.db.updateIdentity identityId (.withPassword s.now passwordHash) fun r =>
    r.withPassword_id _ _).updateIdentity identityId (.withForcePasswordChange s.now forcePasswordChange) fun r =>
      r.withForcePasswordChange_id _ _

@[simp] theorem exec_setSharedPassword (identityId : Uuid) :
    (setSharedPassword identityId newPassword forcePasswordChange).exec (handle w) s =
      match w.hashPassword s.draws newPassword with
      | .ok h => (.ok (), { s with
          db := withSharedPassword s forcePasswordChange identityId h
          draws := s.draws + 1 })
      | .error e => (.error (.error (.internal e)), s.drawn) := by
  unfold setSharedPassword
  rw [Program.bind_eq, Program.exec_bind, exec_hashPassword]
  cases w.hashPassword s.draws newPassword <;> rfl

/-- **A reset run alone**, once its checks have passed: by the number of memberships, the change
is required or the password is set. -/
theorem exec_adminResetPassword {u : MembershipRow} {i : IdentityRow}
    (hretype : newPassword = retypePassword)
    (hpolicy : policyOutcome w s.db tenantId newPassword = .ok ())
    (hu : u ∈ s.db.users) (htenant : u.tenantId = tenantId) (hid : u.id = userId)
    (hi : s.db.identity u.identityId = some i) :
    (adminResetPassword w tenantId userId newPassword retypePassword forcePasswordChange).exec
        (handle w) s =
      if 1 < s.db.membershipCount u.identityId then
        (forceSharedChange u.identityId forcePasswordChange).exec (handle w) s
      else
        (setSharedPassword u.identityId newPassword forcePasswordChange).exec (handle w) s := by
  have hfind := Db.find_membership.mpr ⟨u, hu, htenant, hid, i, hi, rfl⟩
  unfold adminResetPassword ensureRetyped
  simp only [Program.bind_eq, Program.exec_bind, Service.exec_ensure, hretype, if_true]
  rw [← hretype, exec_validatePassword, hpolicy]
  simp only [Except.mapError, UsersRepo.exec_getById, hfind, Service.exec_okOr_some,
    UsersRepo.exec_getMembershipsForIdentity, User.ofRows_identityId, Db.length_memberships hi]
  split <;> rfl

/-- The outcome of a reset that a check ends: an error, and the tables as they were. -/
theorem exec_adminResetPassword_refused
    (h : newPassword ≠ retypePassword ∨ policyOutcome w s.db tenantId newPassword ≠ .ok () ∨
      ∀ u ∈ s.db.users, u.tenantId = tenantId → u.id = userId → s.db.identity u.identityId = none) :
    ∃ e, (adminResetPassword w tenantId userId newPassword retypePassword
      forcePasswordChange).exec (handle w) s = (.error e, s) := by
  unfold adminResetPassword ensureRetyped
  simp only [Program.bind_eq, Program.exec_bind, Service.exec_ensure]
  by_cases hretype : newPassword = retypePassword
  · rw [if_pos hretype]
    dsimp only
    rw [exec_validatePassword]
    cases hpolicy : policyOutcome w s.db tenantId newPassword with
    | error e => exact ⟨_, rfl⟩
    | ok _ =>
      have hnone : (s.db.memberships.find? fun u =>
          u.tenantId = tenantId && u.id = userId) = none := by
        rcases h with h | h | h
        · exact absurd hretype h
        · exact absurd hpolicy h
        · cases hf : s.db.memberships.find? fun u => u.tenantId = tenantId && u.id = userId with
          | none => rfl
          | some x =>
            obtain ⟨u, hu, ht, hid, i, hi, -⟩ := Db.find_membership.mp hf
            rw [h u hu ht hid] at hi
            cases hi
      simp only [Except.mapError, UsersRepo.exec_getById, hnone, Service.exec_okOr_none]
      exact ⟨_, rfl⟩
  · rw [if_neg hretype]
    exact ⟨_, rfl⟩

/-- **The reset leaves a shared password alone**: it changes the member's password only if the
identity has no live membership in another tenant; otherwise it fails, or only requires the
member to change it. -/
def SharedPasswordKept : Prop :=
  ∀ u ∈ s.db.users, u.tenantId = tenantId → u.id = userId →
    let run := (adminResetPassword w tenantId userId newPassword retypePassword
      forcePasswordChange).exec (handle w) s
    ((run.2.db.identity u.identityId).map (·.passwordHash) ≠
        (s.db.identity u.identityId).map (·.passwordHash) →
      ¬ s.db.memberElsewhere tenantId u.identityId) ∧
    (s.db.memberElsewhere tenantId u.identityId →
      (∃ e, run.1 = .error e ∧ run.2.db = s.db) ∨
      run.2.db = s.db.updateIdentity u.identityId (.withForcePasswordChange s.now true)
        fun r => r.withForcePasswordChange_id _ _)

/-- The member is archived, and its identity has exactly one live membership, in another
tenant. -/
def Exposed (db : Db) (tenantId : String) (userId : Uuid) : Prop :=
  ∃ u ∈ db.users, u.tenantId = tenantId ∧ u.id = userId ∧ u.status = "archived" ∧
    (db.identity u.identityId).isSome ∧
    ∃ m ∈ db.users, m.identityId = u.identityId ∧ m.tenantId ≠ tenantId ∧ m.status ≠ "archived" ∧
      ∀ m' ∈ db.users, m'.identityId = u.identityId → m'.status ≠ "archived" → m' = m

/-- The password is retyped, fits the tenant's policy and can be hashed. -/
def PasswordUsable : Prop :=
  newPassword = retypePassword ∧ policyOutcome w s.db tenantId newPassword = .ok () ∧
    ∃ h, w.hashPassword s.draws newPassword = .ok h

/-- The salt of the next hash is fresh: no stored hash is the one it gives. -/
def FreshSalt : Prop :=
  ∀ h, w.hashPassword s.draws newPassword = .ok h →
    ∀ i ∈ s.db.identities, i.passwordHash ≠ some h

variable {w s tenantId userId newPassword retypePassword forcePasswordChange}

/-- Requiring a change leaves the password alone. -/
theorem passwordHash_withForcePasswordChange (db : Db) (id : Uuid) (now : Time) (value : Bool) :
    ((db.updateIdentity id (.withForcePasswordChange now value) fun r =>
      r.withForcePasswordChange_id _ _).identity id).map
      (·.passwordHash) = (db.identity id).map (·.passwordHash) := by
  cases hi : db.identity id with
  | none => rw [Db.identity_updateIdentity_none hi]
  | some i =>
    rw [Db.identity_updateIdentity hi]
    rfl

/-- A live membership elsewhere, counted at most once, is the only live one; the member itself
is then archived. -/
theorem exposed_of_count {u : MembershipRow} (hu : u ∈ s.db.users)
    (ht : u.tenantId = tenantId) (hid : u.id = userId)
    (hi : (s.db.identity u.identityId).isSome)
    (helse : s.db.memberElsewhere tenantId u.identityId)
    (hcount : ¬ 1 < s.db.membershipCount u.identityId) : Exposed s.db tenantId userId := by
  obtain ⟨m, hm, hmid, hmt, hms⟩ := helse
  have honly : ∀ m' ∈ s.db.users, m'.identityId = u.identityId → m'.status ≠ "archived" →
      m' = m := fun m' hm' hid' hs' =>
    Table.affected_le_one.mp (Nat.not_lt.mp hcount) m' hm' m hm (by simp [hid', hs'])
      (by simp [hmid, hms])
  refine ⟨u, hu, ht, hid, ?_, hi, m, hm, hmid, hmt, hms, honly⟩
  by_contra hs
  have : u = m := honly u hu rfl hs
  exact hmt (this ▸ ht)

theorem count_of_exposed {u m : MembershipRow}
    (honly : ∀ m' ∈ s.db.users, m'.identityId = u.identityId → m'.status ≠ "archived" → m' = m) :
    ¬ 1 < s.db.membershipCount u.identityId := by
  refine Nat.not_lt.mpr (Table.affected_le_one.mpr fun r hr r' hr' hp hp' => ?_)
  simp only [Bool.and_eq_true, decide_eq_true_eq] at hp hp'
  rw [honly r hr hp.1 hp.2, honly r' hr' hp'.1 hp'.2]

/-- A reset that is refused, or that finds more than one live membership, keeps the password. -/
theorem sharedPasswordKept_of_not
    (h : ¬ (Exposed s.db tenantId userId ∧
      PasswordUsable w s tenantId newPassword retypePassword)) :
    SharedPasswordKept w s tenantId userId newPassword retypePassword forcePasswordChange := by
  intro u hu ht hid
  dsimp only
  -- The second conjunct gives the first: neither way of keeping it touches the password.
  suffices hkept : s.db.memberElsewhere tenantId u.identityId →
      (∃ e, ((adminResetPassword w tenantId userId newPassword retypePassword
        forcePasswordChange).exec (handle w) s).1 = .error e ∧
        ((adminResetPassword w tenantId userId newPassword retypePassword
          forcePasswordChange).exec (handle w) s).2.db = s.db) ∨
      ((adminResetPassword w tenantId userId newPassword retypePassword
        forcePasswordChange).exec (handle w) s).2.db =
        s.db.updateIdentity u.identityId (.withForcePasswordChange s.now true) fun r =>
          r.withForcePasswordChange_id _ _ by
    refine ⟨fun hne helse => hne ?_, hkept⟩
    rcases hkept helse with ⟨e, -, hdb⟩ | hdb
    · rw [hdb]
    · rw [hdb, passwordHash_withForcePasswordChange]
  intro helse
  by_cases hchecks : newPassword = retypePassword ∧
      policyOutcome w s.db tenantId newPassword = .ok () ∧ (s.db.identity u.identityId).isSome
  · obtain ⟨hretype, hpolicy, hsome⟩ := hchecks
    obtain ⟨i, hi⟩ := Option.isSome_iff_exists.mp hsome
    rw [exec_adminResetPassword w s tenantId userId newPassword retypePassword
      forcePasswordChange hretype hpolicy hu ht hid hi]
    by_cases hcount : 1 < s.db.membershipCount u.identityId
    · rw [if_pos hcount, exec_forceSharedChange]
      split
      · exact .inr rfl
      · exact .inl ⟨_, rfl, rfl⟩
    · rw [if_neg hcount, exec_setSharedPassword]
      have hexposed := exposed_of_count hu ht hid hsome helse hcount
      cases hh : w.hashPassword s.draws newPassword with
      | error e => exact .inl ⟨_, rfl, rfl⟩
      | ok hash => exact absurd ⟨hexposed, hretype, hpolicy, hash, hh⟩ h
  · refine .inl ?_
    obtain ⟨e, he⟩ := exec_adminResetPassword_refused w s tenantId userId newPassword
      retypePassword forcePasswordChange (by
        by_cases hretype : newPassword = retypePassword
        · by_cases hpolicy : policyOutcome w s.db tenantId newPassword = .ok ()
          · refine .inr (.inr fun u' hu' _ hid' => ?_)
            obtain rfl : u' = u := Table.eq_of_key_eq hu' hu (hid'.trans hid.symm)
            have hnone : ¬ (s.db.identity u'.identityId).isSome := fun hi =>
              hchecks ⟨hretype, hpolicy, hi⟩
            simpa using hnone
          · exact .inr (.inl hpolicy)
        · exact .inl hretype)
    rw [he]
    exact ⟨e, rfl, rfl⟩

/-- The password of an exposed member is set. -/
theorem not_sharedPasswordKept (hsalt : FreshSalt w s newPassword)
    (hexposed : Exposed s.db tenantId userId)
    (husable : PasswordUsable w s tenantId newPassword retypePassword) :
    ¬ SharedPasswordKept w s tenantId userId newPassword retypePassword forcePasswordChange := by
  intro hkept
  obtain ⟨u, hu, ht, hid, -, hsome, m, hm, hmid, hmt, hms, honly⟩ := hexposed
  obtain ⟨hretype, hpolicy, hash, hhash⟩ := husable
  obtain ⟨i, hi⟩ := Option.isSome_iff_exists.mp hsome
  refine (hkept u hu ht hid).1 ?_ ⟨m, hm, hmid, hmt, hms⟩
  rw [exec_adminResetPassword w s tenantId userId newPassword retypePassword
    forcePasswordChange hretype hpolicy hu ht hid hi, if_neg (count_of_exposed honly),
    exec_setSharedPassword, hhash]
  simp only [withSharedPassword, passwordHash_withForcePasswordChange,
    Db.identity_updateIdentity hi, hi, Option.map_some, IdentityRow.withPassword, ne_eq,
    Option.some.injEq]
  exact fun h => hsalt hash hhash i (Table.selectOne_mem hi) h.symm

/-- **A reset leaves a shared password alone exactly when the member is not exposed, or a check
of the new password fails.** -/
theorem sharedPasswordKept_iff (hsalt : FreshSalt w s newPassword) :
    SharedPasswordKept w s tenantId userId newPassword retypePassword forcePasswordChange ↔
      ¬ (Exposed s.db tenantId userId ∧
        PasswordUsable w s tenantId newPassword retypePassword) :=
  ⟨fun hkept h => not_sharedPasswordKept hsalt h.1 h.2 hkept, sharedPasswordKept_of_not⟩

end Reset

/-! ### A member archived by the tenant that resets its password -/

/-- An identity that `acme` has archived and that lives on in `globex`. -/
def archivedMember : State :=
  .ofDb { Db.empty with
    tenants := acmeAndGlobex
    identities := ⟨[.ofHandles ⟨0, id, fun _ => 7⟩ (some "ann@globex.example") none none none none
      (some ":correct horse")], by decide⟩
    users := ⟨[⟨1, "acme", 7, none, "archived", none, 0, 0⟩,
      ⟨2, "globex", 7, none, "active", none, 0, 0⟩], by decide⟩ } 0

theorem archivedMember_freshSalt (newPassword : String) (h : newPassword ≠ "correct horse") :
    FreshSalt .offline archivedMember newPassword := by
  intro hash hhash i hi
  obtain rfl := List.mem_singleton.mp hi
  cases hhash
  intro heq
  have htext := congrArg String.toList (Option.some.inj heq)
  have hpassword : "correct horse".toList = newPassword.toList := by
    simpa [archivedMember, State.ofDb] using htext
  exact h (String.toList_injective hpassword).symm

theorem archivedMember_exposed : Exposed archivedMember.db "acme" 1 := by
  refine ⟨⟨1, "acme", 7, none, "archived", none, 0, 0⟩, by simp [archivedMember],
    rfl, rfl, rfl, by decide, ⟨2, "globex", 7, none, "active", none, 0, 0⟩,
    by simp [archivedMember], rfl, by decide, by decide, ?_⟩
  intro m hm _ hs
  simp only [archivedMember, State.ofDb_db, Table.mem_mk, List.mem_cons, List.not_mem_nil,
    or_false] at hm
  rcases hm with rfl | rfl
  · exact absurd rfl hs
  · rfl

/-- **A reset by the tenant that archived its member** sets the password of the other tenant. -/
theorem archived_member_reset :
    ¬ SharedPasswordKept .offline archivedMember "acme" 1 "S3cret" "S3cret" false :=
  not_sharedPasswordKept (archivedMember_freshSalt _ (by decide)) archivedMember_exposed
    ⟨rfl, rfl, _, rfl⟩

theorem sharedPasswordKept_iff_archivedMember :
    SharedPasswordKept .offline archivedMember "acme" 1 "S3cret" "other" false ↔
      ¬ (Exposed archivedMember.db "acme" 1 ∧
        PasswordUsable .offline archivedMember "acme" "S3cret" "other") :=
  sharedPasswordKept_iff (archivedMember_freshSalt _ (by decide))

end AuthService

end Authrs
