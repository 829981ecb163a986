import Authrs.Login.Invites

/-!
# Which identity an administrator attaches

The administrator's user creation attaches the identity that has the email, else the one that has
the mobile number, else a new one. It compares nothing else: an identity found by its email may have
another number, and one found by its number has another email.

## Main definitions

* `Db.resolved`: the identity that is found
* `Db.HoldsHandles`: the identity of a membership has the supplied handles
* `Db.HandlesAgree`: the handles do not contradict the identity that is found

## Main results

* `exec_adminCreateUser`: the identity of the new membership
* `admin_create_user_attaches`: with it, when it has the supplied handles
* `stranger_attached`: an identity with the number and another email
-/

namespace Authrs

open Interaction AuthService Relational

/-! ### Handles -/

/-- The row has the email, up to case. -/
def IdentityRow.HasEmail (lower : String → String) (email : String) (r : IdentityRow) : Prop :=
  ∃ e ∈ r.email, lower e = lower email

/-- The row has the mobile number with its country code. -/
def IdentityRow.HasMobile (countryCode mobile : String) (r : IdentityRow) : Prop :=
  r.countryCode = some countryCode ∧ r.mobile = some mobile

/-- The row has the handles that are supplied: the email, and the number if both parts are. -/
def IdentityRow.HasHandles (lower : String → String) (email mobile countryCode : Option String)
    (r : IdentityRow) : Prop :=
  (∀ e ∈ email, r.HasEmail lower e) ∧ ∀ m ∈ mobile, ∀ c ∈ countryCode, r.HasMobile c m

namespace Db

variable (lower : String → String) (db : Db) (email mobile countryCode : Option String)

/-- The identity with an email, if one is supplied. -/
def byEmail : Option IdentityRow :=
  email.bind fun email => db.identities.selectOne fun r => r.email.any fun e => lower e = lower email

/-- The identity with a mobile number, if both parts are supplied. -/
def byMobile : Option IdentityRow :=
  match mobile, countryCode with
  | some m, some c => db.identities.selectOne (mobileIs c m)
  | _, _ => none

/-- **The identity that is found**: by the email, else by the mobile number. -/
def resolved : Option IdentityRow :=
  (db.byEmail lower email).or (db.byMobile mobile countryCode)

/-- **The identity of the membership has the supplied handles.** -/
def HoldsHandles (user : User) : Prop :=
  ∃ r, db.identity user.identityId = some r ∧ r.HasHandles lower email mobile countryCode

/-- **The handles do not contradict the identity that is found**: one found by its email has the
number, if both of its parts are supplied; one found by its number was not looked up by email. -/
def HandlesAgree : Prop :=
  match db.byEmail lower email with
  | some r => ∀ m ∈ mobile, ∀ c ∈ countryCode, r.HasMobile c m
  | none => db.byMobile mobile countryCode ≠ none → email = none

variable {lower db email mobile countryCode} {r : IdentityRow}

theorem byEmail_eq_some (h : db.byEmail lower email = some r) :
    r ∈ db.identities ∧ ∀ e ∈ email, r.HasEmail lower e := by
  obtain ⟨e, rfl, hr⟩ := Option.bind_eq_some_iff.mp h
  refine ⟨Table.selectOne_mem hr, ?_⟩
  rintro _ ⟨⟩
  have hpos := Table.selectOne_pos hr
  obtain ⟨e', he', hlower⟩ := (Option.any_eq_true _ _).mp hpos
  exact ⟨e', he', of_decide_eq_true hlower⟩

theorem byEmail_eq_none (h : db.byEmail lower email = none) (hr : r ∈ db.identities) :
    ∀ e ∈ email, ¬r.HasEmail lower e := by
  rintro e rfl ⟨e', he', hlower⟩
  have hno := Table.selectOne_eq_none.mp h r hr
  have hyes : (r.email.any fun x => decide (lower x = lower e)) = true :=
    (Option.any_eq_true _ _).mpr ⟨e', he', decide_eq_true hlower⟩
  rw [hno] at hyes
  cases hyes

theorem byMobile_eq_some (h : db.byMobile mobile countryCode = some r) :
    r ∈ db.identities ∧ ∀ m ∈ mobile, ∀ c ∈ countryCode, r.HasMobile c m := by
  unfold byMobile at h
  split at h
  · refine ⟨Table.selectOne_mem h, ?_⟩
    rintro _ ⟨⟩ _ ⟨⟩
    have hp := Table.selectOne_pos h
    simp only [mobileIs, Bool.and_eq_true, decide_eq_true_eq] at hp
    exact hp
  · cases h

/-- An identity that is found has the supplied handles when they do not contradict it. -/
theorem hasHandles_iff_of_resolved (h : db.resolved lower email mobile countryCode = some r) :
    r.HasHandles lower email mobile countryCode ↔
      db.HandlesAgree lower email mobile countryCode := by
  unfold HandlesAgree
  cases hemail : db.byEmail lower email with
  | some r' =>
    rw [resolved, hemail] at h
    obtain rfl : r' = r := Option.some.inj h
    exact ⟨And.right, fun hpair => ⟨(byEmail_eq_some hemail).2, hpair⟩⟩
  | none =>
    rw [resolved, hemail, Option.none_or] at h
    obtain ⟨hr, hpair⟩ := byMobile_eq_some h
    constructor
    · rintro ⟨hhas, -⟩ -
      refine Option.eq_none_iff_forall_not_mem.mpr fun e he => ?_
      exact byEmail_eq_none hemail hr e he (hhas e he)
    · intro hnone
      obtain rfl := hnone (by rw [h]; exact Option.some_ne_none r)
      exact ⟨fun _ he => (nomatch he), hpair⟩

theorem handlesAgree_of_resolved_none (h : db.resolved lower email mobile countryCode = none) :
    db.HandlesAgree lower email mobile countryCode := by
  obtain ⟨hemail, hmobile⟩ := Option.or_eq_none_iff.mp h
  unfold HandlesAgree
  rw [hemail]
  exact fun hne => absurd hmobile hne

end Db

/-! ### The call -/

section Alone

open Program

variable {w : World} {s s' : State}

/-- A supplied handle does not end with a blank, so a column holds it as it is. -/
theorem varcharOpt_nonEmptyTrimmed {n : Nat} {x t : Option String}
    (h : varcharOpt n (nonEmptyTrimmed x) = .ok t) : t = nonEmptyTrimmed x := by
  unfold varcharOpt at h
  split at h
  · rename_i hx
    rw [hx]
    exact (Except.ok.inj h).symm
  · rename_i y hx
    split at h
    · rename_i y' hy
      obtain ⟨z, -, rfl⟩ := Option.map_eq_some_iff.mp (Option.eq_some_of_filter_eq_some hx)
      rw [hx, ← Except.ok.inj h]
      refine congrArg some (varchar_of_last hy fun c hc => ?_)
      have hblank := getLast?_trim z c hc
      rintro rfl
      cases hblank
    · cases h

/-- The handles of an identity that is inserted. -/
theorem insertIdentity_handles {env : SqlEnv} {db db' : Db} {i : Identity}
    {email mobile countryCode firstName lastName passwordHash : Option String}
    (h : insertIdentity env db email mobile countryCode firstName lastName passwordHash =
      .ok (i, db')) :
    varcharOpt 255 email = .ok i.email ∧ varcharOpt 50 mobile = .ok i.mobile ∧
      varcharOpt 5 countryCode = .ok i.countryCode := by
  unfold insertIdentity at h
  simp only [bind_eq_ok] at h
  obtain ⟨email', he, mobile', hm, code', hc, first', -, last', -, h⟩ := h
  repeat' split at h
  all_goals cases h
  exact ⟨he, hm, hc⟩

/-- A statement that has succeeded, with its rows. -/
theorem exec_query_eq_ok {q : Sql} {rows : q.Rows}
    (h : (query q).exec (handle w) s = (.ok rows, s')) :
    q.exec (s.sqlEnv w) s.db = .ok (rows, s'.db) := by
  cases he : q.exec (s.sqlEnv w) s.db with
  | error e =>
    rw [exec_query_error he] at h
    cases (Prod.mk.inj h).1
  | ok r =>
    rw [exec_query_ok (show q.exec (s.sqlEnv w) s.db = .ok (r.1, r.2) from he)] at h
    obtain ⟨hrows, rfl⟩ := Prod.mk.inj h
    rw [← Except.ok.inj hrows]

theorem exec_identityOfEmail (email : Option String) :
    (identityOfEmail email).exec (handle w) s =
      (.ok ((s.db.byEmail w.lower email).map IdentityRow.toIdentity), s) := by
  cases email with
  | none => rfl
  | some e => exact exec_query_read rfl rfl

theorem exec_identityOfMobile (mobile countryCode : Option String) :
    (identityOfMobile mobile countryCode).exec (handle w) s =
      (.ok ((s.db.byMobile mobile countryCode).map IdentityRow.toIdentity), s) := by
  cases mobile with
  | none => rfl
  | some m =>
    cases countryCode with
    | none => rfl
    | some c => exact exec_query_read rfl rfl

theorem exec_ensureEmailFree_db {tenantId : String} {email : Option String}
    (h : (ensureEmailFree tenantId email).exec (handle w) s = (.ok (), s')) : s'.db = s.db := by
  cases email with
  | none =>
    obtain ⟨-, rfl⟩ := Prod.mk.inj h
    rfl
  | some e =>
    obtain ⟨member, s₁, hmember, h⟩ := (exec_bind_eq_ok _).mp h
    obtain ⟨-, rfl⟩ := Service.exec_ensure_eq_ok.mp h
    exact (exec_lookup_alone (fun _ _ => rfl) hmember).2.1

theorem exec_ensureUsernameFree_db {tenantId : String} {username : Option String}
    (h : (ensureUsernameFree tenantId username).exec (handle w) s = (.ok (), s')) :
    s'.db = s.db := by
  cases username with
  | none =>
    obtain ⟨-, rfl⟩ := Prod.mk.inj h
    rfl
  | some u =>
    obtain ⟨member, s₁, hmember, h⟩ := (exec_bind_eq_ok _).mp h
    obtain ⟨-, rfl⟩ := Service.exec_ensure_eq_ok.mp h
    exact (exec_lookup_alone (fun _ _ => rfl) hmember).2.1

theorem exec_hashOptionalPassword_db {tenantId : String} {password retypePassword : Option String}
    {passwordHash : Option String}
    (h : (hashOptionalPassword w tenantId password retypePassword).exec (handle w) s =
      (.ok passwordHash, s')) : s'.db = s.db := by
  unfold hashOptionalPassword at h
  split at h
  · obtain ⟨_, s₁, hretyped, h⟩ := (exec_bind_eq_ok _).mp h
    obtain ⟨-, rfl⟩ := Service.exec_ensure_eq_ok.mp hretyped
    obtain ⟨_, s₂, hpolicy, h⟩ := (exec_bind_eq_ok _).mp h
    obtain ⟨-, rfl⟩ := exec_validatePassword_eq_ok.mp hpolicy
    obtain ⟨hash, s₃, hhash, h⟩ := (exec_bind_eq_ok _).mp h
    obtain ⟨-, rfl⟩ := exec_hashPassword_eq_ok.mp hhash
    obtain ⟨-, rfl⟩ := Prod.mk.inj h
    rfl
  · obtain ⟨-, rfl⟩ := Prod.mk.inj h
    rfl
  · cases (Prod.mk.inj h).1

/-- The membership is of the identity, and no identity changes. -/
theorem exec_createMembership {identity : Identity} {tenantId : String} {username : Option String}
    {user : User}
    (h : (UsersRepo.create identity tenantId username).exec (handle w) s = (.ok user, s')) :
    user.identityId = identity.id ∧ s'.db.identities = s.db.identities := by
  obtain ⟨id, s₁, hid, h⟩ := (exec_bind_eq_ok _).mp h
  obtain ⟨-, rfl⟩ := Prod.mk.inj hid
  obtain ⟨now, s₂, hnow, h⟩ := (exec_bind_eq_ok _).mp h
  obtain ⟨-, rfl⟩ := Prod.mk.inj hnow
  obtain ⟨_, s₃, hinsert, h⟩ := (exec_bind_eq_ok _).mp h
  obtain ⟨n, hexec⟩ := exec_execute_eq_ok hinsert
  obtain ⟨hok, rfl⟩ := Prod.mk.inj h
  refine ⟨congrArg User.identityId (Except.ok.inj hok).symm, ?_⟩
  obtain ⟨_, _, -, -, -, -, -, hdb⟩ := insertMembership_ok (n := n) hexec
  rw [hdb]
  rfl

/-- **The identity that an administrator attaches**: the one that is found, or a new one with the
supplied handles. -/
def Db.Attaches (lower : String → String) (db db' : Db) (identityId : Uuid)
    (email mobile countryCode : Option String) : Prop :=
  ∃ r, db'.identity identityId = some r ∧
    match db.resolved lower email mobile countryCode with
    | some r' => r = r'
    | none => r ∉ db.identities ∧ r.email = email ∧ r.mobile = mobile ∧ r.countryCode = countryCode

theorem Db.Attaches.attached_iff {lower : String → String} {db db' : Db} {user : User}
    {email mobile countryCode : Option String}
    (h : db.Attaches lower db' user.identityId email mobile countryCode) :
    db'.HoldsHandles lower email mobile countryCode user ↔
      db.HandlesAgree lower email mobile countryCode := by
  obtain ⟨r, hr, hresolved⟩ := h
  have hown : db'.HoldsHandles lower email mobile countryCode user ↔
      r.HasHandles lower email mobile countryCode := by
    constructor
    · rintro ⟨r', hr', hhas⟩
      obtain rfl : r = r' := Option.some.inj (hr.symm.trans hr')
      exact hhas
    · exact fun hhas => ⟨r, hr, hhas⟩
  rw [hown]
  cases hfound : db.resolved lower email mobile countryCode with
  | some r' =>
    rw [hfound] at hresolved
    obtain rfl : r = r' := hresolved
    exact Db.hasHandles_iff_of_resolved hfound
  | none =>
    rw [hfound] at hresolved
    obtain ⟨-, he, hm, hc⟩ := hresolved
    refine ⟨fun _ => Db.handlesAgree_of_resolved_none hfound, fun _ => ⟨?_, ?_⟩⟩
    · exact fun e hemail => ⟨e, he ▸ hemail, rfl⟩
    · exact fun m hmobile c hcode => ⟨hc.trans hcode, hm.trans hmobile⟩

theorem exec_resolveOrCreateIdentity {email mobile countryCode firstName lastName passwordHash :
    Option String} {i : Identity}
    (h : (resolveOrCreateIdentity (nonEmptyTrimmed email) (nonEmptyTrimmed mobile)
      (nonEmptyTrimmed countryCode) firstName lastName passwordHash).exec (handle w) s =
        (.ok i, s')) :
    s.db.Attaches w.lower s'.db i.id (nonEmptyTrimmed email) (nonEmptyTrimmed mobile)
      (nonEmptyTrimmed countryCode) := by
  have hfound : ∀ {r : IdentityRow}, r ∈ s.db.identities → s'.db = s.db →
      r.toIdentity = i → s'.db.identity i.id = some r := by
    rintro r hr hdb rfl
    rw [hdb]
    exact Table.selectOne_key.mpr ⟨hr, rfl⟩
  unfold Db.Attaches Db.resolved
  obtain ⟨byEmail, s₁, hemail, h⟩ := (exec_bind_eq_ok _).mp h
  rw [exec_identityOfEmail] at hemail
  obtain ⟨hread, rfl⟩ := Prod.mk.inj hemail
  obtain rfl := Except.ok.inj hread
  -- The email goes first, then the mobile number, and a new row last.
  cases hrow : s.db.byEmail w.lower (nonEmptyTrimmed email) with
  | some r =>
    rw [hrow] at h
    obtain ⟨hi, rfl⟩ := Prod.mk.inj h
    exact ⟨r, hfound (Db.byEmail_eq_some hrow).1 rfl (Except.ok.inj hi), rfl⟩
  | none =>
    rw [hrow] at h
    obtain ⟨byMobile, s₂, hmobile, h⟩ := (exec_bind_eq_ok _).mp h
    rw [exec_identityOfMobile] at hmobile
    obtain ⟨hread, rfl⟩ := Prod.mk.inj hmobile
    obtain rfl := Except.ok.inj hread
    cases hrow₂ : s.db.byMobile (nonEmptyTrimmed mobile) (nonEmptyTrimmed countryCode) with
    | some r =>
      rw [hrow₂] at h
      obtain ⟨hi, rfl⟩ := Prod.mk.inj h
      exact ⟨r, hfound (Db.byMobile_eq_some hrow₂).1 rfl (Except.ok.inj hi), rfl⟩
    | none =>
      rw [hrow₂] at h
      have hinsert := exec_query_eq_ok h
      obtain ⟨row, t, -, -, -, rfl, hins, hdb⟩ := insertIdentity_ok hinsert
      obtain ⟨he, hm, hc⟩ := insertIdentity_handles hinsert
      have hnew : row ∈ s'.db.identities := by
        rw [hdb]
        exact (Table.mem_insert? hins).mpr (.inl rfl)
      refine ⟨row, Table.selectOne_key.mpr ⟨hnew, rfl⟩, fun hold => Table.insert?_fresh hins hold rfl, ?_⟩
      exact ⟨varcharOpt_nonEmptyTrimmed he, varcharOpt_nonEmptyTrimmed hm,
        varcharOpt_nonEmptyTrimmed hc⟩

/-- **The identity of the new membership.** -/
theorem exec_adminCreateUser {tenantId : String} {user : User}
    {firstName lastName email username mobile countryCode password retypePassword : Option String}
    (h : (adminCreateUser w tenantId firstName lastName email username mobile countryCode password
      retypePassword).exec (handle w) s = (.ok user, s')) :
    s.db.Attaches w.lower s'.db user.identityId (nonEmptyTrimmed email) (nonEmptyTrimmed mobile)
      (nonEmptyTrimmed countryCode) := by
  obtain ⟨_, s₁, hvalid, h⟩ := (exec_bind_eq_ok _).mp h
  obtain ⟨-, rfl⟩ := Service.exec_ensure_eq_ok.mp hvalid
  obtain ⟨_, s₂, hemail, h⟩ := (exec_bind_eq_ok _).mp h
  obtain ⟨_, s₃, husername, h⟩ := (exec_bind_eq_ok _).mp h
  obtain ⟨hash, s₄, hhash, h⟩ := (exec_bind_eq_ok _).mp h
  obtain ⟨identity, s₅, hresolve, h⟩ := (exec_bind_eq_ok _).mp h
  obtain ⟨hid, hidentities⟩ := exec_createMembership h
  have hdb : s₄.db = s.db := (exec_hashOptionalPassword_db hhash).trans
    ((exec_ensureUsernameFree_db husername).trans (exec_ensureEmailFree_db hemail))
  obtain ⟨r, hr, hresolved⟩ := exec_resolveOrCreateIdentity hresolve
  rw [hdb] at hresolved
  refine ⟨r, ?_, hresolved⟩
  unfold Db.identity
  rw [hidentities, hid]
  exact hr

/-- **When the identity of the new membership has the supplied handles**: exactly when they do not
contradict the one that is found. -/
theorem admin_create_user_attaches {tenantId : String} {user : User}
    {firstName lastName email username mobile countryCode password retypePassword : Option String}
    (h : (adminCreateUser w tenantId firstName lastName email username mobile countryCode password
      retypePassword).exec (handle w) s = (.ok user, s')) :
    s.db.Attaches w.lower s'.db user.identityId (nonEmptyTrimmed email) (nonEmptyTrimmed mobile)
        (nonEmptyTrimmed countryCode) ∧
      (s'.db.HoldsHandles w.lower (nonEmptyTrimmed email) (nonEmptyTrimmed mobile)
          (nonEmptyTrimmed countryCode) user ↔
        s.db.HandlesAgree w.lower (nonEmptyTrimmed email) (nonEmptyTrimmed mobile)
          (nonEmptyTrimmed countryCode)) := by
  have hattaches := exec_adminCreateUser h
  exact ⟨hattaches, hattaches.attached_iff⟩

end Alone

/-! ### A shared number -/

section Examples

/-- Somebody with a mobile number, whom an administrator of `globex` does not know. -/
def eveWithMobile : State := elsewhere (some "eve@evil.example") (some "5550100") (some "+1")

/-- The administrator creates a user by email. -/
def createByEmail (email : String) (mobile countryCode : Option String) : Service User :=
  adminCreateUser .offline "globex" none none (some email) none mobile countryCode none none

/-- The identity that is attached. -/
def attachedId (o : Except Failure User) : Option Uuid := o.toOption.map User.identityId

/-- What an administrator of `globex` finds, and whom the two calls attach. -/
theorem eveWithMobile_facts :
    attachedId ((createByEmail "Eve@evil.example" none none).exec (handle .offline)
        eveWithMobile).1 = some 7 ∧
      attachedId ((createByEmail "ann@acme.example" (some "5550100") (some "+1")).exec
        (handle .offline) eveWithMobile).1 = some 7 ∧
      eveWithMobile.db.byEmail World.offline.lower (nonEmptyTrimmed (some "ann@acme.example")) = none ∧
      (eveWithMobile.db.byMobile (nonEmptyTrimmed (some "5550100"))
        (nonEmptyTrimmed (some "+1"))).isSome = true ∧
      (nonEmptyTrimmed (some "ann@acme.example")).isSome = true := by
  decide +kernel

theorem eq_ok_of_attachedId {x : Except Failure User × State} {id : Uuid}
    (h : attachedId x.1 = some id) : ∃ user, x = (.ok user, x.2) := by
  obtain ⟨o, s⟩ := x
  cases o with
  | error e => cases h
  | ok user => exact ⟨user, rfl⟩

/-- By her email alone she is attached, whatever her number. -/
theorem admin_create_user_attaches_eve :
    ∃ user s', (createByEmail "Eve@evil.example" none none).exec (handle .offline) eveWithMobile =
        (.ok user, s') ∧
      s'.db.HoldsHandles World.offline.lower (nonEmptyTrimmed (some "Eve@evil.example"))
        (nonEmptyTrimmed none) (nonEmptyTrimmed none) user := by
  obtain ⟨user, hexec⟩ := eq_ok_of_attachedId eveWithMobile_facts.1
  refine ⟨user, _, hexec, (admin_create_user_attaches hexec).2.mpr ?_⟩
  unfold Db.HandlesAgree
  split
  · exact fun _ hm => nomatch hm
  · exact fun hne => absurd rfl hne

/-- **A stranger is attached**: the number is hers, the email is not. -/
theorem stranger_attached :
    ¬ ∀ (w : World) (s s' : State) (tenantId : String) (user : User)
        (firstName lastName email username mobile countryCode password retypePassword :
          Option String),
      (adminCreateUser w tenantId firstName lastName email username mobile countryCode password
        retypePassword).exec (handle w) s = (.ok user, s') →
      s'.db.HoldsHandles w.lower (nonEmptyTrimmed email) (nonEmptyTrimmed mobile)
        (nonEmptyTrimmed countryCode) user := by
  intro h
  obtain ⟨-, hattached, hemail, hmobile, hsupplied⟩ := eveWithMobile_facts
  obtain ⟨user, hexec⟩ := eq_ok_of_attachedId hattached
  have hagree := (exec_adminCreateUser hexec).attached_iff.mp
    (h _ _ _ _ _ _ _ _ _ _ _ _ _ hexec)
  unfold Db.HandlesAgree at hagree
  rw [hemail] at hagree
  have hnone := hagree (Option.isSome_iff_ne_none.mp hmobile)
  rw [hnone] at hsupplied
  cases hsupplied

end Examples

end Authrs
