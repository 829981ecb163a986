import Authrs.Interaction.Condition
import Authrs.Login.Factors
import Authrs.Store.Runs

/-!
# Where credentials come from

The routes that sign somebody in run side by side, with anything else that hands out no credentials.
Somebody who has got a session, a challenge, a change token or an identity token of an identity can
trade it for another one, in the same tenant or in another. But in the end each of them goes back to a
call that has checked a first factor of the same identity, or to a credential that was there at the
start.

## Main definitions

* `State.Stores`, `State.Pending`, `State.Member`, `State.HasToken`: what the tables hold
* `HasCredential`: the state holds a credential of an identity
* `Bystander`: what goes on besides the calls
* `Rooted`: somebody has checked a first factor of the identity
* `Accounted`: the invariant

## Main results

* `handle_stores`, `handle_pending`, `handle_hasToken`: credentials appear as requests hand them out
* `Accounted.move`: every exchange of a call keeps the invariant
* `run_hasCredential_rooted`: no credential without a first factor
-/

namespace Authrs

open Interaction Relational

/-! ### What a state holds -/

/-- A session is stored, in the table or in Redis. -/
inductive State.Stores (s : State) (p : SessionPayload) : Prop
  | row {r : SessionRow} : r ∈ s.db.sessions → r.payload = some p → State.Stores s p
  | entry {e : RedisEntry} : e ∈ s.redis.entries → e.value = .payload p → State.Stores s p

/-- A login of a membership waits for its second factor, or for a new password. -/
inductive State.Pending (s : State) (userId : Uuid) : Prop
  | challenge {r : ChallengeRow} : r ∈ s.db.mfaChallenges → r.userId = userId → State.Pending s userId
  | change {r : ForceChangeTokenRow} : r ∈ s.db.forceChangeTokens → r.userId = userId →
    State.Pending s userId

/-- A membership is one of an identity. -/
def State.Member (s : State) (userId id : Uuid) : Prop :=
  ∃ u ∈ s.db.users, u.id = userId ∧ u.identityId = id

/-- An identity has an identity token. -/
def State.HasToken (s : State) (id : Uuid) : Prop := ∃ r ∈ s.db.identityTokens, r.identityId = id

/-- **The state holds a credential of an identity.** -/
inductive HasCredential (s : State) : Uuid → Prop
  | session {p : SessionPayload} : s.Stores p → HasCredential s p.identityId
  | pending {userId id : Uuid} : s.Pending userId → s.Member userId id → HasCredential s id
  | token {id : Uuid} : s.HasToken id → HasCredential s id

/-- The logins that wait are those of memberships. -/
def State.Refers (s : State) : Prop := ∀ userId, s.Pending userId → ∃ id, s.Member userId id

/-- A membership is one of one identity. -/
theorem State.Member.unique {s : State} {userId id id' : Uuid} (h : s.Member userId id)
    (h' : s.Member userId id') : id = id' := by
  obtain ⟨u, hu, hid, rfl⟩ := h
  obtain ⟨u', hu', hid', rfl⟩ := h'
  rw [Table.eq_of_key_eq hu hu' (hid.trans hid'.symm)]

section Tables

variable {w : World} {s : State} {q : Request}

/-- Only a statement on sessions changes the sessions. -/
theorem Sql.exec_sessions {env : SqlEnv} {db db' : Db} {x : Sql} {r : x.Rows}
    (h : x.exec env db = .ok (r, db')) (hx : ∀ y, x ≠ .sessions y) : db'.sessions = db.sessions := by
  cases x with
  | identities y => rw [IdentityStmt.exec_frame h]
  | users y => rw [MembershipStmt.exec_frame h]
  | challenges y => rw [ChallengeStmt.exec_frame h]
  | oauth y => rw [OauthStmt.exec_frame h]
  | tokens y => rw [TokenStmt.exec_frame h]
  | roles y => rw [RoleStmt.exec_frame h]
  | groups y => rw [GroupStmt.exec_frame h]
  | permissions y => rw [PermissionStmt.exec_frame h]
  | sessions y => exact absurd rfl (hx y)
  | kv y => rw [KvStmt.exec_eq h]
  | otps y => rw [OtpStmt.exec_frame h]

/-- Only a statement on tokens changes the identity tokens. -/
theorem Sql.exec_identityTokens {env : SqlEnv} {db db' : Db} {x : Sql} {r : x.Rows}
    (h : x.exec env db = .ok (r, db')) (hx : ∀ y, x ≠ .tokens y) :
    db'.identityTokens = db.identityTokens := by
  cases x with
  | identities y => rw [IdentityStmt.exec_frame h]
  | users y => rw [MembershipStmt.exec_frame h]
  | challenges y => rw [ChallengeStmt.exec_frame h]
  | oauth y => rw [OauthStmt.exec_frame h]
  | tokens y => exact absurd rfl (hx y)
  | roles y => rw [RoleStmt.exec_frame h]
  | groups y => rw [GroupStmt.exec_frame h]
  | permissions y => rw [PermissionStmt.exec_frame h]
  | sessions y => rw [SessionStmt.exec_frame h]
  | kv y => rw [KvStmt.exec_eq h]
  | otps y => rw [OtpStmt.exec_frame h]

theorem insertSession_row {db db' : Db} {tenantId sessionToken : String} {userId : Uuid}
    {ipAddress userAgent : Option String} {expiresAt : Time} {payload : Option SessionPayload}
    {n : Nat} (h : insertSession db tenantId userId sessionToken ipAddress userAgent expiresAt
      payload = .ok (n, db')) :
    ∃ row, row.payload = payload ∧ db.sessions.insert? row = some db'.sessions := by
  unfold insertSession at h
  simp only [bind_eq_ok] at h
  obtain ⟨_, -, _, -, h⟩ := h
  split at h
  · cases h
  · split at h
    · cases h
    · rename_i t htable
      repeat' split at h
      all_goals cases h
      exact ⟨_, rfl, htable⟩

/-- Revoking a session leaves its payload. -/
theorem payload_of_revoked {t : Table SessionRow.sessionToken} {chosen : SessionRow → Bool}
    {r : SessionRow}
    (hr : r ∈ t.update chosen SessionRow.asRevoked SessionRow.asRevoked_sessionToken) :
    ∃ r' ∈ t, r'.payload = r.payload := by
  obtain ⟨r', hr', rfl⟩ := Table.mem_update.mp hr
  refine ⟨r', hr', ?_⟩
  split <;> rfl

/-- A row of the table of sessions has been there, with its payload, or is inserted with it. -/
theorem handle_sessionRow {r : SessionRow} (hr : r ∈ (handle w q s).2.db.sessions) :
    (∃ r' ∈ s.db.sessions, r'.payload = r.payload) ∨
      ∀ p, r.payload = some p → presented q = some p := by
  rcases handle_db (w := w) (s := s) q with hdb | ⟨x, n, rfl, hx⟩
  · exact .inl ⟨r, hdb ▸ hr, rfl⟩
  · by_cases hother : ∀ y, x ≠ .sessions y
    · rw [Sql.exec_sessions hx hother] at hr
      exact .inl ⟨r, hr, rfl⟩
    · obtain ⟨y, hy⟩ := not_forall_not.mp hother
      subst hy
      cases y with
      | insert =>
        obtain ⟨row, hpayload, htable⟩ := insertSession_row hx
        rcases (Table.mem_insert? htable).mp hr with rfl | hold
        · refine .inr fun p hp => ?_
          rw [hpayload] at hp
          exact hp
        · exact .inl ⟨r, hold, rfl⟩
      | revokeByToken => exact .inl (payload_of_revoked hr)
      | revokeAllForUser => exact .inl (payload_of_revoked hr)
      | get => exact .inl ⟨r, hr, rfl⟩

/-- An entry of Redis has been there, with its value, or is put with it. -/
theorem handle_redisEntry {e : RedisEntry} {p : SessionPayload}
    (he : e ∈ (handle w q s).2.redis.entries) (hp : e.value = .payload p) :
    (∃ e' ∈ s.redis.entries, e'.value = .payload p) ∨ presented q = some p := by
  have hput : ∀ {x : RedisEntry}, e ∈ (s.redis.put x).entries → e = x ∨ e ∈ s.redis.entries := by
    intro x hx
    rcases List.mem_cons.mp hx with rfl | hx
    · exact .inl rfl
    · exact .inr (List.mem_filter.mp hx).1
  have hremove : ∀ {key : String}, e ∈ (s.redis.remove key).entries → e ∈ s.redis.entries :=
    fun hx => (List.mem_filter.mp hx).1
  have hold : e ∈ s.redis.entries →
      (∃ e' ∈ s.redis.entries, e'.value = .payload p) ∨ presented q = some p :=
    fun h => .inl ⟨e, h, hp⟩
  -- Only `SET EX` puts a payload that was not there; `EXPIRE` keeps the value of its entry.
  cases q with
  | sql x =>
    have hredis : (handle w (.sql x) s).2.redis = s.redis := by
      simp only [handle, State.afterSql]
      split <;> rfl
    rw [hredis] at he
    exact hold he
  | redis c =>
    change e ∈ (c.exec s.now s.redis).2.entries at he
    cases c with
    | connect =>
      simp only [RedisCommand.exec] at he
      split at he <;> exact hold he
    | setEx key payload ttlSecs =>
      simp only [RedisCommand.exec] at he
      split at he
      · exact hold he
      · split at he
        · rcases hput he with rfl | he
          · cases hp
            exact .inr rfl
          · exact hold he
        · exact hold he
    | sadd key member =>
      simp only [RedisCommand.exec] at he
      split at he
      · exact hold he
      · split at he
        · rcases hput he with rfl | he
          · cases hp
          · exact hold he
        · rcases hput he with rfl | he
          · cases hp
          · exact hold he
        · exact hold he
    | expire key secs =>
      simp only [RedisCommand.exec] at he
      split at he
      · exact hold he
      · split at he
        · exact hold he
        · split at he
          · exact hold he
          · rename_i x hx
            split at he
            · exact hold (hremove he)
            · rcases hput he with rfl | he
              · exact .inl ⟨x, (Redis.entry_eq_some s.redis s.now hx).1, hp⟩
              · exact hold he
    | get key =>
      simp only [RedisCommand.exec] at he
      repeat' split at he
      all_goals exact hold he
    | del key =>
      simp only [RedisCommand.exec] at he
      split at he
      · exact hold he
      · exact hold (hremove he)
    | smembers key =>
      simp only [RedisCommand.exec] at he
      repeat' split at he
      all_goals exact hold he
  | _ => exact hold he

/-- **A session is stored as a request presents it.** -/
theorem handle_stores {p : SessionPayload} (h : (handle w q s).2.Stores p) :
    s.Stores p ∨ presented q = some p := by
  cases h with
  | row hr hp =>
    rcases handle_sessionRow hr with ⟨r', hr', hpayload⟩ | hpresented
    · exact .inl (.row hr' (hpayload.trans hp))
    · exact .inr (hpresented p hp)
  | entry he hp =>
    rcases handle_redisEntry he hp with ⟨e', he', hp'⟩ | hpresented
    · exact .inl (.entry he' hp')
    · exact .inr hpresented

/-- A challenge keeps its membership when an attempt is counted. -/
theorem challenge_of_attempts {t : Table ChallengeRow.token} {chosen : ChallengeRow → Bool}
    {r : ChallengeRow} {userId : Uuid}
    (hr : r ∈ t.update chosen ChallengeRow.withAttempt ChallengeRow.withAttempt_token)
    (hid : r.userId = userId) : ∃ r' ∈ t, r'.userId = userId := by
  obtain ⟨r', hr', rfl⟩ := Table.mem_update.mp hr
  refine ⟨r', hr', ?_⟩
  rw [← hid]
  split <;> rfl

/-- **A login waits as a request has it wait.** -/
theorem handle_pending {userId : Uuid} (h : (handle w q s).2.Pending userId) :
    s.Pending userId ∨ ∃ k tenantId, issued q = some (k, tenantId, userId) := by
  rcases handle_db (w := w) (s := s) q with hdb | ⟨x, n, rfl, hx⟩
  · cases h with
    | challenge hr hid => exact .inl (.challenge (hdb ▸ hr) hid)
    | change hr hid => exact .inl (.change (hdb ▸ hr) hid)
  · cases h with
    | challenge hr hid =>
      -- Without a statement on the table its rows are the old ones.
      by_cases hother : ∀ y, x ≠ .challenges y
      · rw [(Sql.exec_frame hx).mfaChallenges hother] at hr
        exact .inl (.challenge hr hid)
      · obtain ⟨y, hy⟩ := not_forall_not.mp hother
        subst hy
        cases y with
        | insert =>
          obtain ⟨_, _, t, -, -, htable, hdb⟩ := insertChallenge_ok hx
          rw [hdb] at hr
          rcases (Table.mem_insert? htable).mp hr with rfl | hold
          · exact .inr ⟨.challenge, _, by rw [← hid]; rfl⟩
          · exact .inl (.challenge hold hid)
        | get => exact .inl (.challenge hr hid)
        | deleteExpired => exact .inl (.challenge (Table.mem_delete.mp hr).1 hid)
        | delete => exact .inl (.challenge (Table.mem_delete.mp hr).1 hid)
        | incrementAttempts token =>
          have hrow : ∃ r' ∈ s.db.mfaChallenges, r'.userId = userId := by
            simp only [Sql.exec, ChallengeStmt.exec] at hx
            split at hx
            · cases hx
            · obtain ⟨-, hdb⟩ := Prod.mk.inj (Except.ok.inj hx)
              rw [← hdb] at hr
              exact challenge_of_attempts hr hid
          obtain ⟨r', hr', hid'⟩ := hrow
          exact .inl (.challenge hr' hid')
    | change hr hid =>
      -- Without a statement on the table its rows are the old ones.
      by_cases hother : ∀ y, x ≠ .tokens y
      · rw [(Sql.exec_frame hx).forceChangeTokens hother] at hr
        exact .inl (.change hr hid)
      · obtain ⟨y, hy⟩ := not_forall_not.mp hother
        subst hy
        cases y with
        | createForceChangeToken =>
          obtain ⟨_, _, t, -, -, htable, hdb⟩ := insertForceChangeToken_ok hx
          rw [hdb] at hr
          rcases (Table.mem_insert? htable).mp hr with rfl | hold
          · exact .inr ⟨.changeToken, _, by rw [← hid]; rfl⟩
          · exact .inl (.change hold hid)
        | deleteForceChangeToken => exact .inl (.change (Table.mem_delete.mp hr).1 hid)
        | deleteForceChangeTokensFor => exact .inl (.change (Table.mem_delete.mp hr).1 hid)
        | createIdentityToken =>
          obtain ⟨t, -, hdb⟩ := bind_eq_ok.mp hx
          rw [← (Prod.mk.inj (Except.ok.inj hdb)).2] at hr
          exact .inl (.change hr hid)
        | createResetToken =>
          obtain ⟨t, -, hdb⟩ := bind_eq_ok.mp hx
          rw [← (Prod.mk.inj (Except.ok.inj hdb)).2] at hr
          exact .inl (.change hr hid)
        | createInvite =>
          rw [insertInvite_ok hx] at hr
          exact .inl (.change hr hid)
        | _ => exact .inl (.change hr hid)

/-- **An identity has the identity tokens that requests store for it.** -/
theorem handle_hasToken {id : Uuid} (h : (handle w q s).2.HasToken id) :
    s.HasToken id ∨ tokenFor q = some id := by
  obtain ⟨r, hr, hid⟩ := h
  rcases handle_db (w := w) (s := s) q with hdb | ⟨x, n, rfl, hx⟩
  · exact .inl ⟨r, hdb ▸ hr, hid⟩
  · by_cases hother : ∀ y, x ≠ .tokens y
    · rw [Sql.exec_identityTokens hx hother] at hr
      exact .inl ⟨r, hr, hid⟩
    · obtain ⟨y, hy⟩ := not_forall_not.mp hother
      subst hy
      cases y with
      | createIdentityToken identityId token expiresAt =>
        obtain ⟨t, hins, hdb⟩ := bind_eq_ok.mp hx
        rw [← (Prod.mk.inj (Except.ok.inj hdb)).2] at hr
        unfold insertIdentityToken at hins
        obtain ⟨token', -, hins⟩ := bind_eq_ok.mp hins
        split at hins
        · cases hins
        · rename_i t' htable
          split at hins
          · cases hins
          · cases hins
            rcases (Table.mem_insert? htable).mp hr with rfl | hold
            · exact .inr (congrArg some hid)
            · exact .inl ⟨r, hold, hid⟩
      | deleteIdentityToken => exact .inl ⟨r, (Table.mem_delete.mp hr).1, hid⟩
      | createForceChangeToken =>
        obtain ⟨_, _, t, -, -, -, hdb⟩ := insertForceChangeToken_ok hx
        rw [hdb] at hr
        exact .inl ⟨r, hr, hid⟩
      | createResetToken =>
        obtain ⟨t, -, hdb⟩ := bind_eq_ok.mp hx
        rw [← (Prod.mk.inj (Except.ok.inj hdb)).2] at hr
        exact .inl ⟨r, hr, hid⟩
      | createInvite =>
        rw [insertInvite_ok hx] at hr
        exact .inl ⟨r, hr, hid⟩
      | _ => exact .inl ⟨r, hr, hid⟩

/-- A change of memberships leaves their identities. -/
theorem member_of_update {t : Table MembershipRow.id} {p : MembershipRow → Bool}
    {f : MembershipRow → MembershipRow} (hf : ∀ r, (f r).id = r.id) {u : MembershipRow}
    {userId id : Uuid} (hidentity : ∀ r, (f r).identityId = r.identityId) (hu : u ∈ t)
    (huser : u.id = userId) (hid : u.identityId = id) :
    ∃ u' ∈ t.update p f hf, u'.id = userId ∧ u'.identityId = id := by
  refine ⟨_, Table.mem_update.mpr ⟨u, hu, rfl⟩, ?_⟩
  split
  · exact ⟨(hf u).trans huser, (hidentity u).trans hid⟩
  · exact ⟨huser, hid⟩

/-- **A membership stays one of its identity.** -/
theorem handle_member {userId id : Uuid} (q : Request) (h : s.Member userId id) :
    (handle w q s).2.Member userId id := by
  obtain ⟨u, hu, hid, hidentity⟩ := h
  rcases handle_db (w := w) (s := s) q with hdb | ⟨x, n, rfl, hx⟩
  · exact ⟨u, hdb ▸ hu, hid, hidentity⟩
  · by_cases hother : ∀ y, x ≠ .users y
    · have husers := (Sql.exec_frame hx).users hother
      exact ⟨u, husers ▸ hu, hid, hidentity⟩
    · obtain ⟨y, hy⟩ := not_forall_not.mp hother
      subst hy
      cases y with
      | create =>
        obtain ⟨_, t, -, -, -, -, htable, hdb⟩ := insertMembership_ok hx
        refine ⟨u, ?_, hid, hidentity⟩
        rw [hdb]
        exact (Table.mem_insert? htable).mpr (.inr hu)
      | setAccessValidUntil =>
        exact member_of_update (fun u => u.withAccessValidUntil_id _ _) (fun _ => rfl) hu hid hidentity
      | archive => exact member_of_update (fun u => u.archived_id _) (fun _ => rfl) hu hid hidentity
      | _ => exact ⟨u, hu, hid, hidentity⟩

/-! ### Replies -/

/-- A membership that a lookup finds is one of its identity. -/
theorem State.member_of_find {f : User → Bool} {u : User} (h : s.db.memberships.find? f = some u) :
    s.Member u.id u.identityId := by
  obtain ⟨row, hrow, i, -, rfl⟩ := Db.mem_memberships.mp (List.mem_of_find?_eq_some h)
  exact ⟨row, hrow, rfl, rfl⟩

/-- **A membership that a statement makes known is one of its identity.** -/
theorem handle_membershipOf {m : MembershipRow}
    (h : membershipOf ⟨q, (handle w q s).1⟩ = some m) :
    (handle w q s).2.Member m.id m.identityId := by
  have hfound : ∀ {f : User → Bool}, (s.db.memberships.find? f).map User.toRow = some m →
      s.Member m.id m.identityId := by
    intro f hf
    obtain ⟨u, hu, rfl⟩ := Option.map_eq_some_iff.mp hf
    exact State.member_of_find hu
  -- A membership is in the reply of a look-up or of the insert; in both cases its row is there.
  cases q with
  | sql x =>
    cases x with
    | users y =>
      cases y with
      | create id tenantId identityId username now =>
        cases hins : insertMembership s.db id tenantId identityId username now with
        | error e =>
          simp only [handle, Sql.exec, MembershipStmt.exec, hins] at h
          cases h
        | ok res =>
          obtain ⟨row, t, hid, hidentity, -, -, htable, hdb⟩ := insertMembership_ok hins
          simp only [handle, Sql.exec, MembershipStmt.exec, hins] at h ⊢
          cases h
          refine ⟨row, ?_, hid, hidentity⟩
          show row ∈ res.2.users
          rw [hdb]
          exact (Table.mem_insert? htable).mpr (.inl rfl)
      | getById tenantId userId =>
        have hrow : ∀ o, membershipOf (did (.users (.getById tenantId userId)) o) =
          o.map User.toRow := fun o => by cases o <;> rfl
        exact hfound ((hrow _).symm.trans h)
      | getMembership identityId tenantId =>
        have hrow : ∀ o, membershipOf (did (.users (.getMembership identityId tenantId)) o) =
          o.map User.toRow := fun o => by cases o <;> rfl
        exact hfound ((hrow _).symm.trans h)
      | getByEmail tenantId email =>
        have hrow : ∀ o, membershipOf (did (.users (.getByEmail tenantId email)) o) =
          o.map User.toRow := fun o => by cases o <;> rfl
        exact hfound ((hrow _).symm.trans h)
      | getByEmailInsensitive tenantId email =>
        have hrow : ∀ o, membershipOf (did (.users (.getByEmailInsensitive tenantId email)) o) =
          o.map User.toRow := fun o => by cases o <;> rfl
        exact hfound ((hrow _).symm.trans h)
      | getByUsername tenantId username =>
        have hrow : ∀ o, membershipOf (did (.users (.getByUsername tenantId username)) o) =
          o.map User.toRow := fun o => by cases o <;> rfl
        exact hfound ((hrow _).symm.trans h)
      | _ => cases h
    | _ => cases h
  | _ => cases h

/-- A lookup of a membership by its id finds that one. -/
theorem handle_getUserById {tenantId : String} {userId : Uuid} {u : User}
    (h : (.ok (some u) : Reply (.sql (.users (.getById tenantId userId)))) =
      (handle w (.sql (.users (.getById tenantId userId))) s).1) : u.id = userId := by
  have hfind := List.find?_some (Except.ok.inj h).symm
  simp only [Bool.and_eq_true, decide_eq_true_eq] at hfind
  exact hfind.2

/-- A lookup of a membership by its identity finds one of it. -/
theorem handle_getMembership {identityId : Uuid} {tenantId : String} {u : User}
    (h : (.ok (some u) : Reply (.sql (.users (.getMembership identityId tenantId)))) =
      (handle w (.sql (.users (.getMembership identityId tenantId))) s).1) :
    u.identityId = identityId := by
  have hfind := List.find?_some (Except.ok.inj h).symm
  simp only [Bool.and_eq_true, decide_eq_true_eq] at hfind
  exact hfind.1

/-- A lookup of an identity by its id finds that one. -/
theorem handle_getIdentityById {id : Uuid} {i : Identity}
    (h : (.ok (some i) : Reply (.sql (.identities (.getById id)))) =
      (handle w (.sql (.identities (.getById id))) s).1) : i.id = id := by
  obtain ⟨r, hr, rfl⟩ := Option.map_eq_some_iff.mp (Except.ok.inj h).symm
  exact (Table.selectOne_key.mp hr).2

/-- A challenge that is read is one of a login that waits. -/
theorem handle_getChallenge {token : String} {c : MfaChallenge}
    (h : (.ok (some c) : Reply (.sql (.challenges (.get token)))) =
      (handle w (.sql (.challenges (.get token))) s).1) : s.Pending c.userId := by
  obtain ⟨r, hr, rfl⟩ := Option.map_eq_some_iff.mp (Except.ok.inj h).symm
  exact .challenge (Table.selectOne_mem hr) rfl

/-- A change token that is read is one of a login that waits. -/
theorem handle_getForceChangeToken {token tenantId : String} {userId : Uuid}
    (h : (.ok (some (tenantId, userId)) : Reply (.sql (.tokens (.getForceChangeToken token)))) =
      (handle w (.sql (.tokens (.getForceChangeToken token))) s).1) : s.Pending userId := by
  obtain ⟨r, hr, hrow⟩ := Option.map_eq_some_iff.mp (Except.ok.inj h).symm
  exact .change (Table.selectOne_mem hr) (Prod.mk.inj hrow).2

/-- An identity token that is read is stored. -/
theorem handle_getIdentityToken {token : String} {id : Uuid}
    (h : (.ok (some id) : Reply (.sql (.tokens (.getIdentityToken token)))) =
      (handle w (.sql (.tokens (.getIdentityToken token))) s).1) : s.HasToken id := by
  obtain ⟨r, hr, hrow⟩ := Option.map_eq_some_iff.mp (Except.ok.inj h).symm
  exact ⟨r, Table.selectOne_mem hr, hrow⟩

/-- A session that is read is stored. -/
theorem handle_getSession {sessionToken : String} {p : SessionPayload}
    (h : (.ok (some (some p)) : Reply (.sql (.sessions (.get sessionToken)))) =
      (handle w (.sql (.sessions (.get sessionToken))) s).1) : s.Stores p := by
  obtain ⟨r, hr, hrow⟩ := Option.map_eq_some_iff.mp (Except.ok.inj h).symm
  exact .row (Table.selectOne_mem hr) hrow

/-- So is one that is read from Redis. -/
theorem handle_getRedis {key : String} {p : SessionPayload}
    (h : (.ok (some p) : Reply (.redis (.get key))) = (handle w (.redis (.get key)) s).1) :
    s.Stores p := by
  change Except.ok (some p) = (RedisCommand.exec s.now s.redis (.get key)).1 at h
  simp only [RedisCommand.exec] at h
  split at h
  · cases h
  · split at h
    · cases h
    · rename_i hentry
      cases h
      exact .entry (Redis.entry_eq_some s.redis s.now hentry).1 rfl
    · cases h

end Tables

/-! ### Runs -/

/-- What goes on besides the calls: it hands out no credentials, and leaves memberships with their
identities. -/
structure Bystander where
  act : State → State
  stores : ∀ s p, (act s).Stores p → s.Stores p
  pending : ∀ s userId, (act s).Pending userId → s.Pending userId
  token : ∀ s id, (act s).HasToken id → s.HasToken id
  member : ∀ s userId id, s.Member userId id → (act s).Member userId id

section Runs

variable {ι : Type} [DecidableEq ι]

/-- **Somebody has checked a first factor of the identity**, in the run so far, or has had a credential
of it from the start. -/
inductive Rooted (w : World) (s : State) (call : ι → SignInCall) (log : List (Move authrs ι State))
    (id : Uuid) : Prop
  | start : HasCredential s id → Rooted w s call log id
  | factor {i : ι} : Factor w (own i log) (call i) id → Rooted w s call log id

variable {w : World} {s s' : State} {call : ι → SignInCall} {log : List (Move authrs ι State)}
  {id : Uuid}

/-- What a call has seen, it has seen. -/
theorem own_subset_cons (i : ι) (m : Move authrs ι State) (log : List (Move authrs ι State)) :
    own i log ⊆ own i (m :: log) := by
  intro e he
  obtain ⟨x, hx, hwho, hevent⟩ := mem_own.mp he
  exact mem_own.mpr ⟨x, List.mem_cons_of_mem m hx, hwho, hevent⟩

theorem Rooted.cons (h : Rooted w s call log id) (m : Move authrs ι State) :
    Rooted w s call (m :: log) id := by
  cases h with
  | start hs => exact .start hs
  | factor hf => exact .factor (hf.mono (own_subset_cons _ m log))

/-- **What is known of a state**: its waiting logins are those of memberships, and every credential it
holds has a root. -/
structure Founded (w : World) (s : State) (call : ι → SignInCall) (log : List (Move authrs ι State))
    (s' : State) : Prop where
  refers : s'.Refers
  rooted : ∀ id, HasCredential s' id → Rooted w s call log id

/-- **The invariant**: the present state and the recorded ones are founded, the replies are those of the
requests, and memberships have stayed those of their identities. -/
structure Accounted (w : World) (s : State) (call : ι → SignInCall) (s' : State)
    (log : List (Move authrs ι State)) : Prop where
  founded : Founded w s call log s'
  past : ∀ x ∈ log, Founded w s call log x.before
  replied : ∀ x ∈ log, x.event.reply = (handle w x.event.request x.before).1
  stays : ∀ x ∈ log, ∀ userId id, x.before.Member userId id → s'.Member userId id
  known : ∀ x ∈ log, ∀ m, membershipOf x.event = some m → s'.Member m.id m.identityId

/-- An exchange of a call is a move that was replied to in its state. -/
theorem Accounted.move_of_own (h : Accounted w s call s' log) {i : ι} {q : Request} {r : Reply q}
    (he : (⟨q, r⟩ : Event authrs) ∈ own i log) :
    ∃ x ∈ log, x.event = ⟨q, r⟩ ∧ r = (handle w q x.before).1 := by
  obtain ⟨x, hx, -, hevent⟩ := mem_own.mp he
  have hreply := h.replied x hx
  obtain ⟨who, event, before⟩ := x
  obtain rfl := hevent
  exact ⟨_, hx, rfl, hreply⟩

/-- A membership that a call takes for one of an identity is one. -/
theorem Accounted.belongs (h : Accounted w s call s' log) {i : ι} {user : User}
    (hb : Belongs (own i log) user id) : user.identityId = id := by
  induction hb with
  | own => rfl
  | found hread =>
    obtain ⟨x, -, -, hreply⟩ := h.move_of_own hread
    exact handle_getMembership hreply
  | loaded hread _ ih =>
    obtain ⟨x, -, -, hreply⟩ := h.move_of_own hread
    exact ih.trans (handle_getIdentityById hreply)

/-- A membership that a call knows is one of its identity. -/
theorem Accounted.member (h : Accounted w s call s' log) {i : ι} {m : MembershipRow}
    (hm : m ∈ (own i log).filterMap membershipOf) : s'.Member m.id m.identityId := by
  obtain ⟨e, he, hrow⟩ := List.mem_filterMap.mp hm
  obtain ⟨x, hx, -, rfl⟩ := mem_own.mp he
  exact h.known x hx m hrow

/-- The identity of a login that was waiting when a call looked, is the one of the membership that the
call has found then. -/
theorem Accounted.rooted_pending (h : Accounted w s call s' log) {i : ι} {x : Move authrs ι State}
    {tenantId : String} {userId : Uuid} {user : User} (hx : x ∈ log) (hp : x.before.Pending userId)
    (hu : did (.users (.getById tenantId userId)) (some user) ∈ own i log) :
    Rooted w s call log user.identityId := by
  obtain ⟨id, hmember⟩ := (h.past x hx).refers userId hp
  obtain ⟨y, -, -, hreply⟩ := h.move_of_own hu
  have hfound : s'.Member user.id user.identityId :=
    h.member (i := i) (List.mem_filterMap.mpr ⟨_, hu, rfl⟩)
  rw [handle_getUserById hreply] at hfound
  rw [hfound.unique (h.stays x hx userId id hmember)]
  exact (h.past x hx).rooted id (.pending hp hmember)

/-- **A ground has a root.** -/
theorem Accounted.rooted_of_shown (h : Accounted w s call s' log) {i : ι}
    (hs : Shown w (own i log) (call i) id) : Rooted w s call log id := by
  cases hs with
  | factor hf => exact .factor hf
  | credential hp =>
    generalize call i = c at hp
    cases hp with
    | challenge hc hu =>
      obtain ⟨x, hx, -, hreply⟩ := h.move_of_own hc
      exact h.rooted_pending hx (handle_getChallenge hreply) hu
    | changeToken ht hu =>
      obtain ⟨x, hx, -, hreply⟩ := h.move_of_own ht
      exact h.rooted_pending hx (handle_getForceChangeToken hreply) hu
    | identityToken ht =>
      obtain ⟨x, hx, -, hreply⟩ := h.move_of_own ht
      exact (h.past x hx).rooted _ (.token (handle_getIdentityToken hreply))
    | session hget =>
      obtain ⟨x, hx, -, hreply⟩ := h.move_of_own hget
      exact (h.past x hx).rooted _ (.session (handle_getSession hreply))
    | redisSession hget =>
      obtain ⟨x, hx, -, hreply⟩ := h.move_of_own hget
      exact (h.past x hx).rooted _ (.session (handle_getRedis hreply))

/-- A state whose credentials were there, or are handed out for an identity with a root, is founded. -/
theorem Founded.next (h : Founded w s call log s') {s'' : State}
    (hmember : ∀ userId id, s'.Member userId id → s''.Member userId id)
    (hstores : ∀ p, s''.Stores p → s'.Stores p ∨ Rooted w s call log p.identityId)
    (hpending : ∀ userId, s''.Pending userId → s'.Pending userId ∨
      ∃ id, s''.Member userId id ∧ Rooted w s call log id)
    (htoken : ∀ id, s''.HasToken id → s'.HasToken id ∨ Rooted w s call log id) :
    Founded w s call log s'' where
  refers userId hp := by
    rcases hpending userId hp with hold | ⟨id, hid, -⟩
    · obtain ⟨id, hid⟩ := h.refers userId hold
      exact ⟨id, hmember userId id hid⟩
    · exact ⟨id, hid⟩
  rooted id hid := by
    cases hid with
    | session hp =>
      rcases hstores _ hp with hold | hroot
      · exact h.rooted _ (.session hold)
      · exact hroot
    | pending hp hm =>
      rcases hpending _ hp with hold | ⟨id', hid', hroot⟩
      · -- The membership was there when the login began to wait.
        obtain ⟨id', hid'⟩ := h.refers _ hold
        rw [hm.unique (hmember _ _ hid')]
        exact h.rooted id' (.pending hold hid')
      · rw [hm.unique hid']
        exact hroot
    | token ht =>
      rcases htoken _ ht with hold | hroot
      · exact h.rooted _ (.token hold)
      · exact hroot

theorem Founded.cons (h : Founded w s call log s') (m : Move authrs ι State) :
    Founded w s call (m :: log) s' := ⟨h.refers, fun id hid => (h.rooted id hid).cons m⟩

/-- **Every exchange of a call keeps the invariant.** -/
theorem Accounted.move (h : Accounted w s call s' log) {i : ι} {q : Request}
    (hstep : SignInStep w (call i) (own i log) ⟨q, (handle w q s').1⟩) :
    Accounted w s call (handle w q s').2 (⟨i, ⟨q, (handle w q s').1⟩, s'⟩ :: log) := by
  -- What the request issues is for an identity with a root.
  have hissue : ∀ k tenantId userId, issued q = some (k, tenantId, userId) →
      ∃ user : User, user.id = userId ∧ (handle w q s').2.Member userId user.identityId ∧
        Rooted w s call log user.identityId ∧
        ∀ p, presented q = some p → p.identityId = user.identityId := by
    intro k tenantId userId hi
    obtain ⟨user, id, rfl, huser, hbelongs, hshown, hpayload⟩ := hstep.issue k tenantId userId hi
    obtain rfl := h.belongs hbelongs
    exact ⟨user, rfl, handle_member q (h.member huser), h.rooted_of_shown hshown, hpayload⟩
  have hfounded : Founded w s call log (handle w q s').2 := by
    refine h.founded.next (fun userId id => handle_member q) ?_ ?_ ?_
    · intro p hp
      rcases handle_stores hp with hold | hpresented
      · exact .inl hold
      · obtain ⟨tenantId, userId, hi⟩ := issued_of_presented hpresented
        obtain ⟨user, -, -, hroot, hpayload⟩ := hissue _ _ _ hi
        rw [hpayload p hpresented]
        exact .inr hroot
    · intro userId hp
      rcases handle_pending hp with hold | ⟨k, tenantId, hi⟩
      · exact .inl hold
      · obtain ⟨user, -, hmember, hroot, -⟩ := hissue _ _ _ hi
        exact .inr ⟨_, hmember, hroot⟩
    · intro id ht
      rcases handle_hasToken ht with hold | hfor
      · exact .inl hold
      · exact .inr (h.rooted_of_shown (hstep.token id hfor))
  refine ⟨hfounded.cons _, ?_, ?_, ?_, ?_⟩
  · intro x hx
    rcases List.mem_cons.mp hx with rfl | hx
    · exact h.founded.cons _
    · exact (h.past x hx).cons _
  · intro x hx
    rcases List.mem_cons.mp hx with rfl | hx
    · rfl
    · exact h.replied x hx
  · intro x hx userId id hmember
    rcases List.mem_cons.mp hx with rfl | hx
    · exact handle_member q hmember
    · exact handle_member q (h.stays x hx userId id hmember)
  · intro x hx m hm
    rcases List.mem_cons.mp hx with rfl | hx
    · exact handle_membershipOf hm
    · exact handle_member q (h.known x hx m hm)

/-- What goes on besides keeps it as well. -/
theorem Accounted.besides (h : Accounted w s call s' log) (t : Bystander) :
    Accounted w s call (t.act s') log where
  founded := h.founded.next (t.member s') (fun p hp => .inl (t.stores s' p hp))
    (fun userId hp => .inl (t.pending s' userId hp)) fun id ht => .inl (t.token s' id ht)
  past := h.past
  replied := h.replied
  stays x hx userId id hmember := t.member _ _ _ (h.stays x hx userId id hmember)
  known x hx m hm := t.member _ _ _ (h.known x hx m hm)

/-- **No credential without a first factor**: in every run, whatever the state holds of an identity goes
back to a first factor of it that some call has checked, or to a credential of it at the start. -/
theorem run_hasCredential_rooted (hrefers : s.Refers) (l : List (ι ⊕ Bystander)) (id : Uuid)
    (hid : HasCredential
      ((Config.start s fun i => (call i).run w).run (handle w) Bystander.act l).state id) :
    Rooted w s call ((Config.start s fun i => (call i).run w).run (handle w) Bystander.act l).log id := by
  have hstart : Accounted w s call s [] :=
    ⟨⟨hrefers, fun id hid => .start hid⟩, by simp, by simp, by simp, by simp⟩
  refine (Config.run_invariant (C := fun i => (call i).contract w) (Q := fun _ _ _ => True)
    (J := fun s' log => Accounted w s call s' log) (fun i => (call i).run_shown w)
    (fun _ _ _ => trivial) hstart ?_ ?_ l).founded.rooted id hid
  · intro s' log i q h hstep
    exact h.move hstep
  · intro s' log t h
    exact h.besides t

end Runs

/-! ### A session in two tenants -/

/-- A member of two tenants, with a password and no credential yet. -/
def annOfBoth : State :=
  .ofDb { Db.empty with
    tenants := acmeAndGlobex
    identities := .single (IdentityRow.ofHandles ⟨0, id, fun _ => 7⟩ (some "ann@acme.example") none
      none none none (some ":correct horse"))
    users := ⟨[⟨3, "acme", 7, none, "active", none, 0, 0⟩,
      ⟨4, "globex", 7, none, "active", none, 0, 0⟩], by decide⟩ } 0

theorem annOfBoth_pending {userId : Uuid} : ¬ annOfBoth.Pending userId := by
  rintro (⟨hr, -⟩ | ⟨hr, -⟩) <;> cases hr

theorem annOfBoth_not_hasCredential {id : Uuid} : ¬ HasCredential annOfBoth id := by
  intro h
  cases h with
  | session hp => rcases hp with ⟨hr, -⟩ | ⟨he, -⟩ <;> contradiction
  | pending hp hm => exact annOfBoth_pending hp
  | token ht =>
    obtain ⟨r, hr, -⟩ := ht
    cases hr

/-- She logs in, takes the identity token to one tenant, and that session to the other. -/
def crossing : ℕ → SignInCall
  | 0 => .identityLogin "ann@acme.example" "correct horse"
  | 1 => .selectTenant (some "Bearer x") "acme"
  | _ => .switchTenant (some "Bearer xx") "globex"

/-- One call after the other. -/
def crossingSchedule : List (ℕ ⊕ Bystander) :=
  List.replicate 6 (Sum.inl 0) ++ List.replicate 15 (Sum.inl 1) ++ List.replicate 15 (Sum.inl 2)

/-- The two sessions go back to the password. -/
theorem run_hasCredential_rooted_crossing :
    Rooted .offline annOfBoth crossing
        ((Config.start annOfBoth fun i => (crossing i).run .offline).run (handle .offline) Bystander.act
          crossingSchedule).log 7 ∧
      ¬ HasCredential annOfBoth 7 := by
  refine ⟨run_hasCredential_rooted (fun _ h => absurd h annOfBoth_pending) crossingSchedule 7 ?_,
    annOfBoth_not_hasCredential⟩
  have hrow : ∃ r ∈ ((Config.start annOfBoth fun i => (crossing i).run .offline).run (handle .offline)
      Bystander.act crossingSchedule).state.db.sessions.rows,
      r.tenantId = "globex" ∧ r.payload.map (·.identityId) = some 7 := by
    decide +kernel
  obtain ⟨r, hr, -, hpayload⟩ := hrow
  obtain ⟨p, hp, hid⟩ := Option.map_eq_some_iff.mp hpayload
  rw [← hid]
  exact .session (.row hr hp)

end Authrs
