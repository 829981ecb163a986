import Authrs.Routes.Session
import Authrs.Sessions.Stores

/-!
# Logging out everywhere

Logging out of a tenant deletes what is filed under the tenant of the header and the user of the
session; the header need not name the session's tenant. A global logout does so for every membership
of the identity that is not archived, while archiving a membership leaves its sessions alone.

## Main definitions

* `Removed w T U s s'`: the sessions filed under a membership are gone, and no other
* `LogoutAllRevokes`: a logout ends the sessions of the caller's tenant and user, and no other
* `GlobalLogoutReaches`: a global logout ends the sessions of every membership of the identity

## Main results

* `removed_endSessions`: ending the sessions of a membership, in either store
* `logoutAllRevokes_iff_filed`, `globalLogoutReaches_iff_filed`: the logouts that do what they should
* `logoutAllRevokes_iff_tenant`, `globalLogoutReaches_iff_open`: the same for a store of rows
* `globexHeader_keeps`, `archivedMembership_keeps`: two that do not
-/

namespace Authrs

open Interaction Relational

/-- **The sessions filed under a membership are gone**, and no other. -/
structure Removed (w : World) (tenantId : String) (userId : Uuid) (s s' : State) : Prop where
  returns : ∀ t p, Returns w s' t p ↔ Returns w s t p ∧ ¬ Filed w s tenantId userId t
  filed : ∀ tenantId' userId' t, Filed w s' tenantId' userId' t → Filed w s tenantId' userId' t
  kept : ∀ tenantId' userId' t, Filed w s tenantId' userId' t →
    Filed w s' tenantId' userId' t ∨ Filed w s tenantId userId t
  searchable : Searchable w s tenantId userId → ∀ tenantId' userId',
    (Searchable w s' tenantId' userId' ↔ Searchable w s tenantId' userId')

section Removed

variable {w : World} {s s₁ s₂ : State} {tenantId : String} {userId : Uuid}

/-- Removing twice removes once. -/
theorem Removed.trans (h₁ : Removed w tenantId userId s s₁)
    (h₂ : Removed w tenantId userId s₁ s₂) : Removed w tenantId userId s s₂ := by
  constructor
  · intro t p
    rw [h₂.returns, h₁.returns]
    constructor
    · rintro ⟨h, -⟩
      exact h
    · intro h
      exact ⟨h, fun hf => h.2 (h₁.filed _ _ _ hf)⟩
  · intro tenantId' userId' t h
    exact h₁.filed _ _ _ (h₂.filed _ _ _ h)
  · intro tenantId' userId' t h
    rcases h₁.kept _ _ _ h with h | h
    · rcases h₂.kept _ _ _ h with h | h
      · exact .inl h
      · exact .inr (h₁.filed _ _ _ h)
    · exact .inr h
  · intro h tenantId' userId'
    have hfirst := h₁.searchable h
    exact (h₂.searchable ((hfirst _ _).mpr h) _ _).trans (hfirst _ _)

/-- The state once the rows of a membership are revoked. -/
def State.withRevoked (s : State) (tenantId : String) (userId : Uuid) : State :=
  { s with
    db := { s.db with
      sessions :=
        s.db.sessions.update (fun r => r.tenantId = tenantId && r.userId = userId)
          SessionRow.asRevoked SessionRow.asRevoked_sessionToken } }

theorem mem_withRevoked {r : SessionRow} :
    r ∈ (s.withRevoked tenantId userId).db.sessions ↔
      (r ∈ s.db.sessions ∧ ¬ (r.tenantId = tenantId ∧ r.userId = userId)) ∨
        ∃ x ∈ s.db.sessions, x.tenantId = tenantId ∧ x.userId = userId ∧ x.asRevoked = r := by
  have hupdate : ∀ t : Table SessionRow.sessionToken, r ∈ t.update
      (fun r => r.tenantId = tenantId && r.userId = userId) SessionRow.asRevoked
        SessionRow.asRevoked_sessionToken ↔ _ := fun t => Table.mem_update
  refine (hupdate _).trans ?_
  constructor
  · rintro ⟨x, hx, h⟩
    by_cases hc : x.tenantId = tenantId ∧ x.userId = userId
    · rw [if_pos (by simpa using hc)] at h
      exact .inr ⟨x, hx, hc.1, hc.2, h⟩
    · rw [if_neg (by simpa using hc)] at h
      exact .inl ⟨h ▸ hx, h ▸ hc⟩
  · rintro (⟨hr, hc⟩ | ⟨x, hx, ht, hu, h⟩)
    · exact ⟨r, hr, if_neg (by simpa using hc)⟩
    · exact ⟨x, hx, by rwa [if_pos (by simp [ht, hu])]⟩

theorem exec_revokeAllForUser (w : World) (s : State) (tenantId : String) (userId : Uuid) :
    (PostgresSessionStore.revokeAllForUser tenantId userId).exec (handle w) s =
      (.ok (s.db.sessions.affected fun r => r.tenantId = tenantId && r.userId = userId),
        s.withRevoked tenantId userId) := rfl

/-- In Postgres, the revoked rows are the filed ones. -/
theorem removed_withRevoked (hw : w.sessionStore = .postgres) :
    Removed w tenantId userId s (s.withRevoked tenantId userId) := by
  have hfiled : ∀ tenantId' userId' t, Filed w (s.withRevoked tenantId userId) tenantId' userId' t ↔
      Filed w s tenantId' userId' t := by
    intro tenantId' userId' t
    rw [filed_postgres hw, filed_postgres hw]
    constructor
    · rintro ⟨r, hr, hkey, htenant, huser⟩
      rcases mem_withRevoked.mp hr with ⟨hr, -⟩ | ⟨x, hx, -, -, rfl⟩
      · exact ⟨r, hr, hkey, htenant, huser⟩
      · exact ⟨x, hx, hkey, htenant, huser⟩
    · rintro ⟨r, hr, hkey, htenant, huser⟩
      by_cases hc : r.tenantId = tenantId ∧ r.userId = userId
      · exact ⟨r.asRevoked, mem_withRevoked.mpr (.inr ⟨r, hr, hc.1, hc.2, rfl⟩), hkey, htenant, huser⟩
      · exact ⟨r, mem_withRevoked.mpr (.inl ⟨hr, hc⟩), hkey, htenant, huser⟩
  constructor
  · intro t p
    rw [returns_postgres hw, returns_postgres hw, filed_postgres hw]
    constructor
    · rintro ⟨r, hr, hkey, hrevoked, hlive, hpayload⟩
      rcases mem_withRevoked.mp hr with ⟨hr, hc⟩ | ⟨x, -, -, -, rfl⟩
      · refine ⟨⟨r, hr, hkey, hrevoked, hlive, hpayload⟩, ?_⟩
        rintro ⟨r', hr', hkey', hc'⟩
        obtain rfl : r' = r := Table.eq_of_key_eq hr' hr (hkey'.trans hkey.symm)
        exact hc hc'
      · cases hrevoked
    · rintro ⟨⟨r, hr, hkey, hrevoked, hlive, hpayload⟩, hnot⟩
      refine ⟨r, mem_withRevoked.mpr (.inl ⟨hr, fun hc => ?_⟩), hkey, hrevoked, hlive, hpayload⟩
      exact hnot ⟨r, hr, hkey, hc.1, hc.2⟩
  · intro tenantId' userId' t h
    exact (hfiled _ _ _).mp h
  · intro tenantId' userId' t h
    exact .inl ((hfiled _ _ _).mpr h)
  · intro _ tenantId' userId'
    unfold Searchable
    rw [hw]

/-- In Redis, clearing the index set of a membership removes what it lists. -/
theorem removed_cleared (hw : w.sessionStore = .redis) :
    Removed w tenantId userId s (s.withRedis (s.redis.cleared s.now tenantId userId)) := by
  constructor
  · intro t p
    rw [returns_redis hw, returns_redis hw, filed_redis hw]
    simp only [State.withRedis_redis, State.withRedis_now, Redis.reachable_cleared,
      Redis.session_cleared]
    by_cases hlisted : t ∈ s.redis.indexed s.now tenantId userId
    · simp [hlisted]
    · simp [hlisted]
  · intro tenantId' userId' t h
    rw [filed_redis hw] at h ⊢
    simp only [State.withRedis_redis, State.withRedis_now, Redis.indexed_cleared] at h
    split at h
    · cases h
    · exact h
  · intro tenantId' userId' t h
    rw [filed_redis hw] at h
    rw [filed_redis hw, filed_redis hw]
    simp only [State.withRedis_redis, State.withRedis_now, Redis.indexed_cleared]
    by_cases hsame : tenantId' = tenantId ∧ userId' = userId
    · obtain ⟨rfl, rfl⟩ := hsame
      exact .inr h
    · rw [if_neg hsame]
      exact .inl h
  · intro h tenantId' userId'
    unfold Searchable at h ⊢
    rw [hw] at h ⊢
    exact and_congr (by rw [State.withRedis_redis, Redis.reachable_cleared])
      (Redis.listable_cleared h.2)

/-- Redis does not look at the rows. -/
theorem Removed.rows (hw : w.sessionStore = .redis) (h : Removed w tenantId userId s s₁)
    (hredis : s₂.redis = s₁.redis) (hnow : s₂.now = s₁.now) :
    Removed w tenantId userId s s₂ := by
  have hreturns : ∀ t p, Returns w s₂ t p ↔ Returns w s₁ t p := by
    intro t p
    rw [returns_redis hw, returns_redis hw, hredis, hnow]
  have hfiled : ∀ tenantId' userId' t, Filed w s₂ tenantId' userId' t ↔
      Filed w s₁ tenantId' userId' t := by
    intro tenantId' userId' t
    rw [filed_redis hw, filed_redis hw, hredis, hnow]
  constructor
  · intro t p
    rw [hreturns, h.returns]
  · intro tenantId' userId' t hf
    exact h.filed _ _ _ ((hfiled _ _ _).mp hf)
  · intro tenantId' userId' t hf
    rw [hfiled]
    exact h.kept _ _ _ hf
  · intro hs tenantId' userId'
    have hsearch := h.searchable hs tenantId' userId'
    unfold Searchable at hsearch ⊢
    rw [hw] at hsearch ⊢
    rwa [hredis, hnow]

/-- **Ending the sessions of a membership** succeeds when they can be found, and removes what is
filed under it. -/
theorem exec_endSessions (w : World) (s : State) (tenantId : String) (userId : Uuid) :
    (Searchable w s tenantId userId →
      ∃ n s', (endSessions w tenantId userId).exec (handle w) s = (.ok n, s')) ∧
    ∀ n s', (endSessions w tenantId userId).exec (handle w) s = (.ok n, s') →
      Searchable w s tenantId userId ∧ Removed w tenantId userId s s' := by
  -- The audit table is revoked in any case, and has no say in the outcome.
  have haudit : ∀ s : State, ((PostgresSessionStore.revokeAllForUser tenantId userId).toExcept
      Failure.recoverable).exec (handle w) s =
        (.ok (.ok (s.db.sessions.affected fun r => r.tenantId = tenantId && r.userId = userId)),
          s.withRevoked tenantId userId) := by
    intro s
    rw [Program.exec_toExcept, exec_revokeAllForUser]
  have hrun : ∀ {n : Nat} {s' : State}, (endSessions w tenantId userId).exec (handle w) s = (.ok n, s') ↔
      ∃ s₁, (SessionStore.deleteAllForUser w tenantId userId).exec (handle w) s = (.ok n, s₁) ∧
        s₁.withRevoked tenantId userId = s' := by
    intro n s'
    unfold endSessions
    rw [Program.bind_eq, Program.exec_bind_eq_ok]
    constructor
    · rintro ⟨count, s₁, hdelete, hrest⟩
      rw [Program.bind_eq, Program.exec_bind, haudit] at hrest
      cases hrest
      exact ⟨s₁, hdelete, rfl⟩
    · rintro ⟨s₁, hdelete, rfl⟩
      refine ⟨n, s₁, hdelete, ?_⟩
      rw [Program.bind_eq, Program.exec_bind, haudit]
      rfl
  cases hw : w.sessionStore with
  | postgres =>
    have hdelete : (SessionStore.deleteAllForUser w tenantId userId).exec (handle w) s =
        (.ok (s.db.sessions.affected fun r => r.tenantId = tenantId && r.userId = userId),
          s.withRevoked tenantId userId) := by
      unfold SessionStore.deleteAllForUser
      rw [hw]
      exact exec_revokeAllForUser w s tenantId userId
    refine ⟨fun _ => ⟨_, _, hrun.mpr ⟨_, hdelete, rfl⟩⟩, ?_⟩
    intro n s' h
    obtain ⟨s₁, hs₁, rfl⟩ := hrun.mp h
    rw [hdelete] at hs₁
    obtain ⟨-, rfl⟩ := Prod.mk.inj hs₁
    refine ⟨?_, (removed_withRevoked hw).trans (removed_withRevoked hw)⟩
    unfold Searchable
    rw [hw]
    trivial
  | redis =>
    have hdelete : ∀ {n : Nat} {s₁ : State},
        (SessionStore.deleteAllForUser w tenantId userId).exec (handle w) s = (.ok n, s₁) ↔
          s.redis.reachable = true ∧ s.redis.listable s.now tenantId userId ∧
            (s.redis.indexed s.now tenantId userId).length = n ∧
              s.withRedis (s.redis.cleared s.now tenantId userId) = s₁ := by
      intro n s₁
      unfold SessionStore.deleteAllForUser
      rw [hw]
      exact RedisSessionStore.exec_deleteAllForUser
    have hsearch : Searchable w s tenantId userId ↔
        s.redis.reachable = true ∧ s.redis.listable s.now tenantId userId := by
      unfold Searchable
      rw [hw]
    constructor
    · intro h
      obtain ⟨hreach, hlist⟩ := hsearch.mp h
      exact ⟨_, _, hrun.mpr ⟨_, hdelete.mpr ⟨hreach, hlist, rfl, rfl⟩, rfl⟩⟩
    · intro n s' h
      obtain ⟨s₁, hs₁, rfl⟩ := hrun.mp h
      obtain ⟨hreach, hlist, -, rfl⟩ := hdelete.mp hs₁
      exact ⟨hsearch.mpr ⟨hreach, hlist⟩, (removed_cleared hw).rows hw rfl rfl⟩

/-- **Ending the sessions of several memberships** succeeds when each can be searched, and removes
what is filed under one of them. -/
theorem exec_endEach (w : World) (memberships : List User) (revoked : Nat) (s : State) :
    ((∀ m ∈ memberships, Searchable w s m.tenantId m.id) →
      ∃ n s', (endEach w revoked memberships).exec (handle w) s = (.ok n, s')) ∧
    ∀ n s', (endEach w revoked memberships).exec (handle w) s = (.ok n, s') →
      (∀ m ∈ memberships, Searchable w s m.tenantId m.id) ∧
      ∀ t p, Returns w s' t p ↔
        Returns w s t p ∧ ∀ m ∈ memberships, ¬ Filed w s m.tenantId m.id t := by
  induction memberships generalizing revoked s with
  | nil =>
    refine ⟨fun _ => ⟨_, _, rfl⟩, ?_⟩
    rintro n s' ⟨⟩
    simp
  | cons m memberships ih =>
    obtain ⟨hsucceeds, hspec⟩ := exec_endSessions w s m.tenantId m.id
    constructor
    · intro hsearch
      obtain ⟨count, s₁, hfirst⟩ := hsucceeds (hsearch m List.mem_cons_self)
      obtain ⟨hfound, hremoved⟩ := hspec count s₁ hfirst
      obtain ⟨n, s', hrest⟩ := (ih (revoked + count) s₁).1 fun m' hm' =>
        (hremoved.searchable hfound _ _).mpr (hsearch m' (List.mem_cons_of_mem _ hm'))
      exact ⟨n, s', (Program.exec_bind_eq_ok _).mpr ⟨count, s₁, hfirst, hrest⟩⟩
    · intro n s' h
      obtain ⟨count, s₁, hfirst, hrest⟩ := (Program.exec_bind_eq_ok _).mp h
      obtain ⟨hfound, hremoved⟩ := hspec count s₁ hfirst
      obtain ⟨hsearch, hreturns⟩ := (ih (revoked + count) s₁).2 n s' hrest
      refine ⟨List.forall_mem_cons.mpr ⟨hfound, fun m' hm' =>
        (hremoved.searchable hfound _ _).mp (hsearch m' hm')⟩, fun t p => ?_⟩
      rw [hreturns, hremoved.returns, List.forall_mem_cons]
      constructor
      · rintro ⟨⟨h, hm⟩, hms⟩
        refine ⟨h, hm, fun m' hm' hf => ?_⟩
        rcases hremoved.kept _ _ _ hf with hf | hf
        · exact hms m' hm' hf
        · exact hm hf
      · rintro ⟨h, hm, hms⟩
        exact ⟨⟨h, hm⟩, fun m' hm' hf => hms m' hm' (hremoved.filed _ _ _ hf)⟩

end Removed

/-! ### The session of the caller -/

section Caller

variable {w : World} {s s' : State} {token : String} {p : SessionPayload}

/-- Looking a session up changes nothing. -/
theorem exec_get_state (w : World) (s : State) (token : String) :
    ((SessionStore.get w token).exec (handle w) s).2 = s := by
  unfold SessionStore.get
  cases w.sessionStore with
  | postgres => rfl
  | redis =>
    unfold RedisSessionStore.get
    rw [Program.bind_eq, Program.exec_bind, exec_redis]
    by_cases hr : s.redis.reachable = true
    · simp only [RedisCommand.exec, hr, if_true, Except.mapError, State.withRedis_self]
      rw [exec_redis]
      simp only [RedisCommand.exec, hr, Bool.not_true, Bool.false_eq_true, if_false]
      rcases s.redis.entry s.now (RedisSessionStore.key token) with _ | ⟨k, v, x⟩
      · rfl
      · cases v <;> rfl
    · simp [RedisCommand.exec, hr, Except.mapError]

/-- The caller's session is the one that its token returns. -/
theorem exec_bearerSession_eq_ok :
    (bearerSession w (some ("Bearer " ++ token))).exec (handle w) s = (.ok p, s') ↔
      Returns w s token p ∧ s = s' := by
  unfold bearerSession bearerToken
  simp only [Program.bind_eq, Program.bind_assoc]
  rw [Program.exec_bind_ok _ (Service.exec_okOr_some w s _ _), dropStart_append,
    Program.exec_bind_ok _ (Service.exec_okOr_some w s _ _)]
  have hstate := exec_get_state w s token
  unfold Returns
  rw [Program.exec_bind]
  rcases hget : (SessionStore.get w token).exec (handle w) s with ⟨e | found, s₁⟩
  · simp
  · rw [hget] at hstate
    obtain rfl : s₁ = s := hstate
    simp only [Service.exec_okOr_eq_ok, Except.ok.injEq]

end Caller

/-! ### One tenant -/

/-- **A logout from everywhere** ends the sessions of the caller's tenant and user, and no other. -/
def LogoutAllRevokes (w : World) (s : State) (tenantId : TenantId) (token : String) : Prop :=
  ∀ p n s', Returns w s token p →
    (logoutAll w tenantId (some ("Bearer " ++ token))).exec (handle w) s = (.ok n, s') →
      (∀ p', ¬ Returns w s' token p') ∧
      ∀ token' p',
        (p'.tenantId = p.tenantId ∧ p'.userId = p.userId → ¬ Returns w s' token' p') ∧
        (¬ (p'.tenantId = p.tenantId ∧ p'.userId = p.userId) →
          (Returns w s' token' p' ↔ Returns w s token' p'))

section OneTenant

variable {w : World} {s : State} {tenantId : TenantId} {token : String}

/-- **The logouts that do so**: what is filed under the tenant of the header and the user of the
session are the live sessions of the session's tenant and user. -/
theorem logoutAllRevokes_iff_filed (w : World) (s : State) (tenantId : TenantId) (token : String) :
    LogoutAllRevokes w s tenantId token ↔
      ∀ p, Returns w s token p → Searchable w s tenantId.val p.userId →
        ∀ token' p', Returns w s token' p' →
          (Filed w s tenantId.val p.userId token' ↔
            p'.tenantId = p.tenantId ∧ p'.userId = p.userId) := by
  -- A valid token takes the call to the deletion.
  have hexec : ∀ {p n s'}, Returns w s token p →
      ((logoutAll w tenantId (some ("Bearer " ++ token))).exec (handle w) s = (.ok n, s') ↔
        (endSessions w tenantId.val p.userId).exec (handle w) s = (.ok n, s')) := by
    intro p n s' hp
    unfold logoutAll
    rw [Program.bind_eq, Program.exec_bind_ok _ (exec_bearerSession_eq_ok.mpr ⟨hp, rfl⟩)]
  constructor
  · intro hlogout p hp hsearch token' p' hp'
    obtain ⟨hsucceeds, hspec⟩ := exec_endSessions w s tenantId.val p.userId
    obtain ⟨n, s', hrun⟩ := hsucceeds hsearch
    obtain ⟨-, hremoved⟩ := hspec n s' hrun
    obtain ⟨-, hothers⟩ := hlogout p n s' hp ((hexec hp).mpr hrun)
    obtain ⟨hown, hother⟩ := hothers token' p'
    constructor
    · intro hf
      -- A session of somebody else that is filed here is removed as well.
      by_contra hne
      exact ((hremoved.returns _ _).mp ((hother hne).mpr hp')).2 hf
    · intro hsame
      by_contra hf
      exact hown hsame ((hremoved.returns _ _).mpr ⟨hp', hf⟩)
  · intro hfiled p n s' hp hrun
    obtain ⟨hsearch, hremoved⟩ :=
      (exec_endSessions w s tenantId.val p.userId).2 n s' ((hexec hp).mp hrun)
    have hiff := hfiled p hp hsearch
    have hown : ∀ token' p', p'.tenantId = p.tenantId ∧ p'.userId = p.userId →
        ¬ Returns w s' token' p' := by
      intro token' p' hsame hp'
      obtain ⟨hbefore, hf⟩ := (hremoved.returns _ _).mp hp'
      exact hf ((hiff token' p' hbefore).mpr hsame)
    refine ⟨fun p' hp' => ?_, fun token' p' => ⟨hown token' p', fun hne => ?_⟩⟩
    · -- The token still returns the caller's own session, or nothing.
      have hbefore := ((hremoved.returns _ _).mp hp').1
      obtain rfl : p' = p := by
        have heq := hbefore.symm.trans hp
        simpa using heq
      exact hown token p' ⟨rfl, rfl⟩ hp'
    · rw [hremoved.returns]
      constructor
      · rintro ⟨h, -⟩
        exact h
      · intro h
        exact ⟨h, fun hf => hne ((hiff token' p' h).mp hf)⟩

/-- The rows of the store name the tenant and the user of their payloads. -/
def RowsAgree (s : State) : Prop :=
  ∀ r ∈ s.db.sessions, ∀ p, r.payload = some p → p.tenantId = r.tenantId ∧ p.userId = r.userId

/-- In a store of such rows, a live session is filed under the membership of its payload. -/
theorem filed_iff_payload (hw : w.sessionStore = .postgres) (hrows : RowsAgree s) {t T : String}
    {U : Uuid} {p : SessionPayload} (hp : Returns w s t p) :
    Filed w s T U t ↔ p.tenantId = T ∧ p.userId = U := by
  obtain ⟨r, hr, hkey, -, -, hpayload⟩ := (returns_postgres hw).mp hp
  obtain ⟨htenant, huser⟩ := hrows r hr p hpayload
  rw [filed_postgres hw, htenant, huser]
  constructor
  · rintro ⟨r', hr', hkey', h⟩
    obtain rfl : r' = r := Table.eq_of_key_eq hr' hr (hkey'.trans hkey.symm)
    exact h
  · intro h
    exact ⟨r, hr, hkey, h⟩

theorem searchable_postgres (hw : w.sessionStore = .postgres) (T : String) (U : Uuid) :
    Searchable w s T U := by
  unfold Searchable
  rw [hw]
  trivial

/-- In a store of such rows, a logout does what it should when the header names the tenant of the
session. -/
theorem logoutAllRevokes_iff_tenant (hw : w.sessionStore = .postgres) (hrows : RowsAgree s) :
    LogoutAllRevokes w s tenantId token ↔
      ∀ p, Returns w s token p → p.tenantId = tenantId.val := by
  rw [logoutAllRevokes_iff_filed]
  constructor
  · intro h p hp
    have hown := (h p hp (searchable_postgres hw _ _) token p hp).mpr ⟨rfl, rfl⟩
    exact ((filed_iff_payload hw hrows hp).mp hown).1
  · intro h p hp _ token' p' hp'
    rw [filed_iff_payload hw hrows hp', h p hp]

/-- **The logouts that do what they should**, in any store, and in a store of rows. -/
theorem logoutAllRevokes_iff (w : World) (s : State) (tenantId : TenantId) (token : String) :
    (LogoutAllRevokes w s tenantId token ↔
      ∀ p, Returns w s token p → Searchable w s tenantId.val p.userId →
        ∀ token' p', Returns w s token' p' →
          (Filed w s tenantId.val p.userId token' ↔
            p'.tenantId = p.tenantId ∧ p'.userId = p.userId)) ∧
    (w.sessionStore = .postgres → RowsAgree s →
      (LogoutAllRevokes w s tenantId token ↔
        ∀ p, Returns w s token p → p.tenantId = tenantId.val)) :=
  ⟨logoutAllRevokes_iff_filed w s tenantId token, logoutAllRevokes_iff_tenant⟩

end OneTenant

/-! ### Every tenant -/

/-- **A global logout** ends the sessions of every membership of the identity. -/
def GlobalLogoutReaches (w : World) (s : State) (token : String) : Prop :=
  ∀ p n s', Returns w s token p →
    (logoutGlobal w (some ("Bearer " ++ token))).exec (handle w) s = (.ok n, s') →
      ∀ m ∈ s.db.users, m.identityId = p.identityId →
        ∀ token' p', p'.tenantId = m.tenantId → p'.userId = m.id → ¬ Returns w s' token' p'

/-- The memberships that a global logout goes through: those of the identity that are not
archived. -/
def Db.openMembership (db : Db) (identityId : Uuid) (m : MembershipRow) : Prop :=
  m ∈ db.users ∧ m.identityId = identityId ∧ m.status ≠ "archived" ∧
    (db.identity identityId).isSome = true

theorem Db.mem_openMemberships {db : Db} {identityId : Uuid} {u : User} :
    u ∈ (db.memberships.filter fun u =>
        u.identityId = identityId && u.status ≠ "archived").insertionSort
          (fun a b => a.createdAt ≤ b.createdAt) ↔
      ∃ m i, db.openMembership identityId m ∧ db.identity identityId = some i ∧
        User.ofRows m i.toIdentity = u := by
  rw [List.mem_insertionSort, List.mem_filter, Db.mem_memberships]
  constructor
  · rintro ⟨⟨m, hm, i, hi, rfl⟩, hc⟩
    simp only [Bool.and_eq_true, decide_eq_true_eq] at hc
    obtain ⟨hid, hstatus⟩ := hc
    obtain rfl : m.identityId = identityId := hid
    exact ⟨m, i, ⟨hm, rfl, hstatus, by rw [hi]; rfl⟩, hi, rfl⟩
  · rintro ⟨m, i, ⟨hm, rfl, hstatus, -⟩, hi, rfl⟩
    refine ⟨⟨m, hm, i, hi, rfl⟩, ?_⟩
    simp only [Bool.and_eq_true, decide_eq_true_eq]
    exact ⟨rfl, hstatus⟩

section EveryTenant

variable {w : World} {s : State} {token : String}

/-- **The global logouts that do so**: each live session of a membership of the identity is filed
under one that is not archived. -/
theorem globalLogoutReaches_iff_filed (w : World) (s : State) (token : String) :
    GlobalLogoutReaches w s token ↔
      ∀ p, Returns w s token p →
        (∀ m, s.db.openMembership p.identityId m → Searchable w s m.tenantId m.id) →
        ∀ m ∈ s.db.users, m.identityId = p.identityId →
          ∀ token' p', p'.tenantId = m.tenantId → p'.userId = m.id → Returns w s token' p' →
            ∃ m', s.db.openMembership p.identityId m' ∧ Filed w s m'.tenantId m'.id token' := by
  have hexec : ∀ {p n s'}, Returns w s token p →
      ((logoutGlobal w (some ("Bearer " ++ token))).exec (handle w) s = (.ok n, s') ↔
        (endEach w 0 ((s.db.memberships.filter fun u =>
          u.identityId = p.identityId && u.status ≠ "archived").insertionSort
            fun a b => a.createdAt ≤ b.createdAt)).exec (handle w) s = (.ok n, s')) := by
    intro p n s' hp
    unfold logoutGlobal
    rw [Program.bind_eq, Program.exec_bind_ok _ (exec_bearerSession_eq_ok.mpr ⟨hp, rfl⟩),
      Program.bind_eq,
      Program.exec_bind_ok _ (UsersRepo.exec_getMembershipsForIdentity w s p.identityId)]
  -- A predicate of the rows that are listed, read on the listed users.
  have hlisted : ∀ {p : SessionPayload} (Q : String → Uuid → Prop),
      (∀ u ∈ (s.db.memberships.filter fun u =>
          u.identityId = p.identityId && u.status ≠ "archived").insertionSort
            (fun a b => a.createdAt ≤ b.createdAt), Q u.tenantId u.id) ↔
        ∀ m, s.db.openMembership p.identityId m → Q m.tenantId m.id := by
    intro p Q
    constructor
    · intro h m hm
      obtain ⟨i, hi⟩ := Option.isSome_iff_exists.mp hm.2.2.2
      exact h _ (Db.mem_openMemberships.mpr ⟨m, i, hm, hi, rfl⟩)
    · intro h u hu
      obtain ⟨m, i, hm, -, rfl⟩ := Db.mem_openMemberships.mp hu
      exact h m hm
  constructor
  · intro hreaches p hp hsearch m hm hid token' p' htenant huser hp'
    obtain ⟨hsucceeds, hspec⟩ := exec_endEach w _ 0 s
    obtain ⟨n, s', hrun⟩ := hsucceeds ((hlisted (p := p) (Searchable w s)).mpr hsearch)
    have hgone := hreaches p n s' hp ((hexec hp).mpr hrun) m hm hid token' p' htenant huser
    by_contra hnone
    push Not at hnone
    exact hgone (((hspec n s' hrun).2 token' p').mpr
      ⟨hp', (hlisted fun T U => ¬ Filed w s T U token').mpr hnone⟩)
  · intro hfiled p n s' hp hrun m hm hid token' p' htenant huser hp'
    have hrun' := (hexec hp).mp hrun
    obtain ⟨hsearch, hreturns⟩ := (exec_endEach w _ 0 s).2 n s' hrun'
    obtain ⟨hbefore, hnone⟩ := (hreturns token' p').mp hp'
    obtain ⟨m', hm', hf⟩ := hfiled p hp ((hlisted (p := p) (Searchable w s)).mp hsearch) m hm hid
      token' p' htenant huser hbefore
    exact (hlisted fun T U => ¬ Filed w s T U token').mp hnone m' hm' hf

/-- In a store of rows that name their membership, a global logout does what it should when the
memberships of the identity with a live session are not archived. -/
theorem globalLogoutReaches_iff_open (hw : w.sessionStore = .postgres) (hrows : RowsAgree s) :
    GlobalLogoutReaches w s token ↔
      ∀ p, Returns w s token p → ∀ m ∈ s.db.users, m.identityId = p.identityId →
        ∀ token' p', p'.tenantId = m.tenantId → p'.userId = m.id → Returns w s token' p' →
          s.db.openMembership p.identityId m := by
  rw [globalLogoutReaches_iff_filed]
  constructor
  · intro h p hp m hm hid token' p' htenant huser hp'
    obtain ⟨m', hm', hf⟩ := h p hp (fun _ _ => searchable_postgres hw _ _) m hm hid token' p' htenant
      huser hp'
    obtain ⟨-, huser'⟩ := (filed_iff_payload hw hrows hp').mp hf
    obtain rfl : m' = m := Table.eq_of_key_eq hm'.1 hm (huser'.symm.trans huser)
    exact hm'
  · intro h p hp _ m hm hid token' p' htenant huser hp'
    exact ⟨m, h p hp m hm hid token' p' htenant huser hp',
      (filed_iff_payload hw hrows hp').mpr ⟨htenant, huser⟩⟩

/-- **The global logouts that do what they should**, in any store, and in a store of rows. -/
theorem globalLogoutReaches_iff (w : World) (s : State) (token : String) :
    (GlobalLogoutReaches w s token ↔
      ∀ p, Returns w s token p →
        (∀ m, s.db.openMembership p.identityId m → Searchable w s m.tenantId m.id) →
        ∀ m ∈ s.db.users, m.identityId = p.identityId →
          ∀ token' p', p'.tenantId = m.tenantId → p'.userId = m.id → Returns w s token' p' →
            ∃ m', s.db.openMembership p.identityId m' ∧ Filed w s m'.tenantId m'.id token') ∧
    (w.sessionStore = .postgres → RowsAgree s →
      (GlobalLogoutReaches w s token ↔
        ∀ p, Returns w s token p → ∀ m ∈ s.db.users, m.identityId = p.identityId →
          ∀ token' p', p'.tenantId = m.tenantId → p'.userId = m.id → Returns w s token' p' →
            s.db.openMembership p.identityId m)) :=
  ⟨globalLogoutReaches_iff_filed w s token, globalLogoutReaches_iff_open⟩

end EveryTenant

/-! ### Two sessions -/

/-- A session of an identity in one of its tenants. -/
def sessionIn (tenantId : String) (userId : Uuid) (sessionToken : String) : SessionRow :=
  ⟨tenantId, userId, sessionToken, none, none, seconds 3600, false,
    some ⟨tenantId, userId, 7, [], [], [], [], [], none, none, seconds 3600⟩⟩

/-- An identity with a session in each of two tenants, one of which has archived its membership. -/
def twoSessions : State :=
  .ofDb { Db.empty with
    tenants := acmeAndGlobex
    identities := .single (IdentityRow.ofHandles ⟨0, id, fun _ => 7⟩ (some "ann@acme.example") none
      none none none none)
    users := ⟨[⟨1, "acme", 7, none, "active", none, 0, 0⟩,
      ⟨2, "globex", 7, none, "archived", none, 0, 0⟩], by decide⟩
    sessions := ⟨[sessionIn "acme" 1 "x", sessionIn "globex" 2 "xx"], by decide⟩ } 0

theorem twoSessions_rowsAgree : RowsAgree twoSessions := by
  intro r hr p hp
  simp only [twoSessions, State.ofDb_db, Table.mem_mk, List.mem_cons, List.not_mem_nil,
    or_false] at hr
  rcases hr with rfl | rfl
  · cases hp
    exact ⟨rfl, rfl⟩
  · cases hp
    exact ⟨rfl, rfl⟩

theorem twoSessions_returns {token : String} (tenantId : String) (userId : Uuid)
    (h : sessionIn tenantId userId token ∈ twoSessions.db.sessions) :
    Returns .offline twoSessions token
      ⟨tenantId, userId, 7, [], [], [], [], [], none, none, seconds 3600⟩ :=
  (returns_postgres rfl).mpr ⟨_, h, rfl, rfl, (by decide : (0 : Time) < seconds 3600), rfl⟩

/-- **A header that names another tenant** leaves the session. -/
theorem globexHeader_keeps :
    ¬ LogoutAllRevokes .offline twoSessions ⟨"globex", by decide⟩ "x" := by
  rw [logoutAllRevokes_iff_tenant rfl twoSessions_rowsAgree]
  intro h
  have htenant := h _ (twoSessions_returns "acme" 1 List.mem_cons_self)
  exact absurd htenant (by decide)

/-- **The session of an archived membership** outlives a global logout. -/
theorem archivedMembership_keeps : ¬ GlobalLogoutReaches .offline twoSessions "x" := by
  rw [globalLogoutReaches_iff_open rfl twoSessions_rowsAgree]
  intro h
  have hcaller := twoSessions_returns "acme" 1 List.mem_cons_self
  have hother := twoSessions_returns "globex" 2
    (List.mem_cons_of_mem _ List.mem_cons_self)
  obtain ⟨-, -, hopen, -⟩ := h _ hcaller ⟨2, "globex", 7, none, "archived", none, 0, 0⟩
    (List.mem_cons_of_mem _ List.mem_cons_self) rfl "xx" _ rfl rfl hother
  exact hopen rfl

end Authrs
