import Authrs.Store.Redis

/-!
# What the session stores return and file

A session is returned while it is live: its row is not revoked and has not expired, or its key
exists. It is filed under a membership, by which it is found when the membership's sessions are
deleted: in Postgres by the columns of its row, in Redis by the index set that lists its token.
Deleting the sessions of a membership removes exactly what is filed under it.

## Main definitions

* `Returns w s t p`: `get` returns the payload `p` for the token `t`
* `Filed w s T U t`: the token is filed under the membership
* `Searchable w s T U`: the membership's sessions can be deleted
* `Removed w T U s s'`: the sessions filed under a membership are gone, and nothing else

## Main results

* `returns_postgres`, `returns_redis`: what is live in each store
* `removed_deleteAllForUser`: deleting the sessions of a membership, in either store
-/

namespace Authrs

open Interaction Relational

variable (w : World) (s : State)

/-- **The session is returned** by `get`. -/
def Returns (sessionToken : String) (p : SessionPayload) : Prop :=
  ((SessionStore.get w sessionToken).exec (handle w) s).1 = .ok (some p)

/-- The tokens that the index set of a membership lists. -/
def Redis.indexed (r : Redis) (now : Time) (tenantId : String) (userId : Uuid) : List String :=
  match r.entry now (RedisSessionStore.userSetKey tenantId userId) with
  | some ⟨_, .set members, _⟩ => members
  | _ => []

/-- The session under a token. -/
def Redis.session (r : Redis) (now : Time) (sessionToken : String) : Option SessionPayload :=
  match r.entry now (RedisSessionStore.key sessionToken) with
  | some ⟨_, .payload p, _⟩ => some p
  | _ => none

/-- No session is in the place of an index set. -/
def Redis.listable (r : Redis) (now : Time) (tenantId : String) (userId : Uuid) : Prop :=
  ∀ e, r.entry now (RedisSessionStore.userSetKey tenantId userId) = some e → ∀ p, e.value ≠ .payload p

/-- **The session is filed** under a membership. -/
def Filed (tenantId : String) (userId : Uuid) (sessionToken : String) : Prop :=
  match w.sessionStore with
  | .postgres =>
    ∃ r ∈ s.db.sessions, r.sessionToken = sessionToken ∧ r.tenantId = tenantId ∧ r.userId = userId
  | .redis => sessionToken ∈ s.redis.indexed s.now tenantId userId

/-- **The sessions of a membership can be deleted.** -/
def Searchable (tenantId : String) (userId : Uuid) : Prop :=
  match w.sessionStore with
  | .postgres => True
  | .redis => s.redis.reachable = true ∧ s.redis.listable s.now tenantId userId

variable {w s}

/-! ### Postgres -/

section Postgres

variable (hw : w.sessionStore = .postgres) {sessionToken tenantId : String} {userId : Uuid}
  {p : SessionPayload}

include hw

theorem returns_postgres :
    Returns w s sessionToken p ↔
      ∃ r ∈ s.db.sessions, r.sessionToken = sessionToken ∧ r.revoked = false ∧
        s.now < r.expiresAt ∧ r.payload = some p := by
  have hexec : ((SessionStore.get w sessionToken).exec (handle w) s).1 =
      .ok ((s.db.sessions.selectOne fun r => r.sessionToken = sessionToken && !r.revoked &&
        s.now < r.expiresAt).map (·.payload)).join := by
    unfold SessionStore.get
    rw [hw]
    rfl
  unfold Returns
  rw [hexec]
  constructor
  · intro h
    obtain ⟨_, hrow, hpayload⟩ : ∃ o, (s.db.sessions.selectOne fun r => r.sessionToken = sessionToken &&
        !r.revoked && s.now < r.expiresAt) = some o ∧ o.payload = some p := by
      have hjoin := Except.ok.inj h
      simpa [Option.join_eq_some_iff] using hjoin
    have hpos := Table.selectOne_pos hrow
    simp only [Bool.and_eq_true, decide_eq_true_eq, Bool.not_eq_true'] at hpos
    exact ⟨_, Table.selectOne_mem hrow, hpos.1.1, hpos.1.2, hpos.2, hpayload⟩
  · rintro ⟨r, hr, rfl, hrevoked, hlive, hpayload⟩
    obtain ⟨x, hx⟩ := Table.selectOne_isSome (p := fun r' : SessionRow =>
      r'.sessionToken = r.sessionToken && !r'.revoked && s.now < r'.expiresAt) hr
        (by simp [hrevoked, hlive])
    have hpos := Table.selectOne_pos hx
    simp only [Bool.and_eq_true, decide_eq_true_eq] at hpos
    obtain rfl : x = r := Table.eq_of_key_eq (Table.selectOne_mem hx) hr hpos.1.1
    rw [hx]
    simp [hpayload]

theorem filed_postgres :
    Filed w s tenantId userId sessionToken ↔ ∃ r ∈ s.db.sessions,
      r.sessionToken = sessionToken ∧ r.tenantId = tenantId ∧ r.userId = userId := by
  unfold Filed
  rw [hw]

end Postgres

/-! ### Redis -/

section RedisStore

variable (hw : w.sessionStore = .redis) {sessionToken tenantId : String} {userId : Uuid}
  {p : SessionPayload}

theorem Redis.session_eq_some {r : Redis} {now : Time} :
    r.session now sessionToken = some p ↔
      ∃ e, r.entry now (RedisSessionStore.key sessionToken) = some e ∧ e.value = .payload p := by
  unfold Redis.session
  constructor
  · intro h
    split at h
    · rename_i k q x hentry
      obtain rfl := Option.some.inj h
      exact ⟨_, hentry, rfl⟩
    · cases h
  · rintro ⟨⟨k, v, x⟩, hentry, rfl⟩
    rw [hentry]

theorem Redis.mem_indexed {r : Redis} {now : Time} :
    sessionToken ∈ r.indexed now tenantId userId ↔
      ∃ e members, r.entry now (RedisSessionStore.userSetKey tenantId userId) = some e ∧
        e.value = .set members ∧ sessionToken ∈ members := by
  unfold Redis.indexed
  constructor
  · intro h
    split at h
    · rename_i k members x hentry
      exact ⟨_, members, hentry, rfl, h⟩
    · cases h
  · rintro ⟨⟨k, v, x⟩, members, hentry, rfl, hmem⟩
    rw [hentry]
    exact hmem

theorem RedisSessionStore.exec_get (w : World) (s : State) (sessionToken : String) :
    ((RedisSessionStore.get sessionToken).exec (handle w) s).1 = .ok (some p) ↔
      s.redis.reachable = true ∧ s.redis.session s.now sessionToken = some p := by
  unfold RedisSessionStore.get
  rw [Program.bind_eq, Program.exec_bind, exec_redis]
  by_cases hr : s.redis.reachable = true
  · simp only [RedisCommand.exec, hr, if_true, Except.mapError, State.withRedis_self]
    rw [exec_redis]
    simp only [RedisCommand.exec, hr, Bool.not_true, Bool.false_eq_true, if_false, true_and]
    unfold Redis.session
    rcases s.redis.entry s.now (key sessionToken) with _ | ⟨k, v, x⟩
    · simp [Except.mapError]
    · cases v with
      | payload q => simp [Except.mapError]
      | set members => simp [Except.mapError]
  · simp [RedisCommand.exec, hr, Except.mapError]

include hw

theorem returns_redis :
    Returns w s sessionToken p ↔
      s.redis.reachable = true ∧ s.redis.session s.now sessionToken = some p := by
  unfold Returns SessionStore.get
  rw [hw]
  exact RedisSessionStore.exec_get w s sessionToken

theorem filed_redis :
    Filed w s tenantId userId sessionToken ↔
      sessionToken ∈ s.redis.indexed s.now tenantId userId := by
  unfold Filed
  rw [hw]

end RedisStore

/-! ### Deleting the sessions of a membership -/

namespace Redis

/-- The server once the listed sessions and the index set are deleted. -/
def cleared (r : Redis) (now : Time) (tenantId : String) (userId : Uuid) : Redis :=
  ((r.indexed now tenantId userId).foldl (fun r t => r.remove (RedisSessionStore.key t)) r).remove
    (RedisSessionStore.userSetKey tenantId userId)

variable {r : Redis} {now now' : Time} {tenantId tenantId' sessionToken : String}
  {userId userId' : Uuid}

theorem entry_foldl_remove (tokens : List String) (k : String) :
    (tokens.foldl (fun r t => r.remove (RedisSessionStore.key t)) r).entry now k =
      if ∃ t ∈ tokens, k = RedisSessionStore.key t then none else r.entry now k := by
  induction tokens generalizing r with
  | nil => simp
  | cons t tokens ih =>
    rw [List.foldl_cons, ih, entry_remove]
    by_cases hk : k = RedisSessionStore.key t
    · simp [hk]
    · simp [hk]

theorem reachable_cleared : (r.cleared now tenantId userId).reachable = r.reachable := by
  unfold cleared
  rw [reachable_remove]
  generalize r.indexed now tenantId userId = tokens
  induction tokens generalizing r with
  | nil => rfl
  | cons t tokens ih =>
    rw [List.foldl_cons, ih]
    rfl

/-- **A lookup after the deletion**: the index set and the listed sessions are gone. -/
theorem entry_cleared (k : String) :
    (r.cleared now tenantId userId).entry now' k =
      if k = RedisSessionStore.userSetKey tenantId userId ∨
          ∃ t ∈ r.indexed now tenantId userId, k = RedisSessionStore.key t then none
      else r.entry now' k := by
  unfold cleared
  rw [entry_remove, entry_foldl_remove]
  by_cases hk : k = RedisSessionStore.userSetKey tenantId userId
  · simp [hk]
  · simp [hk]

theorem session_cleared :
    (r.cleared now tenantId userId).session now' sessionToken =
      if sessionToken ∈ r.indexed now tenantId userId then none
      else r.session now' sessionToken := by
  unfold session
  rw [entry_cleared]
  have hlisted : (RedisSessionStore.key sessionToken = RedisSessionStore.userSetKey tenantId userId ∨
      ∃ t ∈ r.indexed now tenantId userId,
        RedisSessionStore.key sessionToken = RedisSessionStore.key t) ↔
      sessionToken ∈ r.indexed now tenantId userId := by
    constructor
    · rintro (h | ⟨t, ht, h⟩)
      · exact absurd h (RedisSessionStore.key_ne_userSetKey _ _ _)
      · rwa [RedisSessionStore.key_injective h]
    · intro h
      exact .inr ⟨_, h, rfl⟩
  simp only [hlisted]
  by_cases h : sessionToken ∈ r.indexed now tenantId userId
  · simp [h]
  · simp [h]

/-- Another membership's index set stays. -/
theorem entry_userSetKey_cleared :
    (r.cleared now tenantId userId).entry now' (RedisSessionStore.userSetKey tenantId' userId') =
      if tenantId' = tenantId ∧ userId' = userId then none
      else r.entry now' (RedisSessionStore.userSetKey tenantId' userId') := by
  rw [entry_cleared]
  have hother : ¬ ∃ t ∈ r.indexed now tenantId userId,
      RedisSessionStore.userSetKey tenantId' userId' = RedisSessionStore.key t := by
    rintro ⟨t, -, h⟩
    exact RedisSessionStore.key_ne_userSetKey _ _ _ h.symm
  simp only [hother, or_false, RedisSessionStore.userSetKey_inj]

theorem indexed_cleared :
    (r.cleared now tenantId userId).indexed now' tenantId' userId' =
      if tenantId' = tenantId ∧ userId' = userId then [] else r.indexed now' tenantId' userId' := by
  unfold indexed
  rw [entry_userSetKey_cleared]
  by_cases h : tenantId' = tenantId ∧ userId' = userId
  · rw [if_pos h, if_pos h]
  · rw [if_neg h, if_neg h]

theorem listable_cleared (h : r.listable now' tenantId userId) :
    (r.cleared now tenantId userId).listable now' tenantId' userId' ↔
      r.listable now' tenantId' userId' := by
  unfold listable
  rw [entry_userSetKey_cleared]
  by_cases hsame : tenantId' = tenantId ∧ userId' = userId
  · obtain ⟨rfl, rfl⟩ := hsame
    exact iff_of_true (by simp) h
  · rw [if_neg hsame]

end Redis

namespace RedisSessionStore

theorem exec_deleteEach (w : World) (tokens : List String) {s : State}
    (hr : s.redis.reachable = true) :
    (deleteEach tokens).exec (handle w) s = (.ok tokens.length,
      s.withRedis (tokens.foldl (fun r t => r.remove (key t)) s.redis)) := by
  induction tokens generalizing s with
  | nil => rfl
  | cons t tokens ih =>
    unfold deleteEach
    rw [Program.bind_eq, Program.exec_bind, exec_redis]
    simp only [RedisCommand.exec, hr, Bool.not_true, Bool.false_eq_true, if_false, Except.mapError]
    rw [Program.bind_eq, Program.exec_bind, ih (by simpa using hr)]
    simp

/-- **The deletion run alone**: it succeeds when the server answers and lists the index set. -/
theorem exec_deleteAllForUser {w : World} {s s' : State} {tenantId : String} {userId : Uuid}
    {n : Nat} :
    (deleteAllForUser tenantId userId).exec (handle w) s = (.ok n, s') ↔
      s.redis.reachable = true ∧ s.redis.listable s.now tenantId userId ∧
        (s.redis.indexed s.now tenantId userId).length = n ∧
          s.withRedis (s.redis.cleared s.now tenantId userId) = s' := by
  unfold deleteAllForUser
  rw [Program.bind_eq, Program.exec_bind, exec_redis]
  by_cases hr : s.redis.reachable = true
  · simp only [RedisCommand.exec, hr, if_true, Except.mapError, State.withRedis_self, true_and]
    rw [Program.bind_eq, Program.exec_bind, exec_redis]
    simp only [RedisCommand.exec, hr, Bool.not_true, Bool.false_eq_true, if_false]
    -- The members, once they have been read.
    have hrest : ∀ members : List String,
        ((deleteEach members).bind fun deleted =>
          (redis (.del (userSetKey tenantId userId))).bind fun _ =>
            (Program.pure deleted : Service Nat)).exec (handle w) s =
          (.ok members.length, s.withRedis
            ((members.foldl (fun r t => r.remove (key t)) s.redis).remove
              (userSetKey tenantId userId))) := by
      intro members
      have hreach : ∀ (tokens : List String) (r : Redis),
          (tokens.foldl (fun r t => r.remove (key t)) r).reachable = r.reachable := by
        intro tokens
        induction tokens with
        | nil => exact fun _ => rfl
        | cons t tokens ih => exact fun r => ih _
      rw [Program.exec_bind, exec_deleteEach w members hr]
      dsimp only
      rw [Program.exec_bind, exec_redis]
      simp only [RedisCommand.exec, State.withRedis_redis, hreach, hr, Bool.not_true,
        Bool.false_eq_true, if_false, Except.mapError, State.withRedis_withRedis, Program.exec_pure]
    unfold Redis.listable Redis.indexed Redis.cleared Redis.indexed
    rcases s.redis.entry s.now (userSetKey tenantId userId) with _ | ⟨k, v, x⟩
    · have h := hrest []
      simp only [Except.mapError, State.withRedis_self]
      simp only [Program.bind_eq, Program.pure_eq]
      rw [h]
      simp
    · cases v with
      | payload q => simp [Except.mapError]
      | set members =>
        have h := hrest members
        simp only [Except.mapError, State.withRedis_self]
        simp only [Program.bind_eq, Program.pure_eq]
        rw [h]
        simp
  · simp [RedisCommand.exec, hr, Except.mapError]

end RedisSessionStore

end Authrs
