import Authrs.Interaction.Concurrent
import Authrs.Login.Grants
import Authrs.Login.Provenance
import Authrs.Relational.Leases
import Authrs.Routes.Session
import Authrs.Sessions.Stores

/-!
# The session store as a store of leases

A session is a lease: it is granted under its token until a deadline, and ends before when it is revoked
or deleted. Both stores implement this, with other means: a row has a deadline of its own and is marked
when it is revoked, while a key of Redis runs out by itself and is removed. Any calls of the service may
run side by side. Each of their exchanges does to the store what it does to the leases, and a session is
looked up as the leases are when the look-up is made.

## Main definitions

* `FiledSession`, `State.sessions`: the sessions that a state holds
* `SessionStmt.leaseOp`, `RedisCommand.leaseOp`, `leaseOp`: what an exchange does to them
* `Redis.Keyed`: a key has one entry
* `LookupCall`: a look-up of a session, or any other call
* `LeasesSessions`: the store is a store of leases

## Main results

* `returns_iff_sessions`: what is live is what is returned
* `handle_sessions`: an exchange does to the store what it does to the leases
* `run_leasesSessions`: the session store is a store of leases, in every run
-/

namespace Authrs

open Interaction Relational

/-- A session, under the membership that it is filed under. -/
structure FiledSession where
  payload : SessionPayload
  tenantId : String
  userId : Uuid

/-- The session in a row, at an instant. -/
def SessionRow.held (r : SessionRow) (now : Time) : Option FiledSession :=
  if !r.revoked && now < r.expiresAt then r.payload.map fun p => ⟨p, r.tenantId, r.userId⟩ else none

/-- **The sessions that a state holds**, under their tokens. -/
def State.sessions (w : World) (s : State) : Leases String FiledSession Time := fun t now =>
  match w.sessionStore with
  | .postgres => (s.db.sessions.selectOne fun r => r.sessionToken = t).bind fun r => r.held now
  | .redis => (s.redis.session now t).map fun p => ⟨p, p.tenantId, p.userId⟩

/-- What a statement does to the sessions, once it has been carried out. -/
def SessionStmt.leaseOp : SessionStmt → Option (LeaseOp String FiledSession Time)
  | .insert tenantId userId sessionToken _ _ expiresAt payload => do
    let tenantId ← varchar 255 tenantId
    let sessionToken ← varchar 255 sessionToken
    let p ← payload
    pure (.grant sessionToken ⟨p, tenantId, userId⟩ expiresAt)
  | .revokeByToken sessionToken => some (.drop fun t _ => t = sessionToken)
  | .revokeAllForUser tenantId userId =>
    some (.drop fun _ l => l.tenantId = tenantId && l.userId = userId)
  | .get _ => none

/-- What a command does to the sessions, once it has been carried out. -/
def RedisCommand.leaseOp (now : Time) : RedisCommand → Option (LeaseOp String FiledSession Time)
  | .setEx key p ttlSecs =>
    (dropStart "session:" key).map fun t =>
      .grant t ⟨p, p.tenantId, p.userId⟩ (now + seconds ttlSecs)
  | .sadd key _ => some (.drop fun t _ => RedisSessionStore.key t = key)
  | .expire key secs =>
    (dropStart "session:" key).map fun t =>
      .move t now (if secs ≤ 0 then none else some (now + seconds secs))
  | .del key => some (.drop fun t _ => RedisSessionStore.key t = key)
  | _ => none

/-- **What an exchange does to the sessions**: only the store of the deployment counts. -/
def leaseOp (w : World) (now : Time) (e : Event authrs) : Option (LeaseOp String FiledSession Time) :=
  match w.sessionStore, e with
  | .postgres, ⟨.sql (.sessions q), .ok _⟩ => q.leaseOp
  | .redis, ⟨.redis c, .ok _⟩ => c.leaseOp now
  | _, _ => none

variable {w : World} {s : State}

/-! ### Look-ups -/

theorem sessions_postgres (hw : w.sessionStore = .postgres) (t : String) (now : Time) :
    s.sessions w t now =
      (s.db.sessions.selectOne fun r => r.sessionToken = t).bind fun r => r.held now := by
  unfold State.sessions
  rw [hw]

theorem sessions_redis (hw : w.sessionStore = .redis) (t : String) (now : Time) :
    s.sessions w t now = (s.redis.session now t).map fun p => ⟨p, p.tenantId, p.userId⟩ := by
  unfold State.sessions
  rw [hw]

theorem SessionRow.held_eq_some {r : SessionRow} {now : Time} {l : FiledSession} :
    r.held now = some l ↔ r.revoked = false ∧ now < r.expiresAt ∧ r.payload = some l.payload ∧
      r.tenantId = l.tenantId ∧ r.userId = l.userId := by
  unfold held
  by_cases hlive : (!r.revoked && decide (now < r.expiresAt)) = true
  · rw [if_pos hlive]
    simp only [Bool.and_eq_true, Bool.not_eq_true', decide_eq_true_eq] at hlive
    cases r.payload with
    | none => simp
    | some p =>
      obtain ⟨q, T, U⟩ := l
      simp [hlive]
  · rw [if_neg hlive]
    simp only [Bool.and_eq_true, Bool.not_eq_true', decide_eq_true_eq] at hlive
    constructor
    · rintro ⟨⟩
    · rintro ⟨hrevoked, hnow, -⟩
      exact absurd ⟨hrevoked, hnow⟩ hlive

/-- The store can be asked. -/
def State.Answers (w : World) (s : State) : Prop := w.sessionStore = .redis → s.redis.reachable = true

/-- **What is returned is what the state holds**, as long as the store answers. -/
theorem returns_iff_sessions {t : String} {p : SessionPayload} :
    Returns w s t p ↔ s.Answers w ∧ ∃ l, s.sessions w t s.now = some l ∧ l.payload = p := by
  unfold State.Answers
  cases hw : w.sessionStore with
  | postgres =>
    rw [returns_postgres hw]
    simp only [reduceCtorEq, false_imp_iff, true_and, sessions_postgres hw]
    constructor
    · rintro ⟨r, hr, htoken, hrevoked, hlive, hpayload⟩
      refine ⟨⟨p, r.tenantId, r.userId⟩, ?_, rfl⟩
      rw [Table.selectOne_key.mpr ⟨hr, htoken⟩]
      exact SessionRow.held_eq_some.mpr ⟨hrevoked, hlive, hpayload, rfl, rfl⟩
    · rintro ⟨l, hl, rfl⟩
      obtain ⟨r, hrow, hheld⟩ := Option.bind_eq_some_iff.mp hl
      obtain ⟨hr, htoken⟩ := Table.selectOne_key.mp hrow
      obtain ⟨hrevoked, hlive, hpayload, -, -⟩ := SessionRow.held_eq_some.mp hheld
      exact ⟨r, hr, htoken, hrevoked, hlive, hpayload⟩
  | redis =>
    rw [returns_redis hw]
    simp only [forall_const, sessions_redis hw]
    refine and_congr_right fun _ => ?_
    constructor
    · intro hp
      exact ⟨⟨p, p.tenantId, p.userId⟩, by rw [hp]; rfl, rfl⟩
    · rintro ⟨l, hl, rfl⟩
      obtain ⟨q, hq, rfl⟩ := Option.map_eq_some_iff.mp hl
      exact hq

/-! ### Statements -/

section Postgres

variable {db' : Db}

/-- A row that is inserted holds what it is inserted with. -/
theorem insertSession_table {db : Db} {tenantId sessionToken : String} {userId : Uuid}
    {ipAddress userAgent : Option String} {expiresAt : Time} {payload : Option SessionPayload} {n : Nat}
    (h : insertSession db tenantId userId sessionToken ipAddress userAgent expiresAt payload =
      .ok (n, db')) :
    ∃ T t, varchar 255 tenantId = some T ∧ varchar 255 sessionToken = some t ∧
      db.sessions.insert? ⟨T, userId, t, ipAddress, userAgent, expiresAt, false, payload⟩ =
        some db'.sessions := by
  unfold insertSession at h
  simp only [bind_eq_ok] at h
  obtain ⟨T, hT, t, ht, h⟩ := h
  split at h
  · cases h
  · split at h
    · cases h
    · rename_i table htable
      repeat' split at h
      all_goals cases h
      exact ⟨T, t, varcharReq_ok hT, varcharReq_ok ht, htable⟩

/-- An insert puts the session under its token. -/
theorem held_insert {t : Table SessionRow.sessionToken} {t' : Table SessionRow.sessionToken}
    {r : SessionRow} (h : t.insert? r = some t') (k : String) (now : Time) :
    (t'.selectOne fun x => x.sessionToken = k).bind (fun x => x.held now) =
      if k = r.sessionToken then r.held now
      else (t.selectOne fun x => x.sessionToken = k).bind fun x => x.held now := by
  unfold Table.selectOne
  rw [Table.rows_of_insert? h, List.find?_cons]
  by_cases hk : k = r.sessionToken
  · simp [hk]
  · simp [hk, Ne.symm hk]

/-- Revoking rows removes the sessions in them. -/
theorem held_revoke (t : Table SessionRow.sessionToken) (chosen : SessionRow → Bool)
    (p : String → FiledSession → Bool)
    (hp : ∀ r now l, r.held now = some l → p r.sessionToken l = chosen r) (k : String) (now : Time) :
    ((t.update chosen SessionRow.asRevoked SessionRow.asRevoked_sessionToken).selectOne
        fun x => x.sessionToken = k).bind (fun x => x.held now) =
      ((t.selectOne fun x => x.sessionToken = k).bind fun x => x.held now).filter fun l => !p k l := by
  cases hrow : t.selectOne fun x => x.sessionToken = k with
  | none =>
    rw [Table.selectOne_update_none hrow]
    rfl
  | some r =>
    rw [Table.selectOne_update hrow]
    obtain ⟨-, rfl⟩ := Table.selectOne_key.mp hrow
    simp only [Option.bind_some]
    cases hheld : r.held now with
    | none =>
      split
      · rfl
      · exact hheld
    | some l =>
      rw [Option.filter, hp r now l hheld]
      by_cases hchosen : chosen r = true
      · simp [hchosen, SessionRow.held, SessionRow.asRevoked]
      · simp [hchosen, hheld]

theorem leaseOp_sql (hw : w.sessionStore = .postgres) (now : Time) (q : SessionStmt)
    (r : (Sql.sessions q).Rows) : leaseOp w now ⟨.sql (.sessions q), .ok r⟩ = q.leaseOp := by
  simp only [leaseOp, hw]

/-- **A statement does to the rows what it does to the leases.** -/
theorem sessions_of_exec (hw : w.sessionStore = .postgres) {env : SqlEnv} {q : SessionStmt} {r : q.Rows}
    (h : q.exec env s.db = .ok (r, db')) :
    ({ s with db := db' } : State).sessions w = (s.sessions w).after q.leaseOp.toList := by
  funext k now
  rw [sessions_postgres hw]
  cases q with
  | insert tenantId userId sessionToken ipAddress userAgent expiresAt payload =>
    obtain ⟨T, t, hT, ht, hins⟩ := insertSession_table h
    rw [held_insert hins]
    simp only [SessionStmt.leaseOp, hT, ht]
    cases payload with
    | none =>
      -- The token is new, and the row holds nothing.
      show _ = s.sessions w k now
      rw [sessions_postgres hw]
      split
      · rename_i hk
        subst hk
        rw [Table.selectOne_key_eq_none.mpr fun r hr => Table.insert?_fresh hins hr]
        simp [SessionRow.held]
      · rfl
    | some p =>
      show _ = (LeaseOp.grant t ⟨p, T, userId⟩ expiresAt).apply (s.sessions w) k now
      rw [LeaseOp.apply_grant, sessions_postgres hw]
      simp [SessionRow.held]
  | revokeByToken sessionToken =>
    cases h
    show _ = (LeaseOp.drop fun t _ => t = sessionToken).apply (s.sessions w) k now
    rw [LeaseOp.apply_drop, sessions_postgres hw]
    exact held_revoke s.db.sessions (fun r => r.sessionToken = sessionToken)
      (fun t _ => t = sessionToken) (fun _ _ _ _ => rfl) k now
  | revokeAllForUser tenantId userId =>
    cases h
    show _ = (LeaseOp.drop fun _ l => l.tenantId = tenantId && l.userId = userId).apply (s.sessions w)
      k now
    rw [LeaseOp.apply_drop, sessions_postgres hw]
    refine held_revoke s.db.sessions (fun r => r.tenantId = tenantId && r.userId = userId)
      (fun _ l => l.tenantId = tenantId && l.userId = userId) (fun r now l hl => ?_) k now
    obtain ⟨-, -, -, htenant, huser⟩ := SessionRow.held_eq_some.mp hl
    rw [htenant, huser]
  | get sessionToken =>
    cases h
    show _ = s.sessions w k now
    rw [sessions_postgres hw]

end Postgres

/-! ### Commands -/

/-- A key has one entry. -/
def Redis.Keyed (r : Redis) : Prop := (r.entries.map RedisEntry.key).Nodup

/-- The session that a value is. -/
def RedisValue.session : RedisValue → Option SessionPayload
  | .payload p => some p
  | .set _ => none

/-- A key is that of a session when it begins as such. -/
theorem dropStart_key {key t : String} :
    dropStart "session:" key = some t ↔ key = RedisSessionStore.key t := by
  constructor
  · intro h
    obtain ⟨rest, hrest, rfl⟩ := Option.map_eq_some_iff.mp h
    obtain ⟨start, htext, hstart⟩ := List.dropPrefix?_eq_some_iff.mp hrest
    apply String.toList_injective
    rw [htext, eq_of_beq hstart]
    simp [RedisSessionStore.key]
  · rintro rfl
    exact dropStart_append _ _

/-- A key that does not begin as that of a session is the key of none. -/
theorem key_ne_of_dropStart {key : String} (h : dropStart "session:" key = none) (t : String) :
    RedisSessionStore.key t ≠ key := by
  rintro rfl
  rw [dropStart_key.mpr rfl] at h
  cases h

namespace Redis

variable {r : Redis} {now now' : Time} {k t : String} {e e' : RedisEntry}

theorem Keyed.remove (h : r.Keyed) (k : String) : (r.remove k).Keyed :=
  List.Nodup.sublist (List.Sublist.map _ List.filter_sublist) h

theorem Keyed.put (h : r.Keyed) (e : RedisEntry) : (r.put e).Keyed := by
  show ((e :: r.entries.filter fun x => x.key ≠ e.key).map RedisEntry.key).Nodup
  rw [List.map_cons, List.nodup_cons]
  refine ⟨fun hmem => ?_, h.remove e.key⟩
  obtain ⟨x, hx, hkey⟩ := List.mem_map.mp hmem
  have hne := (List.mem_filter.mp hx).2
  simp [hkey] at hne

theorem Keyed.entry_unique (h : r.Keyed) (he : r.entry now k = some e)
    (he' : r.entry now' k = some e') : e = e' := by
  obtain ⟨hmem, hkey, -⟩ := entry_eq_some r now he
  obtain ⟨hmem', hkey', -⟩ := entry_eq_some r now' he'
  exact List.inj_on_of_nodup_map h hmem hmem' (hkey.trans hkey'.symm)

theorem session_eq : r.session now t =
    (r.entry now (RedisSessionStore.key t)).bind fun e => e.value.session := by
  unfold session
  rcases r.entry now (RedisSessionStore.key t) with _ | ⟨k, v, x⟩
  · rfl
  · cases v <;> rfl

theorem session_remove :
    (r.remove k).session now t = if RedisSessionStore.key t = k then none else r.session now t := by
  rw [session_eq, entry_remove, session_eq]
  split <;> rfl

theorem session_put : (r.put e).session now t =
    if RedisSessionStore.key t = e.key then (if e.live now then e.value.session else none)
    else r.session now t := by
  rw [session_eq, entry_put, session_eq]
  split
  · split <;> rfl
  · rfl

/-- A key that holds a set holds no session, at any instant. -/
theorem Keyed.session_eq_none (h : r.Keyed) (he : r.entry now (RedisSessionStore.key t) = some e)
    (hset : e.value.session = none) : r.session now' t = none := by
  rw [session_eq]
  cases he' : r.entry now' (RedisSessionStore.key t) with
  | none => rfl
  | some e' =>
    obtain rfl := h.entry_unique he he'
    exact hset

/-- **A command leaves a key with one entry.** -/
theorem Keyed.exec (h : r.Keyed) (c : RedisCommand) : (c.exec now r).2.Keyed := by
  cases c with
  | connect | get | smembers =>
    simp only [RedisCommand.exec]
    repeat' split
    all_goals exact h
  | setEx key p ttlSecs =>
    simp only [RedisCommand.exec]
    split
    · exact h
    · split
      · exact h.put _
      · exact h
  | sadd key member =>
    simp only [RedisCommand.exec]
    split
    · exact h
    · split
      · exact h.put _
      · exact h.put _
      · exact h
  | expire key secs =>
    simp only [RedisCommand.exec]
    repeat' split
    all_goals first | exact h | exact h.remove _ | exact h.put _
  | del key =>
    simp only [RedisCommand.exec]
    split
    · exact h
    · exact h.remove key

end Redis

section RedisStore

variable (hw : w.sessionStore = .redis)

include hw

theorem leaseOp_redis (now : Time) (c : RedisCommand) (v : c.Result) :
    leaseOp w now ⟨.redis c, .ok v⟩ = c.leaseOp now := by
  simp only [leaseOp, hw]

theorem leaseOp_redis_error (now : Time) (c : RedisCommand) (e : String) :
    leaseOp w now ⟨.redis c, .error e⟩ = none := by
  simp only [leaseOp, hw]

theorem leaseOp_redis_read {now : Time} {c : RedisCommand} (hc : c.leaseOp now = none)
    (v : Except String c.Result) : leaseOp w now ⟨.redis c, v⟩ = none := by
  cases v with
  | error e => exact leaseOp_redis_error hw now c e
  | ok v => exact (leaseOp_redis hw now c v).trans hc

/-- A removed key holds no session. -/
theorem sessions_remove (k : String) :
    (s.withRedis (s.redis.remove k)).sessions w =
      (LeaseOp.drop fun t _ => RedisSessionStore.key t = k).apply (s.sessions w) := by
  funext t now
  rw [LeaseOp.apply_drop, sessions_redis hw, sessions_redis hw, State.withRedis_redis,
    Redis.session_remove]
  by_cases hk : RedisSessionStore.key t = k
  · cases s.redis.session now t <;> simp [hk, Option.filter]
  · cases s.redis.session now t <;> simp [hk, Option.filter]

/-- A key that is set holds no session. -/
theorem sessions_put_set {k : String} {members : List String} {expiresAt : Option Time} :
    (s.withRedis (s.redis.put ⟨k, .set members, expiresAt⟩)).sessions w =
      (LeaseOp.drop fun t _ => RedisSessionStore.key t = k).apply (s.sessions w) := by
  funext t now
  rw [LeaseOp.apply_drop, sessions_redis hw, sessions_redis hw, State.withRedis_redis,
    Redis.session_put]
  by_cases hk : RedisSessionStore.key t = k
  · cases s.redis.session now t <;> simp [hk, Option.filter, RedisValue.session]
  · cases s.redis.session now t <;> simp [hk, Option.filter]

/-- A session that is set is granted. -/
theorem sessions_setEx (key : String) (p : SessionPayload) (deadline : Time) :
    (s.withRedis (s.redis.put ⟨key, .payload p, some deadline⟩)).sessions w =
      (s.sessions w).after ((dropStart "session:" key).map fun t =>
        LeaseOp.grant t ⟨p, p.tenantId, p.userId⟩ deadline).toList := by
  funext t now
  rw [sessions_redis hw, State.withRedis_redis, Redis.session_put]
  cases htoken : dropStart "session:" key with
  | none =>
    -- The key is not one of a session.
    rw [if_neg (key_ne_of_dropStart htoken t)]
    exact (sessions_redis hw t now).symm
  | some t' =>
    obtain rfl := dropStart_key.mp htoken
    show _ = (LeaseOp.grant t' _ deadline).apply (s.sessions w) t now
    rw [LeaseOp.apply_grant]
    simp only [RedisSessionStore.key_injective.eq_iff]
    by_cases ht : t = t'
    · by_cases hnow : now < deadline <;> simp [ht, hnow, RedisEntry.live, RedisValue.session]
    · rw [if_neg ht, if_neg ht, sessions_redis hw]

/-- **The expiry of a key is the deadline of a session.** -/
theorem sessions_expire (hkeys : s.redis.Keyed) {key : String} {e : RedisEntry} {r : Redis}
    {deadline : Option Time} (he : s.redis.entry s.now key = some e)
    (hr : ∀ t now, r.session now t = if RedisSessionStore.key t = key then
        (if deadline.any (now < ·) then e.value.session else none) else s.redis.session now t) :
    (s.withRedis r).sessions w =
      (s.sessions w).after ((dropStart "session:" key).map fun t =>
        LeaseOp.move t s.now deadline).toList := by
  funext t now
  rw [sessions_redis hw, State.withRedis_redis, hr]
  cases htoken : dropStart "session:" key with
  | none =>
    rw [if_neg (key_ne_of_dropStart htoken t)]
    exact (sessions_redis hw t now).symm
  | some t' =>
    obtain rfl := dropStart_key.mp htoken
    show _ = (LeaseOp.move t' s.now deadline).apply (s.sessions w) t now
    rw [LeaseOp.apply_move]
    simp only [RedisSessionStore.key_injective.eq_iff]
    by_cases ht : t = t'
    · subst ht
      have hnow : s.redis.session s.now t = e.value.session := by
        rw [Redis.session_eq, he]
        rfl
      simp only [true_and, if_true, sessions_redis hw, hnow]
      cases hsession : e.value.session with
      | none => simp [hkeys.session_eq_none he hsession]
      | some p => by_cases hd : deadline.any (now < ·) = true <;> simp [hd, Option.filter]
    · simp [ht, sessions_redis hw]

/-- **A command does to the keys what it does to the leases.** -/
theorem sessions_of_command (hkeys : s.redis.Keyed) (c : RedisCommand) :
    (s.withRedis (c.exec s.now s.redis).2).sessions w =
      (s.sessions w).after (leaseOp w s.now ⟨.redis c, (c.exec s.now s.redis).1⟩).toList := by
  by_cases hr : s.redis.reachable = true
  · cases c with
    | connect =>
      rw [leaseOp_redis_read hw rfl]
      simp [RedisCommand.exec, hr]
    | get key =>
      rw [leaseOp_redis_read hw rfl]
      simp only [RedisCommand.exec, hr, Bool.not_true, Bool.false_eq_true, if_false]
      split <;> rfl
    | smembers key =>
      rw [leaseOp_redis_read hw rfl]
      simp only [RedisCommand.exec, hr, Bool.not_true, Bool.false_eq_true, if_false]
      split <;> rfl
    -- `SET EX` grants the lease, unless the time to live is refused.
    | setEx key p ttlSecs =>
      simp only [RedisCommand.exec, hr, Bool.not_true, Bool.false_eq_true, if_false]
      split
      · rw [leaseOp_redis hw]
        exact sessions_setEx hw key p _
      · rw [leaseOp_redis_error hw]
        rfl
    -- A set that is put under a session key ends the lease; a member for a session is refused.
    | sadd key member =>
      simp only [RedisCommand.exec, hr, Bool.not_true, Bool.false_eq_true, if_false]
      split
      · rw [leaseOp_redis hw]
        exact sessions_put_set hw
      · rw [leaseOp_redis hw]
        exact sessions_put_set hw
      · rw [leaseOp_redis_error hw]
        rfl
    | expire key secs =>
      simp only [RedisCommand.exec, hr, Bool.not_true, Bool.false_eq_true, if_false]
      split
      · rw [leaseOp_redis_error hw]
        rfl
      · split
        · -- There is nothing under the key.
          rename_i hentry
          rw [leaseOp_redis hw]
          funext t now
          show s.sessions w t now = _
          simp only [RedisCommand.leaseOp]
          cases htoken : dropStart "session:" key with
          | none => rfl
          | some t' =>
            obtain rfl := dropStart_key.mp htoken
            show _ = (LeaseOp.move t' s.now _).apply (s.sessions w) t now
            rw [LeaseOp.apply_move, if_neg]
            rintro ⟨rfl, hsome⟩
            rw [sessions_redis hw, Redis.session_eq, hentry] at hsome
            cases hsome
        · rename_i e hentry
          split
          · -- A deadline that has passed removes the entry, another one moves it.
            rename_i hsecs
            rw [leaseOp_redis hw]
            simp only [RedisCommand.leaseOp, if_pos hsecs]
            refine sessions_expire hw hkeys hentry fun t now => ?_
            rw [Redis.session_remove]
            simp
          · rename_i hsecs
            rw [leaseOp_redis hw]
            simp only [RedisCommand.leaseOp, if_neg hsecs]
            refine sessions_expire hw hkeys hentry fun t now => ?_
            obtain rfl : e.key = key := (Redis.entry_eq_some s.redis s.now hentry).2.1
            rw [Redis.session_put]
            rfl
    | del key =>
      simp only [RedisCommand.exec, hr, Bool.not_true, Bool.false_eq_true, if_false]
      rw [leaseOp_redis hw]
      exact sessions_remove hw key
  · -- Nothing happens when the server is out of reach.
    have hfail : ∀ c : RedisCommand, c.exec s.now s.redis = (.error "Connection refused", s.redis) := by
      intro c
      cases c <;> simp [RedisCommand.exec, hr]
    rw [hfail, leaseOp_redis_error hw]
    rfl

end RedisStore

/-! ### Exchanges -/

theorem sessions_congr {s' : State} (hdb : s'.db.sessions = s.db.sessions)
    (hentries : s'.redis.entries = s.redis.entries) : s'.sessions w = s.sessions w := by
  funext t now
  unfold State.sessions Redis.session Redis.entry
  rw [hdb, hentries]

theorem leaseOp_sql_error (now : Time) (x : Sql) (e : SqlError) :
    leaseOp w now ⟨.sql x, .error e⟩ = none := by
  unfold leaseOp
  cases w.sessionStore with
  | redis => rfl
  | postgres => cases x <;> rfl

theorem leaseOp_sql_other (now : Time) {x : Sql} (hx : ∀ q, x ≠ .sessions q) (r : x.Rows) :
    leaseOp w now ⟨.sql x, .ok r⟩ = none := by
  unfold leaseOp
  cases w.sessionStore with
  | redis => rfl
  | postgres =>
    cases x with
    | sessions q => exact absurd rfl (hx q)
    | _ => rfl

/-- A statement, in either deployment. -/
theorem handle_sessions_sql (x : Sql) :
    (handle w (.sql x) s).2.sessions w =
      (s.sessions w).after (leaseOp w s.now ⟨.sql x, (handle w (.sql x) s).1⟩).toList := by
  cases hexec : x.exec (s.sqlEnv w) s.db with
  | error e =>
    simp only [handle, hexec, State.afterSql, Except.map]
    rw [leaseOp_sql_error]
    exact sessions_congr rfl rfl
  | ok res =>
    obtain ⟨r, db'⟩ := res
    simp only [handle, hexec, State.afterSql, Except.map]
    by_cases hx : ∀ q, x ≠ .sessions q
    · rw [leaseOp_sql_other s.now hx]
      exact sessions_congr (Sql.exec_sessions hexec hx) rfl
    · obtain ⟨q, hq⟩ := not_forall_not.mp hx
      subst hq
      cases hw : w.sessionStore with
      | redis =>
        have hnone : leaseOp w s.now ⟨.sql (.sessions q), .ok r⟩ = none := by simp only [leaseOp, hw]
        rw [hnone]
        funext t now
        show State.sessions w _ t now = s.sessions w t now
        rw [sessions_redis hw, sessions_redis hw]
      | postgres =>
        rw [leaseOp_sql hw, ← sessions_of_exec hw hexec]
        exact sessions_congr rfl rfl

/-- Other requests leave the sessions alone. -/
theorem leaseOp_elsewhere (now : Time) {q : Request} (hsql : ∀ x, q ≠ .sql x)
    (hredis : ∀ c, q ≠ .redis c) (r : Reply q) : leaseOp w now ⟨q, r⟩ = none := by
  unfold leaseOp
  cases w.sessionStore with
  | postgres =>
    cases q with
    | sql x => exact absurd rfl (hsql x)
    | _ => rfl
  | redis =>
    cases q with
    | redis c => exact absurd rfl (hredis c)
    | _ => rfl

/-- **An exchange does to the store what it does to the leases.** -/
theorem handle_sessions (hkeys : s.redis.Keyed) (q : Request) :
    (handle w q s).2.sessions w =
      (s.sessions w).after (leaseOp w s.now ⟨q, (handle w q s).1⟩).toList := by
  cases q with
  | sql x => exact handle_sessions_sql x
  | redis c =>
    cases hw : w.sessionStore with
    | redis => exact sessions_of_command hw hkeys c
    | postgres =>
      have hnone : leaseOp w s.now ⟨.redis c, (handle w (.redis c) s).1⟩ = none := by
        simp only [leaseOp, hw]
      rw [hnone]
      funext t now
      show State.sessions w _ t now = s.sessions w t now
      rw [sessions_postgres hw, sessions_postgres hw]
      rfl
  | _ =>
    rw [leaseOp_elsewhere]
    · exact sessions_congr rfl rfl
    all_goals
      intro _ h
      cases h

/-- A key keeps its one entry. -/
theorem handle_keyed (hkeys : s.redis.Keyed) (q : Request) : (handle w q s).2.redis.Keyed := by
  cases q with
  | sql x =>
    have hsame : (handle w (.sql x) s).2.redis = s.redis := by
      simp only [handle, State.afterSql]
      split <;> rfl
    rw [hsame]
    exact hkeys
  | redis c => exact hkeys.exec c
  | _ => exact hkeys

/-- What an exchange grants, its request presents. -/
theorem presented_of_leaseOp {now deadline : Time} {e : Event authrs} {t : String} {l : FiledSession}
    (h : leaseOp w now e = some (.grant t l deadline)) : presented e.request = some l.payload := by
  unfold leaseOp at h
  split at h
  · rename_i q _ _
    cases q with
    | insert tenantId userId sessionToken ipAddress userAgent expiresAt payload =>
      simp only [SessionStmt.leaseOp, Option.bind_eq_bind, Option.bind_eq_some_iff] at h
      obtain ⟨T, -, t', -, p, rfl, hgrant⟩ := h
      obtain ⟨-, rfl, -⟩ := LeaseOp.grant.inj (Option.some.inj hgrant)
      rfl
    | _ => cases h
  · rename_i c _ _
    cases c with
    | setEx key p ttlSecs =>
      obtain ⟨t', -, hgrant⟩ := Option.map_eq_some_iff.mp h
      obtain ⟨-, rfl, -⟩ := LeaseOp.grant.inj hgrant
      rfl
    | expire key secs =>
      obtain ⟨t', -, hmove⟩ := Option.map_eq_some_iff.mp h
      cases hmove
    | _ => cases h
  · cases h

/-! ### Calls -/

/-- A look-up of the session behind a bearer token, or any other call of the service. -/
inductive LookupCall
  | validate (authorization : Option String)
  | other (p : Service Unit)

/-- **The call.** -/
def LookupCall.run (w : World) : LookupCall → Service (Option SessionPayload)
  | validate authorization => do
    let p ← sessionValidate w authorization
    pure (some p)
  | other p => do
    p
    pure none

/-- How a look-up answers: with the session, or with a refusal. -/
def lookupAnswer (found : Option SessionPayload) : Except Failure (Option SessionPayload) :=
  found.elim (.error (.error (.unauthorized "Invalid or expired session"))) fun p => .ok (some p)

/-- An exchange that looks a session up. -/
inductive LooksUp (w : World) (t : String) : Option SessionPayload → Event authrs → Prop
  | row {found : Option (Option SessionPayload)} : w.sessionStore = .postgres →
    LooksUp w t found.join ⟨.sql (.sessions (.get t)), .ok found⟩
  | key {found : Option SessionPayload} : w.sessionStore = .redis →
    LooksUp w t found ⟨.redis (.get (RedisSessionStore.key t)), .ok found⟩

/-- **What a look-up has done when it has answered**: its last exchange has looked up the token of the
header. -/
def LookedUp (w : World) (authorization : Option String) (h : List (Event authrs))
    (o : Except Failure (Option SessionPayload)) : Prop :=
  ∀ found, o = lookupAnswer found → ∃ t e older, bearerToken authorization = .pure t ∧ h = e :: older ∧
    LooksUp w t found e

/-- The contract that asks for nothing. -/
abbrev noContract : Contract authrs := .ofGuarantee fun _ _ => True

/-- Another failure than the refusal is no answer. -/
theorem lookedUp_of_failure {authorization : Option String} {h : List (Event authrs)} {e : Failure}
    (he : e ≠ .error (.unauthorized "Invalid or expired session")) :
    LookedUp w authorization h (.error e) := by
  intro found hfound
  cases found with
  | none => exact absurd (Except.error.inj hfound) he
  | some p => cases hfound

/-- A header without a token is refused with another text. -/
theorem bearerToken_ne_throw {authorization : Option String} : bearerToken authorization ≠
    Program.throw (.error (.unauthorized "Invalid or expired session")) := by
  intro h
  cases authorization with
  | none =>
    have htexts : Failure.error (.unauthorized "Missing Authorization header") =
        .error (.unauthorized "Invalid or expired session") := Program.throw.inj h
    simp at htexts
  | some auth =>
    change Service.okOr (dropStart "Bearer " auth) _ = _ at h
    cases hdrop : dropStart "Bearer " auth with
    | some t =>
      rw [hdrop] at h
      cases h
    | none =>
      rw [hdrop] at h
      have htexts : Failure.error (.unauthorized "Invalid Authorization header") =
          .error (.unauthorized "Invalid or expired session") := Program.throw.inj h
      simp at htexts

/-- **A look-up ends with its exchange.** -/
theorem validate_lookedUp (w : World) (authorization : Option String) :
    ((LookupCall.validate authorization).run w).Keeps noContract (LookedUp w authorization) [] := by
  cases hbearer : bearerToken authorization with
  | ask q k =>
    -- The header is read without a request.
    exfalso
    cases authorization with
    | none => cases hbearer
    | some auth =>
      change Service.okOr (dropStart "Bearer " auth) _ = _ at hbearer
      cases hdrop : dropStart "Bearer " auth <;> rw [hdrop] at hbearer <;> cases hbearer
  | throw e =>
    have hrun : (LookupCall.validate authorization).run w = Program.throw e := by
      show ((bearerToken authorization).bind _).bind _ = _
      rw [hbearer]
      rfl
    rw [hrun]
    apply lookedUp_of_failure
    rintro rfl
    exact bearerToken_ne_throw hbearer
  | pure t =>
    have hrun : (LookupCall.validate authorization).run w = (SessionStore.get w t).bind fun found =>
        (Service.okOr found (.unauthorized "Invalid or expired session")).bind fun p =>
          .pure (some p) := by
      show ((bearerToken authorization).bind _).bind _ = _
      rw [hbearer, Program.pure_bind]
      exact Program.bind_assoc _ _ _
    rw [hrun]
    have hanswer : ∀ {found : Option SessionPayload} {e : Event authrs} {older : List (Event authrs)},
        LooksUp w t found e → ((Service.okOr found (.unauthorized "Invalid or expired session")).bind
          fun p => (.pure (some p) : Service (Option SessionPayload))).Keeps noContract
            (LookedUp w authorization) (e :: older) := by
      intro found e older hlook
      cases found with
      | none =>
        intro found' hfound
        cases found' with
        | none => exact ⟨t, e, older, hbearer, rfl, hlook⟩
        | some p => cases hfound
      | some p =>
        intro found' hfound
        cases found' with
        | none => cases hfound
        | some q =>
          obtain rfl := Option.some.inj (Except.ok.inj hfound)
          exact ⟨t, e, older, hbearer, rfl, hlook⟩
    cases hw : w.sessionStore with
    | postgres =>
      have hget : SessionStore.get w t = PostgresSessionStore.get t := by
        unfold SessionStore.get
        rw [hw]
      rw [hget]
      refine fun reply _ => ⟨trivial, ?_⟩
      cases reply with
      | error e => exact lookedUp_of_failure (by cases e <;> simp [AppError.ofSqlError])
      | ok found => exact hanswer (.row hw)
    | redis =>
      have hget : SessionStore.get w t = RedisSessionStore.get t := by
        unfold SessionStore.get
        rw [hw]
      rw [hget]
      refine fun connected _ => ⟨trivial, ?_⟩
      cases connected with
      | error e => exact lookedUp_of_failure (by simp)
      | ok u =>
        refine fun reply _ => ⟨trivial, ?_⟩
        cases reply with
        | error e => exact lookedUp_of_failure (by simp)
        | ok found => exact hanswer (.key hw)

/-- **A look-up finds what the state holds.** -/
theorem looksUp_sessions {t : String} {found : Option SessionPayload} {q : Request}
    (h : LooksUp w t found ⟨q, (handle w q s).1⟩) :
    (s.sessions w t s.now).map FiledSession.payload = found := by
  generalize hreply : (handle w q s).1 = reply at h
  cases h with
  | row hw =>
    obtain rfl := Except.ok.inj hreply
    apply Option.ext
    intro p
    have hexec : ((SessionStore.get w t).exec (handle w) s).1 = .ok
        ((s.db.sessions.selectOne fun r => r.sessionToken = t && !r.revoked &&
          s.now < r.expiresAt).map (·.payload)).join := by
      unfold SessionStore.get
      rw [hw]
      rfl
    have hreturns := returns_iff_sessions (w := w) (s := s) (t := t) (p := p)
    unfold Returns at hreturns
    rw [hexec, and_iff_right (show s.Answers w from fun h => by rw [hw] at h; cases h)] at hreturns
    rw [Option.map_eq_some_iff, ← hreturns]
    exact ⟨Except.ok.inj, congrArg Except.ok⟩
  | key hw =>
    rw [sessions_redis hw, Option.map_map]
    have hsession : s.redis.session s.now t = found := by
      change (RedisCommand.exec s.now s.redis (.get (RedisSessionStore.key t))).1 = _ at hreply
      simp only [RedisCommand.exec] at hreply
      unfold Redis.session
      split at hreply
      · cases hreply
      · split at hreply
        · rename_i hentry
          simp only [hentry]
          exact Except.ok.inj hreply
        · rename_i hentry
          simp only [hentry]
          exact Except.ok.inj hreply
        · cases hreply
    rw [hsession]
    exact Option.map_id'

/-! ### Runs -/

/-- What goes on besides the calls: time passes, Redis comes and goes, other tables change. -/
structure SessionsElsewhere where
  act : State → State
  sessions : ∀ s, (act s).db.sessions = s.db.sessions
  entries : ∀ s, (act s).redis.entries = s.redis.entries

variable {ι : Type}

/-- What a record has done to the sessions, newest first. -/
def leaseOps (w : World) (log : List (Move authrs ι State)) : List (LeaseOp String FiledSession Time) :=
  log.filterMap fun m => leaseOp w m.before.now m.event

theorem leaseOps_cons (m : Move authrs ι State) (log : List (Move authrs ι State)) :
    leaseOps w (m :: log) = (leaseOp w m.before.now m.event).toList ++ leaseOps w log := by
  unfold leaseOps
  rw [List.filterMap_cons]
  cases leaseOp w m.before.now m.event <;> rfl

theorem leaseOps_append (newer older : List (Move authrs ι State)) :
    leaseOps w (newer ++ older) = leaseOps w newer ++ leaseOps w older := List.filterMap_append

/-- What has been done, a move has done. -/
theorem leaseOps_split {log : List (Move authrs ι State)}
    {newer older : List (LeaseOp String FiledSession Time)} {op : LeaseOp String FiledSession Time}
    (h : leaseOps w log = newer ++ op :: older) :
    ∃ n m o, log = n ++ m :: o ∧ leaseOp w m.before.now m.event = some op ∧ leaseOps w n = newer := by
  obtain ⟨n, rest, rfl, hn, hrest⟩ := List.filterMap_eq_append_iff.mp h
  obtain ⟨skipped, m, o, rfl, hskipped, hm, -⟩ := List.filterMap_eq_cons_iff.mp hrest
  refine ⟨n ++ skipped, m, o, by simp, hm, ?_⟩
  rw [leaseOps_append]
  have hnone : leaseOps w skipped = [] := List.filterMap_eq_nil_iff.mpr hskipped
  rw [hnone, List.append_nil]
  exact hn

variable [DecidableEq ι]

/-- The calls, side by side. -/
abbrev lookupRun (w : World) (s : State) (call : ι → LookupCall) (l : List (ι ⊕ SessionsElsewhere)) :
    Config authrs Failure (Option SessionPayload) ι State :=
  (Config.start s fun i => (call i).run w).run (handle w) SessionsElsewhere.act l

/-- **The session store is a store of leases.** What the state holds is what the record has made of the
leases at the start. A look-up answers as they were at its last exchange, with the session or with a
refusal. What is returned has been stored under its token, or was there, and not removed since; and what
has been stored is returned until its deadline, unless something is done about it. -/
structure LeasesSessions (w : World) (s : State) (call : ι → LookupCall)
    (c : Config authrs Failure (Option SessionPayload) ι State) : Prop where
  sessions : c.state.sessions w = (s.sessions w).after (leaseOps w c.log)
  lookup : ∀ i authorization found, call i = .validate authorization →
    c.threads i = .ofExcept (lookupAnswer found) → ∃ t newer m older,
      bearerToken authorization = .pure t ∧ c.log = newer ++ m :: older ∧ m.who = i ∧
        own i newer = [] ∧
        ((s.sessions w).after (leaseOps w older) t m.before.now).map FiledSession.payload = found
  origin : ∀ t p, Returns w c.state t p → ∃ l : FiledSession, l.payload = p ∧
    (((∃ now, s.sessions w t now = some l) ∧ ∀ op ∈ leaseOps w c.log, ¬ op.Removes t l) ∨
      ∃ newer m older, c.log = newer ++ m :: older ∧ presented m.event.request = some p ∧
        (∃ d, leaseOp w m.before.now m.event = some (.grant t l d)) ∧
          ∀ op ∈ leaseOps w newer, ¬ op.Removes t l)
  lasting : ∀ newer m older t l d, c.log = newer ++ m :: older →
    leaseOp w m.before.now m.event = some (.grant t l d) → (∀ op ∈ leaseOps w newer, op.Spares t l) →
      (Returns w c.state t l.payload ↔ c.state.Answers w ∧ c.state.now < d)

/-- The invariant: keys have one entry, and the state holds what the record has made of the leases. -/
theorem lookupRun_sessions {call : ι → LookupCall} (hkeys : s.redis.Keyed)
    (l : List (ι ⊕ SessionsElsewhere)) :
    (lookupRun w s call l).state.redis.Keyed ∧ (lookupRun w s call l).state.sessions w =
      (s.sessions w).after (leaseOps w (lookupRun w s call l).log) := by
  have hstart : (Config.start (ι := ι) s fun i => (call i).run w).state.redis.Keyed ∧
      (Config.start (ι := ι) s fun i => (call i).run w).state.sessions w = (s.sessions w).after
        (leaseOps w (Config.start s fun i => (call i).run w).log) := ⟨hkeys, rfl⟩
  refine Config.run_induction (J := fun c : Config authrs Failure (Option SessionPayload) ι State =>
    c.state.redis.Keyed ∧ c.state.sessions w = (s.sessions w).after (leaseOps w c.log)) hstart ?_ ?_ l
  · -- A move adds what its exchange does to the leases.
    rintro c i q k ⟨hkeyed, hsessions⟩ -
    refine ⟨handle_keyed hkeyed q, ?_⟩
    show (handle w q c.state).2.sessions w = (s.sessions w).after (leaseOps w (_ :: c.log))
    rw [handle_sessions hkeyed, hsessions, leaseOps_cons, Leases.after_append]
  · -- The surroundings touch neither the rows nor the keys.
    rintro c t ⟨hkeyed, hsessions⟩
    constructor
    · show (t.act c.state).redis.Keyed
      unfold Redis.Keyed
      rw [t.entries]
      exact hkeyed
    · exact (sessions_congr (t.sessions c.state) (t.entries c.state)).trans hsessions

/-- A call keeps the contract that asks for nothing. -/
theorem keeps_noContract {α : Type} (p : Service α) (h : List (Event authrs)) :
    p.Keeps noContract (fun _ _ => True) h := by
  induction p generalizing h with
  | pure a => trivial
  | throw e => trivial
  | ask q k ih => exact fun r _ => ⟨trivial, ih r _⟩

/-- What a call has done when it has ended, if it is a look-up. -/
def LookupCall.Concludes (w : World) (call : LookupCall) (h : List (Event authrs))
    (o : Except Failure (Option SessionPayload)) : Prop :=
  ∀ authorization, call = .validate authorization → LookedUp w authorization h o

theorem LookupCall.keeps (w : World) (call : LookupCall) :
    (call.run w).Keeps noContract (call.Concludes w) [] := by
  cases call with
  | validate authorization =>
    refine (validate_lookedUp w authorization).weaken fun h o hlooked => ?_
    rintro authorization' hcall
    obtain rfl := LookupCall.validate.inj hcall
    exact hlooked
  | other p =>
    refine (keeps_noContract _ []).weaken fun h o _ => ?_
    rintro authorization' ⟨⟩

/-- The last exchange of a call is a move of the record, and the call has made none since. -/
theorem own_eq_cons {i : ι} {e : Event authrs} {log : List (Move authrs ι State)}
    {older : List (Event authrs)} (h : own i log = e :: older) :
    ∃ n m o, log = n ++ m :: o ∧ m.who = i ∧ m.event = e ∧ own i n = [] := by
  obtain ⟨n, m, o, rfl, hwho, hevent, hown⟩ := own_split (show own i log = [] ++ e :: older from h)
  refine ⟨n, m, o, rfl, hwho, hevent, ?_⟩
  obtain ⟨j, e', s⟩ := m
  obtain rfl : j = i := hwho
  rw [own_append, own_cons_self, hown, show e' = e from hevent] at h
  exact List.append_left_eq_self.mp h

/-- **A look-up answers as the leases were at its last exchange.** -/
theorem lookupRun_lookup {call : ι → LookupCall} (hkeys : s.redis.Keyed)
    (l : List (ι ⊕ SessionsElsewhere)) {i : ι} {authorization : Option String}
    {found : Option SessionPayload} (hcall : call i = .validate authorization)
    (hended : (lookupRun w s call l).threads i = .ofExcept (lookupAnswer found)) :
    ∃ t newer m older, bearerToken authorization = .pure t ∧
      (lookupRun w s call l).log = newer ++ m :: older ∧ m.who = i ∧ own i newer = [] ∧
        ((s.sessions w).after (leaseOps w older) t m.before.now).map FiledSession.payload = found := by
  have hkept : (lookupRun w s call l).Kept (fun _ => noContract) fun i => (call i).Concludes w :=
    Config.run_keeps (fun i => (call i).keeps w) (fun _ _ _ => trivial) l
  have hlooked : (call i).Concludes w (own i (lookupRun w s call l).log) (lookupAnswer found) := by
    have hi := hkept i
    rw [hended] at hi
    exact (Program.keeps_ofExcept _).mp hi
  -- Its own history ends with the exchange, which is a move of the record.
  obtain ⟨t, e, older, hbearer, hown, hlook⟩ := hlooked authorization hcall found rfl
  obtain ⟨newer, m, o, hlog, hwho, rfl, hnone⟩ := own_eq_cons hown
  refine ⟨t, newer, m, o, hbearer, hlog, hwho, hnone, ?_⟩
  -- The schedule up to the exchange has made the state that the exchange was answered from.
  obtain ⟨l', -, -, hlog', hstate, -, hreply⟩ := Config.run_log_split l hlog
  have hbefore : (lookupRun w s call l').state.sessions w =
      (s.sessions w).after (leaseOps w (lookupRun w s call l').log) := (lookupRun_sessions hkeys l').2
  rw [hlog', hstate] at hbefore
  rw [← hbefore]
  apply looksUp_sessions (q := m.event.request)
  rw [← hreply]
  exact hlook

/-- **What is returned has been stored under its token.** -/
theorem lookupRun_origin {call : ι → LookupCall} (hkeys : s.redis.Keyed)
    (l : List (ι ⊕ SessionsElsewhere)) {t : String} {p : SessionPayload}
    (hp : Returns w (lookupRun w s call l).state t p) : ∃ x : FiledSession, x.payload = p ∧
      (((∃ now, s.sessions w t now = some x) ∧
          ∀ op ∈ leaseOps w (lookupRun w s call l).log, ¬ op.Removes t x) ∨
        ∃ newer m older, (lookupRun w s call l).log = newer ++ m :: older ∧
          presented m.event.request = some p ∧
            (∃ d, leaseOp w m.before.now m.event = some (.grant t x d)) ∧
              ∀ op ∈ leaseOps w newer, ¬ op.Removes t x) := by
  obtain ⟨-, x, hx, rfl⟩ := returns_iff_sessions.mp hp
  rw [(lookupRun_sessions hkeys l).2] at hx
  refine ⟨x, rfl, ?_⟩
  rcases Leases.granted_of_after hx with hstart | ⟨newer, op, older, hsplit, hgrants, hkept⟩
  · exact .inl hstart
  · cases op with
    | grant k a d =>
      obtain ⟨rfl, rfl⟩ := hgrants
      -- Only a move can have granted it, and what a move grants it has presented.
      obtain ⟨n, m, o, hlog, hm, rfl⟩ := leaseOps_split hsplit
      exact .inr ⟨n, m, o, hlog, presented_of_leaseOp hm, ⟨d, hm⟩, hkept⟩
    | move k now d => cases hgrants
    | drop q => cases hgrants

/-- **What has been stored is returned until its deadline**, if later exchanges spare it. -/
theorem lookupRun_lasting {call : ι → LookupCall} (hkeys : s.redis.Keyed)
    (l : List (ι ⊕ SessionsElsewhere)) {newer older : List (Move authrs ι State)}
    {m : Move authrs ι State} {t : String} {x : FiledSession} {d : Time}
    (hlog : (lookupRun w s call l).log = newer ++ m :: older)
    (hm : leaseOp w m.before.now m.event = some (.grant t x d))
    (hspared : ∀ op ∈ leaseOps w newer, op.Spares t x) :
    Returns w (lookupRun w s call l).state t x.payload ↔
      (lookupRun w s call l).state.Answers w ∧ (lookupRun w s call l).state.now < d := by
  have hheld : (lookupRun w s call l).state.sessions w t (lookupRun w s call l).state.now =
      if (lookupRun w s call l).state.now < d then some x else none := by
    rw [(lookupRun_sessions hkeys l).2, hlog, leaseOps_append, leaseOps_cons, hm]
    exact Leases.after_of_granted hspared
  rw [returns_iff_sessions, hheld]
  refine and_congr_right fun _ => ?_
  constructor
  · rintro ⟨x', hx', -⟩
    split at hx'
    · assumption
    · cases hx'
  · intro hnow
    exact ⟨x, if_pos hnow, rfl⟩

/-- **The session store is a store of leases**, in every run of any calls, side by side. -/
theorem run_leasesSessions (w : World) (s : State) (hkeys : s.redis.Keyed) (call : ι → LookupCall)
    (l : List (ι ⊕ SessionsElsewhere)) : LeasesSessions w s call (lookupRun w s call l) where
  sessions := (lookupRun_sessions hkeys l).2
  lookup _ _ _ hcall hended := lookupRun_lookup hkeys l hcall hended
  origin _ _ hp := lookupRun_origin hkeys l hp
  lasting _ _ _ _ _ _ hlog hm hspared := lookupRun_lasting hkeys l hlog hm hspared

/-- A deployment with Redis. -/
def World.onRedis : World := { World.offline with sessionStore := .redis }

/-- A session that Redis holds. -/
def leasedSession : SessionPayload :=
  ⟨"acme", 1, 7, [], [], [], [], [], none, none, seconds 3600⟩

/-- Nothing but this session. -/
def oneLease : State :=
  { State.ofDb Db.empty 0 with
    redis := ⟨true, [⟨"session:x", .payload leasedSession, some (seconds 3600)⟩]⟩ }

/-- One call looks the session up, and another ends it. -/
def lookUpAndLeave (visits : Bool) : LookupCall :=
  cond visits (.validate (some "Bearer x")) (.other (logout .onRedis (some "Bearer x")))

/-- Who asks first still gets the session, and it is gone after that. -/
theorem run_leasesSessions_lookUpAndLeave :
    LeasesSessions .onRedis oneLease lookUpAndLeave (lookupRun .onRedis oneLease lookUpAndLeave
        [.inl true, .inl false, .inl true, .inl false]) ∧
      (lookupRun .onRedis oneLease lookUpAndLeave
        [.inl true, .inl false, .inl true, .inl false]).threads true = .pure (some leasedSession) ∧
      (lookupRun .onRedis oneLease lookUpAndLeave
        [.inl true, .inl false, .inl true, .inl false]).state.sessions .onRedis "x" 0 = none :=
  ⟨run_leasesSessions .onRedis oneLease (List.nodup_singleton _) lookUpAndLeave _,
    by with_unfolding_all rfl, by with_unfolding_all rfl⟩

end Authrs
