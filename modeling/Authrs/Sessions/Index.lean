import Authrs.Sessions.Stores
import Authrs.Interaction.Serial

/-!
# The index sets of the Redis store

Logging out everywhere finds the sessions of a user by the user's index set, which has an expiry of
its own. Each new session overwrites it, with a day more than its own lifetime. When a session's
lifetime is more than a day shorter than what another one has left, the index set expires first, and
the longer session can no longer be found. Where no store shortens the index set below a session that
is still live, every live session is listed.

## Main definitions

* `StoreCall`, `nextCall`: a call of the store, made after some time
* `Indexed`: every live session is listed by the index set of its user
* `KeepsIndex`: a call leaves the index set an expiry that no live session outlasts
* `Covered`: the invariant

## Main results

* `exec_set`: a store run alone
* `Covered.call`: every call that keeps the index keeps the invariant
* `run_indexed`: in runs of such calls every live session is listed, and deleted with its user's
* `shorterSession_unlisted`: a short session after a long one
-/

namespace Authrs

open Interaction

/-! ### Calls -/

/-- A call of `RedisSessionStore` that writes. -/
inductive StoreCall
  | set (sessionToken : String) (payload : SessionPayload) (ttlSecs : Nat)
  | delete (sessionToken : String)
  | deleteAllForUser (tenantId : String) (userId : Uuid)

/-- The call, with its result dropped. -/
def StoreCall.run (w : World) : StoreCall → Service Unit
  | set sessionToken payload ttlSecs => RedisSessionStore.set w sessionToken payload ttlSecs
  | delete sessionToken => do
    let _ ← RedisSessionStore.delete sessionToken
    pure ()
  | deleteAllForUser tenantId userId => do
    let _ ← RedisSessionStore.deleteAllForUser tenantId userId
    pure ()

/-- The state after a call that is made some time later. -/
def nextCall (w : World) (s : State) (c : Nat × StoreCall) : State :=
  ((c.2.run w).exec (handle w) (s.tick c.1)).2

/-- **Every live session is listed** by the index set of its user. -/
def Indexed (r : Redis) (now : Time) : Prop :=
  ∀ t p, r.session now t = some p → t ∈ r.indexed now p.tenantId p.userId

/-! ### A store -/

namespace Redis

/-- The expiry of an index set after a store: `EXPIRE` refuses more than Redis can count to, and
then the set keeps the expiry that it has. -/
def indexExpiry (r : Redis) (now : Time) (p : SessionPayload) (ttlSecs : Nat) : Option Time :=
  if ttlSecs + 86400 ≤ maxExpireSecs then some (now + seconds ((ttlSecs + 86400 : Nat) : Int))
  else (r.entry now (RedisSessionStore.userSetKey p.tenantId p.userId)).bind (·.expiresAt)

/-- The members of an index set once a token is added. -/
def withMember (members : List String) (t : String) : List String :=
  if t ∈ members then members else t :: members

theorem mem_withMember {members : List String} {t t' : String} :
    t' ∈ withMember members t ↔ t' = t ∨ t' ∈ members := by
  unfold withMember
  split
  · rename_i h
    constructor
    · exact .inr
    · rintro (rfl | h')
      · exact h
      · exact h'
  · exact List.mem_cons

/-- The server after a store. -/
def afterSet (r : Redis) (now : Time) (t : String) (p : SessionPayload) (ttlSecs : Nat) : Redis :=
  if 0 < ttlSecs ∧ ttlSecs ≤ maxExpireSecs then
    (r.put ⟨RedisSessionStore.key t, .payload p, some (now + seconds ttlSecs)⟩).put
      ⟨RedisSessionStore.userSetKey p.tenantId p.userId,
        .set (withMember (r.indexed now p.tenantId p.userId) t), r.indexExpiry now p ttlSecs⟩
  else r

variable {r : Redis} {now : Time} {e e' : RedisEntry}

/-- The later value under a key replaces the earlier one. -/
theorem put_put (h : e.key = e'.key) : (r.put e).put e' = r.put e' := by
  unfold put
  simp only [h, List.filter_cons, ne_eq, not_true_eq_false, decide_false, Bool.false_eq_true,
    if_false, List.filter_filter, Bool.and_self]

end Redis

theorem RedisSessionStore.asI64_of_lt {n : Nat} (h : n < 2 ^ 63) : asI64 n = n := by
  unfold asI64
  rw [BitVec.toInt_eq_toNat_of_lt]
  · rw [BitVec.toNat_ofNat, Nat.mod_eq_of_lt (by omega)]
  · rw [BitVec.toNat_ofNat, Nat.mod_eq_of_lt (by omega)]
    omega

namespace Redis

variable {r : Redis} {now : Time} {tenantId t : String} {userId : Uuid}

/-- A token is added to an index set, which keeps its expiry. -/
theorem exec_sadd (hr : r.reachable = true) (hlist : r.listable now tenantId userId) :
    RedisCommand.exec now r (.sadd (RedisSessionStore.userSetKey tenantId userId) t) =
      (.ok (), r.put ⟨RedisSessionStore.userSetKey tenantId userId,
        .set (withMember (r.indexed now tenantId userId) t),
          (r.entry now (RedisSessionStore.userSetKey tenantId userId)).bind (·.expiresAt)⟩) := by
  simp only [RedisCommand.exec, hr, Bool.not_true, Bool.false_eq_true, if_false]
  unfold listable at hlist
  unfold indexed
  rcases he : r.entry now (RedisSessionStore.userSetKey tenantId userId) with _ | ⟨k, v, x⟩
  · rfl
  · cases v with
    | payload q => exact absurd rfl (hlist _ he q)
    | set members => rfl

/-- An expiry is given to a key that exists. -/
theorem exec_expire {k : String} {e : RedisEntry} {secs : Int} (hr : r.reachable = true)
    (he : r.entry now k = some e) (hsecs : 0 < secs) :
    (RedisCommand.exec now r (.expire k secs)).2 =
      if maxExpireSecs < secs then r
      else r.put { e with expiresAt := some (now + seconds secs) } := by
  simp only [RedisCommand.exec, hr, Bool.not_true, Bool.false_eq_true, if_false, he,
    if_neg (not_le.mpr hsecs)]
  split <;> rfl

end Redis

/-- **A store run alone**, when no session is in the place of the index set. -/
theorem exec_set (w : World) {s : State} {t : String} {p : SessionPayload} (ttlSecs : Nat)
    (hr : s.redis.reachable = true) (hlist : s.redis.listable s.now p.tenantId p.userId) :
    ((RedisSessionStore.set w t p ttlSecs).exec (handle w) s).2 =
      s.withRedis (s.redis.afterSet s.now t p ttlSecs) := by
  unfold RedisSessionStore.set Redis.afterSet
  rw [Program.bind_eq, Program.exec_bind, exec_redis]
  simp only [RedisCommand.exec, hr, if_true, Except.mapError, State.withRedis_self]
  rw [Program.bind_eq, Program.exec_bind, exec_redis]
  simp only [RedisCommand.exec, hr, Bool.not_true, Bool.false_eq_true, if_false]
  by_cases httl : 0 < ttlSecs ∧ ttlSecs ≤ maxExpireSecs
  · simp only [if_pos httl, Except.mapError]
    -- The index set is where it was, under another key.
    have hentry : (s.redis.put ⟨RedisSessionStore.key t, .payload p,
        some (s.now + seconds ttlSecs)⟩).entry s.now
          (RedisSessionStore.userSetKey p.tenantId p.userId) =
        s.redis.entry s.now (RedisSessionStore.userSetKey p.tenantId p.userId) := by
      rw [Redis.entry_put, if_neg (RedisSessionStore.key_ne_userSetKey _ _ _).symm]
    have hindexed : (s.redis.put ⟨RedisSessionStore.key t, .payload p,
        some (s.now + seconds ttlSecs)⟩).indexed s.now p.tenantId p.userId =
        s.redis.indexed s.now p.tenantId p.userId := by
      unfold Redis.indexed
      rw [hentry]
    rw [Program.bind_eq, Program.exec_bind, exec_redis]
    simp only [State.withRedis_now, State.withRedis_redis]
    rw [Redis.exec_sadd (by simpa using hr) (by unfold Redis.listable; rwa [hentry]), hindexed, hentry]
    simp only [Except.mapError, State.withRedis_withRedis]
    have hmax : maxExpireSecs + 86400 < 2 ^ 63 := by decide
    have haddDay : RedisSessionStore.addDay w ttlSecs = Program.pure (ttlSecs + 86400) := by
      unfold RedisSessionStore.addDay
      exact if_pos (by omega)
    rw [Program.bind_eq, haddDay, Program.pure_bind, RedisSessionStore.asI64_of_lt (by omega),
      exec_redis]
    dsimp only
    simp only [State.withRedis_withRedis, State.withRedis_redis, State.withRedis_now]
    have hlive : RedisEntry.live ⟨RedisSessionStore.userSetKey p.tenantId p.userId,
        .set (Redis.withMember (s.redis.indexed s.now p.tenantId p.userId) t),
          (s.redis.entry s.now (RedisSessionStore.userSetKey p.tenantId p.userId)).bind
            (·.expiresAt)⟩ s.now = true := by
      unfold RedisEntry.live
      cases he : s.redis.entry s.now (RedisSessionStore.userSetKey p.tenantId p.userId) with
      | none => rfl
      | some e => exact (Redis.entry_eq_some _ _ he).2.2
    have hsecs : 0 < ((ttlSecs + 86400 : Nat) : Int) := Int.natCast_pos.mpr (Nat.succ_pos _)
    rw [Redis.exec_expire (by simpa using hr) (by rw [Redis.entry_put, if_pos rfl, if_pos hlive])
      hsecs]
    unfold Redis.indexExpiry
    by_cases hday : ttlSecs + 86400 ≤ maxExpireSecs
    · rw [if_neg (not_lt.mpr (Int.ofNat_le.mpr hday)), if_pos hday]
      exact congrArg s.withRedis (Redis.put_put rfl)
    · rw [if_pos (Int.ofNat_lt.mpr (not_le.mp hday)), if_neg hday]
  · simp only [if_neg httl, Except.mapError, State.withRedis_self]

/-! ### The invariant -/

/-- The entry does not expire before the other one. -/
def RedisEntry.outlasts (x e : RedisEntry) : Prop :=
  ∀ y, x.expiresAt = some y → ∃ z, e.expiresAt = some z ∧ z ≤ y

theorem RedisEntry.outlasts.live {x e : RedisEntry} (h : x.outlasts e) {now : Time}
    (he : e.live now = true) : x.live now = true := by
  unfold RedisEntry.live at he ⊢
  rw [Option.all_eq_true] at he ⊢
  intro y hy
  obtain ⟨z, hz, hzy⟩ := h y hy
  have hnow : now < z := by simpa using he z hz
  exact decide_eq_true (hnow.trans_le hzy)

/-- **The invariant of the store**: each key is used once, sessions are under their own keys, and a
live session is listed by an index set that it does not outlast. -/
structure Covered (r : Redis) (now : Time) : Prop where
  nodup : (r.entries.map (·.key)).Nodup
  keyed : ∀ e ∈ r.entries, ∀ p, e.value = .payload p → ∃ t, e.key = RedisSessionStore.key t
  indexed : ∀ t e p, r.entry now (RedisSessionStore.key t) = some e → e.value = .payload p →
    ∃ x members, r.entry now (RedisSessionStore.userSetKey p.tenantId p.userId) = some x ∧
      x.value = .set members ∧ t ∈ members ∧ x.outlasts e

/-- A call keeps the index: a store that Redis accepts leaves the index set an expiry that neither
the new session nor another live one of the user outlasts. -/
def KeepsIndex (s : State) : StoreCall → Prop
  | .set t p ttlSecs => 0 < ttlSecs → ttlSecs ≤ maxExpireSecs →
    ∀ y, s.redis.indexExpiry s.now p ttlSecs = some y →
      s.now + seconds ttlSecs ≤ y ∧
      ∀ t' e p', t' ≠ t → s.redis.entry s.now (RedisSessionStore.key t') = some e →
        e.value = .payload p' → p'.tenantId = p.tenantId → p'.userId = p.userId →
          ∃ z, e.expiresAt = some z ∧ z ≤ y
  | _ => True

namespace Redis

variable {r : Redis} {now now' : Time} {k : String} {e : RedisEntry}

/-- Where each key is used once, a lookup finds the live entry under it. -/
theorem entry_iff (hr : (r.entries.map (·.key)).Nodup) :
    r.entry now k = some e ↔ e ∈ r.entries ∧ e.key = k ∧ e.live now = true := by
  constructor
  · exact entry_eq_some r now
  · rintro ⟨he, hkey, hlive⟩
    have hfound : (r.entry now k).isSome = true := by
      unfold entry
      rw [List.find?_isSome]
      refine ⟨e, he, ?_⟩
      simpa [RedisEntry.live, hkey] using hlive
    obtain ⟨x, hx⟩ := Option.isSome_iff_exists.mp hfound
    obtain ⟨hmem, hxkey, -⟩ := entry_eq_some r now hx
    rw [hx, List.inj_on_of_nodup_map hr hmem he (hxkey.trans hkey.symm)]

/-- A live entry was live before. -/
theorem live_of_le {e : RedisEntry} (hle : now ≤ now')
    (h : e.live now' = true) : e.live now = true := by
  unfold RedisEntry.live at h ⊢
  rw [Option.all_eq_true] at h ⊢
  intro y hy
  have hlt : now' < y := by simpa using h y hy
  exact decide_eq_true (hle.trans_lt hlt)

theorem nodup_remove (hr : (r.entries.map (·.key)).Nodup) (k : String) :
    ((r.remove k).entries.map (·.key)).Nodup :=
  hr.sublist (List.filter_sublist.map _)

theorem nodup_put (hr : (r.entries.map (·.key)).Nodup) (e : RedisEntry) :
    ((r.put e).entries.map (·.key)).Nodup := by
  unfold put
  rw [List.map_cons, List.nodup_cons]
  refine ⟨?_, nodup_remove hr e.key⟩
  intro h
  obtain ⟨x, hx, hkey⟩ := List.mem_map.mp h
  simp [hkey] at hx

theorem cleared_sublist (r : Redis) (now : Time) (tenantId : String) (userId : Uuid) :
    (r.cleared now tenantId userId).entries.Sublist r.entries := by
  have hsub : ∀ (tokens : List String) (r : Redis),
      (tokens.foldl (fun r t => r.remove (RedisSessionStore.key t)) r).entries.Sublist
        r.entries := by
    intro tokens
    induction tokens with
    | nil => exact fun r => List.Sublist.refl _
    | cons t tokens ih => exact fun r => (ih _).trans List.filter_sublist
  exact List.filter_sublist.trans (hsub _ r)

end Redis

namespace Covered

variable {r : Redis} {now now' : Time}

/-- **Time passes**: what a session needs lives as long as the session. -/
theorem later (h : Covered r now) (hle : now ≤ now') : Covered r now' := by
  refine ⟨h.nodup, h.keyed, ?_⟩
  intro t e p he hp
  obtain ⟨hmem, hkey, hlive⟩ := (Redis.entry_iff h.nodup).mp he
  have hbefore := (Redis.entry_iff h.nodup).mpr ⟨hmem, hkey, Redis.live_of_le hle hlive⟩
  obtain ⟨x, members, hx, hset, ht, hlasts⟩ := h.indexed t e p hbefore hp
  obtain ⟨hxmem, hxkey, -⟩ := (Redis.entry_iff h.nodup).mp hx
  exact ⟨x, members, (Redis.entry_iff h.nodup).mpr ⟨hxmem, hxkey, hlasts.live hlive⟩, hset, ht,
    hlasts⟩

/-- No session is in the place of an index set. -/
theorem listable (h : Covered r now) (tenantId : String) (userId : Uuid) :
    r.listable now tenantId userId := by
  intro e he p hp
  obtain ⟨hmem, hkey, -⟩ := (Redis.entry_iff h.nodup).mp he
  obtain ⟨t, ht⟩ := h.keyed e hmem p hp
  exact RedisSessionStore.key_ne_userSetKey _ _ _ (ht.symm.trans hkey)

/-- The invariant lists every live session. -/
theorem lists (h : Covered r now) : Indexed r now := by
  intro t p hp
  obtain ⟨e, he, hvalue⟩ := Redis.session_eq_some.mp hp
  obtain ⟨x, members, hx, hset, ht, -⟩ := h.indexed t e p he hvalue
  exact Redis.mem_indexed.mpr ⟨x, members, hx, hset, ht⟩

/-- Removing a key that is no index set. -/
theorem remove (h : Covered r now) {k : String}
    (hk : ∀ tenantId userId, k ≠ RedisSessionStore.userSetKey tenantId userId) :
    Covered (r.remove k) now := by
  refine ⟨Redis.nodup_remove h.nodup k, fun e he => h.keyed e (List.mem_of_mem_filter he), ?_⟩
  intro t e p he hp
  rw [Redis.entry_remove] at he
  split at he
  · cases he
  · rw [Redis.entry_remove, if_neg (hk _ _).symm]
    exact h.indexed t e p he hp

/-- Deleting the sessions of a user. -/
theorem cleared (h : Covered r now) (tenantId : String) (userId : Uuid) :
    Covered (r.cleared now tenantId userId) now := by
  have hall := Redis.cleared_sublist r now tenantId userId
  refine ⟨h.nodup.sublist (hall.map _), fun e he => h.keyed e (hall.subset he), ?_⟩
  intro t e p he hp
  have hlive : t ∉ r.indexed now tenantId userId ∧
      r.entry now (RedisSessionStore.key t) = some e := by
    rw [Redis.entry_cleared] at he
    split at he
    · cases he
    · rename_i hne
      exact ⟨fun hlisted => hne (.inr ⟨t, hlisted, rfl⟩), he⟩
  obtain ⟨x, members, hx, hset, ht, hlasts⟩ := h.indexed t e p hlive.2 hp
  refine ⟨x, members, ?_, hset, ht, hlasts⟩
  rw [Redis.entry_userSetKey_cleared, if_neg]
  · exact hx
  · -- The sessions of the user were listed, so this is another one.
    rintro ⟨rfl, rfl⟩
    exact hlive.1 (Redis.mem_indexed.mpr ⟨x, members, hx, hset, ht⟩)

/-- **A store that keeps the index.** -/
theorem set (h : Covered r now) {t : String} {p : SessionPayload} {ttlSecs : Nat}
    (hkeeps : 0 < ttlSecs → ttlSecs ≤ maxExpireSecs → ∀ y, r.indexExpiry now p ttlSecs = some y →
      now + seconds ttlSecs ≤ y ∧
      ∀ t' e p', t' ≠ t → r.entry now (RedisSessionStore.key t') = some e →
        e.value = .payload p' → p'.tenantId = p.tenantId → p'.userId = p.userId →
          ∃ z, e.expiresAt = some z ∧ z ≤ y) :
    Covered (r.afterSet now t p ttlSecs) now := by
  unfold Redis.afterSet
  by_cases httl : 0 < ttlSecs ∧ ttlSecs ≤ maxExpireSecs
  · rw [if_pos httl]
    have hcond := hkeeps httl.1 httl.2
    refine ⟨Redis.nodup_put (Redis.nodup_put h.nodup _) _, ?_, ?_⟩
    · intro e he q hq
      rcases List.mem_cons.mp he with rfl | he
      · cases hq
      · rcases List.mem_cons.mp (List.mem_of_mem_filter he) with rfl | he
        · exact ⟨t, rfl⟩
        · exact h.keyed e (List.mem_of_mem_filter he) q hq
    · intro t' e p' he hp'
      rw [Redis.entry_put, if_neg (RedisSessionStore.key_ne_userSetKey _ _ _), Redis.entry_put] at he
      by_cases hpair : p'.tenantId = p.tenantId ∧ p'.userId = p.userId
      · -- The index set of the user is the new one.
        have hnew : t' ∈ Redis.withMember (r.indexed now p.tenantId p.userId) t ∧
            e.live now = true ∧ ∀ y, r.indexExpiry now p ttlSecs = some y →
              ∃ z, e.expiresAt = some z ∧ z ≤ y := by
          by_cases ht : t' = t
          · subst ht
            rw [if_pos rfl] at he
            split at he
            · rename_i hlive
              have hentry := Option.some.inj he
              have hexpires := congrArg RedisEntry.expiresAt hentry
              rw [hentry] at hlive
              refine ⟨Redis.mem_withMember.mpr (.inl rfl), hlive, ?_⟩
              intro y hy
              exact ⟨_, hexpires.symm, (hcond y hy).1⟩
            · cases he
          · rw [if_neg fun hkey => ht (RedisSessionStore.key_injective hkey)] at he
            obtain ⟨x, members, hx, hset, hmem, -⟩ := h.indexed t' e p' he hp'
            rw [hpair.1, hpair.2] at hx
            refine ⟨Redis.mem_withMember.mpr (.inr (Redis.mem_indexed.mpr ⟨x, members, hx, hset, hmem⟩)),
              (Redis.entry_eq_some _ _ he).2.2, fun y hy => ?_⟩
            exact (hcond y hy).2 t' e p' ht he hp' hpair.1 hpair.2
        obtain ⟨hmem, hlive, hexpiry⟩ := hnew
        have hlasts : RedisEntry.outlasts ⟨RedisSessionStore.userSetKey p.tenantId p.userId,
            .set (Redis.withMember (r.indexed now p.tenantId p.userId) t),
            r.indexExpiry now p ttlSecs⟩ e := by
          unfold RedisEntry.outlasts
          dsimp only
          exact hexpiry
        refine ⟨_, Redis.withMember (r.indexed now p.tenantId p.userId) t, ?_, rfl, hmem, hlasts⟩
        rw [hpair.1, hpair.2, Redis.entry_put, if_pos rfl, if_pos (hlasts.live hlive)]
      · -- The index set of another user is where it was.
        have hold : r.entry now (RedisSessionStore.key t') = some e := by
          split at he
          · split at he
            · obtain rfl := Option.some.inj he
              cases hp'
              exact absurd ⟨rfl, rfl⟩ hpair
            · cases he
          · exact he
        obtain ⟨x, members, hx, hset, hmem, hlasts⟩ := h.indexed t' e p' hold hp'
        refine ⟨x, members, ?_, hset, hmem, hlasts⟩
        rw [Redis.entry_put, if_neg fun hkey => hpair (RedisSessionStore.userSetKey_inj.mp hkey),
          Redis.entry_put, if_neg (RedisSessionStore.key_ne_userSetKey _ _ _).symm]
        exact hx
  · rw [if_neg httl]
    exact h

end Covered

/-! ### Runs -/

/-- A server that does not answer is left alone. -/
theorem exec_unreachable (w : World) {s : State} (c : StoreCall) (hr : s.redis.reachable = false) :
    ((c.run w).exec (handle w) s).2 = s := by
  have hconnect : ∀ {α : Type} (f : Unit → Service α),
      ((redis .connect).bind f).exec (handle w) s =
        (.error (.error (.internal "Connection refused")), s) := by
    intro α f
    rw [Program.exec_bind, exec_redis]
    simp [RedisCommand.exec, hr, Except.mapError]
  cases c with
  | set t p ttlSecs =>
    change ((RedisSessionStore.set w t p ttlSecs).exec (handle w) s).2 = s
    unfold RedisSessionStore.set
    rw [Program.bind_eq, hconnect]
  | delete t =>
    change (((RedisSessionStore.delete t).bind fun _ => (.pure () : Service Unit)).exec
      (handle w) s).2 = s
    unfold RedisSessionStore.delete
    simp only [Program.bind_eq, Program.bind_assoc]
    rw [hconnect]
  | deleteAllForUser tenantId userId =>
    change (((RedisSessionStore.deleteAllForUser tenantId userId).bind fun _ =>
      (.pure () : Service Unit)).exec (handle w) s).2 = s
    unfold RedisSessionStore.deleteAllForUser
    simp only [Program.bind_eq, Program.bind_assoc]
    rw [hconnect]

section Reachable

variable (w : World) {s : State} (hr : s.redis.reachable = true)

include hr

theorem exec_run_set {t : String} {p : SessionPayload} (ttlSecs : Nat)
    (hlist : s.redis.listable s.now p.tenantId p.userId) :
    (((StoreCall.set t p ttlSecs).run w).exec (handle w) s).2 =
      s.withRedis (s.redis.afterSet s.now t p ttlSecs) :=
  exec_set w ttlSecs hr hlist

theorem exec_run_delete (t : String) :
    (((StoreCall.delete t).run w).exec (handle w) s).2 =
      s.withRedis (s.redis.remove (RedisSessionStore.key t)) := by
  change (((RedisSessionStore.delete t).bind fun _ => (.pure () : Service Unit)).exec
    (handle w) s).2 = _
  unfold RedisSessionStore.delete
  simp only [Program.bind_eq, Program.bind_assoc]
  rw [Program.exec_bind, exec_redis]
  simp only [RedisCommand.exec, hr, if_true, Except.mapError, State.withRedis_self]
  rw [Program.exec_bind, exec_redis]
  simp only [RedisCommand.exec, hr, Bool.not_true, Bool.false_eq_true, if_false, Except.mapError]
  rfl

theorem exec_run_deleteAllForUser {tenantId : String} {userId : Uuid}
    (hlist : s.redis.listable s.now tenantId userId) :
    (((StoreCall.deleteAllForUser tenantId userId).run w).exec (handle w) s).2 =
      s.withRedis (s.redis.cleared s.now tenantId userId) := by
  change (((RedisSessionStore.deleteAllForUser tenantId userId).bind fun _ =>
    (.pure () : Service Unit)).exec (handle w) s).2 = _
  rw [Program.exec_bind, RedisSessionStore.exec_deleteAllForUser.mpr ⟨hr, hlist, rfl, rfl⟩]
  rfl

end Reachable

/-- **Every call that keeps the index keeps the invariant.** -/
theorem Covered.call (w : World) {s : State} {c : StoreCall} (h : Covered s.redis s.now)
    (hc : KeepsIndex s c) : Covered ((c.run w).exec (handle w) s).2.redis s.now := by
  by_cases hr : s.redis.reachable = true
  · cases c with
    | set t p ttlSecs =>
      rw [exec_run_set w hr ttlSecs (h.listable _ _)]
      exact h.set hc
    | delete t =>
      rw [exec_run_delete w hr]
      exact h.remove fun _ _ => RedisSessionStore.key_ne_userSetKey _ _ _
    | deleteAllForUser tenantId userId =>
      rw [exec_run_deleteAllForUser w hr (h.listable _ _)]
      exact h.cleared tenantId userId
  · rw [exec_unreachable w c (Bool.eq_false_iff.mpr hr)]
    exact h

/-- A call takes no time. -/
theorem exec_run_now (w : World) {s : State} {c : StoreCall} (h : Covered s.redis s.now) :
    ((c.run w).exec (handle w) s).2.now = s.now := by
  by_cases hr : s.redis.reachable = true
  · cases c with
    | set t p ttlSecs => rw [exec_run_set w hr ttlSecs (h.listable _ _), State.withRedis_now]
    | delete t => rw [exec_run_delete w hr, State.withRedis_now]
    | deleteAllForUser tenantId userId =>
      rw [exec_run_deleteAllForUser w hr (h.listable _ _), State.withRedis_now]
  · rw [exec_unreachable w c (Bool.eq_false_iff.mpr hr)]

/-- A session in the server is one that a call of the run has stored under its token. -/
def StoredBy (l : List (Nat × StoreCall)) (r : Redis) : Prop :=
  ∀ e ∈ r.entries, ∀ p, e.value = .payload p →
    ∃ d t ttlSecs, (d, StoreCall.set t p ttlSecs) ∈ l ∧ e.key = RedisSessionStore.key t

namespace StoredBy

variable {l : List (Nat × StoreCall)} {r r' : Redis}

theorem subset (h : StoredBy l r) (hr : r'.entries ⊆ r.entries) : StoredBy l r' :=
  fun e he => h e (hr he)

theorem afterSet (h : StoredBy l r) {d : Nat} {now : Time} {t : String} {p : SessionPayload}
    {ttlSecs : Nat} (hc : (d, StoreCall.set t p ttlSecs) ∈ l) :
    StoredBy l (r.afterSet now t p ttlSecs) := by
  unfold Redis.afterSet
  split
  · intro e he q hq
    rcases List.mem_cons.mp he with rfl | he
    · cases hq
    · rcases List.mem_cons.mp (List.mem_of_mem_filter he) with rfl | he
      · cases hq
        exact ⟨d, t, ttlSecs, hc, rfl⟩
      · exact h e (List.mem_of_mem_filter he) q hq
  · exact h

end StoredBy

/-- A call of the run stores what it stores. -/
theorem StoredBy.call (w : World) {s : State} {l : List (Nat × StoreCall)} {c : Nat × StoreCall}
    (h : StoredBy l s.redis) (hcov : Covered s.redis s.now) (hc : c ∈ l) :
    StoredBy l ((c.2.run w).exec (handle w) s).2.redis := by
  by_cases hr : s.redis.reachable = true
  · obtain ⟨d, c⟩ := c
    cases c with
    | set t p ttlSecs =>
      rw [exec_run_set w hr ttlSecs (hcov.listable _ _)]
      exact h.afterSet hc
    | delete t =>
      rw [exec_run_delete w hr]
      exact h.subset (List.filter_sublist.subset)
    | deleteAllForUser tenantId userId =>
      rw [exec_run_deleteAllForUser w hr (hcov.listable _ _)]
      exact h.subset (Redis.cleared_sublist _ _ _ _).subset
  · rw [exec_unreachable w c.2 (Bool.eq_false_iff.mpr hr)]
    exact h

/-- The sets of a run give each token to one user. -/
def OneUserEach (l : List (Nat × StoreCall)) : Prop :=
  ∀ d t p n d' p' n', (d, StoreCall.set t p n) ∈ l → (d', StoreCall.set t p' n') ∈ l →
    p'.tenantId = p.tenantId ∧ p'.userId = p.userId

variable (w : World) {s : State} {l : List (Nat × StoreCall)}

/-- **The invariant of the runs**: what is live is listed, and was stored by a call. -/
theorem run_covered (hs : s.redis.entries = [])
    (hkeeps : EachCall (nextCall w) (fun s c => KeepsIndex (s.tick c.1) c.2) s l) :
    Covered (finalState (nextCall w) s l).redis (finalState (nextCall w) s l).now ∧
      StoredBy l (finalState (nextCall w) s l).redis := by
  have hstart : Covered s.redis s.now ∧ StoredBy l s.redis := by
    refine ⟨⟨by simp [hs], by simp [hs], ?_⟩, by simp [StoredBy, hs]⟩
    intro t e p he
    simp [Redis.entry, hs] at he
  refine (hkeeps.and (eachCall_mem s l)).invariant
    (J := fun s => Covered s.redis s.now ∧ StoredBy l s.redis) ?_ hstart
  rintro s ⟨d, c⟩ ⟨hcov, hstored⟩ ⟨hkeep, hc⟩
  have hlater : Covered (s.tick d).redis (s.tick d).now :=
    hcov.later (le_add_of_nonneg_right (Int.natCast_nonneg d))
  unfold nextCall
  rw [exec_run_now w hlater]
  exact ⟨hlater.call w hkeep, StoredBy.call w (s := s.tick d) hstored hlater hc⟩

/-- **Logging out everywhere**: in a run whose stores keep the index, every live session is listed,
at any time after a call; and once the sessions of a user are deleted, `get` returns no token that
was stored for the user. -/
theorem run_indexed (hs : s.redis.entries = [])
    (hkeeps : EachCall (nextCall w) (fun s c => KeepsIndex (s.tick c.1) c.2) s l)
    (hone : OneUserEach l) (d : Nat) :
    let s' := (finalState (nextCall w) s l).tick d
    Indexed s'.redis s'.now ∧
      ∀ tenantId userId n s'', (RedisSessionStore.deleteAllForUser tenantId userId).exec (handle w)
          s' = (.ok n, s'') →
        ∀ d₁ t p ttlSecs, (d₁, StoreCall.set t p ttlSecs) ∈ l → p.tenantId = tenantId →
          p.userId = userId → ∀ d₂ q,
            ((RedisSessionStore.get t).exec (handle w) (s''.tick d₂)).1 ≠ .ok (some q) := by
  intro s'
  obtain ⟨hcov, hstored⟩ := run_covered w hs hkeeps
  have hlater : Covered s'.redis s'.now :=
    hcov.later (le_add_of_nonneg_right (Int.natCast_nonneg d))
  refine ⟨hlater.lists, ?_⟩
  rintro tenantId userId n s'' hdelete d₁ t p ttlSecs hset rfl rfl d₂ q hget
  obtain ⟨-, -, -, rfl⟩ := RedisSessionStore.exec_deleteAllForUser.mp hdelete
  have hsession := ((RedisSessionStore.exec_get w _ t).mp hget).2
  -- The session that is left was there before, and not listed.
  change (s'.redis.cleared s'.now p.tenantId p.userId).session (s'.now + d₂) t = some q at hsession
  rw [Redis.session_cleared] at hsession
  split at hsession
  · cases hsession
  · rename_i hunlisted
    apply hunlisted
    obtain ⟨e, he, hq⟩ := Redis.session_eq_some.mp hsession
    obtain ⟨hmem, hkey, hlive⟩ := (Redis.entry_iff hlater.nodup).mp he
    have hnow := (Redis.entry_iff hlater.nodup).mpr ⟨hmem, hkey,
      Redis.live_of_le (le_add_of_nonneg_right (Int.natCast_nonneg d₂)) hlive⟩
    obtain ⟨d₃, t', n', hcall, hkey'⟩ := hstored e hmem q hq
    obtain rfl := RedisSessionStore.key_injective (hkey.symm.trans hkey')
    obtain ⟨htenant, huser⟩ := hone _ _ _ _ _ _ _ hset hcall
    rw [← htenant, ← huser]
    exact hlater.lists t q (Redis.session_eq_some.mpr ⟨e, hnow, hq⟩)

/-! ### Sessions of two lifetimes -/

/-- The session of a user of a tenant. -/
def userSession : SessionPayload := ⟨"acme", 1, 7, [], [], [], [], [], none, none, 0⟩

/-- The second session lasts longer than the first one. -/
def shortThenLong : List (Nat × StoreCall) :=
  [(0, .set "x" userSession 3600), (10000000, .set "xx" userSession 7200)]

theorem shortThenLong_keeps :
    EachCall (nextCall .offline) (fun s c => KeepsIndex (s.tick c.1) c.2) (.ofDb .empty 0)
      shortThenLong := by
  refine ⟨?_, ?_, trivial⟩
  · intro _ _ y hy
    obtain rfl := Option.some.inj hy
    have hle : (0 : Time) + seconds (3600 : Nat) ≤ 0 + seconds ((3600 + 86400 : Nat) : Int) := by
      decide
    refine ⟨hle, ?_⟩
    intro t' e p' _ he
    cases he
  · intro _ _ y hy
    obtain rfl := Option.some.inj hy
    -- What the first session has left is gone long before the new index set.
    have hentries : ((nextCall .offline (.ofDb .empty 0) (0, .set "x" userSession 3600)).redis.entries.all
        fun e => e.expiresAt.any fun z => decide (z ≤ seconds 90000)) = true := by
      decide +kernel
    have hnow : (State.tick 10000000 (nextCall .offline (.ofDb .empty 0)
        (0, .set "x" userSession 3600))).now = seconds 10 := by
      decide +kernel
    rw [hnow]
    refine ⟨by decide, fun t' e p' _ he _ _ _ => ?_⟩
    have hany := List.all_eq_true.mp hentries e (List.mem_of_find?_eq_some he)
    obtain ⟨z, hz, hle⟩ := (Option.any_eq_true _ _).mp hany
    exact ⟨z, hz, (of_decide_eq_true hle).trans (by decide)⟩

theorem shortThenLong_oneUserEach : OneUserEach shortThenLong := by
  have huser : ∀ d t p n, (d, StoreCall.set t p n) ∈ shortThenLong → p = userSession := by
    intro d t p n h
    rcases List.mem_pair.mp h with h | h <;> cases h <;> rfl
  intro d t p n d' p' n' h h'
  rw [huser d t p n h, huser d' t p' n' h']
  exact ⟨rfl, rfl⟩

/-- Both sessions are listed, and neither is returned once the sessions of the user are deleted. -/
theorem run_indexed_shortThenLong :
    let s := (finalState (nextCall .offline) (.ofDb .empty 0) shortThenLong).tick 1000
    Indexed s.redis s.now ∧
      ∀ n s', (RedisSessionStore.deleteAllForUser "acme" 1).exec (handle .offline) s = (.ok n, s') →
        ∀ d q, ((RedisSessionStore.get "x").exec (handle .offline) (s'.tick d)).1 ≠ .ok (some q) ∧
          ((RedisSessionStore.get "xx").exec (handle .offline) (s'.tick d)).1 ≠ .ok (some q) := by
  intro s
  obtain ⟨hindexed, hdeleted⟩ := run_indexed .offline (s := .ofDb .empty 0) rfl shortThenLong_keeps
    shortThenLong_oneUserEach 1000
  refine ⟨hindexed, fun n s' h d q => ⟨?_, ?_⟩⟩
  · exact hdeleted "acme" 1 n s' h 0 "x" userSession 3600 List.mem_cons_self rfl rfl d q
  · exact hdeleted "acme" 1 n s' h 10000000 "xx" userSession 7200
      (List.mem_cons_of_mem _ List.mem_cons_self) rfl rfl d q

/-- The first session lasts more than a day longer than the second one. -/
def longThenShort : List (Nat × StoreCall) :=
  [(0, .set "x" userSession 200000), (0, .set "xx" userSession 10)]

/-- **The long session outlives its user's sessions**: a day after the short one it is live and not
listed, and the deletion does not find it. -/
theorem shorterSession_unlisted :
    let s := (finalState (nextCall .offline) (.ofDb .empty 0) longThenShort).tick 86420000000
    ¬ Indexed s.redis s.now ∧
      ∃ n s', (RedisSessionStore.deleteAllForUser "acme" 1).exec (handle .offline) s = (.ok n, s') ∧
        ((RedisSessionStore.get "x").exec (handle .offline) s').1 = .ok (some userSession) := by
  intro s
  have hlive : s.redis.session s.now "x" = some userSession := by decide +kernel
  have hlisted : s.redis.indexed s.now "acme" 1 = [] := by decide +kernel
  have hreach : s.redis.reachable = true := by decide +kernel
  have hlistable : s.redis.listable s.now "acme" 1 := by
    have hentry : s.redis.entry s.now (RedisSessionStore.userSetKey "acme" 1) = none := by
      rw [← Option.isNone_iff_eq_none]
      decide +kernel
    intro e he
    rw [hentry] at he
    cases he
  refine ⟨?_, _, _, RedisSessionStore.exec_deleteAllForUser.mpr ⟨hreach, hlistable, rfl, rfl⟩, ?_⟩
  · intro h
    have hmem := h "x" userSession hlive
    change "x" ∈ s.redis.indexed s.now "acme" 1 at hmem
    rw [hlisted] at hmem
    cases hmem
  · rw [RedisSessionStore.exec_get]
    refine ⟨?_, ?_⟩
    · rw [State.withRedis_redis, Redis.reachable_cleared, hreach]
    · rw [State.withRedis_redis, Redis.session_cleared, hlisted, if_neg List.not_mem_nil]
      exact hlive

end Authrs
