import Authrs.Repo.Accounts
import Authrs.Services.Session

/-!
# The keys of the Redis store

What a lookup finds after a key has been put or removed, and why the keys of the sessions and of
the index sets never meet: they begin differently, and the text of a user id has a fixed length.

## Main results

* `Redis.entry_put`, `Redis.entry_remove`: a lookup after a write
* `RedisSessionStore.key_ne_userSetKey`, `userSetKey_inj`: the keys of sessions and of index sets
* `exec_redis`: a command run alone
-/

namespace Authrs

open Interaction

/-- The entry has not expired. -/
def RedisEntry.live (e : RedisEntry) (now : Time) : Bool := e.expiresAt.all (now < ·)

namespace Redis

variable (r : Redis) (now : Time) {k k' : String} {e : RedisEntry}

theorem entry_eq_some (h : r.entry now k = some e) :
    e ∈ r.entries ∧ e.key = k ∧ e.live now = true := by
  have hfound := List.find?_some h
  simp only [Bool.and_eq_true, decide_eq_true_eq] at hfound
  exact ⟨List.mem_of_find?_eq_some h, hfound.1, hfound.2⟩

theorem entry_remove : (r.remove k).entry now k' = if k' = k then none else r.entry now k' := by
  unfold entry remove
  rw [List.find?_filter]
  split
  · rename_i h
    subst h
    apply List.find?_eq_none.mpr
    intro x _
    by_cases hx : x.key = k' <;> simp [hx]
  · rename_i h
    congr 1
    funext x
    by_cases hx : x.key = k'
    · simp [hx, h]
    · simp [hx]

theorem entry_put :
    (r.put e).entry now k =
      if k = e.key then (if e.live now then some e else none) else r.entry now k := by
  have hrest : (r.remove e.key).entry now k = if k = e.key then none else r.entry now k :=
    entry_remove r now
  unfold entry put at *
  rw [List.find?_cons]
  by_cases hk : k = e.key
  · rw [if_pos hk] at hrest
    subst hk
    by_cases hl : e.live now = true
    · have hp : (decide (e.key = e.key) && e.expiresAt.all (now < ·)) = true := by
        simpa [RedisEntry.live] using hl
      rw [hp, if_pos rfl, if_pos hl]
    · have hp : (decide (e.key = e.key) && e.expiresAt.all (now < ·)) = false := by
        simpa [RedisEntry.live] using hl
      rw [hp, if_pos rfl, if_neg hl]
      exact hrest
  · rw [if_neg hk] at hrest ⊢
    have hp : (decide (e.key = k) && e.expiresAt.all (now < ·)) = false := by
      simp [Ne.symm hk]
    rw [hp]
    exact hrest

@[simp] theorem reachable_remove (k : String) : (r.remove k).reachable = r.reachable := rfl

@[simp] theorem reachable_put (e : RedisEntry) : (r.put e).reachable = r.reachable := rfl

end Redis

/-! ### Keys -/

namespace RedisSessionStore

theorem key_injective : Function.Injective key := by
  intro t t' h
  have htext := congrArg String.toList h
  simp only [key, String.toList_append] at htext
  exact String.toList_injective (List.append_cancel_left htext)

theorem toList_userSetKey (tenantId : String) (userId : Uuid) :
    (userSetKey tenantId userId).toList = "user_sessions:".toList ++
      (tenantId.toList ++ (":".toList ++ userId.hyphenated.toList)) := by
  change ("user_sessions:" ++ tenantId ++ ":" ++ userId.hyphenated).toList = _
  simp only [String.toList_append, List.append_assoc]

/-- **The keys of sessions and of index sets are different.** -/
theorem key_ne_userSetKey (sessionToken tenantId : String) (userId : Uuid) :
    key sessionToken ≠ userSetKey tenantId userId := by
  intro h
  have hhead := congrArg (fun s => s.toList.head?) h
  simp [key, toList_userSetKey, String.toList_append] at hhead

/-- **An index set belongs to one user of one tenant.** -/
theorem userSetKey_inj {tenantId tenantId' : String} {userId userId' : Uuid} :
    userSetKey tenantId userId = userSetKey tenantId' userId' ↔
      tenantId = tenantId' ∧ userId = userId' := by
  constructor
  · intro h
    have htext := congrArg String.toList h
    rw [toList_userSetKey, toList_userSetKey] at htext
    -- The text of a user id has 36 characters, so the tenant ends at the same place.
    have hrest := List.append_cancel_left htext
    obtain ⟨htenant, huser⟩ := List.append_inj' hrest (by simp)
    refine ⟨String.toList_injective htenant, Uuid.hyphenated_injective ?_⟩
    exact String.toList_injective (List.append_cancel_left huser)
  · rintro ⟨rfl, rfl⟩
    rfl

end RedisSessionStore

/-! ### Commands -/

/-- The same state with another Redis server. -/
def State.withRedis (s : State) (r : Redis) : State := { s with redis := r }

@[simp] theorem State.withRedis_redis (s : State) (r : Redis) : (s.withRedis r).redis = r := rfl

@[simp] theorem State.withRedis_now (s : State) (r : Redis) : (s.withRedis r).now = s.now := rfl

@[simp] theorem State.withRedis_db (s : State) (r : Redis) : (s.withRedis r).db = s.db := rfl

@[simp] theorem State.withRedis_withRedis (s : State) (r r' : Redis) :
    (s.withRedis r).withRedis r' = s.withRedis r' := rfl

@[simp] theorem State.withRedis_self (s : State) : s.withRedis s.redis = s := rfl

/-- A command run alone. -/
theorem exec_redis (w : World) (s : State) (c : RedisCommand) :
    (redis c).exec (handle w) s =
      ((c.exec s.now s.redis).1.mapError fun e => .error (.internal e),
        s.withRedis (c.exec s.now s.redis).2) := by
  change (Service.ofResult ((c.exec s.now s.redis).1.mapError AppError.internal)).exec (handle w)
    (s.withRedis (c.exec s.now s.redis).2) = _
  rw [Service.exec_ofResult]
  cases (c.exec s.now s.redis).1 <;> rfl

end Authrs
