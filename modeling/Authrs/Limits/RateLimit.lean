import Authrs.Base.Error
import Authrs.Limits.FixedWindow
import Mathlib.Algebra.Group.Int.Defs
import Mathlib.Algebra.Group.Nat.Defs
import Mathlib.Logic.Function.Basic

/-!
# The rate limiters

The two stores of the rate limiter: one counts in Redis, where a counter expires with its window, the
other in memory, where a window keeps its end. Redis and its client are parameters as far as a number
of 64 bits is read as one of 32. The times of calls are in microseconds, and the counter in memory
wraps, as it does in a release build.

## Main definitions

* `InMemoryRateLimitStore.check`, `RedisRateLimitStore.check`: their namesakes in the source
* `checks`: a run of calls
* `Fair`: a call that both stores count

## Main results

* `check_of_fair`: both stores answer by the number of the call in its window
* `same_answers_iff`: when the stores agree, and no window admits more than its limit
-/

namespace Authrs

open FixedWindow (Slot slots)

namespace RateLimit

/-- What a call of `check` ends with. -/
inductive Answer where
  | ok (allowed : Bool)
  | err (e : AppError)
  | panic
  deriving DecidableEq

/-! ### In memory -/

structure Window where
  count : UInt32
  windowEnd : Nat
  deriving DecidableEq

/-- The store; the lock is poisoned once a call panics while it holds it. -/
structure InMemoryRateLimitStore where
  store : String → Option Window
  poisoned : Bool

/-- The length of a window. -/
def length (windowSecs : UInt64) : Nat := windowSecs.toNat * 1000000

/-- `Instant + Duration`: it panics when the seconds do not fit in 64 bits. -/
def addInstant (now : Nat) (windowSecs : UInt64) : Option Nat :=
  if now + length windowSecs < 2 ^ 63 * 1000000 then some (now + length windowSecs) else none

namespace InMemoryRateLimitStore

def new : InMemoryRateLimitStore := ⟨fun _ => none, false⟩

def insert (s : InMemoryRateLimitStore) (key : String) (w : Window) : InMemoryRateLimitStore :=
  { s with store := Function.update s.store key (some w) }

def check (s : InMemoryRateLimitStore) (now : Nat) (key : String) (limit : UInt32)
    (windowSecs : UInt64) : Answer × InMemoryRateLimitStore :=
  if s.poisoned then (.panic, s)
  else
    match s.store key with
    | some w =>
      if w.windowEnd ≤ now then
        match addInstant now windowSecs with
        | some windowEnd => (.ok true, s.insert key ⟨1, windowEnd⟩)
        | none => (.panic, { s.insert key ⟨1, w.windowEnd⟩ with poisoned := true })
      else (.ok (w.count + 1 ≤ limit), s.insert key ⟨w.count + 1, w.windowEnd⟩)
    | none =>
      match addInstant now windowSecs with
      | some windowEnd => (.ok true, s.insert key ⟨1, windowEnd⟩)
      | none => (.panic, { s with poisoned := true })

end InMemoryRateLimitStore

/-! ### In Redis -/

/-- A counter of Redis. -/
structure Counter where
  count : Int
  expiresAt : Option Nat
  deriving DecidableEq

/-- The counters of the server. -/
abbrev Counters : Type := String → Option Counter

/-- How the client reads an integer as one of 32 bits, and the texts of the server's errors. -/
structure Client where
  readU32 : Int → Except String UInt32
  overflow : String
  invalidExpire : String

/-- The integers of 32 bits are read as they are. -/
def Client.ReadsU32 (R : Client) : Prop := ∀ n : Nat, n < 2 ^ 32 → R.readU32 n = .ok (.ofNat n)

namespace Counters

/-- The counter of a key, unless its time has run out. -/
def live (r : Counters) (now : Nat) (k : String) : Option Counter :=
  (r k).filter fun c => c.expiresAt.all (now < ·)

/-- `INCR`: the count after the increment; an increment beyond 64 bits is refused. -/
def incr (r : Counters) (now : Nat) (k : String) : Option (Int × Counters) :=
  match r.live now k with
  | none => some (1, Function.update r k (some ⟨1, none⟩))
  | some c =>
    if c.count + 1 < 2 ^ 63 then
      some (c.count + 1, Function.update r k (some ⟨c.count + 1, c.expiresAt⟩))
    else none

/-- `EXPIRE` on a counter that is there: a time in milliseconds that does not fit in 64 bits is
refused, and one that has passed removes the counter. -/
def expire (r : Counters) (now : Nat) (k : String) (secs : Int) : Option Counters :=
  match r.live now k with
  | none => some r
  | some c =>
    if secs * 1000 < -2 ^ 63 ∨ 2 ^ 63 ≤ secs * 1000 + (now / 1000 : Nat) then none
    else if secs ≤ 0 then some (Function.update r k none)
    else some (Function.update r k (some ⟨c.count, some (now + secs.toNat * 1000000)⟩))

end Counters

namespace RedisRateLimitStore

def redisKey (key : String) : String := "ratelimit:" ++ key

/-- `window_secs as i64` -/
def asI64 (windowSecs : UInt64) : Int :=
  if windowSecs.toNat < 2 ^ 63 then windowSecs.toNat else windowSecs.toNat - 2 ^ 64

def check (R : Client) (r : Counters) (now : Nat) (key : String) (limit : UInt32)
    (windowSecs : UInt64) : Answer × Counters :=
  match r.incr now (redisKey key) with
  | none => (.err (.internal R.overflow), r)
  | some (n, r) =>
    match R.readU32 n with
    | .error e => (.err (.internal e), r)
    | .ok count =>
      if count = 1 then
        match r.expire now (redisKey key) (asI64 windowSecs) with
        | none => (.err (.internal R.invalidExpire), r)
        | some r => (.ok (count ≤ limit), r)
      else (.ok (count ≤ limit), r)

end RedisRateLimitStore

/-! ### Runs -/

/-- A call of `check`. -/
structure Call where
  now : Nat
  key : String

/-- The answers to a sequence of calls, each with its call, and the store after them. -/
def checks {σ : Type} (check : σ → Call → Answer × σ) (s : σ) (calls : List Call) :
    List (Call × Answer) × σ :=
  calls.foldl (fun (log, s) c => (log ++ [(c, (check s c).1)], (check s c).2)) ([], s)

theorem checks_snoc {σ : Type} (check : σ → Call → Answer × σ) (s : σ) (calls : List Call) (c : Call) :
    checks check s (calls ++ [c]) =
      ((checks check s calls).1 ++ [(c, (check (checks check s calls).2 c).1)],
        (check (checks check s calls).2 c).2) := by
  rw [checks, List.foldl_append]
  rfl

variable (limit : String → UInt32) (windowSecs : String → UInt64)

/-- A call to the store in memory, with the limit and the window of its key. -/
def checkInMemory (s : InMemoryRateLimitStore) (c : Call) : Answer × InMemoryRateLimitStore :=
  s.check c.now c.key (limit c.key) (windowSecs c.key)

/-- A call to the store in Redis. -/
def checkRedis (R : Client) (r : Counters) (c : Call) : Answer × Counters :=
  RedisRateLimitStore.check R r c.now c.key (limit c.key) (windowSecs c.key)

/-- The times of the calls for a key. -/
def timesOf (calls : List Call) (key : String) : List Nat :=
  (calls.filter fun c => c.key = key).map Call.now

/-- The windows of a key, and the places of its calls in them. -/
def slotsOf (calls : List Call) (key : String) : List Slot :=
  slots (length (windowSecs key)) (timesOf calls key)

/-- The answers for a key. -/
def answersOf (log : List (Call × Answer)) (key : String) : List Answer :=
  (log.filter fun x => x.1.key = key).map Prod.snd

/-- How many calls of a window of a key were admitted. -/
def admitted (calls : List Call) (log : List (Call × Answer)) (key : String) (i : Nat) : Nat :=
  ((slotsOf windowSecs calls key).zip (answersOf log key)).countP fun x =>
    x.1.index = i ∧ x.2 = .ok true

/-- **A call that both stores count**: the limit is not zero, the number of the call in its window
fits in 32 bits, and the end of the window in 64 bits of milliseconds. -/
def Fair (limit : UInt32) (windowSecs : UInt64) (s : Slot) : Prop :=
  limit ≠ 0 ∧ s.ordinal < 2 ^ 32 ∧ windowSecs.toNat * 1000 + s.start / 1000 < 2 ^ 63

/-- Every window of every key is such that both stores count its calls. -/
def AllFair (calls : List Call) : Prop :=
  ∀ key, ∀ s ∈ slotsOf windowSecs calls key, Fair (limit key) (windowSecs key) s

/-! ### One call -/

section Step

variable {limit : UInt32} {windowSecs : UInt64} {key : String} {now : Nat} {last : Option Slot}

/-- The window in memory after a call. -/
def windowOf (windowSecs : UInt64) (s : Slot) : Window :=
  ⟨.ofNat s.ordinal, s.start + length windowSecs⟩

/-- The counter in Redis after a call. -/
def counterOf (windowSecs : UInt64) (s : Slot) : Counter :=
  ⟨s.ordinal, some (s.start + length windowSecs)⟩

theorem addInstant_of_fits {t : Nat} (h : windowSecs.toNat * 1000 + t / 1000 < 2 ^ 63) :
    addInstant t windowSecs = some (t + length windowSecs) := by
  rw [addInstant, if_pos]
  unfold length
  omega

theorem ofNat_le_iff {n : Nat} (hn : n < 2 ^ 32) : UInt32.ofNat n ≤ limit ↔ n ≤ limit.toNat := by
  rw [UInt32.le_iff_toNat_le, UInt32.toNat_ofNat_of_lt' hn]

/-- A call after the end of the window opens the next one. -/
theorem InMemoryRateLimitStore.check_ended {s : InMemoryRateLimitStore} (hp : s.poisoned = false)
    {w : Window} (hs : s.store key = some w) (hended : w.windowEnd ≤ now) {windowEnd : Nat}
    (hadd : addInstant now windowSecs = some windowEnd) :
    s.check now key limit windowSecs = (.ok true, s.insert key ⟨1, windowEnd⟩) := by
  have hunlocked : ¬s.poisoned = true := by rw [hp]; exact Bool.false_ne_true
  rw [check, if_neg hunlocked, hs, hadd]
  exact if_pos hended

/-- A call before the end of the window is counted in it. -/
theorem InMemoryRateLimitStore.check_running {s : InMemoryRateLimitStore} (hp : s.poisoned = false)
    {w : Window} (hs : s.store key = some w) (hrunning : ¬w.windowEnd ≤ now) :
    s.check now key limit windowSecs =
      (.ok (w.count + 1 ≤ limit), s.insert key ⟨w.count + 1, w.windowEnd⟩) := by
  have hunlocked : ¬s.poisoned = true := by rw [hp]; exact Bool.false_ne_true
  rw [check, if_neg hunlocked, hs]
  exact if_neg hrunning

theorem ofNat_succ (n : Nat) : UInt32.ofNat n + 1 = UInt32.ofNat (n + 1) := by
  rw [UInt32.ofNat_add]
  rfl

/-- **In memory, a fair call is answered by its number.** -/
theorem InMemoryRateLimitStore.check_of_fair {s : InMemoryRateLimitStore} (hp : s.poisoned = false)
    (hs : s.store key = last.map (windowOf windowSecs))
    (hfair : Fair limit windowSecs (FixedWindow.next (length windowSecs) last now)) :
    s.check now key limit windowSecs =
      (.ok ((FixedWindow.next (length windowSecs) last now).ordinal ≤ limit.toNat),
        s.insert key (windowOf windowSecs (FixedWindow.next (length windowSecs) last now))) := by
  obtain ⟨hlimit, hordinal, hfits⟩ := hfair
  have hone : decide (1 ≤ limit.toNat) = true := by
    rw [decide_eq_true_eq, Nat.one_le_iff_ne_zero]
    exact fun h => hlimit (UInt32.toNat_inj.mp h)
  cases last with
  | none =>
    -- The first window opens.
    have hadd : addInstant now windowSecs = some (now + length windowSecs) := addInstant_of_fits hfits
    have hunlocked : ¬s.poisoned = true := by rw [hp]; exact Bool.false_ne_true
    rw [check, if_neg hunlocked, hs, hadd]
    exact congrArg (fun b => (Answer.ok b, _)) hone.symm
  | some p =>
    rw [Option.map_some] at hs
    by_cases hended : p.start + length windowSecs ≤ now
    · have hnext : FixedWindow.next (length windowSecs) (some p) now = ⟨p.index + 1, now, 1⟩ :=
        FixedWindow.next_of_ended hended
      rw [hnext] at hfits ⊢
      rw [check_ended hp hs hended (addInstant_of_fits hfits)]
      exact congrArg (fun b => (Answer.ok b, _)) hone.symm
    · have hnext : FixedWindow.next (length windowSecs) (some p) now =
          ⟨p.index, p.start, p.ordinal + 1⟩ := FixedWindow.next_of_running hended
      rw [hnext] at hordinal ⊢
      rw [check_running hp hs hended]
      simp only [windowOf, ofNat_succ, decide_eq_decide.mpr (ofNat_le_iff hordinal)]

/-- The counter of a key that has none, or whose time has run out, starts again. -/
theorem Counters.incr_first {r : Counters} {k : String} (h : r.live now k = none) :
    r.incr now k = some (1, Function.update r k (some ⟨1, none⟩)) := by
  rw [incr, h]

theorem Counters.incr_next {r : Counters} {k : String} {n : Nat} {expiresAt : Option Nat}
    (h : r.live now k = some ⟨n, expiresAt⟩) (hn : n + 1 < 2 ^ 63) :
    r.incr now k =
      some (((n + 1 : Nat) : Int), Function.update r k (some ⟨((n + 1 : Nat) : Int), expiresAt⟩)) := by
  have hfits : (n : Int) + 1 < 2 ^ 63 := by omega
  rw [incr, h]
  simp only [if_pos hfits, Int.natCast_succ]

theorem Counters.live_update_none (r : Counters) (k : String) (n : Int) :
    Counters.live (Function.update r k (some ⟨n, none⟩)) now k = some ⟨n, none⟩ := by
  rw [live, Function.update_self]
  rfl

theorem Counters.expire_first {r : Counters} {k : String} {n : Int}
    (hwindow : windowSecs ≠ 0) (hfits : windowSecs.toNat * 1000 + now / 1000 < 2 ^ 63) :
    Counters.expire (Function.update r k (some ⟨n, none⟩)) now k
        (RedisRateLimitStore.asI64 windowSecs) =
      some (Function.update r k (some ⟨n, some (now + length windowSecs)⟩)) := by
  have hsecs : RedisRateLimitStore.asI64 windowSecs = windowSecs.toNat := if_pos (by omega)
  have hpos : windowSecs.toNat ≠ 0 := fun h => hwindow (UInt64.toNat_inj.mp h)
  rw [expire, live_update_none, hsecs]
  have hrange : ¬((windowSecs.toNat : Int) * 1000 < -2 ^ 63 ∨
      2 ^ 63 ≤ (windowSecs.toNat : Int) * 1000 + (now / 1000 : Nat)) := by omega
  have hpositive : ¬((windowSecs.toNat : Int) ≤ 0) := by omega
  simp only [if_neg hrange, if_neg hpositive, Function.update_idem, Int.toNat_natCast]
  rfl

theorem Counters.live_some {r : Counters} {k : String} {n : Int} {windowEnd : Nat}
    (hr : r k = some ⟨n, some windowEnd⟩) :
    r.live now k = if windowEnd ≤ now then none else some ⟨n, some windowEnd⟩ := by
  rw [live, hr, Option.filter_some]
  by_cases hended : windowEnd ≤ now
  · rw [if_pos hended]
    exact if_neg (by simpa using hended)
  · rw [if_neg hended]
    exact if_pos (by simpa using hended)

theorem Counters.live_counterOf {r : Counters} {k : String} {p : Slot}
    (hr : r k = some (counterOf windowSecs p)) :
    r.live now k = if p.start + length windowSecs ≤ now then none else some (counterOf windowSecs p) :=
  live_some hr

/-- **In Redis, a fair call is answered by its number.** -/
theorem RedisRateLimitStore.check_of_fair {R : Client} (hR : R.ReadsU32) {r : Counters}
    (hr : r (redisKey key) = last.map (counterOf windowSecs)) (hordinals : ∀ p ∈ last, 1 ≤ p.ordinal)
    (hwindow : windowSecs ≠ 0)
    (hfair : Fair limit windowSecs (FixedWindow.next (length windowSecs) last now)) :
    check R r now key limit windowSecs =
      (.ok ((FixedWindow.next (length windowSecs) last now).ordinal ≤ limit.toNat),
        Function.update r (redisKey key)
          (some (counterOf windowSecs (FixedWindow.next (length windowSecs) last now)))) := by
  obtain ⟨hlimit, hordinal, hfits⟩ := hfair
  -- A window begins with the first call, which sets the expiry.
  have hfirst : ∀ i, r.live now (redisKey key) = none →
      FixedWindow.next (length windowSecs) last now = ⟨i, now, 1⟩ →
      check R r now key limit windowSecs =
        (.ok ((FixedWindow.next (length windowSecs) last now).ordinal ≤ limit.toNat),
          Function.update r (redisKey key)
            (some (counterOf windowSecs (FixedWindow.next (length windowSecs) last now)))) := by
    intro i hlive hnext
    rw [hnext] at hfits ⊢
    have hread : R.readU32 1 = .ok 1 := hR 1 (by decide)
    have hexpire : Counters.expire (Function.update r (redisKey key) (some ⟨1, none⟩)) now
        (redisKey key) (asI64 windowSecs) = _ := Counters.expire_first hwindow hfits
    have hone : (1 : UInt32) ≤ limit ↔ 1 ≤ limit.toNat := ofNat_le_iff (by decide)
    simp only [check, Counters.incr_first hlive, hread, if_true, hexpire, hone]
    rfl
  cases last with
  | none => exact hfirst 0 (by rw [Counters.live, hr]; rfl) rfl
  | some p =>
    have hlive := @Counters.live_counterOf _ now _ _ _ hr
    by_cases hended : p.start + length windowSecs ≤ now
    · rw [if_pos hended] at hlive
      exact hfirst (p.index + 1) hlive (FixedWindow.next_of_ended hended)
    · have hnext : FixedWindow.next (length windowSecs) (some p) now =
          ⟨p.index, p.start, p.ordinal + 1⟩ := FixedWindow.next_of_running hended
      rw [if_neg hended] at hlive
      rw [hnext] at hordinal ⊢
      have hread : R.readU32 (p.ordinal + 1 : Nat) = .ok (.ofNat (p.ordinal + 1)) :=
        hR (p.ordinal + 1) hordinal
      -- A later call is not taken for the first one, as long as the count does not wrap.
      have hlater : UInt32.ofNat (p.ordinal + 1) ≠ 1 := by
        intro h
        have hnat := congrArg UInt32.toNat h
        rw [UInt32.toNat_ofNat_of_lt' hordinal] at hnat
        have hone : p.ordinal + 1 = 1 := hnat
        have := hordinals p rfl
        omega
      have hcount : p.ordinal + 1 < 2 ^ 63 := lt_trans hordinal (by decide)
      rw [check, Counters.incr_next hlive hcount]
      simp only [hread, if_neg hlater, ofNat_le_iff hordinal]
      rfl

/-! #### A call that is not fair -/

theorem RedisRateLimitStore.check_ne_panic (R : Client) (r : Counters) :
    (check R r now key limit windowSecs).1 ≠ .panic := by
  unfold check
  split
  · exact nofun
  · split
    · exact nofun
    · split
      · split <;> exact nofun
      · exact nofun

/-- In memory, the first call of a window is allowed, or it panics. -/
theorem InMemoryRateLimitStore.check_first {s : InMemoryRateLimitStore} (hp : s.poisoned = false)
    (hs : ∀ w ∈ s.store key, w.windowEnd ≤ now) :
    (s.check now key limit windowSecs).1 =
      if (addInstant now windowSecs).isSome then .ok true else .panic := by
  have hunlocked : ¬s.poisoned = true := by rw [hp]; exact Bool.false_ne_true
  cases hkey : s.store key with
  | none =>
    rw [check, if_neg hunlocked, hkey]
    generalize addInstant now windowSecs = found
    cases found <;> rfl
  | some w =>
    rw [check, if_neg hunlocked, hkey]
    show (if w.windowEnd ≤ now then _ else _ : Answer × InMemoryRateLimitStore).1 = _
    rw [if_pos (hs w hkey)]
    generalize addInstant now windowSecs = found
    cases found <;> rfl

/-- In Redis, the first call of a window is answered by the limit, unless its end is refused. -/
theorem RedisRateLimitStore.check_first {R : Client} (hR : R.ReadsU32) {r : Counters}
    (hr : r.live now (redisKey key) = none) :
    (check R r now key limit windowSecs).1 =
      if (Counters.expire (Function.update r (redisKey key) (some ⟨1, none⟩)) now (redisKey key)
        (asI64 windowSecs)).isSome then .ok (1 ≤ limit) else .err (.internal R.invalidExpire) := by
  have hread : R.readU32 1 = .ok 1 := hR 1 (by decide)
  simp only [check, Counters.incr_first hr, hread, if_true]
  cases Counters.expire (Function.update r (redisKey key) (some ⟨1, none⟩)) now (redisKey key)
    (asI64 windowSecs) <;> rfl

theorem Counters.expire_refused {r : Counters} {k : String} {n : Int}
    (hsmall : windowSecs.toNat < 2 ^ 63) (hfits : ¬windowSecs.toNat * 1000 + now / 1000 < 2 ^ 63) :
    Counters.expire (Function.update r k (some ⟨n, none⟩)) now k
      (RedisRateLimitStore.asI64 windowSecs) = none := by
  have hsecs : RedisRateLimitStore.asI64 windowSecs = windowSecs.toNat := if_pos hsmall
  have hrange : (windowSecs.toNat : Int) * 1000 < -2 ^ 63 ∨
      2 ^ 63 ≤ (windowSecs.toNat : Int) * 1000 + (now / 1000 : Nat) := by omega
  rw [expire, live_update_none, hsecs]
  simp only [if_pos hrange]

/-- **The first call of a window that is not fair gets two different answers.** -/
theorem answers_ne_of_first {R : Client} (hR : R.ReadsU32) {s : InMemoryRateLimitStore} {r : Counters}
    (hp : s.poisoned = false) (hs : ∀ w ∈ s.store key, w.windowEnd ≤ now)
    (hr : r.live now (RedisRateLimitStore.redisKey key) = none)
    (hunfair : limit = 0 ∨ ¬windowSecs.toNat * 1000 + now / 1000 < 2 ^ 63) :
    (s.check now key limit windowSecs).1 ≠
      (RedisRateLimitStore.check R r now key limit windowSecs).1 := by
  have hredis := @RedisRateLimitStore.check_ne_panic limit windowSecs key now R r
  rw [InMemoryRateLimitStore.check_first hp hs]
  rw [RedisRateLimitStore.check_first hR hr] at hredis ⊢
  by_cases hinstant : (addInstant now windowSecs).isSome = true
  · rw [if_pos hinstant]
    have hzero : limit = 0 → ¬(1 : UInt32) ≤ limit := by
      rintro rfl
      decide
    have hsmall : windowSecs.toNat < 2 ^ 63 := by
      unfold addInstant length at hinstant
      split at hinstant
      · omega
      · cases hinstant
    by_cases hfits : windowSecs.toNat * 1000 + now / 1000 < 2 ^ 63
    · have hlimit := hzero (hunfair.resolve_right (not_not_intro hfits))
      split
      · rw [decide_eq_false hlimit]
        exact fun h => Bool.noConfusion (Answer.ok.inj h)
      · exact nofun
    · rw [Counters.expire_refused hsmall hfits]
      exact nofun
  · rw [if_neg hinstant]
    exact hredis.symm

/-- **An unfair call gets two different answers**, or its number is the first that does not fit and the
store in memory allows it. -/
theorem answers_ne_or_wraps {R : Client} (hR : R.ReadsU32) {s : InMemoryRateLimitStore} {r : Counters}
    (hp : s.poisoned = false) (hs : s.store key = last.map (windowOf windowSecs))
    (hr : r (RedisRateLimitStore.redisKey key) = last.map (counterOf windowSecs))
    (hlast : ∀ p ∈ last, Fair limit windowSecs p)
    (hunfair : ¬Fair limit windowSecs (FixedWindow.next (length windowSecs) last now)) :
    (s.check now key limit windowSecs).1 ≠
        (RedisRateLimitStore.check R r now key limit windowSecs).1 ∨
      limit ≠ 0 ∧ (FixedWindow.next (length windowSecs) last now).ordinal = 2 ^ 32 ∧
        (s.check now key limit windowSecs).1 = .ok true := by
  have hfirst : ∀ i, (∀ w ∈ s.store key, w.windowEnd ≤ now) →
      r.live now (RedisRateLimitStore.redisKey key) = none →
      FixedWindow.next (length windowSecs) last now = ⟨i, now, 1⟩ →
      (s.check now key limit windowSecs).1 ≠
        (RedisRateLimitStore.check R r now key limit windowSecs).1 := by
    intro i hs hr hnext
    apply answers_ne_of_first hR hp hs hr
    rw [hnext] at hunfair
    by_contra hboth
    rw [not_or, not_not] at hboth
    have hone : 1 < 2 ^ 32 := by decide
    exact hunfair ⟨hboth.1, hone, hboth.2⟩
  cases last with
  | none =>
    refine Or.inl (hfirst 0 ?_ ?_ rfl)
    · rw [hs]
      exact nofun
    · rw [Counters.live, hr]
      rfl
  | some p =>
    have hlive := @Counters.live_counterOf _ now _ _ _ hr
    by_cases hended : p.start + length windowSecs ≤ now
    · rw [if_pos hended] at hlive
      refine Or.inl (hfirst (p.index + 1) ?_ hlive (FixedWindow.next_of_ended hended))
      rw [hs]
      rintro w hw
      rw [← Option.some.inj hw]
      exact hended
    · right
      have hnext : FixedWindow.next (length windowSecs) (some p) now =
          ⟨p.index, p.start, p.ordinal + 1⟩ := FixedWindow.next_of_running hended
      obtain ⟨hlimit, hordinal, hfits⟩ := hlast p rfl
      rw [hnext] at hunfair ⊢
      have hwraps : p.ordinal + 1 = 2 ^ 32 := by
        have hbig : ¬p.ordinal + 1 < 2 ^ 32 := fun h => hunfair ⟨hlimit, h, hfits⟩
        omega
      refine ⟨hlimit, hwraps, ?_⟩
      -- The counter in memory wraps to zero.
      have hzero : UInt32.ofNat p.ordinal + 1 = 0 := by
        rw [ofNat_succ, hwraps]
        rfl
      have hallowed : (0 : UInt32) ≤ limit := UInt32.le_iff_toNat_le.mpr (Nat.zero_le _)
      rw [Option.map_some] at hs
      rw [InMemoryRateLimitStore.check_running hp hs hended]
      simp only [windowOf, hzero, decide_eq_true hallowed]

end Step

/-! ### A run of calls -/

section Run

variable {limit : String → UInt32} {windowSecs : String → UInt64} {R : Client}

/-- The place of the next call for its key. -/
def nextSlot (windowSecs : String → UInt64) (calls : List Call) (c : Call) : Slot :=
  FixedWindow.next (length (windowSecs c.key)) (slotsOf windowSecs calls c.key).getLast? c.now

theorem slotsOf_snoc_self (calls : List Call) (c : Call) :
    slotsOf windowSecs (calls ++ [c]) c.key =
      slotsOf windowSecs calls c.key ++ [nextSlot windowSecs calls c] := by
  have htimes : timesOf (calls ++ [c]) c.key = timesOf calls c.key ++ [c.now] := by
    simp [timesOf]
  rw [slotsOf, htimes, FixedWindow.slots_snoc]
  rfl

theorem slotsOf_snoc_of_ne (calls : List Call) {c : Call} {key : String} (h : c.key ≠ key) :
    slotsOf windowSecs (calls ++ [c]) key = slotsOf windowSecs calls key := by
  have htimes : timesOf (calls ++ [c]) key = timesOf calls key := by
    simp [timesOf, h]
  rw [slotsOf, htimes, slotsOf]

theorem allFair_snoc {calls : List Call} {c : Call} :
    AllFair limit windowSecs (calls ++ [c]) ↔
      AllFair limit windowSecs calls ∧
        Fair (limit c.key) (windowSecs c.key) (nextSlot windowSecs calls c) := by
  constructor
  · intro h
    refine ⟨fun key s hs => ?_, ?_⟩
    · by_cases hkey : c.key = key
      · subst hkey
        apply h c.key
        rw [slotsOf_snoc_self]
        exact List.mem_append_left _ hs
      · apply h key
        rwa [slotsOf_snoc_of_ne calls hkey]
    · apply h c.key
      rw [slotsOf_snoc_self]
      exact List.mem_append_right _ (List.mem_singleton_self _)
  · rintro ⟨h, hnext⟩ key s hs
    by_cases hkey : c.key = key
    · subst hkey
      rw [slotsOf_snoc_self] at hs
      rcases List.mem_append.mp hs with hs | hs
      · exact h _ s hs
      · rw [List.mem_singleton.mp hs]
        exact hnext
    · rw [slotsOf_snoc_of_ne calls hkey] at hs
      exact h key s hs

theorem answersOf_snoc (log : List (Call × Answer)) (c : Call) (a : Answer) (key : String) :
    answersOf (log ++ [(c, a)]) key = answersOf log key ++ if c.key = key then [a] else [] := by
  by_cases hkey : c.key = key <;> simp [answersOf, hkey]

/-- **The stores are in step**: each holds the window of the last call of every key. -/
structure InStep (windowSecs : String → UInt64) (calls : List Call) (s : InMemoryRateLimitStore)
    (r : Counters) : Prop where
  unpoisoned : s.poisoned = false
  memory : ∀ key, s.store key =
    (slotsOf windowSecs calls key).getLast?.map (windowOf (windowSecs key))
  redis : ∀ key, r (RedisRateLimitStore.redisKey key) =
    (slotsOf windowSecs calls key).getLast?.map (counterOf (windowSecs key))

theorem InStep.new (windowSecs : String → UInt64) :
    InStep windowSecs [] InMemoryRateLimitStore.new fun _ => none :=
  ⟨rfl, fun _ => rfl, fun _ => rfl⟩

theorem redisKey_injective : Function.Injective RedisRateLimitStore.redisKey := by
  intro k k' h
  have htext := congrArg String.toList h
  simp only [RedisRateLimitStore.redisKey, String.toList_append] at htext
  exact String.toList_injective (List.append_cancel_left htext)

theorem one_le_ordinal_slotsOf (calls : List Call) (key : String) :
    ∀ p ∈ (slotsOf windowSecs calls key).getLast?, 1 ≤ p.ordinal :=
  fun p hp => FixedWindow.one_le_ordinal _ p (List.mem_of_getLast? hp)

/-- **A fair call keeps the stores in step**, and both answer by its number. -/
theorem InStep.step (hR : R.ReadsU32) (hwindow : ∀ key, windowSecs key ≠ 0) {calls : List Call}
    {s : InMemoryRateLimitStore} {r : Counters} (h : InStep windowSecs calls s r) (c : Call)
    (hfair : Fair (limit c.key) (windowSecs c.key) (nextSlot windowSecs calls c)) :
    (checkInMemory limit windowSecs s c).1 =
        .ok ((nextSlot windowSecs calls c).ordinal ≤ (limit c.key).toNat) ∧
      (checkRedis limit windowSecs R r c).1 =
        .ok ((nextSlot windowSecs calls c).ordinal ≤ (limit c.key).toNat) ∧
      InStep windowSecs (calls ++ [c]) (checkInMemory limit windowSecs s c).2
        (checkRedis limit windowSecs R r c).2 := by
  have hmemory := InMemoryRateLimitStore.check_of_fair h.unpoisoned (h.memory c.key) hfair
  have hredis := RedisRateLimitStore.check_of_fair hR (h.redis c.key)
    (one_le_ordinal_slotsOf calls c.key) (hwindow c.key) hfair
  rw [checkInMemory, checkRedis, hmemory, hredis]
  refine ⟨rfl, rfl, h.unpoisoned, fun key => ?_, fun key => ?_⟩
  · by_cases hkey : c.key = key
    · subst hkey
      rw [slotsOf_snoc_self, List.getLast?_concat]
      exact Function.update_self ..
    · rw [slotsOf_snoc_of_ne calls hkey, ← h.memory]
      exact Function.update_of_ne (Ne.symm hkey) ..
  · by_cases hkey : c.key = key
    · subst hkey
      rw [slotsOf_snoc_self, List.getLast?_concat]
      exact Function.update_self ..
    · rw [slotsOf_snoc_of_ne calls hkey, ← h.redis]
      exact Function.update_of_ne (fun heq => hkey (redisKey_injective heq).symm) ..

/-- The run of the store in memory. -/
def runInMemory (limit : String → UInt32) (windowSecs : String → UInt64) (calls : List Call) :
    List (Call × Answer) × InMemoryRateLimitStore :=
  checks (checkInMemory limit windowSecs) InMemoryRateLimitStore.new calls

/-- The run of the store in Redis. -/
def runRedis (R : Client) (limit : String → UInt32) (windowSecs : String → UInt64)
    (calls : List Call) : List (Call × Answer) × Counters :=
  checks (checkRedis limit windowSecs R) (fun _ => none) calls

/-- **In a run of fair calls the stores stay in step and answer by the numbers of the calls.** -/
theorem run_of_allFair (hR : R.ReadsU32) (hwindow : ∀ key, windowSecs key ≠ 0) {calls : List Call}
    (hfair : AllFair limit windowSecs calls) :
    InStep windowSecs calls (runInMemory limit windowSecs calls).2
        (runRedis R limit windowSecs calls).2 ∧
      (runInMemory limit windowSecs calls).1 = (runRedis R limit windowSecs calls).1 ∧
      ∀ key, answersOf (runInMemory limit windowSecs calls).1 key =
        (slotsOf windowSecs calls key).map fun s => .ok (s.ordinal ≤ (limit key).toNat) := by
  induction calls using List.reverseRecOn with
  | nil => exact ⟨.new windowSecs, rfl, fun _ => rfl⟩
  | append_singleton calls c ih =>
    obtain ⟨hcalls, hnext⟩ := allFair_snoc.mp hfair
    obtain ⟨hstep, hlog, hanswers⟩ := ih hcalls
    obtain ⟨hmemory, hredis, hinstep⟩ := hstep.step hR hwindow c hnext
    simp only [runInMemory, runRedis] at hlog hanswers hmemory hredis hinstep ⊢
    rw [checks_snoc, checks_snoc, hmemory, hredis]
    refine ⟨hinstep, by rw [hlog], fun key => ?_⟩
    rw [answersOf_snoc, hanswers]
    by_cases hkey : c.key = key
    · subst hkey
      rw [slotsOf_snoc_self, if_pos rfl, List.map_append, List.map_singleton]
    · rw [slotsOf_snoc_of_ne calls hkey, if_neg hkey, List.append_nil]

/-- In a run of fair calls, a window admits as many calls as its limit, or all of them. -/
theorem admitted_of_allFair (hR : R.ReadsU32) (hwindow : ∀ key, windowSecs key ≠ 0)
    {calls : List Call} (hfair : AllFair limit windowSecs calls) (key : String) (i : Nat) :
    admitted windowSecs calls (runInMemory limit windowSecs calls).1 key i =
      min (FixedWindow.ofWindow (slotsOf windowSecs calls key) i).length (limit key).toNat := by
  obtain ⟨-, -, hanswers⟩ := run_of_allFair hR hwindow hfair
  rw [admitted, hanswers, ← List.map_prod_left_eq_zip, List.countP_map, slotsOf,
    ← FixedWindow.countP_ofWindow]
  congr 1
  funext s
  simp

/-- A call adds itself to the admitted ones of its window, when it is. -/
theorem admitted_snoc {calls : List Call} {log : List (Call × Answer)} {c : Call} (a : Answer)
    (key : String) (i : Nat)
    (hlength : (slotsOf windowSecs calls key).length = (answersOf log key).length) :
    admitted windowSecs (calls ++ [c]) (log ++ [(c, a)]) key i =
      admitted windowSecs calls log key i +
        if c.key = key ∧ (nextSlot windowSecs calls c).index = i ∧ a = .ok true then 1 else 0 := by
  rw [admitted, admitted, answersOf_snoc]
  by_cases hkey : c.key = key
  · subst hkey
    rw [slotsOf_snoc_self, if_pos rfl, List.zip_append hlength, List.countP_append]
    simp [List.countP_singleton]
  · rw [slotsOf_snoc_of_ne calls hkey, if_neg hkey, List.append_nil]
    simp [hkey]

theorem checks_calls {σ : Type} (check : σ → Call → Answer × σ) (s : σ) (calls : List Call) :
    (checks check s calls).1.map Prod.fst = calls := by
  induction calls using List.reverseRecOn with
  | nil => rfl
  | append_singleton calls c ih => rw [checks_snoc, List.map_append, ih, List.map_singleton]

theorem length_answersOf {σ : Type} (check : σ → Call → Answer × σ) (s : σ) (calls : List Call)
    (key : String) :
    (slotsOf windowSecs calls key).length = (answersOf (checks check s calls).1 key).length := by
  have hcalls := congrArg (fun l => (l.filter fun c => c.key = key).length)
    (checks_calls check s calls)
  simp only [List.filter_map, List.length_map] at hcalls
  rw [slotsOf, FixedWindow.length_slots, timesOf, List.length_map, answersOf, List.length_map,
    ← hcalls]
  rfl

/-- The calls of a window before a call are those with smaller numbers. -/
theorem length_ofWindow_nextSlot (calls : List Call) (c : Call) :
    (FixedWindow.ofWindow (slotsOf windowSecs calls c.key)
      (nextSlot windowSecs calls c).index).length + 1 = (nextSlot windowSecs calls c).ordinal := by
  have hlast : nextSlot windowSecs calls c ∈ (slotsOf windowSecs (calls ++ [c]) c.key).getLast? := by
    rw [slotsOf_snoc_self, List.getLast?_concat]
    rfl
  obtain ⟨-, hcount⟩ := FixedWindow.last_spec _ _ hlast
  have hself : FixedWindow.ofWindow [nextSlot windowSecs calls c]
      (nextSlot windowSecs calls c).index = [nextSlot windowSecs calls c] := by
    simp [FixedWindow.ofWindow]
  change (FixedWindow.ofWindow (slotsOf windowSecs (calls ++ [c]) c.key) _).length = _ at hcount
  rw [slotsOf_snoc_self, FixedWindow.ofWindow_append, hself, List.length_append] at hcount
  exact hcount

/-- **When the stores agree, and no window admits more than its limit**: when every call is fair. -/
theorem same_answers_iff (R : Client) (hR : R.ReadsU32) (limit : String → UInt32)
    (windowSecs : String → UInt64) (hwindow : ∀ key, 1 ≤ windowSecs key) (calls : List Call) :
    ((runInMemory limit windowSecs calls).1 = (runRedis R limit windowSecs calls).1 ∧
      ∀ key i, admitted windowSecs calls (runInMemory limit windowSecs calls).1 key i ≤
        (limit key).toNat) ↔
      AllFair limit windowSecs calls := by
  have hpos : ∀ key, windowSecs key ≠ 0 := by
    intro key hzero
    have := hwindow key
    rw [hzero] at this
    exact absurd this (by decide)
  constructor
  · -- The last call is fair, or the answers differ, or its window admits too many.
    induction calls using List.reverseRecOn with
    | nil => exact fun _ _ => List.forall_mem_nil _
    | append_singleton calls c ih =>
      rintro ⟨hlog, hadmitted⟩
      have hlength := @length_answersOf windowSecs _ (checkInMemory limit windowSecs)
        InMemoryRateLimitStore.new calls
      simp only [runInMemory, runRedis] at hlog hadmitted ih
      rw [checks_snoc, checks_snoc] at hlog
      obtain ⟨hlog, hanswer⟩ := List.append_inj' hlog rfl
      have hcalls : AllFair limit windowSecs calls := by
        refine ih ⟨hlog, fun key i => ?_⟩
        have h := hadmitted key i
        rw [checks_snoc, admitted_snoc _ _ _ (hlength key)] at h
        exact le_trans (Nat.le_add_right _ _) h
      refine allFair_snoc.mpr ⟨hcalls, ?_⟩
      by_contra hunfair
      obtain ⟨hstep, -, -⟩ := run_of_allFair hR hpos hcalls
      have hlast : ∀ p ∈ (slotsOf windowSecs calls c.key).getLast?,
          Fair (limit c.key) (windowSecs c.key) p :=
        fun p hp => hcalls c.key p (List.mem_of_getLast? hp)
      rcases answers_ne_or_wraps hR hstep.unpoisoned (hstep.memory c.key) (hstep.redis c.key) hlast
        hunfair with hne | ⟨hlimit, hwraps, hallowed⟩
      · exact hne (congrArg Prod.snd (List.cons.inj hanswer).1)
      · -- The window has admitted its limit, and one call more.
        have h := hadmitted c.key (nextSlot windowSecs calls c).index
        have hfull := admitted_of_allFair hR hpos hcalls c.key (nextSlot windowSecs calls c).index
        have hallowed' : (checkInMemory limit windowSecs
            (checks (checkInMemory limit windowSecs) InMemoryRateLimitStore.new calls).2 c).1 =
              .ok true := hallowed
        rw [checks_snoc, admitted_snoc _ _ _ (hlength c.key), if_pos ⟨rfl, rfl, hallowed'⟩] at h
        have hcount := @length_ofWindow_nextSlot windowSecs calls c
        have hwraps' : (nextSlot windowSecs calls c).ordinal = 2 ^ 32 := hwraps
        have hlimit' : (limit c.key).toNat < 2 ^ 32 := (limit c.key).toNat_lt
        simp only [runInMemory] at hfull
        omega
  · intro hfair
    obtain ⟨-, hlog, -⟩ := run_of_allFair hR hpos hfair
    refine ⟨hlog, fun key i => ?_⟩
    rw [admitted_of_allFair hR hpos hfair]
    exact Nat.min_le_right _ _

end Run

/-! ### A client that reads what fits -/

def sampleClient : Client where
  readU32 n := if 0 ≤ n ∧ n < 2 ^ 32 then .ok (.ofNat n.toNat) else .error "out of range"
  overflow := "increment or decrement would overflow"
  invalidExpire := "invalid expire time in 'expire' command"

theorem sampleClient_readsU32 : sampleClient.ReadsU32 := by
  intro n hn
  have hrange : (0 : Int) ≤ n ∧ (n : Int) < 2 ^ 32 := by omega
  simp only [sampleClient, if_pos hrange, Int.toNat_natCast]

/-- A minute, for every key. -/
def minute : String → UInt64 := fun _ => 60

theorem one_le_minute (key : String) : 1 ≤ minute key := by
  change (1 : UInt64) ≤ 60
  decide

/-- Two calls within one window. -/
def twoCalls : List Call := [⟨0, "login"⟩, ⟨5, "login"⟩]

theorem same_answers_iff_twice :
    ((runInMemory (fun _ => 1) minute twoCalls).1 =
        (runRedis sampleClient (fun _ => 1) minute twoCalls).1 ∧
      ∀ key i, admitted minute twoCalls (runInMemory (fun _ => 1) minute twoCalls).1 key i ≤
          (1 : UInt32).toNat) ↔
      AllFair (fun _ => 1) minute twoCalls :=
  same_answers_iff sampleClient sampleClient_readsU32 (fun _ => 1) minute one_le_minute twoCalls

/-- With a limit of zero, the store in memory admits the first call of every window. -/
theorem zero_limit_admits :
    (runInMemory (fun _ => 0) minute [⟨0, "login"⟩]).1.map Prod.snd = [.ok true] ∧
      (runRedis sampleClient (fun _ => 0) minute [⟨0, "login"⟩]).1.map Prod.snd = [.ok false] ∧
      admitted minute [⟨0, "login"⟩]
        (runInMemory (fun _ => 0) minute [⟨0, "login"⟩]).1 "login" 0 = 1 := by
  decide +kernel

end RateLimit

end Authrs
