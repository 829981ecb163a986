import Authrs.Caches.TenantConfig
import Authrs.Interaction.Serial
import Authrs.Store.Runs

/-!
# Calls over the cache of the tenant configuration

The services look at the configuration through `TenantConfigLoader`, whose cache the handler of their
requests leaves out. Here the requests have a meaning with the cache: a look is served from it, or reads
the table and keeps the row for a minute. As long as the cache agrees with the table, a program does the
same with the cache and without it.

## Main definitions

* `CachedState`, `handleCached`: the state with the cache, and the meaning of the requests there
* `CachedState.Agrees`: the rows in the cache are the stored ones
* `NamesPlain`: a request that looks under a name without colons, if at all

## Main results

* `exec_get_cached`: a look with this meaning is `CachedConfig.get`
* `exec_get_of_agrees`: while the cache agrees with the table, `CachedConfig.get` reads `Db.config`
* `exec_cached`: a program does the same with a cache that agrees and without one
-/

namespace Authrs

open Interaction

namespace CachedConfig

variable {w : World}

/-- A row that can be read, and until when it is kept. -/
structure CachedRow (w : World) where
  row : KvStoreRow
  expiresAt : Time
  decodes : (row.decode w).toOption.isSome = true

/-- The value of a row. -/
def CachedRow.value (c : CachedRow w) : Json := (c.row.decode w).toOption.get c.decodes

def CachedRow.entry (c : CachedRow w) : CacheEntry := ⟨c.value, c.expiresAt⟩

theorem CachedRow.decode_eq (c : CachedRow w) : c.row.decode w = .ok c.value := by
  have hvalue : (c.row.decode w).toOption = some c.value := (Option.some_get c.decodes).symm
  cases hdecode : c.row.decode w with
  | error e =>
    rw [hdecode] at hvalue
    cases hvalue
  | ok v =>
    rw [hdecode] at hvalue
    exact congrArg _ (Option.some.inj hvalue)

/-- The state of the services, with the cache of the loader. -/
structure CachedState (w : World) where
  state : State
  cache : String → Option (CachedRow w)

namespace CachedState

/-- A service that has just started. -/
def fresh (w : World) (s : State) : CachedState w := ⟨s, fun _ => none⟩

/-- What the steps of the loader act on. -/
def config (s : CachedState w) : ConfigState :=
  ⟨s.state.db, none, fun ck => (s.cache ck).map CachedRow.entry, s.state.now⟩

/-- The entry that a look is served from. -/
def served (s : CachedState w) (ck : String) : Option (CachedRow w) :=
  (s.cache ck).filter fun c => s.state.now < c.expiresAt

/-- A row that can be read is kept for a minute. -/
def keepRow (s : CachedState w) (ck : String) (row : KvStoreRow) : CachedState w :=
  if h : (row.decode w).toOption.isSome = true then
    ⟨s.state, Function.update s.cache ck (some ⟨row, s.state.now + seconds CACHE_TTL_SECS, h⟩)⟩
  else s

/-- What is looked up, and the state after it. -/
def look (s : CachedState w) (tenantId groupKey key : String) : Option KvStoreRow × CachedState w :=
  let ck := cacheKey tenantId groupKey key
  let row := s.state.db.kv tenantId groupKey key
  (s.served ck).elim (row, row.elim s (s.keepRow ck)) fun c => (some c.row, s)

end CachedState

/-- **The meaning of the requests, with the cache.** -/
def handleCached (w : World) : Handler authrs (CachedState w)
  | .sql (.kv (.get tenantId groupKey key)), s =>
    (.ok (s.look tenantId groupKey key).1, (s.look tenantId groupKey key).2)
  | q, s => ((handle w q s.state).1, { s with state := (handle w q s.state).2 })

/-! ### A look is one of the loader's -/

theorem config_keepRow {s : CachedState w} {ck : String} {row : KvStoreRow} {v : Json}
    (h : row.decode w = .ok v) : (s.keepRow ck row).config =
      (handleConfig (.cacheInsert ck v (s.state.now + seconds CACHE_TTL_SECS)) s.config).2 := by
  have hdecodes : (row.decode w).toOption.isSome = true := by
    rw [h]
    rfl
  rw [CachedState.keepRow, dif_pos hdecodes]
  have hvalue : ∀ c : CachedRow w, c.row = row → c.value = v := by
    rintro c rfl
    exact Except.ok.inj (c.decode_eq.symm.trans h)
  simp only [CachedState.config, handleConfig, ConfigState.mk.injEq, true_and, and_true]
  funext ck'
  by_cases hck : ck' = ck
  · subst hck
    rw [Function.update_self, Function.update_self, Option.map_some]
    exact congrArg some (congrArg (CacheEntry.mk · _) (hvalue _ rfl))
  · rw [Function.update_of_ne hck, Function.update_of_ne hck]

theorem keepRow_of_error {s : CachedState w} {ck : String} {row : KvStoreRow} {e : AppError}
    (h : row.decode w = .error e) : s.keepRow ck row = s := by
  have hdecodes : ¬(row.decode w).toOption.isSome = true := by
    rw [h]
    exact Bool.false_ne_true
  rw [CachedState.keepRow, dif_neg hdecodes]

/-- What is loaded when nothing is served. -/
theorem exec_loadAndKeep (s : CachedState w) (t g k : String) :
    (loadAndKeep w t g k).exec handleConfig s.config = (s.state.db.config w t g k,
      ((s.state.db.kv t g k).elim s (s.keepRow (cacheKey t g k))).config) := by
  have hload : (step (.load t g k)).exec handleConfig s.config =
      (.ok (.ok (s.state.db.kv t g k)), s.config) := rfl
  unfold loadAndKeep Db.config
  rw [Program.bind_eq, Program.exec_bind, hload]
  cases s.state.db.kv t g k with
  | none => rfl
  | some row =>
    cases hdecode : row.decode w with
    | error e =>
      have hvalue : decodeKv w (some row) = .error e := by
        rw [decodeKv, hdecode]
        rfl
      change ((Program.ofExcept (decodeKv w (some row))).bind _).exec handleConfig s.config = _
      rw [Option.elim_some, keepRow_of_error hdecode, hvalue]
      rfl
    | ok v =>
      have hvalue : decodeKv w (some row) = .ok (some v) := by
        rw [decodeKv, hdecode]
        rfl
      change ((Program.ofExcept (decodeKv w (some row))).bind _).exec handleConfig s.config = _
      rw [Option.elim_some, config_keepRow hdecode, hvalue]
      rfl

/-- What is served without a look at the table. -/
theorem exec_unexpired (s : CachedState w) (ck : String) :
    (unexpired ((s.cache ck).map CachedRow.entry)).exec handleConfig s.config =
      (.ok ((s.served ck).map CachedRow.value), s.config) := by
  rw [CachedState.served]
  cases s.cache ck with
  | none => rfl
  | some c =>
    rw [Option.map_some, Option.filter_some, unexpired, Program.bind_eq]
    change (Program.pure (if s.state.now < c.expiresAt then _ else _)).exec handleConfig s.config = _
    by_cases h : s.state.now < c.expiresAt
    · rw [if_pos h, if_pos (decide_eq_true h)]
      rfl
    · rw [if_neg h, if_neg (by simpa using h)]
      rfl

/-- **A look of the loader**, with what is in the cache. -/
theorem exec_get (s : CachedState w) (t g k : String) :
    (CachedConfig.get w t g k).exec handleConfig s.config =
      (decodeKv w (s.look t g k).1, (s.look t g k).2.config) := by
  have hentry : (step (.cacheGet (cacheKey t g k))).exec handleConfig s.config =
      (.ok ((s.cache (cacheKey t g k)).map CachedRow.entry), s.config) := rfl
  rw [CachedConfig.get, Program.bind_eq, Program.exec_bind, hentry]
  change ((unexpired ((s.cache (cacheKey t g k)).map CachedRow.entry)).bind _).exec handleConfig
    s.config = _
  rw [Program.exec_bind, exec_unexpired, CachedState.look]
  cases s.served (cacheKey t g k) with
  | none => exact exec_loadAndKeep s t g k
  | some c =>
    have hvalue : decodeKv w (some c.row) = .ok (some c.value) := by
      rw [decodeKv, c.decode_eq]
      rfl
    rw [Option.elim_some, hvalue]
    rfl

/-- **A look with this meaning is one of the loader's**: it returns what `CachedConfig.get` returns, and
leaves the cache as that does. -/
theorem exec_get_cached (s : CachedState w) (t g k : String) :
    ((TenantConfigLoader.get w t g k).exec (handleCached w) s).1 =
        ((CachedConfig.get w t g k).exec handleConfig s.config).1.mapError Failure.error ∧
      ((TenantConfigLoader.get w t g k).exec (handleCached w) s).2.config =
        ((CachedConfig.get w t g k).exec handleConfig s.config).2 := by
  have hlook : (TenantConfigLoader.get w t g k).exec (handleCached w) s =
      ((decodeKv w (s.look t g k).1).mapError Failure.error, (s.look t g k).2) := by
    change (Program.ofExcept ((decodeKv w (s.look t g k).1).mapError Failure.error)).exec
      (handleCached w) (s.look t g k).2 = _
    cases decodeKv w (s.look t g k).1 <;> rfl
  rw [hlook, exec_get]
  exact ⟨rfl, rfl⟩

/-! ### A cache that agrees with the table -/

/-- The name of a group or a key has no colon. -/
def NamesPlain (groupKey key : String) : Prop := ':' ∉ groupKey.toList ∧ ':' ∉ key.toList

/-- The last part of a text is determined when it has no separator. -/
theorem append_cons_inj {c : Char} {a b x y : List Char} (hx : c ∉ x) (hy : c ∉ y) :
    a ++ c :: x = b ++ c :: y ↔ a = b ∧ x = y := by
  constructor
  · intro h
    have hreversed : x.reverse ++ c :: a.reverse = y.reverse ++ c :: b.reverse := by
      simpa using congrArg List.reverse h
    have hsplit : splitOnceList c (x.reverse ++ c :: a.reverse) = some (x.reverse, a.reverse) :=
      splitOnceList_eq_some.mpr ⟨rfl, by simpa using hx⟩
    have hsplit' : splitOnceList c (x.reverse ++ c :: a.reverse) = some (y.reverse, b.reverse) :=
      splitOnceList_eq_some.mpr ⟨hreversed, by simpa using hy⟩
    obtain ⟨hlast, hfirst⟩ := Prod.mk.inj (Option.some.inj (hsplit.symm.trans hsplit'))
    exact ⟨List.reverse_inj.mp hfirst, List.reverse_inj.mp hlast⟩
  · rintro ⟨rfl, rfl⟩
    rfl

/-- **Keys with plain names are told apart by their texts**, whatever the tenant. -/
theorem cacheKey_inj_of_plain {t g k t' g' k' : String} (h : NamesPlain g k) (h' : NamesPlain g' k') :
    cacheKey t g k = cacheKey t' g' k' ↔ t = t' ∧ g = g' ∧ k = k' := by
  have htext : ∀ t g k : String,
      (cacheKey t g k).toList = (t.toList ++ ':' :: g.toList) ++ ':' :: k.toList := by
    intro t g k
    simp [cacheKey]
  rw [← String.toList_inj, htext, htext, append_cons_inj h.2 h'.2, append_cons_inj h.1 h'.1,
    String.toList_inj, String.toList_inj, String.toList_inj, and_assoc]

/-- **The cache agrees with the table**: what it holds under a key is the stored row. -/
def CachedState.Agrees (s : CachedState w) : Prop :=
  ∀ t g k c, NamesPlain g k → s.cache (cacheKey t g k) = some c → s.state.db.kv t g k = some c.row

theorem agrees_fresh (w : World) (s : State) : (CachedState.fresh w s).Agrees := nofun

/-- A look finds the stored row. -/
theorem CachedState.Agrees.look {s : CachedState w} (hs : s.Agrees) {t g k : String}
    (hname : NamesPlain g k) : (s.look t g k).1 = s.state.db.kv t g k := by
  rw [CachedState.look]
  cases hserved : s.served (cacheKey t g k) with
  | none => rfl
  | some c => exact (hs t g k c hname (Option.filter_eq_some_iff.mp hserved).1).symm

theorem look_state (s : CachedState w) (t g k : String) : (s.look t g k).2.state = s.state := by
  rw [CachedState.look]
  cases s.served (cacheKey t g k) with
  | some c => rfl
  | none =>
    cases s.state.db.kv t g k with
    | none => rfl
    | some row =>
      rw [Option.elim_none, Option.elim_some, CachedState.keepRow]
      split <;> rfl

/-- A stored row that is kept agrees with the table. -/
theorem CachedState.Agrees.keepRow {s : CachedState w} (hs : s.Agrees) {t g k : String}
    (hname : NamesPlain g k) {row : KvStoreRow} (hrow : s.state.db.kv t g k = some row) :
    (s.keepRow (cacheKey t g k) row).Agrees := by
  rw [CachedState.keepRow]
  split
  · intro t' g' k' c hname' hc
    dsimp only at hc ⊢
    by_cases hkey : cacheKey t' g' k' = cacheKey t g k
    · rw [hkey, Function.update_self] at hc
      obtain ⟨rfl, rfl, rfl⟩ := (cacheKey_inj_of_plain hname' hname).mp hkey
      obtain rfl := Option.some.inj hc
      exact hrow
    · rw [Function.update_of_ne hkey] at hc
      exact hs t' g' k' c hname' hc
  · exact hs

/-- **A look keeps the agreement.** -/
theorem CachedState.Agrees.after_look {s : CachedState w} (hs : s.Agrees) {t g k : String}
    (hname : NamesPlain g k) : (s.look t g k).2.Agrees := by
  rw [CachedState.look]
  cases s.served (cacheKey t g k) with
  | some c => exact hs
  | none =>
    cases hrow : s.state.db.kv t g k with
    | none => exact hs
    | some row => exact hs.keepRow hname hrow

/-- The agreement is about the table of the configuration only. -/
theorem CachedState.Agrees.of_kvStore {s : CachedState w} (hs : s.Agrees) {s' : State}
    (h : s'.db.kvStore = s.state.db.kvStore) : (⟨s', s.cache⟩ : CachedState w).Agrees := by
  intro t g k c hname hc
  have hkv : s'.db.kv t g k = s.state.db.kv t g k := by
    rw [Db.kv, Db.kv, h]
  exact hkv.trans (hs t g k c hname hc)

/-- **While the cache agrees with the table, `CachedConfig.get` reads `Db.config`**, as
`TenantConfigLoader.get` does, and keeps the agreement. -/
theorem exec_get_of_agrees {s : CachedState w} (hs : s.Agrees) {t g k : String}
    (hname : NamesPlain g k) : ∃ s' : CachedState w, s'.state = s.state ∧ s'.Agrees ∧
      (CachedConfig.get w t g k).exec handleConfig s.config =
        (s.state.db.config w t g k, s'.config) := by
  refine ⟨(s.look t g k).2, look_state s t g k, hs.after_look hname, ?_⟩
  rw [exec_get, hs.look hname]
  rfl

/-! ### Programs -/

/-- The request looks under a plain name, if it looks at the configuration. -/
def LooksPlainly (q : Request) : Prop :=
  ∀ t g k, q = .sql (.kv (.get t g k)) → NamesPlain g k

/-- A request gets the same reply with a cache that agrees, which goes on agreeing. -/
theorem handleCached_agrees {q : Request} (hq : LooksPlainly q) {s : CachedState w} (hs : s.Agrees) :
    (handleCached w q s).1 = (handle w q s.state).1 ∧
      (handleCached w q s).2.state = (handle w q s.state).2 ∧ (handleCached w q s).2.Agrees := by
  by_cases hlook : ∃ t g k, q = .sql (.kv (.get t g k))
  · obtain ⟨t, g, k, rfl⟩ := hlook
    have hname := hq t g k rfl
    refine ⟨?_, look_state s t g k, hs.after_look hname⟩
    exact congrArg Except.ok (hs.look hname)
  · have hother : handleCached w q s =
        ((handle w q s.state).1, { s with state := (handle w q s.state).2 }) := by
      unfold handleCached
      split
      · exact absurd ⟨_, _, _, rfl⟩ hlook
      · rfl
    rw [hother]
    exact ⟨rfl, rfl, hs.of_kvStore (handle_kvStore w s.state q)⟩

/-- **A program does the same with a cache that agrees and without one**: it returns the same, leaves
the same state, and makes the same exchanges. -/
theorem exec_cached {α : Type} {p : Service α} (hp : p.Asks LooksPlainly) {s : CachedState w}
    (hs : s.Agrees) :
    (p.exec (handleCached w) s).1 = (p.exec (handle w) s.state).1 ∧
      ((p.exec (handleCached w) s).2.Agrees ∧
        (p.exec (handleCached w) s).2.state = (p.exec (handle w) s.state).2) ∧
      (p.trace (handleCached w) s).map Prod.fst = (p.trace (handle w) s.state).map Prod.fst := by
  refine hp.simulates (handleCached w) (R := fun (s : CachedState w) t => s.Agrees ∧ s.state = t) ?_
    ⟨hs, rfl⟩
  rintro q hq s _ ⟨hs, rfl⟩
  obtain ⟨hreply, hstate, hagrees⟩ := handleCached_agrees hq hs
  exact ⟨hreply, hagrees, hstate⟩

end CachedConfig

end Authrs
