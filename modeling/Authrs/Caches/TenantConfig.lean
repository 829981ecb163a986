import Authrs.Interaction.Since
import Authrs.Services.TenantConfig

/-!
# The cache of the tenant configuration

`TenantConfigLoader::get` keeps what it has loaded for a minute, under the joined text of tenant, group
and key. Calls run side by side, and look, load and insert in separate steps, while the table changes
and time passes. Without colons in the three parts no two keys have one text, so what is served was
stored under the very key, at a moment of a load that ended less than a minute ago.

## Main definitions

* `ConfigRequest`, `ConfigState`: the steps of the calls, and what they act on
* `CachedConfig.get`, `CachedConfig.invalidateTenant`: their namesakes in the source
* `Served`: a value was stored at a moment that is recent enough

## Main results

* `cacheKey_inj`: keys without colons are told apart by their texts
* `startsWith_cacheKey`: an invalidation removes the entries of its tenant
* `config_served`: what a call returns was stored, or was absent
-/

namespace Authrs

open Interaction

namespace CachedConfig

def CACHE_TTL_SECS : Int := 60

structure CacheEntry where
  value : Json
  expiresAt : Time

def cacheKey (tenantId groupKey key : String) : String :=
  tenantId ++ ":" ++ groupKey ++ ":" ++ key

/-- A step of a call. -/
inductive ConfigRequest
  | cacheGet (ck : String)
  | clock
  | load (tenantId groupKey key : String)
  | cacheInsert (ck : String) (value : Json) (expiresAt : Time)
  | retainOthers (tenantPrefix : String)

/-- The reply to a step. -/
@[reducible] def ConfigReply : ConfigRequest → Type
  | .cacheGet _ => Option CacheEntry
  | .clock => Time
  | .load .. => Except AppError (Option KvStoreRow)
  | .cacheInsert .. => Unit
  | .retainOthers _ => Unit

abbrev configSteps : Interface := ⟨ConfigRequest, ConfigReply⟩

/-- What the calls act on: the table, whether it can be reached, the cache, and the clock. -/
structure ConfigState where
  db : Db
  outage : Option AppError
  cache : String → Option CacheEntry
  now : Time

/-- A service that has just started. -/
def ConfigState.fresh (db : Db) (now : Time) : ConfigState := ⟨db, none, fun _ => none, now⟩

/-- **The meaning of the steps.** -/
def handleConfig : Handler configSteps ConfigState
  | .cacheGet ck, s => (s.cache ck, s)
  | .clock, s => (s.now, s)
  | .load tenantId groupKey key, s =>
    (s.outage.elim (.ok (s.db.kv tenantId groupKey key)) .error, s)
  | .cacheInsert ck value expiresAt, s =>
    ((), { s with cache := Function.update s.cache ck (some ⟨value, expiresAt⟩) })
  | .retainOthers tenantPrefix, s =>
    ((), { s with cache := fun ck =>
      if tenantPrefix.toList.isPrefixOf ck.toList then none else s.cache ck })

/-- What happens besides: time passes, the tables are written, the database fails and recovers. -/
inductive Surroundings
  | pass (d : Nat)
  | write (db : Db)
  | outage (e : Option AppError)

def Surroundings.act : Surroundings → ConfigState → ConfigState
  | .pass d, s => { s with now := s.now + d }
  | .write db, s => { s with db := db }
  | .outage e, s => { s with outage := e }

/-- A part of a call. -/
abbrev Steps (α : Type) : Type := Program configSteps AppError α

def step (q : ConfigRequest) : Steps (ConfigReply q) := Program.request (I := configSteps) q

/-- The value of an entry that has not expired. -/
def unexpired : Option CacheEntry → Steps (Option Json)
  | none => pure none
  | some ent => do
    let now ← step .clock
    pure (if now < ent.expiresAt then some ent.value else none)

/-- What is loaded when the cache has nothing; a value is kept for a minute. -/
def loadAndKeep (w : World) (tenantId groupKey key : String) : Steps (Option Json) := do
  let row ← step (.load tenantId groupKey key)
  let row ← Program.ofExcept row
  let value ← Program.ofExcept (decodeKv w row)
  match value with
  | none => pure none
  | some v =>
    let now ← step .clock
    let _ ← step (.cacheInsert (cacheKey tenantId groupKey key) v (now + seconds CACHE_TTL_SECS))
    pure (some v)

/-- `TenantConfigLoader::get` -/
def get (w : World) (tenantId groupKey key : String) : Steps (Option Json) := do
  let ent ← step (.cacheGet (cacheKey tenantId groupKey key))
  match ← unexpired ent with
  | some v => pure (some v)
  | none => loadAndKeep w tenantId groupKey key

/-- Invalidate cache for a tenant. -/
def invalidateTenant (tenantId : String) : Steps Unit := step (.retainOthers (tenantId ++ ":"))

/-! ### Keys -/

/-- Neither part has a colon. -/
def ColonFree (tenantId groupKey key : String) : Prop :=
  ':' ∉ tenantId.toList ∧ ':' ∉ groupKey.toList ∧ ':' ∉ key.toList

theorem cacheKey_eq_joinStr (tenantId groupKey key : String) :
    cacheKey tenantId groupKey key = joinStr [tenantId, groupKey, key] ':' := by
  apply String.toList_inj.mp
  simp [cacheKey, joinStr, List.intercalate]

/-- **Keys without colons are told apart by their texts.** -/
theorem cacheKey_inj {t g k t' g' k' : String} (h : ColonFree t g k) (h' : ColonFree t' g' k') :
    cacheKey t g k = cacheKey t' g' k' ↔ t = t' ∧ g = g' ∧ k = k' := by
  rw [cacheKey_eq_joinStr, cacheKey_eq_joinStr, joinStr_inj (List.cons_ne_nil _ _)
    (List.cons_ne_nil _ _) (by simpa [ColonFree] using h) (by simpa [ColonFree] using h')]
  simp

/-- **The texts of a tenant's keys, and of no other tenant's, start with its prefix.** -/
theorem startsWith_cacheKey {t t' g k : String} (h : ':' ∉ t.toList) (h' : ':' ∉ t'.toList) :
    (t ++ ":").toList.isPrefixOf (cacheKey t' g k).toList = true ↔ t = t' := by
  rw [List.isPrefixOf_iff_prefix]
  constructor
  · rintro ⟨rest, hrest⟩
    have hsplit : splitOnce (cacheKey t' g k) ':' = some (t, .ofList rest) := by
      rw [splitOnce_eq_some, ← hrest]
      simp [h]
    have hsplit' : splitOnce (cacheKey t' g k) ':' = some (t', g ++ ":" ++ k) := by
      rw [splitOnce_eq_some]
      simp [h', cacheKey]
    rw [hsplit] at hsplit'
    exact (Prod.mk.inj (Option.some.inj hsplit')).1
  · rintro rfl
    exact ⟨(g ++ ":" ++ k).toList, by simp [cacheKey]⟩

/-! ### What a call does -/

/-- The value that a row is kept with. -/
def KeptFrom (w : World) (t g k : String) (v : Json) (h : List (Event configSteps)) : Prop :=
  ∃ row h', h = ⟨ConfigRequest.load t g k, .ok row⟩ :: h' ∧ decodeKv w row = .ok (some v)

/-- An insertion comes after a load of the value and a look at the clock. -/
def KeepStep (w : World) (h : List (Event configSteps)) (e : Event configSteps) : Prop :=
  ∀ ck v expiresAt, e.request = .cacheInsert ck v expiresAt → ∃ t g k now h',
    ColonFree t g k ∧ ck = cacheKey t g k ∧ expiresAt = now + seconds CACHE_TTL_SECS ∧
    h = ⟨ConfigRequest.clock, now⟩ :: h' ∧ KeptFrom w t g k v h'

theorem keepStep_of_ne {w : World} {h : List (Event configSteps)} {e : Event configSteps}
    (he : ∀ ck v expiresAt, e.request ≠ .cacheInsert ck v expiresAt) : KeepStep w h e :=
  fun ck v expiresAt hq => absurd hq (he ck v expiresAt)

/-- What a call has done when it returns: it has found an entry that had not expired, or it has loaded
the value. -/
def Answered (w : World) (t g k : String) (h : List (Event configSteps)) :
    Except AppError (Option Json) → Prop
  | .ok (some v) =>
    (∃ now ent, h = [⟨ConfigRequest.clock, now⟩, ⟨ConfigRequest.cacheGet (cacheKey t g k), some ent⟩] ∧
      now < ent.expiresAt ∧ v = ent.value) ∨
    ∃ e now h', h = e :: ⟨ConfigRequest.clock, now⟩ :: h' ∧ KeptFrom w t g k v h'
  | .ok none => ∃ h', h = ⟨ConfigRequest.load t g k, .ok none⟩ :: h'
  | .error _ => True

theorem loadAndKeep_keeps (w : World) {t g k : String} (hfree : ColonFree t g k)
    (h : List (Event configSteps)) :
    (loadAndKeep w t g k).Keeps (.ofGuarantee (KeepStep w)) (Answered w t g k) h := by
  intro row _
  refine ⟨keepStep_of_ne nofun, ?_⟩
  change ((Program.ofExcept row).bind _).Keeps _ _ _
  cases row with
  | error e => trivial
  | ok row =>
    change ((Program.ofExcept (decodeKv w row)).bind _).Keeps _ _ _
    cases hvalue : decodeKv w row with
    | error e => trivial
    | ok value =>
      cases value with
      | none =>
        -- Only an absent row has no value.
        cases row with
        | none => exact ⟨h, rfl⟩
        | some row =>
          change (row.decode w).map some = _ at hvalue
          cases hdecode : row.decode w <;> rw [hdecode] at hvalue <;> cases hvalue
      | some v =>
        intro now _
        refine ⟨keepStep_of_ne nofun, ?_⟩
        intro u _
        have hkept : KeptFrom w t g k v (⟨ConfigRequest.load t g k, .ok row⟩ :: h) :=
          ⟨row, h, rfl, hvalue⟩
        refine ⟨?_, .inr ⟨_, _, _, rfl, hkept⟩⟩
        intro ck v' expiresAt hq
        obtain ⟨rfl, rfl, rfl⟩ := ConfigRequest.cacheInsert.inj hq
        exact ⟨t, g, k, now, _, hfree, rfl, rfl, rfl, hkept⟩

theorem get_keeps (w : World) {t g k : String} (hfree : ColonFree t g k) :
    (get w t g k).Keeps (.ofGuarantee (KeepStep w)) (Answered w t g k) [] := by
  intro ent _
  refine ⟨keepStep_of_ne nofun, ?_⟩
  cases ent with
  | none => exact loadAndKeep_keeps w hfree _
  | some ent =>
    intro now _
    refine ⟨keepStep_of_ne nofun, ?_⟩
    by_cases hfresh : now < ent.expiresAt
    · simp only [Program.pure_bind, Program.pure_eq, if_pos hfresh]
      exact .inl ⟨now, ent, rfl, hfresh, rfl⟩
    · simp only [Program.pure_bind, Program.pure_eq, if_neg hfresh]
      exact loadAndKeep_keeps w hfree _

/-! ### Runs -/

/-- A call of the loader. -/
inductive ConfigCall
  | get (tenantId groupKey key : String)
  | invalidateTenant (tenantId : String)

namespace ConfigCall

def run (w : World) : ConfigCall → Steps (Option Json)
  | .get tenantId groupKey key => CachedConfig.get w tenantId groupKey key
  | .invalidateTenant tenantId => do
    CachedConfig.invalidateTenant tenantId
    pure none

/-- The texts of the call have no colons. -/
def ColonFree : ConfigCall → Prop
  | .get tenantId groupKey key => CachedConfig.ColonFree tenantId groupKey key
  | .invalidateTenant tenantId => ':' ∉ tenantId.toList

/-- What a call has done when it returns. -/
def Answered (w : World) : ConfigCall → List (Event configSteps) → Except AppError (Option Json) → Prop
  | .get tenantId groupKey key => CachedConfig.Answered w tenantId groupKey key
  | .invalidateTenant _ => fun _ _ => True

theorem run_keeps (w : World) {c : ConfigCall} (hfree : c.ColonFree) :
    (c.run w).Keeps (.ofGuarantee (KeepStep w)) (c.Answered w) [] := by
  cases c with
  | get t g k => exact get_keeps w hfree
  | invalidateTenant t => exact fun _ _ => ⟨keepStep_of_ne nofun, trivial⟩

end ConfigCall

section Runs

variable {ι : Type}

/-- The value was stored when the move `load` loaded it; `kept` is the later look at the clock with which
the same call puts what it has loaded into the cache. -/
structure Loaded (w : World) (t g k : String) (v : Json) (kept load : Move configSteps ι ConfigState) :
    Prop where
  who : kept.who = load.who
  loads : load.event.request = .load t g k
  looks : kept.event.request = .clock
  stored : load.before.db.config w t g k = .ok (some v)

/-- Where an entry of the cache comes from. -/
def Provenance (w : World) (log : List (Move configSteps ι ConfigState)) (ck : String)
    (ent : CacheEntry) : Prop :=
  ∃ t g k newer kept between load older, ColonFree t g k ∧ ck = cacheKey t g k ∧
    log = newer ++ kept :: (between ++ load :: older) ∧ Loaded w t g k ent.value kept load ∧
    ent.expiresAt = kept.before.now + seconds CACHE_TTL_SECS

theorem Provenance.cons {w : World} {log : List (Move configSteps ι ConfigState)} {ck : String}
    {ent : CacheEntry} (h : Provenance w log ck ent) (m : Move configSteps ι ConfigState) :
    Provenance w (m :: log) ck ent := by
  obtain ⟨t, g, k, newer, kept, between, load, older, hfree, hck, rfl, hrest⟩ := h
  exact ⟨t, g, k, m :: newer, kept, between, load, older, hfree, hck, rfl, hrest⟩

/-- The replies of a record are those of the steps. -/
def Replied (log : List (Move configSteps ι ConfigState)) : Prop :=
  ∀ m ∈ log, m.event.reply = (handleConfig m.event.request m.before).1

/-- The replies of a record are those of the steps, and the entries of the cache have been loaded. -/
structure ConfigInv (w : World) (s : ConfigState) (log : List (Move configSteps ι ConfigState)) :
    Prop where
  replies : Replied log
  cache : ∀ ck ent, s.cache ck = some ent → Provenance w log ck ent

variable [DecidableEq ι]

/-- The moves of a load and of a look at the clock. -/
theorem loaded_of_own {w : World} {log : List (Move configSteps ι ConfigState)} (h : Replied log)
    {i : ι} {now : Time} {t g k : String} {v : Json} {h' : List (Event configSteps)}
    (hown : own i log = ⟨ConfigRequest.clock, now⟩ :: h') (hkept : KeptFrom w t g k v h') :
    ∃ newer kept between load older, log = newer ++ kept :: (between ++ load :: older) ∧
      Loaded w t g k v kept load ∧ load.who = i ∧ kept.before.now = now := by
  obtain ⟨row, older', rfl, hvalue⟩ := hkept
  have hown' : own i log =
      [] ++ ⟨ConfigRequest.clock, now⟩ :: ⟨ConfigRequest.load t g k, .ok row⟩ :: older' := hown
  obtain ⟨newer, kept, rest, rfl, hkeptwho, hkept, hrest⟩ := own_split hown'
  have hrest' : own i rest = [] ++ ⟨ConfigRequest.load t g k, .ok row⟩ :: older' := hrest
  obtain ⟨between, load, older, rfl, hloadwho, hload, -⟩ := own_split hrest'
  have hclock := h kept (by simp)
  have hrow := h load (by simp)
  obtain ⟨who, event, before⟩ := kept
  obtain ⟨who', event', before'⟩ := load
  subst hkept hload
  refine ⟨newer, _, between, _, older, rfl, ⟨hkeptwho.trans hloadwho.symm, rfl, rfl, ?_⟩, hloadwho,
    hclock.symm⟩
  -- The row that was loaded is the one of that moment.
  have hstored : before'.db.kv t g k = row := by
    change Except.ok row = before'.outage.elim (.ok (before'.db.kv t g k)) .error at hrow
    cases houtage : before'.outage with
    | some e =>
      rw [houtage] at hrow
      cases hrow
    | none =>
      rw [houtage] at hrow
      exact (Except.ok.inj hrow).symm
  change decodeKv w (before'.db.kv t g k) = _
  rw [hstored, hvalue]

/-- **A step keeps the invariant**, when an insertion follows a load. -/
theorem ConfigInv.step {w : World} {s : ConfigState} {log : List (Move configSteps ι ConfigState)}
    (h : ConfigInv w s log) {i : ι} {q : ConfigRequest}
    (hstep : KeepStep w (own i log) ⟨q, (handleConfig q s).1⟩) :
    ConfigInv w (handleConfig q s).2 (⟨i, ⟨q, (handleConfig q s).1⟩, s⟩ :: log) := by
  constructor
  · intro m hm
    rcases List.mem_cons.mp hm with rfl | hm
    · rfl
    · exact h.replies m hm
  · intro ck ent hent
    have hbefore : s.cache ck = some ent →
        Provenance w (⟨i, ⟨q, (handleConfig q s).1⟩, s⟩ :: log) ck ent :=
      fun hs => (h.cache ck ent hs).cons _
    cases q with
    | cacheGet _ => exact hbefore hent
    | clock => exact hbefore hent
    | load _ _ _ => exact hbefore hent
    | retainOthers tenantPrefix =>
      change (if tenantPrefix.toList.isPrefixOf ck.toList then none else s.cache ck) = some ent at hent
      split at hent
      · cases hent
      · exact hbefore hent
    | cacheInsert ck' v expiresAt =>
      change Function.update s.cache ck' (some ⟨v, expiresAt⟩) ck = some ent at hent
      by_cases hck : ck = ck'
      · subst hck
        rw [Function.update_self] at hent
        obtain rfl := Option.some.inj hent
        obtain ⟨t, g, k, now, h', hfree, hck, hexpires, hown, hkept⟩ := hstep _ _ _ rfl
        obtain ⟨newer, kept, between, load, older, rfl, hloaded, -, hnow⟩ := loaded_of_own h.replies hown hkept
        refine ⟨t, g, k, _ :: newer, kept, between, load, older, hfree, hck, rfl, hloaded, ?_⟩
        rw [hnow]
        exact hexpires
      · rw [Function.update_of_ne hck] at hent
        exact hbefore hent

/-- Calls of the loader, run side by side with their surroundings. -/
def configRun (w : World) (db : Db) (now : Time) (call : ι → ConfigCall)
    (schedule : List (ι ⊕ Surroundings)) : Config configSteps AppError (Option Json) ι ConfigState :=
  (Config.start (ConfigState.fresh db now) fun i => (call i).run w).run handleConfig Surroundings.act
    schedule

variable {w : World} {db : Db} {now : Time} {call : ι → ConfigCall}

theorem configRun_inv (hfree : ∀ i, (call i).ColonFree) (schedule : List (ι ⊕ Surroundings)) :
    ConfigInv w (configRun w db now call schedule).state (configRun w db now call schedule).log := by
  refine Config.run_invariant (fun i => (call i).run_keeps w (hfree i)) (fun _ _ _ => trivial) ?_
    (fun s log i q h hstep => h.step hstep) (fun s log t h => ?_) schedule
  · exact ⟨List.forall_mem_nil _, fun _ _ h => (Option.some_ne_none _ h.symm).elim⟩
  · cases t with
    | pass d => exact ⟨h.replies, h.cache⟩
    | write db => exact ⟨h.replies, h.cache⟩
    | outage e => exact ⟨h.replies, h.cache⟩

theorem configRun_answered (hfree : ∀ i, (call i).ColonFree) (schedule : List (ι ⊕ Surroundings))
    {i : ι} {a : Option Json} (hend : (configRun w db now call schedule).threads i = .pure a) :
    (call i).Answered w (own i (configRun w db now call schedule).log) (.ok a) :=
  Config.run_outcome (fun i => (call i).run_keeps w (hfree i)) (fun _ _ _ => trivial) schedule hend

/-- **A value that a call returns was stored when some call loaded it**: by the call itself, or by
one that then put it into the cache less than a minute before the call looked at the clock. -/
def Served (w : World) (log : List (Move configSteps ι ConfigState)) (i : ι) (t g k : String)
    (v : Json) : Prop :=
  ∃ newer kept between load older, log = newer ++ kept :: (between ++ load :: older) ∧
    Loaded w t g k v kept load ∧
    (load.who = i ∨ ∃ look ∈ newer, look.who = i ∧ look.event.request = .clock ∧
      look.before.now < kept.before.now + seconds CACHE_TTL_SECS)

/-- The row was absent at a moment of the call. -/
def FoundAbsent (log : List (Move configSteps ι ConfigState)) (i : ι) (t g k : String) : Prop :=
  ∃ load ∈ log, load.who = i ∧ load.event.request = .load t g k ∧ load.before.db.kv t g k = none

theorem served (hfree : ∀ i, (call i).ColonFree) (schedule : List (ι ⊕ Surroundings)) {i : ι}
    {t g k : String} {v : Json} (hcall : call i = .get t g k)
    (hend : (configRun w db now call schedule).threads i = .pure (some v)) :
    Served w (configRun w db now call schedule).log i t g k v := by
  have hreplied : Replied (configRun w db now call schedule).log :=
    (configRun_inv hfree schedule).replies
  have hanswered := configRun_answered hfree schedule hend
  have hcallfree : ColonFree t g k := by
    have h := hfree i
    rwa [hcall] at h
  rw [hcall] at hanswered
  rcases hanswered with ⟨clock, ent, hown, hfresh, rfl⟩ | ⟨e, clock, h', hown, hkept⟩
  · have hown' : own i (configRun w db now call schedule).log = [] ++ _ := hown
    obtain ⟨newer, look, rest, hlog, hlookwho, hlook, hrest⟩ := own_split hown'
    have hrest' : own i rest = [] ++ _ := hrest
    obtain ⟨between, get, older, rfl, -, hget, -⟩ := own_split hrest'
    have hlogget : (configRun w db now call schedule).log = (newer ++ look :: between) ++ get :: older := by
      rw [hlog, List.append_assoc, List.cons_append]
    -- The entry was in the cache when the call looked.
    obtain ⟨earlier, -, -, hearlier, hstate, -, hreply⟩ := Config.run_log_split schedule hlogget
    have hentry : get.before.cache (cacheKey t g k) = some ent := by
      obtain ⟨who, event, before⟩ := get
      subst hget
      exact hreply.symm
    obtain ⟨t', g', k', later, kept, since, load, oldest, hfree', hkey, hsplit, hloaded, hexpires⟩ :=
      (@configRun_inv ι _ w db now call hfree earlier).cache _ ent
        (by rw [configRun, hstate]; exact hentry)
    obtain ⟨rfl, rfl, rfl⟩ := (cacheKey_inj hcallfree hfree').mp hkey
    have holder : older = later ++ kept :: (since ++ load :: oldest) := hearlier.symm.trans hsplit
    refine ⟨newer ++ look :: between ++ get :: later, kept, since, load, oldest, ?_, hloaded,
      .inr ⟨look, by simp, hlookwho, by rw [hlook], ?_⟩⟩
    · rw [hlogget, holder]
      simp
    · have hclock := hreplied look (by rw [hlog]; simp)
      have hnow : clock = look.before.now := by
        obtain ⟨who, event, before⟩ := look
        subst hlook
        exact hclock
      rw [← hnow, ← hexpires]
      exact hfresh
  · have hown' : own i (configRun w db now call schedule).log = [] ++ _ := hown
    obtain ⟨newer, m, rest, hlog, -, -, hrest⟩ := own_split hown'
    have hreplied' : Replied rest := fun m' hm' => hreplied m' (by rw [hlog]; simp [hm'])
    obtain ⟨later, kept, since, load, oldest, rfl, hloaded, hwho, -⟩ :=
      loaded_of_own hreplied' hrest hkept
    refine ⟨newer ++ m :: later, kept, since, load, oldest, ?_, hloaded, .inl hwho⟩
    rw [hlog, List.append_assoc, List.cons_append]

theorem foundAbsent (hfree : ∀ i, (call i).ColonFree) (schedule : List (ι ⊕ Surroundings)) {i : ι}
    {t g k : String} (hcall : call i = .get t g k)
    (hend : (configRun w db now call schedule).threads i = .pure none) :
    FoundAbsent (configRun w db now call schedule).log i t g k := by
  have hreplied : Replied (configRun w db now call schedule).log :=
    (configRun_inv hfree schedule).replies
  have hanswered := configRun_answered hfree schedule hend
  rw [hcall] at hanswered
  obtain ⟨h', hown⟩ := hanswered
  obtain ⟨load, hload, hwho, hevent⟩ : ∃ load ∈ (configRun w db now call schedule).log, load.who = i ∧
      load.event = ⟨ConfigRequest.load t g k, .ok none⟩ := by
    apply mem_own.mp
    rw [hown]
    exact List.mem_cons_self
  refine ⟨load, hload, hwho, by rw [hevent], ?_⟩
  have hreply := hreplied load hload
  obtain ⟨who, event, before⟩ := load
  subst hevent
  change Except.ok none = before.outage.elim (.ok (before.db.kv t g k)) .error at hreply
  cases houtage : before.outage with
  | some e =>
    rw [houtage] at hreply
    cases hreply
  | none =>
    rw [houtage] at hreply
    exact (Except.ok.inj hreply).symm

/-- **An invalidation removes the entries of its tenant and of no other one.** -/
theorem cache_invalidateTenant {t t' g k : String} (ht : ':' ∉ t.toList) (ht' : ':' ∉ t'.toList)
    (s : ConfigState) :
    ((invalidateTenant t).exec handleConfig s).2.cache (cacheKey t' g k) =
      if t = t' then none else s.cache (cacheKey t' g k) := by
  change (if (t ++ ":").toList.isPrefixOf (cacheKey t' g k).toList then none
    else s.cache (cacheKey t' g k)) = _
  by_cases h : t = t'
  · rw [if_pos h, if_pos ((startsWith_cacheKey ht ht').mpr h)]
  · rw [if_neg h, if_neg fun hstarts => h ((startsWith_cacheKey ht ht').mp hstarts)]

/-- **The cache of the configuration is isolated and boundedly stale.** -/
theorem config_served (w : World) (db : Db) (now : Time) (call : ι → ConfigCall)
    (hfree : ∀ i, (call i).ColonFree) (schedule : List (ι ⊕ Surroundings)) :
    (∀ i t g k v, call i = .get t g k →
      (configRun w db now call schedule).threads i = .pure (some v) →
        Served w (configRun w db now call schedule).log i t g k v) ∧
    (∀ i t g k, call i = .get t g k → (configRun w db now call schedule).threads i = .pure none →
      FoundAbsent (configRun w db now call schedule).log i t g k) ∧
    ∀ i t, call i = .invalidateTenant t → ∀ t' g k, ':' ∉ t'.toList → ∀ s : ConfigState,
      ((invalidateTenant t).exec handleConfig s).2.cache (cacheKey t' g k) =
        if t = t' then none else s.cache (cacheKey t' g k) := by
  refine ⟨fun i t g k v hcall hend => served hfree schedule hcall hend,
    fun i t g k hcall hend => foundAbsent hfree schedule hcall hend, ?_⟩
  intro i t hcall t' g k ht' s
  have ht := hfree i
  rw [hcall] at ht
  exact cache_invalidateTenant ht ht' s

end Runs

/-- The calls of a run: four looks under one key, one under another, and an invalidation. -/
inductive Caller
  | first
  | second
  | third
  | fourth
  | other
  | admin
  deriving DecidableEq

def callOf : Caller → ConfigCall
  | .other => .get "acme" "email_policy" "other"
  | .admin => .invalidateTenant "acme"
  | _ => .get "acme" "email_policy" "allowed_domains"

theorem callOf_colonFree (i : Caller) : (callOf i).ColonFree := by
  have hget : ColonFree "acme" "email_policy" "allowed_domains" := by
    refine ⟨?_, ?_, ?_⟩ <;> decide
  cases i with
  | other => refine ⟨?_, ?_, ?_⟩ <;> decide
  | admin => exact List.count_eq_zero.mp rfl
  | _ => exact hget

/-- A deployment that reads every stored text as a string. -/
def verbatim : World := { World.offline with parseJson := fun text => .ok (.string text) }

/-- A table with one value. -/
def storing (value : String) : Db :=
  { Db.empty with kvStore := .single ⟨"acme", "email_policy", "allowed_domains", value, false, 0⟩ }

/-- The first look loads the value and keeps it; it changes; half a minute later the second look is
served what was kept, and another half a minute later the third loads the new one. It changes again, the
tenant is invalidated, and the fourth look loads it. -/
def lookSchedule : List (Caller ⊕ Surroundings) :=
  [.inl .first, .inl .first, .inl .first, .inl .first, .inr (.write (storing "new")),
    .inr (.pass 30000000), .inl .second, .inl .second, .inr (.pass 30000000), .inl .third, .inl .third,
    .inl .third, .inl .third, .inl .third, .inr (.write (storing "newest")), .inl .admin,
    .inl .fourth, .inl .fourth, .inl .fourth, .inl .fourth, .inl .other, .inl .other]

/-- The record of the run. -/
def lookLog : List (Move configSteps Caller ConfigState) :=
  (configRun verbatim (storing "old") 0 callOf lookSchedule).log

theorem config_served_lookSchedule :
    Served verbatim lookLog .first "acme" "email_policy" "allowed_domains" (.string "old") ∧
      Served verbatim lookLog .second "acme" "email_policy" "allowed_domains" (.string "old") ∧
      Served verbatim lookLog .third "acme" "email_policy" "allowed_domains" (.string "new") ∧
      Served verbatim lookLog .fourth "acme" "email_policy" "allowed_domains" (.string "newest") ∧
      FoundAbsent lookLog .other "acme" "email_policy" "other" ∧
      ∀ s : ConfigState, ((invalidateTenant "acme").exec handleConfig s).2.cache
        (cacheKey "acme" "email_policy" "allowed_domains") = none := by
  obtain ⟨hserved, habsent, hinvalid⟩ := config_served verbatim (storing "old") 0 callOf
    callOf_colonFree lookSchedule
  refine ⟨hserved .first _ _ _ _ rfl ?_, hserved .second _ _ _ _ rfl ?_, hserved .third _ _ _ _ rfl ?_,
    hserved .fourth _ _ _ _ rfl ?_, habsent .other _ _ _ rfl ?_, fun s => ?_⟩
  · with_unfolding_all rfl
  · with_unfolding_all rfl
  · with_unfolding_all rfl
  · with_unfolding_all rfl
  · with_unfolding_all rfl
  · exact (hinvalid .admin "acme" rfl "acme" _ _ (by decide) s).trans (if_pos rfl)

end CachedConfig

end Authrs
