import Authrs.Interaction.Since
import Authrs.Services.Oauth

/-!
# The gap between two fetches of the signing keys

`find_jwk` refuses to fetch again while its cached keys are younger than a minute. What it goes by is
the entry of the last fetch that succeeded, as the call found it: two fetches less than a minute apart
are possible when the earlier one has failed, or is not yet in the cache when the later call looks.

## Main definitions

* `Fetches`: a move starts a request for the keys
* `Throttled`: any two requests are a minute apart
* `UncachedApart`: so are a request and every earlier one whose keys the call did not find in the cache

## Main results

* `findJwk_keeps`: a call fetches when the cache tells it to
* `throttled_iff`: the requests of a run are a minute apart when those are whose keys were not cached
-/

namespace Authrs

open Interaction
open OauthService (findJwk fetchKeys cachedKey findKey)

/-- A request for the keys comes after a look into the cache and at the clock, and they say that the
keys have to be fetched. -/
def FetchStep (url kid : String) (h : List (Event authrs)) (e : Event authrs) : Prop :=
  ∀ r, e.request = .http r → r = .get url ∧ ∃ now cached, cachedKey cached kid now = .ok none ∧
    h = [⟨Request.clock, now⟩, ⟨Request.jwksCacheGet url, cached⟩]

theorem fetchStep_of_ne {url kid : String} {h : List (Event authrs)} {e : Event authrs}
    (he : ∀ r, e.request ≠ .http r) : FetchStep url kid h e := fun r hr => absurd hr (he r)

/-- **A call fetches when the cache tells it to.** -/
theorem findJwk_keeps (w : World) (url kid : String) :
    (findJwk w url kid).Keeps (.ofGuarantee (FetchStep url kid)) (fun _ _ => True) [] := by
  intro cached _
  refine ⟨fetchStep_of_ne nofun, ?_⟩
  intro now _
  refine ⟨fetchStep_of_ne nofun, ?_⟩
  change ((Service.ofResult (cachedKey cached kid now)).bind _).Keeps _ _ _
  cases hcached : cachedKey cached kid now with
  | error e => trivial
  | ok hit =>
    cases hit with
    | some jwk => trivial
    | none =>
      intro resp _
      refine ⟨fun r hr => ⟨?_, now, cached, hcached, rfl⟩, ?_⟩
      · injection hr with hr
        exact hr.symm
      · -- What follows the answer is at most an insertion into the cache.
        cases resp with
        | error e => trivial
        | ok resp =>
          change (((Service.ensure (¬resp.Failed) _).bind _).bind _).Keeps _ _ _
          by_cases hstatus : ¬resp.Failed
          · rw [Service.ensure, Program.ensure_pos hstatus]
            cases hkeys : w.parseJwks resp.body with
            | error e =>
              simp only [Program.pure_bind]
              trivial
            | ok keys =>
              simp only [Program.pure_bind]
              intro _ _
              refine ⟨fetchStep_of_ne nofun, ?_⟩
              change (Service.okOr (findKey keys kid) _).Keeps _ _ _
              cases findKey keys kid <;> trivial
          · rw [Service.ensure, Program.ensure_neg hstatus]
            trivial

/-- The cache tells a call to fetch when its entry is a minute old. -/
theorem cachedKey_eq_none {entry : CachedJwks} {kid : String} {now : Time}
    (h : cachedKey (some entry) kid now = .ok none) :
    entry.fetchedAt + seconds JWKS_MIN_REFRESH_SECS ≤ now := by
  unfold cachedKey at h
  by_cases hyoung : (now - entry.fetchedAt) / 1000000 < JWKS_MIN_REFRESH_SECS
  · simp only [if_pos hyoung] at h
    split at h <;> cases h
  · have hminute : ∀ a b : Int, ¬(a - b) / 1000000 < 60 → b + 60 * 1000000 ≤ a := by
      intro a b hage
      omega
    exact hminute now entry.fetchedAt hyoung

/-! ### The entry in the cache -/

/-- The cache has an entry for the keys that is not older than the instant. -/
def CachedSince (url : String) (t : Time) (s : State) : Prop :=
  t ≤ s.now ∧ ∃ entry, s.jwksCache.find? (fun c => c.url = url) = some entry ∧ t ≤ entry.fetchedAt

theorem handle_jwksCache {w : World} {q : Request} (s : State)
    (hq : ∀ url keys, q ≠ .jwksCacheInsert url keys) :
    (handle w q s).2.jwksCache = s.jwksCache := by
  cases q with
  | sql q =>
    change (s.afterSql q (q.exec (s.sqlEnv w) s.db)).jwksCache = s.jwksCache
    unfold State.afterSql
    split <;> rfl
  | jwksCacheInsert url keys => exact absurd rfl (hq url keys)
  | _ => rfl

/-- **An insertion leaves an entry as old as the clock.** -/
theorem find_insert (w : World) (s : State) (url url' : String) (keys : List Jwk) :
    (handle w (.jwksCacheInsert url' keys) s).2.jwksCache.find? (fun c => c.url = url) =
      if url' = url then some ⟨url', keys, s.now⟩ else s.jwksCache.find? fun c => c.url = url := by
  change (⟨url', keys, s.now⟩ :: s.jwksCache.filter fun c => c.url ≠ url').find? _ = _
  by_cases hurl : url' = url
  · rw [if_pos hurl, List.find?_cons_of_pos (by simpa using hurl)]
  · rw [if_neg hurl, List.find?_cons_of_neg (by simpa using hurl), List.find?_filter]
    congr 1
    funext c
    by_cases hc : c.url = url
    · simp [hc, Ne.symm hurl]
    · simp [hc]

theorem cachedSince_handle {w : World} {url : String} {t : Time} (q : Request) (s : State)
    (h : CachedSince url t s) : CachedSince url t (handle w q s).2 := by
  obtain ⟨hnow, entry, hentry, hfetched⟩ := h
  refine ⟨by rw [handle_now]; exact hnow, ?_⟩
  by_cases hq : ∃ url' keys, q = .jwksCacheInsert url' keys
  · obtain ⟨url', keys, rfl⟩ := hq
    rw [find_insert]
    by_cases hurl : url' = url
    · exact ⟨_, if_pos hurl, hnow⟩
    · rw [if_neg hurl]
      exact ⟨entry, hentry, hfetched⟩
  · rw [handle_jwksCache s fun url' keys heq => hq ⟨url', keys, heq⟩]
    exact ⟨entry, hentry, hfetched⟩

theorem cachedSince_tick {url : String} {t : Time} (d : Nat) (s : State)
    (h : CachedSince url t s) : CachedSince url t (s.tick d) := by
  obtain ⟨hnow, hentry⟩ := h
  refine ⟨?_, hentry⟩
  rw [State.tick_now]
  exact Int.le_trans hnow (Int.le_add_of_nonneg_right (Int.natCast_nonneg d))

/-! ### Runs -/

section Runs

variable {ι : Type}

/-- The move starts a request for the keys. -/
def Fetches (url : String) (m : Move authrs ι State) : Prop := m.event.request = .http (.get url)

/-- **Any two requests are a minute apart.** -/
def Throttled (url : String) (log : List (Move authrs ι State)) : Prop :=
  ∀ newer m older, log = newer ++ m :: older → Fetches url m → ∀ m' ∈ older, Fetches url m' →
    m'.before.now + seconds JWKS_MIN_REFRESH_SECS ≤ m.before.now

/-- The keys of the request `m'` were in the cache when the call of `m` looked. -/
def FoundCached (url : String) (older : List (Move authrs ι State)) (m m' : Move authrs ι State) :
    Prop :=
  ∃ later g between x earlier, older = later ++ g :: (between ++ x :: earlier) ∧
    g.who = m.who ∧ g.event.request = .jwksCacheGet url ∧
    x.who = m'.who ∧ (∃ keys, x.event.request = .jwksCacheInsert url keys) ∧ m' ∈ earlier

/-- **A request starts a minute after every earlier one that failed or was not in the cache** when its
call looked. -/
def UncachedApart (url : String) (log : List (Move authrs ι State)) : Prop :=
  ∀ newer m older, log = newer ++ m :: older → Fetches url m → ∀ m' ∈ older, Fetches url m' →
    ¬FoundCached url older m m' → m'.before.now + seconds JWKS_MIN_REFRESH_SECS ≤ m.before.now

variable [DecidableEq ι] {w : World} {s : State} {url kid : ι → String} {schedule : List (ι ⊕ Nat)}

/-- Calls of `find_jwk`, run side by side while time passes. -/
def jwksRun (w : World) (s : State) (url kid : ι → String) (schedule : List (ι ⊕ Nat)) :
    Config authrs Failure Jwk ι State :=
  (Config.start s fun i => findJwk w (url i) (kid i)).run (handle w) State.tick schedule

/-- The moves of a run are in the order of their times. -/
theorem jwksRun_ordered {newer older : List (Move authrs ι State)} {m x : Move authrs ι State}
    (hlog : (jwksRun w s url kid schedule).log = newer ++ m :: older) (hx : x ∈ older) :
    x.before.now ≤ m.before.now := by
  refine Config.run_log_ordered State.now (fun q s => ?_) (fun d s => ?_) schedule hlog hx
  · rw [handle_now]
  · rw [State.tick_now]
    exact Int.le_add_of_nonneg_right (Int.natCast_nonneg d)

/-- **A call that looks after the keys of a request were cached finds an entry that is not older than
the request.** -/
theorem entry_of_foundCached {jwksUrl : String} {newer between earlier : List (Move authrs ι State)}
    {g x m' : Move authrs ι State}
    (hlog : (jwksRun w s url kid schedule).log = newer ++ g :: (between ++ x :: earlier))
    {keys : List Jwk} (hx : x.event.request = .jwksCacheInsert jwksUrl keys) (hm' : m' ∈ earlier) :
    CachedSince jwksUrl m'.before.now g.before := by
  have hlogx : (jwksRun w s url kid schedule).log = (newer ++ g :: between) ++ x :: earlier := by
    rw [hlog, List.append_assoc, List.cons_append]
  have htime : m'.before.now ≤ x.before.now := jwksRun_ordered hlogx hm'
  refine Config.run_since cachedSince_handle cachedSince_tick schedule hlog ?_
  rw [hx]
  refine ⟨?_, _, (find_insert ..).trans (if_pos rfl), htime⟩
  rw [handle_now]
  exact htime

/-- The replies of the cache and of the clock. -/
theorem reply_of_get {newer older : List (Move authrs ι State)} {g : Move authrs ι State}
    (hlog : (jwksRun w s url kid schedule).log = newer ++ g :: older) {u : String}
    {cached : Option CachedJwks} (hg : g.event = ⟨Request.jwksCacheGet u, cached⟩) :
    cached = g.before.jwksCache.find? fun c => c.url = u := by
  obtain ⟨-, -, -, -, -, -, hreply⟩ := Config.run_log_split schedule hlog
  obtain ⟨who, event, before⟩ := g
  subst hg
  exact hreply

theorem reply_of_clock {newer older : List (Move authrs ι State)} {c : Move authrs ι State}
    (hlog : (jwksRun w s url kid schedule).log = newer ++ c :: older) {now : Time}
    (hc : c.event = ⟨Request.clock, now⟩) : now = c.before.now := by
  obtain ⟨-, -, -, -, -, -, hreply⟩ := Config.run_log_split schedule hlog
  obtain ⟨who, event, before⟩ := c
  subst hc
  exact hreply

/-- The steps of a run are those that the calls guarantee. -/
theorem jwksRun_guaranteed (w : World) (s : State) (url kid : ι → String)
    (schedule : List (ι ⊕ Nat)) :
    Config.Guaranteed (fun i => .ofGuarantee (FetchStep (url i) (kid i)))
      (jwksRun w s url kid schedule).log :=
  Config.run_guaranteed (fun i => findJwk_keeps w (url i) (kid i)) (fun _ _ _ => trivial) schedule

/-- **When the requests of a run are a minute apart**: when those are whose keys were not in the
cache. -/
theorem throttled_iff (w : World) (s : State) (url kid : ι → String) (jwksUrl : String)
    (schedule : List (ι ⊕ Nat)) :
    Throttled jwksUrl (jwksRun w s url kid schedule).log ↔
      UncachedApart jwksUrl (jwksRun w s url kid schedule).log := by
  constructor
  · intro h newer m older hlog hm m' hm' hfetch _
    exact h newer m older hlog hm m' hm' hfetch
  · intro h newer m older hlog hm m' hm' hfetch
    by_cases hfound : FoundCached jwksUrl older m m'
    · obtain ⟨later, g, between, x, earlier, rfl, hgwho, hg, -, ⟨keys, hx⟩, hearlier⟩ := hfound
      have hguaranteed := jwksRun_guaranteed w s url kid schedule
      obtain ⟨-, now, cached, hcached, hown⟩ := hguaranteed newer m _ hlog _ hm
      have hlogg : (jwksRun w s url kid schedule).log =
          (newer ++ m :: later) ++ g :: (between ++ x :: earlier) := by
        rw [hlog, List.append_assoc, List.cons_append]
      -- The entry that the call found is not older than the earlier request.
      have hlook : g.event = ⟨Request.jwksCacheGet (url m.who), cached⟩ := by
        have hmem : g.event ∈ own m.who (later ++ g :: (between ++ x :: earlier)) :=
          mem_own.mpr ⟨g, List.mem_append_right _ List.mem_cons_self, hgwho, rfl⟩
        rw [hown] at hmem
        rcases List.mem_cons.mp hmem with heq | hmem
        · rw [heq] at hg
          cases hg
        · exact List.mem_singleton.mp hmem
      have hurl : url m.who = jwksUrl := by
        rw [hlook] at hg
        exact Request.jwksCacheGet.inj hg
      obtain ⟨-, entry, hentry, hfetched⟩ := entry_of_foundCached hlogg hx hearlier
      rw [reply_of_get hlogg hlook, hurl, hentry] at hcached
      -- It was a minute old by the clock that the call read.
      obtain ⟨c, hc, -, hclock⟩ : ∃ c ∈ later ++ g :: (between ++ x :: earlier), c.who = m.who ∧
          c.event = ⟨Request.clock, now⟩ := by
        apply mem_own.mp
        rw [hown]
        exact List.mem_cons_self
      have hnow : now ≤ m.before.now := by
        obtain ⟨a, b, hsplit⟩ := List.append_of_mem hc
        have hlogc : (jwksRun w s url kid schedule).log = (newer ++ m :: a) ++ c :: b := by
          rw [hlog, hsplit, List.append_assoc, List.cons_append]
        rw [reply_of_clock hlogc hclock]
        exact jwksRun_ordered hlog hc
      exact Int.le_trans (Int.add_le_add_right hfetched _)
        (Int.le_trans (cachedKey_eq_none hcached) hnow)
    · exact h newer m older hlog hm m' hm' hfetch hfound

end Runs

/-- Two calls one after the other, both refused by the network. -/
def refusedTwice : Config authrs Failure Jwk Bool State :=
  jwksRun .offline (.ofDb .empty 0) (fun _ => "https://idp/keys") (fun _ => "kid")
    [.inl false, .inl false, .inl false, .inl true, .inl true, .inl true]

/-- A fetch that failed does not keep the next call from fetching at once. -/
theorem failed_fetch_not_throttled : ¬Throttled "https://idp/keys" refusedTwice.log := by
  intro h
  have hgap : (0 : Int) + 60 * 1000000 ≤ 0 :=
    h [] ⟨true, ⟨Request.http (.get "https://idp/keys"), .error "connection refused"⟩,
      { State.ofDb .empty 0 with draws := 1 }⟩ _ rfl rfl
      ⟨false, ⟨Request.http (.get "https://idp/keys"), .error "connection refused"⟩,
        State.ofDb .empty 0⟩ (List.mem_cons_of_mem _ (List.mem_cons_of_mem _ List.mem_cons_self)) rfl
  exact absurd hgap (by decide)

end Authrs
