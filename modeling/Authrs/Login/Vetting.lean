import Authrs.Login.Calls

/-!
# What a login has vetted when it issues a credential

The parts of the login calls, as programs that keep a contract: each lemma says what a part adds
to the history when it succeeds, whatever the replies. The contract is arbitrary, except that it
allows quiet requests; for the tail, a fact about the history that silent requests keep is carried
along to what it issues.

## Main definitions

* `Quietly h h'`: quiet exchanges lead from `h` to `h'`
* `MethodAllowed`: the configuration read by the call allows a login method
* `CalledFor`: the credential that the flags of an identity call for
* `Fresh`: a credential is issued under a token of its own

## Main results

* `AuthService.checkGates_ok`: a passed gate check leaves its evidence in the history
* `AuthService.exec_checkGates_eq_ok`: the gate check run alone
* `AuthService.effectiveLoginMethods_ok`: so does a login method that is found allowed
* `AuthService.finalizeLogin_keeps`: what the tail issues, and on what it rests
-/

namespace Authrs

open Interaction Program

/-- Quiet exchanges lead from the one history to the other. -/
def Quietly (h h' : List (Event authrs)) : Prop :=
  ∃ es, h' = es ++ h ∧ ∀ e ∈ es, Quiet e.request

namespace Quietly

variable {h h' h'' : List (Event authrs)}

theorem refl (h : List (Event authrs)) : Quietly h h := ⟨[], rfl, by simp⟩

theorem trans (h₁ : Quietly h h') (h₂ : Quietly h' h'') : Quietly h h'' := by
  obtain ⟨es, rfl, hes⟩ := h₁
  obtain ⟨es', rfl, hes'⟩ := h₂
  refine ⟨es' ++ es, by simp, fun e he => ?_⟩
  rcases List.mem_append.mp he with he | he
  · exact hes' e he
  · exact hes e he

theorem cons {e : Event authrs} (he : Quiet e.request) : Quietly h (e :: h) :=
  ⟨[e], rfl, by simpa using he⟩

theorem prologue (hq : Quietly h h') {ms : List MembershipRow} {is : List Identity}
    {ds : List (String × Nat)} (hp : Prologue ms is ds h) : Prologue ms is ds h' := by
  obtain ⟨es, rfl, hes⟩ := hq
  induction es with
  | nil => exact hp
  | cons e es ih =>
    exact (ih fun x hx => hes x (List.mem_cons_of_mem _ hx)).cons (hes e List.mem_cons_self)

theorem subset (hq : Quietly h h') : h ⊆ h' := by
  obtain ⟨es, rfl, -⟩ := hq
  exact List.subset_append_right es h

end Quietly

/-- The tenant's login methods, as the call read them, allow the method. -/
def MethodAllowed (w : World) (tenantId : String) (method : Int) (h : List (Event authrs)) :
    Prop :=
  ∃ row j, did (.kv (.get tenantId "login_methods" "allowed")) row ∈ h ∧
    decodeKv w row = .ok j ∧ method ∈ (j.bind loginMethodsFromValue).getD [1, 2, 3, 4, 5, 6]

theorem MethodAllowed.mono {w : World} {tenantId : String} {method : Int}
    {h h' : List (Event authrs)} (hm : MethodAllowed w tenantId method h) (hsub : h ⊆ h') :
    MethodAllowed w tenantId method h' := by
  obtain ⟨row, j, hrow, hj, hmem⟩ := hm
  exact ⟨row, j, hsub hrow, hj, hmem⟩

theorem quiet_clock : Quiet .clock := ⟨fun _ => ⟨rfl, rfl, rfl⟩, rfl⟩

theorem quiet_kv (q : KvStmt) : Quiet (.sql (.kv q)) := ⟨fun _ => ⟨rfl, rfl, rfl⟩, rfl⟩

section Parts

variable {w : World} {C : Contract authrs}
  (hC : ∀ h e, issued e.request = none → C.guarantee h e)
  {h : List (Event authrs)}

include hC

/-- A part whose requests are all quiet. -/
theorem keeps_quietly {α : Type} {p : Service α} (hp : p.Asks Quiet) :
    p.Keeps C (OnOk fun _ h' => Quietly h h') h := by
  refine (hp.keeps fun h e he => hC h e he.nothing).weaken fun h' o hes => ?_
  cases o with
  | ok a => exact hes
  | error e => trivial

/-- A quiet statement, with its result. -/
theorem keeps_quiet_query {q : Sql} (hq : Quiet (.sql q)) :
    (query q).Keeps C (OnOk fun r h' => Quietly h h' ∧ did q r ∈ h') h := by
  refine (keeps_query_ok fun e he => hC _ _ (he ▸ hq.nothing)).weaken_ok ?_
  rintro r h' - rfl
  exact ⟨.cons hq, List.mem_cons_self⟩

namespace AuthService

theorem checkLock_ok (identity : Identity) :
    (checkLock identity).Keeps C (OnOk fun _ h' => Quietly h h' ∧
      ∀ l, identity.lockedUntil = some l → ∃ t ∈ clocks h', ¬ t < l) h := by
  unfold checkLock
  cases identity.lockedUntil with
  | none => exact ⟨.refl _, by simp⟩
  | some l =>
    refine (keeps_utcNow_ok fun e he => hC _ _ (he ▸ rfl)).bind_ok ?_
    rintro t h₁ - rfl
    refine (keeps_ensure_ok _ _).weaken_ok ?_
    rintro - h₂ - ⟨hlt, rfl⟩
    refine ⟨.cons quiet_clock, fun l' hl' => ⟨t, List.mem_cons_self, ?_⟩⟩
    rwa [← Option.some.inj hl']

theorem checkAccess_ok (user : User) :
    (checkAccess user).Keeps C (OnOk fun _ h' => Quietly h h' ∧
      ∀ v, user.accessValidUntil = some v → ∃ t ∈ clocks h', ¬ v < t) h := by
  unfold checkAccess
  cases user.accessValidUntil with
  | none => exact ⟨.refl _, by simp⟩
  | some v =>
    refine (keeps_utcNow_ok fun e he => hC _ _ (he ▸ rfl)).bind_ok ?_
    rintro t h₁ - rfl
    refine (keeps_ensure_ok _ _).weaken_ok ?_
    rintro - h₂ - ⟨hlt, rfl⟩
    refine ⟨.cons quiet_clock, fun v' hv' => ⟨t, List.mem_cons_self, ?_⟩⟩
    rwa [← Option.some.inj hv']

/-- **A passed gate check leaves its evidence in the history.** -/
theorem checkGates_ok (user : User) (identity : Identity) :
    (checkGates user identity).Keeps C
      (OnOk fun _ h' => Quietly h h' ∧ Gates (clocks h') user.toRow identity) h := by
  refine (keeps_ensure_ok _ _).bind_ok ?_
  rintro - h₁ - ⟨⟨hm, hi⟩, rfl⟩
  refine (checkLock_ok hC identity).bind_ok ?_
  rintro - h₂ - ⟨hq₂, hlock⟩
  refine (checkAccess_ok hC user).weaken_ok ?_
  rintro - h₃ hsub ⟨hq₃, haccess⟩
  refine ⟨hq₂.trans hq₃, hm, hi, fun l hl => ?_, haccess⟩
  obtain ⟨t, ht, hlt⟩ := hlock l hl
  exact ⟨t, clocks_mono hsub ht, hlt⟩

/-- A configured value, read by the call. -/
theorem getTyped_ok {α : Type} (tenantId groupKey key : String) (fromValue : Json → Option α) :
    (TenantConfigLoader.getTyped w tenantId groupKey key fromValue).Keeps C
      (OnOk fun v h' => Quietly h h' ∧ ∃ row j, did (.kv (.get tenantId groupKey key)) row ∈ h' ∧
        decodeKv w row = .ok j ∧ v = j.bind fromValue) h := by
  have hget : (TenantConfigLoader.get w tenantId groupKey key).Keeps C
      (OnOk fun j h' => Quietly h h' ∧ ∃ row, did (.kv (.get tenantId groupKey key)) row ∈ h' ∧
        decodeKv w row = .ok j) h := by
    refine (keeps_quiet_query hC (quiet_kv _)).bind_ok ?_
    rintro row h₁ - ⟨hq₁, hrow⟩
    refine (keeps_ofExcept_ok _).weaken_ok ?_
    rintro j h₂ - ⟨hj, rfl⟩
    refine ⟨hq₁, row, hrow, ?_⟩
    cases hd : decodeKv w row with
    | ok j' =>
      rw [hd] at hj
      cases hj
      rfl
    | error e =>
      rw [hd] at hj
      cases hj
  refine hget.bind_ok ?_
  rintro j h₁ - ⟨hq₁, row, hrow, hj⟩
  exact ⟨hq₁, row, j, hrow, hj, rfl⟩

/-- **A login method that is found allowed leaves its evidence in the history.** -/
theorem effectiveLoginMethods_ok (tenantId : String) (user : User) :
    (effectiveLoginMethods w tenantId user).Keeps C (OnOk fun ms h' => Quietly h h' ∧
      ∀ m ∈ ms, MethodAllowed w tenantId m h') h := by
  refine (getTyped_ok hC tenantId "login_methods" "allowed" loginMethodsFromValue).bind_ok ?_
  rintro allowed h₁ - ⟨hq₁, row, j, hrow, hj, rfl⟩
  refine ⟨hq₁, fun m hm => ⟨row, j, hrow, hj, (List.mem_filter.mp hm).1⟩⟩

theorem ensureEmailDomainAllowed_ok (tenantId email : String) :
    (ensureEmailDomainAllowed w tenantId email).Keeps C
      (OnOk fun _ h' => Quietly h h') h := by
  refine (getTyped_ok hC tenantId "email_policy" "allowed_domains" domainsFromValue).bind_ok ?_
  rintro allowed h₁ - ⟨hq₁, -⟩
  refine (keeps_ensure_ok _ _).weaken_ok ?_
  rintro - h₂ - ⟨-, rfl⟩
  exact hq₁

/-- A statement that issues nothing. -/
theorem keeps_known_query {q : Sql} (hq : issued (.sql q) = none) :
    (query q).Keeps C (OnOk fun r h' => h' = did q r :: h) h :=
  keeps_query_ok fun _ he => hC _ _ (he ▸ hq)

theorem keeps_known_execute {q : Sql} (hq : issued (.sql q) = none) :
    (execute q).Keeps C (OnOk fun _ h' => ∃ r, h' = did q r :: h) h := by
  refine (keeps_known_query hC hq).bind_ok ?_
  rintro r h₁ - rfl
  exact ⟨r, rfl⟩

/-- The identity behind a membership becomes known. -/
theorem loadIdentity_ok (identityId : Uuid) :
    (loadIdentity identityId).Keeps C (OnOk fun i h' =>
      h' = did (.identities (.getById identityId)) (some i) :: h) h := by
  refine (keeps_known_query hC rfl).bind_ok ?_
  rintro o h₁ - rfl
  refine (keeps_okOr_ok _ _).weaken_ok ?_
  rintro i h₂ - ⟨rfl, rfl⟩
  rfl

end AuthService

end Parts

/-! ### The gates run alone -/

namespace AuthService

variable {w : World} {s s' : State}

theorem exec_checkLock_eq_ok {identity : Identity} :
    (checkLock identity).exec (handle w) s = (.ok (), s') ↔
      (∀ l, identity.lockedUntil = some l → ¬ s.now < l) ∧ s = s' := by
  unfold checkLock
  cases identity.lockedUntil with
  | none => simp
  | some l =>
    change (Service.ensure (¬ s.now < l) _).exec (handle w) s = _ ↔ _
    rw [Service.exec_ensure_eq_ok]
    simp

theorem exec_checkAccess_eq_ok {user : User} :
    (checkAccess user).exec (handle w) s = (.ok (), s') ↔
      (∀ v, user.accessValidUntil = some v → ¬ v < s.now) ∧ s = s' := by
  unfold checkAccess
  cases user.accessValidUntil with
  | none => simp
  | some v =>
    change (Service.ensure (¬ v < s.now) _).exec (handle w) s = _ ↔ _
    rw [Service.exec_ensure_eq_ok]
    simp

/-- The gate check passes exactly when the rows pass the gates at present. -/
theorem exec_checkGates_eq_ok {user : User} {identity : Identity} :
    (checkGates user identity).exec (handle w) s = (.ok (), s') ↔
      Gates {s.now} user.toRow identity ∧ s = s' := by
  unfold checkGates
  rw [Program.bind_eq, exec_bind_eq_ok]
  constructor
  · rintro ⟨_, _, hactive, hrest⟩
    obtain ⟨⟨hm, hi⟩, rfl⟩ := Service.exec_ensure_eq_ok.mp hactive
    obtain ⟨_, _, h₁, h₂⟩ := (exec_bind_eq_ok _).mp hrest
    obtain ⟨hlock, rfl⟩ := exec_checkLock_eq_ok.mp h₁
    obtain ⟨haccess, rfl⟩ := exec_checkAccess_eq_ok.mp h₂
    exact ⟨⟨hm, hi, fun l hl => ⟨_, rfl, hlock l hl⟩, fun v hv => ⟨_, rfl, haccess v hv⟩⟩, rfl⟩
  · rintro ⟨⟨hm, hi, hlock, haccess⟩, rfl⟩
    refine ⟨(), s, Service.exec_ensure_eq_ok.mpr ⟨⟨hm, hi⟩, rfl⟩, (exec_bind_eq_ok _).mpr
      ⟨(), s, exec_checkLock_eq_ok.mpr ⟨fun l hl => ?_, rfl⟩,
        exec_checkAccess_eq_ok.mpr ⟨fun v hv => ?_, rfl⟩⟩⟩
    · obtain ⟨_, rfl, hlt⟩ := hlock l hl
      exact hlt
    · obtain ⟨_, rfl, hlt⟩ := haccess v hv
      exact hlt

end AuthService

/-! ### The tail -/

/-- What `finalize_login` issues for an identity. -/
def CalledFor : Issue → Identity → Prop
  | .session, i => i.forcePasswordChange = false ∧ i.mfaEnabled = false
  | .challenge, i => i.forcePasswordChange = false ∧ i.mfaEnabled = true
  | .changeToken, i => i.forcePasswordChange = true

/-- A challenge is issued under a random token of the call and before any other credential, and a
session is stored under one key. -/
structure Fresh (h : List (Event authrs)) (e : Event authrs) : Prop where
  challenge : ∀ token tenantId userId expiresAt,
    e.request = .sql (.challenges (.insert token tenantId userId expiresAt)) →
      ⟨.randomToken, token⟩ ∈ h ∧ ∀ e' ∈ h, issued e'.request = none
  session : ∀ k, sessionKey e.request = some k →
    ∀ e' ∈ h, ∀ k', sessionKey e'.request = some k' → k' = k

/-- The requests of the part that issues `k`, storing sessions only under the given keys. -/
structure IssueRequest (k : Issue) (tenantId : String) (userId : Uuid) (keys : Set String)
    (q : Request) : Prop where
  silent : Silent q
  issues : issued q = none ∨ issued q = some (k, tenantId, userId)
  key : ∀ s, sessionKey q = some s → s ∈ keys

theorem sessionKey_of_unissued {q : Request} (hq : issued q = none) : sessionKey q = none := by
  cases q with
  | sql x =>
    cases x with
    | sessions x =>
      cases x with
      | insert => cases hq
      | _ => rfl
    | _ => rfl
  | redis c =>
    cases c with
    | setEx => cases hq
    | _ => rfl
  | _ => rfl

theorem IssueRequest.of_quiet {k : Issue} {tenantId : String} {userId : Uuid} {keys : Set String}
    {q : Request} (hq : Quiet q) : IssueRequest k tenantId userId keys q := by
  refine ⟨hq.silent, .inl hq.nothing, fun s hs => ?_⟩
  rw [sessionKey_of_unissued hq.nothing] at hs
  cases hs

section Asks

variable {S : Request → Prop}

theorem asks_unwrapOrDefault {α : Type} {p : Service (List α)} (hp : p.Asks S) :
    p.unwrapOrDefault.Asks S := by
  refine (hp.toExcept _).bind fun r => ?_
  cases r <;> trivial

theorem asks_redis {c : RedisCommand} (h : S (.redis c)) : (redis c).Asks S :=
  ⟨h, fun r => by cases r <;> trivial⟩

theorem asks_execute {q : Sql} (h : S (.sql q)) : (execute q).Asks S :=
  (asks_query h).bind fun _ => trivial

end Asks

namespace AuthService

variable {w : World} {tenantId : String} {userId : Uuid} {keys : Set String}

theorem loadGrants_asks :
    (loadGrants tenantId userId).Asks (IssueRequest .session tenantId userId keys) := by
  -- Reaching the first lookup counts as issuing a session; the other lookups are quiet.
  have hfirst : IssueRequest .session tenantId userId keys
      (.sql (.roles (.getUserRoles tenantId userId))) :=
    ⟨fun _ => ⟨rfl, rfl, rfl⟩, .inr rfl, by rintro _ ⟨⟩⟩
  have hroles : ∀ q : RoleStmt, issued (.sql (.roles q)) = none →
      IssueRequest .session tenantId userId keys (.sql (.roles q)) :=
    fun q hq => .of_quiet ⟨fun _ => ⟨rfl, rfl, rfl⟩, hq⟩
  have hgroups : ∀ q : GroupStmt, IssueRequest .session tenantId userId keys (.sql (.groups q)) :=
    fun q => .of_quiet ⟨fun _ => ⟨rfl, rfl, rfl⟩, rfl⟩
  unfold loadGrants
  refine (asks_unwrapOrDefault (asks_query hfirst)).bind fun _ => ?_
  refine (asks_unwrapOrDefault (asks_query (hroles _ rfl))).bind fun _ => ?_
  refine (asks_unwrapOrDefault (asks_query (hroles _ rfl))).bind fun _ => ?_
  refine (asks_unwrapOrDefault (asks_query (hgroups _))).bind fun _ => ?_
  refine (asks_unwrapOrDefault (asks_query (hgroups _))).bind fun _ => ?_
  refine (asks_unwrapOrDefault (asks_query (hgroups _))).bind fun _ => ?_
  refine (asks_unwrapOrDefault (asks_query (hgroups _))).bind fun _ => ?_
  exact (asks_unwrapOrDefault (asks_query (hgroups _))).bind fun _ => trivial

theorem sessionTtl_asks {S : Request → Prop} (hS : ∀ q, S (.sql (.kv q))) :
    (sessionTtl w tenantId).Asks S := by
  have hget : (TenantConfigLoader.getSessionPolicy w tenantId).Asks S :=
    ((asks_query (hS _)).bind fun _ => asks_ofExcept _).bind fun _ => trivial
  refine hget.bind fun policy => ?_
  cases policy.bind (·.absoluteTimeoutMins) with
  | none => trivial
  | some m =>
    simp only [mulU64]
    repeat' split
    all_goals trivial

theorem nowPlusSeconds_asks {S : Request → Prop} (hS : S .clock) (secs : Int) :
    (nowPlusSeconds secs).Asks S := by
  refine ⟨hS, fun now => ?_⟩
  simp only [pure_bind]
  repeat' split
  all_goals trivial

theorem addDay_asks {S : Request → Prop} (ttlSecs : Nat) :
    (RedisSessionStore.addDay w ttlSecs).Asks S := by
  unfold RedisSessionStore.addDay
  generalize ttlSecs + 86400 = n
  split
  · exact asks_pure _
  · split
    · exact asks_throw _
    · exact asks_pure _

theorem SessionStore.set_asks {sessionToken : String} {payload : SessionPayload} {ttlSecs : Nat}
    (ht : payload.tenantId = tenantId) (hu : payload.userId = userId) :
    (SessionStore.set w sessionToken payload ttlSecs).Asks
      (IssueRequest .session tenantId userId {RedisSessionStore.key sessionToken}) := by
  subst ht hu
  have hredis : ∀ c, issued (.redis c) = none →
      IssueRequest .session payload.tenantId payload.userId {RedisSessionStore.key sessionToken}
        (.redis c) := fun c hi =>
    .of_quiet ⟨fun _ => ⟨rfl, rfl, rfl⟩, hi⟩
  unfold SessionStore.set
  cases w.sessionStore with
  | postgres =>
    exact asks_execute ⟨fun _ => ⟨rfl, rfl, rfl⟩, .inr rfl, by rintro _ ⟨⟩; rfl⟩
  | redis =>
    refine (asks_redis (hredis _ rfl)).bind fun _ => ?_
    refine (asks_redis ⟨fun _ => ⟨rfl, rfl, rfl⟩, .inr rfl, by rintro _ ⟨⟩; rfl⟩).bind fun _ => ?_
    refine (asks_redis (hredis _ rfl)).bind fun _ => ?_
    exact (addDay_asks ttlSecs).bind fun _ => asks_redis (hredis _ rfl)

theorem auditSession_asks {sessionToken : String} {payload : SessionPayload}
    (ht : payload.tenantId = tenantId) (hu : payload.userId = userId) :
    (auditSession w sessionToken payload).Asks
      (IssueRequest .session tenantId userId {RedisSessionStore.key sessionToken}) := by
  subst ht hu
  unfold auditSession
  split
  · trivial
  · exact asks_execute ⟨fun _ => ⟨rfl, rfl, rfl⟩, .inr rfl, by rintro _ ⟨⟩; rfl⟩

section Tail

variable {C : Contract authrs} {M : List (Event authrs) → Prop} {h : List (Event authrs)}
  (hC : ∀ h e, issued e.request = none → C.guarantee h e)
  (hM : ∀ h e, M h → Silent e.request → M (e :: h))

include hC hM

/-- A part that issues `k` keeps the contract, if what has been stored so far is under the keys it
may use. -/
theorem issueRequests_keep {α : Type} {p : Service α} {k : Issue}
    (hp : p.Asks (IssueRequest k tenantId userId keys)) (hkind : k ≠ .challenge)
    (hkeys : keys.Subsingleton)
    (hI : ∀ h e, M h → issued e.request = some (k, tenantId, userId) → Fresh h e →
      C.guarantee h e)
    (hh : M h ∧ ∀ e ∈ h, ∀ s, sessionKey e.request = some s → s ∈ keys) :
    p.Keeps C (OnOk fun _ h' => M h' ∧ ∀ e ∈ h', ∀ s, sessionKey e.request = some s → s ∈ keys)
      h := by
  refine (hp.keeps_inv (M := fun h' => M h' ∧
    ∀ e ∈ h', ∀ s, sessionKey e.request = some s → s ∈ keys) ?_ hh).onOk
  rintro h' ⟨q, r⟩ ⟨hM', hstored⟩ hq
  refine ⟨?_, hM _ _ hM' hq.silent, List.forall_mem_cons.mpr ⟨hq.key, hstored⟩⟩
  rcases hq.issues with hi | hi
  · exact hC _ _ hi
  · refine hI _ _ hM' hi ⟨?_, fun s hs e' he' s' hs' => ?_⟩
    · rintro _ _ _ _ rfl
      cases hi
      exact absurd rfl hkind
    · exact hkeys (hstored e' he' s' hs') (hq.key s hs)

/-- **`do_create_session`** issues its session on what the history had shown before it. -/
theorem doCreateSession_keeps (user : User) (ip userAgent : Option String)
    (hI : ∀ h e, M h → issued e.request = some (.session, tenantId, user.id) → Fresh h e →
      C.guarantee h e)
    (hh : M h) (hun : ∀ e ∈ h, issued e.request = none) :
    (doCreateSession w tenantId user ip userAgent).Keeps C (fun _ _ => True) h := by
  have hpart : ∀ {α : Type} {p : Service α} {h : List (Event authrs)} {keys : Set String},
      p.Asks (IssueRequest .session tenantId user.id keys) → keys.Subsingleton →
      (M h ∧ ∀ e ∈ h, ∀ s, sessionKey e.request = some s → s ∈ keys) →
      p.Keeps C (OnOk fun _ h' => M h' ∧
        ∀ e ∈ h', ∀ s, sessionKey e.request = some s → s ∈ keys) h :=
    fun hp hkeys hh => issueRequests_keep hC hM hp (by decide) hkeys hI hh
  have hstored : ∀ e ∈ h, ∀ s, sessionKey e.request = some s → s ∈ (∅ : Set String) := by
    intro e he s hs
    rw [sessionKey_of_unissued (hun e he)] at hs
    cases hs
  have hempty := Set.subsingleton_empty (α := String)
  suffices hok : (doCreateSession w tenantId user ip userAgent).Keeps C
      (OnOk fun _ _ => True) h from hok.weaken fun _ _ _ => trivial
  unfold doCreateSession
  refine (hpart loadGrants_asks hempty ⟨hh, hstored⟩).bind_ok fun grants h₁ _ hok₁ => ?_
  refine (hpart (sessionTtl_asks fun q => .of_quiet (quiet_kv q)) hempty hok₁).bind_ok
    fun ttlSecs h₂ _ hok₂ => ?_
  refine (hpart (nowPlusSeconds_asks (.of_quiet quiet_clock) _) hempty hok₂).bind_ok
    fun expiresAt h₃ _ hok₃ => ?_
  refine (hpart (p := randomToken) ⟨.of_quiet ⟨fun _ => ⟨rfl, rfl, rfl⟩, rfl⟩, fun _ => trivial⟩
    hempty hok₃).bind_ok fun sessionToken h₄ _ hok₄ => ?_
  -- From here on every store goes under the key of the new token.
  have hnew : ∀ e ∈ h₄, ∀ s, sessionKey e.request = some s →
      s ∈ ({RedisSessionStore.key sessionToken} : Set String) :=
    fun e he s hs => absurd (hok₄.2 e he s hs) (Set.notMem_empty s)
  refine (hpart (SessionStore.set_asks rfl rfl) Set.subsingleton_singleton ⟨hok₄.1, hnew⟩).bind_ok
    fun _ h₅ _ hok₅ => ?_
  refine (hpart (auditSession_asks rfl rfl) Set.subsingleton_singleton hok₅).bind_ok
    fun _ _ _ _ => ?_
  trivial

/-- A forced-change token is issued on what the history had shown before it. -/
theorem issueForceChangeToken_keeps
    (hI : ∀ h e, M h → issued e.request = some (.changeToken, tenantId, userId) → Fresh h e →
      C.guarantee h e)
    (hh : M h) (hun : ∀ e ∈ h, issued e.request = none) :
    (issueForceChangeToken tenantId userId).Keeps C (fun _ _ => True) h := by
  have hasks : (issueForceChangeToken tenantId userId).Asks
      (IssueRequest .changeToken tenantId userId ∅) := by
    refine ⟨.of_quiet ⟨fun _ => ⟨rfl, rfl, rfl⟩, rfl⟩, fun changeToken => ?_⟩
    refine ⟨.of_quiet quiet_clock, fun now => ?_⟩
    have hcreate : (ForceChangeTokensRepo.create tenantId userId changeToken
        (now + minutes FORCE_CHANGE_TOKEN_TTL_MINS)).Asks
          (IssueRequest .changeToken tenantId userId ∅) := by
      refine (asks_execute (.of_quiet ⟨fun _ => ⟨rfl, rfl, rfl⟩, rfl⟩)).bind fun _ => ?_
      exact asks_execute ⟨fun _ => ⟨rfl, rfl, rfl⟩, .inr rfl, by rintro _ ⟨⟩⟩
    exact hcreate.bind fun _ => trivial
  refine (issueRequests_keep hC hM hasks (by decide) Set.subsingleton_empty hI ⟨hh, ?_⟩).weaken
    fun _ _ _ => trivial
  intro e he s hs
  rw [sessionKey_of_unissued (hun e he)] at hs
  cases hs

/-- A challenge is issued under the random token drawn for it. -/
theorem issueChallenge_keeps
    (hI : ∀ h e, M h → issued e.request = some (.challenge, tenantId, userId) → Fresh h e →
      C.guarantee h e)
    (hh : M h) (hun : ∀ e ∈ h, issued e.request = none) :
    (issueChallenge tenantId userId).Keeps C (fun _ _ => True) h := by
  -- Before the insert, the requests are quiet.
  have hstep : ∀ {h : List (Event authrs)} {e : Event authrs}, Quiet e.request →
      (M h ∧ ∀ e ∈ h, issued e.request = none) →
      C.guarantee h e ∧ M (e :: h) ∧ ∀ e' ∈ e :: h, issued e'.request = none :=
    fun hq hh => ⟨hC _ _ hq.nothing, hM _ _ hh.1 hq.silent,
      List.forall_mem_cons.mpr ⟨hq.nothing, hh.2⟩⟩
  intro mfaToken _
  obtain ⟨hg₁, hM₁⟩ := hstep (e := ⟨.randomToken, mfaToken⟩) ⟨fun _ => ⟨rfl, rfl, rfl⟩, rfl⟩
    ⟨hh, hun⟩
  refine ⟨hg₁, fun now _ => ?_⟩
  obtain ⟨hg₂, hM₂⟩ := hstep (e := ⟨.clock, now⟩) quiet_clock hM₁
  refine ⟨hg₂, fun purged _ => ?_⟩
  obtain ⟨hg₃, hM₃⟩ := hstep (e := ⟨.sql (.challenges .deleteExpired), purged⟩)
    ⟨fun _ => ⟨rfl, rfl, rfl⟩, rfl⟩ hM₂
  refine ⟨hg₃, ?_⟩
  cases purged with
  | error e => trivial
  | ok n =>
    intro inserted _
    refine ⟨hI _ _ hM₃.1 rfl ⟨?_, by rintro _ ⟨⟩⟩, ?_⟩
    · rintro _ _ _ _ ⟨⟩
      exact ⟨by simp, hM₃.2⟩
    · cases inserted <;> trivial

/-- **`finalize_login`** issues what the flags of the identity call for, on what the history had
shown before it. -/
theorem finalizeLogin_keeps (user : User) (identity : Identity) (ip userAgent : Option String)
    (hI : ∀ h e k, M h → issued e.request = some (k, tenantId, user.id) → CalledFor k identity →
      Fresh h e → C.guarantee h e)
    (hh : M h) (hun : ∀ e ∈ h, issued e.request = none) :
    (finalizeLogin w tenantId user identity ip userAgent).Keeps C (fun _ _ => True) h := by
  unfold finalizeLogin
  split
  · rename_i hforce
    exact issueForceChangeToken_keeps hC hM
      (fun h' e hM' hi hf => hI h' e .changeToken hM' hi hforce hf) hh hun
  · rename_i hforce
    split
    · rename_i hmfa
      exact issueChallenge_keeps hC hM
        (fun h' e hM' hi hf => hI h' e .challenge hM' hi ⟨by simpa using hforce, hmfa⟩ hf) hh hun
    · rename_i hmfa
      refine doCreateSession_keeps hC hM user ip userAgent ?_ hh hun
      intro h' e hM' hi hf
      exact hI h' e .session hM' hi ⟨by simpa using hforce, by simpa using hmfa⟩ hf

end Tail

end AuthService

end Authrs
