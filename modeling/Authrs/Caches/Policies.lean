import Authrs.Interaction.Since
import Authrs.Policy.Tuples
import Authrs.Repo.Access

/-!
# The cache of the policy sets

`get_policy_set` keeps the compiled policies of a tenant until they are evicted. It looks, loads and
inserts in separate steps and holds no lock between them: a call that has loaded before a change of
the permissions may insert what it has loaded after the eviction that follows the change, and then
every later call gets the old policies. Nothing else goes wrong.

## Main definitions

* `PolicyRequest`, `PolicyState`: the steps of the calls, and what they act on
* `CachedPolicies.getPolicySet`, `mutateAndEvict`: the calls
* `Undisturbed`: no change is made and evicted between the load and the insertion of a call
* `Fresh`: a later call gets policies that were loaded after the change

## Main results

* `policies_fresh`: in an undisturbed run, later calls get policies loaded after the change
-/

namespace Authrs

open Interaction
open Cedar (Crate PolicySet)

namespace CachedPolicies

/-- `list_all_for_tenant`: the documents of a tenant's permissions. -/
def documentsOf (db : Db) (tenantId : String) : List (Uuid × Json) :=
  (db.permissions.select fun p => p.tenantId = tenantId).filterMap fun p =>
    p.document.map fun document => (p.id, document)

/-- A step of a call. -/
inductive PolicyRequest
  | cacheGet (tenantId : String)
  | listAll (tenantId : String)
  | cacheInsert (tenantId : String) (set : PolicySet)
  | evict (tenantId : String)
  | evictAll
  | mutate (q : PermissionStmt)

/-- The reply to a step. -/
@[reducible] def PolicyReply : PolicyRequest → Type
  | .cacheGet _ => Option PolicySet
  | .listAll _ => Except AppError (List (Uuid × Json))
  | .mutate q => Except AppError q.Rows
  | _ => Unit

abbrev policySteps : Interface := ⟨PolicyRequest, PolicyReply⟩

/-- What the calls act on: the tables, whether they can be reached, and the cache. -/
structure PolicyState where
  db : Db
  outage : Option AppError
  cache : String → Option PolicySet

/-- A service that has just started. -/
def PolicyState.fresh (db : Db) : PolicyState := ⟨db, none, fun _ => none⟩

/-- The permissions after a statement that may fail. -/
def PolicyState.mutated (s : PolicyState) (q : PermissionStmt) :
    Except AppError q.Rows × PolicyState :=
  match s.outage with
  | some e => (.error e, s)
  | none =>
    match q.exec s.db with
    | .error e => (.error (.ofSqlError e), s)
    | .ok (r, db) => (.ok r, { s with db := db })

/-- **The meaning of the steps.** -/
def handlePolicy : Handler policySteps PolicyState
  | .cacheGet tenantId, s => (s.cache tenantId, s)
  | .listAll tenantId, s =>
    (s.outage.elim (.ok (documentsOf s.db tenantId)) .error, s)
  | .cacheInsert tenantId set, s =>
    ((), { s with cache := Function.update s.cache tenantId (some set) })
  | .evict tenantId, s => ((), { s with cache := Function.update s.cache tenantId none })
  | .evictAll, s => ((), { s with cache := fun _ => none })
  | .mutate q, s => s.mutated q

/-- What happens besides: others write to the tables, the database fails and recovers. -/
inductive Surroundings
  | write (db : Db)
  | outage (e : Option AppError)

def Surroundings.act : Surroundings → PolicyState → PolicyState
  | .write db, s => { s with db := db }
  | .outage e, s => { s with outage := e }

/-- A part of a call. -/
abbrev Steps (α : Type) : Type := Program policySteps AppError α

def step (q : PolicyRequest) : Steps (PolicyReply q) := Program.request (I := policySteps) q

variable (C : Crate) (fromValue : Json → Except String PermissionDocument)

/-- The set compiled from the documents of a tenant. -/
def compileAll (rows : List (Uuid × Json)) : Except AppError PolicySet := do
  let docs ← PermissionsRepo.parseDocuments fromValue rows
  policySetForRoles C docs

/-- Load and compile outside the lock. -/
def loadAndCompile (tenantId : String) : Steps PolicySet := do
  let rows ← step (.listAll tenantId)
  let rows ← Program.ofExcept rows
  let set ← Program.ofExcept (compileAll C fromValue rows)
  let _ ← step (.cacheInsert tenantId set)
  pure set

/-- The compiled policies of a tenant, loaded on a cache miss. -/
def getPolicySet (tenantId : String) : Steps PolicySet := do
  let hit ← step (.cacheGet tenantId)
  match hit with
  | some set => pure set
  | none => loadAndCompile C fromValue tenantId

/-- A change of a tenant's permissions, followed by the eviction of its policies. -/
def mutateAndEvict (q : PermissionStmt) (tenantId : String) : Steps Unit := do
  let result ← step (.mutate q)
  let _ ← Program.ofExcept result
  step (.evict tenantId)

/-- A call. -/
inductive PolicyCall
  | getPolicySet (tenantId : String)
  | mutateAndEvict (q : PermissionStmt) (tenantId : String)
  | evictAll

def PolicyCall.run : PolicyCall → Steps (Option PolicySet)
  | .getPolicySet tenantId => do
    let set ← CachedPolicies.getPolicySet C fromValue tenantId
    pure (some set)
  | .mutateAndEvict q tenantId => do
    CachedPolicies.mutateAndEvict q tenantId
    pure none
  | .evictAll => do
    let _ ← step .evictAll
    pure none

variable {C fromValue}

/-! ### What a call does -/

/-- The history of a call that has loaded the documents after a miss. -/
def loadedHistory (tenantId : String) (rows : List (Uuid × Json)) : List (Event policySteps) :=
  [⟨PolicyRequest.listAll tenantId, .ok rows⟩, ⟨PolicyRequest.cacheGet tenantId, none⟩]

/-- An insertion comes after a load, and a change is the first step of its call. -/
structure PolicyStep (C : Crate) (fromValue : Json → Except String PermissionDocument)
    (h : List (Event policySteps)) (e : Event policySteps) : Prop where
  insert : ∀ tenantId set, e.request = .cacheInsert tenantId set →
    ∃ rows, h = loadedHistory tenantId rows ∧ compileAll C fromValue rows = .ok set
  mutate : ∀ q, e.request = .mutate q → h = []

/-- What a call has done when it returns. -/
def Answered (C : Crate) (fromValue : Json → Except String PermissionDocument) :
    PolicyCall → List (Event policySteps) → Except AppError (Option PolicySet) → Prop
  | .getPolicySet tenantId, h, .ok (some set) =>
    h = [⟨PolicyRequest.cacheGet tenantId, some set⟩] ∨
      ∃ e rows, h = e :: loadedHistory tenantId rows ∧ compileAll C fromValue rows = .ok set
  | _, _, _ => True

theorem getPolicySet_keeps (tenantId : String) :
    ((PolicyCall.getPolicySet tenantId).run C fromValue).Keeps (.ofGuarantee (PolicyStep C fromValue))
      (Answered C fromValue (.getPolicySet tenantId)) [] := by
  intro hit _
  refine ⟨⟨nofun, nofun⟩, ?_⟩
  cases hit with
  | some set => exact .inl rfl
  | none =>
    intro rows _
    refine ⟨⟨nofun, nofun⟩, ?_⟩
    cases rows with
    | error e => trivial
    | ok rows =>
      change (((Program.ofExcept (compileAll C fromValue rows)).bind _).bind _).Keeps _ _ _
      cases hset : compileAll C fromValue rows with
      | error e => trivial
      | ok set =>
        intro u _
        refine ⟨⟨?_, nofun⟩, .inr ⟨_, rows, rfl, hset⟩⟩
        intro t set' hq
        obtain ⟨rfl, rfl⟩ := PolicyRequest.cacheInsert.inj hq
        exact ⟨rows, rfl, hset⟩

/-- **Every call keeps the contract.** -/
theorem PolicyCall.run_keeps (c : PolicyCall) :
    (c.run C fromValue).Keeps (.ofGuarantee (PolicyStep C fromValue)) (Answered C fromValue c) [] := by
  cases c with
  | getPolicySet tenantId => exact getPolicySet_keeps tenantId
  | mutateAndEvict q tenantId =>
    intro r _
    refine ⟨⟨nofun, fun _ _ => rfl⟩, ?_⟩
    cases r with
    | error e => trivial
    | ok r => exact fun _ _ => ⟨⟨nofun, nofun⟩, trivial⟩
  | evictAll => exact fun _ _ => ⟨⟨nofun, nofun⟩, trivial⟩

/-! ### Runs -/

section Runs

variable {ι : Type}

/-- The moves of a record. -/
abbrev PolicyLog (ι : Type) : Type := List (Move policySteps ι PolicyState)

/-- A change of the permissions that is in the record together with the eviction that follows it. -/
def ChangedAndEvicted (tenantId : String) (log : PolicyLog ι) : Prop :=
  ∃ evict ∈ log, ∃ change ∈ log, evict.event.request = .evict tenantId ∧ change.who = evict.who ∧
    ∃ q, change.event.request = .mutate q

/-- **No change is made and evicted between the load and the insertion of a call.** -/
def Undisturbed (tenantId : String) (log : PolicyLog ι) : Prop :=
  ∀ newer insert between load older set, log = newer ++ insert :: (between ++ load :: older) →
    insert.event.request = .cacheInsert tenantId set → load.who = insert.who →
    load.event.request = .listAll tenantId → ¬ChangedAndEvicted tenantId between

/-- The set was compiled from the documents that were there when the move `load` was made. -/
def LoadedSet (C : Crate) (fromValue : Json → Except String PermissionDocument) (tenantId : String)
    (set : PolicySet) (load : Move policySteps ι PolicyState) : Prop :=
  load.event.request = .listAll tenantId ∧
    compileAll C fromValue (documentsOf load.before.db tenantId) = .ok set

/-- **A call that starts after a change and its eviction gets policies loaded after the change.** -/
def Fresh (C : Crate) (fromValue : Json → Except String PermissionDocument) [DecidableEq ι]
    (tenantId : String) (c : Config policySteps AppError (Option PolicySet) ι PolicyState)
    (call : ι → PolicyCall) : Prop :=
  ∀ newer evict older, c.log = newer ++ evict :: older → evict.event.request = .evict tenantId →
    ∀ change ∈ older, change.who = evict.who → (∃ q, change.event.request = .mutate q) →
      ∀ i set, call i = .getPolicySet tenantId → own i (evict :: older) = [] →
        c.threads i = .pure (some set) →
          ∃ later load earlier, c.log = later ++ load :: earlier ∧ change ∈ earlier ∧
            LoadedSet C fromValue tenantId set load

/-- The set was loaded by a call, and since then no change has been made and evicted. -/
def LoadedBefore (C : Crate) (fromValue : Json → Except String PermissionDocument) (tenantId : String)
    (set : PolicySet) (log : PolicyLog ι) : Prop :=
  ∃ later load earlier, log = later ++ load :: earlier ∧ LoadedSet C fromValue tenantId set load ∧
    ¬ChangedAndEvicted tenantId later

/-- A move that is not an eviction, and a change of a call that has just begun, complete nothing. -/
theorem ChangedAndEvicted.of_cons {tenantId : String} {m : Move policySteps ι PolicyState}
    {log : PolicyLog ι} (h : ChangedAndEvicted tenantId (m :: log))
    (hevict : m.event.request ≠ .evict tenantId)
    (hchange : ∀ q, m.event.request = .mutate q → ∀ x ∈ log, x.who ≠ m.who) :
    ChangedAndEvicted tenantId log := by
  obtain ⟨evict, he, change, hc, hrequest, hwho, q, hq⟩ := h
  rcases List.mem_cons.mp he with rfl | hevicted
  · exact absurd hrequest hevict
  · rcases List.mem_cons.mp hc with rfl | hchanged
    · exact absurd hwho.symm (hchange q hq evict hevicted)
    · exact ⟨evict, hevicted, change, hchanged, hrequest, hwho, q, hq⟩

theorem LoadedBefore.cons {tenantId : String} {set : PolicySet} {log : PolicyLog ι}
    (h : LoadedBefore C fromValue tenantId set log) (m : Move policySteps ι PolicyState)
    (hevict : m.event.request ≠ .evict tenantId)
    (hchange : ∀ q, m.event.request = .mutate q → ∀ x ∈ log, x.who ≠ m.who) :
    LoadedBefore C fromValue tenantId set (m :: log) := by
  obtain ⟨later, load, earlier, rfl, hloaded, hnone⟩ := h
  refine ⟨m :: later, load, earlier, rfl, hloaded, fun hsince => hnone (hsince.of_cons hevict ?_)⟩
  exact fun q hq x hx => hchange q hq x (List.mem_append_left _ hx)

/-- **A set that was loaded before a record's changes and evictions** was loaded after every change
that is evicted in the record. -/
theorem LoadedBefore.after_change {tenantId : String} {set : PolicySet} {log : PolicyLog ι}
    (h : LoadedBefore C fromValue tenantId set log) {newer older : PolicyLog ι}
    {evict change : Move policySteps ι PolicyState} (hlog : log = newer ++ evict :: older)
    (hevict : evict.event.request = .evict tenantId) (hmem : change ∈ older)
    (hwho : change.who = evict.who) (hchange : ∃ q, change.event.request = .mutate q) :
    ∃ later load earlier, log = later ++ load :: earlier ∧ change ∈ earlier ∧
      LoadedSet C fromValue tenantId set load := by
  obtain ⟨later, load, earlier, hsplit, hloaded, hnone⟩ := h
  refine ⟨later, load, earlier, hsplit, ?_, hloaded⟩
  obtain ⟨q, hq⟩ := hchange
  rcases List.append_eq_append_iff.mp (hlog.symm.trans hsplit) with
    ⟨rest, rfl, hrest⟩ | ⟨rest, rfl, hrest⟩
  · -- The eviction comes after the load, so the change comes before it.
    cases rest with
    | nil =>
      rw [List.nil_append] at hrest
      obtain ⟨rfl, rfl⟩ := List.cons.inj hrest
      exact hmem
    | cons x rest =>
      obtain ⟨rfl, rfl⟩ := List.cons.inj hrest
      rcases List.mem_append.mp hmem with hmem | hmem
      · refine absurd ⟨evict, ?_, change, ?_, hevict, hwho, q, hq⟩ hnone
        · exact List.mem_append_right _ List.mem_cons_self
        · exact List.mem_append_right _ (List.mem_cons_of_mem _ hmem)
      · rcases List.mem_cons.mp hmem with rfl | hmem
        · rw [hloaded.1] at hq
          cases hq
        · exact hmem
  · cases rest with
    | nil =>
      rw [List.nil_append] at hrest
      obtain ⟨rfl, rfl⟩ := List.cons.inj hrest
      exact hmem
    | cons x rest =>
      obtain ⟨rfl, rfl⟩ := List.cons.inj hrest
      exact List.mem_append_right _ (List.mem_cons_of_mem _ hmem)

/-- The replies of a record are those of the steps, and in an undisturbed record what is cached was
loaded after every change that has been evicted. -/
structure PolicyInv (C : Crate) (fromValue : Json → Except String PermissionDocument)
    (tenantId : String) (s : PolicyState) (log : PolicyLog ι) : Prop where
  replies : ∀ m ∈ log, m.event.reply = (handlePolicy m.event.request m.before).1
  cache : Undisturbed tenantId log → ∀ set, s.cache tenantId = some set →
    LoadedBefore C fromValue tenantId set log

theorem Undisturbed.of_append {tenantId : String} {newer log : PolicyLog ι}
    (h : Undisturbed tenantId (newer ++ log)) : Undisturbed tenantId log := by
  intro newer' insert between load older set hlog
  refine h (newer ++ newer') insert between load older set ?_
  rw [hlog, List.append_assoc]

variable [DecidableEq ι]

/-- The load in the history of a call. -/
theorem loadedSet_of_own {tenantId : String} {set : PolicySet} {log : PolicyLog ι}
    (hreplies : ∀ m ∈ log, m.event.reply = (handlePolicy m.event.request m.before).1) {i : ι}
    {rows : List (Uuid × Json)} (hown : own i log = loadedHistory tenantId rows)
    (hset : compileAll C fromValue rows = .ok set) :
    ∃ later load earlier, log = later ++ load :: earlier ∧ load.who = i ∧
      LoadedSet C fromValue tenantId set load := by
  have hown' : own i log = [] ++ _ := hown
  obtain ⟨later, load, earlier, rfl, hwho, hload, -⟩ := own_split hown'
  have hreply := hreplies load (by simp)
  refine ⟨later, load, earlier, rfl, hwho, by rw [hload], ?_⟩
  obtain ⟨who, event, before⟩ := load
  subst hload
  change Except.ok rows = before.outage.elim (.ok (documentsOf before.db tenantId)) .error at hreply
  cases houtage : before.outage with
  | some e =>
    rw [houtage] at hreply
    cases hreply
  | none =>
    rw [houtage] at hreply
    rw [← Except.ok.inj hreply]
    exact hset

theorem PolicyState.mutated_cache (s : PolicyState) (q : PermissionStmt) :
    (s.mutated q).2.cache = s.cache := by
  unfold PolicyState.mutated
  split
  · rfl
  · split <;> rfl

/-- **A step keeps the invariant.** -/
theorem PolicyInv.step {tenantId : String} {s : PolicyState} {log : PolicyLog ι}
    (h : PolicyInv C fromValue tenantId s log) {i : ι} {q : PolicyRequest}
    (hstep : PolicyStep C fromValue (own i log) ⟨q, (handlePolicy q s).1⟩) :
    PolicyInv C fromValue tenantId (handlePolicy q s).2 (⟨i, ⟨q, (handlePolicy q s).1⟩, s⟩ :: log) := by
  constructor
  · intro m hm
    rcases List.mem_cons.mp hm with rfl | hm
    · rfl
    · exact h.replies m hm
  · intro hundisturbed set hset
    have hlog : Undisturbed tenantId log :=
      @Undisturbed.of_append ι tenantId [_] log hundisturbed
    -- What was cached stays accounted for, unless it is evicted now.
    have hbefore : q ≠ .evict tenantId → s.cache tenantId = some set →
        LoadedBefore C fromValue tenantId set (⟨i, ⟨q, (handlePolicy q s).1⟩, s⟩ :: log) := by
      intro hq hs
      refine (h.cache hlog set hs).cons _ hq fun q' hq' x hx hwho => ?_
      have hnone : own i log = [] := hstep.mutate q' hq'
      have hmem : x.event ∈ own i log := mem_own.mpr ⟨x, hx, hwho, rfl⟩
      rw [hnone] at hmem
      cases hmem
    cases q with
    | cacheGet _ => exact hbefore nofun hset
    | listAll _ => exact hbefore nofun hset
    | evictAll => cases hset
    | mutate q =>
      change (s.mutated q).2.cache tenantId = some set at hset
      rw [PolicyState.mutated_cache] at hset
      exact hbefore nofun hset
    | evict t =>
      change Function.update s.cache t none tenantId = some set at hset
      by_cases ht : tenantId = t
      · subst ht
        rw [Function.update_self] at hset
        cases hset
      · rw [Function.update_of_ne ht] at hset
        exact hbefore (fun heq => ht (PolicyRequest.evict.inj heq).symm) hset
    | cacheInsert t set' =>
      change Function.update s.cache t (some set') tenantId = some set at hset
      by_cases ht : tenantId = t
      · subst ht
        rw [Function.update_self] at hset
        obtain rfl := Option.some.inj hset
        -- The call inserts what it has loaded, and nothing has changed and been evicted since.
        obtain ⟨rows, hown, hcompiled⟩ := hstep.insert _ _ rfl
        obtain ⟨later, load, earlier, rfl, hwho, hloaded⟩ := loadedSet_of_own h.replies hown hcompiled
        refine ⟨_ :: later, load, earlier, rfl, hloaded, fun hsince => ?_⟩
        exact hundisturbed [] _ later load earlier _ rfl rfl hwho hloaded.1
          (hsince.of_cons nofun nofun)
      · rw [Function.update_of_ne ht] at hset
        exact hbefore nofun hset

/-- Calls run side by side with their surroundings. -/
def policyRun (C : Crate) (fromValue : Json → Except String PermissionDocument) (db : Db)
    (call : ι → PolicyCall) (schedule : List (ι ⊕ Surroundings)) :
    Config policySteps AppError (Option PolicySet) ι PolicyState :=
  (Config.start (PolicyState.fresh db) fun i => (call i).run C fromValue).run handlePolicy
    Surroundings.act schedule

theorem policyRun_inv (db : Db) (call : ι → PolicyCall) (tenantId : String)
    (schedule : List (ι ⊕ Surroundings)) :
    PolicyInv C fromValue tenantId (policyRun C fromValue db call schedule).state
      (policyRun C fromValue db call schedule).log := by
  refine Config.run_invariant (fun i => (call i).run_keeps) (fun _ _ _ => trivial) ?_
    (fun s log i q h hstep => h.step hstep) (fun s log t h => ?_) schedule
  · exact ⟨List.forall_mem_nil _, fun _ _ h => (Option.some_ne_none _ h.symm).elim⟩
  · cases t with
    | write db => exact ⟨h.replies, h.cache⟩
    | outage e => exact ⟨h.replies, h.cache⟩

/-- What a call has done that has returned. -/
theorem policyRun_answered {db : Db} {call : ι → PolicyCall} (schedule : List (ι ⊕ Surroundings))
    {i : ι} {a : Option PolicySet}
    (hend : (policyRun C fromValue db call schedule).threads i = .pure a) :
    Answered C fromValue (call i) (own i (policyRun C fromValue db call schedule).log) (.ok a) :=
  Config.run_outcome (fun i => (call i).run_keeps) (fun _ _ _ => trivial) schedule hend

/-- A move of a call that has none in a part of the record comes after that part. -/
theorem after_of_own_nil {i : ι} {log newer older later earlier : PolicyLog ι}
    {e m : Move policySteps ι PolicyState} (hlog : log = newer ++ e :: older)
    (hnone : own i (e :: older) = []) (hm : log = later ++ m :: earlier) (hwho : m.who = i) :
    ∃ between, earlier = between ++ e :: older := by
  have hnot : ∀ x ∈ e :: older, x.who ≠ i := by
    intro x hx hwho
    have hmem : x.event ∈ own i (e :: older) := mem_own.mpr ⟨x, hx, hwho, rfl⟩
    rw [hnone] at hmem
    cases hmem
  rcases List.append_eq_append_iff.mp (hlog.symm.trans hm) with ⟨rest, rfl, hrest⟩ | ⟨rest, rfl, hrest⟩
  · refine absurd hwho (hnot m ?_)
    rw [hrest]
    exact List.mem_append_right _ List.mem_cons_self
  · cases rest with
    | nil =>
      rw [List.nil_append] at hrest
      refine absurd hwho (hnot m ?_)
      rw [← hrest]
      exact List.mem_cons_self
    | cons x rest => exact ⟨rest, (List.cons.inj hrest).2⟩

/-- **In an undisturbed run, a call that starts after a change and its eviction gets policies loaded
after the change.** -/
theorem policies_fresh (C : Crate) (fromValue : Json → Except String PermissionDocument) (db : Db)
    (call : ι → PolicyCall) (tenantId : String) (schedule : List (ι ⊕ Surroundings))
    (hundisturbed : Undisturbed tenantId (policyRun C fromValue db call schedule).log) :
    Fresh C fromValue tenantId (policyRun C fromValue db call schedule) call := by
  intro newer evict older hlog hevict change hmem hwho hchange i set hcall hlater hend
  have hinv := @policyRun_inv C fromValue ι _ db call tenantId schedule
  have hanswered := policyRun_answered schedule hend
  rw [hcall] at hanswered
  rcases hanswered with hown | ⟨e, rows, hown, hset⟩
  · -- The set was in the cache when the call looked.
    have hown' : own i (policyRun C fromValue db call schedule).log = [] ++ _ := hown
    obtain ⟨later, get, rest, hsplit, hgetwho, hget, -⟩ := own_split hown'
    obtain ⟨between, rfl⟩ := after_of_own_nil hlog hlater hsplit hgetwho
    obtain ⟨earlier, -, -, hearlier, hstate, -, hreply⟩ := Config.run_log_split schedule hsplit
    have hcached : get.before.cache tenantId = some set := by
      obtain ⟨who, event, before⟩ := get
      subst hget
      exact hreply.symm
    have hloaded := (@policyRun_inv C fromValue ι _ db call tenantId earlier).cache
    simp only [policyRun, hearlier, hstate] at hloaded
    have hrest : Undisturbed tenantId (between ++ evict :: older) := by
      have hcons : Undisturbed tenantId ((later ++ [get]) ++ (between ++ evict :: older)) := by
        rw [List.append_assoc, List.singleton_append, ← hsplit]
        exact hundisturbed
      exact hcons.of_append
    obtain ⟨since, load, before, heq, hchanged, hload⟩ :=
      (hloaded hrest set hcached).after_change rfl hevict hmem hwho hchange
    refine ⟨later ++ get :: since, load, before, ?_, hchanged, hload⟩
    rw [hsplit, heq, List.append_assoc, List.cons_append]
  · -- The call has loaded the set itself.
    have hown' : own i (policyRun C fromValue db call schedule).log = [] ++ _ := hown
    obtain ⟨later, insert, rest, hsplit, -, -, hrest⟩ := own_split hown'
    have hreplies : ∀ m ∈ rest, m.event.reply = (handlePolicy m.event.request m.before).1 :=
      fun m hm => hinv.replies m (by rw [hsplit]; simp [hm])
    obtain ⟨since, load, before, rfl, hloadwho, hload⟩ := loadedSet_of_own hreplies hrest hset
    have hsplit' : (policyRun C fromValue db call schedule).log =
        (later ++ insert :: since) ++ load :: before := by
      rw [hsplit, List.append_assoc, List.cons_append]
    obtain ⟨between, rfl⟩ := after_of_own_nil hlog hlater hsplit' hloadwho
    exact ⟨_, load, _, hsplit', List.mem_append_right _ (List.mem_cons_of_mem _ hmem), hload⟩

end Runs

/-! ### Two readers and a writer -/

/-- Two calls for the policies of a tenant, and a change of its permissions. -/
def readersAndWriter : Fin 3 → PolicyCall
  | 0 => .getPolicySet "acme"
  | 1 => .mutateAndEvict (.insert 1 "acme" "p" none runSample.toValue) "acme"
  | 2 => .getPolicySet "acme"

/-- The kinds of the moves: loads, changes, insertions, and the others. -/
def kind (m : Move policySteps (Fin 3) PolicyState) : Nat :=
  match m.event.request with
  | .listAll _ => 0
  | .mutate _ => 1
  | .cacheInsert .. => 2
  | _ => 3

/-- A call fills the cache; then a change and its eviction, and then another call. -/
def inOrder : List (Fin 3 ⊕ Surroundings) :=
  List.replicate 3 (Sum.inl 0) ++ List.replicate 2 (Sum.inl 1) ++ List.replicate 3 (Sum.inl 2)

/-- The run of the calls in order. -/
abbrev orderly : Config policySteps AppError (Option PolicySet) (Fin 3) PolicyState :=
  policyRun Cedar.reference (fun _ => .ok runSample) { Db.empty with tenants := acmeAndGlobex }
    readersAndWriter inOrder

/-- Who moves in that run and how, the last move first. -/
def orderlyKinds : List (Fin 3 × Nat) :=
  [(2, 2), (2, 0), (2, 3), (1, 3), (1, 1), (0, 2), (0, 0), (0, 3)]

theorem orderly_kinds : orderly.log.map (fun m => (m.who, kind m)) = orderlyKinds := rfl

set_option synthInstance.maxSize 1000 in
theorem orderlyKinds_adjacent : ∀ n < 8, ∀ k < 8, ∀ i : Fin 3,
    orderlyKinds[n]? = some (i, 2) → orderlyKinds[n + 1 + k]? = some (i, 0) → k = 0 := by
  decide

/-- Where two elements of a list stand. -/
theorem getElem?_of_split {α : Type} {l newer between older : List α} {a b : α}
    (h : l = newer ++ a :: (between ++ b :: older)) :
    l[newer.length]? = some a ∧ l[newer.length + 1 + between.length]? = some b := by
  subst h
  have hsplit : newer ++ a :: (between ++ b :: older) = (newer ++ a :: between) ++ b :: older := by
    simp
  have hlength : newer.length + 1 + between.length = (newer ++ a :: between).length := by
    rw [List.length_append, List.length_cons]
    omega
  constructor
  · simp
  · rw [hsplit, hlength]
    simp

/-- Each of the two calls inserts right after its load. -/
theorem undisturbed_inOrder : Undisturbed "acme" orderly.log := by
  intro newer insert between load older set hlog hinsert hwho hload
  rintro ⟨evict, hevict, -⟩
  have hkinds := orderly_kinds
  have hkindinsert : kind insert = 2 := by
    unfold kind
    rw [hinsert]
  have hkindload : kind load = 0 := by
    unfold kind
    rw [hload]
  rw [hlog] at hkinds
  simp only [List.map_append, List.map_cons, hkindinsert, hkindload, hwho] at hkinds
  obtain ⟨hinserted, hloaded⟩ := getElem?_of_split hkinds.symm
  have hlength : (newer ++ insert :: (between ++ load :: older)).length = 8 := hlog ▸ rfl
  simp only [List.length_append, List.length_cons] at hlength
  rw [List.length_map, List.length_map] at hloaded
  rw [List.length_map] at hinserted
  have hbetween := orderlyKinds_adjacent _ (by omega) _ (by omega) _ hinserted hloaded
  rw [List.length_eq_zero_iff] at hbetween
  rw [hbetween] at hevict
  cases hevict

theorem policies_fresh_inOrder : Fresh Cedar.reference (fun _ => .ok runSample) "acme" orderly
    readersAndWriter :=
  policies_fresh Cedar.reference (fun _ => .ok runSample) { Db.empty with tenants := acmeAndGlobex }
    readersAndWriter "acme" inOrder undisturbed_inOrder

/-- The first call has loaded before the change, and inserts after the eviction. -/
def overtaken : Config policySteps AppError (Option PolicySet) (Fin 3) PolicyState :=
  policyRun Cedar.reference (fun _ => .error "unused") { Db.empty with tenants := acmeAndGlobex }
    readersAndWriter [.inl 0, .inl 0, .inl 1, .inl 1, .inl 0, .inl 2]

/-- The only load comes before the change. -/
theorem overtaken_log : ∃ get insert evict change load look : Move policySteps (Fin 3) PolicyState,
    overtaken.log = [get, insert, evict, change, load, look] ∧
      evict.event.request = .evict "acme" ∧ change.who = evict.who ∧
      (∃ q, change.event.request = .mutate q) ∧ own 2 [evict, change, load, look] = [] ∧
      overtaken.threads 2 = .pure (some PolicySet.new) ∧
      [get, insert, evict, change, load, look].map kind = [3, 2, 3, 1, 0, 3] :=
  ⟨_, _, _, _, _, _, rfl, rfl, rfl, ⟨_, rfl⟩, rfl, rfl, rfl⟩

/-- A call that starts after the change and its eviction gets the old policies. -/
theorem overtaken_not_fresh :
    ¬Fresh Cedar.reference (fun _ => .error "unused") "acme" overtaken readersAndWriter := by
  intro h
  obtain ⟨get, insert, evict, change, load, look, hlog, hevict, hwho, hchange, hlater, hend, hkinds⟩ :=
    overtaken_log
  obtain ⟨later, load', earlier, hsplit, hmem, hload⟩ :=
    h [get, insert] evict [change, load, look] hlog hevict change List.mem_cons_self hwho hchange 2 _ rfl
      hlater hend
  have hkindload : kind load' = 0 := by
    unfold kind
    rw [hload.1]
  have hkindchange : kind change = 1 := by
    obtain ⟨q, hq⟩ := hchange
    unfold kind
    rw [hq]
  -- There is one load, and it is older than the change.
  have hkinds' : later.map kind ++ 0 :: earlier.map kind = [3, 2, 3, 1, 0, 3] := by
    rw [← hkinds, ← hlog, hsplit, List.map_append, List.map_cons, hkindload]
  have hone : ∀ l l' : List Nat, l ++ 0 :: l' = [3, 2, 3, 1, 0, 3] → 1 ∉ l' := by
    intro l l' heq
    rcases l with _ | ⟨_, _ | ⟨_, _ | ⟨_, _ | ⟨_, _ | ⟨_, _ | ⟨_, _⟩⟩⟩⟩⟩⟩ <;> simp at heq
    simp [heq]
  exact hone _ _ hkinds' (List.mem_map.mpr ⟨change, hmem, hkindchange⟩)

end CachedPolicies

end Authrs
