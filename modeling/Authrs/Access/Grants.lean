import Authrs.Access.Calls
import Authrs.Access.Consistency
import Authrs.Store.Runs

/-!
# Grants under concurrent calls

A call that attaches a permission, or sets a parent, has looked at the tenants of both ends in
earlier statements, and other calls may have deleted and created rows in between. What it found
still holds of the rows that are there, because the tenant of a row never changes and an id is
used for one row only: every role and every permission can be traced back to its insert, the
insert to the draw of the id, and the uuids drawn in the run are distinct.

## Main definitions

* `inserted`: the row that a statement inserts
* `FreshUuids`: the uuids drawn in the run are distinct and new
* `Origin`: where a row comes from
* `Traced`: the rows of a state, and what checks have found, have an origin
* `runCalls`: calls of the repositories side by side

## Main results

* `Origin.unique`: an id belongs to one tenant during the whole run
* `guarded_of_careful`: a careful call makes guarded statements
* `run_guarded`: what guarded statements keep, every run keeps
* `grants_within_tenant`: grants stay within a tenant in every run
-/

namespace Authrs

open Interaction Relational Program

/-! ### The rows that are checked and linked -/

/-- The row of the kind is the tenant's. -/
def Db.owns (db : Db) : Securable → String → Uuid → Prop
  | .role, T, id => db.ownsRole T id
  | .permission, T, id => db.ownsPermission T id

theorem Db.owns_unique {db : Db} {k : Securable} {T T' : String} {id : Uuid}
    (h : db.owns k T id) (h' : db.owns k T' id) : T = T' := by
  cases k with
  | role => exact Table.Has.unique (f := RoleRow.tenantId) h h'
  | permission => exact Table.Has.unique (f := PermissionRow.tenantId) h h'

/-- The row that a statement inserts when it succeeds: its kind, id and tenant. -/
def inserted (e : Event authrs) : Option (Securable × Uuid × String) :=
  match e.request with
  | .sql (.roles (.insert id tenantId ..)) =>
    (varcharReq 255 tenantId).toOption.map fun T => (.role, id, T)
  | .sql (.permissions (.insert id tenantId ..)) =>
    (varcharReq 255 tenantId).toOption.map fun T => (.permission, id, T)
  | .sql (.permissions (.upsert id tenantId ..)) =>
    (varcharReq 255 tenantId).toOption.map fun T => (.permission, id, T)
  | _ => none

/-- Another statement than those on roles and permissions. -/
theorem Db.owns_congr {db db' : Db} (hr : db'.roles = db.roles)
    (hp : db'.permissions = db.permissions) {k : Securable} {T : String} {id : Uuid}
    (h : db'.owns k T id) : db.owns k T id := by
  cases k with
  | role =>
    obtain ⟨r, hmem, hrow⟩ := h
    exact ⟨r, hr ▸ hmem, hrow⟩
  | permission =>
    obtain ⟨p, hmem, hrow⟩ := h
    exact ⟨p, hp ▸ hmem, hrow⟩

theorem RoleStmt.exec_owns {db db' : Db} {q : RoleStmt} {r : q.Rows}
    (h : q.exec db = .ok (r, db')) {k : Securable} {T : String} {id : Uuid}
    (howns : db'.owns k T id) :
    db.owns k T id ∨ ∀ r', inserted ⟨.sql (.roles q), r'⟩ = some (k, id, T) := by
  -- Only the insert makes a role, and no statement on roles changes a tenant.
  cases q with
  | insert =>
    obtain ⟨row, t, htenant, rfl, -, hins, -, -, rfl⟩ := insertRole_ok h
    cases k with
    | permission => exact .inl howns
    | role =>
      rcases (Table.has_insert hins).mp howns with ⟨hid, hT⟩ | hold
      · refine .inr fun r' => ?_
        have hnew : inserted ⟨.sql (.roles (.insert row.id _ _ _ _)), r'⟩ =
            (Except.toOption (varcharReq 255 _)).map fun T => (.role, row.id, T) := rfl
        rw [hnew, htenant, ← hid, ← hT]
        rfl
      · exact .inl hold
  | setParent =>
    obtain ⟨-, rfl⟩ := setParent_ok h
    cases k with
    | permission => exact .inl howns
    | role => exact .inl (Db.ownsRole_reparent.mp howns)
  | delete =>
    simp only [exec] at h
    split at h <;> cases h
    · exact .inl howns
    · cases k with
      | permission => exact .inl howns
      | role => exact .inl (Db.ownsRole_dropRole.mp howns).1
  | assignRoleToUser =>
    obtain rfl | ⟨_, -, -, -, rfl⟩ := insertUserRole_ok h
    · exact .inl howns
    · exact .inl (Db.owns_congr rfl rfl howns)
  | removeRoleFromUser =>
    cases h
    exact .inl (Db.owns_congr rfl rfl howns)
  | cycleProbe =>
    obtain ⟨_, -, h⟩ := bind_eq_ok.mp h
    cases h
    exact .inl howns
  | getRoleAncestors =>
    obtain ⟨_, -, h⟩ := bind_eq_ok.mp h
    cases h
    exact .inl howns
  | _ =>
    cases h
    exact .inl howns

theorem owns_insertPermission {db db' : Db} {id id' : Uuid} {tenantId name : String}
    {description : Option String} {document : Json} {n : Nat}
    (h : insertPermission db id tenantId name description document = .ok (n, db'))
    {k : Securable} {T : String} (howns : db'.owns k T id') :
    db.owns k T id' ∨ k = .permission ∧ id' = id ∧ varcharReq 255 tenantId = .ok T := by
  obtain ⟨row, t, htenant, rfl, hins, -, rfl⟩ := insertPermission_ok h
  cases k with
  | role => exact .inl howns
  | permission =>
    rcases (Table.has_insert hins).mp howns with ⟨hid, hT⟩ | hold
    · exact .inr ⟨rfl, hid.symm, hT ▸ htenant⟩
    · exact .inl hold

theorem PermissionStmt.exec_owns {db db' : Db} {q : PermissionStmt} {r : q.Rows}
    (h : q.exec db = .ok (r, db')) {k : Securable} {T : String} {id : Uuid}
    (howns : db'.owns k T id) :
    db.owns k T id ∨ ∀ r', inserted ⟨.sql (.permissions q), r'⟩ = some (k, id, T) := by
  cases q with
  | insert =>
    refine (owns_insertPermission h howns).imp_right ?_
    rintro ⟨rfl, rfl, htenant⟩ r'
    have hnew : inserted ⟨.sql (.permissions (.insert id _ _ _ _)), r'⟩ =
        (Except.toOption (varcharReq 255 _)).map fun T => (.permission, id, T) := rfl
    rw [hnew, htenant]
    rfl
  | upsert =>
    obtain ⟨_, -, -, rfl⟩ | ⟨_, _, _, htenant, hins⟩ := upsertPermission_ok h
    · cases k with
      | role => exact .inl howns
      | permission =>
        exact .inl ((Table.has_update (fun p => p.withDocument_id _ _) fun p =>
          p.withDocument_tenantId _ _).mp howns)
    · refine (owns_insertPermission hins howns).imp_right ?_
      rintro ⟨rfl, rfl, hfits⟩ r'
      have hnew : inserted ⟨.sql (.permissions (.upsert id _ _ _ _)), r'⟩ =
          (Except.toOption (varcharReq 255 _)).map fun T => (.permission, id, T) := rfl
      -- the tenant id was cut to its column before the insert
      rw [varcharReq_idem htenant] at hfits
      rw [hnew, htenant, Except.ok.inj hfits]
      rfl
  | delete =>
    simp only [exec] at h
    split at h <;> cases h
    · exact .inl howns
    · cases k with
      | role => exact .inl howns
      | permission => exact .inl (Table.has_delete.mp howns).1
  | attach =>
    obtain rfl | ⟨_, -, -, -, rfl⟩ := insertRolePermission_ok h
    · exact .inl howns
    · exact .inl (Db.owns_congr rfl rfl howns)
  | detach =>
    cases h
    exact .inl (Db.owns_congr rfl rfl howns)
  | _ =>
    cases h
    exact .inl howns

/-- **A statement adds only the row that it inserts.** -/
theorem Sql.exec_owns {env : SqlEnv} {db db' : Db} {q : Sql} {r : q.Rows}
    (h : q.exec env db = .ok (r, db')) {k : Securable} {T : String} {id : Uuid}
    (howns : db'.owns k T id) :
    db.owns k T id ∨ ∀ r', inserted ⟨.sql q, r'⟩ = some (k, id, T) := by
  cases q with
  | roles => exact RoleStmt.exec_owns h howns
  | permissions => exact PermissionStmt.exec_owns h howns
  | users =>
    rw [MembershipStmt.exec_frame h] at howns
    exact .inl (Db.owns_congr rfl rfl howns)
  | groups =>
    rw [GroupStmt.exec_frame h] at howns
    exact .inl (Db.owns_congr rfl rfl howns)
  | identities =>
    rw [IdentityStmt.exec_frame h] at howns
    exact .inl (Db.owns_congr rfl rfl howns)
  | challenges =>
    rw [ChallengeStmt.exec_frame h] at howns
    exact .inl (Db.owns_congr rfl rfl howns)
  | oauth =>
    rw [OauthStmt.exec_frame h] at howns
    exact .inl (Db.owns_congr rfl rfl howns)
  | tokens =>
    rw [TokenStmt.exec_frame h] at howns
    exact .inl (Db.owns_congr rfl rfl howns)
  | sessions =>
    rw [SessionStmt.exec_frame h] at howns
    exact .inl (Db.owns_congr rfl rfl howns)
  | kv =>
    rw [KvStmt.exec_eq h] at howns
    exact .inl howns
  | otps =>
    rw [OtpStmt.exec_frame h] at howns
    exact .inl (Db.owns_congr rfl rfl howns)

/-- An existence check finds a row that is there. -/
theorem owns_of_found {w : World} {s : State} {q : Request} {k : Securable} {T : String}
    {id : Uuid} (h : found ⟨q, (handle w q s).1⟩ = some (k, id, T)) : s.db.owns k T id := by
  -- Three look-ups find a row of a tenant; the rows of the database answer them.
  cases q with
  | sql x =>
    cases x with
    | roles x =>
      cases x with
      | existsInTenant roleId tenantId =>
        change found (did (.roles (.existsInTenant roleId tenantId))
          ((s.db.roleIn tenantId roleId).map (·.id))) = _ at h
        cases hr : s.db.roleIn tenantId roleId with
        | none =>
          rw [hr] at h
          cases h
        | some r =>
          rw [hr] at h
          cases h
          exact Db.roleIn_isSome.mp (hr ▸ rfl)
      | _ => cases h
    | permissions x =>
      cases x with
      | roleExists roleId tenantId =>
        change found (did (.permissions (.roleExists roleId tenantId))
          (s.db.roleIn tenantId roleId).isSome) = _ at h
        cases hr : (s.db.roleIn tenantId roleId).isSome with
        | false =>
          rw [hr] at h
          cases h
        | true =>
          rw [hr] at h
          cases h
          exact Db.roleIn_isSome.mp hr
      | permissionExists permissionId tenantId =>
        change found (did (.permissions (.permissionExists permissionId tenantId))
          (s.db.permissionIn tenantId permissionId).isSome) = _ at h
        cases hp : (s.db.permissionIn tenantId permissionId).isSome with
        | false =>
          rw [hp] at h
          cases h
        | true =>
          rw [hp] at h
          cases h
          exact Db.permissionIn_isSome.mp hp
      | _ => cases h
    | _ => cases h
  | _ => cases h

/-! ### Ids -/

/-- The id that a statement gives to a new row. -/
def usedUuid (e : Event authrs) : Option Uuid := (inserted e).map fun x => x.2.1

/-- **The uuids drawn from a state on**, up to a number of draws, are distinct and new. -/
structure FreshUuids (w : World) (s₀ : State) (n : Nat) : Prop where
  distinct : Set.InjOn w.uuid (Set.Ico s₀.draws n)
  unused : ∀ m ∈ Set.Ico s₀.draws n, ∀ k T, ¬ s₀.db.owns k T (w.uuid m)

theorem FreshUuids.mono {w : World} {s₀ : State} {n n' : Nat} (h : FreshUuids w s₀ n)
    (hn : n' ≤ n) : FreshUuids w s₀ n' where
  distinct := h.distinct.mono (Set.Ico_subset_Ico_right hn)
  unused m hm := h.unused m (Set.Ico_subset_Ico_right hn hm)

theorem drawnUuid_of_usedUuid {e : Event authrs} {id : Uuid} (h : usedUuid e = some id) :
    drawnUuid e = none := by
  obtain ⟨q, r⟩ := e
  cases q with
  | newUuid => cases h
  | _ => rfl

/-- A careful call uses the id that it has just drawn. -/
theorem Careful.drawn {h : List (Event authrs)} {e : Event authrs} {id : Uuid}
    (hc : Careful h e) (hu : usedUuid e = some id) : h.head? = some ⟨.newUuid, id⟩ := by
  obtain ⟨⟨k, id', T⟩, hi, rfl⟩ := Option.map_eq_some_iff.mp hu
  obtain ⟨q, r⟩ := e
  cases q with
  | sql x =>
    cases x with
    | roles x =>
      cases x with
      | insert =>
        obtain ⟨_, -, heq⟩ := Option.map_eq_some_iff.mp hi
        cases heq
        exact hc.1
      | _ => cases hi
    | permissions x =>
      cases x with
      | insert =>
        obtain ⟨_, -, heq⟩ := Option.map_eq_some_iff.mp hi
        cases heq
        exact hc
      | upsert =>
        obtain ⟨_, -, heq⟩ := Option.map_eq_some_iff.mp hi
        cases heq
        exact hc
      | _ => cases hi
    | _ => cases hi
  | _ => cases hi

section Runs

variable {ι : Type} {w : World} {s₀ s : State} {log : List (Move authrs ι State)}

/-- **Where a row comes from**: it was there at the beginning, or a move has inserted it. -/
def Origin (s₀ : State) (log : List (Move authrs ι State)) (k : Securable) (id : Uuid)
    (T : String) : Prop :=
  s₀.db.owns k T id ∨ ∃ m ∈ log, inserted m.event = some (k, id, T)

theorem Origin.mono {log' : List (Move authrs ι State)} {k : Securable} {id : Uuid} {T : String}
    (h : Origin s₀ log k id T) (hsub : log ⊆ log') : Origin s₀ log' k id T :=
  h.imp_right fun ⟨m, hm, hi⟩ => ⟨m, hsub hm, hi⟩

theorem Origin.cons {k : Securable} {id : Uuid} {T : String} (h : Origin s₀ log k id T)
    (m : Move authrs ι State) : Origin s₀ (m :: log) k id T :=
  h.mono (List.subset_cons_self m log)

/-- **The rows of a state, and what checks have found, have an origin.** -/
structure Traced (s₀ s : State) (log : List (Move authrs ι State)) : Prop where
  rows : ∀ k T id, s.db.owns k T id → Origin s₀ log k id T
  checks : ∀ m ∈ log, ∀ k id T, found m.event = some (k, id, T) → Origin s₀ log k id T

theorem Traced.nil (s : State) : Traced s s ([] : List (Move authrs ι State)) :=
  ⟨fun _ _ _ h => .inl h, by simp⟩

theorem Traced.move (ht : Traced s₀ s log) (w : World) (i : ι) (q : Request) :
    Traced s₀ (handle w q s).2 (⟨i, ⟨q, (handle w q s).1⟩, s⟩ :: log) := by
  constructor
  · intro k T id howns
    rcases handle_db (w := w) (s := s) q with hdb | ⟨x, r, rfl, hx⟩
    · rw [hdb] at howns
      exact (ht.rows k T id howns).cons _
    · rcases Sql.exec_owns hx howns with hold | hnew
      · exact (ht.rows k T id hold).cons _
      · exact .inr ⟨_, List.mem_cons_self, hnew _⟩
  · intro m hm k id T hf
    rcases List.mem_cons.mp hm with rfl | hm
    · exact (ht.rows k T id (owns_of_found hf)).cons _
    · exact (ht.checks m hm k id T hf).cons _

variable [DecidableEq ι]

/-- Every move of a record is careful. -/
abbrev AllCareful (log : List (Move authrs ι State)) : Prop :=
  Config.Guaranteed (fun _ : ι => careful) log

/-- The draw of an id that was used. -/
theorem exists_draw (hlog : AllCareful log) {m : Move authrs ι State} (hm : m ∈ log) {id : Uuid}
    (hu : usedUuid m.event = some id) : id ∈ uuidsDrawn log := by
  obtain ⟨newer, older, rfl⟩ := List.append_of_mem hm
  have hhead := (hlog newer m older rfl).drawn hu
  obtain ⟨h, hown⟩ := List.head?_eq_some_iff.mp hhead
  obtain ⟨m', hm', -, he⟩ := mem_own.mp (hown ▸ List.mem_cons_self)
  refine List.mem_filterMap.mpr ⟨m', ?_, by rw [he]; rfl⟩
  exact List.mem_append_right _ (List.mem_cons_of_mem _ hm')

/-- **An id is used once** in a run. -/
theorem nodup_usedUuid (hlog : AllCareful log) (hd : DrawnUuids w s₀.draws s log)
    (hw : FreshUuids w s₀ s.draws) : (log.filterMap fun m => usedUuid m.event).Nodup := by
  have hdrawn : (log.filterMap fun m => drawnUuid m.event).Nodup := hd.once hw.distinct
  have hdisjoint : ∀ e id, usedUuid e = some id → drawnUuid e = none :=
    fun _ _ => drawnUuid_of_usedUuid
  refine nodup_used _ hdisjoint hdrawn ?_
  intro newer m older id hl hu
  obtain ⟨h, hown⟩ := List.head?_eq_some_iff.mp ((hlog newer m older hl).drawn hu)
  exact ⟨[], _, h, hown, rfl, by simp⟩

/-- No row of the beginning has an id that a move used. -/
theorem not_owns_of_used (hlog : AllCareful log) (hd : DrawnUuids w s₀.draws s log)
    (hw : FreshUuids w s₀ s.draws) {m : Move authrs ι State} (hm : m ∈ log) {id : Uuid}
    (hu : usedUuid m.event = some id) (k : Securable) (T : String) : ¬ s₀.db.owns k T id := by
  obtain ⟨n, hn, rfl⟩ := hd.between id (exists_draw hlog hm hu)
  exact hw.unused n hn k T

theorem usedUuid_of_inserted {e : Event authrs} {k : Securable} {id : Uuid} {T : String}
    (h : inserted e = some (k, id, T)) : usedUuid e = some id := by
  rw [usedUuid, h]
  rfl

/-- **An id belongs to one tenant** during the whole run. -/
theorem Origin.unique (hlog : AllCareful log) (hd : DrawnUuids w s₀.draws s log)
    (hw : FreshUuids w s₀ s.draws) {k : Securable} {id : Uuid} {T T' : String}
    (h : Origin s₀ log k id T) (h' : Origin s₀ log k id T') : T = T' := by
  rcases h with h | ⟨m, hm, hi⟩
  · rcases h' with h' | ⟨m', hm', hi'⟩
    · exact Db.owns_unique h h'
    · exact absurd h (not_owns_of_used hlog hd hw hm' (usedUuid_of_inserted hi') k T)
  · rcases h' with h' | ⟨m', hm', hi'⟩
    · exact absurd h' (not_owns_of_used hlog hd hw hm (usedUuid_of_inserted hi) k T')
    · obtain rfl : m = m' :=
        eq_of_stamp (f := fun m => usedUuid m.event) (nodup_usedUuid hlog hd hw) hm hm'
          (usedUuid_of_inserted hi) (usedUuid_of_inserted hi')
      rw [hi'] at hi
      cases hi
      rfl

/-- **An id is not used again** after the row with it was inserted. -/
theorem Origin.not_used {newer older : List (Move authrs ι State)} {x : Move authrs ι State}
    (hl : log = newer ++ x :: older) (hlog : AllCareful log) (hd : DrawnUuids w s₀.draws s log)
    (hw : FreshUuids w s₀ s.draws) {k : Securable} {id : Uuid} {T : String}
    (h : Origin s₀ older k id T) : usedUuid x.event ≠ some id := by
  intro hu
  have hx : x ∈ log := hl ▸ List.mem_append_right _ List.mem_cons_self
  rcases h with h | ⟨m, hm, hi⟩
  · exact not_owns_of_used hlog hd hw hx hu k T h
  · have hnodup := nodup_usedUuid hlog hd hw
    have hcons : ((x :: older).filterMap fun m => usedUuid m.event) =
        id :: older.filterMap fun m => usedUuid m.event := List.filterMap_cons_some hu
    rw [hl, List.filterMap_append, List.nodup_append, hcons] at hnodup
    exact (List.nodup_cons.mp hnodup.2.1).1
      (List.mem_filterMap.mpr ⟨m, hm, usedUuid_of_inserted hi⟩)

theorem Traced.origin (ht : Traced s₀ s log) {i : ι} {k : Securable} {id : Uuid} {T : String}
    (hf : Found k id T (own i log)) : Origin s₀ log k id T := by
  obtain ⟨e, he, hfe⟩ := hf
  obtain ⟨m, hm, -, rfl⟩ := mem_own.mp he
  exact ht.checks m hm k id T hfe

/-- What a check of the call has found holds of the rows that are there now. -/
theorem Traced.onlyIn (ht : Traced s₀ s log) (hlog : AllCareful log)
    (hd : DrawnUuids w s₀.draws s log) (hw : FreshUuids w s₀ s.draws) {i : ι} {k : Securable}
    {id : Uuid} {T T' : String} (hf : Found k id T (own i log)) (howns : s.db.owns k T' id) :
    T' = T := by
  exact (ht.rows k T' id howns).unique hlog hd hw (ht.origin hf)

/-! ### Runs -/

/-- **A careful call makes guarded statements**, whatever the others have done since its checks. -/
theorem guarded_of_careful (ht : Traced s₀ s log) (hlog : AllCareful log)
    (hd : DrawnUuids w s₀.draws s log) (hw : FreshUuids w s₀ s.draws) {i : ι} {q : Sql}
    {r : Reply (.sql q)} (hc : Careful (own i log) ⟨.sql q, r⟩) : q.Guarded s.db := by
  have hrole : ∀ {T id}, Found .role id T (own i log) → s.db.roleOnlyIn T id :=
    fun hf x hx hid => ht.onlyIn (k := .role) hlog hd hw hf ⟨x, hx, hid, rfl⟩
  have hpermission : ∀ {T id}, Found .permission id T (own i log) → s.db.permissionOnlyIn T id :=
    fun hf x hx hid => ht.onlyIn (k := .permission) hlog hd hw hf ⟨x, hx, hid, rfl⟩
  cases q with
  | roles x =>
    cases x with
    | insert id tenantId name uid parent =>
      cases parent with
      | none => trivial
      | some p => exact hrole (hc.2 p rfl)
    | setParent parent roleId tenantId =>
      cases parent with
      | none => trivial
      | some p => exact hrole (hc p rfl).1
    | _ => trivial
  | permissions x =>
    cases x with
    | attach roleId permissionId =>
      obtain ⟨T, hr, hp⟩ := hc
      exact ⟨T, hrole hr, hpermission hp⟩
    | _ => trivial
  | _ => trivial

/-- What holds along a run: the draws are known, and every row has an origin. -/
structure Tracked (w : World) (s₀ s : State) (log : List (Move authrs ι State)) : Prop where
  careful : AllCareful log
  drawn : DrawnUuids w s₀.draws s log
  traced : Traced s₀ s log

theorem Tracked.nil (w : World) (s : State) : Tracked w s s ([] : List (Move authrs ι State)) :=
  ⟨Config.Guaranteed.nil, .nil w s, .nil s⟩

theorem Tracked.move (hs : Tracked w s₀ s log) {i : ι} {q : Request}
    (hlog : AllCareful (⟨i, ⟨q, (handle w q s).1⟩, s⟩ :: log)) :
    Tracked w s₀ (handle w q s).2 (⟨i, ⟨q, (handle w q s).1⟩, s⟩ :: log) :=
  ⟨hlog, hs.drawn.move i q, hs.traced.move w i q⟩

theorem Tracked.tick (hs : Tracked w s₀ s log) (d : Nat) : Tracked w s₀ (s.tick d) log :=
  ⟨hs.careful, hs.drawn.tick d, hs.traced.rows, hs.traced.checks⟩

/-- The configuration after a schedule of the calls. -/
abbrev runCalls (w : World) (s₀ : State) (calls : ι → RepoCall) (l : List (ι ⊕ Nat)) :
    Config authrs Failure Unit ι State :=
  (Config.start s₀ fun i => (calls i).run w).run (handle w) State.tick l

/-- **Along every run** the rows can be traced to their origin. -/
theorem run_tracked (w : World) (s₀ : State) (calls : ι → RepoCall) (l : List (ι ⊕ Nat)) :
    Tracked w s₀ (runCalls w s₀ calls l).state (runCalls w s₀ calls l).log :=
  Config.run_invariant_of_record (J := Tracked w s₀) (C := fun _ : ι => careful)
    (fun i => RepoCall.run_careful w (calls i)) (fun _ _ _ => trivial) (.nil w s₀)
    (fun _ _ _ _ hs hlog => hs.move hlog) (fun _ _ d hs => hs.tick d) l

/-- **What guarded statements keep**, every run keeps. -/
theorem run_guarded {R : Db → Prop}
    (hR : ∀ {q : Sql} {env : SqlEnv} {db db' : Db} {r : q.Rows},
      q.exec env db = .ok (r, db') → q.Guarded db → R db → R db')
    (w : World) {s₀ : State} (h0 : R s₀.db) (calls : ι → RepoCall) (l : List (ι ⊕ Nat)) :
    FreshUuids w s₀ (runCalls w s₀ calls l).state.draws → R (runCalls w s₀ calls l).state.db := by
  refine (Config.run_invariant_of_record
    (J := fun s log => Tracked w s₀ s log ∧ (FreshUuids w s₀ s.draws → R s.db))
    (C := fun _ : ι => careful) (fun i => RepoCall.run_careful w (calls i)) (fun _ _ _ => trivial)
    ?_ ?_ ?_ l).2
  · exact ⟨.nil w s₀, fun _ => h0⟩
  · rintro s log i q ⟨hs, hold⟩ hlog
    refine ⟨hs.move hlog, fun hw => ?_⟩
    have hw' : FreshUuids w s₀ s.draws := hw.mono (handle_draws_le w s q)
    rcases handle_db (w := w) (s := s) q with hdb | ⟨x, r, rfl, hx⟩
    · rw [hdb]
      exact hold hw'
    · exact hR hx (guarded_of_careful hs.traced hs.careful hs.drawn hw' (hlog [] _ log rfl))
        (hold hw')
  · rintro s log d ⟨hs, hold⟩
    exact ⟨hs.tick d, hold⟩

/-- The access tables without rows; the tenants and the accounts may be any. -/
structure Db.Ungranted (db : Db) : Prop where
  roles : db.roles = ∅
  permissions : db.permissions = ∅
  userRoles : db.userRoles = ∅
  userGroups : db.userGroups = ∅
  groupRoles : db.groupRoles = ∅
  rolePermissions : db.rolePermissions = ∅

theorem Db.Ungranted.grantsSound {db : Db} (h : db.Ungranted) : db.GrantsSound where
  userRoles := h.userRoles ▸ Linked.of_empty _ _
  userGroups := h.userGroups ▸ Linked.of_empty _ _
  groupRoles := h.groupRoles ▸ Linked.of_empty _ _
  rolePermissions := h.rolePermissions ▸ Linked.of_empty _ _

theorem Db.Ungranted.hierarchySound {db : Db} (h : db.Ungranted) : db.HierarchySound where
  fits r hr := absurd (h.roles ▸ hr) (Table.not_mem_empty r)
  parents r hr := absurd (h.roles ▸ hr) (Table.not_mem_empty r)

theorem Db.Ungranted.not_owns {db : Db} (h : db.Ungranted) (k : Securable) (T : String)
    (id : Uuid) : ¬ db.owns k T id := by
  cases k with
  | role =>
    rintro ⟨r, hr, -⟩
    exact absurd (h.roles ▸ hr) (Table.not_mem_empty r)
  | permission =>
    rintro ⟨p, hp, -⟩
    exact absurd (h.permissions ▸ hp) (Table.not_mem_empty p)

/-- **Grants never cross tenants**: whatever the calls, whatever the order of their statements,
every junction row links two rows of one tenant, and every parent is a role of the tenant. -/
theorem grants_within_tenant (w : World) (s₀ : State) (hempty : s₀.db.Ungranted)
    (calls : ι → RepoCall) (l : List (ι ⊕ Nat))
    (hfresh : Set.InjOn w.uuid (Set.Ico s₀.draws (runCalls w s₀ calls l).state.draws)) :
    (runCalls w s₀ calls l).state.db.GrantsSound ∧
      (runCalls w s₀ calls l).state.db.HierarchySound := by
  have hw : FreshUuids w s₀ (runCalls w s₀ calls l).state.draws :=
    ⟨hfresh, fun _ _ k T => hempty.not_owns k T _⟩
  exact ⟨run_guarded Sql.exec_grantsSound w hempty.grantsSound calls l hw,
    run_guarded Sql.exec_hierarchySound w hempty.hierarchySound calls l hw⟩

end Runs

/-! ### A run -/

theorem World.offline_uuid_injOn {n : Nat} (hn : n ≤ 1000) :
    Set.InjOn World.offline.uuid (Set.Ico 0 n) := by
  rintro a ⟨-, ha⟩ b ⟨-, hb⟩ h
  have hval := congrArg BitVec.toNat h
  simp only [World.offline, BitVec.toNat_ofNat] at hval
  omega

/-- Two tenants without roles, and a membership of the first one. -/
def newTenants : State :=
  .ofDb { Db.empty with
    tenants := acmeAndGlobex
    identities := .single (.ofHandles ⟨0, id, fun _ => 7⟩ (some "ann@acme.example") none none none
      none none)
    users := .single ⟨1, "acme", 7, none, "active", none, 0, 0⟩ } 0

/-- Each tenant creates a role, and `acme` a parent for its own, a group and a permission. Then it
links them, and tries to link the role of `globex`, twice. In the end it moves its role again below
the parent, deletes the parent, and creates another one. -/
def grants : List RepoCall :=
  [.createRole "acme" "Auditor" none, .createRole "globex" "Clerk" none,
    .createRole "acme" "Lead" none, .createGroup "acme" "Staff" none,
    .createPermission "acme" "read" none ⟨"2024-01-01", []⟩,
    .setParent "acme" 1000 (some 1002), .assignRoleToUser "acme" 1 1000,
    .addUser "acme" 1003 1, .assignRole "acme" 1003 1000, .attachToRole "acme" 1000 1004,
    .assignRole "acme" 1003 1001, .setParent "acme" 1000 (some 1001),
    .setParent "acme" 1000 (some 1002), .deleteRole "acme" 1002,
    .createRole "acme" "Head" none, .setParent "acme" 1000 (some 1005)]

def grantCalls (i : Nat) : RepoCall := grants.getD i (.getRoleAncestors "acme" 0)

/-- One call after the other, but the parent is deleted between the walk of the last move below it
and its update. -/
def deletedInside : List (Nat ⊕ Nat) :=
  (List.range 12).flatMap (fun i => List.replicate 5 (Sum.inl i)) ++
    List.replicate 3 (Sum.inl 12) ++ List.replicate 2 (Sum.inl 13) ++ List.replicate 2 (Sum.inl 12) ++
    List.replicate 5 (Sum.inl 14) ++ List.replicate 5 (Sum.inl 15)

/-- The database after the calls. -/
abbrev grantedDb : Db := (runCalls .offline newTenants grantCalls deletedInside).state.db

/-- What `acme` links is linked, and nothing else. -/
theorem grants_within_tenant_deletedInside :
    (grantedDb.roles.rows.map (fun r => (r.id, r.tenantId, r.parentRoleId)) =
        [(1005, "acme", none), (1001, "globex", none), (1000, "acme", some 1005)] ∧
      grantedDb.userRoles.rows = [⟨1, 1000⟩] ∧ grantedDb.userGroups.rows = [⟨1, 1003, 0⟩] ∧
      grantedDb.groupRoles.rows = [⟨1003, 1000⟩] ∧
      grantedDb.rolePermissions.rows = [⟨1000, 1004⟩]) ∧
      grantedDb.GrantsSound ∧ grantedDb.HierarchySound := by
  refine ⟨by decide +kernel, ?_⟩
  exact grants_within_tenant .offline newTenants ⟨rfl, rfl, rfl, rfl, rfl, rfl⟩ grantCalls
    deletedInside (World.offline_uuid_injOn (by decide +kernel))

end Authrs
