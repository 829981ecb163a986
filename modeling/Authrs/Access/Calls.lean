import Authrs.Repo.Access

/-!
# Calls of the access repositories

The methods of `RolesRepo`, `GroupsRepo` and `PermissionsRepo`, and the creation of a membership,
with arbitrary ids and tenant ids. Several of them check and write in separate statements; what a
call has found out before it writes can be read off its history.

## Main definitions

* `RepoCall`, `RepoCall.run`: a call and its program
* `found`: what an existence check has found
* `Careful`: what a call has found out before it writes
* `careful`: the contract of the calls

## Main results

* `RepoCall.run_careful`: every call keeps it
-/

namespace Authrs

open Interaction

/-- A call of a repository. -/
inductive RepoCall
  | createRole (tenantId name : String) (parentRoleId : Option Uuid)
  | setParent (tenantId : String) (roleId : Uuid) (parentRoleId : Option Uuid)
  | deleteRole (tenantId : String) (roleId : Uuid)
  | getRoleAncestors (tenantId : String) (roleId : Uuid)
  | assignRoleToUser (tenantId : String) (userId roleId : Uuid)
  | removeRoleFromUser (userId roleId : Uuid)
  | createGroup (tenantId name : String) (description : Option String)
  | updateGroup (tenantId : String) (groupId : Uuid) (name : Option String)
      (description : Option (Option String))
  | deleteGroup (tenantId : String) (groupId : Uuid)
  | addUser (tenantId : String) (groupId userId : Uuid)
  | removeUser (groupId userId : Uuid)
  | assignRole (tenantId : String) (groupId roleId : Uuid)
  | removeRole (groupId roleId : Uuid)
  | createPermission (tenantId name : String) (description : Option String)
      (document : PermissionDocument)
  | upsertPermission (tenantId name : String) (description : Option String)
      (document : PermissionDocument)
  | deletePermission (tenantId : String) (permissionId : Uuid)
  | attachToRole (tenantId : String) (roleId permissionId : Uuid)
  | detachFromRole (roleId permissionId : Uuid)
  | createMembership (identity : Identity) (tenantId : String) (username : Option String)

/-- **A call** of the repositories; its result is ignored. -/
def RepoCall.run (w : World) : RepoCall → Service Unit
  | createRole tenantId name parentRoleId => do
    let _ ← RolesRepo.create w tenantId name parentRoleId
    pure ()
  | setParent tenantId roleId parentRoleId => RolesRepo.setParent tenantId roleId parentRoleId
  | deleteRole tenantId roleId => do
    let _ ← RolesRepo.delete tenantId roleId
    pure ()
  | getRoleAncestors tenantId roleId => do
    let _ ← RolesRepo.getRoleAncestors tenantId roleId
    pure ()
  | assignRoleToUser tenantId userId roleId => RolesRepo.assignRoleToUser tenantId userId roleId
  | removeRoleFromUser userId roleId => do
    let _ ← RolesRepo.removeRoleFromUser userId roleId
    pure ()
  | createGroup tenantId name description => do
    let _ ← GroupsRepo.create w tenantId name description
    pure ()
  | updateGroup tenantId groupId name description => do
    let _ ← GroupsRepo.update tenantId groupId name description
    pure ()
  | deleteGroup tenantId groupId => do
    let _ ← GroupsRepo.delete tenantId groupId
    pure ()
  | addUser tenantId groupId userId => GroupsRepo.addUser tenantId groupId userId
  | removeUser groupId userId => do
    let _ ← GroupsRepo.removeUser groupId userId
    pure ()
  | assignRole tenantId groupId roleId => GroupsRepo.assignRole tenantId groupId roleId
  | removeRole groupId roleId => do
    let _ ← GroupsRepo.removeRole groupId roleId
    pure ()
  | createPermission tenantId name description document => do
    let _ ← PermissionsRepo.create tenantId name description document
    pure ()
  | upsertPermission tenantId name description document => do
    let _ ← PermissionsRepo.upsert tenantId name description document
    pure ()
  | deletePermission tenantId permissionId => do
    let _ ← PermissionsRepo.delete tenantId permissionId
    pure ()
  | attachToRole tenantId roleId permissionId =>
    PermissionsRepo.attachToRole tenantId roleId permissionId
  | detachFromRole roleId permissionId => do
    let _ ← PermissionsRepo.detachFromRole roleId permissionId
    pure ()
  | createMembership identity tenantId username => do
    let _ ← UsersRepo.create identity tenantId username
    pure ()

/-! ### What a call has found out -/

open Program

/-- The two kinds of rows that are checked in one statement and linked in another. -/
inductive Securable
  | role
  | permission
  deriving DecidableEq

/-- What an existence check has found: a row of the kind, with its id and tenant. -/
def found (e : Event authrs) : Option (Securable × Uuid × String) :=
  match e with
  | ⟨.sql (.roles (.existsInTenant id tenantId)), .ok (some _)⟩ => some (.role, id, tenantId)
  | ⟨.sql (.permissions (.roleExists id tenantId)), .ok true⟩ => some (.role, id, tenantId)
  | ⟨.sql (.permissions (.permissionExists id tenantId)), .ok true⟩ =>
    some (.permission, id, tenantId)
  | _ => none

/-- A check in the history has found the row. -/
def Found (k : Securable) (id : Uuid) (tenantId : String) (h : List (Event authrs)) : Prop :=
  ∃ e ∈ h, found e = some (k, id, tenantId)

theorem Found.mono {k : Securable} {id : Uuid} {tenantId : String} {h h' : List (Event authrs)}
    (hf : Found k id tenantId h) (hsub : h ⊆ h') : Found k id tenantId h' := by
  obtain ⟨e, he, hid⟩ := hf
  exact ⟨e, hsub he, hid⟩

/-- **What a call has found out before it writes**: an inserted id was just drawn, a parent was
found in the tenant and the walk up from it has just missed the child, and both ends of an
attachment were found in one tenant. -/
def Careful (h : List (Event authrs)) (e : Event authrs) : Prop :=
  match e.request with
  | .sql (.roles (.insert id tenantId _ _ parentRoleId)) =>
    h.head? = some ⟨.newUuid, id⟩ ∧ ∀ p, parentRoleId = some p → Found .role p tenantId h
  | .sql (.roles (.setParent parentRoleId roleId tenantId)) =>
    ∀ p, parentRoleId = some p → Found .role p tenantId h ∧ p ≠ roleId ∧
      h.head? = some (did (.roles (.cycleProbe p roleId tenantId)) none)
  | .sql (.permissions (.insert id ..)) => h.head? = some ⟨.newUuid, id⟩
  | .sql (.permissions (.upsert id ..)) => h.head? = some ⟨.newUuid, id⟩
  | .sql (.permissions (.attach roleId permissionId)) =>
    ∃ tenantId, Found .role roleId tenantId h ∧ Found .permission permissionId tenantId h
  | _ => True

/-- The contract of the calls. -/
abbrev careful : Contract authrs := .ofGuarantee Careful

/-- A request that needs no care. -/
def Harmless (q : Request) : Prop := ∀ h r, Careful h ⟨q, r⟩

section Calls

variable {h : List (Event authrs)} {α : Type}

theorem careful_of_harmless {q : Request} (hq : Harmless q) (e : Event authrs)
    (he : e.request = q) : Careful h e := by
  obtain ⟨_, r⟩ := e
  cases he
  exact hq h r

theorem keeps_harmless {p : Service α} (hp : p.Asks Harmless) :
    p.Keeps careful (OnOk fun _ _ => True) h :=
  (hp.keeps fun _ e => fun he => he _ e.reply).weaken fun _ o _ => by cases o <;> trivial

/-- A call whose result is ignored. -/
theorem keeps_ignored {p : Service α} (hp : p.Keeps careful (OnOk fun _ _ => True) h) :
    (do let _ ← p; Pure.pure ()).Keeps careful (OnOk fun _ _ => True) h :=
  hp.bind_ok fun _ _ _ _ => trivial

theorem validateNoCycle_keeps (tenantId : String) (parentRoleId childRoleId : Uuid) :
    (RolesRepo.validateNoCycle tenantId parentRoleId childRoleId).Keeps careful
      (OnOk fun _ h' => parentRoleId ≠ childRoleId ∧
        h'.head? = some (did (.roles (.cycleProbe parentRoleId childRoleId tenantId)) none)) h := by
  have hq : Harmless (.sql (.roles (.cycleProbe parentRoleId childRoleId tenantId))) :=
    fun _ _ => trivial
  refine (keeps_ensure_ok _ _).bind_ok ?_
  rintro - _ - ⟨hne, rfl⟩
  refine (keeps_query_ok (careful_of_harmless hq)).bind_ok ?_
  rintro cycle _ - rfl
  refine (keeps_ensure_ok _ _).weaken_ok ?_
  rintro - _ - ⟨hnone, rfl⟩
  exact ⟨hne, congrArg (fun c => some (did _ c)) hnone⟩

/-- **A validated parent** was found in the tenant, and the walk up from it has just missed the
child. -/
theorem validateParent_keeps (tenantId : String) (parentRoleId : Uuid)
    (childRoleId : Option Uuid) :
    (RolesRepo.validateParent tenantId parentRoleId childRoleId).Keeps careful
      (OnOk fun _ h' => Found .role parentRoleId tenantId h' ∧ ∀ c, childRoleId = some c →
        parentRoleId ≠ c ∧
          h'.head? = some (did (.roles (.cycleProbe parentRoleId c tenantId)) none)) h := by
  have hq : Harmless (.sql (.roles (.existsInTenant parentRoleId tenantId))) := fun _ _ => trivial
  refine (keeps_query_ok (careful_of_harmless hq)).bind_ok ?_
  rintro x _ - rfl
  refine (keeps_ensure_ok _ _).bind_ok ?_
  rintro - _ - ⟨hx, rfl⟩
  obtain ⟨y, rfl⟩ := Option.ne_none_iff_exists'.mp hx
  have hfound : ∀ h', Found .role parentRoleId tenantId
      (did (.roles (.existsInTenant parentRoleId tenantId)) (some y) :: h') :=
    fun _ => ⟨_, List.mem_cons_self, rfl⟩
  cases childRoleId with
  | none =>
    refine ⟨hfound _, ?_⟩
    rintro c ⟨⟩
  | some child =>
    refine (validateNoCycle_keeps tenantId parentRoleId child).weaken_ok ?_
    rintro - h' hsub ⟨hne, hhead⟩
    refine ⟨(hfound _).mono hsub, ?_⟩
    rintro c ⟨⟩
    exact ⟨hne, hhead⟩

theorem validateParentOpt_keeps (tenantId : String) (parentRoleId childRoleId : Option Uuid) :
    (RolesRepo.validateParentOpt tenantId parentRoleId childRoleId).Keeps careful
      (OnOk fun _ h' => ∀ p, parentRoleId = some p → Found .role p tenantId h' ∧
        ∀ c, childRoleId = some c →
          p ≠ c ∧ h'.head? = some (did (.roles (.cycleProbe p c tenantId)) none)) h := by
  cases parentRoleId with
  | none => rintro p ⟨⟩
  | some parent =>
    refine (validateParent_keeps tenantId parent childRoleId).weaken_ok ?_
    rintro - h' - hfound p ⟨⟩
    exact hfound

/-- A new role is inserted under a fresh id, below a parent of the tenant. -/
theorem createRole_keeps (w : World) (tenantId name : String) (parentRoleId : Option Uuid) :
    (RolesRepo.create w tenantId name parentRoleId).Keeps careful (OnOk fun _ _ => True) h := by
  unfold RolesRepo.create
  generalize trim name = name
  have hq : Harmless (.sql (.roles (.getRoleIdByUid tenantId (toUid w name)))) :=
    fun _ _ => trivial
  have huuid : Harmless .newUuid := fun _ _ => trivial
  refine (keeps_ensure_ok _ _).bind_ok ?_
  rintro - _ - -
  refine (keeps_query_ok (careful_of_harmless hq)).bind_ok ?_
  rintro _ _ - -
  refine (keeps_ensure_ok _ _).bind_ok ?_
  rintro - _ - -
  refine (validateParentOpt_keeps tenantId parentRoleId none).bind_ok ?_
  rintro - h' - hparent
  refine (keeps_newUuid_ok (careful_of_harmless huuid)).bind_ok ?_
  rintro id _ - rfl
  refine (keeps_execute_ok ?_).bind_ok fun _ _ _ _ => trivial
  rintro ⟨_, r⟩ ⟨⟩
  exact ⟨rfl, fun p hp => (hparent p hp).1.mono (List.subset_cons_self _ _)⟩

/-- A role is moved below a parent of the tenant that has just been checked. -/
theorem setParent_keeps (tenantId : String) (roleId : Uuid) (parentRoleId : Option Uuid) :
    (RolesRepo.setParent tenantId roleId parentRoleId).Keeps careful (OnOk fun _ _ => True) h := by
  have hq : Harmless (.sql (.roles (.existsInTenant roleId tenantId))) := fun _ _ => trivial
  refine (keeps_query_ok (careful_of_harmless hq)).bind_ok ?_
  rintro _ _ - -
  refine (keeps_ensure_ok _ _).bind_ok ?_
  rintro - _ - -
  refine (validateParentOpt_keeps tenantId parentRoleId (some roleId)).bind_ok ?_
  rintro - h' - hparent
  refine (keeps_execute_ok ?_).weaken_ok fun _ _ _ _ => trivial
  rintro ⟨_, r⟩ ⟨⟩ p hp
  obtain ⟨hfound, hwalk⟩ := hparent p hp
  exact ⟨hfound, hwalk roleId rfl⟩

/-- A new permission has a fresh id. -/
theorem createPermission_keeps (tenantId name : String) (description : Option String)
    (document : PermissionDocument) :
    (PermissionsRepo.create tenantId name description document).Keeps careful
      (OnOk fun _ _ => True) h := by
  have huuid : Harmless .newUuid := fun _ _ => trivial
  refine (keeps_newUuid_ok (careful_of_harmless huuid)).bind_ok ?_
  rintro id _ - rfl
  refine (keeps_execute_ok ?_).bind_ok fun _ _ _ _ => trivial
  rintro ⟨_, r⟩ ⟨⟩
  exact rfl

theorem upsertPermission_keeps (tenantId name : String) (description : Option String)
    (document : PermissionDocument) :
    (PermissionsRepo.upsert tenantId name description document).Keeps careful
      (OnOk fun _ _ => True) h := by
  have huuid : Harmless .newUuid := fun _ _ => trivial
  refine (keeps_newUuid_ok (careful_of_harmless huuid)).bind_ok ?_
  rintro id _ - rfl
  refine (keeps_query_ok ?_).weaken_ok fun _ _ _ _ => trivial
  rintro ⟨_, r⟩ ⟨⟩
  exact rfl

/-- A permission is attached after both ends were found in the tenant. -/
theorem attachToRole_keeps (tenantId : String) (roleId permissionId : Uuid) :
    (PermissionsRepo.attachToRole tenantId roleId permissionId).Keeps careful
      (OnOk fun _ _ => True) h := by
  have hrole : Harmless (.sql (.permissions (.roleExists roleId tenantId))) := fun _ _ => trivial
  have hpermission : Harmless (.sql (.permissions (.permissionExists permissionId tenantId))) :=
    fun _ _ => trivial
  refine (keeps_query_ok (careful_of_harmless hrole)).bind_ok ?_
  rintro roleExists _ - rfl
  refine (keeps_ensure_ok _ _).bind_ok ?_
  rintro - _ - ⟨rfl, rfl⟩
  refine (keeps_query_ok (careful_of_harmless hpermission)).bind_ok ?_
  rintro permExists _ - rfl
  refine (keeps_ensure_ok _ _).bind_ok ?_
  rintro - _ - ⟨rfl, rfl⟩
  refine (keeps_execute_ok ?_).weaken_ok fun _ _ _ _ => trivial
  rintro ⟨_, r⟩ ⟨⟩
  exact ⟨tenantId, ⟨_, List.mem_cons_of_mem _ List.mem_cons_self, rfl⟩,
    ⟨_, List.mem_cons_self, rfl⟩⟩

/-! ### All calls -/

/-- A statement that needs no care. -/
theorem asks_statement {q : Sql} (hq : Harmless (.sql q)) : (query q).Asks Harmless :=
  asks_query hq

theorem asks_executed {q : Sql} (hq : Harmless (.sql q)) : (execute q).Asks Harmless :=
  (asks_statement hq).bind fun _ => asks_pure ()

theorem createGroup_keeps (w : World) (tenantId name : String) (description : Option String) :
    (GroupsRepo.create w tenantId name description).Keeps careful (OnOk fun _ _ => True) h := by
  unfold GroupsRepo.create
  generalize trim name = name
  apply keeps_harmless
  refine (asks_ensure _ _).bind fun _ => (asks_statement ?_).bind fun _ =>
    (asks_ensure _ _).bind fun _ => Asks.bind ⟨fun _ _ => trivial, fun _ => trivial⟩ fun id => ?_
  · exact fun _ _ => trivial
  · exact (asks_executed (by exact fun _ _ => trivial)).bind fun _ => asks_pure _

theorem updateGroup_keeps (tenantId : String) (groupId : Uuid) (name : Option String)
    (description : Option (Option String)) :
    (GroupsRepo.update tenantId groupId name description).Keeps careful
      (OnOk fun _ _ => True) h := by
  unfold GroupsRepo.update
  generalize name.map trim = name
  apply keeps_harmless
  refine Asks.bind ?_ fun _ => asks_statement (by exact fun _ _ => trivial)
  cases name with
  | none => trivial
  | some n =>
    exact (asks_ensure _ _).bind fun _ =>
      (asks_statement (by exact fun _ _ => trivial)).bind fun _ => asks_ensure _ _

theorem requireGroup_harmless (tenantId : String) (groupId : Uuid) (touched : Nat)
    (message : String) :
    (GroupsRepo.requireGroup tenantId groupId touched message).Asks Harmless := by
  unfold GroupsRepo.requireGroup
  split
  · exact (asks_statement (by exact fun _ _ => trivial)).bind fun _ => asks_ensure _ _
  · trivial

theorem createMembership_keeps (identity : Identity) (tenantId : String)
    (username : Option String) :
    (UsersRepo.create identity tenantId username).Keeps careful (OnOk fun _ _ => True) h := by
  apply keeps_harmless
  refine Asks.bind ⟨fun _ _ => trivial, fun _ => trivial⟩ fun id => ?_
  refine Asks.bind ⟨fun _ _ => trivial, fun _ => trivial⟩ fun now => ?_
  exact (asks_executed (by exact fun _ _ => trivial)).bind fun _ => asks_pure _

/-- **Every call finds out what it has to before it writes.** -/
theorem RepoCall.run_careful (w : World) (c : RepoCall) :
    (c.run w).Keeps careful (OnOk fun _ _ => True) h := by
  cases c with
  | createRole tenantId name parentRoleId =>
    rw [RepoCall.run]
    have hkeeps := @createRole_keeps h w tenantId name parentRoleId
    generalize RolesRepo.create w tenantId name parentRoleId = p at hkeeps ⊢
    exact keeps_ignored hkeeps
  | setParent tenantId roleId parentRoleId =>
    rw [RepoCall.run]
    exact setParent_keeps tenantId roleId parentRoleId
  | attachToRole tenantId roleId permissionId =>
    rw [RepoCall.run]
    exact attachToRole_keeps tenantId roleId permissionId
  | createPermission tenantId name description document =>
    rw [RepoCall.run]
    exact keeps_ignored (createPermission_keeps tenantId name description document)
  | upsertPermission tenantId name description document =>
    rw [RepoCall.run]
    exact keeps_ignored (upsertPermission_keeps tenantId name description document)
  | createGroup tenantId name description =>
    rw [RepoCall.run]
    have hkeeps := @createGroup_keeps h w tenantId name description
    generalize GroupsRepo.create w tenantId name description = p at hkeeps ⊢
    exact keeps_ignored hkeeps
  | updateGroup tenantId groupId name description =>
    rw [RepoCall.run]
    have hkeeps := @updateGroup_keeps h tenantId groupId name description
    generalize GroupsRepo.update tenantId groupId name description = p at hkeeps ⊢
    exact keeps_ignored hkeeps
  | createMembership identity tenantId username =>
    rw [RepoCall.run]
    exact keeps_ignored (createMembership_keeps identity tenantId username)
  | addUser tenantId groupId userId =>
    rw [RepoCall.run]
    exact keeps_harmless ((asks_statement (by exact fun _ _ => trivial)).bind fun touched =>
      requireGroup_harmless tenantId groupId touched _)
  | assignRole tenantId groupId roleId =>
    rw [RepoCall.run]
    exact keeps_harmless ((asks_statement (by exact fun _ _ => trivial)).bind fun touched =>
      requireGroup_harmless tenantId groupId touched _)
  | assignRoleToUser =>
    rw [RepoCall.run]
    exact keeps_harmless ((asks_statement (by exact fun _ _ => trivial)).bind fun _ =>
      asks_ensure _ _)
  | getRoleAncestors =>
    rw [RepoCall.run]
    exact keeps_ignored (keeps_harmless (asks_statement (by exact fun _ _ => trivial)))
  | _ =>
    -- one statement that removes rows
    rw [RepoCall.run]
    exact keeps_ignored (keeps_harmless ((asks_statement (by exact fun _ _ => trivial)).bind fun _ =>
      asks_pure _))

end Calls

end Authrs
