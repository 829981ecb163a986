import Authrs.Admin.Operations

/-!
# Tenant isolation of the administrative writes

An operation is isolated when it changes only rows of its tenant, and junction rows both of whose
endpoints belong to it. The inserts and the updates name the tenant, so they are isolated from
every state. The four removals of junction rows do not: a removal is isolated only when the row it
names, if there is one, links rows of the tenant. A delete removes what references the deleted
row, so it is isolated only when that belongs to the tenant as well.

## Main definitions

* `Db.ownsUser`, `Db.ownsRole`, `Db.ownsGroup`, `Db.ownsPermission`: a row of a tenant
* `Db.ChangedOnlyIn T`: two databases that differ in rows of `T` only
* `AdminOp.Confined`: what an operation removes belongs to the tenant

## Main results

* `AdminOp.run_changedOnlyIn_iff`: an operation is isolated exactly when it is confined
* `globex_role_removed`: a tenant removes another tenant's role assignment
-/

namespace Authrs

open Interaction Relational

namespace Db

/-- The id is that of a membership of the tenant. -/
def ownsUser (db : Db) (T : String) (id : Uuid) : Prop := ∃ u ∈ db.users, u.id = id ∧ u.tenantId = T

/-- The id is that of a role of the tenant. -/
def ownsRole (db : Db) (T : String) (id : Uuid) : Prop := ∃ r ∈ db.roles, r.id = id ∧ r.tenantId = T

/-- The id is that of a group of the tenant. -/
def ownsGroup (db : Db) (T : String) (id : Uuid) : Prop :=
  ∃ g ∈ db.groups, g.id = id ∧ g.tenantId = T

/-- The id is that of a permission of the tenant. -/
def ownsPermission (db : Db) (T : String) (id : Uuid) : Prop :=
  ∃ p ∈ db.permissions, p.id = id ∧ p.tenantId = T

/-- **The databases differ in rows of `T` only**: rows of its memberships, roles, groups and
permissions, and junction rows both of whose endpoints belong to `T`. -/
structure ChangedOnlyIn (T : String) (db db' : Db) : Prop where
  users : Table.AgreeOutside (·.tenantId = T) db.users db'.users
  roles : Table.AgreeOutside (·.tenantId = T) db.roles db'.roles
  groups : Table.AgreeOutside (·.tenantId = T) db.groups db'.groups
  permissions : Table.AgreeOutside (·.tenantId = T) db.permissions db'.permissions
  userRoles : Table.AgreeOutside (fun x => db.ownsUser T x.userId ∧ db.ownsRole T x.roleId)
    db.userRoles db'.userRoles
  rolePermissions : Table.AgreeOutside
    (fun x => db.ownsRole T x.roleId ∧ db.ownsPermission T x.permissionId)
    db.rolePermissions db'.rolePermissions
  userGroups : Table.AgreeOutside (fun x => db.ownsUser T x.userId ∧ db.ownsGroup T x.groupId)
    db.userGroups db'.userGroups
  groupRoles : Table.AgreeOutside (fun x => db.ownsGroup T x.groupId ∧ db.ownsRole T x.roleId)
    db.groupRoles db'.groupRoles
  rest : db' = { db with
    users := db'.users
    roles := db'.roles
    groups := db'.groups
    permissions := db'.permissions
    userRoles := db'.userRoles
    rolePermissions := db'.rolePermissions
    userGroups := db'.userGroups
    groupRoles := db'.groupRoles }

theorem ChangedOnlyIn.refl (T : String) (db : Db) : db.ChangedOnlyIn T db where
  users := .refl _ _
  roles := .refl _ _
  groups := .refl _ _
  permissions := .refl _ _
  userRoles := .refl _ _
  rolePermissions := .refl _ _
  userGroups := .refl _ _
  groupRoles := .refl _ _
  rest := rfl

variable {db : Db} {T : String} {id : Uuid}

theorem userIn_isSome : (db.userIn T id).isSome ↔ db.ownsUser T id := by
  simp [userIn, ownsUser, Table.selectOne, Table.mem_def]

theorem roleIn_isSome : (db.roleIn T id).isSome ↔ db.ownsRole T id := by
  simp [roleIn, ownsRole, Table.selectOne, Table.mem_def]

theorem groupIn_isSome : (db.groupIn T id).isSome ↔ db.ownsGroup T id := by
  simp [groupIn, ownsGroup, Table.selectOne, Table.mem_def]

theorem permissionIn_isSome : (db.permissionIn T id).isSome ↔ db.ownsPermission T id := by
  simp [permissionIn, ownsPermission, Table.selectOne, Table.mem_def]

/-! ### One statement -/

section Delete

/-- A junction row that is removed has to link rows of the tenant. -/
theorem changedOnlyIn_userRoles (p : UserRoleRow → Bool) :
    db.ChangedOnlyIn T { db with userRoles := db.userRoles.delete p } ↔
      ∀ x ∈ db.userRoles, p x = true → db.ownsUser T x.userId ∧ db.ownsRole T x.roleId :=
  ⟨fun h => Table.agreeOutside_delete.mp h.userRoles, fun h =>
    { ChangedOnlyIn.refl T db with userRoles := Table.agreeOutside_delete.mpr h, rest := rfl }⟩

theorem changedOnlyIn_rolePermissions (p : RolePermissionRow → Bool) :
    db.ChangedOnlyIn T { db with rolePermissions := db.rolePermissions.delete p } ↔
      ∀ x ∈ db.rolePermissions, p x = true →
        db.ownsRole T x.roleId ∧ db.ownsPermission T x.permissionId :=
  ⟨fun h => Table.agreeOutside_delete.mp h.rolePermissions, fun h =>
    { ChangedOnlyIn.refl T db with
      rolePermissions := Table.agreeOutside_delete.mpr h, rest := rfl }⟩

theorem changedOnlyIn_userGroups (p : UserGroupRow → Bool) :
    db.ChangedOnlyIn T { db with userGroups := db.userGroups.delete p } ↔
      ∀ x ∈ db.userGroups, p x = true → db.ownsUser T x.userId ∧ db.ownsGroup T x.groupId :=
  ⟨fun h => Table.agreeOutside_delete.mp h.userGroups, fun h =>
    { ChangedOnlyIn.refl T db with userGroups := Table.agreeOutside_delete.mpr h, rest := rfl }⟩

theorem changedOnlyIn_groupRoles (p : GroupRoleRow → Bool) :
    db.ChangedOnlyIn T { db with groupRoles := db.groupRoles.delete p } ↔
      ∀ x ∈ db.groupRoles, p x = true → db.ownsGroup T x.groupId ∧ db.ownsRole T x.roleId :=
  ⟨fun h => Table.agreeOutside_delete.mp h.groupRoles, fun h =>
    { ChangedOnlyIn.refl T db with groupRoles := Table.agreeOutside_delete.mpr h, rest := rfl }⟩

/-- A role of the tenant takes with it what references it: that has to belong to the tenant. -/
theorem changedOnlyIn_dropRole (hrole : db.ownsRole T id) :
    db.ChangedOnlyIn T (db.dropRole id) ↔
      (∀ x ∈ db.userRoles, x.roleId = id → db.ownsUser T x.userId) ∧
      (∀ x ∈ db.rolePermissions, x.roleId = id → db.ownsPermission T x.permissionId) ∧
      (∀ x ∈ db.groupRoles, x.roleId = id → db.ownsGroup T x.groupId) ∧
      (∀ r ∈ db.roles, r.parentRoleId = some id → r.tenantId = T) := by
  -- The deleted row is that of the tenant.
  have hdeleted : Table.AgreeOutside (·.tenantId = T) db.roles
      (db.roles.delete fun r => r.id = id) := by
    refine Table.agreeOutside_delete.mpr fun r hr hid => ?_
    obtain ⟨r', hr', hid', ht⟩ := hrole
    rwa [Table.eq_of_key_eq hr hr' ((of_decide_eq_true hid).trans hid'.symm)]
  -- A child loses its parent, so it has to be of the tenant too.
  have horphaned : Table.AgreeOutside (·.tenantId = T) db.roles (db.dropRole id).roles ↔
      ∀ r ∈ db.roles, r.parentRoleId = some id → r.tenantId = T := by
    rw [hdeleted.trans_iff]
    refine Iff.trans (Table.agreeOutside_update (RoleRow.orphaned_id id) fun r => by
      rw [RoleRow.orphaned_tenantId]) ?_
    constructor
    · intro h r hr hparent
      by_cases hid : r.id = id
      · obtain ⟨r', hr', hid', ht⟩ := hrole
        rwa [Table.eq_of_key_eq hr hr' (hid.trans hid'.symm)]
      · refine (h r (Table.mem_delete.mpr ⟨hr, by simpa using hid⟩) rfl).resolve_right ?_
        intro heq
        have hnone := congrArg RoleRow.parentRoleId heq
        rw [RoleRow.orphaned, if_pos hparent, hparent] at hnone
        cases hnone
    · intro h r hr _
      by_cases hparent : r.parentRoleId = some id
      · exact .inl (h r (Table.mem_delete.mp hr).1 hparent)
      · exact .inr (if_neg hparent)
  constructor
  · intro h
    refine ⟨fun x hx hid => ?_, fun x hx hid => ?_, fun x hx hid => ?_, horphaned.mp h.roles⟩
    · exact (Table.agreeOutside_delete.mp h.userRoles x hx (by simpa using hid)).1
    · exact (Table.agreeOutside_delete.mp h.rolePermissions x hx (by simpa using hid)).2
    · exact (Table.agreeOutside_delete.mp h.groupRoles x hx (by simpa using hid)).1
  · rintro ⟨huser, hperm, hgroup, hchild⟩
    exact {
      ChangedOnlyIn.refl T db with
      roles := horphaned.mpr hchild
      userRoles := Table.agreeOutside_delete.mpr fun x hx hid =>
        ⟨huser x hx (of_decide_eq_true hid), of_decide_eq_true hid ▸ hrole⟩
      rolePermissions := Table.agreeOutside_delete.mpr fun x hx hid =>
        ⟨of_decide_eq_true hid ▸ hrole, hperm x hx (of_decide_eq_true hid)⟩
      groupRoles := Table.agreeOutside_delete.mpr fun x hx hid =>
        ⟨hgroup x hx (of_decide_eq_true hid), of_decide_eq_true hid ▸ hrole⟩
      rest := rfl }

theorem changedOnlyIn_dropGroup (hgroup : db.ownsGroup T id) :
    db.ChangedOnlyIn T (db.dropGroup id) ↔
      (∀ x ∈ db.userGroups, x.groupId = id → db.ownsUser T x.userId) ∧
      (∀ x ∈ db.groupRoles, x.groupId = id → db.ownsRole T x.roleId) := by
  constructor
  · intro h
    refine ⟨fun x hx hid => ?_, fun x hx hid => ?_⟩
    · exact (Table.agreeOutside_delete.mp h.userGroups x hx (by simpa using hid)).1
    · exact (Table.agreeOutside_delete.mp h.groupRoles x hx (by simpa using hid)).2
  · rintro ⟨huser, hrole⟩
    exact {
      ChangedOnlyIn.refl T db with
      groups := Table.agreeOutside_delete.mpr fun g hg hid => by
        obtain ⟨g', hg', hid', ht⟩ := hgroup
        rwa [Table.eq_of_key_eq hg hg' ((of_decide_eq_true hid).trans hid'.symm)]
      userGroups := Table.agreeOutside_delete.mpr fun x hx hid =>
        ⟨huser x hx (of_decide_eq_true hid), of_decide_eq_true hid ▸ hgroup⟩
      groupRoles := Table.agreeOutside_delete.mpr fun x hx hid =>
        ⟨of_decide_eq_true hid ▸ hgroup, hrole x hx (of_decide_eq_true hid)⟩
      rest := rfl }

theorem changedOnlyIn_dropPermission (hperm : db.ownsPermission T id) :
    db.ChangedOnlyIn T (db.dropPermission id) ↔
      ∀ x ∈ db.rolePermissions, x.permissionId = id → db.ownsRole T x.roleId := by
  constructor
  · intro h x hx hid
    exact (Table.agreeOutside_delete.mp h.rolePermissions x hx (by simpa using hid)).1
  · intro hrole
    exact {
      ChangedOnlyIn.refl T db with
      permissions := Table.agreeOutside_delete.mpr fun p hp hid => by
        obtain ⟨p', hp', hid', ht⟩ := hperm
        rwa [Table.eq_of_key_eq hp hp' ((of_decide_eq_true hid).trans hid'.symm)]
      rolePermissions := Table.agreeOutside_delete.mpr fun x hx hid =>
        ⟨hrole x hx (of_decide_eq_true hid), of_decide_eq_true hid ▸ hperm⟩
      rest := rfl }

end Delete

/-! ### The inserts and the updates -/

section Insert

variable {db' : Db} {T : TenantId} {env : SqlEnv}

theorem changedOnlyIn_insertRole {id : Uuid} {name uid : String} {parent : Option Uuid} {n : Nat}
    (h : insertRole db id T.val name uid parent = .ok (n, db')) : db.ChangedOnlyIn T.val db' := by
  obtain ⟨row, t, ht, -, -, hins, -, -, rfl⟩ := insertRole_ok h
  exact { ChangedOnlyIn.refl T.val db with
    roles := Table.agreeOutside_insert hins (varcharReq_tenantId ht), rest := rfl }

theorem changedOnlyIn_insertUserRole {userId roleId : Uuid} {n : Nat}
    (h : insertUserRole db T.val userId roleId = .ok (n, db')) : db.ChangedOnlyIn T.val db' := by
  obtain rfl | ⟨t, hu, hr, hins, rfl⟩ := insertUserRole_ok h
  · exact .refl _ _
  · exact { ChangedOnlyIn.refl T.val db with
      userRoles := Table.agreeOutside_insert hins ⟨userIn_isSome.mp hu, roleIn_isSome.mp hr⟩
      rest := rfl }

/-- A change of the tenant's own rows that leaves the tenant alone. -/
theorem changedOnlyIn_setParent {roleId : Uuid} {parent : Option Uuid} {n : Nat}
    (h : (RoleStmt.setParent parent roleId T.val).exec db = .ok (n, db')) :
    db.ChangedOnlyIn T.val db' := by
  simp only [RoleStmt.exec] at h
  split at h <;> cases h
  refine { ChangedOnlyIn.refl T.val db with roles := ?_, rest := rfl }
  refine (Table.agreeOutside_update (fun r => r.withParent_id _) fun r => by
    rw [RoleRow.withParent_tenantId]).mpr fun r _ hp => .inl ?_
  simp only [Bool.and_eq_true, decide_eq_true_eq] at hp
  exact hp.2

theorem changedOnlyIn_insertGroup {id : Uuid} {name uid : String} {description : Option String}
    {n : Nat} (h : insertGroup env db id T.val name uid description = .ok (n, db')) :
    db.ChangedOnlyIn T.val db' := by
  obtain ⟨row, t, ht, -, hins, -, rfl⟩ := insertGroup_ok h
  exact { ChangedOnlyIn.refl T.val db with
    groups := Table.agreeOutside_insert hins (varcharReq_tenantId ht), rest := rfl }

theorem changedOnlyIn_updateGroup {groupId : Uuid} {name : Option String}
    {description : Option (Option String)} {r : Option (String × String × Option String)}
    (h : updateGroup db T.val groupId name description = .ok (r, db')) :
    db.ChangedOnlyIn T.val db' := by
  obtain rfl | ⟨name', rfl⟩ := updateGroup_ok h
  · exact .refl _ _
  · refine { ChangedOnlyIn.refl T.val db with groups := ?_, rest := rfl }
    refine (Table.agreeOutside_update (fun g => g.withDetails_id _ _) fun g => by
      rw [GroupRow.withDetails_tenantId]).mpr fun g _ hp => .inl ?_
    simp only [Bool.and_eq_true, decide_eq_true_eq] at hp
    exact hp.1

theorem changedOnlyIn_insertUserGroup (env : SqlEnv) (db : Db) (T : TenantId)
    (userId groupId : Uuid) :
    db.ChangedOnlyIn T.val (insertUserGroup env db T.val userId groupId).2 := by
  obtain h | ⟨t, hu, hg, hins, h⟩ := insertUserGroup_cases env db T.val userId groupId
  · rw [h]
    exact .refl _ _
  · rw [h]
    exact { ChangedOnlyIn.refl T.val db with
      userGroups := Table.agreeOutside_insert hins ⟨userIn_isSome.mp hu, groupIn_isSome.mp hg⟩
      rest := rfl }

theorem changedOnlyIn_insertGroupRole (db : Db) (T : TenantId) (groupId roleId : Uuid) :
    db.ChangedOnlyIn T.val (insertGroupRole db T.val groupId roleId).2 := by
  obtain h | ⟨t, hg, hr, hins, h⟩ := insertGroupRole_cases db T.val groupId roleId
  · rw [h]
    exact .refl _ _
  · rw [h]
    exact { ChangedOnlyIn.refl T.val db with
      groupRoles := Table.agreeOutside_insert hins ⟨groupIn_isSome.mp hg, roleIn_isSome.mp hr⟩
      rest := rfl }

theorem changedOnlyIn_insertPermission {id : Uuid} {tenantId name : String}
    {description : Option String} {document : Json} {n : Nat}
    (ht : varcharReq 255 tenantId = .ok T.val ∨ tenantId = T.val)
    (h : insertPermission db id tenantId name description document = .ok (n, db')) :
    db.ChangedOnlyIn T.val db' := by
  obtain ⟨row, t, hrow, -, hins, -, rfl⟩ := insertPermission_ok h
  refine { ChangedOnlyIn.refl T.val db with
    permissions := Table.agreeOutside_insert hins ?_, rest := rfl }
  rcases ht with ht | rfl
  · exact Except.ok.inj (hrow.symm.trans ht)
  · exact varcharReq_tenantId hrow

theorem changedOnlyIn_upsertPermission {id r : Uuid} {name : String}
    {description : Option String} {document : Json}
    (h : upsertPermission db id T.val name description document = .ok (r, db')) :
    db.ChangedOnlyIn T.val db' := by
  obtain ⟨p, hp, ht, rfl⟩ | ⟨tenantId', name', n, ht, hins⟩ := upsertPermission_ok h
  · refine { ChangedOnlyIn.refl T.val db with permissions := ?_, rest := rfl }
    refine (Table.agreeOutside_update (fun x => x.withDocument_id _ _) fun x => by
      rw [PermissionRow.withDocument_tenantId]).mpr fun x hx hid => .inl ?_
    rw [Table.eq_of_key_eq hx hp (of_decide_eq_true hid)]
    exact varcharReq_tenantId ht
  · exact changedOnlyIn_insertPermission (.inr (varcharReq_tenantId ht)) hins

/-- Attaching a permission of the tenant to a role of the tenant. -/
theorem changedOnlyIn_attach {T : String} {roleId permissionId : Uuid} {n : Nat}
    (hr : db.ownsRole T roleId) (hp : db.ownsPermission T permissionId)
    (h : insertRolePermission db roleId permissionId = .ok (n, db')) : db.ChangedOnlyIn T db' := by
  obtain rfl | ⟨t, hins, -, -, rfl⟩ := insertRolePermission_ok h
  · exact .refl _ _
  · exact { ChangedOnlyIn.refl T db with
      rolePermissions := Table.agreeOutside_insert hins ⟨hr, hp⟩, rest := rfl }

end Insert

end Db

namespace AdminOp

/-! ### One operation -/

-- Every proof below starts from the equation of its operation.
attribute [local simp] run

section Run

variable {w : World} {T : TenantId} {s : State}

/-- The tables after a removal that reports whether it found something. -/
theorem exec_orNotFound_db (q : Sql) (found : q.Rows → Bool) (message : String) :
    ((orNotFound (do let r ← query q; pure (found r)) message).exec (handle w) s).2.db =
      ((query q).exec (handle w) s).2.db := by
  unfold orNotFound
  rw [Program.bind_eq, exec_bind_keepsDb fun _ => asks_ensure _ _, Program.bind_eq]
  simp only [Program.pure_eq]
  rw [exec_bind_pure_db]

theorem createRole_changedOnlyIn (name : String) (parentRoleId : Option Uuid) :
    s.db.ChangedOnlyIn T.val ((run w T (.createRole name parentRoleId)).exec (handle w) s).2.db := by
  rw [run, Program.bind_eq, Program.pure_eq, exec_bind_pure_db]
  unfold RolesRepo.create
  simp only [Program.bind_eq]
  refine exec_bind_db (asks_ensure _ _) (.refl _ _) rfl fun _ s₁ h₁ => ?_
  refine exec_bind_db (RolesRepo.getRoleIdByUid_keepsDb w _ _) (.refl _ _) h₁ fun _ s₂ h₂ => ?_
  refine exec_bind_db (asks_ensure _ _) (.refl _ _) h₂ fun _ s₃ h₃ => ?_
  refine exec_bind_db (RolesRepo.validateParentOpt_keepsDb w _ _ _) (.refl _ _) h₃
    fun _ s₄ h₄ => ?_
  refine exec_bind_db keepsDb_newUuid (.refl _ _) h₄ fun _ s₅ h₅ => ?_
  rw [Program.pure_eq, exec_bind_pure_db]
  exact exec_execute_db (.refl _ _) h₅ fun _ _ h => Db.changedOnlyIn_insertRole h

theorem setRoleParent_changedOnlyIn (roleId : Uuid) (parentRoleId : Option Uuid) :
    s.db.ChangedOnlyIn T.val
      ((run w T (.setRoleParent roleId parentRoleId)).exec (handle w) s).2.db := by
  rw [run, RolesRepo.setParent]
  simp only [Program.bind_eq]
  refine exec_bind_db (RolesRepo.existsInTenant_keepsDb w _ _) (.refl _ _) rfl fun _ s₁ h₁ => ?_
  refine exec_bind_db (asks_ensure _ _) (.refl _ _) h₁ fun _ s₂ h₂ => ?_
  refine exec_bind_db (RolesRepo.validateParentOpt_keepsDb w _ _ _) (.refl _ _) h₂
    fun _ s₃ h₃ => ?_
  exact exec_execute_db (.refl _ _) h₃ fun _ _ h => Db.changedOnlyIn_setParent h

theorem assignRoleToUser_changedOnlyIn (userId roleId : Uuid) :
    s.db.ChangedOnlyIn T.val
      ((run w T (.assignRoleToUser userId roleId)).exec (handle w) s).2.db := by
  rw [run, RolesRepo.assignRoleToUser, Program.bind_eq, exec_bind_keepsDb fun _ => asks_ensure _ _]
  exact exec_query_db (.refl _ _) rfl fun _ _ h => Db.changedOnlyIn_insertUserRole h

theorem createGroup_changedOnlyIn (name : String) (description : Option String) :
    s.db.ChangedOnlyIn T.val
      ((run w T (.createGroup name description)).exec (handle w) s).2.db := by
  rw [run, Program.bind_eq, Program.pure_eq, exec_bind_pure_db]
  unfold GroupsRepo.create
  simp only [Program.bind_eq]
  refine exec_bind_db (asks_ensure _ _) (.refl _ _) rfl fun _ s₁ h₁ => ?_
  refine exec_bind_db (GroupsRepo.getIdByUid_keepsDb w _ _) (.refl _ _) h₁ fun _ s₂ h₂ => ?_
  refine exec_bind_db (asks_ensure _ _) (.refl _ _) h₂ fun _ s₃ h₃ => ?_
  refine exec_bind_db keepsDb_newUuid (.refl _ _) h₃ fun _ s₄ h₄ => ?_
  rw [Program.pure_eq, exec_bind_pure_db]
  exact exec_execute_db (.refl _ _) h₄ fun _ _ h => Db.changedOnlyIn_insertGroup h

theorem updateGroup_changedOnlyIn (groupId : Uuid) (name : Option String)
    (description : Option (Option String)) :
    s.db.ChangedOnlyIn T.val
      ((run w T (.updateGroup groupId name description)).exec (handle w) s).2.db := by
  rw [run, Program.bind_eq, exec_bind_keepsDb fun _ => asks_ensure _ _]
  unfold GroupsRepo.update
  refine exec_bind_db (GroupsRepo.validateNameOpt_keepsDb w _ _ _) (.refl _ _) rfl
    fun _ s₁ h₁ => ?_
  exact exec_query_db (.refl _ _) h₁ fun _ _ h => Db.changedOnlyIn_updateGroup h

theorem addUserToGroup_changedOnlyIn (groupId userId : Uuid) :
    s.db.ChangedOnlyIn T.val
      ((run w T (.addUserToGroup groupId userId)).exec (handle w) s).2.db := by
  rw [run, GroupsRepo.addUser, Program.bind_eq, exec_bind_keepsDb fun _ => GroupsRepo.requireGroup_keepsDb w _ _ _ _]
  refine exec_query_db (.refl _ _) rfl fun _ db' h => ?_
  have hdb : (insertUserGroup (s.sqlEnv w) s.db T.val userId groupId).2 = db' :=
    congrArg Prod.snd (Except.ok.inj h)
  exact hdb ▸ Db.changedOnlyIn_insertUserGroup _ _ _ _ _

theorem assignRoleToGroup_changedOnlyIn (groupId roleId : Uuid) :
    s.db.ChangedOnlyIn T.val
      ((run w T (.assignRoleToGroup groupId roleId)).exec (handle w) s).2.db := by
  rw [run, GroupsRepo.assignRole, Program.bind_eq, exec_bind_keepsDb fun _ => GroupsRepo.requireGroup_keepsDb w _ _ _ _]
  refine exec_query_db (.refl _ _) rfl fun _ db' h => ?_
  have hdb : (insertGroupRole s.db T.val groupId roleId).2 = db' :=
    congrArg Prod.snd (Except.ok.inj h)
  exact hdb ▸ Db.changedOnlyIn_insertGroupRole _ _ _ _

theorem createPermission_changedOnlyIn (name : String) (description : Option String)
    (document : PermissionDocument) (overwrite : Bool) :
    s.db.ChangedOnlyIn T.val
      ((run w T (.createPermission name description document overwrite)).exec (handle w) s).2.db := by
  rw [run, Program.bind_eq, Program.pure_eq, exec_bind_pure_db]
  unfold writePermission
  split
  · refine exec_bind_db keepsDb_newUuid (.refl _ _) rfl fun _ s₁ h₁ => ?_
    exact exec_query_db (.refl _ _) h₁ fun _ _ h => Db.changedOnlyIn_upsertPermission h
  · refine exec_bind_db keepsDb_newUuid (.refl _ _) rfl fun _ s₁ h₁ => ?_
    rw [Program.bind_eq, Program.pure_eq, exec_bind_pure_db]
    exact exec_execute_db (.refl _ _) h₁ fun _ _ h =>
      Db.changedOnlyIn_insertPermission (.inr rfl) h

theorem attachPermission_changedOnlyIn (roleId permissionId : Uuid) :
    s.db.ChangedOnlyIn T.val
      ((run w T (.attachPermissionToRole roleId permissionId)).exec (handle w) s).2.db := by
  rw [run, PermissionsRepo.attachToRole]
  simp only [Program.bind_eq, Program.exec_bind, Service.exec_ensure]
  rw [exec_query_ok (r := (s.db.roleIn T.val roleId).isSome) rfl]
  dsimp only
  by_cases hr : (s.db.roleIn T.val roleId).isSome = true
  · rw [if_pos hr]
    dsimp only
    rw [exec_query_ok (r := (s.db.permissionIn T.val permissionId).isSome) rfl]
    dsimp only
    by_cases hp : (s.db.permissionIn T.val permissionId).isSome = true
    · rw [if_pos hp]
      dsimp only
      exact exec_execute_db (.refl _ _) rfl fun _ _ h =>
        Db.changedOnlyIn_attach (Db.roleIn_isSome.mp hr) (Db.permissionIn_isSome.mp hp) h
    · rw [if_neg hp]
      exact .refl _ _
  · rw [if_neg hr]
    exact .refl _ _

/-! ### What is removed -/

/-- **What the operation removes belongs to the tenant**: the junction row of a removal links rows
of the tenant, and what references a deleted row of the tenant is the tenant's. -/
def Confined (db : Db) (T : String) : AdminOp → Prop
  | removeRoleFromUser userId roleId =>
    ⟨userId, roleId⟩ ∈ db.userRoles → db.ownsUser T userId ∧ db.ownsRole T roleId
  | removeUserFromGroup groupId userId =>
    (∃ x ∈ db.userGroups, x.userId = userId ∧ x.groupId = groupId) →
      db.ownsUser T userId ∧ db.ownsGroup T groupId
  | removeRoleFromGroup groupId roleId =>
    ⟨groupId, roleId⟩ ∈ db.groupRoles → db.ownsGroup T groupId ∧ db.ownsRole T roleId
  | detachPermissionFromRole roleId permissionId =>
    ⟨roleId, permissionId⟩ ∈ db.rolePermissions →
      db.ownsRole T roleId ∧ db.ownsPermission T permissionId
  | deleteRole roleId => db.ownsRole T roleId →
    (∀ x ∈ db.userRoles, x.roleId = roleId → db.ownsUser T x.userId) ∧
    (∀ x ∈ db.rolePermissions, x.roleId = roleId → db.ownsPermission T x.permissionId) ∧
    (∀ x ∈ db.groupRoles, x.roleId = roleId → db.ownsGroup T x.groupId) ∧
    (∀ r ∈ db.roles, r.parentRoleId = some roleId → r.tenantId = T)
  | deleteGroup groupId => db.ownsGroup T groupId →
    (∀ x ∈ db.userGroups, x.groupId = groupId → db.ownsUser T x.userId) ∧
    (∀ x ∈ db.groupRoles, x.groupId = groupId → db.ownsRole T x.roleId)
  | deletePermission permissionId => db.ownsPermission T permissionId →
    ∀ x ∈ db.rolePermissions, x.permissionId = permissionId → db.ownsRole T x.roleId
  | _ => True

theorem removeRoleFromUser_changedOnlyIn_iff (userId roleId : Uuid) :
    s.db.ChangedOnlyIn T.val
        ((run w T (.removeRoleFromUser userId roleId)).exec (handle w) s).2.db ↔
      Confined s.db T.val (.removeRoleFromUser userId roleId) := by
  have hdb := exec_orNotFound_db (w := w) (s := s) (.roles (.removeRoleFromUser userId roleId))
    (fun n => decide (0 < n)) "User role assignment not found"
  rw [exec_query_ok rfl] at hdb
  rw [run, RolesRepo.removeRoleFromUser, hdb]
  refine (Db.changedOnlyIn_userRoles _).trans ⟨fun h hmem => h _ hmem (by simp), ?_⟩
  rintro h ⟨u, r⟩ hx hchosen
  simp only [Bool.and_eq_true, decide_eq_true_eq] at hchosen
  obtain ⟨rfl, rfl⟩ := hchosen
  exact h hx

theorem removeUserFromGroup_changedOnlyIn_iff (groupId userId : Uuid) :
    s.db.ChangedOnlyIn T.val
        ((run w T (.removeUserFromGroup groupId userId)).exec (handle w) s).2.db ↔
      Confined s.db T.val (.removeUserFromGroup groupId userId) := by
  have hdb := exec_orNotFound_db (w := w) (s := s) (.groups (.removeUser userId groupId))
    (fun n => decide (0 < n)) "User is not a member of this group"
  rw [exec_query_ok rfl] at hdb
  rw [run, GroupsRepo.removeUser, hdb]
  refine (Db.changedOnlyIn_userGroups _).trans ⟨?_, ?_⟩
  · rintro h ⟨⟨u, g, t⟩, hx, rfl, rfl⟩
    exact h _ hx (by simp)
  · rintro h ⟨u, g, t⟩ hx hchosen
    simp only [Bool.and_eq_true, decide_eq_true_eq] at hchosen
    obtain ⟨rfl, rfl⟩ := hchosen
    exact h ⟨_, hx, rfl, rfl⟩

theorem removeRoleFromGroup_changedOnlyIn_iff (groupId roleId : Uuid) :
    s.db.ChangedOnlyIn T.val
        ((run w T (.removeRoleFromGroup groupId roleId)).exec (handle w) s).2.db ↔
      Confined s.db T.val (.removeRoleFromGroup groupId roleId) := by
  have hdb := exec_orNotFound_db (w := w) (s := s) (.groups (.removeRole groupId roleId))
    (fun n => decide (0 < n)) "Role is not assigned to this group"
  rw [exec_query_ok rfl] at hdb
  rw [run, GroupsRepo.removeRole, hdb]
  refine (Db.changedOnlyIn_groupRoles _).trans ⟨fun h hmem => h _ hmem (by simp), ?_⟩
  rintro h ⟨g, r⟩ hx hchosen
  simp only [Bool.and_eq_true, decide_eq_true_eq] at hchosen
  obtain ⟨rfl, rfl⟩ := hchosen
  exact h hx

theorem detachPermission_changedOnlyIn_iff (roleId permissionId : Uuid) :
    s.db.ChangedOnlyIn T.val
        ((run w T (.detachPermissionFromRole roleId permissionId)).exec (handle w) s).2.db ↔
      Confined s.db T.val (.detachPermissionFromRole roleId permissionId) := by
  have hdb := exec_orNotFound_db (w := w) (s := s) (.permissions (.detach roleId permissionId))
    (fun n => decide (0 < n)) "Permission-role assignment not found"
  rw [exec_query_ok rfl] at hdb
  rw [run, PermissionsRepo.detachFromRole, hdb]
  refine (Db.changedOnlyIn_rolePermissions _).trans ⟨fun h hmem => h _ hmem (by simp), ?_⟩
  rintro h ⟨r, p⟩ hx hchosen
  simp only [Bool.and_eq_true, decide_eq_true_eq] at hchosen
  obtain ⟨rfl, rfl⟩ := hchosen
  exact h hx

theorem deleteRole_changedOnlyIn_iff (roleId : Uuid) :
    s.db.ChangedOnlyIn T.val ((run w T (.deleteRole roleId)).exec (handle w) s).2.db ↔
      Confined s.db T.val (.deleteRole roleId) := by
  have hdb := exec_orNotFound_db (w := w) (s := s) (.roles (.delete T.val roleId))
    (fun n => decide (0 < n)) "Role not found"
  rw [run, RolesRepo.delete, hdb]
  by_cases hown : s.db.ownsRole T.val roleId
  · obtain ⟨r, hr⟩ := Option.isSome_iff_exists.mp (Db.roleIn_isSome.mpr hown)
    have hexec : (Sql.roles (.delete T.val roleId)).exec (s.sqlEnv w) s.db =
        .ok ((1 : Nat), s.db.dropRole roleId) := by
      simp only [Sql.exec, RoleStmt.exec, hr]
    rw [exec_query_ok hexec]
    exact (Db.changedOnlyIn_dropRole hown).trans ⟨fun h _ => h, fun h => h hown⟩
  · have hr : s.db.roleIn T.val roleId = none := by
      simpa using mt Db.roleIn_isSome.mp hown
    have hexec : (Sql.roles (.delete T.val roleId)).exec (s.sqlEnv w) s.db =
        .ok ((0 : Nat), s.db) := by
      simp only [Sql.exec, RoleStmt.exec, hr]
    rw [exec_query_ok hexec]
    exact ⟨fun _ h => absurd h hown, fun _ => .refl _ _⟩

theorem deleteGroup_changedOnlyIn_iff (groupId : Uuid) :
    s.db.ChangedOnlyIn T.val ((run w T (.deleteGroup groupId)).exec (handle w) s).2.db ↔
      Confined s.db T.val (.deleteGroup groupId) := by
  have hdb := exec_orNotFound_db (w := w) (s := s) (.groups (.delete T.val groupId))
    (fun n => decide (0 < n)) "Group not found"
  rw [run, GroupsRepo.delete, hdb]
  by_cases hown : s.db.ownsGroup T.val groupId
  · obtain ⟨g, hg⟩ := Option.isSome_iff_exists.mp (Db.groupIn_isSome.mpr hown)
    have hexec : (Sql.groups (.delete T.val groupId)).exec (s.sqlEnv w) s.db =
        .ok ((1 : Nat), s.db.dropGroup groupId) := by
      simp only [Sql.exec, GroupStmt.exec, hg]
    rw [exec_query_ok hexec]
    exact (Db.changedOnlyIn_dropGroup hown).trans ⟨fun h _ => h, fun h => h hown⟩
  · have hg : s.db.groupIn T.val groupId = none := by
      simpa using mt Db.groupIn_isSome.mp hown
    have hexec : (Sql.groups (.delete T.val groupId)).exec (s.sqlEnv w) s.db =
        .ok ((0 : Nat), s.db) := by
      simp only [Sql.exec, GroupStmt.exec, hg]
    rw [exec_query_ok hexec]
    exact ⟨fun _ h => absurd h hown, fun _ => .refl _ _⟩

theorem deletePermission_changedOnlyIn_iff (permissionId : Uuid) :
    s.db.ChangedOnlyIn T.val
        ((run w T (.deletePermission permissionId)).exec (handle w) s).2.db ↔
      Confined s.db T.val (.deletePermission permissionId) := by
  have hdb := exec_orNotFound_db (w := w) (s := s) (.permissions (.delete permissionId T.val))
    (fun n => decide (0 < n)) "Permission not found"
  rw [run, PermissionsRepo.delete, hdb]
  by_cases hown : s.db.ownsPermission T.val permissionId
  · obtain ⟨p, hp⟩ := Option.isSome_iff_exists.mp (Db.permissionIn_isSome.mpr hown)
    have hexec : (Sql.permissions (.delete permissionId T.val)).exec (s.sqlEnv w) s.db =
        .ok ((1 : Nat), s.db.dropPermission permissionId) := by
      simp only [Sql.exec, PermissionStmt.exec, hp]
    rw [exec_query_ok hexec]
    exact (Db.changedOnlyIn_dropPermission hown).trans ⟨fun h _ => h, fun h => h hown⟩
  · have hp : s.db.permissionIn T.val permissionId = none := by
      simpa using mt Db.permissionIn_isSome.mp hown
    have hexec : (Sql.permissions (.delete permissionId T.val)).exec (s.sqlEnv w) s.db =
        .ok ((0 : Nat), s.db) := by
      simp only [Sql.exec, PermissionStmt.exec, hp]
    rw [exec_query_ok hexec]
    exact ⟨fun _ h => absurd h hown, fun _ => .refl _ _⟩

/-- **An administrative write changes rows of its tenant only, exactly when what it removes
belongs to the tenant.** -/
theorem run_changedOnlyIn_iff (w : World) (T : TenantId) (s : State) (op : AdminOp) :
    s.db.ChangedOnlyIn T.val ((op.run w T).exec (handle w) s).2.db ↔ op.Confined s.db T.val := by
  cases op with
  | createRole name parentRoleId =>
    exact iff_of_true (createRole_changedOnlyIn name parentRoleId) trivial
  | setRoleParent roleId parentRoleId =>
    exact iff_of_true (setRoleParent_changedOnlyIn roleId parentRoleId) trivial
  | deleteRole roleId => exact deleteRole_changedOnlyIn_iff roleId
  | assignRoleToUser userId roleId =>
    exact iff_of_true (assignRoleToUser_changedOnlyIn userId roleId) trivial
  | removeRoleFromUser userId roleId => exact removeRoleFromUser_changedOnlyIn_iff userId roleId
  | createGroup name description =>
    exact iff_of_true (createGroup_changedOnlyIn name description) trivial
  | updateGroup groupId name description =>
    exact iff_of_true (updateGroup_changedOnlyIn groupId name description) trivial
  | deleteGroup groupId => exact deleteGroup_changedOnlyIn_iff groupId
  | addUserToGroup groupId userId =>
    exact iff_of_true (addUserToGroup_changedOnlyIn groupId userId) trivial
  | removeUserFromGroup groupId userId =>
    exact removeUserFromGroup_changedOnlyIn_iff groupId userId
  | assignRoleToGroup groupId roleId =>
    exact iff_of_true (assignRoleToGroup_changedOnlyIn groupId roleId) trivial
  | removeRoleFromGroup groupId roleId =>
    exact removeRoleFromGroup_changedOnlyIn_iff groupId roleId
  | createPermission name description document overwrite =>
    exact iff_of_true (createPermission_changedOnlyIn name description document overwrite) trivial
  | deletePermission permissionId => exact deletePermission_changedOnlyIn_iff permissionId
  | attachPermissionToRole roleId permissionId =>
    exact iff_of_true (attachPermission_changedOnlyIn roleId permissionId) trivial
  | detachPermissionFromRole roleId permissionId =>
    exact detachPermission_changedOnlyIn_iff roleId permissionId

/-- A role assignment of `globex`. -/
def globexAssignment : State :=
  .ofDb { Db.empty with
    tenants := acmeAndGlobex
    identities := .single (.ofHandles ⟨0, id, fun _ => 7⟩ (some "ann@globex.example") none none none
      none none)
    users := ⟨[⟨1, "globex", 7, none, "active", none, 0, 0⟩], by decide⟩
    roles := ⟨[⟨2, "globex", "Admin", "admin", none⟩], by decide⟩
    userRoles := ⟨[⟨1, 2⟩], by decide⟩ } 0

/-- **A tenant removes another tenant's role assignment.** -/
theorem globex_role_removed :
    ¬ globexAssignment.db.ChangedOnlyIn acme.val
      ((run .offline acme (.removeRoleFromUser 1 2)).exec (handle .offline)
        globexAssignment).2.db := by
  intro h
  obtain ⟨⟨u, hu, -, ht⟩, -⟩ := (removeRoleFromUser_changedOnlyIn_iff 1 2).mp h
    (by simp [globexAssignment])
  simp only [globexAssignment, State.ofDb_db, Table.mem_mk, List.mem_singleton] at hu
  rw [hu] at ht
  exact absurd ht (by decide)

end Run

end AdminOp

end Authrs
