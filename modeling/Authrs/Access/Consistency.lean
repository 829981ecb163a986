import Authrs.Admin.Isolation

/-!
# Grants within a tenant

The junction tables link rows of one tenant, and the parent of a role is a role of its tenant.
Neither is a constraint of the schema. A statement keeps both when it is guarded: an attachment
links a role and a permission of one tenant, and a parent is a role of the tenant of its child.
The statements that insert the other links look up both endpoints themselves, and a delete
removes what refers to the deleted row.

## Main definitions

* `Db.GrantsSound`: the four junction tables link rows of one tenant
* `Db.HierarchySound`: parents are roles of the tenant
* `Sql.Guarded db q`: what the surroundings of a statement have to ensure

## Main results

* `Sql.exec_grantsSound`, `Sql.exec_hierarchySound`: guarded statements keep both
-/

namespace Authrs

open Relational

namespace Db

/-- **Grants stay within a tenant**: each junction row links two rows of one tenant. -/
structure GrantsSound (db : Db) : Prop where
  userRoles : Linked db.userRoles (fun T x => db.ownsUser T x.userId)
    fun T x => db.ownsRole T x.roleId
  userGroups : Linked db.userGroups (fun T x => db.ownsUser T x.userId)
    fun T x => db.ownsGroup T x.groupId
  groupRoles : Linked db.groupRoles (fun T x => db.ownsGroup T x.groupId)
    fun T x => db.ownsRole T x.roleId
  rolePermissions : Linked db.rolePermissions (fun T x => db.ownsRole T x.roleId)
    fun T x => db.ownsPermission T x.permissionId

/-- **Parents are roles of the tenant**, whose id fits its column. -/
structure HierarchySound (db : Db) : Prop where
  fits : ∀ r ∈ db.roles, varcharReq 255 r.tenantId = .ok r.tenantId
  parents : ∀ r ∈ db.roles, ∀ p, r.parentRoleId = some p → db.ownsRole r.tenantId p

/-- What is owned stays owned, and the links stay. -/
theorem GrantsSound.congr {db db' : Db} (h : db.GrantsSound)
    (hu : ∀ T id, db.ownsUser T id → db'.ownsUser T id)
    (hr : ∀ T id, db.ownsRole T id → db'.ownsRole T id)
    (hg : ∀ T id, db.ownsGroup T id → db'.ownsGroup T id)
    (hp : ∀ T id, db.ownsPermission T id → db'.ownsPermission T id)
    (hur : ∀ x ∈ db'.userRoles, x ∈ db.userRoles)
    (hug : ∀ x ∈ db'.userGroups, x ∈ db.userGroups)
    (hgr : ∀ x ∈ db'.groupRoles, x ∈ db.groupRoles)
    (hrp : ∀ x ∈ db'.rolePermissions, x ∈ db.rolePermissions) : db'.GrantsSound where
  userRoles := h.userRoles.mono hur (fun _ _ T => hu T _) fun _ _ T => hr T _
  userGroups := h.userGroups.mono hug (fun _ _ T => hu T _) fun _ _ T => hg T _
  groupRoles := h.groupRoles.mono hgr (fun _ _ T => hg T _) fun _ _ T => hr T _
  rolePermissions := h.rolePermissions.mono hrp (fun _ _ T => hr T _) fun _ _ T => hp T _

theorem HierarchySound.congr {db db' : Db} (h : db.HierarchySound) (hroles : db'.roles = db.roles) :
    db'.HierarchySound where
  fits := hroles ▸ h.fits
  parents r hr p hp := by
    rw [hroles] at hr
    obtain ⟨q, hq, hid⟩ := h.parents r hr p hp
    exact ⟨q, hroles ▸ hq, hid⟩

/-! ### Deletes and moves -/

section Drop

variable {db : Db} {T : String} {id : Uuid}

/-- The roles that are left, without the parent that is gone. -/
theorem mem_dropRole {roleId : Uuid} {r : RoleRow} :
    r ∈ (db.dropRole roleId).roles ↔ ∃ x ∈ db.roles, x.id ≠ roleId ∧ x.orphaned roleId = r := by
  change r ∈ (db.roles.delete fun r => r.id = roleId).update (fun _ => true)
    (RoleRow.orphaned roleId) (RoleRow.orphaned_id roleId) ↔ _
  rw [Table.mem_update]
  constructor
  · rintro ⟨x, hx, rfl⟩
    obtain ⟨hx, hne⟩ := Table.mem_delete.mp hx
    exact ⟨x, hx, by simpa using hne, rfl⟩
  · rintro ⟨x, hx, hne, rfl⟩
    exact ⟨x, Table.mem_delete.mpr ⟨hx, by simpa using hne⟩, rfl⟩

theorem ownsRole_dropRole {roleId : Uuid} :
    (db.dropRole roleId).ownsRole T id ↔ db.ownsRole T id ∧ id ≠ roleId :=
  (Table.has_update (RoleRow.orphaned_id roleId) (RoleRow.orphaned_tenantId roleId)).trans
    Table.has_delete

/-- The roles, with the new parent of the one that was moved. -/
theorem mem_reparent {parent : Option Uuid} {roleId : Uuid} {tenantId : String} {r : RoleRow} :
    r ∈ (db.reparent parent roleId tenantId).roles ↔ ∃ x ∈ db.roles,
      (if x.id = roleId ∧ x.tenantId = tenantId then x.withParent parent else x) = r := by
  change r ∈ db.roles.update (fun r => r.id = roleId && r.tenantId = tenantId)
    (.withParent parent) (fun r => r.withParent_id _) ↔ _
  rw [Table.mem_update]
  simp only [Bool.and_eq_true, decide_eq_true_eq]

theorem ownsRole_reparent {parent : Option Uuid} {roleId : Uuid} {tenantId : String} :
    (db.reparent parent roleId tenantId).ownsRole T id ↔ db.ownsRole T id :=
  Table.has_update (fun r => r.withParent_id _) fun r => r.withParent_tenantId _

theorem GrantsSound.dropRole (h : db.GrantsSound) (roleId : Uuid) :
    (db.dropRole roleId).GrantsSound where
  userRoles := h.userRoles.mono (fun x hx => (Table.mem_delete.mp hx).1) (fun _ _ _ hu => hu)
    fun x hx _ hr => ownsRole_dropRole.mpr ⟨hr, by simpa using (Table.mem_delete.mp hx).2⟩
  userGroups := h.userGroups
  groupRoles := h.groupRoles.mono (fun x hx => (Table.mem_delete.mp hx).1) (fun _ _ _ hg => hg)
    fun x hx _ hr => ownsRole_dropRole.mpr ⟨hr, by simpa using (Table.mem_delete.mp hx).2⟩
  rolePermissions := h.rolePermissions.mono (fun x hx => (Table.mem_delete.mp hx).1)
    (fun x hx _ hr => ownsRole_dropRole.mpr ⟨hr, by simpa using (Table.mem_delete.mp hx).2⟩)
    fun _ _ _ hp => hp

theorem GrantsSound.dropGroup (h : db.GrantsSound) (groupId : Uuid) :
    (db.dropGroup groupId).GrantsSound where
  userRoles := h.userRoles
  userGroups := h.userGroups.mono (fun x hx => (Table.mem_delete.mp hx).1) (fun _ _ _ hu => hu)
    fun x hx _ hg => Table.has_delete.mpr ⟨hg, by simpa using (Table.mem_delete.mp hx).2⟩
  groupRoles := h.groupRoles.mono (fun x hx => (Table.mem_delete.mp hx).1)
    (fun x hx _ hg => Table.has_delete.mpr ⟨hg, by simpa using (Table.mem_delete.mp hx).2⟩)
    fun _ _ _ hr => hr
  rolePermissions := h.rolePermissions

theorem GrantsSound.dropPermission (h : db.GrantsSound) (permissionId : Uuid) :
    (db.dropPermission permissionId).GrantsSound where
  userRoles := h.userRoles
  userGroups := h.userGroups
  groupRoles := h.groupRoles
  rolePermissions := h.rolePermissions.mono (fun x hx => (Table.mem_delete.mp hx).1)
    (fun _ _ _ hr => hr)
    fun x hx _ hp => Table.has_delete.mpr ⟨hp, by simpa using (Table.mem_delete.mp hx).2⟩

theorem HierarchySound.dropRole (h : db.HierarchySound) (roleId : Uuid) :
    (db.dropRole roleId).HierarchySound := by
  constructor
  · intro r hr
    obtain ⟨x, hx, -, rfl⟩ := mem_dropRole.mp hr
    rw [RoleRow.orphaned_tenantId]
    exact h.fits x hx
  · intro r hr p hp
    obtain ⟨x, hx, -, rfl⟩ := mem_dropRole.mp hr
    unfold RoleRow.orphaned at hp
    split at hp
    · cases hp
    · next hne =>
      rw [RoleRow.orphaned_tenantId, ownsRole_dropRole]
      refine ⟨h.parents x hx p hp, ?_⟩
      rintro rfl
      exact hne hp

end Drop

end Db

/-! ### Statements -/

/-- The roles with the id, if any, are the tenant's. -/
def Db.roleOnlyIn (db : Db) (T : String) (id : Uuid) : Prop :=
  ∀ r ∈ db.roles, r.id = id → r.tenantId = T

/-- The permissions with the id, if any, are the tenant's. -/
def Db.permissionOnlyIn (db : Db) (T : String) (id : Uuid) : Prop :=
  ∀ p ∈ db.permissions, p.id = id → p.tenantId = T

/-- **What the surroundings of a statement have to ensure**: a parent is of the tenant that the
statement names, and an attachment stays within a tenant. -/
def Sql.Guarded (db : Db) : Sql → Prop
  | .roles (.insert _ tenantId _ _ (some p)) => db.roleOnlyIn tenantId p
  | .roles (.setParent (some p) _ tenantId) => db.roleOnlyIn tenantId p
  | .permissions (.attach roleId permissionId) =>
    ∃ T, db.roleOnlyIn T roleId ∧ db.permissionOnlyIn T permissionId
  | _ => True

section Statements

variable {db db' : Db} {env : SqlEnv}

/-- A statement on roles links rows of one tenant only, and needs no guard for it. -/
theorem RoleStmt.exec_grantsSound {q : RoleStmt} {r : q.Rows} (h : q.exec db = .ok (r, db'))
    (hs : db.GrantsSound) : db'.GrantsSound := by
  cases q with
  | insert =>
    obtain ⟨_, _, -, -, -, hins, -, -, rfl⟩ := insertRole_ok h
    exact hs.congr (fun _ _ => id) (fun _ _ hr => (Table.has_insert hins).mpr (.inr hr))
      (fun _ _ => id) (fun _ _ => id) (fun _ => id) (fun _ => id) (fun _ => id) fun _ => id
  | assignRoleToUser tenantId userId roleId =>
    obtain rfl | ⟨t, hu, hr, hins, rfl⟩ := insertUserRole_ok h
    · exact hs
    · -- both endpoints were looked up by the statement itself
      exact { hs with
        userRoles := hs.userRoles.insert hins (Db.userIn_isSome.mp hu) (Db.roleIn_isSome.mp hr) }
  | removeRoleFromUser =>
    cases h
    exact { hs with
      userRoles := hs.userRoles.mono (fun x hx => (Table.mem_delete.mp hx).1) (fun _ _ _ => id)
        fun _ _ _ => id }
  | setParent =>
    obtain ⟨-, rfl⟩ := setParent_ok h
    exact hs.congr (fun _ _ => id) (fun _ _ => Db.ownsRole_reparent.mpr)
      (fun _ _ => id) (fun _ _ => id) (fun _ => id) (fun _ => id) (fun _ => id) fun _ => id
  | delete =>
    simp only [exec] at h
    split at h <;> cases h
    · exact hs
    · exact hs.dropRole _
  | cycleProbe =>
    obtain ⟨_, -, h⟩ := bind_eq_ok.mp h
    cases h
    exact hs
  | getRoleAncestors =>
    obtain ⟨_, -, h⟩ := bind_eq_ok.mp h
    cases h
    exact hs
  | _ =>
    cases h
    exact hs

/-- **A guarded statement on roles keeps parents within the tenant.** -/
theorem RoleStmt.exec_hierarchySound {q : RoleStmt} {r : q.Rows} (h : q.exec db = .ok (r, db'))
    (hguard : (Sql.roles q).Guarded db) (hs : db.HierarchySound) : db'.HierarchySound := by
  cases q with
  | insert id tenantId name uid parent =>
    obtain ⟨row, t, htenant, -, hparent, hins, -, hexists, rfl⟩ := insertRole_ok h
    have howns : ∀ T p, db.ownsRole T p → ({ db with roles := t } : Db).ownsRole T p :=
      fun _ _ hr => (Table.has_insert hins).mpr (.inr hr)
    constructor
    · intro r hr
      rcases (Table.mem_insert? hins).mp hr with rfl | hr
      · exact varcharReq_idem htenant
      · exact hs.fits r hr
    · intro r hr p hp
      rcases (Table.mem_insert? hins).mp hr with rfl | hr
      · rw [hparent] at hp
        subst hp
        obtain ⟨q, hq, rfl⟩ := hexists p rfl
        refine ⟨q, hq, rfl, ?_⟩
        rcases (Table.mem_insert? hins).mp hq with rfl | hq
        · rfl
        · -- the parent is of the tenant that the statement names, which fits its column
          have hqt : q.tenantId = tenantId := hguard q hq rfl
          have hfits := hs.fits q hq
          rw [hqt, htenant] at hfits
          rw [hqt]
          exact (Except.ok.inj hfits).symm
      · exact howns _ _ (hs.parents r hr p hp)
  | setParent parent roleId tenantId =>
    obtain ⟨hexists, rfl⟩ := setParent_ok h
    constructor
    · intro r hr
      obtain ⟨x, hx, rfl⟩ := Db.mem_reparent.mp hr
      split
      · exact hs.fits x hx
      · exact hs.fits x hx
    · intro r hr p hp
      rw [Db.ownsRole_reparent]
      obtain ⟨x, hx, rfl⟩ := Db.mem_reparent.mp hr
      by_cases hchosen : x.id = roleId ∧ x.tenantId = tenantId
      · -- the parent is of the tenant that the statement names, which is that of the row
        rw [if_pos hchosen] at hp ⊢
        change parent = some p at hp
        subst hp
        obtain ⟨q, hq, rfl⟩ := hexists ⟨x, hx, hchosen⟩ p rfl
        rw [RoleRow.withParent_tenantId, hchosen.2]
        exact ⟨q, hq, rfl, hguard q hq rfl⟩
      · rw [if_neg hchosen] at hp ⊢
        exact hs.parents x hx p hp
  -- The children of a deleted role have no parent afterwards.
  | delete =>
    simp only [exec] at h
    split at h <;> cases h
    · exact hs
    · exact hs.dropRole _
  | cycleProbe =>
    obtain ⟨_, -, h⟩ := bind_eq_ok.mp h
    cases h
    exact hs
  | getRoleAncestors =>
    obtain ⟨_, -, h⟩ := bind_eq_ok.mp h
    cases h
    exact hs
  | assignRoleToUser =>
    obtain rfl | ⟨_, -, -, -, rfl⟩ := insertUserRole_ok h
    · exact hs
    · exact hs.congr rfl
  | removeRoleFromUser =>
    cases h
    exact hs.congr rfl
  | _ =>
    cases h
    exact hs

theorem GroupStmt.exec_grantsSound {q : GroupStmt} {r : q.Rows} (h : q.exec env db = .ok (r, db'))
    (hs : db.GrantsSound) : db'.GrantsSound := by
  cases q with
  | insert =>
    obtain ⟨_, _, -, -, hins, -, rfl⟩ := insertGroup_ok h
    exact hs.congr (fun _ _ => id) (fun _ _ => id)
      (fun _ _ hg => (Table.has_insert hins).mpr (.inr hg)) (fun _ _ => id)
      (fun _ => id) (fun _ => id) (fun _ => id) fun _ => id
  | update =>
    obtain rfl | ⟨_, rfl⟩ := updateGroup_ok h
    · exact hs
    · exact hs.congr (fun _ _ => id) (fun _ _ => id)
        (fun _ _ => (Table.has_update (fun g => g.withDetails_id _ _) fun g =>
          g.withDetails_tenantId _ _).mpr)
        (fun _ _ => id) (fun _ => id) (fun _ => id) (fun _ => id) fun _ => id
  | delete =>
    simp only [exec] at h
    split at h <;> cases h
    · exact hs
    · exact hs.dropGroup _
  -- The `SELECT` of the insert finds both rows in the tenant, or inserts nothing.
  | addUser tenantId userId groupId =>
    have hdb : db' = (insertUserGroup env db tenantId userId groupId).2 :=
      (congrArg Prod.snd (Except.ok.inj h)).symm
    rw [hdb]
    obtain hsame | ⟨t, hu, hg, hins, hnew⟩ :=
      insertUserGroup_cases env db tenantId userId groupId
    · rw [hsame]
      exact hs
    · rw [hnew]
      exact { hs with
        userGroups := hs.userGroups.insert hins (Db.userIn_isSome.mp hu) (Db.groupIn_isSome.mp hg) }
  | removeUser =>
    cases h
    exact { hs with
      userGroups := hs.userGroups.mono (fun x hx => (Table.mem_delete.mp hx).1) (fun _ _ _ => id)
        fun _ _ _ => id }
  | assignRole tenantId groupId roleId =>
    have hdb : db' = (insertGroupRole db tenantId groupId roleId).2 :=
      (congrArg Prod.snd (Except.ok.inj h)).symm
    rw [hdb]
    obtain hsame | ⟨t, hg, hr, hins, hnew⟩ := insertGroupRole_cases db tenantId groupId roleId
    · rw [hsame]
      exact hs
    · rw [hnew]
      exact { hs with
        groupRoles := hs.groupRoles.insert hins (Db.groupIn_isSome.mp hg) (Db.roleIn_isSome.mp hr) }
  | removeRole =>
    cases h
    exact { hs with
      groupRoles := hs.groupRoles.mono (fun x hx => (Table.mem_delete.mp hx).1) (fun _ _ _ => id)
        fun _ _ _ => id }
  | _ =>
    cases h
    exact hs

/-- **A guarded statement on permissions**: an attachment does not look at tenants. -/
theorem PermissionStmt.exec_grantsSound {q : PermissionStmt} {r : q.Rows}
    (h : q.exec db = .ok (r, db')) (hguard : (Sql.permissions q).Guarded db)
    (hs : db.GrantsSound) : db'.GrantsSound := by
  -- a new permission takes nothing from the others
  have hadded : ∀ {row : PermissionRow} {t : Table PermissionRow.id},
      db.permissions.insert? row = some t → ({ db with permissions := t } : Db).GrantsSound :=
    fun hins => hs.congr (fun _ _ => id) (fun _ _ => id) (fun _ _ => id)
      (fun _ _ hp => (Table.has_insert hins).mpr (.inr hp)) (fun _ => id) (fun _ => id)
      (fun _ => id) fun _ => id
  cases q with
  | insert =>
    obtain ⟨_, _, -, -, hins, -, rfl⟩ := insertPermission_ok h
    exact hadded hins
  | upsert =>
    obtain ⟨_, -, -, rfl⟩ | ⟨_, _, _, -, hins⟩ := upsertPermission_ok h
    · exact hs.congr (fun _ _ => id) (fun _ _ => id) (fun _ _ => id)
        (fun _ _ => (Table.has_update (fun p => p.withDocument_id _ _) fun p =>
          p.withDocument_tenantId _ _).mpr)
        (fun _ => id) (fun _ => id) (fun _ => id) fun _ => id
    · obtain ⟨_, _, -, -, hnew, -, rfl⟩ := insertPermission_ok hins
      exact hadded hnew
  | delete =>
    simp only [exec] at h
    split at h <;> cases h
    · exact hs
    · exact hs.dropPermission _
  | attach =>
    obtain rfl | ⟨t, hins, ⟨x, hx, hxid⟩, ⟨y, hy, hyid⟩, rfl⟩ := insertRolePermission_ok h
    · exact hs
    · -- the foreign keys say that both exist, and the guard whose they are
      obtain ⟨T, hrole, hpermission⟩ := hguard
      exact { hs with
        rolePermissions := hs.rolePermissions.insert hins
          (show db.ownsRole T _ from ⟨x, hx, hxid, hrole x hx hxid⟩)
          (show db.ownsPermission T _ from ⟨y, hy, hyid, hpermission y hy hyid⟩) }
  | detach =>
    cases h
    exact { hs with
      rolePermissions := hs.rolePermissions.mono (fun x hx => (Table.mem_delete.mp hx).1)
        (fun _ _ _ => id) fun _ _ _ => id }
  | _ =>
    cases h
    exact hs

/-- Memberships are never removed, and keep their tenant. -/
theorem MembershipStmt.exec_grantsSound {q : MembershipStmt} {r : q.Rows}
    (h : q.exec env db = .ok (r, db')) (hs : db.GrantsSound) : db'.GrantsSound := by
  have hkept : ∀ {t : Table MembershipRow.id},
      (∀ T id, db.users.Has MembershipRow.tenantId T id → t.Has MembershipRow.tenantId T id) →
        ({ db with users := t } : Db).GrantsSound :=
    fun hu => hs.congr hu (fun _ _ => id) (fun _ _ => id) (fun _ _ => id) (fun _ => id)
      (fun _ => id) (fun _ => id) fun _ => id
  cases q with
  | create =>
    obtain ⟨_, _, -, -, -, -, hins, rfl⟩ := insertMembership_ok h
    exact hkept fun _ _ hu => (Table.has_insert hins).mpr (.inr hu)
  | setAccessValidUntil =>
    cases h
    exact hkept fun _ _ => (Table.has_update (fun u => u.withAccessValidUntil_id _ _) fun u =>
      u.withAccessValidUntil_tenantId _ _).mpr
  | archive =>
    cases h
    exact hkept fun _ _ => (Table.has_update (fun u => u.archived_id _) fun u =>
      u.archived_tenantId _).mpr
  | _ =>
    cases h
    exact hs

/-- **Guarded statements keep grants within a tenant.** -/
theorem Sql.exec_grantsSound {q : Sql} {r : q.Rows} (h : q.exec env db = .ok (r, db'))
    (hguard : q.Guarded db) (hs : db.GrantsSound) : db'.GrantsSound := by
  cases q with
  | users => exact MembershipStmt.exec_grantsSound h hs
  | roles => exact RoleStmt.exec_grantsSound h hs
  | groups => exact GroupStmt.exec_grantsSound h hs
  | permissions => exact PermissionStmt.exec_grantsSound h hguard hs
  | identities =>
    rw [IdentityStmt.exec_frame h]
    exact ⟨hs.userRoles, hs.userGroups, hs.groupRoles, hs.rolePermissions⟩
  | challenges =>
    rw [ChallengeStmt.exec_frame h]
    exact ⟨hs.userRoles, hs.userGroups, hs.groupRoles, hs.rolePermissions⟩
  | oauth =>
    rw [OauthStmt.exec_frame h]
    exact ⟨hs.userRoles, hs.userGroups, hs.groupRoles, hs.rolePermissions⟩
  | tokens =>
    rw [TokenStmt.exec_frame h]
    exact ⟨hs.userRoles, hs.userGroups, hs.groupRoles, hs.rolePermissions⟩
  | sessions =>
    rw [SessionStmt.exec_frame h]
    exact ⟨hs.userRoles, hs.userGroups, hs.groupRoles, hs.rolePermissions⟩
  | kv =>
    rw [KvStmt.exec_eq h]
    exact hs
  | otps =>
    rw [OtpStmt.exec_frame h]
    exact ⟨hs.userRoles, hs.userGroups, hs.groupRoles, hs.rolePermissions⟩

/-- **Guarded statements keep parents within the tenant.** -/
theorem Sql.exec_hierarchySound {q : Sql} {r : q.Rows} (h : q.exec env db = .ok (r, db'))
    (hguard : q.Guarded db) (hs : db.HierarchySound) : db'.HierarchySound := by
  cases q with
  | roles => exact RoleStmt.exec_hierarchySound h hguard hs
  | users => exact hs.congr (by rw [MembershipStmt.exec_frame h])
  | groups => exact hs.congr (by rw [GroupStmt.exec_frame h])
  | permissions => exact hs.congr (by rw [PermissionStmt.exec_frame h])
  | identities => exact hs.congr (by rw [IdentityStmt.exec_frame h])
  | challenges => exact hs.congr (by rw [ChallengeStmt.exec_frame h])
  | oauth => exact hs.congr (by rw [OauthStmt.exec_frame h])
  | tokens => exact hs.congr (by rw [TokenStmt.exec_frame h])
  | sessions => exact hs.congr (by rw [SessionStmt.exec_frame h])
  | kv => exact hs.congr (by rw [KvStmt.exec_eq h])
  | otps => exact hs.congr (by rw [OtpStmt.exec_frame h])

end Statements

end Authrs
